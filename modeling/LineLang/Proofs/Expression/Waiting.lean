import LineLang.Proofs.Expression.Tally
import Mathlib.Data.List.Chain

/-!
# Operators wait one at a time

All operators weigh the same, so that above each open parenthesis at most one of them waits for its right
value. `appliesOnce_of_valid`: a token applies the operator on top, if that is one, and no other. What is
applied is a binary operator, so that none is found unsupported.
-/

namespace LineLang.Stacks

/-- The code belongs to an open parenthesis or to a binary operator, and can be read back. -/
def OperatorCode (made r : Registry) (code : Int) : Prop :=
  ∃ lexeme ∈ ["(", "+", "-", "*", "/"],
    made.codeFor .operator lexeme = some code ∧ r.decode code = some lexeme

/-- Of two operators on top of each other, one is an open parenthesis. -/
structure Valid (made r : Registry) (s : Stacks) : Prop where
  known : ∀ code ∈ s.operators, OperatorCode made r code
  apart : s.operators.IsChain fun upper lower =>
    (Dialect.ofRegistry made).isOpenParen upper = true ∨ (Dialect.ofRegistry made).isOpenParen lower = true

section Machine

variable (d : Dialect) (r : Registry)

/-- Applies the operator on top, if it is a binary one. What is below stays as it is. -/
def applyWaiting (s : Stacks) : Except Report Stacks :=
  match s.operators with
  | [] => .ok s
  | code :: operators =>
    match d.roleOf code with
    | .binary _ => return ⟨← applyOperator d r code s.operands, operators⟩
    | _ => .ok s

/-- Whatever comes behind them, the stacks apply the operator that waits on top, and no other. -/
structure AppliesOnce (s : Stacks) : Prop where
  push : ∀ code, s.pushOperator d r code =
    (s.applyWaiting d r >>= fun s => pure { s with operators := code :: s.operators })
  close : s.closeParen d r = (s.applyWaiting d r >>= fun s =>
    match s.operators with
    | [] => .error Fault.unmatchedClose.report
    | _ :: operators => pure { s with operators })
  finish : s.finish d r = (s.applyWaiting d r >>= fun s =>
    match s.operators, s.operands with
    | _ :: _, _ => .error Fault.unmatchedOpen.report
    | [], [] => .error Fault.emptyExpression.report
    | [], value :: _ => pure value)

end Machine

/-! ### Codes on the stack -/

theorem special_operatorCode : ∀ entry ∈ specialLexemes,
    (entry.2.2 = .openParen ∨ entry.2.2.isBinary = true) →
      entry.1 = .operator ∧ entry.2.1 ∈ ["(", "+", "-", "*", "/"] := by decide

variable {made r : Registry}

theorem role_of_operatorCode (coherent : made.Coherent) {code : Int} (h : OperatorCode made r code) :
    (Dialect.ofRegistry made).roles.get? code = some .openParen ∨
      ∃ op, (Dialect.ofRegistry made).roles.get? code = some (.binary op) := by
  obtain ⟨lexeme, member, given, -⟩ := h
  have found (role : Role) (special : (.operator, lexeme, role) ∈ specialLexemes) :
      (Dialect.ofRegistry made).roles.get? code = some role :=
    (Dialect.get?_roles_iff coherent code role).2 ⟨.operator, lexeme, special, given⟩
  simp only [List.mem_cons, List.not_mem_nil, or_false] at member
  rcases member with rfl | rfl | rfl | rfl | rfl
  · exact .inl (found .openParen (by decide))
  · exact .inr ⟨.plus, found _ (by decide)⟩
  · exact .inr ⟨.minus, found _ (by decide)⟩
  · exact .inr ⟨.times, found _ (by decide)⟩
  · exact .inr ⟨.divide, found _ (by decide)⟩

theorem operatorCode_of_classify (reachable : made.Reachable) (leads : made.Leads r) {token : Token}
    {role : Role} (classified : (Dialect.ofRegistry made).classify token = role)
    (opens : role = .openParen ∨ role.isBinary = true) : OperatorCode made r token.code := by
  have special : role ≠ .name ∧ role ≠ .literal ∧ role ≠ .other := by
    refine ⟨?_, ?_, ?_⟩
    all_goals
      rintro rfl
      simp [Role.isBinary] at opens
  obtain ⟨category, lexeme, entry, given⟩ :=
    (Dialect.get?_roles_iff (Registry.coherent_of_reachable reachable) _ _).1
      (Dialect.get?_of_classify special classified)
  obtain ⟨rfl, member⟩ := special_operatorCode _ entry opens
  have coherent := Registry.coherent_of_reachable (Registry.reachable_of_leads reachable leads)
  have now := Registry.codeFor_of_grows (Registry.grows_of_leads leads) given
  exact ⟨lexeme, member, given, Registry.decode_of_codeFor coherent now⟩

/-! ### One application -/

theorem settle_eq_applyWaiting (coherent : made.Coherent) {s : Stacks} (h : s.Valid made r) :
    settle (.ofRegistry made) r s = s.applyWaiting (.ofRegistry made) r := by
  obtain ⟨operands, operators⟩ := s
  obtain ⟨known, apart⟩ := h
  cases operators with
  | nil => rfl
  | cons code operators =>
    rcases role_of_operatorCode coherent (known code List.mem_cons_self) with paren | ⟨op, binary⟩
    · have open' : (Dialect.ofRegistry made).isOpenParen code = true := by
        simp [Dialect.isOpenParen, paren]
      rw [settle_of_settled r (by rintro _ ⟨rfl⟩; exact open')]
      simp only [applyWaiting, Dialect.roleOf, paren, Option.getD_some]
    · have waits : (Dialect.ofRegistry made).isOpenParen code = false := by
        simp [Dialect.isOpenParen, binary]
      -- what is below a waiting operator is a parenthesis, which no operator is applied across
      have below : Settled (.ofRegistry made) operators := by
        intro next first
        exact ((List.isChain_cons.1 apart).1 next first).resolve_left (by simp [waits])
      simp only [settle, collapse, applyWaiting, Dialect.roleOf, binary, Option.getD_some, waits,
        Bool.not_false, if_true]
      cases applyOperator (.ofRegistry made) r code operands with
      | error report => rfl
      | ok values => exact settle_of_settled r below values

theorem appliesOnce_of_valid (coherent : made.Coherent) {s : Stacks} (h : s.Valid made r) :
    s.AppliesOnce (.ofRegistry made) r := by
  have once := settle_eq_applyWaiting coherent h
  constructor
  · intro code
    rw [pushOperator_of_weight r (Dialect.weight_ofRegistry made), once]
  · rw [← once]
    rfl
  · rw [← once]
    rfl

/-! ### Reading on -/

theorem valid_empty (made r : Registry) : Valid made r {} := ⟨List.forall_mem_nil _, .nil⟩

theorem valid_of_suffix {s s' : Stacks} (h : s.Valid made r) (behind : s'.operators <:+ s.operators) :
    s'.Valid made r :=
  ⟨fun code member => h.known code (behind.mem member), h.apart.suffix behind⟩

theorem suffix_of_settle {d : Dialect} {s s' : Stacks} (h : settle d r s = .ok s') :
    s'.operators <:+ s.operators :=
  collapse_invariant (P := fun t => t.operators <:+ s.operators)
    (fun _ _ whole => (List.suffix_cons _ _).trans whole) (List.suffix_refl _) h

theorem valid_read (reachable : made.Reachable) (leads : made.Leads r) {t : SymbolTable}
    {s s' : Stacks} (h : s.Valid made r) {token : Token}
    (read : s.read (.ofRegistry made) r t ((Dialect.ofRegistry made).classify token) token = .ok s') :
    s'.Valid made r := by
  obtain ⟨value, -, rfl⟩ | ⟨op, role, pushed⟩ | ⟨role, rfl⟩ | ⟨-, closes⟩ := read_eq_ok read
  · exact ⟨h.known, h.apart⟩
  · rw [pushOperator_of_weight r (Dialect.weight_ofRegistry made)] at pushed
    obtain ⟨s₁, settled, same⟩ := bind_eq_ok pushed
    cases same
    have rest := valid_of_suffix h (suffix_of_settle settled)
    have known := operatorCode_of_classify reachable leads role (.inr rfl)
    exact ⟨List.forall_mem_cons.2 ⟨known, rest.known⟩,
      List.isChain_cons.2 ⟨fun next first => .inr (settled_collapse settled next first), rest.apart⟩⟩
  · have known := operatorCode_of_classify reachable leads role (.inl rfl)
    have paren : (Dialect.ofRegistry made).isOpenParen token.code = true :=
      isOpenParen_of_classify (by simp) role
    exact ⟨List.forall_mem_cons.2 ⟨known, h.known⟩,
      List.isChain_cons.2 ⟨fun _ _ => .inl paren, h.apart⟩⟩
  · obtain ⟨paren, settled⟩ := closeParen_eq_ok closes
    have whole := suffix_of_settle (s := s) settled
    exact valid_of_suffix h ((List.suffix_cons _ _).trans whole)

/-! ### Faults -/

/-- The fault, if there is one, is not that of an operator that has no meaning. -/
def Supported {α : Type} (result : Except Report α) : Prop :=
  ∀ report, result = .error report → report.fault.rule ≠ "APPLY"

theorem supported_ok {α : Type} (a : α) : Supported (.ok a) := fun _ failed => by cases failed

theorem supported_error {α : Type} {report : Report} (h : report.fault.rule ≠ "APPLY") :
    Supported (α := α) (.error report) := by
  rintro _ ⟨rfl⟩
  exact h

theorem supported_report {α : Type} {fault : Fault} (h : fault.rule ≠ "APPLY") :
    Supported (α := α) (.error fault.report) :=
  supported_error h

theorem supported_bind {α β : Type} {result : Except Report α} {next : α → Except Report β}
    (first : Supported result) (after : ∀ a, Supported (next a)) : Supported (result >>= next) := by
  cases result with
  | ok a => exact after a
  | error report => exact supported_error (first report rfl)

theorem rule_of_compute {op : Operator} {a b : Int} {fault : Fault} (h : op.compute a b = .error fault) :
    fault.rule = "DIV" := by
  cases op with
  | plus | minus | times => cases h
  | divide =>
    simp only [Operator.compute] at h
    split at h <;> cases h
    rfl

theorem rule_of_apply {op : Operator} {left right : Value} {fault : Fault}
    (h : (Role.binary op).apply left right = .error fault) : fault.rule = "DIV" := by
  unfold Role.apply at h
  split at h
  · exact rule_of_compute h
  · cases h

theorem supported_applyOperator {d : Dialect} {code : Int} {op : Operator}
    (binary : d.roleOf code = .binary op) (operands : List Value) :
    Supported (applyOperator d r code operands) := by
  intro report failed
  unfold applyOperator at failed
  rw [binary] at failed
  dsimp only at failed
  split at failed
  · split at failed
    · cases failed
    · rename_i fault result
      cases failed
      simp [Report.orAt, Fault.report, rule_of_apply result]
  · cases failed
    simp [Fault.report, Fault.rule]

theorem supported_applyWaiting (d : Dialect) (s : Stacks) : Supported (s.applyWaiting d r) := by
  unfold applyWaiting
  split
  · exact supported_ok s
  split
  · rename_i binary
    exact supported_bind (supported_applyOperator binary s.operands) fun _ => supported_ok _
  · exact supported_ok s

theorem supported_finish {d : Dialect} {s : Stacks} (h : s.AppliesOnce d r) :
    Supported (s.finish d r) := by
  rw [h.finish]
  refine supported_bind (supported_applyWaiting d s) fun s' => ?_
  split
  · exact supported_report (by simp [Fault.rule])
  · exact supported_report (by simp [Fault.rule])
  · exact supported_ok _

theorem supported_read {d : Dialect} {s : Stacks} (h : s.AppliesOnce d r) (t : SymbolTable) (role : Role)
    (token : Token) : Supported (s.read d r t role token) := by
  cases role with
  | literal =>
    simp only [read]
    split
    · exact supported_ok _
    · rename_i failed
      rw [fault_of_readLiteral failed]
      exact supported_report (by simp [Fault.rule])
  | name =>
    simp only [read]
    split
    · exact supported_ok _
    · rename_i failed
      rw [fault_of_read failed]
      exact supported_report (by simp [Fault.rule])
  | binary op =>
    rw [read, h.push]
    exact supported_bind (supported_applyWaiting d s) fun _ => supported_ok _
  | openParen => exact supported_ok _
  | closeParen =>
    rw [read, h.close]
    refine supported_bind (supported_applyWaiting d s) fun s' => ?_
    split
    · exact supported_report (by simp [Fault.rule])
    · exact supported_ok _
  | intType | stringType | equals | semicolon | other =>
    exact supported_report (by simp [Fault.rule])

end LineLang.Stacks
