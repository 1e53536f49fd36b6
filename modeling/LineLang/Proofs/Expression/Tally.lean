import LineLang.Proofs.Expression.Evaluation
import LineLang.Proofs.Expression.Inversion

/-!
# Counting operands and operators

Whatever order the tokens of an expression come in, the stacks keep two counts: how many parentheses are
open, and how many values there are beyond the operators that wait for theirs. `tally_of_readAll`: an
expression that comes to a value closes all of its parentheses and has more operands than operators.
-/

namespace LineLang

namespace Role

def isOperand : Role → Bool
  | .name | .literal => true
  | _ => false

def isBinary : Role → Bool
  | .binary _ => true
  | _ => false

/-- Every parenthesis closes one that is open, and none is left open. -/
structure Balanced (roles : List Role) : Prop where
  closes : ∀ front, front <+: roles → front.count .closeParen ≤ front.count .openParen
  total : roles.count .closeParen = roles.count .openParen

end Role

/-- Roles that can be read with `depth` open parentheses and `surplus` more operands than operators, so
that no parenthesis is open behind them and an operand is left. -/
inductive Tally : Nat → Int → List Role → Prop where
  | done {surplus : Int} : 1 ≤ surplus → Tally 0 surplus []
  | operand {depth : Nat} {surplus : Int} {role : Role} {roles : List Role} :
      role = .name ∨ role = .literal → Tally depth (surplus + 1) roles →
        Tally depth surplus (role :: roles)
  | operator {depth : Nat} {surplus : Int} {op : Operator} {roles : List Role} :
      Tally depth (surplus - 1) roles → Tally depth surplus (.binary op :: roles)
  | openParen {depth : Nat} {surplus : Int} {roles : List Role} :
      Tally (depth + 1) surplus roles → Tally depth surplus (.openParen :: roles)
  | closeParen {depth : Nat} {surplus : Int} {roles : List Role} :
      Tally depth surplus roles → Tally (depth + 1) surplus (.closeParen :: roles)

namespace Stacks

variable {d : Dialect} {r : Registry}

def depth (d : Dialect) (s : Stacks) : Nat := s.operators.countP d.isOpenParen

/-- The values beyond the operators that wait for theirs. -/
def surplus (d : Dialect) (s : Stacks) : Int :=
  s.operands.length - s.operators.countP fun code => !d.isOpenParen code

structure SameTally (d : Dialect) (s s' : Stacks) : Prop where
  depth_eq : s'.depth d = s.depth d
  surplus_eq : s'.surplus d = s.surplus d

section Counts

variable {code : Int} (values : List Value) (operators : List Int)

theorem depth_operator (h : d.isOpenParen code = false) :
    depth d ⟨values, code :: operators⟩ = depth d ⟨values, operators⟩ := by
  simp [depth, h]

theorem depth_paren (h : d.isOpenParen code = true) :
    depth d ⟨values, code :: operators⟩ = depth d ⟨values, operators⟩ + 1 := by
  simp [depth, h]

theorem surplus_operator (h : d.isOpenParen code = false) :
    surplus d ⟨values, code :: operators⟩ = surplus d ⟨values, operators⟩ - 1 := by
  simp [surplus, h]
  omega

theorem surplus_paren (h : d.isOpenParen code = true) :
    surplus d ⟨values, code :: operators⟩ = surplus d ⟨values, operators⟩ := by
  simp [surplus, h]

theorem surplus_operand (value : Value) :
    surplus d ⟨value :: values, operators⟩ = surplus d ⟨values, operators⟩ + 1 := by
  simp only [surplus, List.length_cons]
  omega

end Counts

/-! ### Applying operators -/

theorem length_applyOperator {code : Int} {operands values : List Value}
    (h : applyOperator d r code operands = .ok values) : values.length + 1 = operands.length := by
  obtain ⟨right, left, rest, value, rfl, -, rfl⟩ := applyOperator_eq_ok h
  rfl

/-- An operator takes two values and leaves one, and it no longer waits. -/
theorem sameTally_collapse {yields : Int → Bool}
    (within : ∀ code, yields code = true → d.isOpenParen code = false) {operands : List Value}
    {operators : List Int} {s : Stacks} (h : collapse d r yields operands operators = .ok s) :
    SameTally d ⟨operands, operators⟩ s := by
  refine collapse_invariant (P := SameTally d ⟨operands, operators⟩) ?_ ⟨rfl, rfl⟩ h
  intro code values values' waiting yielding applied before
  have waits := within code yielding
  have length := length_applyOperator applied
  constructor
  · rw [← before.depth_eq, depth_operator values waiting waits]
    rfl
  · rw [← before.surplus_eq, surplus_operator values waiting waits]
    simp only [surplus]
    omega

theorem sameTally_settle {s s' : Stacks} (h : settle d r s = .ok s') : SameTally d s s' :=
  sameTally_collapse (by simp) h

theorem settled_collapse {operands : List Value} {operators : List Int} {s : Stacks}
    (h : collapse d r (fun top => !d.isOpenParen top) operands operators = .ok s) :
    Settled d s.operators := by
  induction operators generalizing operands with
  | nil =>
    cases h
    simp [Settled]
  | cons code operators ih =>
    rw [collapse] at h
    split at h
    · split at h
      · cases h
      · exact ih h
    · rename_i stays
      cases h
      rintro _ ⟨rfl⟩
      simpa using stays

/-! ### Reading tokens -/

theorem tally_pushOperator {s s' : Stacks} {code : Int} (waits : d.isOpenParen code = false)
    (h : s.pushOperator d r code = .ok s') :
    s'.depth d = s.depth d ∧ s'.surplus d = s.surplus d - 1 := by
  unfold pushOperator at h
  obtain ⟨s₁, collapsed, same⟩ := bind_eq_ok h
  cases same
  have within : ∀ top, (!d.isOpenParen top && decide (d.weight code ≤ d.weight top)) = true →
      d.isOpenParen top = false := by simp +contextual
  obtain ⟨depth, surplus⟩ := sameTally_collapse within collapsed
  exact ⟨(depth_operator _ _ waits).trans depth,
    (surplus_operator _ _ waits).trans (congrArg (· - 1) surplus)⟩

theorem tally_closeParen {s s' : Stacks} (h : s.closeParen d r = .ok s') :
    s.depth d = s'.depth d + 1 ∧ s'.surplus d = s.surplus d := by
  obtain ⟨code, collapsed⟩ := closeParen_eq_ok h
  obtain ⟨depth, surplus⟩ := sameTally_settle collapsed
  have paren : d.isOpenParen code = true := settled_collapse collapsed code rfl
  exact ⟨depth.symm.trans (depth_paren _ _ paren), (surplus_paren _ _ paren).symm.trans surplus⟩

/-- Nothing is open or waits when an expression has come to a value. -/
theorem tally_finish {s : Stacks} {value : Value} (h : s.finish d r = .ok value) :
    s.depth d = 0 ∧ 1 ≤ s.surplus d := by
  obtain ⟨others, settled⟩ := finish_eq_ok h
  obtain ⟨depth, surplus⟩ := sameTally_settle settled
  rw [← depth, ← surplus]
  refine ⟨rfl, ?_⟩
  simp only [Stacks.surplus, List.length_cons, List.countP_nil]
  omega

theorem isOpenParen_of_classify {token : Token} {role : Role}
    (special : role ≠ .name ∧ role ≠ .literal ∧ role ≠ .other) (h : d.classify token = role) :
    d.isOpenParen token.code = (role == .openParen) := by
  rw [Dialect.isOpenParen, Dialect.get?_of_classify special h]
  rfl

theorem readAll_eq_ok {t : SymbolTable} {s s' : Stacks} {token : Token} {tokens : List Token}
    (h : s.readAll d r t (token :: tokens) = .ok s') :
    ∃ s₁, s.read d r t (d.classify token) token = .ok s₁ ∧ s₁.readAll d r t tokens = .ok s' := by
  obtain ⟨s₁, first, after⟩ := bind_eq_ok h
  exact ⟨s₁, mapError_eq_ok first, after⟩

/-- A token changes the counts as its role says. -/
theorem counts_read {t : SymbolTable} {s s' : Stacks} {token : Token}
    (h : s.read d r t (d.classify token) token = .ok s') :
    s'.depth d + (if d.classify token == .closeParen then 1 else 0) =
        s.depth d + (if d.classify token == .openParen then 1 else 0) ∧
      s'.surplus d + (if (d.classify token).isBinary then 1 else 0 : Nat) =
        s.surplus d + (if (d.classify token).isOperand then 1 else 0 : Nat) := by
  obtain ⟨value, source, rfl⟩ | ⟨op, role, pushed⟩ | ⟨role, rfl⟩ | ⟨role, closes⟩ := read_eq_ok h
  · have pushed := surplus_operand (d := d) s.operands s.operators value
    rcases source with ⟨role, -⟩ | ⟨role, -⟩
    · rw [role]
      exact ⟨rfl, (Int.add_zero _).trans pushed⟩
    · rw [role]
      exact ⟨rfl, (Int.add_zero _).trans pushed⟩
  · have waits := isOpenParen_of_classify (by simp) role
    obtain ⟨depth, surplus⟩ := tally_pushOperator (by rw [waits]; rfl) pushed
    rw [role, surplus]
    exact ⟨depth, by simp [Role.isBinary, Role.isOperand]⟩
  · have paren : d.isOpenParen token.code = true := isOpenParen_of_classify (by simp) role
    rw [role]
    exact ⟨depth_paren _ _ paren, congrArg (· + 0) (surplus_paren _ _ paren)⟩
  · obtain ⟨depth, surplus⟩ := tally_closeParen closes
    rw [role, surplus]
    exact ⟨depth.symm, rfl⟩

theorem counts_readAll {t : SymbolTable} {tokens : List Token} {s s' : Stacks}
    (h : s.readAll d r t tokens = .ok s') :
    s'.depth d + (tokens.map d.classify).count .closeParen =
        s.depth d + (tokens.map d.classify).count .openParen ∧
      s'.surplus d + (tokens.map d.classify).countP Role.isBinary =
        s.surplus d + (tokens.map d.classify).countP Role.isOperand := by
  induction tokens generalizing s with
  | nil =>
    cases h
    exact ⟨rfl, rfl⟩
  | cons token tokens ih =>
    obtain ⟨s₁, first, after⟩ := readAll_eq_ok h
    obtain ⟨depth₁, surplus₁⟩ := counts_read first
    obtain ⟨depth, surplus⟩ := ih after
    rw [List.map_cons, List.count_cons, List.count_cons, List.countP_cons, List.countP_cons]
    constructor <;> omega

/-- An expression that can be read closes no parenthesis that is not open. -/
theorem balanced_of_readAll {t : SymbolTable} {tokens : List Token} {pending : Stacks}
    (read : readAll d r t {} tokens = .ok pending) (closed : pending.depth d = 0) :
    Role.Balanced (tokens.map d.classify) where
  closes := by
    rintro _ ⟨back, split⟩
    obtain ⟨front, rest, rfl, rfl, -⟩ := List.map_eq_append_iff.1 split.symm
    rw [readAll_append] at read
    obtain ⟨_, readFront, -⟩ := bind_eq_ok read
    have counts : _ = 0 + _ := (counts_readAll readFront).1
    omega
  total := by
    have counts : _ = 0 + _ := (counts_readAll read).1
    omega

/-- What an expression leaves below its value are the operands that it has too many. -/
theorem countP_of_settle {t : SymbolTable} {tokens : List Token} {pending : Stacks} {value : Value}
    {others : List Value} (read : readAll d r t {} tokens = .ok pending)
    (settled : pending.settle d r = .ok ⟨value :: others, []⟩) :
    (tokens.map d.classify).countP Role.isOperand =
      (tokens.map d.classify).countP Role.isBinary + 1 + others.length := by
  have counts : _ = (0 : Int) + _ := (counts_readAll read).2
  have left : (others.length + 1 : Int) - 0 = pending.surplus d := (sameTally_settle settled).surplus_eq
  omega

theorem tally_read {t : SymbolTable} {s s' : Stacks} {token : Token}
    (h : s.read d r t (d.classify token) token = .ok s') {roles : List Role}
    (behind : Tally (s'.depth d) (s'.surplus d) roles) :
    Tally (s.depth d) (s.surplus d) (d.classify token :: roles) := by
  obtain ⟨depth, surplus⟩ := counts_read h
  generalize d.classify token = role at h depth surplus ⊢
  cases role with
  | literal | name =>
    have same : s'.depth d = s.depth d := depth
    have more : s'.surplus d = s.surplus d + 1 := by simpa [Role.isBinary, Role.isOperand] using surplus
    rw [same, more] at behind
    exact .operand (by simp) behind
  | binary op =>
    have same : s'.depth d = s.depth d := depth
    have fewer : s'.surplus d = s.surplus d - 1 := by
      simp only [Role.isBinary, Role.isOperand, if_true, Bool.false_eq_true, if_false] at surplus
      omega
    rw [same, fewer] at behind
    exact .operator behind
  | openParen =>
    have deeper : s'.depth d = s.depth d + 1 := depth
    have same : s'.surplus d = s.surplus d := by simpa [Role.isBinary, Role.isOperand] using surplus
    rw [deeper, same] at behind
    exact .openParen behind
  | closeParen =>
    have shallower : s'.depth d + 1 = s.depth d := depth
    have same : s'.surplus d = s.surplus d := by simpa [Role.isBinary, Role.isOperand] using surplus
    rw [same] at behind
    rw [← shallower]
    exact .closeParen behind
  | intType | stringType | equals | semicolon | other => cases h

/-- Tokens that come to a value have their parentheses in balance and more operands than operators. -/
theorem tally_of_readAll {t : SymbolTable} {tokens : List Token} {s pending : Stacks} {value : Value}
    (read : s.readAll d r t tokens = .ok pending) (finished : pending.finish d r = .ok value) :
    Tally (s.depth d) (s.surplus d) (tokens.map d.classify) := by
  induction tokens generalizing s with
  | nil =>
    cases read
    obtain ⟨depth, surplus⟩ := tally_finish finished
    rw [depth]
    exact .done surplus
  | cons token tokens ih =>
    obtain ⟨s', first, after⟩ := readAll_eq_ok read
    exact tally_read first (ih after)

end Stacks

end LineLang
