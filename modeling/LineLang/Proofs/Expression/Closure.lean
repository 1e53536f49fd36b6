import LineLang.Proofs.Expression.Inversion

/-!
# What all values have in common

`holds_step`: what the symbols and the literals have, and every operator keeps, the stacks of an expression
have after every token, and so does the statement that the expression is for.
-/

namespace LineLang

/-- What is made of values with a property has the property. -/
structure Value.Closed (P : Value → Prop) : Prop where
  zero : ∀ ty, P (.zero ty)
  apply : ∀ {role : Role} {left right value : Value}, P left → P right →
    role.apply left right = .ok value → P value

/-- Read as a literal, a lexeme gives no value without the property. -/
def LiteralHolds (P : Value → Prop) (lexeme : String) : Prop :=
  ∀ value, readLiteral lexeme = .ok value → P value

def SymbolTable.Holds (P : Value → Prop) (t : SymbolTable) : Prop := ∀ entry ∈ t.entries, P entry.2

def Stacks.Holds (P : Value → Prop) (s : Stacks) : Prop := ∀ value ∈ s.operands, P value

def Phase.Holds (P : Value → Prop) : Phase → Prop
  | .expression _ pending => pending.Holds P
  | _ => True

def Write.Holds (P : Value → Prop) : Write → Prop
  | .declare .. => True
  | .initialise _ _ value | .assign _ value => P value

def Move.Holds (P : Value → Prop) : Move → Prop
  | .goOn phase => phase.Holds P
  | .complete write => write.Holds P

theorem ofInt_of_compute {op : Operator} {a b : Int} {value : Value} (h : op.compute a b = .ok value) :
    ∃ n, value = .ofInt n := by
  cases op with
  | plus | minus | times =>
    cases h
    exact ⟨_, rfl⟩
  | divide =>
    simp only [Operator.compute] at h
    split at h
    · cases h
    · cases h
      exact ⟨_, rfl⟩

section Closure

variable {P : Value → Prop}

/-! ### Symbols -/

theorem holds_of_get? {t : SymbolTable} (h : t.Holds P) {name : String} {value : Value}
    (found : t.get? name = some value) : P value :=
  h (name, value) ((Table.get?_eq_some_iff t name value).1 found)

theorem holds_insert {t : SymbolTable} (h : t.Holds P) (name : String) {value : Value}
    (holds : P value) : SymbolTable.Holds P (t.insert name value) := by
  intro ⟨word, other⟩ member
  rw [← Table.get?_eq_some_iff, Table.get?_insert] at member
  split at member
  · cases member
    exact holds
  · exact holds_of_get? h member

theorem get?_of_read {t : SymbolTable} {name : String} {value : Value} (h : t.read name = .ok value) :
    t.get? name = some value := by
  unfold SymbolTable.read at h
  split at h
  · cases h
  · cases h
    assumption

variable (closed : Value.Closed P) {d : Dialect} {r : Registry}

theorem holds_pushOperand {s : Stacks} (h : s.Holds P) {value : Value} (holds : P value) :
    (s.pushOperand value).Holds P :=
  List.forall_mem_cons.2 ⟨holds, h⟩

theorem holds_write (target : Target) {value : Value} (h : P value) : (target.write value).Holds P := by
  cases target <;> exact h

include closed

/-! ### Stacks -/

theorem holds_applyOperator {code : Int} {operands operands' : List Value}
    (h : ∀ value ∈ operands, P value)
    (applied : Stacks.applyOperator d r code operands = .ok operands') : ∀ value ∈ operands', P value := by
  obtain ⟨right, left, rest, value, rfl, result, rfl⟩ := Stacks.applyOperator_eq_ok applied
  obtain ⟨holdsRight, holdsLeft, others⟩ : P right ∧ P left ∧ ∀ value ∈ rest, P value := by
    simpa only [List.forall_mem_cons] using h
  exact List.forall_mem_cons.2 ⟨closed.apply holdsLeft holdsRight result, others⟩

theorem holds_collapse {yields : Int → Bool} {operands : List Value} {operators : List Int}
    {s : Stacks} (h : ∀ value ∈ operands, P value)
    (collapsed : Stacks.collapse d r yields operands operators = .ok s) : s.Holds P :=
  Stacks.collapse_invariant (P := Stacks.Holds P)
    (fun _ applied before => holds_applyOperator closed before applied) h collapsed

theorem holds_pushOperator {s s' : Stacks} {code : Int} (h : s.Holds P)
    (pushed : s.pushOperator d r code = .ok s') : s'.Holds P := by
  obtain ⟨_, collapsed, same⟩ := bind_eq_ok pushed
  have holds := holds_collapse closed h collapsed
  cases same
  exact holds

theorem holds_closeParen {s s' : Stacks} (h : s.Holds P) (closes : s.closeParen d r = .ok s') :
    s'.Holds P := by
  obtain ⟨paren, collapsed⟩ := Stacks.closeParen_eq_ok closes
  exact fun value => holds_collapse closed h collapsed value

theorem holds_finish {s : Stacks} {value : Value} (h : s.Holds P) (finished : s.finish d r = .ok value) :
    P value := by
  obtain ⟨others, collapsed⟩ := Stacks.finish_eq_ok finished
  exact holds_collapse closed h collapsed value List.mem_cons_self

theorem holds_read {t : SymbolTable} (table : t.Holds P) {s s' : Stacks} (h : s.Holds P) {role : Role}
    {token : Token} (literal : LiteralHolds P token.lexeme) (read : s.read d r t role token = .ok s') :
    s'.Holds P := by
  obtain ⟨value, source, rfl⟩ | ⟨op, -, pushed⟩ | ⟨-, rfl⟩ | ⟨-, closes⟩ := Stacks.read_eq_ok read
  · rcases source with ⟨-, result⟩ | ⟨-, found⟩
    · exact holds_pushOperand h (literal value result)
    · exact holds_pushOperand h (holds_of_get? table (get?_of_read found))
  · exact holds_pushOperator closed h pushed
  · exact h
  · exact holds_closeParen closed h closes

/-! ### Statements -/

theorem holds_step {t : SymbolTable} (table : t.Holds P) {phase : Phase} (h : phase.Holds P)
    {token : Token} (literal : LiteralHolds P token.lexeme) {move : Move}
    (step : phase.step d r t token = .ok move) : move.Holds P := by
  cases phase with
  | start | afterType =>
    simp only [Phase.step] at step
    split at step <;> cases step <;> trivial
  | afterDeclared | afterName =>
    simp only [Phase.step] at step
    split at step <;> cases step
    all_goals first | trivial | exact List.forall_mem_nil _
  | expression target pending =>
    simp only [Phase.step] at step
    split at step
    · obtain ⟨value, finished, same⟩ := bind_eq_ok step
      cases same
      exact holds_write target (holds_finish closed h finished)
    · obtain ⟨pending', read, same⟩ := bind_eq_ok step
      cases same
      exact holds_read closed table h literal read

theorem holds_of_run {t t' : SymbolTable} (table : t.Holds P) {write : Write} (h : write.Holds P)
    {event : Event} (ran : write.run t = .ok (t', event)) : t'.Holds P := by
  obtain ⟨ty, name, rfl, -, rfl, -⟩ | ⟨name, value, rfl, -, rfl, -⟩ |
    ⟨name, old, value, rfl, -, -, rfl, -⟩ := run_eq_ok ran
  · exact holds_insert table name (closed.zero ty)
  · exact holds_insert table name h
  · exact holds_insert table name h

end Closure

end LineLang
