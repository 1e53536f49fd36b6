import LineLang.Proofs.Effect

/-!
# What the stacks do when they succeed

`read_eq_ok`: a token that is read pushes an operand, an operator or an open parenthesis, or closes one.
Whatever operators are applied in doing so, `collapse_invariant` carries over them what each of them keeps.
-/

namespace LineLang.Stacks

variable {d : Dialect} {r : Registry} {s s' : Stacks}

theorem applyOperator_eq_ok {code : Int} {operands operands' : List Value}
    (h : applyOperator d r code operands = .ok operands') :
    ∃ right left rest value, operands = right :: left :: rest ∧
      (d.roleOf code).apply left right = .ok value ∧ operands' = value :: rest := by
  unfold applyOperator at h
  dsimp only at h
  split at h
  · split at h
    · rename_i right left rest _ value result
      cases h
      exact ⟨right, left, rest, value, rfl, result, rfl⟩
    · cases h
  · cases h

theorem collapse_invariant {yields : Int → Bool} {P : Stacks → Prop}
    (step : ∀ {code : Int} {operands operands' : List Value} {operators : List Int},
      yields code = true → applyOperator d r code operands = .ok operands' →
        P ⟨operands, code :: operators⟩ → P ⟨operands', operators⟩)
    {operands : List Value} {operators : List Int} (h : P ⟨operands, operators⟩)
    (collapsed : collapse d r yields operands operators = .ok s) : P s := by
  induction operators generalizing operands with
  | nil =>
    cases collapsed
    exact h
  | cons code operators ih =>
    rw [collapse] at collapsed
    split at collapsed
    · rename_i yielding
      split at collapsed
      · cases collapsed
      · rename_i applied
        exact ih (step yielding applied h) collapsed
    · cases collapsed
      exact h

theorem closeParen_eq_ok (h : s.closeParen d r = .ok s') :
    ∃ paren, collapse d r (fun top => !d.isOpenParen top) s.operands s.operators =
      .ok ⟨s'.operands, paren :: s'.operators⟩ := by
  obtain ⟨⟨operands, operators⟩, collapsed, popped⟩ := bind_eq_ok h
  cases operators with
  | nil => cases popped
  | cons paren operators =>
    cases popped
    exact ⟨paren, collapsed⟩

/-- The value is the topmost operand when no operator is left. -/
theorem finish_eq_ok {value : Value} (h : s.finish d r = .ok value) :
    ∃ others, collapse d r (fun top => !d.isOpenParen top) s.operands s.operators =
      .ok ⟨value :: others, []⟩ := by
  obtain ⟨⟨operands, operators⟩, collapsed, popped⟩ := bind_eq_ok h
  cases operators with
  | cons => cases popped
  | nil =>
    cases operands with
    | nil => cases popped
    | cons top others =>
      cases popped
      exact ⟨others, collapsed⟩

theorem read_eq_ok {t : SymbolTable} {role : Role} {token : Token}
    (h : s.read d r t role token = .ok s') :
    (∃ value, (role = .literal ∧ readLiteral token.lexeme = .ok value ∨
        role = .name ∧ t.read token.lexeme = .ok value) ∧ s' = s.pushOperand value) ∨
      (∃ op, role = .binary op ∧ s.pushOperator d r token.code = .ok s') ∨
      role = .openParen ∧ s' = s.openParen token.code ∨
      role = .closeParen ∧ s.closeParen d r = .ok s' := by
  unfold Stacks.read at h
  split at h
  · split at h
    · rename_i value result
      cases h
      exact .inl ⟨value, .inl ⟨rfl, result⟩, rfl⟩
    · cases h
  · split at h
    · rename_i value found
      cases h
      exact .inl ⟨value, .inr ⟨rfl, found⟩, rfl⟩
    · cases h
  · exact .inr (.inl ⟨_, rfl, h⟩)
  · cases h
    exact .inr (.inr (.inl ⟨rfl, rfl⟩))
  · exact .inr (.inr (.inr ⟨rfl, h⟩))
  · cases h

end LineLang.Stacks
