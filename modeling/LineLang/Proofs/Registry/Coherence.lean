import LineLang.Proofs.Registry.Growth

/-!
# Who owns a code

`coherent_of_reachable`: the owners of codes are exactly the inverse of the four tables of codes,
however the ranges overlap. `codeFor_of_grows`: a code that was given out stays.
-/

namespace LineLang.Registry

/-- The owners invert the tables, and no lexeme is both a keyword and an operator. -/
structure Coherent (r : Registry) : Prop where
  owner_iff : ∀ code lexeme category,
    r.owners.get? code = some ⟨lexeme, category⟩ ↔ r.codeFor category lexeme = some code
  disjoint : ∀ lexeme, r.codeFor .keyword lexeme = none ∨ r.codeFor .operator lexeme = none

theorem coherent_empty (config : Config) : (empty config).Coherent where
  owner_iff code lexeme category := by cases category <;> simp [empty, codeFor, table]
  disjoint _ := .inl rfl

theorem coherent_assign {r : Registry} {category : Category} {lexeme : String}
    (h : r.Coherent) (admitted : r.Admits category lexeme) :
    (r.assign category lexeme).Coherent := by
  constructor
  · intro code word other
    rw [get?_owners_assign, codeFor_assign]
    by_cases here : other = category ∧ word = lexeme
    · obtain ⟨rfl, rfl⟩ := here
      simp only [and_self, if_true, Option.some.injEq]
      split
      · rename_i new
        simp [new]
      · rename_i old
        rw [h.owner_iff, admitted.fresh]
        simpa [eq_comm] using old
    · rw [if_neg here, ← h.owner_iff]
      split
      · rename_i new
        -- the code given out now is not in use before
        simp only [Option.some.injEq, Owner.mk.injEq, new, admitted.free, reduceCtorEq, iff_false]
        exact fun same => here ⟨same.2.symm, same.1.symm⟩
      · rfl
  · intro word
    have absent := (isReserved_eq_false_iff r lexeme).1 admitted.unreserved
    by_cases same : word = lexeme
    · subst same
      cases category <;> simp [codeFor_assign, absent]
    · simpa [codeFor_assign, same] using h.disjoint word

theorem coherent_of_grows {r r' : Registry} (grows : Grows r r') (h : r.Coherent) :
    r'.Coherent := by
  induction grows with
  | refl => exact h
  | assign admitted _ ih => exact ih (coherent_assign h admitted)

theorem coherent_of_reachable {r : Registry} (h : r.Reachable) : r.Coherent := by
  obtain ⟨config, leads⟩ := h
  exact coherent_of_grows (grows_of_leads leads) (coherent_empty config)

/-! ### Codes are permanent -/

theorem codeFor_of_grows {r r' : Registry} (grows : Grows r r') {category : Category}
    {lexeme : String} {code : Int} (h : r.codeFor category lexeme = some code) :
    r'.codeFor category lexeme = some code := by
  induction grows with
  | refl => exact h
  | assign admitted _ ih =>
    apply ih
    rw [codeFor_assign, if_neg, h]
    rintro ⟨rfl, rfl⟩
    rw [admitted.fresh] at h
    cases h

/-- A code tells the category and the lexeme that it was given to. -/
theorem eq_of_codeFor {r : Registry} (h : r.Coherent) {category other : Category}
    {lexeme word : String} {code : Int} (one : r.codeFor category lexeme = some code)
    (two : r.codeFor other word = some code) : category = other ∧ lexeme = word := by
  have owner := ((h.owner_iff _ _ _).2 one).symm.trans ((h.owner_iff _ _ _).2 two)
  simp only [Option.some.injEq, Owner.mk.injEq] at owner
  exact owner.symm

theorem decode_of_codeFor {r : Registry} (h : r.Coherent) {category : Category} {lexeme : String}
    {code : Int} (given : r.codeFor category lexeme = some code) : r.decode code = some lexeme := by
  rw [decode, (h.owner_iff _ _ _).2 given]
  rfl

end LineLang.Registry
