import LineLang.Proofs.Registry.Capacity

/-!
# Exhaustion is permanent

A category of symbols or literals gives no more codes once the next one is past its range or has an
owner. `refuses_forever`: whatever is done afterwards, its cursor stays and every new lexeme is refused
in the same way, while the lexemes that have a code keep it.
-/

namespace LineLang.Registry

/-- A category has no code to give: it is used up, or the next code has an owner. -/
inductive Stuck (r : Registry) (category : Category) : Option Owner → Prop where
  | usedUp : (r.config.range category).last < r.next category → Stuck r category none
  | owned {owner : Owner} : r.next category ≤ (r.config.range category).last →
      r.owners.get? (r.next category) = some owner → Stuck r category (some owner)

/-- How a new lexeme is refused. -/
def refusal (r : Registry) (category : Category) (lexeme : String) : Option Owner → RegistryError
  | none => .exhausted category (r.config.range category).last
  | some owner => .taken (r.next category) lexeme owner

theorem kind_refusal (r r' : Registry) (category : Category) (lexeme word : String)
    (cause : Option Owner) :
    (r.refusal category lexeme cause).kind = (r'.refusal category word cause).kind := by
  cases cause <;> rfl

/-! ### A stuck category -/

section Stuck

variable {r r' : Registry} {category : Category} {cause : Option Owner}

theorem not_stuck_of_admits {lexeme : String} (admitted : r.Admits category lexeme) :
    ¬r.Stuck category cause := by
  intro stuck
  cases stuck with
  | usedUp beyond => exact absurd admitted.inRange (Int.not_le_of_gt beyond)
  | owned _ owned =>
    rw [admitted.free] at owned
    cases owned

/-- A code that is given out belongs to another category. -/
theorem stuck_assign {other : Category} {lexeme : String} (stuck : r.Stuck category cause)
    (admitted : r.Admits other lexeme) :
    (r.assign other lexeme).Stuck category cause ∧
      (r.assign other lexeme).next category = r.next category := by
  have different : category ≠ other := by
    rintro rfl
    exact not_stuck_of_admits admitted stuck
  have next := next_assign_of_ne r different lexeme
  refine ⟨?_, next⟩
  cases stuck with
  | usedUp beyond => exact .usedUp (by rwa [config_assign, next])
  | owned inside owned =>
    refine .owned (by rwa [config_assign, next]) ?_
    rw [next, get?_owners_assign, if_neg, owned]
    intro same
    rw [same, admitted.free] at owned
    cases owned

theorem stuck_of_grows (grows : Grows r r') (stuck : r.Stuck category cause) :
    r'.Stuck category cause ∧ r'.next category = r.next category := by
  induction grows with
  | refl => exact ⟨stuck, rfl⟩
  | assign admitted _ ih =>
    obtain ⟨still, next⟩ := stuck_assign stuck admitted
    obtain ⟨last, next'⟩ := ih still
    exact ⟨last, next'.trans next⟩

end Stuck

/-! ### What is encoded -/

theorem encode_of_stuck {r : Registry} {lexeme : String} {cause : Option Owner}
    (stuck : r.Stuck (freeCategory lexeme) cause) (new : r.known? lexeme = none) :
    r.encode lexeme = (.error (r.refusal (freeCategory lexeme) lexeme cause), r) := by
  cases stuck with
  | usedUp beyond => simp only [encode, new, allocate, checkRange, if_neg (Int.not_le_of_gt beyond), refusal]
  | owned inside owned =>
    simp only [encode, new, allocate, (checkRange_eq_ok_iff ..).2 inside, checkFree, owned, refusal]

/-- Only a category that is stuck refuses a lexeme. -/
theorem stuck_of_error {r : Registry} {lexeme : String} {e : RegistryError}
    (failed : (r.encode lexeme).1 = .error e) :
    ∃ cause, r.Stuck (freeCategory lexeme) cause ∧
      e = r.refusal (freeCategory lexeme) lexeme cause := by
  have new : r.known? lexeme = none := by
    rw [Option.eq_none_iff_forall_ne_some]
    intro token known
    rw [encode, known] at failed
    cases failed
  have cause : ∃ cause, r.Stuck (freeCategory lexeme) cause := by
    by_cases inside : r.next (freeCategory lexeme) ≤ (r.config.range (freeCategory lexeme)).last
    · cases owned : r.owners.get? (r.next (freeCategory lexeme)) with
      | some owner => exact ⟨some owner, .owned inside owned⟩
      | none =>
        simp only [encode, new, allocate, (checkRange_eq_ok_iff ..).2 inside,
          (checkFree_eq_ok_iff ..).2 owned] at failed
        cases failed
    · exact ⟨none, .usedUp (Int.lt_of_not_ge inside)⟩
  obtain ⟨cause, stuck⟩ := cause
  rw [encode_of_stuck stuck new] at failed
  exact ⟨cause, stuck, (Except.error.inj failed).symm⟩

section Reachable

variable {r : Registry} (h : r.Reachable)
include h

/-- All codes of a category itself are below the next one. -/
theorem category_ne_of_owned {category : Category} {owner : Owner}
    (owned : r.owners.get? (r.next category) = some owner) : owner.category ≠ category := by
  rintro rfl
  have given := ((coherent_of_reachable h).owner_iff _ owner.lexeme owner.category).1 owned
  exact Int.lt_irrefl _ (lt_next_of_codeFor (consecutive_of_reachable h) given)

theorem encode_of_mem {category : Category} {lexeme : String}
    (member : lexeme ∈ (r.table category).keys) :
    ∃ token, r.encode lexeme = (.ok token, r) ∧ r.Encodes lexeme token := by
  obtain ⟨config, leads⟩ := h
  obtain ⟨nonempty, fits⟩ :=
    sorted_of_grows (grows_of_leads leads) (sorted_empty config) category lexeme member
  cases known : r.known? lexeme with
  | some token => exact ⟨token, by rw [encode, known], encodes_of_known? nonempty known⟩
  | none =>
    obtain ⟨noKeyword, noOperator, fresh⟩ := (known?_eq_none_iff r nonempty).1 known
    rcases fits with rfl | rfl | rfl
    · exact absurd member noKeyword
    · exact absurd member noOperator
    · exact absurd member fresh

end Reachable

theorem mem_keys_of_grows {r r' : Registry} (grows : Grows r r') {category : Category}
    {lexeme : String} (member : lexeme ∈ (r.table category).keys) :
    lexeme ∈ (r'.table category).keys := by
  obtain ⟨code, given⟩ := Option.isSome_iff_exists.1 ((isSome_codeFor_iff r category lexeme).2 member)
  exact (isSome_codeFor_iff r' category lexeme).1 (by rw [codeFor_of_grows grows given]; rfl)

/-- Once a lexeme is refused, because the codes are used up or the next one belongs to another category, the
cursor of its category stays where it is, all new lexemes of the category are refused in the same way, and
all lexemes that had a code have one. -/
theorem refuses_forever {r r' : Registry} (h : r.Reachable) (leads : r.Leads r') {lexeme : String}
    {e : RegistryError} (failed : (r.encode lexeme).1 = .error e) :
    (e = .exhausted (freeCategory lexeme) (r.config.range (freeCategory lexeme)).last ∨
        ∃ code owner, e = .taken code lexeme owner ∧ owner.category ≠ freeCategory lexeme) ∧
      r'.next (freeCategory lexeme) = r.next (freeCategory lexeme) ∧
        (∀ word, word ≠ "" → freeCategory word = freeCategory lexeme → word ∉ r'.keywords.keys →
          word ∉ r'.operators.keys → word ∉ (r'.table (freeCategory lexeme)).keys →
            ∃ e', r'.encode word = (.error e', r') ∧ e'.kind = e.kind) ∧
          ∀ category, ∀ word ∈ (r.table category).keys,
            ∃ token, r'.encode word = (.ok token, r') ∧ r'.Encodes word token := by
  have grows := grows_of_leads leads
  obtain ⟨cause, stuck, rfl⟩ := stuck_of_error failed
  obtain ⟨still, next⟩ := stuck_of_grows grows stuck
  refine ⟨?_, next, ?_, ?_⟩
  · cases stuck with
    | usedUp => exact .inl rfl
    | owned _ owned => exact .inr ⟨_, _, rfl, category_ne_of_owned h owned⟩
  · intro word nonempty same keyword operator fresh
    rw [← same] at still fresh
    have new := (known?_eq_none_iff r' nonempty).2 ⟨keyword, operator, fresh⟩
    refine ⟨_, encode_of_stuck still new, ?_⟩
    rw [same]
    exact kind_refusal r' r (freeCategory lexeme) word lexeme cause
  · intro category word member
    exact encode_of_mem (reachable_of_leads h leads) (mem_keys_of_grows grows member)

/-- A keyword has the first code for symbols. Keywords are registered later as well, and no symbol is. -/
theorem refused_past_registration :
    let r := [Operation.registerKeywords ["int"]].foldl perform
      (empty ⟨{ first := 1, last := 2 }, { first := 9, last := 9 }, { first := 1, last := 8 },
        { first := 5, last := 5 }⟩)
    let r' := [Operation.registerKeywords ["x"], .encode "7", .encode "y"].foldl perform r
    (r.encode "x").1 = .error (.taken 1 "x" ⟨"int", .keyword⟩) ∧ r'.nextSymbol = 1 ∧
      (∃ e, r'.encode "z" = (.error e, r') ∧ e.kind = "RegistrationError") ∧
        ∃ token, r'.encode "int" = (.ok token, r') ∧ r'.Encodes "int" token := by
  intro r r'
  have reachable : r.Reachable := ⟨_, _, rfl⟩
  have failed : (r.encode "x").1 = .error (.taken 1 "x" ⟨"int", .keyword⟩) := by decide +kernel
  have leads : r.Leads r' := ⟨_, rfl⟩
  obtain ⟨-, next, refused, kept⟩ := refuses_forever reachable leads failed
  refine ⟨failed, next, ?_, ?_⟩
  · exact refused "z" (by decide) (by decide +kernel) (by decide +kernel) (by decide +kernel) (by decide +kernel)
  · exact kept .keyword "int" (by decide +kernel)

end LineLang.Registry
