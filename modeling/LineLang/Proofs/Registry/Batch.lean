import LineLang.Proofs.Registry.Encoding
import LineLang.Proofs.Registry.Numbering

/-!
# Batches are registered as a whole

`all_or_nothing`: a batch is refused for a reason that can be seen before its first code is given out,
and then nothing has changed. Otherwise the whole batch is put behind the table of its category.
-/

namespace LineLang.Registry

/-- The code that comes `i` places behind the last one of a category. -/
def slot (r : Registry) (category : Category) (i : Nat) : Int :=
  (r.config.range category).first + (r.table category).size + i

/-- The lexemes of a batch may be registered, whatever codes there are for them. -/
structure Fresh (r : Registry) (batch : List String) : Prop where
  nonempty : "" ∉ batch
  unreserved : ∀ lexeme ∈ batch, lexeme ∉ r.keywords.keys ∧ lexeme ∉ r.operators.keys
  distinct : batch.Nodup

/-- The last lexeme of a batch would get a code beyond the range of the category. -/
def Overflows (r : Registry) (category : Category) (batch : List String) : Prop :=
  batch ≠ [] ∧ (r.config.range category).last < r.slot category batch.length - 1

/-- What speaks against a batch. -/
inductive Refuses (r : Registry) (category : Category) (batch : List String) : Prop where
  | empty : "" ∈ batch → Refuses r category batch
  | reserved {lexeme : String} : lexeme ∈ batch →
      lexeme ∈ r.keywords.keys ∨ lexeme ∈ r.operators.keys → Refuses r category batch
  | repeated : ¬batch.Nodup → Refuses r category batch
  | overflow : r.Overflows category batch → Refuses r category batch
  | taken {i : Nat} {owner : String} : i < batch.length →
      r.decode (r.slot category i) = some owner → Refuses r category batch

/-- One registry is the other with a batch behind the table of a category, under the next codes. -/
structure Appends (r : Registry) (category : Category) (batch : List String) (r' : Registry) : Prop where
  config_eq : r'.config = r.config
  entries_eq : (r'.table category).entries = (r.table category).entries ++
    batch.mapIdx fun i lexeme => (lexeme, r.slot category i)
  owners_eq : r'.owners.entries = r.owners.entries ++
    batch.mapIdx fun i lexeme => (r.slot category i, ⟨lexeme, category⟩)
  table_eq : ∀ other, other ≠ category → r'.table other = r.table other
  cursors_eq : r'.nextSymbol = r.nextSymbol ∧ r'.nextLiteral = r.nextLiteral

/-! ### What is appended -/

section Appending

variable {r r₁ r₂ : Registry} {category : Category} {front back : List String}

theorem appends_nil (r : Registry) (category : Category) : r.Appends category [] r := by
  constructor <;> simp

theorem slot_of_appends (h : r.Appends category front r₁) (i : Nat) :
    r₁.slot category i = r.slot category (i + front.length) := by
  have size := congrArg List.length h.entries_eq
  rw [List.length_append, List.length_mapIdx] at size
  simp only [slot, h.config_eq, Table.size, size]
  omega

theorem appends_trans (h₁ : r.Appends category front r₁) (h₂ : r₁.Appends category back r₂) :
    r.Appends category (front ++ back) r₂ := by
  have behind := slot_of_appends h₁
  constructor
  · rw [h₂.config_eq, h₁.config_eq]
  · simp only [h₂.entries_eq, h₁.entries_eq, behind, List.mapIdx_append, List.append_assoc]
  · simp only [h₂.owners_eq, h₁.owners_eq, behind, List.mapIdx_append, List.append_assoc]
  · intro other different
    rw [h₂.table_eq other different, h₁.table_eq other different]
  · exact ⟨h₂.cursors_eq.1.trans h₁.cursors_eq.1, h₂.cursors_eq.2.trans h₁.cursors_eq.2⟩

end Appending

section Fixed

variable {category : Category} (fixed : category = .keyword ∨ category = .operator)
include fixed

/-- The cursor of a category whose lexemes are registered is read off its table. -/
theorem next_add_eq_slot (r : Registry) (i : Nat) : r.next category + i = r.slot category i := by
  rcases fixed with rfl | rfl <;> rfl

theorem appends_assign {r : Registry} {lexeme : String} (unreserved : r.isReserved lexeme = false)
    (free : r.owners.get? (r.next category) = none) :
    r.Appends category [lexeme] (r.assign category lexeme) := by
  have fresh : r.codeFor category lexeme = none := by
    obtain ⟨keyword, operator⟩ := (isReserved_eq_false_iff r lexeme).1 unreserved
    rcases fixed with rfl | rfl
    · exact keyword
    · exact operator
  have next : r.next category = r.slot category 0 := by simpa using next_add_eq_slot fixed r 0
  constructor
  · exact config_assign r category lexeme
  · rw [table_assign, if_pos rfl,
      Table.entries_insert_of_not_mem _ _ ((Table.get?_eq_none_iff _ _).1 fresh), next]
    rfl
  · have owners : (r.assign category lexeme).owners =
        r.owners.insert (r.next category) ⟨lexeme, category⟩ := by cases category <;> rfl
    rw [owners, Table.entries_insert_of_not_mem _ _ ((Table.get?_eq_none_iff _ _).1 free), next]
    rfl
  · intro other different
    rw [table_assign, if_neg different]
  · rcases fixed with rfl | rfl <;> exact ⟨rfl, rfl⟩

theorem appends_foldl (batch : List String) (r : Registry)
    (unreserved : ∀ lexeme ∈ batch, r.isReserved lexeme = false) (distinct : batch.Nodup)
    (free : ∀ i : Nat, i < batch.length → r.owners.get? (r.next category + i) = none) :
    r.Appends category batch (batch.foldl (fun r lexeme => r.assign category lexeme) r) := by
  induction batch generalizing r with
  | nil => exact appends_nil r category
  | cons lexeme lexemes ih =>
    obtain ⟨unrepeated, distinct⟩ := List.nodup_cons.1 distinct
    obtain ⟨here, others⟩ := List.forall_mem_cons.1 unreserved
    have first := appends_assign fixed here (by simpa using free 0 (by simp))
    refine appends_trans first (ih _ (fun word member => ?_) distinct (free_assign here free))
    have other : word ≠ lexeme := fun same => unrepeated (same ▸ member)
    exact unreserved_assign (others word member) other category

end Fixed

/-! ### Why a batch is refused -/

theorem fresh_iff (r : Registry) (batch : List String) : r.Fresh batch ↔
    (∀ lexeme ∈ batch, lexeme ≠ "" ∧ r.isReserved lexeme = false) ∧ batch.Nodup := by
  simp only [unreserved_iff_not_mem]
  constructor
  · rintro ⟨nonempty, unreserved, distinct⟩
    exact ⟨fun lexeme member => ⟨fun same => nonempty (same ▸ member), unreserved lexeme member⟩, distinct⟩
  · rintro ⟨new, distinct⟩
    exact ⟨fun member => (new "" member).1 rfl, fun lexeme member => (new lexeme member).2, distinct⟩

theorem kind_of_checkNew {r : Registry} {category : Category} {seen batch : List String}
    {e : RegistryError} (failed : r.checkNew category seen batch = .error e) :
    e.kind = "RegistrationError" := by
  induction batch generalizing seen with
  | nil => cases failed
  | cons lexeme lexemes ih =>
    rw [checkNew] at failed
    split at failed
    · cases failed
      rfl
    split at failed
    · cases failed
      rfl
    · exact ih failed

theorem kind_of_checkAllFree {r : Registry} {code : Int} {batch : List String} {e : RegistryError}
    (failed : r.checkAllFree code batch = .error e) : e.kind = "RegistrationError" := by
  induction batch generalizing code with
  | nil => cases failed
  | cons lexeme lexemes ih =>
    cases here : r.checkFree code lexeme with
    | error e' =>
      simp only [checkAllFree, here, bind, Except.bind, Except.error.injEq] at failed
      subst failed
      unfold checkFree at here
      split at here <;> cases here
      rfl
    | ok _ =>
      simp only [checkAllFree, here, bind, Except.bind] at failed
      exact ih failed

section Refusal

variable {r : Registry} {category : Category} (fixed : category = .keyword ∨ category = .operator)
  {batch : List String}
include fixed

theorem checkBatch_eq_ok_iff_of_fixed : r.checkBatch category batch = .ok () ↔ r.Fresh batch ∧
    ¬r.Overflows category batch ∧ ∀ i : Nat, i < batch.length → r.decode (r.slot category i) = none := by
  rw [checkBatch_eq_ok_iff, ← fresh_iff]
  simp only [next_add_eq_slot fixed, Overflows, decode, Option.map_eq_none_iff, not_and, Int.not_lt]

/-- A batch is checked for everything that speaks against it. -/
theorem checkBatch_eq_ok_iff_not_refuses :
    r.checkBatch category batch = .ok () ↔ ¬r.Refuses category batch := by
  rw [checkBatch_eq_ok_iff_of_fixed fixed]
  constructor
  · rintro ⟨fresh, fits, free⟩ refused
    cases refused with
    | empty member => exact fresh.nonempty member
    | reserved member known =>
      obtain ⟨noKeyword, noOperator⟩ := fresh.unreserved _ member
      exact known.elim noKeyword noOperator
    | repeated twice => exact twice fresh.distinct
    | overflow beyond => exact fits beyond
    | taken inside owned =>
      rw [free _ inside] at owned
      cases owned
  · intro accepted
    refine ⟨⟨fun member => accepted (.empty member), fun lexeme member => ⟨?_, ?_⟩, ?_⟩,
      fun beyond => accepted (.overflow beyond), fun i inside => ?_⟩
    · exact fun keyword => accepted (.reserved member (.inl keyword))
    · exact fun operator => accepted (.reserved member (.inr operator))
    · exact Decidable.not_not.1 fun twice => accepted (.repeated twice)
    · exact Option.eq_none_iff_forall_ne_some.2 fun owner owned => accepted (.taken inside owned)

/-- The range is looked at before the owners of codes, and after the lexemes. -/
theorem kind_of_checkBatch {e : RegistryError} (failed : r.checkBatch category batch = .error e) :
    e.kind = "RangeExhausted" ↔ r.Fresh batch ∧ r.Overflows category batch := by
  cases new : r.checkNew category [] batch with
  | error e' =>
    simp only [checkBatch, new, bind, Except.bind, Except.error.injEq] at failed
    subst failed
    have stale : ¬r.Fresh batch := by
      intro fresh
      have passes := (checkNew_eq_ok_iff r category [] batch).2 (by simpa using (fresh_iff r batch).1 fresh)
      rw [new] at passes
      cases passes
    simp [kind_of_checkNew new, stale]
  | ok _ =>
    have fresh : r.Fresh batch := by
      have := (checkNew_eq_ok_iff r category [] batch).1 new
      exact (fresh_iff r batch).2 (by simpa using this)
    by_cases none : batch = []
    · subst none
      simp [checkBatch, new, bind, Except.bind, checkAllFree] at failed
    simp only [checkBatch, new, bind, Except.bind, ne_eq, none, not_false_eq_true, if_true] at failed
    by_cases inside : r.next category + batch.length - 1 ≤ (r.config.range category).last
    · simp only [(checkRange_eq_ok_iff ..).2 inside] at failed
      have fits : ¬r.Overflows category batch := fun beyond => by
        rw [Overflows, ← next_add_eq_slot fixed] at beyond
        omega
      simp [kind_of_checkAllFree failed, fits]
    · simp only [checkRange, if_neg inside, Except.error.injEq] at failed
      subst failed
      have beyond : r.Overflows category batch := by
        rw [Overflows, ← next_add_eq_slot fixed]
        exact ⟨none, by omega⟩
      exact iff_of_true rfl ⟨fresh, beyond⟩

end Refusal

/-- What comes of registering a batch in a category. -/
structure AllOrNothing (r : Registry) (category : Category) (batch : List String)
    (result : Except RegistryError Unit × Registry) : Prop where
  fails_iff : (∃ e, result.1 = .error e) ↔ r.Refuses category batch
  exhausted_iff : ∀ e, result.1 = .error e →
    (e.kind = "RangeExhausted" ↔ r.Fresh batch ∧ r.Overflows category batch)
  kept : ∀ e, result.1 = .error e → result.2 = r
  appended : result.1 = .ok () → r.Appends category batch result.2

theorem allOrNothing_register {category : Category}
    (fixed : category = .keyword ∨ category = .operator) (r : Registry) (batch : List String) :
    r.AllOrNothing category batch (r.register category batch) := by
  have accepts : r.checkBatch category batch = .ok () ↔ ¬r.Refuses category batch :=
    checkBatch_eq_ok_iff_not_refuses fixed
  rw [register_eq]
  cases checked : r.checkBatch category batch with
  | error e =>
    have refused : r.Refuses category batch := by
      by_contra accepted
      rw [accepts.2 accepted] at checked
      cases checked
    refine ⟨iff_of_true ⟨e, rfl⟩ refused, ?_, fun _ _ => rfl, fun passed => by cases passed⟩
    intro e' failed
    cases failed
    exact kind_of_checkBatch fixed checked
  | ok _ =>
    obtain ⟨⟨new, distinct⟩, -, free⟩ := (checkBatch_eq_ok_iff r category batch).1 checked
    refine ⟨iff_of_false (by simp) (accepts.1 checked), by simp, by simp, fun _ => ?_⟩
    exact appends_foldl fixed batch r (fun lexeme member => (new lexeme member).2) distinct free

/-- Keywords and operators are registered as a whole batch or not at all, and a lexeme that is not encoded
leaves no trace. -/
theorem all_or_nothing (r : Registry) (batch : List String) (lexeme : String) :
    r.AllOrNothing .keyword batch (r.registerKeywords batch) ∧
      r.AllOrNothing .operator batch (r.registerOperators batch) ∧
        ∀ e, (r.encode lexeme).1 = .error e → (r.encode lexeme).2 = r := by
  refine ⟨allOrNothing_register (.inl rfl) r batch, allOrNothing_register (.inr rfl) r batch, ?_⟩
  intro e failed
  rw [encode_of_error failed]

/-- The second code belongs to a symbol, so that the first is not given out either. -/
example :
    let r := ((empty ⟨{ first := 0, last := 9 }, { first := 10, last := 19 }, { first := 1, last := 5 },
      { first := 30, last := 39 }⟩).encode "x").2
    (r.registerKeywords ["a", "b"]).1 = .error (.taken 1 "b" ⟨"x", .symbol⟩) ∧
      (r.registerKeywords ["a"]).1 = .ok () := by decide +kernel

end LineLang.Registry
