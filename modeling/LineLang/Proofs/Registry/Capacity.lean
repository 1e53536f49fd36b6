import LineLang.Proofs.Registry.Encoding
import LineLang.Proofs.Registry.Numbering
import LineLang.Proofs.Registry.Standard
import Mathlib.Data.Finset.Card

/-!
# Room for codes

When no two ranges share a code, each category has all of its range to itself. `capacity_of_disjoint`: a
code is refused only to a lexeme that is new in a full category, and a batch only if it does not fit.
`encodeAll_of_disjoint`: lexemes are encoded if and only if there is room for those that are new.
-/

namespace LineLang

/-- How many codes a range has. -/
def CodeRange.size (range : CodeRange) : Nat := (range.last - range.first + 1).toNat

def CodeRange.Contains (range : CodeRange) (code : Int) : Prop := range.first ≤ code ∧ code ≤ range.last

/-- No code is in the ranges of two categories. -/
def Config.Disjoint (config : Config) : Prop :=
  ∀ category other code, (config.range category).Contains code → (config.range other).Contains code →
    category = other

theorem natCast_size (range : CodeRange) : (range.size : Int) = range.last - range.first + 1 := by
  have := range.first_le_last
  unfold CodeRange.size
  omega

theorem disjoint_standard : Config.standard.Disjoint := by
  rintro category other code ⟨first, last⟩ ⟨first', last'⟩
  cases category <;> cases other <;> simp_all [Config.range, Config.standard] <;> omega

namespace Registry

/-! ### How full a category is -/

section Consecutive

variable {r : Registry} (h : r.Consecutive) {category : Category}
include h

theorem lt_next_of_codeFor {lexeme : String} {code : Int}
    (given : r.codeFor category lexeme = some code) : code < r.next category := by
  obtain ⟨i, entry⟩ := List.mem_iff_getElem?.1 ((Table.get?_eq_some_iff _ _ _).1 given)
  have place := (h.code_eq category i lexeme code entry).1
  have inside : i < (r.table category).size := (List.getElem?_eq_some_iff.1 entry).1
  have next := h.next_eq category
  omega

theorem next_le_last_iff : r.next category ≤ (r.config.range category).last ↔
    (r.table category).size < (r.config.range category).size := by
  have next := h.next_eq category
  have size := natCast_size (r.config.range category)
  omega

theorem size_le (category : Category) :
    (r.table category).size ≤ (r.config.range category).size := by
  have size := natCast_size (r.config.range category)
  cases last : (r.table category).size with
  | zero => omega
  | succ i =>
    -- the last entry has the highest code of the category
    have inside : i < (r.table category).entries.length := by
      show i < (r.table category).size
      omega
    obtain ⟨place, inRange⟩ := h.code_eq category i _ _ (List.getElem?_eq_getElem inside)
    omega

end Consecutive

section Disjoint

variable {r : Registry} (h : r.Reachable) (disjoint : r.config.Disjoint)
include h disjoint

/-- The codes of a category that are to come have no owner. -/
theorem free_of_next_le {category : Category} {code : Int} (next : r.next category ≤ code)
    (last : code ≤ (r.config.range category).last) : r.owners.get? code = none := by
  have consecutive := consecutive_of_reachable h
  cases owned : r.owners.get? code with
  | none => rfl
  | some owner =>
    obtain ⟨lexeme, other⟩ := owner
    have given := ((coherent_of_reachable h).owner_iff code lexeme other).1 owned
    have first : (r.config.range category).first ≤ code := by
      have := consecutive.next_eq category
      omega
    obtain rfl : category = other := disjoint _ _ code ⟨first, last⟩ (inRange_of_codeFor h given)
    have := lt_next_of_codeFor consecutive given
    omega

/-- A new lexeme gets the next code while its category has room, and none once it is full. -/
theorem encode_of_disjoint {lexeme : String} (new : r.known? lexeme = none) :
    ((r.table (freeCategory lexeme)).size < (r.config.range (freeCategory lexeme)).size ∧
        r.Admits (freeCategory lexeme) lexeme ∧
          r.encode lexeme = (.ok ⟨lexeme, some (freeCategory lexeme), r.next (freeCategory lexeme)⟩,
            r.assign (freeCategory lexeme) lexeme)) ∨
      ((r.table (freeCategory lexeme)).size = (r.config.range (freeCategory lexeme)).size ∧
        r.encode lexeme =
          (.error (.exhausted (freeCategory lexeme) (r.config.range (freeCategory lexeme)).last), r)) := by
  have consecutive := consecutive_of_reachable h
  obtain ⟨nonempty, unreserved, fresh⟩ := new_of_known?_eq_none new
  rcases Nat.lt_or_eq_of_le (size_le consecutive (freeCategory lexeme)) with room | full
  · have inRange := (next_le_last_iff consecutive).2 room
    have free := free_of_next_le h disjoint (Int.le_refl _) inRange
    have admitted : r.Admits (freeCategory lexeme) lexeme :=
      { nonempty, unreserved, fresh, free, inRange, fitting := .inr (.inr rfl) }
    refine .inl ⟨room, admitted, ?_⟩
    simp only [encode, new, allocate, (checkRange_eq_ok_iff ..).2 inRange,
      (checkFree_eq_ok_iff ..).2 free]
  · have outside : ¬r.next (freeCategory lexeme) ≤ (r.config.range (freeCategory lexeme)).last := by
      rw [next_le_last_iff consecutive, full]
      exact Nat.lt_irrefl _
    refine .inr ⟨full, ?_⟩
    simp only [encode, new, allocate, checkRange, if_neg outside]

theorem full_of_error {lexeme : String} {e : RegistryError} (failed : (r.encode lexeme).1 = .error e) :
    r.known? lexeme = none ∧
      (r.table (freeCategory lexeme)).size = (r.config.range (freeCategory lexeme)).size ∧
        e = .exhausted (freeCategory lexeme) (r.config.range (freeCategory lexeme)).last := by
  cases known : r.known? lexeme with
  | some token =>
    rw [encode, known] at failed
    cases failed
  | none =>
    rcases encode_of_disjoint h disjoint known with ⟨-, -, given⟩ | ⟨full, denied⟩
    · rw [given] at failed
      cases failed
    · rw [denied] at failed
      cases failed
      exact ⟨rfl, full, rfl⟩

/-- A batch of new lexemes is registered if and only if it fits. -/
theorem register_of_disjoint (category : Category) {batch : List String}
    (new : ∀ lexeme ∈ batch, lexeme ≠ "" ∧ r.isReserved lexeme = false) (distinct : batch.Nodup) :
    (r.register category batch).1 = .ok () ↔
      (r.table category).size + batch.length ≤ (r.config.range category).size := by
  have consecutive := consecutive_of_reachable h
  have next := consecutive.next_eq category
  have size := natCast_size (r.config.range category)
  have below := size_le consecutive category
  have checked : (r.register category batch).1 = .ok () ↔ r.checkBatch category batch = .ok () := by
    rw [register_eq]
    split <;> simp_all
  rw [checked, checkBatch_eq_ok_iff]
  constructor
  · rintro ⟨-, room, -⟩
    by_cases none : batch = []
    · simpa [none] using below
    · have := room none
      omega
  · intro fits
    refine ⟨⟨new, distinct⟩, fun _ => by omega, fun i inside => ?_⟩
    have ahead : r.next category ≤ r.next category + i := by omega
    exact free_of_next_le h disjoint ahead (by omega)

end Disjoint

theorem known?_eq_none_iff (r : Registry) {lexeme : String} (nonempty : lexeme ≠ "") :
    r.known? lexeme = none ↔ lexeme ∉ r.keywords.keys ∧ lexeme ∉ r.operators.keys ∧
      lexeme ∉ (r.table (freeCategory lexeme)).keys := by
  rw [← and_assoc, ← unreserved_iff_not_mem, ← Table.get?_eq_none_iff]
  constructor
  · exact fun new => (new_of_known?_eq_none new).2
  · rintro ⟨unreserved, fresh⟩
    rw [known?_of_ne_empty r nonempty, categoryFor_of_unreserved unreserved, codeFor, fresh]
    rfl

/-- Where no two ranges share a code, encoding fails only at a full category. It does so for a lexeme that
is in none of its tables, and a batch of such lexemes is registered as long as the codes last. -/
theorem capacity_of_disjoint {r : Registry} (h : r.Reachable) (disjoint : r.config.Disjoint) :
    (∀ lexeme e, (r.encode lexeme).1 = .error e →
        e = .exhausted (freeCategory lexeme) (r.config.range (freeCategory lexeme)).last) ∧
      (∀ lexeme, lexeme ≠ "" →
        ((∃ e, (r.encode lexeme).1 = .error e ∧ e.kind = "RangeExhausted") ↔
          lexeme ∉ r.keywords.keys ∧ lexeme ∉ r.operators.keys ∧
            lexeme ∉ (r.table (freeCategory lexeme)).keys ∧
              (r.table (freeCategory lexeme)).size = (r.config.range (freeCategory lexeme)).size)) ∧
      ∀ category, category = .keyword ∨ category = .operator → ∀ batch : List String,
        (∀ lexeme ∈ batch, lexeme ≠ "" ∧ lexeme ∉ r.keywords.keys ∧ lexeme ∉ r.operators.keys) →
          batch.Nodup → ((r.register category batch).1 = .ok () ↔
            (r.table category).size + batch.length ≤ (r.config.range category).size) := by
  refine ⟨fun lexeme e failed => (full_of_error h disjoint failed).2.2, fun lexeme nonempty => ⟨?_, ?_⟩, ?_⟩
  · rintro ⟨e, failed, -⟩
    obtain ⟨new, full, -⟩ := full_of_error h disjoint failed
    obtain ⟨keyword, operator, fresh⟩ := (known?_eq_none_iff r nonempty).1 new
    exact ⟨keyword, operator, fresh, full⟩
  · rintro ⟨keyword, operator, fresh, full⟩
    have new := (known?_eq_none_iff r nonempty).2 ⟨keyword, operator, fresh⟩
    rcases encode_of_disjoint h disjoint new with ⟨room, -⟩ | ⟨-, denied⟩
    · exact absurd full (Nat.ne_of_lt room)
    · exact ⟨_, by rw [denied], rfl⟩
  · intro category _ batch new distinct
    refine register_of_disjoint h disjoint category (fun lexeme member => ?_) distinct
    exact ⟨(new lexeme member).1, (unreserved_iff_not_mem r lexeme).2 (new lexeme member).2⟩

/-- One code for symbols is given out already, and one of two for keywords. -/
theorem capacity_of_small :
    let r := [Operation.registerKeywords ["a"], .encode "x"].foldl perform
      (empty ⟨{ first := 0, last := 1 }, { first := 2, last := 9 }, { first := -1, last := -1 },
        { first := 10, last := 19 }⟩)
    r.Reachable ∧ r.config.Disjoint ∧ (r.encode "y").1 = .error (.exhausted .symbol (-1)) ∧
      (r.register .keyword ["b"]).1 = .ok () ∧ (r.register .keyword ["b", "c"]).1 ≠ .ok () := by
  intro r
  have reachable : r.Reachable := ⟨_, _, rfl⟩
  have config : r.config = ⟨{ first := 0, last := 1 }, { first := 2, last := 9 }, { first := -1, last := -1 },
      { first := 10, last := 19 }⟩ := config_of_grows (grows_of_leads ⟨_, rfl⟩)
  have disjoint : r.config.Disjoint := by
    rintro category other code ⟨first, last⟩ ⟨first', last'⟩
    cases category <;> cases other <;> simp_all [Config.range] <;> omega
  obtain ⟨exhausted, full, batches⟩ := capacity_of_disjoint reachable disjoint
  obtain ⟨e, failed, -⟩ := (full "y" (by decide)).2 (by decide +kernel)
  refine ⟨reachable, disjoint, ?_, ?_, ?_⟩
  · rw [failed, exhausted "y" e failed]
    decide +kernel
  · exact (batches .keyword (.inl rfl) ["b"] (by decide +kernel) (by decide)).2 (by decide +kernel)
  · rw [Ne, batches .keyword (.inl rfl) ["b", "c"] (by decide +kernel) (by decide)]
    decide +kernel

/-! ### Room for several lexemes -/

/-- Those of the lexemes that are new in a category, each counted once. -/
def newWords (r : Registry) (category : Category) (lexemes : List String) : Finset String :=
  lexemes.toFinset.filter fun lexeme => freeCategory lexeme = category ∧ r.known? lexeme = none

theorem mem_newWords {r : Registry} {category : Category} {lexemes : List String} {word : String} :
    word ∈ r.newWords category lexemes ↔
      word ∈ lexemes ∧ freeCategory word = category ∧ r.known? word = none := by
  simp [newWords]

theorem newWords_cons_of_known {r : Registry} {lexeme : String} {token : Token}
    (known : r.known? lexeme = some token) (category : Category) (lexemes : List String) :
    r.newWords category (lexeme :: lexemes) = r.newWords category lexemes := by
  ext word
  simp only [mem_newWords, List.mem_cons]
  constructor
  · rintro ⟨rfl | member, fits, new⟩
    · rw [known] at new
      cases new
    · exact ⟨member, fits, new⟩
  · rintro ⟨member, fits, new⟩
    exact ⟨.inr member, fits, new⟩

/-- A lexeme that has been given a code is not new any more, and all others are what they were. -/
theorem known?_assign_eq_none_iff {r : Registry} {lexeme : String} (new : r.known? lexeme = none)
    (word : String) : (r.assign (freeCategory lexeme) lexeme).known? word = none ↔
      r.known? word = none ∧ word ≠ lexeme := by
  by_cases empty : word = ""
  · subst empty
    exact ⟨fun h => absurd h (by simp [known?]), fun h => absurd h.1 (by simp [known?])⟩
  have unreserved := (new_of_known?_eq_none new).2.1
  rw [known?_of_ne_empty _ empty, known?_of_ne_empty _ empty,
    ← categoryFor_congr (sameReserved_assign r lexeme lexeme), codeFor_assign]
  by_cases same : word = lexeme
  · subst same
    simp [categoryFor_of_unreserved unreserved]
  · simp [same]

theorem size_table_assign {r : Registry} {category : Category} {lexeme : String}
    (fresh : r.codeFor category lexeme = none) (other : Category) :
    ((r.assign category lexeme).table other).size =
      (r.table other).size + if other = category then 1 else 0 := by
  rw [table_assign]
  split
  · rename_i same
    subst same
    exact Table.size_insert_of_not_mem _ _ ((Table.get?_eq_none_iff _ _).1 fresh)
  · rfl

theorem card_newWords_cons {r : Registry} {lexeme : String} (new : r.known? lexeme = none)
    (category : Category) (lexemes : List String) :
    (r.newWords category (lexeme :: lexemes)).card =
      ((r.assign (freeCategory lexeme) lexeme).newWords category lexemes).card +
        if category = freeCategory lexeme then 1 else 0 := by
  have others (word : String) := known?_assign_eq_none_iff new word
  by_cases same : category = freeCategory lexeme
  · subst same
    have here : lexeme ∉ (r.assign (freeCategory lexeme) lexeme).newWords (freeCategory lexeme) lexemes := by
      simp [mem_newWords, others]
    rw [if_pos rfl, ← Finset.card_insert_of_notMem here]
    congr 1
    ext word
    simp only [mem_newWords, List.mem_cons, Finset.mem_insert, others]
    by_cases again : word = lexeme
    · subst again
      simp [new]
    · simp [again]
  · rw [if_neg same, Nat.add_zero]
    refine congrArg Finset.card ?_
    ext word
    simp only [mem_newWords, List.mem_cons, others]
    constructor
    · rintro ⟨rfl | member, rfl, unknown⟩
      · exact absurd rfl same
      · exact ⟨member, rfl, unknown, fun again => same (again ▸ rfl)⟩
    · rintro ⟨member, rfl, unknown, -⟩
      exact ⟨.inr member, rfl, unknown⟩

/-- There is room in a category for those of the lexemes that are new in it. -/
def HasRoom (r : Registry) (category : Category) (lexemes : List String) : Prop :=
  (r.table category).size + (r.newWords category lexemes).card ≤ (r.config.range category).size

theorem hasRoom_cons_of_known {r : Registry} {lexeme : String} {token : Token}
    (known : r.known? lexeme = some token) (category : Category) (lexemes : List String) :
    r.HasRoom category (lexeme :: lexemes) ↔ r.HasRoom category lexemes := by
  rw [HasRoom, newWords_cons_of_known known, HasRoom]

theorem hasRoom_cons_of_new {r : Registry} {lexeme : String} (new : r.known? lexeme = none)
    (category : Category) (lexemes : List String) : r.HasRoom category (lexeme :: lexemes) ↔
      (r.assign (freeCategory lexeme) lexeme).HasRoom category lexemes := by
  have fresh := (new_of_known?_eq_none new).2.2
  rw [HasRoom, HasRoom, card_newWords_cons new, size_table_assign fresh, config_assign]
  omega

theorem encodeAll_cons_of_ok {r r' : Registry} {lexeme : String} {token : Token}
    (encoded : r.encode lexeme = (.ok token, r')) (lexemes : List String) :
    r.encodeAll (lexeme :: lexemes) =
      ((r'.encodeAll lexemes).1.map (token :: ·), (r'.encodeAll lexemes).2) := by
  rw [encodeAll, encoded]
  dsimp only
  rcases r'.encodeAll lexemes with ⟨e | tokens, r''⟩ <;> rfl

/-- How lexemes are encoded: all of them where every category has room, and else up to the first one that is
new in a full category. -/
theorem encodeAll_of_disjoint {r : Registry} (h : r.Reachable) (disjoint : r.config.Disjoint)
    (lexemes : List String) :
    (∃ tokens r', r.encodeAll lexemes = (.ok tokens, r') ∧ ∀ category, r.HasRoom category lexemes) ∨
      ∃ category r', (category = .symbol ∨ category = .literal) ∧ ¬r.HasRoom category lexemes ∧
        r.encodeAll lexemes = (.error (.exhausted category (r.config.range category).last), r') := by
  induction lexemes generalizing r with
  | nil =>
    refine .inl ⟨[], r, rfl, fun category => ?_⟩
    simpa [HasRoom, newWords] using size_le (consecutive_of_reachable h) category
  | cons lexeme lexemes ih =>
    cases known : r.known? lexeme with
    | some token =>
      have encoded : r.encode lexeme = (.ok token, r) := by rw [encode, known]
      simp only [hasRoom_cons_of_known known, encodeAll_cons_of_ok encoded]
      rcases ih h disjoint with ⟨tokens, r', result, room⟩ | ⟨category, r', free, full, result⟩
      · exact .inl ⟨token :: tokens, r', by rw [result]; rfl, room⟩
      · exact .inr ⟨category, r', free, full, by rw [result]; rfl⟩
    | none =>
      rcases encode_of_disjoint h disjoint known with ⟨-, -, encoded⟩ | ⟨full, denied⟩
      · have reachable := reachable_of_leads h (leads_encode r lexeme)
        rw [encoded] at reachable
        simp only [hasRoom_cons_of_new known, encodeAll_cons_of_ok encoded]
        have rest := ih reachable (by rwa [config_assign])
        rw [config_assign] at rest
        rcases rest with ⟨tokens, r', result, room⟩ | ⟨category, r', free, full, result⟩
        · exact .inl ⟨_ :: tokens, r', by rw [result]; rfl, room⟩
        · exact .inr ⟨category, r', free, full, by rw [result]; rfl⟩
      · refine .inr ⟨freeCategory lexeme, r, ?_, ?_, by rw [encodeAll, denied]⟩
        · unfold freeCategory
          split <;> simp
        · rw [HasRoom, card_newWords_cons known, if_pos rfl]
          omega

end Registry

end LineLang
