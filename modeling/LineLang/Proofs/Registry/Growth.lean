import LineLang.Registry.Basic
import Mathlib.Data.List.Nodup

/-!
# How a registry grows

Whatever is asked of a registry, it only ever gives new codes to new lexemes, one at a time.
`grows_of_leads` says so for every history of operations; what holds of registries in general is
then shown for the assignment of a single code.
-/

namespace LineLang.Registry

/-! ### Histories -/

inductive Operation where
  | registerKeywords (batch : List String)
  | registerOperators (batch : List String)
  | encode (lexeme : String)
  deriving DecidableEq, Repr

def perform (r : Registry) : Operation → Registry
  | .registerKeywords batch => (r.registerKeywords batch).2
  | .registerOperators batch => (r.registerOperators batch).2
  | .encode lexeme => (r.encode lexeme).2

/-- Operations lead from one registry to another. -/
def Leads (r r' : Registry) : Prop := ∃ operations : List Operation, operations.foldl perform r = r'

/-- The registries that come about from an empty one. -/
def Reachable (r : Registry) : Prop := ∃ config, (empty config).Leads r

theorem leads_refl (r : Registry) : r.Leads r := ⟨[], rfl⟩

theorem leads_trans {r₁ r₂ r₃ : Registry} (h₁ : r₁.Leads r₂) (h₂ : r₂.Leads r₃) : r₁.Leads r₃ := by
  obtain ⟨first, rfl⟩ := h₁
  obtain ⟨second, rfl⟩ := h₂
  exact ⟨first ++ second, List.foldl_append⟩

theorem leads_perform (r : Registry) (operation : Operation) : r.Leads (r.perform operation) :=
  ⟨[operation], rfl⟩

theorem reachable_of_leads {r r' : Registry} (h : r.Reachable) (leads : r.Leads r') : r'.Reachable :=
  h.imp fun _ start => leads_trans start leads

/-! ### Giving out a code -/

theorem isReserved_eq_false_iff (r : Registry) (lexeme : String) :
    r.isReserved lexeme = false ↔
      r.codeFor .keyword lexeme = none ∧ r.codeFor .operator lexeme = none := by
  simp [isReserved, Table.contains, codeFor, table]

theorem unreserved_iff_not_mem (r : Registry) (lexeme : String) :
    r.isReserved lexeme = false ↔ lexeme ∉ r.keywords.keys ∧ lexeme ∉ r.operators.keys := by
  rw [isReserved_eq_false_iff, ← Table.get?_eq_none_iff, ← Table.get?_eq_none_iff]
  rfl

@[simp] theorem config_assign (r : Registry) (category : Category) (lexeme : String) :
    (r.assign category lexeme).config = r.config := by
  cases category <;> rfl

theorem codeFor_assign (r : Registry) (category other : Category) (lexeme word : String) :
    (r.assign category lexeme).codeFor other word =
      if other = category ∧ word = lexeme then some (r.next category) else r.codeFor other word := by
  cases category <;> cases other <;> simp [assign, codeFor, table, Table.get?_insert]

theorem get?_owners_assign (r : Registry) (category : Category) (lexeme : String) (code : Int) :
    (r.assign category lexeme).owners.get? code =
      if code = r.next category then some ⟨lexeme, category⟩ else r.owners.get? code := by
  cases category <;> simp [assign, Table.get?_insert]

theorem next_assign (r : Registry) {category : Category} {lexeme : String}
    (fresh : r.codeFor category lexeme = none) :
    (r.assign category lexeme).next category = r.next category + 1 := by
  have absent := (Table.get?_eq_none_iff _ _).1 fresh
  cases category with
  | keyword =>
    have := Table.size_insert_of_not_mem r.keywords (r.next .keyword) absent
    simp only [next, assign] at this ⊢
    omega
  | operator =>
    have := Table.size_insert_of_not_mem r.operators (r.next .operator) absent
    simp only [next, assign] at this ⊢
    omega
  | symbol => rfl
  | literal => rfl

/-- A lexeme may be given the next code of a category. -/
structure Admits (r : Registry) (category : Category) (lexeme : String) : Prop where
  nonempty : lexeme ≠ ""
  unreserved : r.isReserved lexeme = false
  fresh : r.codeFor category lexeme = none
  free : r.owners.get? (r.next category) = none
  inRange : r.next category ≤ (r.config.range category).last
  fitting : category = .keyword ∨ category = .operator ∨ category = freeCategory lexeme

/-- One registry becomes another by giving out codes. -/
inductive Grows : Registry → Registry → Prop where
  | refl (r : Registry) : Grows r r
  | assign {r r' : Registry} {category : Category} {lexeme : String} :
      r.Admits category lexeme → Grows (r.assign category lexeme) r' → Grows r r'

theorem grows_trans {r₁ r₂ r₃ : Registry} (h₁ : Grows r₁ r₂) (h₂ : Grows r₂ r₃) : Grows r₁ r₃ := by
  induction h₁ with
  | refl => exact h₂
  | assign admitted _ ih => exact .assign admitted (ih h₂)

theorem grows_assign {r : Registry} {category : Category} {lexeme : String}
    (admitted : r.Admits category lexeme) : Grows r (r.assign category lexeme) :=
  .assign admitted (.refl _)

/-! ### What the checks find -/

theorem checkRange_eq_ok_iff (r : Registry) (category : Category) (code : Int) :
    r.checkRange category code = .ok () ↔ code ≤ (r.config.range category).last := by
  simp [checkRange]

theorem checkFree_eq_ok_iff (r : Registry) (code : Int) (lexeme : String) :
    r.checkFree code lexeme = .ok () ↔ r.owners.get? code = none := by
  unfold checkFree
  split <;> simp_all

theorem bind_eq_ok_iff {ε : Type} (check : Except ε Unit) (next : Unit → Except ε Unit) :
    check >>= next = .ok () ↔ check = .ok () ∧ next () = .ok () := by
  cases check <;> simp [bind, Except.bind]

theorem checkAllFree_eq_ok_iff (r : Registry) (code : Int) (batch : List String) :
    r.checkAllFree code batch = .ok () ↔
      ∀ i : Nat, i < batch.length → r.owners.get? (code + i) = none := by
  induction batch generalizing code with
  | nil => simp [checkAllFree]
  | cons lexeme lexemes ih =>
    rw [checkAllFree, bind_eq_ok_iff, checkFree_eq_ok_iff, ih]
    constructor
    · rintro ⟨here, behind⟩ i inside
      cases i with
      | zero => simpa using here
      | succ i =>
        have := behind i (by simpa using inside)
        rwa [Int.natCast_succ, ← Int.add_assoc, Int.add_right_comm]
    · intro all
      refine ⟨by simpa using all 0 (by simp), fun i inside => ?_⟩
      have := all (i + 1) (by simpa using inside)
      rwa [Int.natCast_succ, ← Int.add_assoc, Int.add_right_comm] at this

theorem checkNew_eq_ok_iff (r : Registry) (category : Category) (seen batch : List String) :
    r.checkNew category seen batch = .ok () ↔
      (∀ lexeme ∈ batch, lexeme ≠ "" ∧ r.isReserved lexeme = false ∧ lexeme ∉ seen) ∧
        batch.Nodup := by
  induction batch generalizing seen with
  | nil => simp [checkNew]
  | cons lexeme lexemes ih =>
    rw [checkNew]
    split
    · simp_all
    split
    · rename_i taken
      simp only [Bool.or_eq_true, List.contains_iff_mem] at taken
      simp only [reduceCtorEq, List.mem_cons, forall_eq_or_imp, false_iff, not_and]
      rintro ⟨⟨-, unreserved, unseen⟩, -⟩
      exact absurd taken (by simp [unreserved, unseen])
    · rename_i nonempty new
      simp only [Bool.or_eq_true, List.contains_iff_mem, not_or, Bool.not_eq_true] at new
      rw [ih, List.nodup_cons]
      simp only [List.mem_cons, not_or, forall_eq_or_imp]
      constructor
      · rintro ⟨others, distinct⟩
        exact ⟨⟨⟨nonempty, new⟩, fun word member => ⟨(others word member).1, (others word member).2.1,
          (others word member).2.2.2⟩⟩, fun member => (others lexeme member).2.2.1 rfl, distinct⟩
      · rintro ⟨⟨-, others⟩, unrepeated, distinct⟩
        exact ⟨fun word member => ⟨(others word member).1, (others word member).2.1,
          fun same => unrepeated (same ▸ member), (others word member).2.2⟩, distinct⟩

/-- A batch passes the checks if its lexemes are new and the next codes are in range and free. -/
theorem checkBatch_eq_ok_iff (r : Registry) (category : Category) (batch : List String) :
    r.checkBatch category batch = .ok () ↔
      ((∀ lexeme ∈ batch, lexeme ≠ "" ∧ r.isReserved lexeme = false) ∧ batch.Nodup) ∧
        (batch ≠ [] → r.next category + batch.length - 1 ≤ (r.config.range category).last) ∧
          ∀ i : Nat, i < batch.length → r.owners.get? (r.next category + i) = none := by
  rw [checkBatch, bind_eq_ok_iff, checkNew_eq_ok_iff]
  by_cases none : batch = []
  · simp [none, checkAllFree]
  · simp only [ne_eq, none, not_false_eq_true, if_true, bind_eq_ok_iff, checkRange_eq_ok_iff,
      checkAllFree_eq_ok_iff, List.not_mem_nil, and_true, true_imp_iff]

/-! ### Every operation gives out codes -/

theorem next_assign_of_unreserved {r : Registry} {lexeme : String} (h : r.isReserved lexeme = false)
    (category : Category) : (r.assign category lexeme).next category = r.next category + 1 := by
  obtain ⟨keyword, operator⟩ := (isReserved_eq_false_iff r lexeme).1 h
  cases category with
  | keyword => exact next_assign r keyword
  | operator => exact next_assign r operator
  | symbol | literal => rfl

theorem unreserved_assign {r : Registry} {lexeme word : String} (h : r.isReserved word = false)
    (other : word ≠ lexeme) (category : Category) :
    (r.assign category lexeme).isReserved word = false := by
  rw [isReserved_eq_false_iff] at h ⊢
  simpa [codeFor_assign, other] using h

/-- Codes that are free before one is given out are free behind it. -/
theorem free_assign {r : Registry} {lexeme : String} (unreserved : r.isReserved lexeme = false)
    {category : Category} {n : Nat}
    (free : ∀ i : Nat, i < n + 1 → r.owners.get? (r.next category + i) = none) :
    ∀ i : Nat, i < n → (r.assign category lexeme).owners.get?
      ((r.assign category lexeme).next category + i) = none := by
  intro i inside
  have beyond : r.next category + 1 + i ≠ r.next category := by omega
  have behind := free (i + 1) (by omega)
  rw [next_assign_of_unreserved unreserved, get?_owners_assign, if_neg beyond]
  rwa [Int.natCast_succ, ← Int.add_assoc, Int.add_right_comm] at behind

/-- Where the codes are free before the first is given out, each is still free when its turn comes. -/
theorem giveAll_eq (category : Category) (batch : List String) (r : Registry)
    (new : ∀ lexeme ∈ batch, r.isReserved lexeme = false) (distinct : batch.Nodup)
    (free : ∀ i : Nat, i < batch.length → r.owners.get? (r.next category + i) = none) :
    r.giveAll category batch =
      (.ok (), batch.foldl (fun r lexeme => r.assign category lexeme) r) := by
  induction batch generalizing r with
  | nil => rfl
  | cons lexeme lexemes ih =>
    obtain ⟨unrepeated, distinct⟩ := List.nodup_cons.1 distinct
    obtain ⟨unreserved, others⟩ := List.forall_mem_cons.1 new
    have given : r.give category lexeme = (.ok (), r.assign category lexeme) := by
      have here : r.owners.get? (r.next category) = none := by simpa using free 0 (by simp)
      rw [give, (checkFree_eq_ok_iff ..).2 here]
    simp only [giveAll, given, List.foldl_cons]
    refine ih _ (fun word member => ?_) distinct (free_assign unreserved free)
    have other : word ≠ lexeme := fun same => unrepeated (same ▸ member)
    exact unreserved_assign (others word member) other category

/-- A batch that passes the checks is registered without a failure on the way. -/
theorem register_eq (r : Registry) (category : Category) (batch : List String) :
    r.register category batch =
      match r.checkBatch category batch with
      | .error e => (.error e, r)
      | .ok () => (.ok (), batch.foldl (fun r lexeme => r.assign category lexeme) r) := by
  unfold register
  cases checked : r.checkBatch category batch with
  | error e => rfl
  | ok _ =>
    obtain ⟨⟨new, distinct⟩, -, free⟩ := (checkBatch_eq_ok_iff r category batch).1 checked
    exact giveAll_eq category batch r (fun lexeme member => (new lexeme member).2) distinct free

theorem grows_foldl_assign {category : Category}
    (reserved : category = .keyword ∨ category = .operator) (batch : List String) (r : Registry)
    (new : ∀ lexeme ∈ batch, lexeme ≠ "" ∧ r.isReserved lexeme = false) (distinct : batch.Nodup)
    (room : batch ≠ [] → r.next category + batch.length - 1 ≤ (r.config.range category).last)
    (free : ∀ i : Nat, i < batch.length → r.owners.get? (r.next category + i) = none) :
    Grows r (batch.foldl (fun r lexeme => r.assign category lexeme) r) := by
  induction batch generalizing r with
  | nil => exact .refl r
  | cons lexeme lexemes ih =>
    obtain ⟨unrepeated, distinct⟩ := List.nodup_cons.1 distinct
    obtain ⟨nonempty, unreserved⟩ := new lexeme List.mem_cons_self
    have absent := (isReserved_eq_false_iff r lexeme).1 unreserved
    have fresh : r.codeFor category lexeme = none := by
      rcases reserved with rfl | rfl
      · exact absent.1
      · exact absent.2
    have step := next_assign r fresh
    have bound := room (by simp)
    rw [List.length_cons] at bound
    have admitted : r.Admits category lexeme :=
      { nonempty, unreserved, fresh
        free := by simpa using free 0 (by simp)
        inRange := by omega
        fitting := by rcases reserved with rfl | rfl <;> simp }
    refine .assign admitted (ih _ ?_ distinct ?_ ?_)
    · intro word member
      obtain ⟨nonempty, unreserved⟩ := new word (List.mem_cons_of_mem _ member)
      have other : word ≠ lexeme := fun same => unrepeated (same ▸ member)
      exact ⟨nonempty, unreserved_assign unreserved other category⟩
    · intro _
      rw [step, config_assign]
      omega
    · exact free_assign unreserved free

theorem grows_register {category : Category}
    (reserved : category = .keyword ∨ category = .operator) (batch : List String) (r : Registry) :
    Grows r (r.register category batch).2 := by
  rw [register_eq]
  split
  · exact .refl r
  · rename_i checked
    obtain ⟨⟨new, distinct⟩, room, free⟩ := (checkBatch_eq_ok_iff r category batch).1 checked
    exact grows_foldl_assign reserved batch r new distinct room free

def categoryFor (r : Registry) (lexeme : String) : Category :=
  if (r.codeFor .keyword lexeme).isSome then .keyword
  else if (r.codeFor .operator lexeme).isSome then .operator
  else freeCategory lexeme

/-- The token of a lexeme is looked up in the category of the lexeme. -/
theorem known?_of_ne_empty (r : Registry) {lexeme : String} (nonempty : lexeme ≠ "") :
    r.known? lexeme = (r.codeFor (r.categoryFor lexeme) lexeme).map
      (Token.mk lexeme (some (r.categoryFor lexeme))) := by
  have keywords : r.keywords.get? lexeme = r.codeFor .keyword lexeme := rfl
  have operators : r.operators.get? lexeme = r.codeFor .operator lexeme := rfl
  rw [known?, if_neg nonempty, keywords, operators, categoryFor]
  cases keyword : r.codeFor .keyword lexeme with
  | some code => simp [keyword]
  | none =>
    cases operator : r.codeFor .operator lexeme with
    | some code => simp [operator]
    | none => simp

theorem categoryFor_of_unreserved {r : Registry} {lexeme : String}
    (h : r.isReserved lexeme = false) : r.categoryFor lexeme = freeCategory lexeme := by
  obtain ⟨keyword, operator⟩ := (isReserved_eq_false_iff r lexeme).1 h
  simp [categoryFor, keyword, operator]

theorem categoryFor_of_reserved {r : Registry} {lexeme : String} (h : r.isReserved lexeme = true) :
    r.categoryFor lexeme = .keyword ∨ r.categoryFor lexeme = .operator := by
  unfold categoryFor
  split
  · exact .inl rfl
  split
  · exact .inr rfl
  · rename_i keyword operator
    rw [Option.not_isSome_iff_eq_none] at keyword operator
    rw [(isReserved_eq_false_iff r lexeme).2 ⟨keyword, operator⟩] at h
    cases h

theorem new_of_known?_eq_none {r : Registry} {lexeme : String} (h : r.known? lexeme = none) :
    lexeme ≠ "" ∧ r.isReserved lexeme = false ∧ r.codeFor (freeCategory lexeme) lexeme = none := by
  have nonempty : lexeme ≠ "" := by
    rintro rfl
    cases h
  rw [known?_of_ne_empty r nonempty, Option.map_eq_none_iff] at h
  have unreserved : r.isReserved lexeme = false := by
    rw [isReserved_eq_false_iff]
    cases keyword : r.codeFor .keyword lexeme with
    | some code => simp [categoryFor, keyword] at h
    | none =>
      cases operator : r.codeFor .operator lexeme with
      | some code => simp [categoryFor, keyword, operator] at h
      | none => exact ⟨rfl, rfl⟩
  rw [categoryFor_of_unreserved unreserved] at h
  exact ⟨nonempty, unreserved, h⟩

/-- Allocation either fails and changes nothing, or gives out the next code. -/
theorem allocate_cases (r : Registry) (category : Category) (lexeme : String) :
    (∃ e, r.allocate category lexeme = (.error e, r)) ∨
      r.allocate category lexeme =
          (.ok ⟨lexeme, some category, r.next category⟩, r.assign category lexeme) ∧
        r.next category ≤ (r.config.range category).last ∧
          r.owners.get? (r.next category) = none := by
  cases inRange : r.checkRange category (r.next category) with
  | error e => exact .inl ⟨e, by simp only [allocate, inRange]⟩
  | ok _ =>
    cases free : r.checkFree (r.next category) lexeme with
    | error e => exact .inl ⟨e, by simp only [allocate, inRange, free]⟩
    | ok _ =>
      exact .inr ⟨by simp only [allocate, inRange, free], (checkRange_eq_ok_iff ..).1 inRange,
        (checkFree_eq_ok_iff ..).1 free⟩

/-- Encoding fails and changes nothing, finds a token, or gives out the next code. -/
theorem encode_cases (r : Registry) (lexeme : String) :
    (∃ e, r.encode lexeme = (.error e, r)) ∨
      (∃ token, r.known? lexeme = some token ∧ r.encode lexeme = (.ok token, r)) ∨
        r.Admits (freeCategory lexeme) lexeme ∧
          r.encode lexeme = (.ok ⟨lexeme, some (freeCategory lexeme), r.next (freeCategory lexeme)⟩,
            r.assign (freeCategory lexeme) lexeme) := by
  unfold encode
  cases known : r.known? lexeme with
  | some token => exact .inr (.inl ⟨token, rfl, rfl⟩)
  | none =>
    obtain ⟨nonempty, unreserved, fresh⟩ := new_of_known?_eq_none known
    rcases allocate_cases r (freeCategory lexeme) lexeme with ⟨e, failed⟩ | ⟨given, inRange, free⟩
    · exact .inl ⟨e, failed⟩
    · have admitted : r.Admits (freeCategory lexeme) lexeme :=
        { nonempty, unreserved, fresh, free, inRange, fitting := .inr (.inr rfl) }
      exact .inr (.inr ⟨admitted, given⟩)

theorem grows_encode (r : Registry) (lexeme : String) : Grows r (r.encode lexeme).2 := by
  rcases encode_cases r lexeme with ⟨e, failed⟩ | ⟨token, -, found⟩ | ⟨admitted, given⟩
  · rw [failed]
    exact .refl r
  · rw [found]
    exact .refl r
  · rw [given]
    exact grows_assign admitted

theorem grows_perform (r : Registry) (operation : Operation) : Grows r (r.perform operation) := by
  cases operation with
  | registerKeywords batch => exact grows_register (.inl rfl) batch r
  | registerOperators batch => exact grows_register (.inr rfl) batch r
  | encode lexeme => exact grows_encode r lexeme

/-- Operations, failed ones included, do nothing but give out codes. -/
theorem grows_of_leads {r r' : Registry} (h : r.Leads r') : Grows r r' := by
  obtain ⟨operations, rfl⟩ := h
  induction operations generalizing r with
  | nil => exact .refl r
  | cons operation operations ih => exact grows_trans (grows_perform r operation) ih

end LineLang.Registry
