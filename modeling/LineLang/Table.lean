/-!
# Ordered tables

A table holds one value for each of its keys, in the order in which the keys were first written.
-/

namespace LineLang

/-- Writes `value` for `key`: in place when the key is present, at the end otherwise. -/
def setEntry {κ α : Type} [DecidableEq κ] (key : κ) (value : α) : List (κ × α) → List (κ × α)
  | [] => [(key, value)]
  | (other, old) :: rest =>
    if other = key then (key, value) :: rest else (other, old) :: setEntry key value rest

theorem map_fst_setEntry {κ α : Type} [DecidableEq κ] (key : κ) (value : α) (entries : List (κ × α)) :
    (setEntry key value entries).map Prod.fst =
      if key ∈ entries.map Prod.fst then entries.map Prod.fst else entries.map Prod.fst ++ [key] := by
  induction entries with
  | nil => rfl
  | cons entry rest ih =>
    obtain ⟨other, old⟩ := entry
    by_cases same : other = key
    · simp [setEntry, same]
    · have : key ≠ other := fun h => same h.symm
      simp only [setEntry, same, if_false, List.map_cons, ih, List.mem_cons, this, false_or]
      split <;> rfl

theorem nodup_setEntry {κ α : Type} [DecidableEq κ] (key : κ) (value : α) {entries : List (κ × α)}
    (h : (entries.map Prod.fst).Nodup) : ((setEntry key value entries).map Prod.fst).Nodup := by
  rw [map_fst_setEntry]
  split
  · exact h
  · rename_i absent
    refine List.nodup_append.2 ⟨h, by simp, ?_⟩
    intro a ha b hb
    rw [List.mem_singleton.1 hb]
    exact fun same => absent (same ▸ ha)

/-- A finite map that keeps the order of first insertion. -/
structure Table (κ α : Type) where
  entries : List (κ × α) := []
  keys_nodup : (entries.map Prod.fst).Nodup := by exact List.nodup_nil

namespace Table

variable {κ α : Type}

def empty : Table κ α := {}

def keys (t : Table κ α) : List κ := t.entries.map Prod.fst

def size (t : Table κ α) : Nat := t.entries.length

def map {β : Type} (f : α → β) (t : Table κ α) : Table κ β where
  entries := t.entries.map fun entry => (entry.1, f entry.2)
  keys_nodup := by simpa [Function.comp_def] using t.keys_nodup

variable [DecidableEq κ]

def get? (t : Table κ α) (key : κ) : Option α := t.entries.lookup key

def contains (t : Table κ α) (key : κ) : Bool := (t.get? key).isSome

def insert (t : Table κ α) (key : κ) (value : α) : Table κ α where
  entries := setEntry key value t.entries
  keys_nodup := nodup_setEntry key value t.keys_nodup

/-- The pairs written one after the other. -/
def ofList (pairs : List (κ × α)) : Table κ α := pairs.foldl (fun t p => t.insert p.1 p.2) empty

/-! ### What a table holds -/

theorem lookup_setEntry {entries : List (κ × α)} (key other : κ) (value : α) :
    (setEntry key value entries).lookup other =
      if other = key then some value else entries.lookup other := by
  induction entries with
  | nil => by_cases same : other = key <;> simp [setEntry, same]
  | cons entry rest ih =>
    obtain ⟨first, old⟩ := entry
    by_cases here : first = key
    · subst here
      by_cases same : other = first
      · simp [setEntry, same]
      · simp [setEntry, List.lookup_cons, beq_eq_false_iff_ne.2 same, same]
    · rw [setEntry, if_neg here, List.lookup_cons, List.lookup_cons, ih]
      by_cases same : other = first
      · have differ : other ≠ key := fun h => here (same.symm.trans h)
        simp [same, here]
      · rw [beq_eq_false_iff_ne.2 same]

theorem get?_insert (t : Table κ α) (key other : κ) (value : α) :
    (t.insert key value).get? other = if other = key then some value else t.get? other :=
  lookup_setEntry key other value

theorem lookup_map {β : Type} (f : α → β) (entries : List (κ × α)) (key : κ) :
    (entries.map fun entry => (entry.1, f entry.2)).lookup key = (entries.lookup key).map f := by
  induction entries with
  | nil => rfl
  | cons entry rest ih =>
    obtain ⟨first, value⟩ := entry
    rw [List.map_cons, List.lookup_cons, List.lookup_cons, ih]
    cases key == first <;> rfl

theorem get?_map {β : Type} (f : α → β) (t : Table κ α) (key : κ) :
    (t.map f).get? key = (t.get? key).map f :=
  lookup_map f t.entries key

theorem setEntry_map {β : Type} (f : α → β) (entries : List (κ × α)) (key : κ) (value : α) :
    (setEntry key value entries).map (fun entry => (entry.1, f entry.2)) =
      setEntry key (f value) (entries.map fun entry => (entry.1, f entry.2)) := by
  induction entries with
  | nil => rfl
  | cons entry rest ih =>
    obtain ⟨first, old⟩ := entry
    simp only [setEntry, List.map_cons]
    split
    · rfl
    · rw [List.map_cons, ih]

theorem map_insert {β : Type} (f : α → β) (t : Table κ α) (key : κ) (value : α) :
    (t.insert key value).map f = (t.map f).insert key (f value) := by
  have entries := setEntry_map f t.entries key value
  unfold insert map
  simp only [entries]

@[simp] theorem get?_empty (key : κ) : (empty : Table κ α).get? key = none := rfl

/-- Of several pairs for a key, the last one counts. -/
theorem get?_ofList (pairs : List (κ × α)) (key : κ) :
    (ofList pairs).get? key = pairs.reverse.lookup key := by
  have fold : ∀ t : Table κ α, (pairs.foldl (fun t p => t.insert p.1 p.2) t).get? key =
      (pairs.reverse.lookup key).or (t.get? key) := by
    induction pairs with
    | nil => intro t; rfl
    | cons pair pairs ih =>
      intro t
      obtain ⟨first, value⟩ := pair
      rw [List.foldl_cons, ih, get?_insert, List.reverse_cons, List.lookup_append, Option.or_assoc,
        List.lookup_cons]
      by_cases same : key = first
      · simp [same]
      · simp [same, beq_eq_false_iff_ne.2 same]
  rw [ofList, fold, get?_empty, Option.or_none]

theorem get?_ofList_eq_some_iff {pairs : List (κ × α)}
    (single : ∀ key value other, (key, value) ∈ pairs → (key, other) ∈ pairs → value = other)
    (key : κ) (value : α) : (ofList pairs).get? key = some value ↔ (key, value) ∈ pairs := by
  have member : ∀ value, pairs.reverse.lookup key = some value → (key, value) ∈ pairs := by
    intro value found
    obtain ⟨before, behind, whole, -⟩ := List.lookup_eq_some_iff.1 found
    exact List.mem_reverse.1 (whole ▸ by simp)
  rw [get?_ofList]
  refine ⟨member value, fun present => ?_⟩
  cases found : pairs.reverse.lookup key with
  | some other => rw [single key value other present (member other found)]
  | none => exact absurd (List.lookup_eq_none_iff.1 found _ (List.mem_reverse.2 present)) (by simp)

theorem get?_eq_none_iff (t : Table κ α) (key : κ) : t.get? key = none ↔ key ∉ t.keys := by
  simp only [get?, keys, List.lookup_eq_none_iff, List.mem_map, not_exists, not_and]
  constructor
  · intro fresh entry member same
    simpa [same] using fresh entry member
  · intro fresh entry member
    exact bne_iff_ne.2 fun same => fresh entry member same.symm

theorem get?_eq_some_iff (t : Table κ α) (key : κ) (value : α) :
    t.get? key = some value ↔ (key, value) ∈ t.entries := by
  obtain ⟨entries, distinct⟩ := t
  simp only [get?]
  induction entries with
  | nil => simp
  | cons entry rest ih =>
    obtain ⟨first, old⟩ := entry
    simp only [List.map_cons, List.nodup_cons] at distinct
    rw [List.lookup_cons]
    by_cases same : key = first
    · subst same
      have fresh : (key, value) ∉ rest := fun h => distinct.1 (List.mem_map_of_mem (f := Prod.fst) h)
      simp [fresh, eq_comm]
    · have differ : (key == first) = false := by simpa using same
      rw [differ]
      simp only [ih distinct.2, List.mem_cons, Prod.mk.injEq, same, false_and, false_or]

theorem entries_insert_of_not_mem (t : Table κ α) {key : κ} (value : α) (h : key ∉ t.keys) :
    (t.insert key value).entries = t.entries ++ [(key, value)] := by
  simp only [insert, keys] at h ⊢
  generalize t.entries = entries at h ⊢
  induction entries with
  | nil => rfl
  | cons entry rest ih =>
    obtain ⟨first, old⟩ := entry
    simp only [List.map_cons, List.mem_cons, not_or] at h
    have differ : first ≠ key := fun same => h.1 same.symm
    simp [setEntry, differ, ih h.2]

theorem size_insert_of_not_mem (t : Table κ α) {key : κ} (value : α) (h : key ∉ t.keys) :
    (t.insert key value).size = t.size + 1 := by
  rw [size, entries_insert_of_not_mem t value h, List.length_append, List.length_singleton, size]

theorem keys_insert (t : Table κ α) (key : κ) (value : α) :
    (t.insert key value).keys = if key ∈ t.keys then t.keys else t.keys ++ [key] :=
  map_fst_setEntry key value t.entries

theorem keys_prefix_insert (t : Table κ α) (key : κ) (value : α) : t.keys <+: (t.insert key value).keys := by
  rw [keys_insert]
  split
  · exact List.prefix_rfl
  · exact List.prefix_append _ _

end Table

end LineLang
