import LineLang.Journal
import LineLang.Proofs.Text.Written
import Mathlib.Data.List.Nodup

/-!
# The chain of states

`chained_recordAll`: whatever is recorded, and whatever fields come with it, the entries are numbered in
order, and each leads to a state of its own from the state that the entry before it leads to, unless it
says itself where it comes from.
-/

namespace LineLang

/-- What is recorded in one step. The fields may be missing, and may be any. -/
structure Note where
  statement : Option String
  fields : Option (Table String Json)
  picture : Option (Table String String)

def Note.given (note : Note) : Table String Json := note.fields.getD .empty

/-- What an entry says that is made of a note in a position, where the states gone through are these. -/
structure Entry.MadeOf (entry : Entry) (states : List String) (position : Nat) (note : Note) : Prop where
  index_eq : entry.index = position
  id_eq : entry.id =
    "s_" ++ (String.ofList (List.replicate (6 - (toString position).length) '0') ++ toString position)
  statement_eq : entry.statement = note.statement
  picture_eq : entry.picture = note.picture
  target : entry.fields.get? toField = some (.string entry.id)
  source : entry.fields.get? fromField =
    (note.given.get? fromField).or (states[position]?.map Json.string)
  others : ∀ field, field ≠ fromField → field ≠ toField →
    entry.fields.get? field = note.given.get? field

namespace Journal

def recordAll (j : Journal) (notes : List Note) : Journal :=
  notes.foldl (fun j note => j.record note.statement note.given note.picture) j

/-- The states gone through, from the first one on. -/
def states (j : Journal) : List String := "seed" :: j.entries.map Entry.id

/-- The entries are made of the notes, one of each, and no state is reached twice. -/
structure Chained (j : Journal) (notes : List Note) : Prop where
  length_eq : j.entries.length = notes.length
  next_eq : j.next = j.entries.length
  last_eq : j.states.getLast? = some j.last
  distinct : j.states.Nodup
  madeOf : ∀ (position : Nat) (note : Note) (entry : Entry), notes[position]? = some note →
    j.entries[position]? = some entry → entry.MadeOf j.states position note

/-! ### Names of states -/

/-- The state before a step. -/
def stateBefore : Nat → String
  | 0 => "seed"
  | step + 1 => stateId step

theorem stateId_eq (index : Nat) : stateId index =
    "s_" ++ (String.ofList (List.replicate (6 - (toString index).length) '0') ++ toString index) := by
  simp only [stateId, ← String.toList_inj, String.toList_append, toList_padded, String.toList_ofList]

theorem stateId_inj {index index' : Nat} (h : stateId index = stateId index') : index = index' := by
  rw [stateId, stateId, ← String.toList_inj, String.toList_append, String.toList_append] at h
  exact padded_inj (String.toList_inj.1 (List.append_cancel_left h))

theorem stateId_ne_seed (index : Nat) : stateId index ≠ "seed" := by
  intro same
  have second : (stateId index).toList[1]? = some '_' := by
    rw [stateId, String.toList_append]
    rfl
  rw [same] at second
  exact absurd second (by decide)

theorem stateBefore_inj {step step' : Nat} (h : stateBefore step = stateBefore step') : step = step' := by
  cases step with
  | zero =>
    cases step' with
    | zero => rfl
    | succ step' => exact absurd h.symm (stateId_ne_seed step')
  | succ step =>
    cases step' with
    | zero => exact absurd h (stateId_ne_seed step)
    | succ step' => rw [stateId_inj h]

/-! ### The entries of a journal -/

/-- The entry that a note in a position becomes. -/
def entryAt (position : Nat) (note : Note) : Entry :=
  entry ⟨[], position, stateBefore position⟩ note.statement note.given note.picture

theorem recordAll_append (j : Journal) (notes more : List Note) :
    j.recordAll (notes ++ more) = (j.recordAll notes).recordAll more :=
  List.foldl_append

/-- An entry depends on nothing but its note and its position. -/
theorem recordAll_eq (notes : List Note) : recordAll {} notes =
    { entries := notes.mapIdx entryAt, next := notes.length, last := stateBefore notes.length } := by
  induction notes using List.reverseRecOn with
  | nil => rfl
  | append_singleton notes note ih =>
    rw [recordAll_append, ih, List.mapIdx_concat, List.length_append]
    rfl

theorem states_recordAll (notes : List Note) :
    (recordAll {} notes).states = (List.range (notes.length + 1)).map stateBefore := by
  rw [recordAll_eq]
  induction notes using List.reverseRecOn with
  | nil => rfl
  | append_singleton notes note ih =>
    rw [List.length_append, List.length_singleton, List.range_succ, List.map_append, ← ih]
    simp only [states, List.mapIdx_concat, List.map_append, List.cons_append]
    rfl

theorem get?_fields_entryAt (position : Nat) (note : Note) (field : String) :
    (entryAt position note).fields.get? field =
      if field = toField then some (.string (stateId position))
      else if field = fromField then
        (note.given.get? fromField).or (some (.string (stateBefore position)))
      else note.given.get? field := by
  unfold entryAt entry
  dsimp only
  rw [Table.get?_insert]
  refine if_congr Iff.rfl rfl ?_
  cases given : note.given.get? fromField with
  | some source =>
    rw [if_pos (by rw [Table.contains, given]; rfl)]
    split
    · rename_i same
      rw [same, given]
      rfl
    · rfl
  | none =>
    rw [if_neg (by rw [Table.contains, given]; simp), Table.get?_insert]
    rfl

theorem madeOf_entryAt {states : List String} {position : Nat}
    (here : states[position]? = some (stateBefore position)) (note : Note) :
    (entryAt position note).MadeOf states position note where
  index_eq := rfl
  id_eq := stateId_eq position
  statement_eq := rfl
  picture_eq := rfl
  target := by rw [get?_fields_entryAt, if_pos rfl]; rfl
  source := by rw [get?_fields_entryAt, if_neg (by decide), if_pos rfl, here]; rfl
  others field noSource noTarget := by rw [get?_fields_entryAt, if_neg noTarget, if_neg noSource]

theorem chained_recordAll (notes : List Note) : (recordAll {} notes).Chained notes := by
  have states := states_recordAll notes
  constructor
  · rw [recordAll_eq, List.length_mapIdx]
  · rw [recordAll_eq, List.length_mapIdx]
  · rw [states, List.getLast?_map, List.getLast?_range, recordAll_eq]
    rfl
  · rw [states]
    exact List.Nodup.map (fun _ _ same => stateBefore_inj same) List.nodup_range
  · intro position note entry given found
    have inside : position < notes.length := (List.getElem?_eq_some_iff.1 given).1
    have here : (recordAll {} notes).states[position]? = some (stateBefore position) := by
      rw [states, List.getElem?_map, List.getElem?_range (by omega)]
      rfl
    have made : some (entryAt position note) = some entry := by
      rw [← found, recordAll_eq, List.getElem?_mapIdx, given]
      rfl
    cases made
    exact madeOf_entryAt here note

/-- Where no note says where it comes from, the entries lead through the states one after the other. -/
theorem fields_of_chained {j : Journal} {notes : List Note} (h : j.Chained notes)
    (silent : ∀ note ∈ notes, note.given.get? fromField = none) {position : Nat} {entry : Entry}
    (found : j.entries[position]? = some entry) :
    entry.fields.get? fromField = j.states[position]?.map Json.string ∧
      entry.fields.get? toField = j.states[position + 1]?.map Json.string := by
  have inside : position < notes.length := h.length_eq ▸ (List.getElem?_eq_some_iff.1 found).1
  have given : notes[position]? = some notes[position] := List.getElem?_eq_getElem inside
  have made := h.madeOf position _ entry given found
  constructor
  · rw [made.source, silent _ (List.getElem_mem inside), Option.none_or]
  · rw [made.target, states, List.getElem?_cons_succ, List.getElem?_map, found]
    rfl

end Journal

end LineLang
