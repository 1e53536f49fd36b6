import LineLang.Json
import LineLang.Table

/-!
# The journal

The journal numbers the states that a session goes through. Each entry leads from one state to the
next, so that the entries form a chain.
-/

namespace LineLang

structure Entry where
  index : Nat
  id : String
  statement : Option String
  fields : Table String Json
  /-- The symbols after the step, when they are recorded. -/
  picture : Option (Table String String)

/-- The entries, oldest first, with the number of the next and the name of the current state. -/
structure Journal where
  entries : List Entry := []
  next : Nat := 0
  last : String := "seed"

def stateId (index : Nat) : String := "s_" ++ padded 10 6 index

/-- The field for the state that an entry leaves. -/
def fromField : String := "from_state_id"

/-- The field for the state that an entry reaches. -/
def toField : String := "to_state_id"

namespace Journal

/-- The entry for the next step. Its fields tell where it comes from, unless they already do, and
where it leads. -/
def entry (j : Journal) (statement : Option String) (fields : Table String Json)
    (picture : Option (Table String String)) : Entry :=
  let fields := if fields.contains fromField then fields else fields.insert fromField (.string j.last)
  { index := j.next
    id := stateId j.next
    statement
    fields := fields.insert toField (.string (stateId j.next))
    picture }

def record (j : Journal) (statement : Option String) (fields : Table String Json)
    (picture : Option (Table String String)) : Journal where
  entries := j.entries ++ [j.entry statement fields picture]
  next := j.next + 1
  last := stateId j.next

end Journal

def Entry.toJson (entry : Entry) : Json :=
  let statement :=
    match entry.statement with
    | some text => Json.string text
    | none => .null
  let picture :=
    match entry.picture with
    | some symbols => [("env_snapshot", Json.object (symbols.entries.map fun p => (p.1, .string p.2)))]
    | none => []
  .object ([("step_index", .int entry.index), ("state_id", .string entry.id), ("statement", statement),
    ("rewrite_record", .object entry.fields.entries)] ++ picture)

def Journal.toJson (j : Journal) : Json := .array (j.entries.map Entry.toJson)

end LineLang
