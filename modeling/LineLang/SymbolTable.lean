import LineLang.Fault
import LineLang.Table

/-!
# The symbol table

The declared names with their values, in the order of declaration. A name keeps its type.
-/

namespace LineLang

abbrev SymbolTable := Table String Value

namespace SymbolTable

/-- Adds a name that is not declared yet. -/
def declare (t : SymbolTable) (name : String) (value : Value) : Except Fault SymbolTable :=
  if t.contains name then .error (.redeclared name) else .ok (t.insert name value)

/-- Replaces the value of a declared name by one of the same type. -/
def assign (t : SymbolTable) (name : String) (value : Value) : Except Fault SymbolTable :=
  match t.get? name with
  | none => .error (.unknownTarget name)
  | some old =>
    if old.ty = value.ty then .ok (t.insert name value)
    else .error (.assignMismatch name old.ty value.ty)

def read (t : SymbolTable) (name : String) : Except Fault Value :=
  match t.get? name with
  | none => .error (.unknownOperand name)
  | some value => .ok value

/-- Every name with its type and value in writing. -/
def picture (t : SymbolTable) : Table String String :=
  t.map fun value => s!"{value.ty.name}:{value.shown}"

def dump (t : SymbolTable) : String :=
  "Symbols: " ++ ", ".intercalate (t.entries.map fun entry => s!"{entry.1}={entry.2.shown}")

end SymbolTable

end LineLang
