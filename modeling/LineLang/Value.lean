/-!
# Values

Values are 32-bit integers and texts. A symbol table may also bring values of other types, which
behave like texts that no declaration makes.
-/

namespace LineLang

inductive Ty where
  | int
  | string
  | named (name : String)
  deriving DecidableEq, Repr

namespace Ty

def name : Ty → String
  | .int => "INT"
  | .string => "STRING"
  | .named name => name

def ofName (name : String) : Ty :=
  if name = "INT" then .int else if name = "STRING" then .string else .named name

end Ty

inductive Value where
  | int (n : Int)
  | string (s : String)
  | foreign (type : String) (s : String)
  deriving DecidableEq, Repr

/-- The integer in [-2^31, 2^31 - 1] that differs from `n` by a multiple of 2^32. -/
def wrap (n : Int) : Int := n.bmod 0x100000000

namespace Value

def ofInt (n : Int) : Value := .int (wrap n)

def ty : Value → Ty
  | .int _ => .int
  | .string _ => .string
  | .foreign type _ => .ofName type

/-- What a value adds to a concatenation. An integer is written in full, also if it has more digits than the
host would write. No program computes one that has. -/
def text : Value → String
  | .int n => toString n
  | .string s => s
  | .foreign _ s => s

/-- A value as it is shown: an integer in decimal, in full as well, anything else between double quotes. -/
def shown : Value → String
  | .int n => toString n
  | .string s => "\"" ++ s ++ "\""
  | .foreign _ s => "\"" ++ s ++ "\""

/-- The value of a name that is declared without one. -/
def zero : Ty → Value
  | .int => ofInt 0
  | _ => .string ""

end Value

end LineLang
