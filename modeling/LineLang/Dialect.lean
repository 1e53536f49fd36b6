import LineLang.Registry.Basic
import LineLang.Role

/-!
# Dialects

A dialect gives roles to codes. It is read off a registry once; what is registered afterwards plays
no special part.
-/

namespace LineLang

/-- The lexemes that statements are built from, with the category and the role they have. -/
def specialLexemes : List (Category × String × Role) :=
  [(.keyword, "int", .intType), (.keyword, "string", .stringType), (.operator, "=", .equals),
    (.operator, "+", .binary .plus), (.operator, "-", .binary .minus),
    (.operator, "*", .binary .times), (.operator, "/", .binary .divide),
    (.operator, "(", .openParen), (.operator, ")", .closeParen), (.operator, ";", .semicolon)]

/-- The weight of an operator that has none of its own, which is also the weight of `+`. -/
def standardWeight : Nat := 10

structure Dialect where
  roles : Table Int Role
  weights : Table Int Nat

namespace Dialect

/-- The roles of the special lexemes that have a code. -/
def ofRegistry (r : Registry) : Dialect where
  roles := Table.ofList (specialLexemes.filterMap fun (category, lexeme, role) =>
    (r.codeFor category lexeme).map (·, role))
  weights := Table.ofList ((r.codeFor .operator "+").map (·, standardWeight)).toList

/-- The role of a code that stands on its own. -/
def roleOf (d : Dialect) (code : Int) : Role := (d.roles.get? code).getD .other

def weight (d : Dialect) (code : Int) : Nat := (d.weights.get? code).getD standardWeight

def isOpenParen (d : Dialect) (code : Int) : Bool := d.roles.get? code == some .openParen

/-- The role of a token: that of its code, or else by category and quotes. -/
def classify (d : Dialect) (token : Token) : Role :=
  match d.roles.get? token.code with
  | some role => role
  | none =>
    match token.category with
    | some .symbol => if isQuoted token.lexeme then .literal else .name
    | some .literal => .literal
    | _ => .other

end Dialect

end LineLang
