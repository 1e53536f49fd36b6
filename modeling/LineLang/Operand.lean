import LineLang.Fault
import LineLang.Lexeme.Basic
import LineLang.Text.Numeral

/-!
# Operands and operators

How a literal is read, and what an operator makes of two values: arithmetic on two integers,
concatenation as soon as one of them is no integer.
-/

namespace LineLang

/-- Whether an integer is in [-2^31, 2^31 - 1]. -/
def isInt32 (n : Int) : Bool := -0x80000000 ≤ n && n ≤ 0x7fffffff

def readInteger (lexeme : String) : Except Fault Int :=
  match Numeral.parse? lexeme with
  | some n => if isInt32 n then .ok n else .error (.notAnInteger lexeme)
  | none => .error (.notAnInteger lexeme)

/-- The value of a literal: what stands between quotes, or an integer. -/
def readLiteral (lexeme : String) : Except Fault Value :=
  if isQuoted lexeme then .ok (.string (unquote lexeme)) else (readInteger lexeme).map Value.ofInt

/-- An operator on two integers. A quotient is cut off towards zero. -/
def Operator.compute (op : Operator) (a b : Int) : Except Fault Value :=
  match op with
  | .plus => .ok (.ofInt (a + b))
  | .minus => .ok (.ofInt (a - b))
  | .times => .ok (.ofInt (a * b))
  | .divide => if b = 0 then .error .divisionByZero else .ok (.ofInt (a.tdiv b))

/-- What the token in a role makes of the values on its two sides. -/
def Role.apply (role : Role) (left right : Value) : Except Fault Value :=
  match left, right with
  | .int a, .int b =>
    match role with
    | .binary op => op.compute a b
    | _ => .error (.unsupported role)
  | _, _ => .ok (.string (left.text ++ right.text))

end LineLang
