import LineLang.Role
import LineLang.Value

/-!
# Faults

What can be wrong with a statement. A fault ends its statement and nothing else.
-/

namespace LineLang

inductive Fault where
  | emptyStatement
  | expectedStatement
  | expectedName
  | expectedValueOrEnd
  | expectedEquals
  | unexpectedToken
  | unknownTarget (name : String)
  | unknownOperand (name : String)
  | redeclared (name : String)
  | assignMismatch (name : String) (expected actual : Ty)
  | initialMismatch (name : String) (needed : Ty)
  | unmatchedClose
  | unmatchedOpen
  | emptyExpression
  | missingOperand (operator : String)
  | notAnInteger (lexeme : String)
  | divisionByZero
  | unsupported (role : Role)
  deriving DecidableEq, Repr

namespace Fault

def kind : Fault → String
  | .emptyStatement | .expectedStatement | .expectedName | .expectedValueOrEnd | .expectedEquals
  | .unexpectedToken => "StatementSyntaxError"
  | .unknownTarget _ | .unknownOperand _ => "UndeclaredIdentifier"
  | .redeclared _ => "Redeclaration"
  | .assignMismatch .. | .initialMismatch .. => "TypeMismatch"
  | .unmatchedClose | .unmatchedOpen => "MismatchedParenthesis"
  | .emptyExpression | .missingOperand _ => "EmptyExpression"
  | .notAnInteger _ => "NotANumber"
  | .divisionByZero => "DivisionByZero"
  | .unsupported _ => "StatementError"

def message : Fault → String
  | .emptyStatement => "Empty statement"
  | .expectedStatement => "Expected declaration or assignment"
  | .expectedName => "Expected name after type"
  | .expectedValueOrEnd => "Expected '=' or ';' after name"
  | .expectedEquals => "Expected '=' after identifier"
  | .unexpectedToken => "Unexpected token in expression"
  | .unknownTarget name | .unknownOperand name => s!"Undeclared identifier: {name}"
  | .redeclared name => s!"Redeclare: {name}"
  | .assignMismatch name expected actual =>
    s!"Type mismatch in assignment to {name}: expected {expected.name} but got {actual.name}"
  | .initialMismatch _ needed => s!"Type mismatch: need {needed.name}"
  | .unmatchedClose => "Mismatched ')'"
  | .unmatchedOpen => "Mismatched '('"
  | .emptyExpression => "Empty expression"
  | .missingOperand operator => s!"Missing operand for '{operator}'"
  | .notAnInteger lexeme => s!"Not an int: {lexeme}"
  | .divisionByZero => "Division by zero"
  | .unsupported role => s!"Unsupported operator {role.label}"

/-- The lexeme that a fault names by itself. -/
def lexeme? : Fault → Option String
  | .unknownTarget name | .unknownOperand name | .redeclared name | .assignMismatch name _ _
  | .initialMismatch name _ => some name
  | .missingOperand lexeme | .notAnInteger lexeme => some lexeme
  | _ => none

def rule : Fault → String
  | .emptyStatement | .expectedStatement | .expectedName | .expectedValueOrEnd | .expectedEquals
  | .unexpectedToken => "SYNTAX"
  | .unknownTarget _ | .assignMismatch .. => "ASSIGN"
  | .unknownOperand _ => "IDENT"
  | .redeclared _ => "DECL"
  | .initialMismatch .. => "DECL_INIT"
  | .unmatchedClose | .unmatchedOpen => "PAREN"
  | .emptyExpression | .missingOperand _ => "EXPR"
  | .notAnInteger _ => "LITERAL"
  | .divisionByZero => "DIV"
  | .unsupported _ => "APPLY"

end Fault

/-- A fault and the lexeme it is found at, as far as that is known. -/
structure Report where
  fault : Fault
  lexeme : Option String
  deriving DecidableEq, Repr

/-- A fault at the lexeme it names. -/
def Fault.report (fault : Fault) : Report := ⟨fault, fault.lexeme?⟩

/-- A report that has no lexeme yet gets this one. -/
def Report.orAt (report : Report) (lexeme : String) : Report :=
  { report with lexeme := some (report.lexeme.getD lexeme) }

end LineLang
