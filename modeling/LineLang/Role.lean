/-!
# Roles

The part that a token plays in a statement.
-/

namespace LineLang

inductive Operator where
  | plus
  | minus
  | times
  | divide
  deriving DecidableEq, Repr

inductive Role where
  | intType
  | stringType
  | name
  | literal
  | equals
  | binary (op : Operator)
  | openParen
  | closeParen
  | semicolon
  | other
  deriving DecidableEq, Repr

/-- The label of a role in listings and messages. -/
def Role.label : Role → String
  | .intType => "KW_INT"
  | .stringType => "KW_STRING"
  | .name => "SYMBOL"
  | .literal => "LITERAL"
  | .equals => "EQ"
  | .binary .plus => "PLUS"
  | .binary .minus => "MINUS"
  | .binary .times => "MULT"
  | .binary .divide => "DIV"
  | .openParen => "LPAREN"
  | .closeParen => "RPAREN"
  | .semicolon => "SEMI"
  | .other => "OTHER"

end LineLang
