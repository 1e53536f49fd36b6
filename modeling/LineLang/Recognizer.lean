import LineLang.Event
import LineLang.Stacks
import LineLang.SymbolTable

/-!
# Recognizing statements

A statement is read token by token. It is a declaration `int x;`, a declaration with a value
`int x = e;`, or an assignment `x = e;`. The semicolon completes it, and the completed statement is
a write to the symbol table.
-/

namespace LineLang

/-- The name that an expression is for. -/
inductive Target where
  | declaration (ty : Ty) (name : String)
  | assignment (name : String)
  deriving DecidableEq, Repr

/-- What has been read of a statement. -/
inductive Phase where
  | start
  | afterType (ty : Ty)
  | afterDeclared (ty : Ty) (name : String)
  | afterName (name : String)
  | expression (target : Target) (pending : Stacks)

/-- A completed statement. -/
inductive Write where
  | declare (ty : Ty) (name : String)
  | initialise (ty : Ty) (name : String) (value : Value)
  | assign (name : String) (value : Value)
  deriving DecidableEq, Repr

/-- What a token does: the statement goes on, or it is complete. -/
inductive Move where
  | goOn (phase : Phase)
  | complete (write : Write)

/-- The statement that gives a value to a target. -/
def Target.write (target : Target) (value : Value) : Write :=
  match target with
  | .declaration ty name => .initialise ty name value
  | .assignment name => .assign name value

namespace Write

/-- The symbols after a statement, and what it did. -/
def run (t : SymbolTable) : Write → Except Fault (SymbolTable × Event)
  | .declare ty name => (t.declare name (.zero ty)).map (·, .declared name (.zero ty))
  | .initialise ty name value =>
    if value.ty = ty then (t.declare name value).map (·, .initialised name value)
    else .error (.initialMismatch name ty)
  | .assign name value => (t.assign name value).map (·, .assigned name value)

end Write

/-- Reads a token of an expression. -/
def Stacks.read (d : Dialect) (r : Registry) (t : SymbolTable) (s : Stacks) (role : Role)
    (token : Token) : Except Report Stacks :=
  match role with
  | .literal =>
    match readLiteral token.lexeme with
    | .ok value => .ok (s.pushOperand value)
    | .error fault => .error fault.report
  | .name =>
    match t.read token.lexeme with
    | .ok value => .ok (s.pushOperand value)
    | .error fault => .error fault.report
  | .binary _ => s.pushOperator d r token.code
  | .openParen => .ok (s.openParen token.code)
  | .closeParen => s.closeParen d r
  | _ => .error Fault.unexpectedToken.report

/-- Reads a token of a statement. -/
def Phase.step (d : Dialect) (r : Registry) (t : SymbolTable) (phase : Phase) (token : Token) :
    Except Report Move :=
  let role := d.classify token
  match phase with
  | .start =>
    match role with
    | .intType => .ok (.goOn (.afterType .int))
    | .stringType => .ok (.goOn (.afterType .string))
    | .name => .ok (.goOn (.afterName token.lexeme))
    | .semicolon => .ok (.goOn .start)
    | _ => .error Fault.expectedStatement.report
  | .afterType ty =>
    match role with
    | .name => .ok (.goOn (.afterDeclared ty token.lexeme))
    | _ => .error Fault.expectedName.report
  | .afterDeclared ty name =>
    match role with
    | .semicolon => .ok (.complete (.declare ty name))
    | .equals => .ok (.goOn (.expression (.declaration ty name) {}))
    | _ => .error Fault.expectedValueOrEnd.report
  | .afterName name =>
    match role with
    | .equals => .ok (.goOn (.expression (.assignment name) {}))
    | _ => .error Fault.expectedEquals.report
  | .expression target pending =>
    match role with
    | .semicolon => do return .complete (target.write (← pending.finish d r))
    | _ => do return .goOn (.expression target (← pending.read d r t role token))

end LineLang
