import LineLang.Fault
import LineLang.Journal

/-!
# Events

What a statement does, as it is printed and as it is recorded.
-/

namespace LineLang

inductive Event where
  | declared (name : String) (value : Value)
  | initialised (name : String) (value : Value)
  | assigned (name : String) (value : Value)
  | rejected (fault : Fault) (lexeme : String)
  | unterminated (fault : Fault)
  deriving DecidableEq, Repr

namespace Event

def line : Event → String
  | .declared name value => s!"    decl {name}:{value.ty.name} = {value.shown}"
  | .initialised name value => s!"    decl-init {name}:{value.ty.name} = {value.shown}"
  | .assigned name value => s!"    assign {name} = {value.shown}"
  | .rejected fault lexeme => s!"!   {fault.message} near '{lexeme}'"
  | .unterminated _ => "!   Incomplete statement (missing ';')"

def rule : Event → String
  | .declared .. => "DECL"
  | .initialised .. => "DECL_INIT"
  | .assigned .. => "ASSIGN"
  | .rejected .. => "ERROR"
  | .unterminated _ => "INCOMPLETE"

/-- What is recorded beside the rule. -/
def details : Event → List (String × String)
  | .declared name value | .initialised name value | .assigned name value =>
    [("name", name), ("value", value.shown)]
  | .rejected fault lexeme => [("error", fault.kind), ("message", fault.message), ("lexeme", lexeme)]
  | .unterminated fault => [("error", fault.message)]

def fields (event : Event) : Table String Json :=
  .ofList ((("rule", event.rule) :: event.details).map fun p => (p.1, .string p.2))

end Event

end LineLang
