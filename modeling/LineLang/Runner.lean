import LineLang.Lexeme.Split
import LineLang.Session
import LineLang.Text.Lines

/-!
# Running a program

A program is run line by line, and every line is one call. A line that cannot be split is skipped
and counts as rejected. A lexeme without a code stops the run.
-/

namespace LineLang

/-- A printed line: a remark of the runner, or what a statement did. -/
inductive Printed where
  | remark (text : String)
  | event (event : Event)
  deriving DecidableEq, Repr

def Printed.text : Printed → String
  | .remark s => s
  | .event e => e.line

structure Run where
  session : Session
  rejected : Nat := 0
  printed : List Printed := []
  failure : Option RegistryError := none

namespace Session

/-- Runs the lexemes of a line, after `printed`. -/
def runLexemes (s : Session) (printed : List Printed) (lexemes : List String) : Run :=
  match s.execute lexemes with
  | (.error e, session, events) =>
    { session, printed := printed ++ events.map .event, failure := some e }
  | (.ok outcome, session, events) =>
    { session
      rejected := if outcome.isOk then 0 else 1
      printed := printed ++ events.map .event }

def listing (tokens : List Token) : String := ", ".intercalate (tokens.map Token.text)

/-- Runs a line. With `encoded`, its tokens are listed first. -/
def runLine (s : Session) (file : String) (encoded : Bool) (number : Nat) (line : String) : Run :=
  match splitLine line with
  | .error quote =>
    { session := s
      rejected := 1
      printed :=
        [.remark s!"{number} >  {trim line}", .remark ("!   " ++ quote.message file number)] }
  | .ok lexemes =>
    let header := Printed.remark s!"{number} >  {showLexemes lexemes}"
    if lexemes.isEmpty then { session := s, printed := [header] }
    else if encoded then
      match s.registry.encodeAll lexemes with
      | (.error e, registry) =>
        { session := { s with registry }, printed := [header], failure := some e }
      | (.ok tokens, registry) =>
        { s with registry }.runLexemes [header, .remark ("      enc: " ++ listing tokens)] lexemes
    else s.runLexemes [header] lexemes

/-- Runs lines, the first of which has the given number. -/
def runNumbered (s : Session) (file : String) (encoded : Bool) (number : Nat) : List String → Run
  | [] => { session := s }
  | line :: lines =>
    let first := s.runLine file encoded number line
    if first.failure.isSome then first
    else
      let rest := first.session.runNumbered file encoded (number + 1) lines
      { rest with
        rejected := first.rejected + rest.rejected
        printed := first.printed ++ rest.printed }

def runLines (s : Session) (file : String) (encoded : Bool) (text : String) : Run :=
  s.runNumbered file encoded 1 (programLines text)

end Session

end LineLang
