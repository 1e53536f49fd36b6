import LineLang.Output
import LineLang.Registry.Standard
import LineLang.Runner

/-!
# The prompt

At the prompt every typed line is one call. The line `:symbols` shows the symbol table instead.
-/

namespace LineLang

/-- A session at the prompt, and how many lines it has been given. -/
structure Prompt where
  session : Session
  lines : Nat := 0

structure Reply where
  prompt : Prompt
  printed : List Printed := []
  complaint : Option String := none
  failure : Option RegistryError := none

def Reply.output (reply : Reply) : Output :=
  let complaints : Output :=
    match reply.complaint with
    | some text => .complaint text
    | none => {}
  .lines (reply.printed.map Printed.text) ++ complaints

namespace Prompt

def greeting : String :=
  "\x1b[38;2;153;221;255mcono\x1b[0m REPL. Enter statements, ':symbols' to dump, Ctrl-D to quit."

def cue : String := "\x1b[38;2;153;221;255m>>>\x1b[0m "

def answer (p : Prompt) (line : String) : Reply :=
  if trim line = ":symbols" then
    { prompt := p, printed := [.remark (SymbolTable.dump p.session.symbols)] }
  else
    let p := { p with lines := p.lines + 1 }
    match splitLine line with
    | .error quote => { prompt := p, complaint := some ("!   " ++ quote.message "<repl>" p.lines) }
    | .ok lexemes =>
      if lexemes.isEmpty then { prompt := p }
      else
        let run := p.session.runLexemes [] lexemes
        { prompt := { p with session := run.session }, printed := run.printed, failure := run.failure }

/-- Answers lines up to the end of input, or up to one that cannot be encoded. -/
def converse (p : Prompt) : List String → Output × Option RegistryError
  | [] => ({ out := cue ++ "\n" }, none)
  | line :: lines =>
    let reply := p.answer line
    let output : Output := { out := cue } ++ reply.output
    match reply.failure with
    | some e => (output, some e)
    | none =>
      let (rest, failure) := reply.prompt.converse lines
      (output ++ rest, failure)

end Prompt

end LineLang
