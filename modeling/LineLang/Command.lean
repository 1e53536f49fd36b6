import LineLang.FileTree
import LineLang.Options
import LineLang.Prompt

/-!
# The command

The command runs a program from a file or from its arguments, or reads statements at a prompt.
-/

namespace LineLang

inductive Ending where
  | exit (status : Nat)
  /-- A typed line could not be encoded. -/
  | unencodable (e : RegistryError)
  /-- The program is no text. -/
  | undecodable
  deriving DecidableEq, Repr

inductive Request where
  | refuse (refusal : Refusal)
  | missingProgram
  | converse (verbose : Bool)
  | runSource (options : Options) (text : String)
  | runFile (options : Options) (path : String)
  deriving DecidableEq, Repr

namespace Command

def request (arguments : List String) : Request :=
  match Options.parse arguments with
  | .error refusal => .refuse refusal
  | .ok options =>
    match options.program, options.source with
    | none, true => .missingProgram
    | none, false => .converse options.verbose
    | some text, true => .runSource options text
    | some path, false => .runFile options path

def refuse : Refusal → Output × Nat
  | .help => ({ out := Options.help }, 0)
  | .misuse message => ({ err := Options.usage ++ s!"cono: error: {message}\n" }, 2)

/-- A new session with the standard vocabulary. -/
def session (verbose : Bool) : Except RegistryError Session :=
  (Registry.standard .standard).map fun registry => Session.start registry .empty verbose

def unencodable (e : RegistryError) : Output := .complaint s!"{e.kind}: {e.message}"

/-- Runs a program. The status is 0 if no line was rejected. -/
def runText (options : Options) (file text : String) : Output × Nat :=
  match session options.verbose with
  | .error e => (unencodable e, 1)
  | .ok s =>
    let run := s.runLines file options.encode text
    let printed := Output.lines (run.printed.map Printed.text)
    match run.failure with
    | some e => (printed ++ unencodable e, 1)
    | none =>
      let symbols : Output := if options.symbols then .lines [run.session.symbols.dump] else {}
      let trace : Output :=
        if options.trace then .complaint (run.session.journal.toJson.render 0) else {}
      (printed ++ symbols ++ trace, if run.rejected = 0 then 0 else 1)

/-- Runs the program in a file, if it could be read and is text. -/
def runFile (options : Options) (path : String) (content : Except ReadError ByteArray) :
    Output × Ending :=
  match content with
  | .error e => (.complaint s!"Failed to read {path}: {e.message path}", .exit 1)
  | .ok bytes =>
    match String.fromUTF8? bytes with
    | none => ({}, .undecodable)
    | some text =>
      let (output, status) := runText options path (readAsText text)
      (output, .exit status)

def converse (verbose : Bool) (typed : String) : Output × Ending :=
  match session verbose with
  | .error e => ({}, .unencodable e)
  | .ok s =>
    let (output, failure) := Prompt.converse { session := s } (typedLines typed)
    let output : Output := .lines [Prompt.greeting] ++ output
    match failure with
    | some e => (output, .unencodable e)
    | none => (output, .exit 0)

def missingProgram : Output × Nat := (.complaint "-source requires a program string", 1)

/-- The command, given what it reads from a path and the text that is typed at the prompt. -/
def respond (arguments : List String) (read : String → Except ReadError ByteArray) (typed : String) :
    Output × Ending :=
  let exit : Output × Nat → Output × Ending := fun (output, status) => (output, .exit status)
  match request arguments with
  | .refuse refusal => exit (refuse refusal)
  | .missingProgram => exit missingProgram
  | .converse verbose => converse verbose typed
  | .runSource options text => exit (runText options "<string>" text)
  | .runFile options path => runFile options path (read path)

/-- The command in a small file system. What it is given in place of a terminal is read like a file. -/
def run (arguments : List String) (tree : FileTree) (text : String) : Output × Ending :=
  respond arguments tree.read (readAsText text)

end Command

end LineLang
