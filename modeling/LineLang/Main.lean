import LineLang.Command

/-!
# The program

Reads the arguments, the program file and the terminal, and writes what the command says.
-/

namespace LineLang

def write (output : Output) : IO Unit := do
  let out ← IO.getStdout
  let err ← IO.getStderr
  out.putStr output.out
  out.flush
  err.putStr output.err
  err.flush

/-- The number of an error. Some of them come with its negative. -/
def errorNumber (code : UInt32) : Nat := min code.toNat (-code).toNat

/-- What the host says about a file. It names the file if this could not be opened. -/
def ReadError.reported : IO.Error → ReadError
  | .noFileOrDirectory _ code reason | .interrupted _ code reason =>
    ofNumber (errorNumber code) reason true
  | .alreadyExists name code reason | .invalidArgument name code reason
  | .permissionDenied name code reason | .resourceExhausted name code reason
  | .inappropriateType name code reason | .noSuchThing name code reason =>
    ofNumber (errorNumber code) reason name.isSome
  | .hardwareFault code reason => ofNumber (errorNumber code) reason false
  | .otherError code reason | .resourceBusy code reason | .resourceVanished code reason
  | .unsupportedOperation code reason | .unsatisfiedConstraints code reason
  | .illegalOperation code reason | .protocolError code reason | .timeExpired code reason =>
    ofNumber (errorNumber code) reason true
  | e => ofNumber 0 (toString e) false

def readFile (path : String) : IO (Except ReadError ByteArray) := do
  try
    return .ok (← IO.FS.readBinFile path)
  catch e =>
    return .error (.reported e)

/-- How the program ends: the status, and what is said about an abnormal end. -/
def conclude : Ending → IO UInt32
  | .exit status => return status.toUInt32
  | .unencodable e => do
    write (Command.unencodable e)
    return 1
  | .undecodable => do
    write (.complaint "The program is not UTF-8 text")
    return 1

/-- Answers lines as they are typed. -/
partial def converse (p : Prompt) : IO UInt32 := do
  write { out := Prompt.cue }
  match typedLines (← (← IO.getStdin).getLine) with
  | [] => do
    write { out := "\n" }
    return 0
  | line :: _ => do
    let reply := p.answer line
    write reply.output
    match reply.failure with
    | some e => conclude (.unencodable e)
    | none => converse reply.prompt

def start (arguments : List String) : IO UInt32 := do
  let exit (result : Output × Nat) : IO UInt32 := do
    write result.1
    conclude (.exit result.2)
  match Command.request arguments with
  | .refuse refusal => exit (Command.refuse refusal)
  | .missingProgram => exit Command.missingProgram
  | .converse verbose =>
    match Command.session verbose with
    | .error e => conclude (.unencodable e)
    | .ok s => do
      write (.lines [Prompt.greeting])
      converse { session := s }
  | .runSource options text => exit (Command.runText options "<string>" text)
  | .runFile options path => do
    let (output, ending) := Command.runFile options path (← readFile path)
    write output
    conclude ending

end LineLang

def main (arguments : List String) : IO UInt32 := LineLang.start arguments
