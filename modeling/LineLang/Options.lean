import LineLang.Text.Digit
import LineLang.Text.Quoted

/-!
# Command line options

An argument is a flag, an abbreviation of a flag, or the program. `--` ends the flags.
-/

namespace LineLang

inductive Flag where
  | help
  | source
  | verbose
  | encode
  | symbols
  | trace
  deriving DecidableEq, Repr

/-- The spellings of the flags, in the order in which they are listed. -/
def spellings : List (String × Flag) :=
  [("-h", .help), ("--help", .help), ("-source", .source), ("--source", .source),
    ("-verbose", .verbose), ("--verbose", .verbose), ("--encode", .encode), ("--symbols", .symbols),
    ("--trace-json", .trace)]

def Flag.label (flag : Flag) : String :=
  "/".intercalate ((spellings.filter (·.2 == flag)).map Prod.fst)

structure Options where
  program : Option String := none
  source : Bool := false
  verbose : Bool := false
  encode : Bool := false
  symbols : Bool := false
  trace : Bool := false
  deriving DecidableEq, Repr

/-- Why nothing is run. -/
inductive Refusal where
  | help
  | misuse (message : String)
  deriving DecidableEq, Repr

/-- What an argument stands for. A text may be attached to a flag: behind `=`, or right behind a flag
of one letter. -/
inductive Argument where
  | plain (text : String)
  | flag (flag : Flag)
  | attached (flag : Flag) (long : Bool) (text : List Char)
  | unknown (text : String)
  deriving DecidableEq, Repr

namespace Argument

/-- Long spellings begin with two dashes. -/
def isLong (spelling : String) : Bool := ['-', '-'].isPrefixOf spelling.toList

/-- A flag with what stands behind its spelling, from a first `=` on. -/
def ofTail (f : Flag) (long : Bool) : List Char → Argument
  | [] => flag f
  | _ :: text => attached f long text

/-- The text before the first `=`, and the rest of it. -/
def cutAtEquals (cs : List Char) : List Char × List Char :=
  (cs.takeWhile (· != '='), cs.dropWhile (· != '='))

/-- The spellings that an argument abbreviates. -/
def candidates (cs : List Char) : List (String × Argument) :=
  match cs with
  | '-' :: '-' :: _ =>
    let (stem, tail) := cutAtEquals cs
    spellings.filterMap fun (spelling, f) =>
      if stem.isPrefixOf spelling.toList then some (spelling, ofTail f true tail) else none
  | _ =>
    spellings.filterMap fun (spelling, f) =>
      if spelling.toList = cs.take 2 then some (spelling, attached f false (cs.drop 2))
      else if cs.isPrefixOf spelling.toList then some (spelling, flag f)
      else none

def isDigit (c : Char) : Bool := (digitValue? c).isSome

/-- A minus sign, and an integer or a number with a point; a final line feed does not count. -/
def isNegativeNumber (cs : List Char) : Bool :=
  let cs := if cs.getLast? == some '\n' then cs.dropLast else cs
  match cs with
  | '-' :: number =>
    match number.dropWhile isDigit with
    | [] => !number.isEmpty
    | point :: fraction => point == '.' && !fraction.isEmpty && fraction.all isDigit
  | _ => false

/-- The flag that an argument spells out, alone or before `=`. -/
def spelled? (text : String) : Option Argument :=
  match spellings.lookup text with
  | some f => some (flag f)
  | none =>
    let (stem, tail) := cutAtEquals text.toList
    (spellings.lookup (String.ofList stem)).map (ofTail · (isLong text) tail)

def classify (text : String) : Except Refusal Argument :=
  match text.toList with
  | '-' :: _ :: _ =>
    match spelled? text with
    | some argument => .ok argument
    | none =>
      match candidates text.toList with
      | [] =>
        if isNegativeNumber text.toList || text.toList.contains ' ' then .ok (.plain text)
        else .ok (.unknown text)
      | [(_, argument)] => .ok argument
      | several =>
        let matching := ", ".intercalate (several.map Prod.fst)
        .error (.misuse s!"ambiguous option: {text} could match {matching}")
  | _ => .ok (.plain text)

/-- No flag takes a text. -/
def ignored (f : Flag) (text : List Char) : Refusal :=
  .misuse s!"argument {f.label}: ignored explicit argument {Quoted.encode (String.ofList text)}"

/-- The flags that a flag and the text attached to it set. Behind one dash the text may be flags of
one letter. -/
def unpack (f : Flag) (long : Bool) : List Char → Except Refusal (List Flag)
  | [] => .error (ignored f [])
  | letter :: letters =>
    match if long then none else spellings.lookup (String.ofList ['-', letter]) with
    | none => .error (ignored f (letter :: letters))
    | some next => if letters.isEmpty then .ok [f, next] else (unpack next long letters).map (f :: ·)

end Argument

/-- The options read so far, and the arguments that have no use. -/
structure Progress where
  options : Options := {}
  leftover : List String := []
  /-- Whether the last argument was the program. -/
  atProgram : Bool := false

namespace Progress

def leave (p : Progress) (text : String) : Progress :=
  { p with leftover := p.leftover ++ [text], atProgram := false }

/-- The first plain argument is the program. -/
def plain (p : Progress) (text : String) : Progress :=
  match p.options.program with
  | none => { p with options := { p.options with program := some text }, atProgram := true }
  | some _ => p.leave text

/-- Sets a flag; help is given at once. -/
def set (p : Progress) (f : Flag) : Except Refusal Progress :=
  let set (options : Options) : Except Refusal Progress := .ok { p with options, atProgram := false }
  match f with
  | .help => .error .help
  | .source => set { p.options with source := true }
  | .verbose => set { p.options with verbose := true }
  | .encode => set { p.options with encode := true }
  | .symbols => set { p.options with symbols := true }
  | .trace => set { p.options with trace := true }

def take (p : Progress) : Argument → Except Refusal Progress
  | .plain text => .ok (p.plain text)
  | .unknown text => .ok (p.leave text)
  | .flag f => p.set f
  | .attached f long text => do (← Argument.unpack f long text).foldlM set p

/-- Takes the `--` that ends the flags. It belongs to the program beside it; elsewhere it has no use. -/
def takeEnd (p : Progress) : Progress :=
  if p.atProgram || p.options.program.isNone then p else p.leave "--"

end Progress

namespace Options

def parse (arguments : List String) : Except Refusal Options := do
  let classified ← (arguments.takeWhile (· ≠ "--")).mapM Argument.classify
  let flags ← classified.foldlM Progress.take {}
  let all :=
    match arguments.dropWhile (· ≠ "--") with
    | [] => flags
    | _ :: plain => plain.foldl Progress.plain flags.takeEnd
  if all.leftover.isEmpty then return all.options
  else throw (.misuse ("unrecognized arguments: " ++ " ".intercalate all.leftover))

/-- The usage, which complaints about arguments begin with. -/
def usage : String :=
  "usage: cono [-h] [-source] [-verbose] [--encode] [--symbols] [--trace-json]\n" ++
  "            [program]\n"

def help : String := usage ++
  "\ncono statement interpreter\n" ++
  "\npositional arguments:\n" ++
  "  program              Source file path or literal source with -source\n" ++
  "\noptions:\n" ++
  "  -h, --help           show this help message and exit\n" ++
  "  -source, --source    Treat program argument as literal source text\n" ++
  "  -verbose, --verbose  Record symbol snapshots in the state log\n" ++
  "  --encode             Print the encoded form of every line\n" ++
  "  --symbols            Print the symbol table when done\n" ++
  "  --trace-json         Also emit the state log as JSON\n"

end Options

end LineLang
