import LineLang.Recognizer

/-!
# Sessions

A session runs statements one call at a time. A call is a list of lexemes with any number of
statements in it; the first fault ends the call, and statements before it keep their effect. The
last statement of a call may lack its semicolon.
-/

namespace LineLang

inductive Outcome where
  | accepted
  | rejected (report : Report)
  /-- The last semicolon is missing. The statement is carried out, unless a fault is reported. -/
  | incomplete (fault : Option Report)
  deriving DecidableEq, Repr

/-- Everything but a rejection counts as success. -/
def Outcome.isOk : Outcome → Bool
  | .rejected _ => false
  | _ => true

structure Session where
  registry : Registry
  dialect : Dialect
  symbols : SymbolTable
  journal : Journal
  /-- Whether the journal pictures the symbols after each step. -/
  verbose : Bool

namespace Session

/-- A session whose dialect is that of the registry, with one entry in its journal. -/
def start (registry : Registry) (symbols : SymbolTable) (verbose : Bool) : Session where
  registry
  dialect := .ofRegistry registry
  symbols
  journal := ({} : Journal).record (some "<seed>") (.ofList [("rule", .string "SEED")]) none
  verbose

def note (s : Session) (statement : String) (event : Event) : Session :=
  let picture := if s.verbose then some s.symbols.picture else none
  { s with journal := s.journal.record (some statement) event.fields picture }

def perform (s : Session) (statement : String) (write : Write) : Except Fault (Session × Event) := do
  let (symbols, event) ← write.run s.symbols
  return ({ s with symbols }.note statement event, event)

/-- Ends a call at a fault. -/
def reject (s : Session) (statement : String) (fault : Fault) (lexeme : String) :
    Outcome × Session × List Event :=
  let event := .rejected fault lexeme
  (.rejected ⟨fault, some lexeme⟩, s.note statement event, [event])

/-- Ends a call behind its last token. -/
def finish (s : Session) (statement : String) (phase : Phase) : Outcome × Session × List Event :=
  match phase with
  | .expression target pending =>
    if pending.isEmpty then (.accepted, s, [])
    else
      let fail (report : Report) : Outcome × Session × List Event :=
        let event := .unterminated report.fault
        (.incomplete (some report), s.note statement event, [event])
      match pending.finish s.dialect s.registry with
      | .error report => fail report
      | .ok value =>
        match s.perform statement (target.write value) with
        | .error fault => fail fault.report
        | .ok (s, event) => (.incomplete none, s, [event])
  | _ => (.accepted, s, [])

def feed (s : Session) (statement : String) (phase : Phase) :
    List Token → Outcome × Session × List Event
  | [] => s.finish statement phase
  | token :: tokens =>
    match phase.step s.dialect s.registry s.symbols token with
    | .error report => s.reject statement report.fault (report.lexeme.getD token.lexeme)
    | .ok (.goOn phase) => s.feed statement phase tokens
    | .ok (.complete write) =>
      match s.perform statement write with
      | .error fault => s.reject statement fault (fault.lexeme?.getD token.lexeme)
      | .ok (s, event) =>
        let (outcome, s, events) := s.feed statement Phase.start tokens
        (outcome, s, event :: events)

def statementText (tokens : List Token) : String := " ".intercalate (tokens.map Token.lexeme)

/-- Runs the lexemes of a call, of which empty ones do not count. All are encoded before any is run;
when one has no code, nothing but the registry has changed. -/
def execute (s : Session) (lexemes : List String) :
    Except RegistryError Outcome × Session × List Event :=
  let (encoded, registry) := s.registry.encodeAll (lexemes.filter (· ≠ ""))
  let s : Session := { s with registry }
  match encoded with
  | .error e => (.error e, s, [])
  | .ok [] => (.ok (.rejected Fault.emptyStatement.report), s, [])
  | .ok tokens =>
    let (outcome, s, events) := s.feed (statementText tokens) Phase.start tokens
    (.ok outcome, s, events)

end Session

end LineLang
