import LineLang.Proofs.Registry.Standard
import LineLang.Proofs.Runner.Run

/-!
# Listing tokens changes nothing else

`runLines_listed`: a run that lists the tokens of its lines does what it does without the list. It
prints one line more behind the header of every line whose lexemes have codes.
-/

namespace LineLang

/-- What a line prints: its header, the tokens that may be listed, and what comes of them. -/
structure Block where
  header : String
  tokens : Option (List Token)
  rest : List Printed

/-- The lines of a block. A list of tokens stands right behind the header. -/
def Block.printed (encoded : Bool) (block : Block) : List Printed :=
  let listed := block.tokens.toList.map fun tokens =>
    Printed.remark ("      enc: " ++ Session.listing tokens)
  .remark block.header :: ((if encoded then listed else []) ++ block.rest)

namespace Session

def headerOf (number : Nat) (line : String) : String :=
  match splitLine line with
  | .ok lexemes => s!"{number} >  {showLexemes lexemes}"
  | .error _ => s!"{number} >  {trim line}"

/-- The block of a line in a session: it has tokens if the line has lexemes and all of them have codes. -/
structure HasBlock (s : Session) (number : Nat) (line : String) (block : Block) : Prop where
  header_eq : block.header = headerOf number line
  tokens_iff : ∀ tokens, block.tokens = some tokens ↔ ∃ lexemes r,
    splitLine line = .ok lexemes ∧ lexemes ≠ [] ∧ s.registry.encodeAll lexemes = (.ok tokens, r)

/-- The blocks of the lines of a run, one for each line up to the first that fails. -/
inductive HasBlocks (file : String) : Session → Nat → List String → List Block → Prop where
  | done (s : Session) (number : Nat) : HasBlocks file s number [] []
  | stop {s : Session} {number : Nat} {line : String} {lines : List String} {block : Block}
      {e : RegistryError} : s.HasBlock number line block →
      (s.runLine file false number line).failure = some e →
      HasBlocks file s number (line :: lines) [block]
  | next {s : Session} {number : Nat} {line : String} {lines : List String} {block : Block}
      {blocks : List Block} : s.HasBlock number line block →
      (s.runLine file false number line).failure = none →
      HasBlocks file (s.runLine file false number line).session (number + 1) lines blocks →
      HasBlocks file s number (line :: lines) (block :: blocks)

/-- One run does what the other does, whatever they print. -/
structure DoesAs (run run' : Run) : Prop where
  session_eq : run.session = run'.session
  rejected_eq : run.rejected = run'.rejected
  failure_eq : run.failure = run'.failure

/-- Whether tokens are listed or not, a line does the same and prints its block. -/
theorem exists_block (s : Session) (file : String) (number : Nat) (line : String) :
    ∃ block, s.HasBlock number line block ∧ ∀ encoded,
      DoesAs (s.runLine file encoded number line) (s.runLine file false number line) ∧
        (s.runLine file encoded number line).printed = block.printed encoded := by
  cases split : splitLine line with
  | error quote =>
    refine ⟨⟨headerOf number line, none, [.remark ("!   " ++ quote.message file number)]⟩,
      ⟨rfl, by simp [split]⟩, fun encoded => ?_⟩
    rw [headerOf, split, runLine_of_unsplit file encoded number split,
      runLine_of_unsplit file false number split]
    exact ⟨⟨rfl, rfl, rfl⟩, by cases encoded <;> rfl⟩
  | ok lexemes =>
    have header : headerOf number line = s!"{number} >  {showLexemes lexemes}" := by
      rw [headerOf, split]
    by_cases empty : lexemes = []
    · refine ⟨⟨headerOf number line, none, []⟩, ⟨rfl, by simp [split, empty]⟩, fun encoded => ?_⟩
      rw [header, runLine_of_nil file encoded number split empty,
        runLine_of_nil file false number split empty]
      exact ⟨⟨rfl, rfl, rfl⟩, by cases encoded <;> rfl⟩
    rcases encodes : s.registry.encodeAll lexemes with ⟨e | tokens, r⟩
    · refine ⟨⟨headerOf number line, none, []⟩, ⟨rfl, by simp [split, encodes]⟩, fun encoded => ?_⟩
      rw [header, runLine_of_error file encoded number split empty encodes,
        runLine_of_error file false number split empty encodes]
      exact ⟨⟨rfl, rfl, rfl⟩, by cases encoded <;> rfl⟩
    · let events := (feed { s with registry := r } (" ".intercalate lexemes) .start tokens).2.2
      refine ⟨⟨headerOf number line, some tokens, events.map .event⟩,
        ⟨rfl, by simp [split, encodes, empty]⟩, fun encoded => ?_⟩
      rw [header, runLine_of_ok file encoded number split empty encodes,
        runLine_of_ok file false number split empty encodes]
      exact ⟨⟨rfl, rfl, rfl⟩, by cases encoded <;> rfl⟩

theorem exists_blocks (s : Session) (file : String) (number : Nat) (lines : List String) :
    ∃ blocks, HasBlocks file s number lines blocks ∧ ∀ encoded,
      DoesAs (s.runNumbered file encoded number lines) (s.runNumbered file false number lines) ∧
        (s.runNumbered file encoded number lines).printed =
          blocks.flatMap (Block.printed encoded) := by
  induction lines generalizing s number with
  | nil => exact ⟨[], .done s number, fun _ => ⟨⟨rfl, rfl, rfl⟩, rfl⟩⟩
  | cons line lines ih =>
    obtain ⟨block, here, does⟩ := exists_block s file number line
    cases outcome : (s.runLine file false number line).failure with
    | some e =>
      refine ⟨[block], .stop here outcome, fun encoded => ?_⟩
      obtain ⟨same, printed⟩ := does encoded
      rw [runNumbered_cons, runNumbered_cons, Run.andThen_of_failed _ outcome,
        Run.andThen_of_failed _ (same.failure_eq.trans outcome)]
      exact ⟨same, by simpa using printed⟩
    | none =>
      obtain ⟨blocks, behind, others⟩ := ih (s.runLine file false number line).session (number + 1)
      refine ⟨block :: blocks, .next here outcome behind, fun encoded => ?_⟩
      obtain ⟨same, printed⟩ := does encoded
      obtain ⟨rest, shown⟩ := others encoded
      rw [runNumbered_cons, runNumbered_cons, Run.andThen_of_passed _ outcome,
        Run.andThen_of_passed _ (same.failure_eq.trans outcome), same.session_eq]
      exact ⟨⟨rest.session_eq, congrArg₂ (· + ·) same.rejected_eq rest.rejected_eq, rest.failure_eq⟩,
        congrArg₂ (· ++ ·) printed shown⟩

/-- A run that lists tokens leaves the same session, rejects as many lines and fails in the same way as one
that does not. It prints the same blocks, each with its list of tokens. -/
theorem runLines_listed (s : Session) (file text : String) :
    (s.runLines file true text).session = (s.runLines file false text).session ∧
      (s.runLines file true text).rejected = (s.runLines file false text).rejected ∧
        (s.runLines file true text).failure = (s.runLines file false text).failure ∧
          ∃ blocks, HasBlocks file s 1 (programLines text) blocks ∧
            (s.runLines file false text).printed = blocks.flatMap (Block.printed false) ∧
              (s.runLines file true text).printed = blocks.flatMap (Block.printed true) := by
  obtain ⟨blocks, has, does⟩ := exists_blocks s file 1 (programLines text)
  obtain ⟨⟨session, rejected, failure⟩, listed⟩ := does true
  exact ⟨session, rejected, failure, blocks, has, (does false).2, listed⟩

/-- A line without lexemes has no list, and neither has one that has no code for its second literal. -/
example :
    let made := { Registry.vocabulary with
      config := { Config.standard with literal := { first := 700, last := 700 } } }
    ((start made .empty false).runLines "f" true "int x;//\n \nx = 1 + 2;").printed.map Printed.text =
      ["1 >  int, x, ;, EOL", "      enc: int -> KEYWORD #100, x -> SYMBOL #300, ; -> OPERATOR #208",
        "    decl x:INT = 0", "2 >  EOL", "3 >  x, =, 1, +, 2, ;, EOL"] := by
  decide +kernel

end Session

end LineLang
