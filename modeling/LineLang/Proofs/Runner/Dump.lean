import LineLang.Proofs.Runner.Run
import LineLang.Proofs.Session.Plain

/-!
# Dumps behind a run

A program has no way to write a double quote into a text or a name, since none stands inside a lexeme.
`dump_runLines_inj`: so the dump behind a run tells every name with its type and its value.
-/

namespace LineLang.Session

/-- What a line does to the session is what its lexemes do as a call. -/
theorem session_runLine {s : Session} (file : String) (encoded : Bool) (number : Nat) {line : String}
    {lexemes : List String} (split : splitLine line = .ok lexemes) (some : lexemes ≠ []) :
    (s.runLine file encoded number line).session = (s.execute lexemes).2.1 := by
  have nonempty := ne_empty_of_splitLine split
  rcases encodes : s.registry.encodeAll lexemes with ⟨e | tokens, r⟩
  · rw [runLine_of_error file encoded number split some encodes, execute,
      List.filter_eq_self.2 (by simpa using nonempty), encodes]
  · obtain ⟨rfl, -⟩ := Registry.tokens_of_encodeAll nonempty encodes
    rw [runLine_of_ok file encoded number split some encodes, execute_of_encodeAll nonempty some encodes,
      statementText_token]

section Run

variable {made : Registry} {s : Session} (h : s.Clean made) (file : String) (encoded : Bool) (number : Nat)
include h

theorem clean_runLine (line : String) : (s.runLine file encoded number line).session.Clean made := by
  cases split : splitLine line with
  | error quote =>
    rw [runLine_of_unsplit file encoded number split]
    exact h
  | ok lexemes =>
    by_cases none : lexemes = []
    · rw [runLine_of_nil file encoded number split none]
      exact h
    · rw [session_runLine file encoded number split none]
      refine clean_execute h fun lexeme member => ?_
      exact wellFormed_of_laidOut (laidOut_of_splitLine split) _ (List.mem_map_of_mem member)

theorem clean_runNumbered (lines : List String) :
    (s.runNumbered file encoded number lines).session.Clean made := by
  induction lines generalizing s number with
  | nil => exact h
  | cons line lines ih =>
    have here := clean_runLine h file encoded number line
    rw [runNumbered_cons]
    cases outcome : (s.runLine file encoded number line).failure with
    | some e =>
      rw [Run.andThen_of_failed _ outcome]
      exact here
    | none =>
      rw [Run.andThen_of_passed _ outcome]
      exact ih here (number + 1)

end Run

theorem clean_start {made : Registry} (reachable : made.Reachable) (verbose : Bool) :
    (start made .empty verbose).Clean made :=
  ⟨madeFrom_start reachable .empty verbose, List.forall_mem_nil _, List.forall_mem_nil _⟩

/-- Two programs that are run from new sessions leave the same dump only if they leave the same symbols. No
text and no name has a double quote in it. -/
theorem dump_runLines_inj (verbose verbose' encoded encoded' : Bool) (file file' text text' : String) :
    let symbols :=
      ((start Registry.vocabulary .empty verbose).runLines file encoded text).session.symbols
    let symbols' :=
      ((start Registry.vocabulary .empty verbose').runLines file' encoded' text').session.symbols
    (symbols.dump = symbols'.dump ↔ symbols = symbols') ∧
      ∀ entry ∈ symbols.entries, '"' ∉ entry.1.toList ∧ '"' ∉ entry.2.text.toList := by
  intro symbols symbols'
  have clean (verbose : Bool) := clean_start Registry.reachable_vocabulary verbose
  have plain : symbols.Plain := (clean_runNumbered (clean verbose) file encoded 1 (programLines text)).plain
  have plain' : symbols'.Plain :=
    (clean_runNumbered (clean verbose') file' encoded' 1 (programLines text')).plain
  refine ⟨dump_inj plain plain', fun entry member => ?_⟩
  obtain ⟨named, valued⟩ := plain entry member
  exact ⟨named.unquoted, quote_not_mem_text valued⟩

end LineLang.Session
