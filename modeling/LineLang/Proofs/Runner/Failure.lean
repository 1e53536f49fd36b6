import LineLang.Proofs.Registry.Standard
import LineLang.Proofs.Runner.Run

/-!
# Lexemes that have no code

`fails_iff_not_encoded`: a call or a run fails if and only if one of its lexemes has no code when its
turn comes. The lexemes before it keep their codes; nothing else has changed since the last line.
-/

namespace LineLang.Session

/-- A session that has encoded words and done nothing else. -/
def encoding (s : Session) (words : List String) : Session :=
  { s with registry := (s.registry.encodeAll words).2 }

/-! ### One call -/

section Call

variable {s : Session} {lexemes : List String} {e : RegistryError}

theorem execute_of_failsAt {before : List String} {failing : String}
    (h : s.registry.FailsAt (lexemes.filter (· ≠ "")) before failing e) :
    s.execute lexemes = (.error e, s.encoding before, []) := by
  rw [execute, Registry.encodeAll_of_failsAt h]
  rfl

theorem exists_failsAt_of_execute (h : (s.execute lexemes).1 = .error e) :
    ∃ before failing, s.registry.FailsAt (lexemes.filter (· ≠ "")) before failing e := by
  rcases execute_cases s lexemes with ⟨e', r, encoded, result⟩ | ⟨r, -, result⟩ |
    ⟨tokens, r, -, -, result⟩
  · rw [result] at h
    cases h
    exact Registry.exists_failsAt encoded
  · rw [result] at h
    cases h
  · rw [result] at h
    cases h

end Call

/-! ### One line -/

section Line

variable {s : Session} (file : String) (encoded : Bool) (number : Nat) {line : String}
  {e : RegistryError}

theorem exists_failsAt_of_runLine (h : (s.runLine file encoded number line).failure = some e) :
    ∃ lexemes before failing, splitLine line = .ok lexemes ∧
      s.registry.FailsAt lexemes before failing e := by
  cases split : splitLine line with
  | error quote =>
    rw [runLine_of_unsplit file encoded number split] at h
    cases h
  | ok lexemes =>
    by_cases none : lexemes = []
    · rw [runLine_of_nil file encoded number split none] at h
      cases h
    · rcases encodes : s.registry.encodeAll lexemes with ⟨e' | tokens, r⟩
      · rw [runLine_of_error file encoded number split none encodes] at h
        obtain rfl := Option.some.inj h
        obtain ⟨before, failing, fails⟩ := Registry.exists_failsAt encodes
        exact ⟨lexemes, before, failing, rfl, fails⟩
      · rw [runLine_of_ok file encoded number split none encodes] at h
        cases h

theorem runLine_of_failsAt {lexemes before : List String} {failing : String}
    (split : splitLine line = .ok lexemes) (h : s.registry.FailsAt lexemes before failing e) :
    s.runLine file encoded number line =
      { session := s.encoding before
        printed := [.remark s!"{number} >  {showLexemes lexemes}"]
        failure := e } := by
  have some : lexemes ≠ [] := by
    obtain ⟨behind, rfl⟩ := h.cut
    simp
  exact runLine_of_error file encoded number split some (Registry.encodeAll_of_failsAt h)

end Line

/-! ### A run -/

/-- All lines in `before` are run, and then the lexemes of `line` cannot be encoded: those in `front`
can, and behind them `failing` has no code. -/
structure StopsAt (s : Session) (file : String) (encoded : Bool) (lines before : List String)
    (line : String) (lexemes front : List String) (failing : String) (e : RegistryError) : Prop where
  cut : ∃ behind, lines = before ++ line :: behind
  passed : (s.runNumbered file encoded 1 before).failure = none
  split : splitLine line = .ok lexemes
  fails : (s.runNumbered file encoded 1 before).session.registry.FailsAt lexemes front failing e

theorem exists_failing_line {s : Session} (file : String) (encoded : Bool) (number : Nat)
    {lines : List String} {e : RegistryError}
    (h : (s.runNumbered file encoded number lines).failure = some e) :
    ∃ before line behind, lines = before ++ line :: behind ∧
      (s.runNumbered file encoded number before).failure = none ∧
        ((s.runNumbered file encoded number before).session.runLine file encoded
          (number + before.length) line).failure = some e := by
  induction lines generalizing s number with
  | nil => cases h
  | cons line lines ih =>
    rw [runNumbered_cons] at h
    cases outcome : (s.runLine file encoded number line).failure with
    | some e' =>
      rw [Run.andThen_of_failed _ outcome, outcome] at h
      cases h
      exact ⟨[], line, lines, rfl, rfl, outcome⟩
    | none =>
      rw [Run.andThen_of_passed _ outcome] at h
      obtain ⟨before, other, behind, rfl, passed, failed⟩ := ih (number + 1) h
      have longer : s.runNumbered file encoded number (line :: before) =
          (s.runLine file encoded number line).followedBy
            ((s.runLine file encoded number line).session.runNumbered file encoded (number + 1)
              before) := by
        rw [runNumbered_cons, Run.andThen_of_passed _ outcome]
      refine ⟨line :: before, other, behind, rfl, ?_, ?_⟩
      · rw [longer]
        exact passed
      · rw [longer, List.length_cons, Nat.add_comm before.length, ← Nat.add_assoc]
        exact failed

/-- A run that stops has done what the lines before do, and has encoded the first lexemes of its line. -/
theorem runNumbered_of_stopsAt {s : Session} {file : String} {encoded : Bool}
    {lines before lexemes front : List String} {line failing : String} {e : RegistryError}
    (h : s.StopsAt file encoded lines before line lexemes front failing e) :
    s.runNumbered file encoded 1 lines =
      { s.runNumbered file encoded 1 before with
        session := (s.runNumbered file encoded 1 before).session.encoding front
        printed := (s.runNumbered file encoded 1 before).printed ++
          [.remark s!"{1 + before.length} >  {showLexemes lexemes}"]
        failure := e } := by
  obtain ⟨⟨behind, rfl⟩, passed, split, fails⟩ := h
  have failed := runLine_of_failsAt file encoded (1 + before.length) split fails
  rw [runNumbered_append, Run.andThen_of_passed _ passed, runNumbered_cons, failed,
    Run.andThen_of_failed _ rfl]
  rfl

/-- A call fails if and only if a lexeme has no code when its turn comes, and a run if and only if a line
does. The lexemes before it stay encoded, and else all is as it was before the call or the line. -/
theorem fails_iff_not_encoded (s : Session) (lexemes : List String) (file : String) (encoded : Bool)
    (text : String) :
    ((∀ e, (s.execute lexemes).1 = .error e ↔
        ∃ before failing, s.registry.FailsAt (lexemes.filter (· ≠ "")) before failing e) ∧
      ∀ before failing e, s.registry.FailsAt (lexemes.filter (· ≠ "")) before failing e →
        s.execute lexemes = (.error e, s.encoding before, []) ∧ Registry.Denies failing e ∧
          ∀ word ∈ before, (s.encoding before).registry.Encodes word
            ((s.encoding before).registry.token word)) ∧
    (∀ e, (s.runLines file encoded text).failure = some e ↔
        ∃ before line lexemes front failing,
          s.StopsAt file encoded (programLines text) before line lexemes front failing e) ∧
      ∀ before line lexemes front failing e,
        s.StopsAt file encoded (programLines text) before line lexemes front failing e →
          s.runLines file encoded text =
            { s.runNumbered file encoded 1 before with
              session := (s.runNumbered file encoded 1 before).session.encoding front
              printed := (s.runNumbered file encoded 1 before).printed ++
                [.remark s!"{1 + before.length} >  {showLexemes lexemes}"]
              failure := e } ∧ Registry.Denies failing e ∧
            ∀ word ∈ front, (s.runLines file encoded text).session.registry.Encodes word
              ((s.runLines file encoded text).session.registry.token word) := by
  refine ⟨⟨fun e => ⟨exists_failsAt_of_execute, ?_⟩, ?_⟩, fun e => ⟨?_, ?_⟩, ?_⟩
  · rintro ⟨before, failing, fails⟩
    rw [execute_of_failsAt fails]
  · intro before failing e fails
    exact ⟨execute_of_failsAt fails, Registry.denies_of_error fails.failed,
      Registry.encodes_of_failsAt ne_empty_of_mem_filter fails⟩
  · intro failed
    obtain ⟨before, line, behind, cut, passed, failed⟩ := exists_failing_line file encoded 1 failed
    obtain ⟨lexemes, front, failing, split, fails⟩ := exists_failsAt_of_runLine file encoded _ failed
    exact ⟨before, line, lexemes, front, failing, ⟨behind, cut⟩, passed, split, fails⟩
  · rintro ⟨before, line, lexemes, front, failing, stops⟩
    rw [runLines, runNumbered_of_stopsAt stops]
  · intro before line lexemes front failing e stops
    have stopped := runNumbered_of_stopsAt stops
    rw [runLines, stopped]
    exact ⟨rfl, Registry.denies_of_error stops.fails.failed,
      Registry.encodes_of_failsAt (ne_empty_of_splitLine stops.split) stops.fails⟩

/-- With a single code for literals, the second line does nothing. -/
example :
    let made := { Registry.vocabulary with
      config := { Config.standard with literal := { first := 700, last := 700 } } }
    let run := (start made .empty false).runLines "f" false "int x = 1 ;\nx = 1 + 1 ; x = 2 ;"
    run.failure = some (.exhausted .literal 700) ∧ run.session.symbols.entries = [("x", .int 1)] := by
  decide +kernel

end LineLang.Session
