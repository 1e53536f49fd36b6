import LineLang.Proofs.Runner.Run
import LineLang.Proofs.Text.Lines

/-!
# Reformatting a program

`runLines_reformat`: a program runs as before when each of its lines is written anew, without its comment
and with one space between lexemes. The statement in a record is such a line.
-/

namespace LineLang

/-- A line with one space between its lexemes. A line that cannot be split stays as it is. -/
def reformatLine (line : String) : String :=
  match splitLine line with
  | .ok lexemes => " ".intercalate lexemes
  | .error _ => line

def reformat (text : String) : String := unlines ((programLines text).map reformatLine)

/-! ### Lines -/

theorem splitLine_intercalate {line : String} {lexemes : List String}
    (h : splitLine line = .ok lexemes) : splitLine (" ".intercalate lexemes) = .ok lexemes := by
  apply splitLine_of_laidOut
  rw [String.toList_intercalate]
  exact laidOut_intercalate (wellFormed_of_laidOut (laidOut_of_splitLine h))

theorem reformatLine_of_ok {line : String} {lexemes : List String} (h : splitLine line = .ok lexemes) :
    reformatLine line = " ".intercalate lexemes := by
  rw [reformatLine, h]

theorem reformatLine_of_error {line : String} {quote : OpenQuote} (h : splitLine line = .error quote) :
    reformatLine line = line := by
  rw [reformatLine, h]

theorem not_isLineBreak_of_mem_intercalate {lexemes : List (List Char)}
    (h : ∀ lexeme ∈ lexemes, ∀ c ∈ lexeme, isLineBreak c = false) :
    ∀ c ∈ [' '].intercalate lexemes, isLineBreak c = false := by
  induction lexemes with
  | nil => simp [List.intercalate_nil]
  | cons lexeme lexemes ih =>
    obtain ⟨first, others⟩ := List.forall_mem_cons.1 h
    cases lexemes with
    | nil => simpa using first
    | cons next lexemes =>
      rw [List.intercalate_cons_cons, List.append_assoc]
      intro c member
      rcases List.mem_append.1 member with inside | behind
      · exact first c inside
      · rcases List.mem_cons.1 behind with rfl | later
        · rfl
        · exact ih others c later

/-- Nothing that breaks a line comes into it. -/
theorem not_isLineBreak_reformatLine {line : String}
    (h : ∀ c ∈ line.toList, isLineBreak c = false) :
    ∀ c ∈ (reformatLine line).toList, isLineBreak c = false := by
  cases split : splitLine line with
  | error quote => rwa [reformatLine_of_error split]
  | ok lexemes =>
    have inside := subset_of_laidOut (laidOut_of_splitLine split)
    rw [reformatLine_of_ok split, String.toList_intercalate]
    exact not_isLineBreak_of_mem_intercalate fun lexeme member c within =>
      h c (inside lexeme member within)

theorem programLines_reformat (text : String) :
    programLines (reformat text) = (programLines text).map reformatLine := by
  apply programLines_unlines
  intro line member
  obtain ⟨line, listed, rfl⟩ := List.mem_map.1 member
  exact not_isLineBreak_reformatLine (not_isLineBreak_of_mem_programLines listed)

namespace Session

variable (s : Session) (file : String) (encoded : Bool) (number : Nat)

theorem runLine_reformatLine (line : String) :
    s.runLine file encoded number (reformatLine line) = s.runLine file encoded number line := by
  cases split : splitLine line with
  | error quote => rw [reformatLine_of_error split]
  | ok lexemes =>
    have again := splitLine_intercalate split
    rw [reformatLine_of_ok split]
    unfold runLine
    rw [split, again]

theorem runNumbered_reformatLine (lines : List String) :
    s.runNumbered file encoded number (lines.map reformatLine) =
      s.runNumbered file encoded number lines := by
  induction lines generalizing s number with
  | nil => rfl
  | cons line lines ih =>
    rw [List.map_cons, runNumbered_cons, runNumbered_cons, runLine_reformatLine]
    congr 1
    funext s
    exact ih s (number + 1)

/-! ### The statements of records -/

/-- What a session has recorded beyond another one bears this text. -/
def Words (s : Session) (text : String) (s' : Session) : Prop :=
  ∃ entries, s'.journal.entries = s.journal.entries ++ entries ∧
    ∀ entry ∈ entries, entry.statement = some text

section Texts

variable {s : Session} {s' : Session} (text : String)

theorem words_of_journal (same : s'.journal = s.journal) : s.Words text s' :=
  ⟨[], by rw [same, List.append_nil], by simp⟩

theorem words_trans {s₁ s₂ s₃ : Session} {text : String} (h₁ : s₁.Words text s₂)
    (h₂ : s₂.Words text s₃) : s₁.Words text s₃ := by
  obtain ⟨entries, whole, worded⟩ := h₁
  obtain ⟨entries', whole', worded'⟩ := h₂
  exact ⟨entries ++ entries', by rw [whole', whole, List.append_assoc],
    List.forall_mem_append.2 ⟨worded, worded'⟩⟩

theorem words_note (s : Session) (event : Event) : s.Words text (s.note text event) :=
  ⟨[_], rfl, List.forall_mem_singleton.2 rfl⟩

theorem words_perform {text : String} {write : Write} {event : Event}
    (h : s.perform text write = .ok (s', event)) : s.Words text s' := by
  obtain ⟨symbols, -, rfl⟩ := perform_eq_ok h
  exact words_trans (words_of_journal text rfl) (words_note text { s with symbols } event)

theorem words_of_course {text : String} {outcome : Outcome} {events : List Event}
    (h : Course text s outcome s' events) : s.Words text s' := by
  induction h with
  | accepted => exact words_of_journal text rfl
  | rejected s | unterminated s => exact words_note text s _
  | last performed => exact words_perform performed
  | statement performed _ ih => exact words_trans (words_perform performed) ih

theorem words_feed (s : Session) (phase : Phase) (tokens : List Token) :
    s.Words text (s.feed text phase tokens).2.1 :=
  words_of_course (course_feed s text phase tokens)

end Texts

/-- What a line records bears its lexemes with one space between any two. -/
theorem words_runLine {line : String} {lexemes : List String} (split : splitLine line = .ok lexemes) :
    s.Words (" ".intercalate lexemes) (s.runLine file encoded number line).session := by
  by_cases none : lexemes = []
  · rw [runLine_of_nil file encoded number split none]
    exact words_of_journal _ rfl
  · rcases encodes : s.registry.encodeAll lexemes with ⟨e | tokens, r⟩
    · rw [runLine_of_error file encoded number split none encodes]
      exact words_of_journal _ rfl
    · rw [runLine_of_ok file encoded number split none encodes]
      exact words_trans (words_of_journal _ rfl) (words_feed _ { s with registry := r } _ _)

/-- A program runs as the reformatted one does, with all that it prints and leaves. What a line of it
records bears a statement that is split into the lexemes of the line. -/
theorem runLines_reformat (text : String) :
    s.runLines file encoded (reformat text) = s.runLines file encoded text ∧
      ∀ before line behind, programLines text = before ++ line :: behind →
        ∃ entries, (s.runNumbered file encoded 1 (before ++ [line])).session.journal.entries =
            (s.runNumbered file encoded 1 before).session.journal.entries ++ entries ∧
          ∀ entry ∈ entries, ∃ statement lexemes, entry.statement = some statement ∧
            splitLine line = .ok lexemes ∧ splitLine statement = .ok lexemes := by
  constructor
  · rw [runLines, programLines_reformat, runNumbered_reformatLine]
    rfl
  · intro before line behind _
    rw [runNumbered_append]
    cases outcome : (s.runNumbered file encoded 1 before).failure with
    | some e =>
      rw [Run.andThen_of_failed _ outcome]
      exact ⟨[], (List.append_nil _).symm, by simp⟩
    | none =>
      rw [Run.andThen_of_passed _ outcome, runNumbered_singleton]
      generalize (s.runNumbered file encoded 1 before).session = s₁
      cases split : splitLine line with
      | error quote =>
        rw [runLine_of_unsplit file encoded _ split]
        exact ⟨[], (List.append_nil _).symm, by simp⟩
      | ok lexemes =>
        obtain ⟨entries, added, worded⟩ := words_runLine s₁ file encoded (1 + before.length) split
        exact ⟨entries, added, fun entry member =>
          ⟨_, lexemes, worded entry member, rfl, splitLine_intercalate split⟩⟩

example : reformat "int  x=1;// one\r\n\"a" = "int x = 1 ;\n\"a\n" := by decide +kernel

end Session

end LineLang
