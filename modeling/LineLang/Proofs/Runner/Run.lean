import LineLang.Proofs.Lexeme.Layout
import LineLang.Proofs.Session.Run
import LineLang.Runner

/-!
# Runs of a program

What a line does, and how the lines of a program follow each other: a run goes on from the session that
the lines before have left, and stops at the first line with a lexeme that has no code.
-/

namespace LineLang

namespace Run

/-- What two runs have done, the second from the session that the first has left. -/
def followedBy (first rest : Run) : Run where
  session := rest.session
  rejected := first.rejected + rest.rejected
  printed := first.printed ++ rest.printed
  failure := rest.failure

/-- A run and another one behind it, unless the first has failed. -/
def andThen (first : Run) (next : Session → Run) : Run :=
  if first.failure.isSome then first else first.followedBy (next first.session)

theorem followedBy_assoc (first second third : Run) :
    (first.followedBy second).followedBy third = first.followedBy (second.followedBy third) := by
  simp only [followedBy, Nat.add_assoc, List.append_assoc]

theorem idle_followedBy (s : Session) (rest : Run) : followedBy { session := s } rest = rest := by
  simp [followedBy]

variable {first : Run} (next : Session → Run)

theorem andThen_of_failed {e : RegistryError} (failed : first.failure = some e) :
    first.andThen next = first := by
  rw [andThen, failed]
  rfl

theorem andThen_of_passed (passed : first.failure = none) :
    first.andThen next = first.followedBy (next first.session) := by
  rw [andThen, passed]
  rfl

theorem andThen_assoc (next' : Session → Run) :
    (first.andThen next).andThen next' = first.andThen fun s => (next s).andThen next' := by
  cases outcome : first.failure with
  | some e =>
    rw [andThen_of_failed next outcome, andThen_of_failed next' outcome, andThen_of_failed _ outcome]
  | none =>
    rw [andThen_of_passed next outcome, andThen_of_passed _ outcome]
    have same : (first.followedBy (next first.session)).failure = (next first.session).failure := rfl
    cases outcome' : (next first.session).failure with
    | some e => rw [andThen_of_failed next' (same.trans outcome'), andThen_of_failed next' outcome']
    | none =>
      rw [andThen_of_passed next' (same.trans outcome'), andThen_of_passed next' outcome',
        followedBy_assoc]
      rfl

end Run

namespace Session

theorem statementText_token (r : Registry) (lexemes : List String) :
    statementText (lexemes.map r.token) = " ".intercalate lexemes := by
  simp [statementText, Registry.token, Function.comp_def]

section Lexemes

variable {s : Session} (printed : List Printed) {lexemes : List String}
  (nonempty : ∀ lexeme ∈ lexemes, lexeme ≠ "")
include nonempty

theorem runLexemes_of_error {e : RegistryError} {r : Registry}
    (failed : s.registry.encodeAll lexemes = (.error e, r)) :
    s.runLexemes printed lexemes =
      { session := { s with registry := r }, printed := printed, failure := e } := by
  rw [runLexemes, execute, List.filter_eq_self.2 (by simpa using nonempty), failed]
  simp

theorem runLexemes_of_ok (some : lexemes ≠ []) {tokens : List Token} {r : Registry}
    (encodes : s.registry.encodeAll lexemes = (.ok tokens, r)) :
    s.runLexemes printed lexemes =
      { session := (feed { s with registry := r } (" ".intercalate lexemes) .start tokens).2.1
        rejected :=
          if (feed { s with registry := r } (" ".intercalate lexemes) .start tokens).1.isOk then 0 else 1
        printed := printed ++ (feed { s with registry := r } (" ".intercalate lexemes) .start
          tokens).2.2.map .event } := by
  obtain ⟨rfl, -⟩ := Registry.tokens_of_encodeAll nonempty encodes
  rw [runLexemes, execute_of_encodeAll nonempty some encodes, statementText_token]

end Lexemes

variable {s : Session} (file : String) (encoded : Bool) (number : Nat)

/-! ### One line -/

theorem runLine_of_unsplit {line : String} {quote : OpenQuote} (split : splitLine line = .error quote) :
    s.runLine file encoded number line =
      { session := s
        rejected := 1
        printed := [.remark s!"{number} >  {trim line}",
          .remark ("!   " ++ quote.message file number)] } := by
  rw [runLine, split]

section Line

variable {line : String} {lexemes : List String} (split : splitLine line = .ok lexemes)
include split

theorem runLine_of_nil (none : lexemes = []) : s.runLine file encoded number line =
    { session := s, printed := [.remark s!"{number} >  {showLexemes lexemes}"] } := by
  subst none
  rw [runLine, split]
  rfl

variable (some : lexemes ≠ [])
include some

theorem runLine_of_error {e : RegistryError} {r : Registry}
    (failed : s.registry.encodeAll lexemes = (.error e, r)) :
    s.runLine file encoded number line =
      { session := { s with registry := r }
        printed := [.remark s!"{number} >  {showLexemes lexemes}"]
        failure := e } := by
  rw [runLine, split]
  dsimp only
  rw [if_neg (by simpa using some)]
  cases encoded with
  | true => rw [if_pos rfl, failed]
  | false =>
    rw [if_neg (by simp), runLexemes_of_error _ (ne_empty_of_splitLine split) failed]

/-- A line whose lexemes have codes is read as one call; the codes may be listed before it. -/
theorem runLine_of_ok {tokens : List Token} {r : Registry}
    (encodes : s.registry.encodeAll lexemes = (.ok tokens, r)) :
    s.runLine file encoded number line =
      { session := (feed { s with registry := r } (" ".intercalate lexemes) .start tokens).2.1
        rejected :=
          if (feed { s with registry := r } (" ".intercalate lexemes) .start tokens).1.isOk then 0 else 1
        printed := .remark s!"{number} >  {showLexemes lexemes}" ::
          ((if encoded then [.remark ("      enc: " ++ listing tokens)] else []) ++
            (feed { s with registry := r } (" ".intercalate lexemes) .start
              tokens).2.2.map .event) } := by
  have nonempty := ne_empty_of_splitLine split
  obtain ⟨rfl, known⟩ := Registry.tokens_of_encodeAll nonempty encodes
  rw [runLine, split]
  dsimp only
  rw [if_neg (by simpa using some)]
  cases encoded with
  | true =>
    have again : ({ s with registry := r } : Session).registry.encodeAll lexemes =
      (.ok (lexemes.map r.token), r) := Registry.encodeAll_of_encodes nonempty known
    rw [if_pos rfl, encodes]
    dsimp only
    rw [runLexemes_of_ok _ nonempty some again]
    rfl
  | false =>
    rw [if_neg (by simp), runLexemes_of_ok _ nonempty some encodes]
    rfl

end Line

/-! ### Line after line -/

theorem runNumbered_cons (s : Session) (line : String) (lines : List String) :
    s.runNumbered file encoded number (line :: lines) =
      (s.runLine file encoded number line).andThen
        fun s => s.runNumbered file encoded (number + 1) lines := rfl

theorem runNumbered_append (s : Session) (front back : List String) :
    s.runNumbered file encoded number (front ++ back) =
      (s.runNumbered file encoded number front).andThen
        fun s => s.runNumbered file encoded (number + front.length) back := by
  induction front generalizing s number with
  | nil =>
    rw [runNumbered, Run.andThen_of_passed _ rfl, Run.idle_followedBy]
    rfl
  | cons line front ih =>
    rw [List.cons_append, runNumbered_cons, runNumbered_cons, Run.andThen_assoc]
    congr 1
    funext s
    rw [ih, List.length_cons, Nat.add_right_comm, Nat.add_assoc]

theorem runNumbered_singleton (s : Session) (line : String) :
    s.runNumbered file encoded number [line] = s.runLine file encoded number line := by
  rw [runNumbered_cons]
  cases outcome : (s.runLine file encoded number line).failure with
  | some e => rw [Run.andThen_of_failed _ outcome]
  | none =>
    rw [Run.andThen_of_passed _ outcome]
    simp [runNumbered, Run.followedBy, ← outcome]

end Session

end LineLang
