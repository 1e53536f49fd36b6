import LineLang.Proofs.Prompt.Agreement
import LineLang.Proofs.Runner.Count

/-!
# The status of a program

`status_agrees`: the number of rejected lines, the journal and the status of the command tell the same of a
program. The options of the command make no difference to this.
-/

namespace LineLang

namespace Session

theorem isError_of_start {made : Registry} {symbols : SymbolTable} {verbose : Bool} :
    ∀ entry ∈ (start made symbols verbose).journal.entries, entry.isError = false :=
  List.forall_mem_singleton.2 rfl

/-- A run behind which no entry tells of an error has rejected the lines with an open quote. -/
theorem rejected_eq_zero_iff {s : Session} (clean : ∀ entry ∈ s.journal.entries, entry.isError = false)
    (file : String) (encoded : Bool) (text : String)
    (passed : (s.runLines file encoded text).failure = none) :
    (s.runLines file encoded text).rejected = 0 ↔
      (∀ line ∈ programLines text, isOpen line = false) ∧
        ∀ entry ∈ (s.runLines file encoded text).session.journal.entries, entry.isError = false := by
  obtain ⟨added, whole, counted⟩ := counts_runNumbered file encoded 1 passed
  have entries : (∀ entry ∈ (s.runLines file encoded text).session.journal.entries,
      entry.isError = false) ↔ ∀ entry ∈ added, entry.isError = false := by
    rw [runLines, whole, List.forall_mem_append]
    exact and_iff_right clean
  rw [entries, runLines, counted, Nat.add_eq_zero_iff, List.countP_eq_zero, List.countP_eq_zero]
  simp only [Bool.not_eq_true]

end Session

namespace Command

section Asking

variable (arguments : List String) (read : String → Except ReadError ByteArray)

/-- The arguments ask for a program with these options, which is read as `text` and named `file`. -/
inductive Asks : Options → String → String → Prop where
  | source {options : Options} {text : String} :
      request arguments = .runSource options text → Asks options "<string>" text
  | file {options : Options} {path text : String} {bytes : ByteArray} :
      request arguments = .runFile options path → read path = .ok bytes →
        String.fromUTF8? bytes = some text → Asks options path (readAsText text)

variable {arguments read}

theorem respond_of_asks {options : Options} {file text : String}
    (asks : Asks arguments read options file text) (typed : String) :
    (respond arguments read typed).2 = .exit (runText options file text).2 := by
  cases asks with
  | source asked => rw [respond, asked]
  | file asked content decoded => simp only [respond, asked, runFile, content, decoded]

end Asking

theorem status_runText (options : Options) (file text : String) :
    let run := (Session.start Registry.vocabulary .empty options.verbose).runLines file options.encode text
    (runText options file text).2 = 0 ↔ run.failure = none ∧ run.rejected = 0 := by
  intro run
  have same : (Prompt.opened options.verbose).session.runLines file options.encode text = run := rfl
  rw [runText, Prompt.session_eq_opened]
  dsimp only
  rw [same]
  cases run.failure with
  | some e => simp
  | none => simp

/-- A run that does not fail has rejected as many lines as there are with an open quote and as it has records
of an error, and each line has its share in this, which is one at most. With a program, the command ends with
the status 0 if and only if nothing fails, no quote stays open and no error is recorded. -/
theorem status_agrees (s : Session) (file : String) (encoded : Bool) (text : String)
    (arguments : List String) (read : String → Except ReadError ByteArray) (typed : String) :
    ((s.runLines file encoded text).failure = none →
      (∃ added, (s.runLines file encoded text).session.journal.entries = s.journal.entries ++ added ∧
          (s.runLines file encoded text).rejected =
            (programLines text).countP isOpen + added.countP Entry.isError) ∧
        ∀ front line back, programLines text = front ++ line :: back →
          ∃ own records, Adds (s.runNumbered file encoded 1 front) line
            (s.runNumbered file encoded 1 (front ++ [line])) own records) ∧
    ∀ options name program, Asks arguments read options name program →
      let ran := (Session.start Registry.vocabulary .empty options.verbose).runLines name options.encode
        program
      (respond arguments read typed).2 = .exit 0 ↔
        ran.failure = none ∧ (∀ line ∈ programLines program, isOpen line = false) ∧
          ∀ entry ∈ ran.session.journal.entries, entry.isError = false := by
  constructor
  · intro passed
    refine ⟨Session.counts_runNumbered file encoded 1 passed, fun front line back whole => ?_⟩
    rw [Session.runLines, whole] at passed
    exact Session.exists_adds_of_passed file encoded 1 line
      (Session.passed_of_append file encoded 1 passed)
  · intro options name program asks ran
    rw [respond_of_asks asks, Ending.exit.injEq]
    refine (status_runText options name program).trans (and_congr_right fun passed => ?_)
    exact Session.rejected_eq_zero_iff Session.isError_of_start name options.encode program passed

/-- Both programs are named by a path from the root. The second one leaves a quote open. -/
theorem respond_from_root :
    let tree : FileTree :=
      { files := [(["sums"], "int x = 1 ;\r\nx = x + 1 ;".toUTF8), (["cut"], "int x = 1 ;\n\"x".toUTF8)] }
    (respond ["/home/sums", "--symbols"] tree.read "").2 = .exit 0 ∧
      (respond ["--encode", "/home/cut"] tree.read "").2 ≠ .exit 0 := by
  intro tree
  have sums : Asks ["/home/sums", "--symbols"] tree.read { program := some "/home/sums", symbols := true }
      "/home/sums" (readAsText "int x = 1 ;\r\nx = x + 1 ;") := .file rfl rfl rfl
  have cut : Asks ["--encode", "/home/cut"] tree.read { program := some "/home/cut", encode := true }
      "/home/cut" (readAsText "int x = 1 ;\n\"x") := .file rfl rfl rfl
  have agrees (arguments : List String) := (status_agrees (.start Registry.vocabulary .empty false) "" false
    "" arguments tree.read "").2
  constructor
  · exact (agrees _ _ _ _ sums).2 (by decide +kernel)
  · intro ended
    obtain ⟨-, closed, -⟩ := (agrees _ _ _ _ cut).1 ended
    exact absurd closed (by decide +kernel)
/-- Of four lines, the first lacks more than its semicolon and the last is a comment. -/
example :
    let ran := (Session.start Registry.vocabulary .empty false).runLines "f" false
      "int x = ( 1\n\"a\nint y ; x = 1 ; int x ;\n // ;"
    ran.rejected = 2 ∧ ran.session.journal.entries.map (·.text? "rule") =
      [some "SEED", some "INCOMPLETE", some "DECL", some "ERROR"] := by
  decide +kernel

end Command

end LineLang
