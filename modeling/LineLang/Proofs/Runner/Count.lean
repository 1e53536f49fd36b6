import LineLang.Proofs.Lexeme.Layout
import LineLang.Proofs.Runner.Run
import LineLang.Proofs.Session.Chronicle
import Mathlib.Data.List.Induction

/-!
# What a run counts

A call complains about one fault at most, and is rejected if and only if it leaves the record of an error.
`counts_runNumbered`: the lines that a run rejects are those with an open quote and those that have left
such a record.
-/

namespace LineLang

/-! ### Complaints -/

/-- The rules under which faults are recorded. -/
def faultRules : List String := ["ERROR", "INCOMPLETE"]

namespace Event

def complains (event : Event) : Bool := faultRules.contains event.rule

end Event

/-- The events by which a call complains when it comes to this outcome. -/
def Outcome.complaints : Outcome → List Event
  | .rejected report => [.rejected report.fault (report.lexeme.getD "")]
  | .incomplete (some report) => [.unterminated report.fault]
  | _ => []

namespace Entry

def hasRule (rule : String) (entry : Entry) : Bool := entry.text? "rule" == some rule

/-- Whether the entry records a fault for which a call was rejected. -/
def isError (entry : Entry) : Bool := entry.hasRule "ERROR"

theorem hasRule_of_records {entry : Entry} {event : Event} (h : entry.Records event) (rule : String) :
    entry.hasRule rule = (event.rule == rule) := by
  rw [hasRule, (List.forall_mem_cons.1 h).1]
  rfl

end Entry

theorem countP_of_chronicle {verbose : Bool} {t t' : SymbolTable} {entries : List Entry}
    {events : List Event} (h : Chronicle verbose t entries events t') (rule : String) :
    entries.countP (Entry.hasRule rule) = events.countP fun event => event.rule == rule := by
  induction h with
  | nil => rfl
  | cons records _ _ _ ih =>
    rw [List.countP_cons, List.countP_cons, ih, Entry.hasRule_of_records records]

namespace Session

/-! ### One call -/

theorem complains_of_perform {s s' : Session} {text : String} {write : Write} {event : Event}
    (h : s.perform text write = .ok (s', event)) : event.complains = false := by
  obtain ⟨symbols, ran, -⟩ := perform_eq_ok h
  obtain ⟨_, _, -, -, -, rfl⟩ | ⟨_, _, -, -, -, rfl⟩ | ⟨_, _, _, -, -, -, -, rfl⟩ := run_eq_ok ran <;>
    rfl

/-- A call prints the complaints of its outcome and no others. -/
theorem complaints_of_course {text : String} {s s' : Session} {outcome : Outcome} {events : List Event}
    (h : Course text s outcome s' events) : events.filter Event.complains = outcome.complaints := by
  induction h with
  | accepted | rejected | unterminated => rfl
  | last performed => exact List.filter_cons_of_neg (by simp [complains_of_perform performed])
  | statement performed _ ih =>
    rwa [List.filter_cons_of_neg (by simp [complains_of_perform performed])]

/-- What a call adds to the journal has as many records of a fault as its outcome has complaints. -/
structure Complained (s : Session) (outcome : Outcome) (s' : Session) (added : List Entry) : Prop where
  entries_eq : s'.journal.entries = s.journal.entries ++ added
  countP_eq : ∀ rule ∈ faultRules,
    added.countP (Entry.hasRule rule) = outcome.complaints.countP fun event => event.rule == rule

theorem exists_complained {text : String} {s s' : Session} {outcome : Outcome} {events : List Event}
    (h : Course text s outcome s' events) : ∃ added, Complained s outcome s' added := by
  obtain ⟨-, added, whole, chronicle⟩ := logs_of_course h
  refine ⟨added, whole, fun rule fault => ?_⟩
  rw [countP_of_chronicle chronicle, ← complaints_of_course h, List.countP_filter]
  refine List.countP_congr fun event _ => ?_
  constructor
  · intro same
    rw [Bool.and_eq_true]
    refine ⟨same, ?_⟩
    rw [Event.complains, beq_iff_eq.1 same]
    exact List.contains_iff_mem.2 fault
  · exact fun both => (Bool.and_eq_true _ _ ▸ both).1

section Complained

variable {s s' : Session} {outcome : Outcome} {added : List Entry}
  (h : Complained s outcome s' added)
include h

theorem countP_isError : added.countP Entry.isError = if outcome.isOk then 0 else 1 := by
  refine (h.countP_eq "ERROR" List.mem_cons_self).trans ?_
  match outcome with
  | .accepted | .rejected _ | .incomplete none | .incomplete (some _) => rfl

/-- A rejected call has no record of a missing semicolon. -/
theorem isOk_of_hasRule {entry : Entry} (member : entry ∈ added)
    (incomplete : entry.hasRule "INCOMPLETE" = true) : outcome.isOk = true := by
  cases outcome with
  | accepted | incomplete fault => rfl
  | rejected report =>
    have none : added.countP (Entry.hasRule "INCOMPLETE") = 0 :=
      h.countP_eq "INCOMPLETE" (List.mem_cons_of_mem _ List.mem_cons_self)
    exact absurd incomplete (List.countP_eq_zero.1 none entry member)

end Complained

end Session

/-! ### One line -/

/-- Whether a quote on the line stays open. -/
def isOpen (line : String) : Bool := !(splitLine line).isOk

/-- Whether a line has nothing but blanks, or blanks and a comment. -/
def isIdle (line : String) : Bool :=
  let rest := line.toList.dropWhile isBlank
  rest.isEmpty || ['/', '/'].isPrefixOf rest

theorem splitLine_of_isIdle {line : String} (idle : isIdle line = true) : splitLine line = .ok [] := by
  apply splitLine_of_laidOut
  show LaidOut none [] line.toList
  have blank : ∀ c ∈ line.toList.takeWhile isBlank, isBlank c = true :=
    fun c member => List.mem_takeWhile_imp member
  have whole := List.takeWhile_append_dropWhile (p := isBlank) (l := line.toList)
  rw [isIdle, Bool.or_eq_true, List.isEmpty_iff, List.isPrefixOf_iff_prefix] at idle
  rw [← whole]
  rcases idle with none | ⟨comment, behind⟩
  · rw [none, List.append_nil]
    exact .done blank
  · rw [← behind]
    exact .comment ⟨blank, by simp⟩

/-- What a line adds to the run of the lines before it: `own` to the number of rejected lines, and `records`
to the journal. -/
structure Adds (before : Run) (line : String) (behind : Run) (own : Nat) (records : List Entry) :
    Prop where
  rejected_eq : behind.rejected = before.rejected + own
  entries_eq : behind.session.journal.entries = before.session.journal.entries ++ records
  own_eq : own = (if isOpen line then 1 else 0) + records.countP Entry.isError
  own_le : own ≤ 1
  idle : isIdle line = true → own = 0 ∧ records = []
  incomplete : ∀ lexemes fault, splitLine line = .ok lexemes →
    (before.session.execute lexemes).1 = .ok (.incomplete fault) → own = 0
  /-- Also a fault behind the last token is no rejection where the semicolon is missing. -/
  recorded : ∀ record ∈ records, record.hasRule "INCOMPLETE" = true → own = 0

namespace Session

variable (file : String) (encoded : Bool) (number : Nat) {before : Run} {line : String}

theorem isOpen_of_error {quote : OpenQuote} (split : splitLine line = .error quote) :
    isOpen line = true := by
  rw [isOpen, split]
  rfl

theorem not_isOpen_of_ok {lexemes : List String} (split : splitLine line = .ok lexemes) :
    isOpen line = false := by
  rw [isOpen, split]
  rfl

theorem adds_of_error {quote : OpenQuote} (split : splitLine line = .error quote) :
    Adds before line (before.followedBy (before.session.runLine file encoded number line)) 1 [] := by
  rw [runLine_of_unsplit file encoded number split]
  constructor
  case rejected_eq => rfl
  case entries_eq => exact (List.append_nil _).symm
  case own_eq => simp [isOpen_of_error split]
  case own_le => exact Nat.le_refl 1
  case idle =>
    intro idle
    rw [splitLine_of_isIdle idle] at split
    cases split
  case incomplete =>
    intro lexemes fault read
    rw [split] at read
    cases read
  case recorded => simp

/-- A line that reads nothing adds nothing, be it that it has no lexemes or that one of them has no code. -/
theorem adds_nothing {rest : Run} (closed : isOpen line = false) (rejected : rest.rejected = 0)
    (journal : rest.session.journal = before.session.journal) :
    Adds before line (before.followedBy rest) 0 [] where
  rejected_eq := congrArg (before.rejected + ·) rejected
  entries_eq := by
    rw [List.append_nil, ← journal]
    rfl
  own_eq := by simp [closed]
  own_le := Nat.zero_le 1
  idle _ := ⟨rfl, rfl⟩
  incomplete _ _ _ _ := rfl
  recorded _ _ _ := rfl

theorem exists_adds_of_encodes {lexemes : List String} {tokens : List Token} {r : Registry}
    (split : splitLine line = .ok lexemes) (some : lexemes ≠ [])
    (encodes : before.session.registry.encodeAll lexemes = (.ok tokens, r)) :
    ∃ own records, Adds before line
      (before.followedBy (before.session.runLine file encoded number line)) own records := by
  have nonempty := ne_empty_of_splitLine split
  have executed := execute_of_encodeAll nonempty some encodes
  rw [runLine_of_ok file encoded number split some encodes]
  obtain ⟨rfl, -⟩ := Registry.tokens_of_encodeAll nonempty encodes
  rw [statementText_token] at executed
  obtain ⟨added, complained⟩ := exists_complained
    (course_feed { before.session with registry := r } (" ".intercalate lexemes) .start
      (lexemes.map r.token))
  generalize feed { before.session with registry := r } (" ".intercalate lexemes) .start
    (lexemes.map r.token) = call at executed complained
  refine ⟨if call.1.isOk then 0 else 1, added, ?_⟩
  constructor
  case rejected_eq => rfl
  case entries_eq => exact complained.entries_eq
  case own_eq => simp [not_isOpen_of_ok split, countP_isError complained]
  case own_le => split <;> decide
  case idle =>
    intro idle
    rw [splitLine_of_isIdle idle] at split
    exact absurd (Except.ok.inj split).symm some
  case incomplete =>
    intro lexemes' fault read outcome
    obtain rfl := Except.ok.inj (split.symm.trans read)
    rw [executed] at outcome
    rw [Except.ok.inj outcome]
    rfl
  case recorded =>
    intro record member rule
    rw [isOk_of_hasRule complained member rule]
    rfl

theorem exists_adds (before : Run) (line : String) :
    ∃ own records, Adds before line
      (before.followedBy (before.session.runLine file encoded number line)) own records := by
  cases split : splitLine line with
  | error quote => exact ⟨1, [], adds_of_error file encoded number split⟩
  | ok lexemes =>
    have closed := not_isOpen_of_ok split
    by_cases none : lexemes = []
    · rw [runLine_of_nil file encoded number split none]
      exact ⟨0, [], adds_nothing closed rfl rfl⟩
    rcases encodes : before.session.registry.encodeAll lexemes with ⟨e | tokens, r⟩
    · rw [runLine_of_error file encoded number split none encodes]
      exact ⟨0, [], adds_nothing closed rfl rfl⟩
    · exact exists_adds_of_encodes file encoded number split none encodes

/-! ### Line after line -/

theorem passed_of_append {s : Session} {front back : List String}
    (passed : (s.runNumbered file encoded number (front ++ back)).failure = none) :
    (s.runNumbered file encoded number front).failure = none := by
  rw [runNumbered_append] at passed
  cases outcome : (s.runNumbered file encoded number front).failure with
  | none => rfl
  | some e =>
    rw [Run.andThen_of_failed _ outcome, outcome] at passed
    cases passed

/-- A line that is reached adds to the run of the lines before it. -/
theorem exists_adds_of_passed {s : Session} {front : List String} (line : String)
    (passed : (s.runNumbered file encoded number front).failure = none) :
    ∃ own records, Adds (s.runNumbered file encoded number front) line
      (s.runNumbered file encoded number (front ++ [line])) own records := by
  rw [runNumbered_append, Run.andThen_of_passed _ passed, runNumbered_singleton]
  exact exists_adds file encoded _ _ line

theorem counts_runNumbered {s : Session} {lines : List String}
    (passed : (s.runNumbered file encoded number lines).failure = none) :
    ∃ added, (s.runNumbered file encoded number lines).session.journal.entries =
        s.journal.entries ++ added ∧
      (s.runNumbered file encoded number lines).rejected =
        lines.countP isOpen + added.countP Entry.isError := by
  induction lines using List.reverseRecOn with
  | nil => exact ⟨[], (List.append_nil _).symm, rfl⟩
  | append_singleton front line ih =>
    have before := passed_of_append file encoded number passed
    obtain ⟨added, whole, counted⟩ := ih before
    obtain ⟨own, records, adds⟩ := exists_adds_of_passed file encoded number line before
    refine ⟨added ++ records, by rw [adds.entries_eq, whole, List.append_assoc], ?_⟩
    rw [adds.rejected_eq, counted, adds.own_eq, List.countP_append, List.countP_append,
      List.countP_singleton]
    omega

end Session

end LineLang
