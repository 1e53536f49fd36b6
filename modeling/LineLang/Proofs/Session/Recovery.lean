import LineLang.Proofs.Session.Committed

/-!
# A missing semicolon

A call may end within an expression. `execute_terminated`: it is then carried out as if a semicolon stood
at its end, but for the way in which a fault is reported.
-/

namespace LineLang.Session

/-- A call reads its lexemes without a fault, and this is what they have led to behind the last one. -/
def ReadsTo (s : Session) (lexemes : List String) (phase : Phase) : Prop :=
  ∃ tokens r text events s', s.registry.encodeAll (lexemes.filter (· ≠ "")) = (.ok tokens, r) ∧
    Reads text { s with registry := r } .start tokens events s' phase

/-- Both calls commit a value to the target, and nothing but the outcome tells them apart. -/
structure CommitsAlike (s : Session) (lexemes terminated : List String) (target : Target)
    (value : Value) : Prop where
  incomplete : (s.execute lexemes).1 = .ok (.incomplete none)
  accepted : (s.execute terminated).1 = .ok .accepted
  committed : (s.execute lexemes).2.1.symbols.get? target.name = some value
  printed : ∃ events, (s.execute lexemes).2.2 = events ++ [target.event value]
  events_eq : (s.execute terminated).2.2 = (s.execute lexemes).2.2
  symbols_eq : (s.execute terminated).2.1.symbols = (s.execute lexemes).2.1.symbols
  records_eq : (s.newRecords terminated).map Entry.unworded =
    (s.newRecords lexemes).map Entry.unworded

/-- Both calls report a fault behind the same statements, the second at a lexeme. -/
structure FailsAlike (s : Session) (lexemes terminated : List String) (report : Report)
    (lexeme : String) : Prop where
  incomplete : (s.execute lexemes).1 = .ok (.incomplete (some report))
  rejected : (s.execute terminated).1 = .ok (.rejected ⟨report.fault, some lexeme⟩)
  symbols_eq : (s.execute terminated).2.1.symbols = (s.execute lexemes).2.1.symbols
  printed : ∃ lines,
    (s.execute lexemes).2.2.map Event.line = lines ++ ["!   Incomplete statement (missing ';')"] ∧
      (s.execute terminated).2.2.map Event.line =
        lines ++ [s!"!   {report.fault.message} near '{lexeme}'"]
  recorded : ∃ records entry entry',
    (s.newRecords lexemes).map Entry.unworded = records ++ [entry] ∧
      (s.newRecords terminated).map Entry.unworded = records ++ [entry'] ∧
        entry.text? "rule" = some "INCOMPLETE" ∧ entry.text? "error" = some report.fault.message ∧
          entry'.text? "rule" = some "ERROR" ∧ entry'.text? "error" = some report.fault.kind ∧
            entry'.text? "message" = some report.fault.message ∧ entry'.text? "lexeme" = some lexeme

theorem logs_of_reads {text : String} {s s' : Session} {phase phase' : Phase} {tokens : List Token}
    {events : List Event} (h : Reads text s phase tokens events s' phase') : s.Logs events s' := by
  induction h with
  | nil s => exact logs_refl s
  | goOn _ _ ih => exact ih
  | complete _ performed _ ih => exact logs_trans (logs_perform performed) ih

/-- The end of a call does to an expression what a semicolon does. -/
theorem finish_or_feed {s : Session} {target : Target} {pending : Stacks} {token : Token}
    (text : String) (some : pending.isEmpty = false) (ends : s.dialect.classify token = .semicolon) :
    (∃ value s', s'.symbols.get? target.name = .some value ∧
        s.finish text (.expression target pending) = (.incomplete none, s', [target.event value]) ∧
          s.feed text (.expression target pending) [token] = (.accepted, s', [target.event value])) ∨
      ∃ report : Report, s.finish text (.expression target pending) =
          (.incomplete report, s.note text (.unterminated report.fault), [.unterminated report.fault]) ∧
        s.feed text (.expression target pending) [token] =
          s.reject text report.fault (report.lexeme.getD token.lexeme) := by
  rw [finish, feed]
  simp only [some, Phase.step, ends]
  cases pending.finish s.dialect s.registry with
  | error report => exact .inr ⟨report, rfl, rfl⟩
  | ok value =>
    by_cases admits : target.Admits s.symbols value
    · have performed := perform_of_admits text admits
      refine .inl ⟨value, note { s with symbols := s.symbols.insert target.name value } text
        (target.event value), ?_, ?_, ?_⟩
      · simp [note, Table.get?_insert]
      · simp [performed]
      · simp [performed, bind, Except.bind, pure, Except.pure, feed, finish]
    · obtain ⟨fault, failed⟩ := perform_of_not_admits text admits
      refine .inr ⟨fault.report, ?_, ?_⟩
      · simp [failed, Fault.report]
      · simp only [bind, Except.bind, pure, Except.pure, failed]
        rfl

theorem encodeAll_terminated {made : Registry} {s : Session} (h : s.MadeFrom made)
    (semicolon : (made.codeFor .operator ";").isSome) {lexemes : List String} {tokens : List Token}
    {r : Registry} (encoded : s.registry.encodeAll lexemes = (.ok tokens, r)) :
    s.registry.encodeAll (lexemes ++ [";"]) = (.ok (tokens ++ [r.token ";"]), r) ∧
      s.dialect.classify (r.token ";") = .semicolon := by
  have leads := (Registry.leads_encodeAll s.registry lexemes).1
  rw [encoded] at leads
  have leads := Registry.leads_trans h.leads leads
  have encodes := Dialect.encodes_of_isSome h.reachable leads (.inr rfl) semicolon
  constructor
  · rw [Registry.encodeAll_append, encoded]
    simp only [Registry.encodeAll_of_encodes (show ∀ lexeme ∈ [";"], lexeme ≠ "" by decide)
      (List.forall_mem_singleton.2 encodes)]
    rfl
  · rw [h.dialect_eq]
    exact Dialect.classify_of_hasRole h.reachable leads encodes ⟨.operator, by decide, semicolon⟩

theorem filter_terminated (lexemes : List String) :
    (lexemes ++ [";"]).filter (· ≠ "") = lexemes.filter (· ≠ "") ++ [";"] := by
  rw [List.filter_append]
  rfl

section Courses

variable {s : Session} {lexemes terminated : List String} {call call' : Outcome × Session × List Event}
  {events : List Event} (ran : s.execute lexemes = (.ok call.1, call.2))
  (ran' : s.execute terminated = (.ok call'.1, call'.2))
include ran ran'

theorem commitsAlike_of_course {s' : Session} {target : Target} {value : Value}
    (committed : s'.symbols.get? target.name = some value)
    (course : SameCourse call (.incomplete none, s', events ++ [target.event value]))
    (course' : SameCourse call' (.accepted, s', events ++ [target.event value])) :
    s.CommitsAlike lexemes terminated target value := by
  obtain ⟨outcome, printed, state⟩ := course
  obtain ⟨outcome', printed', state'⟩ := course'
  constructor
  · rw [ran, ← outcome]
  · rw [ran', ← outcome']
  · rw [ran, ← state.symbols_eq]
    exact committed
  · exact ⟨events, by rw [ran, ← printed]⟩
  · rw [ran, ran', ← printed, ← printed']
  · rw [ran, ran', ← state.symbols_eq, ← state'.symbols_eq]
  · apply newRecords_of_sameState
    rw [ran, ran']
    exact sameState_trans state (sameState_symm state')

theorem failsAlike_of_course {s₁ : Session} {text lexeme : String} {report : Report}
    {records : List Entry} (before : s₁.journal.entries.map Entry.unworded =
      s.journal.entries.map Entry.unworded ++ records)
    (course : SameCourse call (.incomplete report, s₁.note text (.unterminated report.fault),
      events ++ [.unterminated report.fault]))
    (course' : SameCourse call' (.rejected ⟨report.fault, some lexeme⟩,
      s₁.note text (.rejected report.fault lexeme), events ++ [.rejected report.fault lexeme])) :
    s.FailsAlike lexemes terminated report lexeme := by
  obtain ⟨outcome, printed, state⟩ := course
  obtain ⟨outcome', printed', state'⟩ := course'
  constructor
  · rw [ran, ← outcome]
  · rw [ran', ← outcome']
  · rw [ran, ran', ← state.symbols_eq, ← state'.symbols_eq]
    rfl
  · refine ⟨events.map Event.line, ?_, ?_⟩
    · rw [ran, ← printed]
      exact List.map_append
    · rw [ran', ← printed']
      exact List.map_append
  · have final : SameState (s₁.note text (.unterminated report.fault)) (s.execute lexemes).2.1 := by
      rw [ran]
      exact sameState_symm state
    have final' : SameState (s₁.note text (.rejected report.fault lexeme))
        (s.execute terminated).2.1 := by
      rw [ran']
      exact sameState_symm state'
    obtain ⟨entry, added, recorded⟩ := newRecords_of_sameNote final before
    obtain ⟨entry', added', recorded'⟩ := newRecords_of_sameNote final' before
    simp only [Entry.Records, Event.rule, Event.details, List.forall_mem_cons] at recorded recorded'
    obtain ⟨rule, error, -⟩ := recorded
    obtain ⟨rule', error', message, found, -⟩ := recorded'
    exact ⟨records, entry, entry', added, added', rule, error, rule', error', message, found⟩

end Courses

theorem alike_of_readsTo {made : Registry} {s : Session} (h : s.MadeFrom made)
    (semicolon : (made.codeFor .operator ";").isSome) {lexemes : List String} {target : Target}
    {pending : Stacks} (readsTo : s.ReadsTo lexemes (.expression target pending))
    (some : pending.isEmpty = false) :
    (∃ value, s.CommitsAlike lexemes (lexemes ++ [";"]) target value) ∨
      ∃ report : Report,
        s.FailsAlike lexemes (lexemes ++ [";"]) report (report.lexeme.getD ";") := by
  obtain ⟨tokens, r, text, events, s₁, encoded, reads⟩ := readsTo
  obtain ⟨encoded', ends⟩ := encodeAll_terminated h semicolon encoded
  have nonempty := @ne_empty_of_mem_filter lexemes
  have nonempty' := @ne_empty_of_mem_filter (lexemes ++ [";"])
  rw [filter_terminated] at nonempty'
  have any : lexemes.filter (· ≠ "") ≠ [] := by
    intro none
    rw [none] at encoded
    cases encoded
    cases reads
  -- both calls go as their tokens go under one text
  obtain ⟨call, ran, course⟩ := sameCourse_of_encodeAll nonempty any encoded text
  obtain ⟨call', ran', course'⟩ := sameCourse_of_encodeAll nonempty' (by simp) encoded' text
  rw [execute_filter] at ran
  rw [← filter_terminated, execute_filter] at ran'
  have fed := feed_of_reads reads []
  rw [List.append_nil, feed] at fed
  rw [fed] at course
  rw [feed_of_reads reads] at course'
  obtain ⟨-, dialect, -⟩ := sameSetting_of_reads reads
  rw [← dialect] at ends
  rcases finish_or_feed text some ends with ⟨value, s', committed, one, two⟩ | ⟨report, one, two⟩
  · rw [one] at course
    rw [two] at course'
    exact .inl ⟨value, commitsAlike_of_course ran ran' committed course course'⟩
  · rw [one] at course
    rw [two] at course'
    obtain ⟨-, added, whole, -⟩ := logs_of_reads reads
    have before := congrArg (List.map Entry.unworded) whole
    rw [List.map_append] at before
    exact .inr ⟨report, failsAlike_of_course ran ran' before course course'⟩

/-- A call is rejected, ends within an expression, or has nothing left to carry out. -/
theorem rejected_or_readsTo {s : Session} {lexemes : List String}
    (any : ∃ lexeme ∈ lexemes, lexeme ≠ "")
    (encodable : (s.registry.encodeAll (lexemes.filter (· ≠ ""))).1.isOk) :
    (∃ report, (s.execute lexemes).1 = .ok (.rejected report)) ∨
      (∃ target pending, s.ReadsTo lexemes (.expression target pending) ∧ pending.isEmpty = false) ∨
        (s.execute lexemes).1 = .ok .accepted := by
  obtain ⟨tokens, r, encoded⟩ := Registry.encodeAll_of_isOk encodable
  have ran := execute_of_encodeAll ne_empty_of_mem_filter (filter_ne_nil any) encoded
  rw [execute_filter] at ran
  rcases reads_or_faults (statementText tokens) { s with registry := r } .start tokens with
    ⟨events, s₁, phase, reads⟩ |
    ⟨before, token, behind, events, s₁, phase, fault, lexeme, rfl, reads, faults⟩
  · have fed := feed_of_reads reads []
    rw [List.append_nil, feed] at fed
    rw [fed] at ran
    cases phase with
    | expression target pending =>
      cases left : pending.isEmpty with
      | false => exact .inr (.inl ⟨target, pending, ⟨tokens, r, _, events, s₁, encoded, reads⟩, left⟩)
      | true =>
        right; right
        rw [ran, finish, left]
        rfl
    | _ =>
      right; right
      rw [ran]
      rfl
  · left
    rw [ran, feed_of_reads reads, feed_of_faults _ faults]
    exact ⟨_, rfl⟩

/-- A semicolon behind a call makes no difference to a rejection. It commits the value of an expression
that the call ends in, or reports the fault of it, as the end of the call does. -/
theorem execute_terminated {made : Registry} {s : Session} (h : s.MadeFrom made)
    (semicolon : (made.codeFor .operator ";").isSome) {lexemes : List String}
    (any : ∃ lexeme ∈ lexemes, lexeme ≠ "")
    (encodable : (s.registry.encodeAll (lexemes.filter (· ≠ ""))).1.isOk) :
    ((∃ report, (s.execute lexemes).1 = .ok (.rejected report)) ∨
      (∃ target pending, s.ReadsTo lexemes (.expression target pending) ∧ pending.isEmpty = false) ∨
        (s.execute lexemes).1 = .ok .accepted) ∧
    (∀ report, (s.execute lexemes).1 = .ok (.rejected report) →
      (s.execute (lexemes ++ [";"])).1 = .ok (.rejected report) ∧
        (s.execute (lexemes ++ [";"])).2.2 = (s.execute lexemes).2.2 ∧
          (s.execute (lexemes ++ [";"])).2.1.symbols = (s.execute lexemes).2.1.symbols ∧
            (s.newRecords (lexemes ++ [";"])).map Entry.unworded =
              (s.newRecords lexemes).map Entry.unworded) ∧
    ∀ target pending, s.ReadsTo lexemes (.expression target pending) → pending.isEmpty = false →
      (∃ value, s.CommitsAlike lexemes (lexemes ++ [";"]) target value) ∨
        ∃ report : Report,
          s.FailsAlike lexemes (lexemes ++ [";"]) report (report.lexeme.getD ";") := by
  refine ⟨rejected_or_readsTo any encodable, ?_, ?_⟩
  · intro report rejected
    obtain ⟨tokens, r, encoded⟩ := Registry.encodeAll_of_isOk encodable
    have encodable' : (s.registry.encodeAll ((lexemes ++ [";"]).filter (· ≠ ""))).1.isOk := by
      rw [filter_terminated, (encodeAll_terminated h semicolon encoded).1]
      rfl
    obtain ⟨outcome, events, state⟩ :=
      execute_append_of_rejected h (filter_ne_nil any) encodable' rejected
    exact ⟨outcome, events, state.symbols_eq, newRecords_of_sameState state⟩
  · intro target pending readsTo some
    exact alike_of_readsTo h semicolon readsTo some

theorem failsAlike_open_paren :
    (start Registry.vocabulary .empty true).FailsAlike ["int", "x", "=", "(", "1"]
      ["int", "x", "=", "(", "1", ";"] ⟨.unmatchedOpen, none⟩ ";" := by
  have incomplete : ((start Registry.vocabulary .empty true).execute ["int", "x", "=", "(", "1"]).1 =
      .ok (.incomplete (some ⟨.unmatchedOpen, none⟩)) := by decide +kernel
  obtain ⟨ends, -, alike⟩ := execute_terminated
    (madeFrom_start Registry.reachable_vocabulary .empty true) (by decide +kernel)
    (⟨"int", by decide, by decide⟩ : ∃ lexeme ∈ ["int", "x", "=", "(", "1"], lexeme ≠ "")
    (by decide +kernel)
  obtain ⟨target, pending, readsTo, some⟩ : ∃ target pending,
      (start Registry.vocabulary .empty true).ReadsTo ["int", "x", "=", "(", "1"]
        (.expression target pending) ∧ pending.isEmpty = false := by
    simpa [incomplete] using ends
  rcases alike target pending readsTo some with ⟨value, commits⟩ | ⟨report, fails⟩
  · cases incomplete.symm.trans commits.incomplete
  · cases incomplete.symm.trans fails.incomplete
    exact fails

end LineLang.Session
