import LineLang.Proofs.Session.Reading
import LineLang.Proofs.Session.Wording

/-!
# Several statements in one call

`execute_append`: a call with more lexemes behind a semicolon does what two calls do one after the
other, unless the first of them is rejected; then it is rejected in the same way.
-/

namespace LineLang.Session

section Calls

variable {made : Registry} {s : Session} (h : s.MadeFrom made) {front back : List String}
  {tokens : List Token} {r : Registry} (nonempty : ∀ lexeme ∈ front ++ back, lexeme ≠ "")
  (encoded : s.registry.encodeAll (front ++ back) = (.ok tokens, r))
include h nonempty encoded

theorem execute_of_reads {text : String} {events : List Event} {s₁ : Session} {phase : Phase}
    (reads : Reads text { s with registry := r } .start (front.map r.token) events s₁ phase)
    (any : front ≠ []) : ∃ outcome, (s.execute front).1 = .ok outcome ∧ outcome.isOk := by
  obtain ⟨call, ran, course, -⟩ := sameCourse_of_front h nonempty encoded any text
  rw [ran]
  exact ⟨call.1, rfl, course.outcome_eq ▸ isOk_feed_of_reads reads⟩

/-- Statements that are read to their ends are carried out. -/
theorem execute_of_reads_start {text : String} {events : List Event} {s₁ : Session}
    (reads : Reads text { s with registry := r } .start (front.map r.token) events s₁ .start) :
    (front ≠ [] → (s.execute front).1 = .ok .accepted) ∧ (s.execute front).2.2 = events ∧
      SameState (s.execute front).2.1 s₁ := by
  cases front with
  | nil =>
    cases reads
    exact ⟨fun any => absurd rfl any, rfl, rfl, rfl⟩
  | cons lexeme front =>
    obtain ⟨call, ran, course, -⟩ := sameCourse_of_front h nonempty encoded (by simp) text
    have fed := feed_of_reads reads []
    rw [List.append_nil] at fed
    rw [fed] at course
    rw [ran]
    refine ⟨fun _ => congrArg Except.ok course.outcome_eq.symm, ?_, course.state⟩
    simpa [feed, finish] using course.events_eq.symm

theorem execute_of_faults {text : String} {events : List Event} {s₁ : Session} {phase : Phase}
    {before behind : List Token} {token : Token} {fault : Fault} {lexeme : String}
    (cut : front.map r.token = before ++ token :: behind)
    (reads : Reads text { s with registry := r } .start before events s₁ phase)
    (faults : s₁.Faults phase token fault lexeme) :
    (s.execute front).1 = .ok (.rejected ⟨fault, some lexeme⟩) := by
  have any : front ≠ [] := by
    rintro rfl
    simp at cut
  obtain ⟨call, ran, course, -⟩ := sameCourse_of_front h nonempty encoded any text
  rw [ran, ← course.outcome_eq, cut, feed_of_reads reads, feed_of_faults text faults]
  rfl

/-- A call that is not rejected and ends in a semicolon has read its statements to their ends. -/
theorem reads_of_closed (text : String)
    (closed : ∀ word ∈ front.getLast?, s.dialect.classify (r.token word) = .semicolon)
    (passed : front ≠ [] → ∀ report, (s.execute front).1 ≠ .ok (.rejected report)) :
    ∃ s₁, Reads text { s with registry := r } .start (front.map r.token) (s.execute front).2.2 s₁
      .start ∧ SameState (s.execute front).2.1 s₁ := by
  rcases reads_or_faults text { s with registry := r } .start (front.map r.token) with
    ⟨events, s₁, phase, reads⟩ |
    ⟨before, token, behind, events, s₁, phase, fault, lexeme, cut, reads, faults⟩
  case inr =>
    have any : front ≠ [] := by
      rintro rfl
      simp at cut
    exact absurd (execute_of_faults h nonempty encoded cut reads faults) (passed any _)
  obtain rfl := start_of_closed reads (by
    intro token last
    obtain ⟨word, final, rfl⟩ := Option.map_eq_some_iff.1 (List.getLast?_map ▸ last)
    exact closed word final)
  obtain ⟨-, rfl, state⟩ := execute_of_reads_start h nonempty encoded reads
  exact ⟨s₁, reads, state⟩

variable (any : front ≠ [])
include any

theorem execute_of_rejected {report : Report}
    (rejected : (s.execute front).1 = .ok (.rejected report)) :
    (s.execute (front ++ back)).1 = .ok (.rejected report) ∧
      (s.execute (front ++ back)).2.2 = (s.execute front).2.2 ∧
        SameState (s.execute front).2.1 (s.execute (front ++ back)).2.1 := by
  have whole := execute_of_encodeAll nonempty (List.append_ne_nil_of_left_ne_nil any back) encoded
  obtain ⟨rfl, -⟩ := Registry.tokens_of_encodeAll nonempty encoded
  generalize statementText ((front ++ back).map r.token) = text at whole
  obtain ⟨call, ran, course, -⟩ := sameCourse_of_front h nonempty encoded any text
  rw [ran] at rejected ⊢
  have stopped := course.outcome_eq.trans (Except.ok.inj rejected)
  rw [List.map_append, feed_append_of_rejected stopped, stopped] at whole
  rw [whole]
  exact ⟨rfl, course.events_eq, course.state⟩

/-- What stands behind a semicolon is a call of its own. -/
theorem execute_of_closed (semicolon : (made.codeFor .operator ";").isSome)
    (closed : front.getLast? = some ";") (more : back ≠ [])
    (passed : ∀ report, (s.execute front).1 ≠ .ok (.rejected report)) :
    (s.execute (front ++ back)).1 = ((s.execute front).2.1.execute back).1 ∧
      (s.execute (front ++ back)).2.2 =
          (s.execute front).2.2 ++ ((s.execute front).2.1.execute back).2.2 ∧
        SameState ((s.execute front).2.1.execute back).2.1 (s.execute (front ++ back)).2.1 := by
  have whole := execute_of_encodeAll nonempty (List.append_ne_nil_of_left_ne_nil any back) encoded
  obtain ⟨rfl, encodes⟩ := Registry.tokens_of_encodeAll nonempty encoded
  have leads := (Registry.leads_encodeAll s.registry (front ++ back)).1
  rw [encoded] at leads
  generalize statementText ((front ++ back).map r.token) = text at whole
  -- the first lexemes are read to their end, and a statement begins behind them
  obtain ⟨s₁, reads, state⟩ := reads_of_closed h nonempty encoded text (by
    intro word last
    rw [closed] at last
    obtain rfl := Option.some.inj last
    rw [h.dialect_eq]
    exact Dialect.classify_of_hasRole h.reachable (Registry.leads_trans h.leads leads)
      (encodes ";" (List.mem_append_left _ (List.mem_of_getLast? closed)))
      ⟨.operator, by decide, semicolon⟩) fun _ => passed
  rw [List.map_append, feed_of_reads reads] at whole
  -- the second call starts in a session that differs in the texts of its records only
  obtain ⟨call, ran, -, onward⟩ := sameCourse_of_front h nonempty encoded any text
  obtain ⟨-, -, dialect, verbose⟩ := setting_of_execute s front
  rw [ran] at whole state dialect verbose ⊢
  have again := execute_of_encodeAll
    (fun lexeme member => nonempty lexeme (List.mem_append_right _ member)) more onward
  have reading := sameSetting_of_reads reads
  have setting : SameSetting { call.2.1 with registry := r } s₁ :=
    ⟨reading.registry_eq, reading.dialect_eq.trans dialect.symm, reading.verbose_eq.trans verbose.symm⟩
  obtain ⟨outcome, printed', state'⟩ := sameCourse_feed setting ⟨state.symbols_eq, state.journal_eq⟩
    (statementText (back.map r.token)) text .start (back.map r.token)
  rw [whole, again]
  exact ⟨congrArg Except.ok outcome, congrArg (call.2.2 ++ ·) printed', state'⟩

end Calls

/-- Nothing behind a rejection has an effect. -/
theorem execute_append_of_rejected {made : Registry} {s : Session} (h : s.MadeFrom made)
    {first second : List String} (any : first.filter (· ≠ "") ≠ [])
    (encodable : (s.registry.encodeAll ((first ++ second).filter (· ≠ ""))).1.isOk) {report : Report}
    (rejected : (s.execute first).1 = .ok (.rejected report)) :
    (s.execute (first ++ second)).1 = .ok (.rejected report) ∧
      (s.execute (first ++ second)).2.2 = (s.execute first).2.2 ∧
        SameState (s.execute first).2.1 (s.execute (first ++ second)).2.1 := by
  obtain ⟨tokens, r, encoded⟩ := Registry.encodeAll_of_isOk encodable
  have nonempty := @ne_empty_of_mem_filter (first ++ second)
  rw [List.filter_append] at encoded nonempty
  rw [← execute_filter] at rejected
  have whole := execute_of_rejected h nonempty encoded any rejected
  rwa [← List.filter_append, execute_filter, execute_filter] at whole

/-- A call behind a semicolon continues as another call would, and a rejected call is rejected whatever
stands behind it. -/
theorem execute_append {made : Registry} {s : Session} (h : s.MadeFrom made)
    (semicolon : (made.codeFor .operator ";").isSome) {first second : List String}
    (closed : (first.filter (· ≠ "")).getLast? = some ";") (more : ∃ lexeme ∈ second, lexeme ≠ "")
    (encodable : (s.registry.encodeAll ((first ++ second).filter (· ≠ ""))).1.isOk) :
    (∀ report, (s.execute first).1 = .ok (.rejected report) →
      (s.execute (first ++ second)).1 = .ok (.rejected report) ∧
        (s.execute (first ++ second)).2.2 = (s.execute first).2.2 ∧
          (s.execute (first ++ second)).2.1.symbols = (s.execute first).2.1.symbols) ∧
    ((∀ report, (s.execute first).1 ≠ .ok (.rejected report)) →
      (s.execute (first ++ second)).1 = ((s.execute first).2.1.execute second).1 ∧
        (s.execute (first ++ second)).2.1.symbols =
            ((s.execute first).2.1.execute second).2.1.symbols ∧
          (s.execute (first ++ second)).2.2 =
              (s.execute first).2.2 ++ ((s.execute first).2.1.execute second).2.2 ∧
            (s.newRecords (first ++ second)).map Entry.unworded =
              (s.newRecords first ++ (s.execute first).2.1.newRecords second).map Entry.unworded) := by
  have any : first.filter (· ≠ "") ≠ [] := by
    intro none
    rw [none] at closed
    cases closed
  constructor
  · intro report rejected
    obtain ⟨outcome, events, state⟩ := execute_append_of_rejected h any encodable rejected
    exact ⟨outcome, events, state.symbols_eq⟩
  · intro passed
    have others : second.filter (· ≠ "") ≠ [] := by
      obtain ⟨lexeme, member, some⟩ := more
      exact List.ne_nil_of_mem (List.mem_filter.2 ⟨member, by simpa using some⟩)
    have nonempty := @ne_empty_of_mem_filter (first ++ second)
    obtain ⟨tokens, r, encoded⟩ := Registry.encodeAll_of_isOk encodable
    rw [List.filter_append] at encoded nonempty
    rw [← execute_filter] at passed
    obtain ⟨outcome, events, state⟩ :=
      execute_of_closed h nonempty encoded any semicolon closed others passed
    rw [← List.filter_append, execute_filter, execute_filter, execute_filter] at outcome events state
    refine ⟨outcome, state.symbols_eq, events, ?_⟩
    have entries := entries_of_sameState state
    rw [entries_execute, entries_execute, entries_execute, List.append_assoc, List.map_append,
      List.map_append] at entries
    exact List.append_cancel_left entries

theorem execute_append_redeclared :
    ((start Registry.vocabulary .empty true).execute
        (["int", "x", "=", "7", ";"] ++ ["x", "=", "x", "*", "6", ";", "int", "x", ";"])).2.2 =
      [.initialised "x" (.int 7), .assigned "x" (.int 42), .rejected (.redeclared "x") "x"] :=
  ((execute_append (madeFrom_start Registry.reachable_vocabulary .empty true) (by decide +kernel)
    (by decide) (by decide) (by decide +kernel)).2 (by
      intro report rejected
      have accepted : ((start Registry.vocabulary .empty true).execute
          ["int", "x", "=", "7", ";"]).1 = .ok .accepted := by decide +kernel
      rw [accepted] at rejected
      cases rejected)).2.2.1.trans (by decide +kernel)

end LineLang.Session
