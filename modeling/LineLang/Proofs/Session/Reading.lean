import LineLang.Proofs.Session.Run

/-!
# How a call reads its tokens

`reads_or_faults`: a call reads all of its tokens, or it stops at the first one that has a fault. What
was read up to a semicolon is done with: the next token begins a statement.
-/

namespace LineLang

section Step

variable {d : Dialect} {r : Registry} {t : SymbolTable} {phase : Phase} {token : Token}

theorem semicolon_of_complete {write : Write} (h : phase.step d r t token = .ok (.complete write)) :
    d.classify token = .semicolon := by
  cases phase with
  | start | afterType | afterName =>
    simp only [Phase.step] at h
    split at h <;> cases h
  | afterDeclared =>
    simp only [Phase.step] at h
    split at h
    · assumption
    all_goals cases h
  | expression target pending =>
    simp only [Phase.step] at h
    split at h
    · assumption
    · cases read : pending.read d r t (d.classify token) token with
      | error report =>
        rw [read] at h
        cases h
      | ok pending =>
        rw [read] at h
        cases h

/-- A semicolon that completes no statement stands where none has begun. -/
theorem start_of_semicolon (semicolon : d.classify token = .semicolon) {next : Phase}
    (h : phase.step d r t token = .ok (.goOn next)) : next = .start := by
  cases phase with
  | start =>
    simp only [Phase.step, semicolon] at h
    cases h
    rfl
  | afterType | afterDeclared | afterName =>
    simp only [Phase.step, semicolon] at h
    cases h
  | expression target pending =>
    simp only [Phase.step, semicolon] at h
    cases finished : pending.finish d r with
    | error report =>
      rw [finished] at h
      cases h
    | ok value =>
      rw [finished] at h
      cases h

end Step

namespace Session

/-- Tokens that are read without a fault, and the events of the statements that end in them. -/
inductive Reads (text : String) :
    Session → Phase → List Token → List Event → Session → Phase → Prop where
  | nil (s : Session) (phase : Phase) : Reads text s phase [] [] s phase
  | goOn {s s' : Session} {phase next phase' : Phase} {token : Token} {tokens : List Token}
      {events : List Event} :
      phase.step s.dialect s.registry s.symbols token = .ok (.goOn next) →
        Reads text s next tokens events s' phase' →
          Reads text s phase (token :: tokens) events s' phase'
  | complete {s s₁ s' : Session} {phase phase' : Phase} {token : Token} {tokens : List Token}
      {write : Write} {event : Event} {events : List Event} :
      phase.step s.dialect s.registry s.symbols token = .ok (.complete write) →
        s.perform text write = .ok (s₁, event) → Reads text s₁ .start tokens events s' phase' →
          Reads text s phase (token :: tokens) (event :: events) s' phase'

/-- A token has a fault, and the lexeme that the fault is found at. -/
inductive Faults (s : Session) (phase : Phase) (token : Token) : Fault → String → Prop where
  | step {report : Report} :
      phase.step s.dialect s.registry s.symbols token = .error report →
        Faults s phase token report.fault (report.lexeme.getD token.lexeme)
  | write {write : Write} {fault : Fault} :
      phase.step s.dialect s.registry s.symbols token = .ok (.complete write) →
        write.run s.symbols = .error fault →
          Faults s phase token fault (fault.lexeme?.getD token.lexeme)

theorem perform_of_run_error {s : Session} (text : String) {write : Write} {fault : Fault}
    (h : write.run s.symbols = .error fault) : s.perform text write = .error fault := by
  rw [perform, h]
  rfl

theorem feed_of_faults (text : String) {s : Session} {phase : Phase} {token : Token} {fault : Fault}
    {lexeme : String} (h : s.Faults phase token fault lexeme) (tokens : List Token) :
    s.feed text phase (token :: tokens) = s.reject text fault lexeme := by
  cases h with
  | step failed => rw [feed, failed]
  | write complete failed =>
    rw [feed, complete]
    dsimp only
    rw [perform_of_run_error text failed]

/-- Tokens that are read without a fault do not depend on what stands behind them. -/
theorem feed_of_reads {text : String} {s s' : Session} {phase phase' : Phase} {tokens : List Token}
    {events : List Event} (h : Reads text s phase tokens events s' phase') (rest : List Token) :
    s.feed text phase (tokens ++ rest) =
      ((s'.feed text phase' rest).1, (s'.feed text phase' rest).2.1,
        events ++ (s'.feed text phase' rest).2.2) := by
  induction h with
  | nil => rfl
  | goOn step _ ih =>
    rw [List.cons_append, feed, step]
    exact ih
  | complete step performed _ ih =>
    rw [List.cons_append, feed, step]
    dsimp only
    rw [performed]
    dsimp only
    rw [ih]
    rfl

theorem reads_or_faults (text : String) (s : Session) (phase : Phase) (tokens : List Token) :
    (∃ events s' phase', Reads text s phase tokens events s' phase') ∨
      ∃ before token behind events s' phase' fault lexeme, tokens = before ++ token :: behind ∧
        Reads text s phase before events s' phase' ∧ s'.Faults phase' token fault lexeme := by
  induction tokens generalizing s phase with
  | nil => exact .inl ⟨[], s, phase, .nil s phase⟩
  | cons token tokens ih =>
    cases step : phase.step s.dialect s.registry s.symbols token with
    | error report => exact .inr ⟨[], token, tokens, [], s, phase, _, _, rfl, .nil s phase, .step step⟩
    | ok move =>
      cases move with
      | goOn next =>
        rcases ih s next with ⟨events, s', phase', reads⟩ |
          ⟨before, bad, behind, events, s', phase', fault, lexeme, rfl, reads, faults⟩
        · exact .inl ⟨events, s', phase', .goOn step reads⟩
        · exact .inr ⟨token :: before, bad, behind, events, s', phase', fault, lexeme, rfl,
            .goOn step reads, faults⟩
      | complete write =>
        cases ran : write.run s.symbols with
        | error fault =>
          exact .inr ⟨[], token, tokens, [], s, phase, _, _, rfl, .nil s phase, .write step ran⟩
        | ok result =>
          have performed : s.perform text write =
              .ok (note { s with symbols := result.1 } text result.2, result.2) := by
            rw [perform, ran]
            rfl
          rcases ih _ .start with ⟨events, s', phase', reads⟩ |
            ⟨before, bad, behind, events, s', phase', fault, lexeme, rfl, reads, faults⟩
          · exact .inl ⟨_, s', phase', .complete step performed reads⟩
          · exact .inr ⟨token :: before, bad, behind, _, s', phase', fault, lexeme, rfl,
              .complete step performed reads, faults⟩

/-! ### Parts of what was read -/

section

variable {text : String} {s s' : Session} {phase phase' : Phase} {events : List Event}

theorem sameSetting_of_reads {tokens : List Token} (h : Reads text s phase tokens events s' phase') :
    SameSetting s s' := by
  induction h with
  | nil => exact ⟨rfl, rfl, rfl⟩
  | goOn _ _ ih => exact ih
  | complete _ performed _ ih => exact sameSetting_trans (sameSetting_perform performed) ih

theorem reads_append {front back : List Token}
    (h : Reads text s phase (front ++ back) events s' phase') :
    ∃ first middle between second, Reads text s phase front first middle between ∧
      Reads text middle between back second s' phase' ∧ events = first ++ second := by
  induction front generalizing s phase events with
  | nil => exact ⟨[], s, phase, events, .nil s phase, h, rfl⟩
  | cons token front ih =>
    cases h with
    | goOn step reads =>
      obtain ⟨first, middle, between, second, one, two, rfl⟩ := ih reads
      exact ⟨first, middle, between, second, .goOn step one, two, rfl⟩
    | complete step performed reads =>
      obtain ⟨first, middle, between, second, one, two, rfl⟩ := ih reads
      exact ⟨_, middle, between, second, .complete step performed one, two, rfl⟩

theorem reads_trans {s₂ : Session} {phase₂ : Phase} {front back : List Token} {events' : List Event}
    (h₁ : Reads text s phase front events s' phase') (h₂ : Reads text s' phase' back events' s₂ phase₂) :
    Reads text s phase (front ++ back) (events ++ events') s₂ phase₂ := by
  induction h₁ with
  | nil => exact h₂
  | goOn step _ ih => exact .goOn step (ih h₂)
  | complete step performed _ ih => exact .complete step performed (ih h₂)

theorem start_of_reads {tokens : List Token} {token : Token}
    (h : Reads text s phase (tokens ++ [token]) events s' phase')
    (semicolon : s.dialect.classify token = .semicolon) : phase' = .start := by
  obtain ⟨_, middle, between, _, front, last, -⟩ := reads_append h
  rw [← (sameSetting_of_reads front).dialect_eq] at semicolon
  cases last with
  | goOn step none =>
    cases none
    exact start_of_semicolon semicolon step
  | complete _ _ none =>
    cases none
    rfl

/-- Tokens up to a semicolon leave no statement open. -/
theorem start_of_closed {tokens : List Token} (h : Reads text s .start tokens events s' phase')
    (closed : ∀ last ∈ tokens.getLast?, s.dialect.classify last = .semicolon) : phase' = .start := by
  cases last : tokens.getLast? with
  | none =>
    rw [List.getLast?_eq_none_iff.1 last] at h
    cases h
    rfl
  | some token =>
    obtain ⟨init, rfl⟩ := List.getLast?_eq_some_iff.1 last
    exact start_of_reads h (closed token last)

theorem eq_of_reads {tokens : List Token} (h : Reads text s phase tokens events s' phase')
    (noEnd : ∀ token ∈ tokens, s.dialect.classify token ≠ .semicolon) : events = [] ∧ s' = s := by
  induction h with
  | nil => exact ⟨rfl, rfl⟩
  | goOn _ _ ih => exact ih fun token member => noEnd token (List.mem_cons_of_mem _ member)
  | complete step _ _ _ => exact absurd (semicolon_of_complete step) (noEnd _ List.mem_cons_self)

end

theorem isOk_finish (s : Session) (text : String) (phase : Phase) :
    (s.finish text phase).1.isOk := by
  unfold finish
  split
  · dsimp only
    split
    · rfl
    split
    · rfl
    split <;> rfl
  · rfl

theorem isOk_feed_of_reads {text : String} {s s' : Session} {phase phase' : Phase}
    {tokens : List Token} {events : List Event} (h : Reads text s phase tokens events s' phase') :
    (s.feed text phase tokens).1.isOk := by
  have fed := feed_of_reads h []
  rw [List.append_nil] at fed
  rw [fed]
  exact isOk_finish s' text phase'

/-- A rejected call has read its tokens up to the first fault. -/
theorem faults_of_rejected {text : String} {s : Session} {phase : Phase} {tokens : List Token}
    {report : Report} (h : (s.feed text phase tokens).1 = .rejected report) :
    ∃ before token behind events s' phase' fault lexeme, tokens = before ++ token :: behind ∧
      Reads text s phase before events s' phase' ∧ s'.Faults phase' token fault lexeme ∧
        report = ⟨fault, some lexeme⟩ := by
  rcases reads_or_faults text s phase tokens with ⟨events, s', phase', reads⟩ |
    ⟨before, token, behind, events, s', phase', fault, lexeme, rfl, reads, faults⟩
  · have ok := isOk_feed_of_reads reads
    rw [h] at ok
    cases ok
  · refine ⟨before, token, behind, events, s', phase', fault, lexeme, rfl, reads, faults, ?_⟩
    rw [feed_of_reads reads, feed_of_faults text faults] at h
    exact (Outcome.rejected.inj h).symm

theorem feed_append_of_rejected {text : String} {s : Session} {phase : Phase} {tokens : List Token}
    {report : Report} (h : (s.feed text phase tokens).1 = .rejected report) (rest : List Token) :
    s.feed text phase (tokens ++ rest) = s.feed text phase tokens := by
  obtain ⟨before, token, behind, events, s', phase', fault, lexeme, rfl, reads, faults, -⟩ :=
    faults_of_rejected h
  rw [List.append_assoc, List.cons_append, feed_of_reads reads, feed_of_reads reads,
    feed_of_faults text faults, feed_of_faults text faults]

end Session

end LineLang
