import LineLang.Proofs.Session.Statement

/-!
# Two sessions side by side

A statement looks up the names among its tokens and writes one of them, and does nothing else with the
symbols. `alike_feed`: sessions in a relation that writes and records keep, in which the names of the
tokens have the same values, read the tokens alike.
-/

namespace LineLang

/-! ### The name of a statement -/

/-- The name that a statement is for, once it was read. -/
def Phase.name? : Phase → Option String
  | .afterDeclared _ name | .afterName name => some name
  | .expression target _ => some target.name
  | _ => none

def Write.name : Write → String
  | .declare _ name | .initialise _ name _ | .assign name _ => name

theorem name_write (target : Target) (value : Value) : (target.write value).name = target.name := by
  cases target <;> rfl

section Step

variable {d : Dialect} {r : Registry} {t : SymbolTable} {phase : Phase} {token : Token}

/-- The name of a statement is one of its tokens. -/
theorem name?_of_goOn {next : Phase} (h : phase.step d r t token = .ok (.goOn next)) :
    ∀ name ∈ next.name?, name = token.lexeme ∨ name ∈ phase.name? := by
  intro name named
  cases phase with
  | start | afterType =>
    simp only [Phase.step] at h
    split at h <;> cases h
    all_goals cases named
    exact .inl rfl
  | afterDeclared | afterName =>
    simp only [Phase.step] at h
    split at h <;> cases h
    exact .inr named
  | expression target pending =>
    simp only [Phase.step] at h
    split at h
    · obtain ⟨_, -, same⟩ := bind_eq_ok h
      cases same
    · obtain ⟨_, -, same⟩ := bind_eq_ok h
      cases same
      exact .inr named

theorem name?_of_complete {write : Write} (h : phase.step d r t token = .ok (.complete write)) :
    write.name ∈ phase.name? := by
  cases phase with
  | start | afterType | afterName =>
    simp only [Phase.step] at h
    split at h <;> cases h
  | afterDeclared =>
    simp only [Phase.step] at h
    split at h <;> cases h
    rfl
  | expression target pending =>
    simp only [Phase.step] at h
    split at h
    · obtain ⟨value, -, same⟩ := bind_eq_ok h
      cases same
      exact congrArg some (name_write target value).symm
    · obtain ⟨_, -, same⟩ := bind_eq_ok h
      cases same

/-- A token looks up no name but its own lexeme. -/
theorem step_congr {t' : SymbolTable} (same : t'.get? token.lexeme = t.get? token.lexeme) :
    phase.step d r t' token = phase.step d r t token := by
  have read (pending : Stacks) (role : Role) : pending.read d r t' role token =
      pending.read d r t role token := by
    cases role with
    | name => simp only [Stacks.read, SymbolTable.read, same]
    | _ => rfl
  cases phase with
  | expression target pending => simp only [Phase.step, read]
  | _ => rfl

end Step

/-- A statement looks up its own name and writes no other. -/
theorem run_congr {t t' : SymbolTable} (write : Write)
    (same : t'.get? write.name = t.get? write.name) :
    (∃ fault, write.run t = .error fault ∧ write.run t' = .error fault) ∨
      ∃ value event, write.run t = .ok (t.insert write.name value, event) ∧
        write.run t' = .ok (t'.insert write.name value, event) := by
  unfold Write.run SymbolTable.declare SymbolTable.assign Table.contains
  cases write with
  | declare ty name =>
    simp only [Write.name] at same
    dsimp only [Write.name]
    rw [same]
    split
    · exact .inl ⟨_, rfl, rfl⟩
    · exact .inr ⟨_, _, rfl, rfl⟩
  | initialise ty name value =>
    simp only [Write.name] at same
    dsimp only [Write.name]
    rw [same]
    split
    · split
      · exact .inl ⟨_, rfl, rfl⟩
      · exact .inr ⟨_, _, rfl, rfl⟩
    · exact .inl ⟨_, rfl, rfl⟩
  | assign name value =>
    simp only [Write.name] at same
    dsimp only [Write.name]
    rw [same]
    split
    · exact .inl ⟨_, rfl, rfl⟩
    · split
      · exact .inr ⟨_, _, rfl, rfl⟩
      · exact .inl ⟨_, rfl, rfl⟩

namespace Session

/-- A relation that two sessions keep while statements on the names `names` are carried out in both. -/
structure Simulation (names : String → Prop) (text text' : String) (R : Session → Session → Prop) :
    Prop where
  setting : ∀ {s s' : Session}, R s s' → SameSetting s s'
  get?_eq : ∀ {s s' : Session} {name : String}, R s s' → names name →
    s'.symbols.get? name = s.symbols.get? name
  insert : ∀ {s s' : Session} {name : String} (value : Value), R s s' → names name →
    R { s with symbols := s.symbols.insert name value } { s' with symbols := s'.symbols.insert name value }
  note : ∀ {s s' : Session} (event : Event), R s s' → R (s.note text event) (s'.note text' event)
  encode : ∀ {s s' : Session} (r : Registry), R s s' →
    R { s with registry := r } { s' with registry := r }

/-- Two calls have the same outcome and print the same, and what they leave is related. -/
structure Alike (R : Session → Session → Prop) (call call' : Outcome × Session × List Event) : Prop where
  outcome_eq : call'.1 = call.1
  events_eq : call'.2.2 = call.2.2
  related : R call.2.1 call'.2.1

section Simulation

variable {names : String → Prop} {text text' : String} {R : Session → Session → Prop}
  (sim : Simulation names text text' R) {s s' : Session} (h : R s s')
include sim h

theorem alike_reject (fault : Fault) (lexeme : String) :
    Alike R (s.reject text fault lexeme) (s'.reject text' fault lexeme) :=
  ⟨rfl, rfl, sim.note _ h⟩

theorem perform_alike {write : Write} (named : names write.name) :
    (∃ fault, s.perform text write = .error fault ∧ s'.perform text' write = .error fault) ∨
      ∃ s₁ s₁' event, s.perform text write = .ok (s₁, event) ∧
        s'.perform text' write = .ok (s₁', event) ∧ R s₁ s₁' := by
  unfold perform
  rcases run_congr write (sim.get?_eq h named) with ⟨fault, one, two⟩ | ⟨value, event, one, two⟩
  · rw [one, two]
    exact .inl ⟨fault, rfl, rfl⟩
  · rw [one, two]
    exact .inr ⟨_, _, event, rfl, rfl, sim.note event (sim.insert value h named)⟩

variable {phase : Phase} (within : ∀ name ∈ phase.name?, names name)
include within

theorem alike_finish : Alike R (s.finish text phase) (s'.finish text' phase) := by
  obtain ⟨registry, dialect, -⟩ := sim.setting h
  unfold finish
  split
  · rename_i target pending
    dsimp only
    rw [registry, dialect]
    split
    · exact ⟨rfl, rfl, h⟩
    cases pending.finish s.dialect s.registry with
    | error report => exact ⟨rfl, rfl, sim.note _ h⟩
    | ok value =>
      dsimp only
      have named : names (target.write value).name := within _ (name_write target value ▸ rfl)
      rcases perform_alike sim h named with ⟨fault, one, two⟩ | ⟨s₁, s₁', event, one, two, after⟩
      · rw [one, two]
        exact ⟨rfl, rfl, sim.note _ h⟩
      · rw [one, two]
        exact ⟨rfl, rfl, after⟩
  · exact ⟨rfl, rfl, h⟩

/-- Related sessions read tokens of the names alike. -/
theorem alike_feed {tokens : List Token} (named : ∀ token ∈ tokens, names token.lexeme) :
    Alike R (s.feed text phase tokens) (s'.feed text' phase tokens) := by
  induction tokens generalizing s s' phase with
  | nil => exact alike_finish sim h within
  | cons token tokens ih =>
    obtain ⟨registry, dialect, -⟩ := sim.setting h
    obtain ⟨here, behind⟩ := List.forall_mem_cons.1 named
    rw [feed, feed, registry, dialect, step_congr (sim.get?_eq h here)]
    cases step : phase.step s.dialect s.registry s.symbols token with
    | error report => exact alike_reject sim h _ _
    | ok move =>
      cases move with
      | goOn next =>
        refine ih h (fun name kept => ?_) behind
        rcases name?_of_goOn step name kept with rfl | before
        · exact here
        · exact within name before
      | complete write =>
        dsimp only
        rcases perform_alike sim h (within _ (name?_of_complete step)) with
          ⟨fault, one, two⟩ | ⟨s₁, s₁', event, one, two, after⟩
        · rw [one, two]
          exact alike_reject sim h _ _
        · rw [one, two]
          have idle : ∀ name ∈ Phase.start.name?, names name := by simp [Phase.name?]
          obtain ⟨outcome, events, related⟩ := ih after idle behind
          exact ⟨outcome, congrArg (event :: ·) events, related⟩

end Simulation

/-- Related sessions run a call on lexemes of the names alike. -/
theorem alike_execute {names : String → Prop} {R : Session → Session → Prop}
    (sim : ∀ text, Simulation names text text R) {s s' : Session} (h : R s s') {lexemes : List String}
    (named : ∀ lexeme ∈ lexemes, lexeme ≠ "" → names lexeme) :
    (s'.execute lexemes).1 = (s.execute lexemes).1 ∧
      (s'.execute lexemes).2.2 = (s.execute lexemes).2.2 ∧
        R (s.execute lexemes).2.1 (s'.execute lexemes).2.1 := by
  have registry := ((sim "").setting h).registry_eq
  have both (r : Registry) := (sim "").encode r h
  have nonempty := @ne_empty_of_mem_filter lexemes
  unfold execute
  rw [registry]
  rcases encoded : s.registry.encodeAll (lexemes.filter (· ≠ "")) with ⟨e | tokens, r⟩
  · exact ⟨rfl, rfl, both r⟩
  cases tokens with
  | nil => exact ⟨rfl, rfl, both r⟩
  | cons first others =>
    obtain ⟨whole, -⟩ := Registry.tokens_of_encodeAll nonempty encoded
    have mentioned : ∀ token ∈ first :: others, names token.lexeme := by
      rw [whole, List.forall_mem_map]
      intro lexeme member
      exact named lexeme (List.mem_filter.1 member).1 (nonempty lexeme member)
    have idle : ∀ name ∈ Phase.start.name?, names name := by simp [Phase.name?]
    obtain ⟨outcome, events, related⟩ := alike_feed (sim _) (both r) idle mentioned
    exact ⟨congrArg Except.ok outcome, events, related⟩

end Session

end LineLang
