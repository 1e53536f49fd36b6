import LineLang.Proofs.Session.Chronicle
import LineLang.Proofs.Session.Codes
import LineLang.Proofs.Session.Simulation

/-!
# What a call does not depend on

The text of a call is recorded and has no other effect, and lexemes that are encoded before their turn
change nothing. `sameCourse_of_front`: a call on the first of several lexemes goes the way that it goes
when all of them are encoded.
-/

namespace LineLang

/-- An entry without the text of its call. -/
def Entry.unworded (entry : Entry) : Entry := { entry with statement := none }

def Journal.unworded (j : Journal) : Journal := { j with entries := j.entries.map Entry.unworded }

theorem unworded_record {j j' : Journal} (same : j'.unworded = j.unworded)
    (statement statement' : Option String) (fields : Table String Json)
    (picture : Option (Table String String)) :
    (j'.record statement' fields picture).unworded = (j.record statement fields picture).unworded := by
  obtain ⟨entries, next, last⟩ := Journal.mk.inj same
  simp only [Journal.unworded, Journal.record, Journal.entry, List.map_append, entries, next, last]
  rfl

theorem records_unworded {entry : Entry} {event : Event} (h : entry.Records event) :
    entry.unworded.Records event := h

namespace Session

/-- The sessions have the same symbols, and the same records but for the texts of the calls. -/
structure SameState (s s' : Session) : Prop where
  symbols_eq : s'.symbols = s.symbols
  journal_eq : s'.journal.unworded = s.journal.unworded

theorem sameState_trans {s₁ s₂ s₃ : Session} (h₁ : SameState s₁ s₂) (h₂ : SameState s₂ s₃) :
    SameState s₁ s₃ :=
  ⟨h₂.symbols_eq.trans h₁.symbols_eq, h₂.journal_eq.trans h₁.journal_eq⟩

theorem sameState_symm {s s' : Session} (h : SameState s s') : SameState s' s :=
  ⟨h.symbols_eq.symm, h.journal_eq.symm⟩

/-- Two calls have the same outcome, print the same and leave the same state. -/
structure SameCourse (call call' : Outcome × Session × List Event) : Prop where
  outcome_eq : call'.1 = call.1
  events_eq : call'.2.2 = call.2.2
  state : SameState call.2.1 call'.2.1

/-! ### The text of a call -/

theorem simulation_sameState (text text' : String) :
    Simulation (fun _ => True) text text' fun s s' => SameSetting s s' ∧ SameState s s' where
  setting h := h.1
  get?_eq h _ := by rw [h.2.symbols_eq]
  insert _ h _ := ⟨⟨h.1.registry_eq, h.1.dialect_eq, h.1.verbose_eq⟩, by rw [h.2.symbols_eq],
    h.2.journal_eq⟩
  note event h := by
    obtain ⟨setting, same⟩ := h
    refine ⟨⟨setting.registry_eq, setting.dialect_eq, setting.verbose_eq⟩, same.symbols_eq, ?_⟩
    unfold note
    rw [setting.verbose_eq, same.symbols_eq]
    exact unworded_record same.journal_eq _ _ _ _
  encode _ h := ⟨⟨rfl, h.1.dialect_eq, h.1.verbose_eq⟩, h.2.symbols_eq, h.2.journal_eq⟩

/-- Sessions in the same state read tokens alike, whatever the text of the call. -/
theorem sameCourse_feed {s s' : Session} (setting : SameSetting s s') (same : SameState s s')
    (text text' : String) (phase : Phase) (tokens : List Token) :
    SameCourse (s.feed text phase tokens) (s'.feed text' phase tokens) := by
  have within : ∀ name ∈ phase.name?, True := fun _ _ => trivial
  have named : ∀ token ∈ tokens, True := fun _ _ => trivial
  obtain ⟨outcome, events, -, state⟩ :=
    alike_feed (simulation_sameState text text') ⟨setting, same⟩ within named
  exact ⟨outcome, events, state⟩

/-! ### Lexemes that are encoded before their turn -/

section Registry

variable {made : Registry} {s : Session} (h : s.MadeFrom made) {r r' : Registry}
  (leads : s.registry.Leads r) (grows : r.Leads r') (words : r.SameReserved r')
include h leads grows words

theorem sameToken_of_leads {lexeme : String} (encodes : r.Encodes lexeme (r.token lexeme)) :
    SameToken s.dialect s.dialect r r' (r.token lexeme) (r'.token lexeme) := by
  have now := Registry.reachable_of_leads h.reachable (Registry.leads_trans h.leads leads)
  have coherent := Registry.coherent_of_reachable now
  have coherent' := Registry.coherent_of_reachable (Registry.reachable_of_leads now grows)
  have encodes' := Registry.encodes_of_grows (Registry.grows_of_leads grows) words encodes
  rw [← Registry.eq_token_of_encodes encodes']
  refine ⟨rfl, rfl, rfl, ?_⟩
  rw [Registry.decode_of_codeFor coherent encodes.codeFor_eq,
    Registry.decode_of_codeFor coherent' encodes'.codeFor_eq]

/-- Lexemes are read alike when more lexemes have been encoded. -/
theorem sameCourse_of_leads (text : String) {lexemes : List String}
    (encoded : ∀ lexeme ∈ lexemes, r.Encodes lexeme (r.token lexeme)) :
    SameCourse (feed { s with registry := r } text .start (lexemes.map r.token))
      (feed { s with registry := r' } text .start (lexemes.map r'.token)) := by
  have same : List.Forall₂ (SameToken s.dialect s.dialect r r') (lexemes.map r.token)
      (lexemes.map r'.token) := by
    rw [List.forall₂_map_left_iff, List.forall₂_map_right_iff, List.forall₂_same]
    exact fun lexeme member => sameToken_of_leads h leads grows words (encoded lexeme member)
  have weigh : ∀ code code', s.dialect.weight code = s.dialect.weight code' := by
    intro code code'
    rw [h.dialect_eq, Dialect.weight_ofRegistry, Dialect.weight_ofRegistry]
  have fed := feed_on (s := { s with registry := r }) text weigh .start same
  have setting : on { s with registry := r } r' s.dialect = { s with registry := r' } := rfl
  rw [setting] at fed
  rw [fed]
  exact ⟨rfl, rfl, rfl, rfl⟩

end Registry

/-! ### The first lexemes of a call -/

/-- A call is run on its lexemes that are not empty. -/
theorem execute_filter (s : Session) (lexemes : List String) :
    s.execute (lexemes.filter (· ≠ "")) = s.execute lexemes := by
  simp [execute, List.filter_filter]

theorem sameCourse_trans {a b c : Outcome × Session × List Event} (h₁ : SameCourse a b)
    (h₂ : SameCourse b c) : SameCourse a c :=
  ⟨h₂.outcome_eq.trans h₁.outcome_eq, h₂.events_eq.trans h₁.events_eq, sameState_trans h₁.state h₂.state⟩

/-- A call goes as its tokens go under another text. -/
theorem sameCourse_of_encodeAll {s : Session} {lexemes : List String} {tokens : List Token}
    {r : Registry} (nonempty : ∀ lexeme ∈ lexemes, lexeme ≠ "") (some : lexemes ≠ [])
    (encoded : s.registry.encodeAll lexemes = (.ok tokens, r)) (text : String) :
    ∃ call, s.execute lexemes = (.ok call.1, call.2) ∧
      SameCourse call (feed { s with registry := r } text .start tokens) :=
  ⟨_, execute_of_encodeAll nonempty some encoded,
    sameCourse_feed (s := { s with registry := r }) ⟨rfl, rfl, rfl⟩ ⟨rfl, rfl⟩ _ text .start tokens⟩

section Front

variable {made : Registry} {s : Session} (h : s.MadeFrom made) {front back : List String}
  {tokens : List Token} {r : Registry} (nonempty : ∀ lexeme ∈ front ++ back, lexeme ≠ "")
  (encoded : s.registry.encodeAll (front ++ back) = (.ok tokens, r))
include h nonempty encoded

/-- A call on the first lexemes goes as they go when all are encoded, and the others can be encoded
behind it. -/
theorem sameCourse_of_front (some : front ≠ []) (text : String) :
    ∃ call, s.execute front = (.ok call.1, call.2) ∧
      SameCourse call (feed { s with registry := r } text .start (front.map r.token)) ∧
        call.2.1.registry.encodeAll back = (.ok (back.map r.token), r) := by
  obtain ⟨first, middle, second, one, two, rfl⟩ := Registry.encodeAll_append_eq_ok encoded
  have nonemptyFront : ∀ lexeme ∈ front, lexeme ≠ "" := fun lexeme member =>
    nonempty lexeme (List.mem_append_left _ member)
  have nonemptyBack : ∀ lexeme ∈ back, lexeme ≠ "" := fun lexeme member =>
    nonempty lexeme (List.mem_append_right _ member)
  have leads := (Registry.leads_encodeAll s.registry front).1
  have grows := Registry.leads_encodeAll middle back
  rw [one] at leads
  rw [two] at grows
  obtain ⟨rfl, here⟩ := Registry.tokens_of_encodeAll nonemptyFront one
  obtain ⟨rfl, -⟩ := Registry.tokens_of_encodeAll nonemptyBack two
  refine ⟨_, execute_of_encodeAll nonemptyFront some one, ?_, ?_⟩
  · exact sameCourse_trans
      (sameCourse_feed (s := { s with registry := middle }) ⟨rfl, rfl, rfl⟩ ⟨rfl, rfl⟩ _ text .start _)
      (sameCourse_of_leads h leads grows.1 grows.2 text here)
  · rw [(sameSetting_feed _ _ _ _).registry_eq]
    exact two

end Front

/-! ### The records of a call -/

/-- The records that a call adds to the journal. -/
def newRecords (s : Session) (lexemes : List String) : List Entry :=
  (s.execute lexemes).2.1.journal.entries.drop s.journal.entries.length

theorem entries_execute (s : Session) (lexemes : List String) :
    (s.execute lexemes).2.1.journal.entries = s.journal.entries ++ s.newRecords lexemes := by
  obtain ⟨-, entries, whole, -⟩ := logs_execute s lexemes
  rw [newRecords, whole, List.drop_left]

theorem entries_of_sameState {s s' : Session} (same : SameState s s') :
    s'.journal.entries.map Entry.unworded = s.journal.entries.map Entry.unworded :=
  (Journal.mk.inj same.journal_eq).1

theorem newRecords_of_sameState {s : Session} {lexemes lexemes' : List String}
    (same : SameState (s.execute lexemes).2.1 (s.execute lexemes').2.1) :
    (s.newRecords lexemes').map Entry.unworded = (s.newRecords lexemes).map Entry.unworded := by
  simp only [newRecords, List.map_drop, entries_of_sameState same]

end Session

end LineLang
