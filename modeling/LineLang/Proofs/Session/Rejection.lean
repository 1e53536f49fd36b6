import LineLang.Proofs.Session.Sequence
import Mathlib.Data.List.DropRight

/-!
# What a rejected call leaves

`execute_rejected`: a rejected call has carried out the statements up to the last semicolon before its
fault and reports the fault once; the statement with the fault and all that stands behind it are without
effect.
-/

namespace LineLang

/-- A list is cut behind its last element with a property. -/
theorem exists_last_cut {α : Type} (p : α → Prop) [DecidablePred p] (l : List α) :
    ∃ front back, l = front ++ back ∧ (∀ a ∈ front.getLast?, p a) ∧ ∀ a ∈ back, ¬p a := by
  refine ⟨l.rdropWhile fun a => !decide (p a), l.rtakeWhile fun a => !decide (p a),
    List.rdropWhile_append_rtakeWhile.symm, ?_, ?_⟩
  · intro a last
    obtain ⟨init, whole⟩ := List.getLast?_eq_some_iff.1 last
    have kept := List.rdropWhile_last_not (fun a => !decide (p a)) l (by rw [whole]; simp)
    simpa [whole] using kept
  · intro a member
    simpa using List.mem_rtakeWhile_imp member

namespace Session

theorem roleOf_of_encodes {s : Session} {lexeme : String} (nonempty : lexeme ≠ "")
    (h : s.registry.Encodes lexeme (s.registry.token lexeme)) :
    s.roleOf lexeme = some (s.dialect.classify (s.registry.token lexeme)) := by
  rw [roleOf, Registry.encode_of_encodes nonempty h]

/-- A lexeme of a call is read in the role that it has when all are encoded. -/
theorem roleOf_execute {s : Session} {lexemes : List String} {tokens : List Token} {r : Registry}
    (encoded : s.registry.encodeAll (lexemes.filter (· ≠ "")) = (.ok tokens, r)) :
    ∀ lexeme ∈ lexemes.filter (· ≠ ""), (s.execute lexemes).2.1.roleOf lexeme =
      some (s.dialect.classify (r.token lexeme)) := by
  have nonempty := @ne_empty_of_mem_filter lexemes
  have dialect := (setting_of_execute s lexemes).2.2.1
  have registry := registry_execute s lexemes
  rw [encoded] at registry
  obtain ⟨-, encodes⟩ := Registry.tokens_of_encodeAll nonempty encoded
  intro lexeme member
  rw [roleOf_of_encodes (nonempty lexeme member) (registry.symm ▸ encodes lexeme member), registry,
    dialect]

/-- A rejected call has read statements up to a semicolon, tokens of another statement, and a token with
a fault. -/
theorem cut_of_rejected {text : String} {s : Session} {tokens : List Token} {report : Report}
    (h : (s.feed text .start tokens).1 = .rejected report) :
    ∃ done begun token behind events s₁ phase fault lexeme,
      tokens = done ++ begun ++ token :: behind ∧
      (∀ last ∈ done.getLast?, s.dialect.classify last = .semicolon) ∧
      (∀ other ∈ begun, s.dialect.classify other ≠ .semicolon) ∧
      Reads text s .start done events s₁ .start ∧ Reads text s₁ .start begun [] s₁ phase ∧
      s₁.Faults phase token fault lexeme ∧ report = ⟨fault, some lexeme⟩ := by
  obtain ⟨before, token, behind, events, s₁, phase, fault, lexeme, rfl, reads, faults, rfl⟩ :=
    faults_of_rejected h
  obtain ⟨done, begun, rfl, closed, unclosed⟩ :=
    exists_last_cut (fun token => s.dialect.classify token = .semicolon) before
  obtain ⟨first, s₂, between, second, one, two, rfl⟩ := reads_append reads
  obtain ⟨rfl, rfl⟩ := eq_of_reads two ((sameSetting_of_reads one).dialect_eq ▸ unclosed)
  obtain rfl := start_of_closed one closed
  exact ⟨done, begun, token, behind, first, s₁, phase, fault, lexeme, rfl, closed, unclosed, one, two,
    faults, rfl⟩

/-- A call with `lexemes` is rejected at `offending`, behind the statements in `done` and the lexemes in
`begun` of another one. -/
structure RejectedAt (s : Session) (lexemes done begun : List String) (offending : String)
    (report : Report) : Prop where
  /-- The offending lexeme is the first that makes a call be rejected. -/
  passed : done ++ begun ≠ [] →
    ∃ outcome, (s.execute (done ++ begun)).1 = .ok outcome ∧ outcome.isOk
  stopped : (s.execute (done ++ begun ++ [offending])).1 = .ok (.rejected report)
  /-- What is done ends with the last semicolon before the offending lexeme. -/
  closed : ∀ word ∈ done.getLast?, (s.execute lexemes).2.1.roleOf word = some .semicolon
  unclosed : ∀ word ∈ begun, (s.execute lexemes).2.1.roleOf word ≠ some .semicolon
  /-- A call on what is done has the same effect. On no lexemes it has none. -/
  accepted : done ≠ [] → (s.execute done).1 = .ok .accepted
  symbols : (s.execute lexemes).2.1.symbols = (s.execute done).2.1.symbols
  reported : ∃ lexeme entry, report.lexeme = some lexeme ∧
    (s.execute lexemes).2.2.map Event.line =
      (s.execute done).2.2.map Event.line ++ [s!"!   {report.fault.message} near '{lexeme}'"] ∧
    (s.newRecords lexemes).map Entry.unworded =
      (s.newRecords done).map Entry.unworded ++ [entry] ∧
    entry.text? "rule" = some "ERROR" ∧ entry.text? "error" = some report.fault.kind ∧
    entry.text? "message" = some report.fault.message ∧ entry.text? "lexeme" = some lexeme
  /-- Other lexemes behind the offending one make no difference. -/
  independent : ∀ others : List String,
    (s.registry.encodeAll ((done ++ begun ++ offending :: others).filter (· ≠ ""))).1.isOk →
      (s.execute (done ++ begun ++ offending :: others)).1 = .ok (.rejected report) ∧
      (s.execute (done ++ begun ++ offending :: others)).2.2 = (s.execute lexemes).2.2 ∧
      (s.execute (done ++ begun ++ offending :: others)).2.1.symbols =
        (s.execute lexemes).2.1.symbols ∧
      (s.newRecords (done ++ begun ++ offending :: others)).map Entry.unworded =
        (s.newRecords lexemes).map Entry.unworded

/-! ### The rejected call -/

/-- A call that ends in a note has one record more than there were before it. -/
theorem newRecords_of_sameNote {s s₁ : Session} {lexemes : List String} {text : String} {event : Event}
    {records : List Entry} (final : SameState (s₁.note text event) (s.execute lexemes).2.1)
    (before : s₁.journal.entries.map Entry.unworded =
      s.journal.entries.map Entry.unworded ++ records) :
    ∃ entry, (s.newRecords lexemes).map Entry.unworded = records ++ [entry] ∧
      entry.Records event := by
  have noted : (s₁.note text event).journal.entries = s₁.journal.entries ++
      [s₁.journal.entry (some text) event.fields
        (if s₁.verbose then some s₁.symbols.picture else none)] := rfl
  have whole := entries_of_sameState final
  rw [entries_execute, List.map_append, noted, List.map_append, before, List.append_assoc] at whole
  have recorded := records_entry s₁.journal (some text) event
    (if s₁.verbose then some s₁.symbols.picture else none)
  exact ⟨_, List.append_cancel_left whole, records_unworded recorded⟩

theorem newRecords_of_note {s s₁ : Session} {lexemes done : List String} {text : String}
    {event : Event} (final : (s.execute lexemes).2.1 = s₁.note text event)
    (state : SameState (s.execute done).2.1 s₁) :
    ∃ entry, (s.newRecords lexemes).map Entry.unworded =
      (s.newRecords done).map Entry.unworded ++ [entry] ∧ entry.Records event := by
  have before := entries_of_sameState state
  rw [entries_execute, List.map_append] at before
  have same : SameState (s₁.note text event) (s.execute lexemes).2.1 := by
    rw [final]
    exact ⟨rfl, rfl⟩
  exact newRecords_of_sameNote same before

/-- A rejected call that is not empty has encoded its lexemes and then stopped at a fault. -/
theorem feed_of_execute_rejected {s : Session} {lexemes : List String}
    (any : ∃ lexeme ∈ lexemes, lexeme ≠ "") {report : Report}
    (rejected : (s.execute lexemes).1 = .ok (.rejected report)) :
    ∃ r text, s.registry.encodeAll (lexemes.filter (· ≠ "")) =
        (.ok ((lexemes.filter (· ≠ "")).map r.token), r) ∧
      (s.execute lexemes).2 =
        (feed { s with registry := r } text .start ((lexemes.filter (· ≠ "")).map r.token)).2 ∧
      (feed { s with registry := r } text .start ((lexemes.filter (· ≠ "")).map r.token)).1 =
        .rejected report ∧
      ∀ lexeme ∈ lexemes.filter (· ≠ ""), (s.execute lexemes).2.1.roleOf lexeme =
        some (s.dialect.classify (r.token lexeme)) := by
  have nonempty := @ne_empty_of_mem_filter lexemes
  rcases execute_cases s lexemes with ⟨e, r, -, result⟩ | ⟨r, encoded, -⟩ |
    ⟨tokens, r, encoded, -, result⟩
  · rw [result] at rejected
    cases rejected
  · obtain ⟨lexeme, member, some⟩ := any
    have none := (Registry.tokens_of_encodeAll nonempty encoded).1
    rw [eq_comm, List.map_eq_nil_iff, List.filter_eq_nil_iff] at none
    exact absurd (none lexeme member) (by simpa using some)
  · have roles := roleOf_execute encoded
    obtain ⟨rfl, -⟩ := Registry.tokens_of_encodeAll nonempty encoded
    rw [result] at rejected roles ⊢
    exact ⟨r, _, encoded, rfl, Except.ok.inj rejected, roles⟩

/-- Every rejected call that is not empty has such parts. -/
theorem execute_rejected {made : Registry} {s : Session} (h : s.MadeFrom made)
    {lexemes : List String} (any : ∃ lexeme ∈ lexemes, lexeme ≠ "") {report : Report}
    (rejected : (s.execute lexemes).1 = .ok (.rejected report)) :
    ∃ done begun offending behind, lexemes.filter (· ≠ "") = done ++ begun ++ offending :: behind ∧
      s.RejectedAt lexemes done begun offending report := by
  obtain ⟨r, text, encoded, whole, stopped, roles⟩ := feed_of_execute_rejected any rejected
  have nonempty := @ne_empty_of_mem_filter lexemes
  have filtered := execute_filter s lexemes
  have encodable : (s.registry.encodeAll ((lexemes.filter (· ≠ "")).filter (· ≠ ""))).1.isOk := by
    rw [List.filter_filter]
    simp only [Bool.and_self, encoded]
    rfl
  generalize lexemes.filter (· ≠ "") = words
    at encoded whole stopped roles nonempty filtered encodable ⊢
  obtain ⟨_, _, _, _, events, s₁, phase, fault, lexeme, cut, closed, unclosed, one, two, faults, rfl⟩ :=
    cut_of_rejected stopped
  obtain ⟨_, _, rfl, front, back⟩ := List.map_eq_append_iff.1 cut
  obtain ⟨done, begun, rfl, rfl, rfl⟩ := List.map_eq_append_iff.1 front
  obtain ⟨offending, behind, rfl, rfl, rfl⟩ := List.map_eq_cons_iff.1 back
  have all := reads_trans one two
  rw [← List.map_append, List.append_nil] at all
  rw [List.map_append, feed_of_reads all, List.map_cons, feed_of_faults text faults] at whole
  -- the call is split behind its last semicolon, before the fault, and behind it
  have split₁ : done ++ begun ++ offending :: behind = done ++ (begun ++ offending :: behind) :=
    List.append_assoc ..
  have split₂ (others : List String) :
      done ++ begun ++ offending :: others = done ++ begun ++ [offending] ++ others := by simp
  obtain ⟨accepted, printed, state⟩ :=
    execute_of_reads_start h (split₁ ▸ nonempty) (split₁ ▸ encoded) one
  have stops : (s.execute (done ++ begun ++ [offending])).1 = .ok (.rejected ⟨fault, some lexeme⟩) :=
    execute_of_faults h (split₂ behind ▸ nonempty) (split₂ behind ▸ encoded) List.map_append all faults
  have final : (s.execute lexemes).2.1 = s₁.note text (.rejected fault lexeme) := by
    rw [whole]
    rfl
  refine ⟨done, begun, offending, behind, rfl, ?_⟩
  constructor
  · exact execute_of_reads h nonempty encoded all
  · exact stops
  · intro word last
    rw [roles word (by simp [List.mem_of_getLast? last])]
    exact congrArg some (closed (r.token word) (by rw [List.getLast?_map, last]; rfl))
  · intro word member same
    rw [roles word (by simp [member])] at same
    exact unclosed (r.token word) (List.mem_map_of_mem member) (Option.some.inj same)
  · exact accepted
  · rw [final]
    exact state.symbols_eq
  · obtain ⟨entry, added, records⟩ := newRecords_of_note final state
    simp only [Entry.Records, Event.rule, Event.details, List.forall_mem_cons] at records
    obtain ⟨rule, error, message, found, -⟩ := records
    refine ⟨lexeme, entry, rfl, ?_, added, rule, error, message, found⟩
    rw [whole, printed]
    exact List.map_append
  · intro others encodable'
    have some : (done ++ begun ++ [offending]).filter (· ≠ "") ≠ [] :=
      List.ne_nil_of_mem (List.mem_filter.2 ⟨List.mem_append_right _ (List.mem_singleton_self offending),
        by simpa using nonempty offending (by simp)⟩)
    -- both calls end where the call up to the offending lexeme ends
    rw [split₂] at encodable encodable' ⊢
    obtain ⟨outcome, events', state'⟩ := execute_append_of_rejected h some encodable' stops
    obtain ⟨-, events'', state''⟩ := execute_append_of_rejected h some encodable stops
    rw [← split₂, filtered] at events'' state''
    have same := sameState_trans (sameState_symm state'') state'
    exact ⟨outcome, events'.trans events''.symm, same.symbols_eq, newRecords_of_sameState same⟩

theorem execute_rejected_undeclared :
    ∃ done begun offending behind,
      ["int", "x", "=", "7", ";", "x", "=", "y", "+", "1", ";", "x", ";"] =
        done ++ begun ++ offending :: behind ∧
      (start Registry.vocabulary .empty true).RejectedAt
        ["int", "x", "=", "7", ";", "x", "=", "y", "+", "1", ";", "x", ";"]
        done begun offending ⟨.unknownOperand "y", some "y"⟩ := by
  have rejected : ((start Registry.vocabulary .empty true).execute
      ["int", "x", "=", "7", ";", "x", "=", "y", "+", "1", ";", "x", ";"]).1 =
        .ok (.rejected ⟨.unknownOperand "y", some "y"⟩) := by decide +kernel
  exact execute_rejected (madeFrom_start Registry.reachable_vocabulary .empty true)
    ⟨"int", by decide, by decide⟩ rejected

end Session

end LineLang
