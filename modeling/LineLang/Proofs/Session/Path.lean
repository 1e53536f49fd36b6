import LineLang.Proofs.Journal
import LineLang.Proofs.Session.Chronicle

/-!
# The path of a session

Whatever a session runs, its journal only gets notes that leave it open where they come from.
`path_of_recorded`: so the entries are one path, on which each begins where the one before it ends.
-/

namespace LineLang

theorem get?_fields_fromField (event : Event) : event.fields.get? fromField = none := by
  rw [Event.fields, Table.get?_ofList, List.lookup_eq_none_iff]
  intro pair member
  obtain ⟨detail, listed, rfl⟩ := List.mem_map.1 (List.mem_reverse.1 member)
  exact bne_iff_ne.2 fun same => (details_ne_state listed).1 same.symm

theorem Entry.text?_of_get? {entry : Entry} {field : String} {text : Option String}
    (h : entry.fields.get? field = text.map Json.string) : entry.text? field = text := by
  rw [Entry.text?, h]
  cases text <;> rfl

namespace Session

/-- One session has the journal of another with notes added, none of which says where it comes from. -/
def Extends (s s' : Session) : Prop :=
  ∃ notes : List Note, (∀ note ∈ notes, note.given.get? fromField = none) ∧
    s'.journal = s.journal.recordAll notes

theorem extends_of_journal {s s' : Session} (h : s'.journal = s.journal) : s.Extends s' :=
  ⟨[], List.forall_mem_nil _, h⟩

theorem extends_trans {s₁ s₂ s₃ : Session} (h₁ : s₁.Extends s₂) (h₂ : s₂.Extends s₃) : s₁.Extends s₃ := by
  obtain ⟨notes, silent, journal⟩ := h₁
  obtain ⟨notes', silent', journal'⟩ := h₂
  exact ⟨notes ++ notes', List.forall_mem_append.2 ⟨silent, silent'⟩,
    by rw [journal', journal, Journal.recordAll_append]⟩

theorem extends_note (s : Session) (symbols : SymbolTable) (text : String) (event : Event) :
    s.Extends (note { s with symbols } text event) :=
  ⟨[⟨some text, some event.fields, if s.verbose then some symbols.picture else none⟩],
    List.forall_mem_singleton.2 (get?_fields_fromField event), rfl⟩

theorem extends_perform {s s' : Session} {text : String} {write : Write} {event : Event}
    (h : s.perform text write = .ok (s', event)) : s.Extends s' := by
  obtain ⟨symbols, -, rfl⟩ := perform_eq_ok h
  exact extends_note s symbols text event

theorem extends_of_course {text : String} {s s' : Session} {outcome : Outcome} {events : List Event}
    (h : Course text s outcome s' events) : s.Extends s' := by
  induction h with
  | accepted => exact extends_of_journal rfl
  | rejected s fault lexeme => exact extends_note s s.symbols text _
  | unterminated s report => exact extends_note s s.symbols text _
  | last performed => exact extends_perform performed
  | statement performed _ ih => exact extends_trans (extends_perform performed) ih

theorem extends_execute (s : Session) (lexemes : List String) : s.Extends (s.execute lexemes).2.1 := by
  rcases execute_cases s lexemes with ⟨e, r, -, result⟩ | ⟨r, -, result⟩ | ⟨tokens, r, -, -, result⟩
  · rw [result]
    exact extends_of_journal rfl
  · rw [result]
    exact extends_of_journal rfl
  · rw [result]
    have encoded : s.Extends { s with registry := r } := extends_of_journal rfl
    exact extends_trans encoded (extends_of_course (course_feed _ _ _ _))

theorem extends_actAll (s : Session) (activities : List Activity) :
    s.Extends (s.actAll activities).2 := by
  induction activities generalizing s with
  | nil => exact extends_of_journal rfl
  | cons activity activities ih =>
    have here : s.Extends (s.act activity).2 := by
      cases activity with
      | call lexemes => exact extends_execute s lexemes
      | registry operation => exact extends_of_journal rfl
    exact extends_trans here (ih _)

/-- The note that every journal of a session begins with. -/
def seed : Note := ⟨some "<seed>", some (.ofList [("rule", .string "SEED")]), none⟩

theorem journal_actAll (made : Registry) (symbols : SymbolTable) (verbose : Bool)
    (activities : List Activity) :
    ∃ notes : List Note, (∀ note ∈ seed :: notes, note.given.get? fromField = none) ∧
      ((start made symbols verbose).actAll activities).2.journal = Journal.recordAll {} (seed :: notes) := by
  obtain ⟨notes, silent, journal⟩ := extends_actAll (start made symbols verbose) activities
  exact ⟨notes, List.forall_mem_cons.2 ⟨by decide, silent⟩, journal⟩

/-- A journal that records notes, with whatever fields, is a chain of states that differ. The journal of
a session is one from its seed on, and each entry leads on from where the one before it has led. -/
theorem path_of_recorded :
    (∀ notes : List Note, (Journal.recordAll {} notes).Chained notes) ∧
    ∀ (made : Registry) (symbols : SymbolTable) (verbose : Bool) (activities : List Activity),
      let journal := ((start made symbols verbose).actAll activities).2.journal
      (∃ notes, journal.Chained notes) ∧
      (∃ first, journal.entries.head? = some first ∧ first.isSeed = true ∧
        first.text? fromField = some "seed") ∧
      (∀ entry ∈ journal.entries, entry.text? toField = some entry.id) ∧
      journal.entries.IsChain fun entry next => next.text? fromField = entry.text? toField := by
  refine ⟨Journal.chained_recordAll, fun made symbols verbose activities => ?_⟩
  obtain ⟨notes, silent, journal⟩ := journal_actAll made symbols verbose activities
  have chained := Journal.chained_recordAll (seed :: notes)
  have fields {position : Nat} {entry : Entry}
      (found : (Journal.recordAll {} (seed :: notes)).entries[position]? = some entry) :=
    Journal.fields_of_chained chained silent found
  dsimp only
  rw [journal]
  refine ⟨⟨_, chained⟩, ?_, ?_, ?_⟩
  · have first : (Journal.recordAll {} (seed :: notes)).entries[0]? = some (Journal.entryAt 0 seed) := by
      rw [Journal.recordAll_eq, List.mapIdx_cons]
      rfl
    exact ⟨_, List.head?_eq_getElem?.trans first, by decide, Entry.text?_of_get? (fields first).1⟩
  · intro entry member
    obtain ⟨position, found⟩ := List.getElem?_of_mem member
    have here : (Journal.recordAll {} (seed :: notes)).states[position + 1]? = some entry.id := by
      rw [Journal.states, List.getElem?_cons_succ, List.getElem?_map, found]
      rfl
    exact Entry.text?_of_get? ((fields found).2.trans (congrArg _ here))
  · refine List.isChain_iff_getElem.2 fun position inside => ?_
    have left := (fields (List.getElem?_eq_getElem (Nat.lt_of_succ_lt inside))).2
    have reached := (fields (List.getElem?_eq_getElem inside)).1
    exact (Entry.text?_of_get? reached).trans (Entry.text?_of_get? left).symm

/-- Given fields may say where an entry comes from, but not where it leads. -/
theorem path_of_forged :
    let notes : List Note := [⟨none, none, none⟩,
      ⟨none, some (.ofList [(toField, .string "seed"), (fromField, .null)]), none⟩]
    ∃ entry, (Journal.recordAll {} notes).entries[1]? = some entry ∧
      entry.fields.get? toField = some (.string "s_000001") ∧
      entry.fields.get? fromField = some .null ∧ (Journal.recordAll {} notes).states.Nodup := by
  intro notes
  have chained := path_of_recorded.1 notes
  have made := chained.madeOf 1 _ _ rfl rfl
  refine ⟨_, rfl, ?_, made.source.trans rfl, chained.distinct⟩
  rw [made.target, made.id_eq]
  rfl

end Session

end LineLang
