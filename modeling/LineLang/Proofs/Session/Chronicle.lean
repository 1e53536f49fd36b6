import LineLang.Proofs.Effect
import LineLang.Proofs.Session.Run

/-!
# The journal tells what happened

`faithful_actAll`: the records of a session, read in order from its first symbols, give the symbols
it has now; every line that was printed is the text of the record made with it, and every picture
shows the symbols as they were behind its record.
-/

namespace LineLang

/-- Every name with its value as it is shown. -/
def SymbolTable.shown (t : SymbolTable) : Table String String := t.map Value.shown

def SymbolTable.typeName (t : SymbolTable) (name : String) : String :=
  ((t.get? name).map (·.ty.name)).getD ""

/-! ### Reading a record -/

namespace Entry

def text? (entry : Entry) (field : String) : Option String :=
  match entry.fields.get? field with
  | some (.string text) => some text
  | _ => none

/-- Whether the entry was made before anything was run. -/
def isSeed (entry : Entry) : Bool := entry.text? "rule" == some "SEED"

/-- Carries out a record on the names and their shown values, if it fits them. -/
def replay (t : Table String String) (entry : Entry) : Option (Table String String) :=
  match entry.text? "rule", entry.text? "name", entry.text? "value" with
  | some "DECL", some name, some value | some "DECL_INIT", some name, some value =>
    if t.contains name then none else some (t.insert name value)
  | some "ASSIGN", some name, some value => if t.contains name then some (t.insert name value) else none
  | some "ERROR", _, _ | some "INCOMPLETE", _, _ => some t
  | _, _, _ => none

/-- The line that is printed with a record, given the symbols that its name is found in. -/
def line? (t : SymbolTable) (entry : Entry) : Option String := do
  match ← entry.text? "rule" with
  | "DECL" =>
    let name ← entry.text? "name"
    let value ← entry.text? "value"
    let type := t.typeName name
    return s!"    decl {name}:{type} = {value}"
  | "DECL_INIT" =>
    let name ← entry.text? "name"
    let value ← entry.text? "value"
    let type := t.typeName name
    return s!"    decl-init {name}:{type} = {value}"
  | "ASSIGN" =>
    let name ← entry.text? "name"
    let value ← entry.text? "value"
    return s!"    assign {name} = {value}"
  | "ERROR" =>
    let message ← entry.text? "message"
    let lexeme ← entry.text? "lexeme"
    return s!"!   {message} near '{lexeme}'"
  | "INCOMPLETE" => return "!   Incomplete statement (missing ';')"
  | _ => none

end Entry

/-- The fields of an entry say of an event what there is to say. -/
def Entry.Records (entry : Entry) (event : Event) : Prop :=
  ∀ detail ∈ ("rule", event.rule) :: event.details, entry.text? detail.1 = some detail.2

theorem get?_fields {event : Event} {field text : String}
    (h : (field, text) ∈ ("rule", event.rule) :: event.details) :
    event.fields.get? field = some (.string text) := by
  unfold Event.fields
  rw [Table.get?_ofList_eq_some_iff]
  · exact List.mem_map.2 ⟨_, h, rfl⟩
  · intro field value value' one two
    cases event <;> simp [Event.details] at one two <;> grind

theorem details_ne_state {event : Event} {field text : String}
    (h : (field, text) ∈ ("rule", event.rule) :: event.details) :
    field ≠ fromField ∧ field ≠ toField := by
  unfold fromField toField
  cases event <;> simp [Event.details] at h <;> grind

theorem text?_entry (j : Journal) (statement : Option String) {fields : Table String Json}
    (picture : Option (Table String String)) {field text : String} (noSource : field ≠ fromField)
    (noTarget : field ≠ toField) (h : fields.get? field = some (.string text)) :
    (j.entry statement fields picture).text? field = some text := by
  have kept : (j.entry statement fields picture).fields.get? field = some (.string text) := by
    unfold Journal.entry
    dsimp only
    rw [Table.get?_insert, if_neg noTarget]
    split
    · exact h
    · rw [Table.get?_insert, if_neg noSource, h]
  rw [Entry.text?, kept]

theorem records_entry (j : Journal) (statement : Option String) (event : Event)
    (picture : Option (Table String String)) :
    (j.entry statement event.fields picture).Records event := by
  intro ⟨field, text⟩ member
  obtain ⟨noSource, noTarget⟩ := details_ne_state member
  exact text?_entry j statement picture noSource noTarget (get?_fields member)

/-! ### A record and its event -/

@[simp] theorem get?_shown (t : SymbolTable) (name : String) :
    t.shown.get? name = (t.get? name).map Value.shown :=
  Table.get?_map Value.shown t name

@[simp] theorem shown_insert (t : SymbolTable) (name : String) (value : Value) :
    SymbolTable.shown (t.insert name value) = t.shown.insert name value.shown :=
  Table.map_insert Value.shown t name value

theorem replay_of_effect {t t' : SymbolTable} {entry : Entry} {event : Event}
    (records : entry.Records event) (effect : event.Effect t t') :
    entry.replay t.shown = some t'.shown := by
  unfold Entry.Records at records
  unfold Entry.replay
  cases effect with
  | declared absent | initialised absent =>
    simp only [Event.rule, Event.details, List.forall_mem_cons] at records
    obtain ⟨rule, name, value, -⟩ := records
    rw [rule, name, value]
    simp [Table.contains, absent]
  | assigned present fits =>
    simp only [Event.rule, Event.details, List.forall_mem_cons] at records
    obtain ⟨rule, name, value, -⟩ := records
    rw [rule, name, value]
    simp [Table.contains, present]
  | rejected | unterminated =>
    rw [(List.forall_mem_cons.1 records).1]
    rfl

theorem typeName_of_keeps {t t' : SymbolTable} (h : t.Keeps t') {name : String} {value : Value}
    (present : t.get? name = some value) : t'.typeName name = value.ty.name := by
  obtain ⟨value', present', fits⟩ := h name value present
  rw [SymbolTable.typeName, present', ← fits]
  rfl

theorem line?_of_effect {t t' final : SymbolTable} {entry : Entry} {event : Event}
    (records : entry.Records event) (effect : event.Effect t t') (keeps : t'.Keeps final) :
    entry.line? final = some event.line := by
  unfold Entry.Records at records
  unfold Entry.line?
  cases effect with
  | declared | initialised =>
    rename_i name value absent
    have type : final.typeName name = value.ty.name :=
      typeName_of_keeps keeps (by rw [Table.get?_insert, if_pos rfl])
    simp only [Event.rule, Event.details, List.forall_mem_cons] at records
    obtain ⟨rule, named, valued, -⟩ := records
    rw [rule, named, valued]
    simp only [Option.bind_eq_bind, Option.bind_some, type]
    rfl
  | assigned | rejected =>
    simp only [Event.rule, Event.details, List.forall_mem_cons] at records
    simp only [records]
    rfl
  | unterminated =>
    rw [(List.forall_mem_cons.1 records).1]
    rfl

/-! ### Chronicles -/

/-- Records and events that lead from one symbol table to another. -/
inductive Chronicle (verbose : Bool) : SymbolTable → List Entry → List Event → SymbolTable → Prop where
  | nil (t : SymbolTable) : Chronicle verbose t [] [] t
  | cons {t t' t'' : SymbolTable} {entry : Entry} {event : Event} {entries : List Entry}
      {events : List Event} :
      entry.Records event → entry.picture = (if verbose then some t'.picture else none) →
        event.Effect t t' → Chronicle verbose t' entries events t'' →
          Chronicle verbose t (entry :: entries) (event :: events) t''

section

variable {verbose : Bool} {t t' : SymbolTable} {entries : List Entry} {events : List Event}

theorem chronicle_append (h : Chronicle verbose t entries events t') {t'' : SymbolTable}
    {entries' : List Entry} {events' : List Event} (h' : Chronicle verbose t' entries' events' t'') :
    Chronicle verbose t (entries ++ entries') (events ++ events') t'' := by
  induction h with
  | nil => exact h'
  | cons records picture effect _ ih => exact .cons records picture effect (ih h')

theorem keeps_of_chronicle (h : Chronicle verbose t entries events t') : t.Keeps t' := by
  induction h with
  | nil t => exact keeps_refl t
  | cons _ _ effect _ ih => exact keeps_trans (keeps_of_effect effect) ih

theorem replay_of_chronicle (h : Chronicle verbose t entries events t') :
    entries.foldlM Entry.replay t.shown = some t'.shown := by
  induction h with
  | nil => rfl
  | cons records _ effect _ ih => rwa [List.foldlM_cons, replay_of_effect records effect]

theorem lines_of_chronicle (h : Chronicle verbose t entries events t') :
    entries.map (Entry.line? t') = (events.map Event.line).map some := by
  induction h with
  | nil => rfl
  | cons records _ effect rest ih =>
    have keeps := keeps_of_chronicle rest
    rw [List.map_cons, List.map_cons, List.map_cons, line?_of_effect records effect keeps, ih]

theorem entries_picture {t last : SymbolTable} (keeps : t.Keeps last) : t.picture.entries =
    t.shown.entries.map fun entry => (entry.1, s!"{last.typeName entry.1}:{entry.2}") := by
  simp only [SymbolTable.picture, SymbolTable.shown, Table.map, List.map_map]
  refine List.map_congr_left fun entry member => ?_
  have type := typeName_of_keeps keeps ((Table.get?_eq_some_iff t entry.1 entry.2).2 member)
  simp only [Function.comp_apply, type]

theorem picture_of_chronicle (h : Chronicle verbose t entries events t') {before behind : List Entry}
    {entry : Entry} (whole : entries = before ++ entry :: behind) :
    ∃ here : SymbolTable, (before ++ [entry]).foldlM Entry.replay t.shown = some here.shown ∧
      here.Keeps t' ∧ entry.picture = if verbose then some here.picture else none := by
  induction h generalizing before with
  | nil => simp at whole
  | @cons t t₁ t₂ first event entries events records picture effect rest ih =>
    cases before with
    | nil =>
      obtain ⟨rfl, rfl⟩ := List.cons.inj whole
      exact ⟨t₁, by rw [List.nil_append, List.foldlM_cons, replay_of_effect records effect]; rfl,
        keeps_of_chronicle rest, picture⟩
    | cons _ before =>
      obtain ⟨rfl, others⟩ := List.cons.inj whole
      obtain ⟨here, replayed, keeps, pictured⟩ := ih others
      exact ⟨here, by rwa [List.cons_append, List.foldlM_cons, replay_of_effect records effect], keeps,
        pictured⟩

theorem isSeed_of_records {entry : Entry} {event : Event} (h : entry.Records event) :
    entry.isSeed = false := by
  rw [Entry.isSeed, (List.forall_mem_cons.1 h).1]
  cases event <;> rfl

theorem filter_of_chronicle (h : Chronicle verbose t entries events t') :
    entries.filter (fun entry => !entry.isSeed) = entries := by
  induction h with
  | nil => rfl
  | cons records _ _ _ ih =>
    rw [List.filter_cons_of_pos (by rw [isSeed_of_records records]; rfl), ih]

end

namespace Session

/-- One session becomes another while events are printed and recorded. -/
structure Logs (s : Session) (events : List Event) (s' : Session) : Prop where
  verbose_eq : s'.verbose = s.verbose
  entries : ∃ entries, s'.journal.entries = s.journal.entries ++ entries ∧
    Chronicle s.verbose s.symbols entries events s'.symbols

theorem logs_refl (s : Session) : s.Logs [] s :=
  ⟨rfl, [], (List.append_nil _).symm, .nil _⟩

theorem logs_trans {s₁ s₂ s₃ : Session} {events events' : List Event} (h₁ : s₁.Logs events s₂)
    (h₂ : s₂.Logs events' s₃) : s₁.Logs (events ++ events') s₃ := by
  obtain ⟨verbose, entries, whole, chronicle⟩ := h₁
  obtain ⟨verbose', entries', whole', chronicle'⟩ := h₂
  rw [verbose] at chronicle'
  exact ⟨verbose'.trans verbose, entries ++ entries', by rw [whole', whole, List.append_assoc],
    chronicle_append chronicle chronicle'⟩

theorem logs_note {s : Session} {symbols : SymbolTable} {event : Event} (text : String)
    (effect : event.Effect s.symbols symbols) : s.Logs [event] (note { s with symbols } text event) :=
  ⟨rfl, [_], rfl, .cons (records_entry _ _ _ _) rfl effect (.nil _)⟩

theorem logs_perform {s s' : Session} {text : String} {write : Write} {event : Event}
    (h : s.perform text write = .ok (s', event)) : s.Logs [event] s' := by
  obtain ⟨symbols, ran, rfl⟩ := perform_eq_ok h
  exact logs_note text (effect_of_run ran)

theorem logs_of_course {text : String} {s s' : Session} {outcome : Outcome} {events : List Event}
    (h : Course text s outcome s' events) : s.Logs events s' := by
  induction h with
  | accepted s => exact logs_refl s
  | rejected s fault lexeme => exact logs_note text (.rejected fault lexeme)
  | unterminated s report => exact logs_note text (.unterminated report.fault)
  | last performed => exact logs_perform performed
  | statement performed _ ih => exact logs_trans (logs_perform performed) ih

theorem logs_feed (s : Session) (text : String) (phase : Phase) (tokens : List Token) :
    s.Logs (s.feed text phase tokens).2.2 (s.feed text phase tokens).2.1 :=
  logs_of_course (course_feed s text phase tokens)

theorem logs_execute (s : Session) (lexemes : List String) :
    s.Logs (s.execute lexemes).2.2 (s.execute lexemes).2.1 := by
  have encoded (r : Registry) : s.Logs [] { s with registry := r } :=
    ⟨rfl, [], (List.append_nil _).symm, .nil _⟩
  rcases execute_cases s lexemes with ⟨e, r, -, result⟩ | ⟨r, -, result⟩ | ⟨tokens, r, -, -, result⟩
  · rw [result]
    exact encoded r
  · rw [result]
    exact encoded r
  · rw [result]
    exact logs_trans (encoded r) (logs_feed _ _ _ _)

/-! ### Histories -/

theorem logs_actAll (s : Session) (activities : List Activity) :
    s.Logs (s.actAll activities).1 (s.actAll activities).2 := by
  induction activities generalizing s with
  | nil => exact logs_refl s
  | cons activity activities ih =>
    have here : s.Logs (s.act activity).1 (s.act activity).2 := by
      cases activity with
      | call lexemes => exact logs_execute s lexemes
      | registry operation => exact ⟨rfl, [], (List.append_nil _).symm, .nil _⟩
    exact logs_trans here (ih _)

/-- The entries of the journal for what was run. -/
def records (s : Session) : List Entry := s.journal.entries.filter fun entry => !entry.isSeed

/-- The records of a session lead from its first symbols to the last ones and tell all that was printed
and pictured in between. -/
structure Faithful (first : SymbolTable) (verbose : Bool) (records : List Entry)
    (printed : List String) (last : SymbolTable) : Prop where
  replay : records.foldlM Entry.replay first.shown = some last.shown
  lines : records.map (Entry.line? last) = printed.map some
  pictures : ∀ before entry behind, records = before ++ entry :: behind →
    ∃ shown, (before ++ [entry]).foldlM Entry.replay first.shown = some shown ∧
      entry.picture.map Table.entries = if verbose then
        some (shown.entries.map fun entry => (entry.1, s!"{last.typeName entry.1}:{entry.2}"))
      else none

theorem faithful_actAll (made : Registry) (symbols : SymbolTable) (verbose : Bool)
    (activities : List Activity) :
    Faithful symbols verbose ((start made symbols verbose).actAll activities).2.records
      (((start made symbols verbose).actAll activities).1.map Event.line)
      ((start made symbols verbose).actAll activities).2.symbols := by
  obtain ⟨-, entries, whole, chronicle⟩ := logs_actAll (start made symbols verbose) activities
  have seed : (start made symbols verbose).records = [] := rfl
  have records : ((start made symbols verbose).actAll activities).2.records = entries := by
    rw [Session.records, whole, List.filter_append, filter_of_chronicle chronicle]
    exact congrArg (· ++ entries) seed
  rw [records]
  refine ⟨replay_of_chronicle chronicle, lines_of_chronicle chronicle, ?_⟩
  intro before entry behind split
  obtain ⟨here, replayed, keeps, pictured⟩ := picture_of_chronicle chronicle split
  refine ⟨here.shown, replayed, ?_⟩
  rw [pictured, ← entries_picture keeps]
  cases verbose <;> rfl

end Session

end LineLang
