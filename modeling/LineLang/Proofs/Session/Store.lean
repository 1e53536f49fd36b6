import LineLang.Proofs.Expression.Range
import LineLang.Proofs.Registry.Standard
import LineLang.Proofs.Session.Wording

/-!
# What a session does to its symbols

`ledger_of_actAll`: over any run the symbols only get names appended, keep the type of each, and hold
32-bit integers and texts. Each record changes the one name that it writes, and a new name is a lexeme
that was free for it, with the type of the keyword in front of it.
-/

namespace LineLang

/-! ### Names and words -/

/-- The keyword that declares names of a type. -/
def Ty.keyword? : Ty → Option String
  | .int => some "int"
  | .string => some "string"
  | .named _ => none

/-- A lexeme that can be the name of a value. -/
structure Registry.Nameable (r : Registry) (name : String) : Prop where
  nonempty : name ≠ ""
  unreserved : r.isReserved name = false
  unnumeric : isNumeric name = false
  unquoted : isQuoted name = false

/-- Behind empty statements the words begin with a keyword and the name that it declares. -/
def Declares (r : Registry) (ty : Ty) (name : String) (words : List String) : Prop :=
  r.Nameable name ∧ ∃ skipped keyword rest, words = skipped ++ keyword :: name :: rest ∧
    (∀ word ∈ skipped, word = ";") ∧ ty.keyword? = some keyword

/-- What the words read of a statement are in a phase, as far as they declare a name. -/
def Phase.Spelled (r : Registry) : Phase → List String → Prop
  | .start, words => ∀ word ∈ words, word = ";"
  | .afterType ty, words => ∃ skipped keyword, words = skipped ++ [keyword] ∧
      (∀ word ∈ skipped, word = ";") ∧ ty.keyword? = some keyword
  | .afterDeclared ty name, words => Declares r ty name words
  | .expression (.declaration ty name) _, words => Declares r ty name words
  | _, _ => True

def Write.Spelled (r : Registry) : Write → List String → Prop
  | .declare ty name, words | .initialise ty name _, words => Declares r ty name words
  | .assign .., _ => True

def Move.Spelled (r : Registry) : Move → List String → Prop
  | .goOn phase, words => phase.Spelled r words
  | .complete write, words => write.Spelled r words

theorem ty_zero {ty : Ty} {keyword : String} (h : ty.keyword? = some keyword) :
    (Value.zero ty).ty = ty := by
  cases ty with
  | int | string => rfl
  | named => cases h

theorem declares_append {r : Registry} {ty : Ty} {name : String} {words : List String}
    (h : Declares r ty name words) (more : List String) : Declares r ty name (words ++ more) := by
  obtain ⟨nameable, skipped, keyword, rest, rfl, empty, type⟩ := h
  exact ⟨nameable, skipped, keyword, rest ++ more, by simp, empty, type⟩

theorem spelled_start (r : Registry) : Phase.start.Spelled r [] := List.forall_mem_nil _

theorem spelled_write {r : Registry} {target : Target} {pending : Stacks} {words : List String}
    (h : (Phase.expression target pending).Spelled r words) (more : List String) (value : Value) :
    (target.write value).Spelled r (words ++ more) := by
  cases target with
  | declaration ty name => exact declares_append h more
  | assignment name => trivial

section Step

variable {made r : Registry} (reachable : made.Reachable) (leads : made.Leads r) {lexeme : String}
  {token : Token} (encodes : r.Encodes lexeme token)
include reachable leads encodes

/-- A lexeme that is read as a name is free to be one. -/
theorem nameable_of_classify (nonempty : lexeme ≠ "")
    (h : (Dialect.ofRegistry made).classify token = .name) : r.Nameable lexeme := by
  unfold Dialect.classify at h
  split at h
  · rename_i found
    obtain ⟨_, special, -⟩ := (Dialect.get?_roles_iff_hasRole reachable leads encodes _).1 found
    exact absurd h (Dialect.special_role _ special).1
  · rw [encodes.category_eq, encodes.lexeme_eq] at h
    unfold Registry.categoryFor at h
    split at h
    · rename_i symbol
      split at symbol
      · cases symbol
      split at symbol
      · cases symbol
      rename_i keyword operator
      simp only [Registry.freeCategory] at symbol
      constructor
      · exact nonempty
      · exact (Registry.isReserved_eq_false_iff r lexeme).2
          ⟨Option.not_isSome_iff_eq_none.1 keyword, Option.not_isSome_iff_eq_none.1 operator⟩
      · simpa using symbol
      · simpa using h
    all_goals cases h

/-- The words of a statement that is read on. -/
theorem spelled_step (nonempty : lexeme ≠ "") {t : SymbolTable} {phase : Phase} {words : List String}
    (h : phase.Spelled r words) {move : Move}
    (step : phase.step (.ofRegistry made) r t token = .ok move) :
    move.Spelled r (words ++ [lexeme]) := by
  cases phase with
  | start =>
    simp only [Phase.step] at step
    split at step
    · rename_i type
      cases step
      obtain rfl := Dialect.lexeme_of_classify reachable leads encodes
        (show (.keyword, "int", .intType) ∈ specialLexemes by decide) type
      exact ⟨words, "int", rfl, h, rfl⟩
    · rename_i type
      cases step
      obtain rfl := Dialect.lexeme_of_classify reachable leads encodes
        (show (.keyword, "string", .stringType) ∈ specialLexemes by decide) type
      exact ⟨words, "string", rfl, h, rfl⟩
    · cases step
      trivial
    · rename_i semicolon
      cases step
      obtain rfl := Dialect.lexeme_of_classify reachable leads encodes
        (show (.operator, ";", .semicolon) ∈ specialLexemes by decide) semicolon
      exact List.forall_mem_append.2 ⟨h, List.forall_mem_singleton.2 rfl⟩
    · cases step
  | afterType ty =>
    simp only [Phase.step] at step
    split at step
    · rename_i name
      cases step
      obtain ⟨skipped, keyword, rfl, empty, type⟩ := h
      have nameable := nameable_of_classify reachable leads encodes nonempty name
      rw [← encodes.lexeme_eq]
      exact ⟨encodes.lexeme_eq ▸ nameable, skipped, keyword, [], by simp, empty, type⟩
    · cases step
  | afterDeclared ty name =>
    simp only [Phase.step] at step
    split at step
    · cases step
      exact declares_append h [lexeme]
    · cases step
      exact declares_append h [lexeme]
    · cases step
  | afterName name =>
    simp only [Phase.step] at step
    split at step <;> cases step
    trivial
  | expression target pending =>
    simp only [Phase.step] at step
    split at step
    · obtain ⟨value, -, same⟩ := bind_eq_ok step
      cases same
      exact spelled_write h [lexeme] value
    · obtain ⟨pending', -, same⟩ := bind_eq_ok step
      cases same
      cases target with
      | declaration => exact declares_append h [lexeme]
      | assignment => trivial

end Step

/-! ### Records -/

/-- A record of a statement that was carried out, which gave a value to the name. -/
def Entry.Writes (entry : Entry) (name : String) : Prop :=
  (entry.text? "rule" = some "DECL" ∨ entry.text? "rule" = some "DECL_INIT" ∨
    entry.text? "rule" = some "ASSIGN") ∧ entry.text? "name" = some name

/-- No name is lost, moved or given another type. Tables have no name twice. -/
structure SymbolTable.Continues (t t' : SymbolTable) : Prop where
  names : t.keys <+: t'.keys
  types : t.Keeps t'

/-- What one record and the words read for it do to the symbols. -/
structure Entry.Updates (r : Registry) (words : List String) (entry : Entry) (t t' : SymbolTable) :
    Prop where
  continues : t.Continues t'
  sound : t'.Sound
  written : ∀ name, entry.Writes name →
    ∃ value, t'.get? name = some value ∧ entry.text? "value" = some value.shown
  others : ∀ name, ¬entry.Writes name → t'.get? name = t.get? name
  declared : ∀ name ∈ t'.keys, name ∉ t.keys →
    ∃ value, t'.get? name = some value ∧ Declares r value.ty name words

/-- The records of a call in their order, each with the words read for it. Words behind those do
nothing. -/
inductive Ledger (r : Registry) : List String → List Entry → SymbolTable → SymbolTable → Prop where
  | done (words : List String) (t : SymbolTable) : Ledger r words [] t t
  | update {words others : List String} {entry : Entry} {entries : List Entry}
      {t t₁ t' : SymbolTable} : entry.Updates r words t t₁ → Ledger r others entries t₁ t' →
        Ledger r (words ++ others) (entry :: entries) t t'

theorem continues_refl (t : SymbolTable) : t.Continues t := ⟨List.prefix_rfl, keeps_refl t⟩

theorem continues_trans {t₁ t₂ t₃ : SymbolTable} (h₁ : t₁.Continues t₂) (h₂ : t₂.Continues t₃) :
    t₁.Continues t₃ :=
  ⟨h₁.names.trans h₂.names, keeps_trans h₁.types h₂.types⟩

theorem continues_insert {t : SymbolTable} {name : String} {value : Value}
    (fits : ∀ old, t.get? name = some old → old.ty = value.ty) :
    t.Continues (t.insert name value) :=
  ⟨Table.keys_prefix_insert t name value, keeps_insert fits⟩

section Records

variable {r : Registry} {words : List String} {entry : Entry} {t : SymbolTable} (sound : t.Sound)
include sound

theorem updates_refl (none : ∀ name, ¬entry.Writes name) : entry.Updates r words t t where
  continues := continues_refl t
  sound := sound
  written name writes := absurd writes (none name)
  others _ _ := rfl
  declared _ present absent := absurd present absent

theorem updates_insert {name : String} {value : Value} (valid : value.Sound)
    (writes : entry.Writes name) (shown : entry.text? "value" = some value.shown)
    (fits : ∀ old, t.get? name = some old → old.ty = value.ty)
    (declares : t.get? name = none → Declares r value.ty name words) :
    entry.Updates r words t (t.insert name value) where
  continues := continues_insert fits
  sound := sound_insert sound name valid
  written word given := by
    obtain rfl : name = word := Option.some.inj (writes.2.symm.trans given.2)
    exact ⟨value, by rw [Table.get?_insert, if_pos rfl], shown⟩
  others word other := by
    rw [Table.get?_insert]
    exact if_neg fun same : word = name => other (same ▸ writes)
  declared word present absent := by
    rw [Table.keys_insert] at present
    split at present
    · exact absurd present absent
    · rename_i new
      obtain rfl : word = name := by simpa [absent] using present
      exact ⟨value, by rw [Table.get?_insert, if_pos rfl],
        declares ((Table.get?_eq_none_iff t word).2 absent)⟩

theorem updates_of_run {t' : SymbolTable} {write : Write} {event : Event}
    (ran : write.run t = .ok (t', event)) (valid : write.Sound) (spelled : write.Spelled r words)
    (records : entry.Records event) : entry.Updates r words t t' := by
  obtain ⟨ty, name, rfl, absent, rfl, rfl⟩ | ⟨name, value, rfl, absent, rfl, rfl⟩ |
    ⟨name, old, value, rfl, present, fits, rfl, rfl⟩ := run_eq_ok ran
  all_goals
    simp only [Entry.Records, Event.rule, Event.details, List.forall_mem_cons] at records
    obtain ⟨rule, named, shown, -⟩ := records
  · have type : (Value.zero ty).ty = ty := by
      obtain ⟨-, _, _, _, -, -, keyword⟩ := spelled
      exact ty_zero keyword
    exact updates_insert sound (sound_zero ty) ⟨.inl rule, named⟩ shown (by simp [absent])
      fun _ => type.symm ▸ spelled
  · exact updates_insert sound valid ⟨.inr (.inl rule), named⟩ shown (by simp [absent])
      fun _ => spelled
  · exact updates_insert sound valid ⟨.inr (.inr rule), named⟩ shown (by simp [present, fits])
      (by simp [present])

theorem updates_of_fault {event : Event} (faulty : event.rule = "ERROR" ∨ event.rule = "INCOMPLETE")
    (records : entry.Records event) : entry.Updates r words t t := by
  refine updates_refl sound fun name writes => ?_
  have rule := (List.forall_mem_cons.1 records).1
  dsimp only at rule
  rcases writes.1 with written | written | written
  all_goals
    rw [rule] at written
    rcases faulty with faulty | faulty <;> simp [faulty] at written

end Records

theorem continues_of_ledger {r : Registry} {words : List String} {entries : List Entry}
    {t t' : SymbolTable} (h : Ledger r words entries t t') : t.Continues t' := by
  induction h with
  | done words t => exact continues_refl t
  | update updates _ ih => exact continues_trans updates.continues ih

theorem sound_of_ledger {r : Registry} {words : List String} {entries : List Entry}
    {t t' : SymbolTable} (h : Ledger r words entries t t') (sound : t.Sound) : t'.Sound := by
  induction h with
  | done => exact sound
  | update updates _ ih => exact ih updates.sound

namespace Session

/-! ### A call -/

/-- One session becomes another, and the records made in between account for the words read. -/
def Accounts (s : Session) (words : List String) (s' : Session) : Prop :=
  ∃ entries, s'.journal.entries = s.journal.entries ++ entries ∧
    Ledger s.registry words entries s.symbols s'.symbols

theorem accounts_refl (s : Session) (words : List String) : s.Accounts words s :=
  ⟨[], (List.append_nil _).symm, .done words s.symbols⟩

theorem accounts_note {s s' : Session} {symbols : SymbolTable} {event : Event} {text : String}
    {words others : List String}
    (updates : ∀ entry : Entry, entry.Records event →
      entry.Updates s.registry words s.symbols symbols)
    (rest : (note { s with symbols } text event).Accounts others s') :
    s.Accounts (words ++ others) s' := by
  obtain ⟨entries, whole, ledger⟩ := rest
  exact ⟨_ :: entries, by rw [whole]; exact List.append_assoc .., .update
    (updates _ (records_entry s.journal (some text) event
      (if s.verbose then some symbols.picture else none))) ledger⟩

section Call

variable {s : Session} (sound : s.symbols.Sound) {phase : Phase} (valid : phase.Sound)
  {words : List String} (spelled : phase.Spelled s.registry words)
include sound valid spelled

theorem accounts_finish (text : String) : s.Accounts words (s.finish text phase).2.1 := by
  have incomplete (report : Report) :
      s.Accounts words (s.note text (.unterminated report.fault)) := by
    have none := accounts_refl (s.note text (.unterminated report.fault)) []
    exact List.append_nil words ▸
      accounts_note (fun _ => updates_of_fault sound (.inr rfl)) none
  unfold finish
  split
  · rename_i target pending
    dsimp only
    split
    · exact accounts_refl s words
    split
    · exact incomplete _
    rename_i value finished
    rcases perform_cases s text (target.write value) with ⟨fault, -, failed⟩ |
      ⟨symbols, event, ran, performed⟩
    · rw [failed]
      exact incomplete _
    · rw [performed]
      have spelled' := spelled_write spelled [] value
      rw [List.append_nil] at spelled'
      exact List.append_nil words ▸ accounts_note
        (fun _ => updates_of_run sound ran (sound_write target (sound_finish valid finished)) spelled')
        (accounts_refl _ [])
  · exact accounts_refl s words

theorem accounts_feed {made : Registry} (h : s.MadeFrom made) (text : String)
    {lexemes : List String} (nonempty : ∀ lexeme ∈ lexemes, lexeme ≠ "")
    (encodes : ∀ lexeme ∈ lexemes, s.registry.Encodes lexeme (s.registry.token lexeme)) :
    s.Accounts (words ++ lexemes) (s.feed text phase (lexemes.map s.registry.token)).2.1 := by
  induction lexemes generalizing s phase words with
  | nil =>
    rw [List.append_nil]
    exact accounts_finish sound valid spelled text
  | cons lexeme lexemes ih =>
    obtain ⟨filled, nonempty⟩ := List.forall_mem_cons.1 nonempty
    obtain ⟨encoded, encodes⟩ := List.forall_mem_cons.1 encodes
    -- `words` are those read since the last record; the lexeme joins them
    have split : words ++ lexeme :: lexemes = words ++ [lexeme] ++ lexemes := by simp
    have faulty (fault : Fault) (found : String) :
        s.Accounts (words ++ [lexeme] ++ lexemes) (s.reject text fault found).2.1 :=
      accounts_note (fun _ => updates_of_fault sound (.inl rfl)) (accounts_refl _ lexemes)
    rw [split, List.map_cons, feed]
    cases step : phase.step s.dialect s.registry s.symbols (s.registry.token lexeme) with
    | error report => exact faulty _ _
    | ok move =>
      have valid' := sound_step sound valid step
      have spelled' := spelled_step h.reachable h.leads encoded filled spelled (h.dialect_eq ▸ step)
      cases move with
      | goOn next => exact ih sound valid' spelled' h nonempty encodes
      | complete write =>
        dsimp only
        rcases perform_cases s text write with ⟨fault, -, failed⟩ | ⟨symbols, event, ran, performed⟩
        · rw [failed]
          exact faulty _ _
        · rw [performed]
          -- the next statement starts with no words read and nothing pending
          have idle : Phase.start.Sound := trivial
          have rest := ih (s := note { s with symbols } text event) (sound_of_run sound valid' ran)
            idle (spelled_start s.registry) ⟨h.reachable, h.dialect_eq, h.leads⟩ nonempty encodes
          exact accounts_note (fun _ => updates_of_run sound ran valid' spelled') rest

end Call

theorem ledger_execute {made : Registry} {s : Session} (h : s.MadeFrom made) (sound : s.symbols.Sound)
    (lexemes : List String) :
    Ledger (s.execute lexemes).2.1.registry (lexemes.filter (· ≠ "")) (s.newRecords lexemes) s.symbols
      (s.execute lexemes).2.1.symbols := by
  have nonempty := @ne_empty_of_mem_filter lexemes
  have leads := (setting_of_execute s lexemes).1
  have whole := entries_execute s lexemes
  rcases execute_cases s lexemes with ⟨e, r, -, result⟩ | ⟨r, -, result⟩ |
    ⟨tokens, r, encoded, -, result⟩
  · rw [result] at whole ⊢
    rw [List.self_eq_append_right.1 whole]
    exact .done _ _
  · rw [result] at whole ⊢
    rw [List.self_eq_append_right.1 whole]
    exact .done _ _
  · obtain ⟨rfl, encodes⟩ := Registry.tokens_of_encodeAll nonempty encoded
    rw [result] at whole leads ⊢
    have registry := (sameSetting_feed { s with registry := r }
      (statementText ((lexemes.filter (· ≠ "")).map r.token)) .start
      ((lexemes.filter (· ≠ "")).map r.token)).registry_eq
    rw [registry] at leads ⊢
    have idle : Phase.start.Sound := trivial
    obtain ⟨entries, appended, ledger⟩ := accounts_feed (s := { s with registry := r }) sound idle
      (spelled_start r) ⟨h.reachable, h.dialect_eq, Registry.leads_trans h.leads leads⟩
      (statementText ((lexemes.filter (· ≠ "")).map r.token)) nonempty encodes
    rw [List.append_cancel_left (whole.symm.trans appended)]
    exact ledger

/-! ### Runs -/

theorem madeFrom_act {made : Registry} {s : Session} (h : s.MadeFrom made) (activity : Activity) :
    (s.act activity).2.MadeFrom made := by
  cases activity with
  | call lexemes => exact madeFrom_execute h lexemes
  | registry operation =>
    exact ⟨h.reachable, h.dialect_eq, Registry.leads_trans h.leads (Registry.leads_perform _ operation)⟩

/-- Whatever was run before, the symbols have grown and are sound, and every further call keeps its
ledger. -/
theorem ledger_of_actAll {made : Registry} {s : Session} (h : s.MadeFrom made)
    (sound : s.symbols.Sound) (activities : List Activity) :
    s.symbols.Continues (s.actAll activities).2.symbols ∧ (s.actAll activities).2.symbols.Sound ∧
      ∀ lexemes, Ledger ((s.actAll activities).2.execute lexemes).2.1.registry
        (lexemes.filter (· ≠ "")) ((s.actAll activities).2.newRecords lexemes)
        (s.actAll activities).2.symbols ((s.actAll activities).2.execute lexemes).2.1.symbols := by
  induction activities generalizing s with
  | nil => exact ⟨continues_refl s.symbols, sound, ledger_execute h sound⟩
  | cons activity activities ih =>
    have here : s.symbols.Continues (s.act activity).2.symbols ∧ (s.act activity).2.symbols.Sound := by
      cases activity with
      | call lexemes =>
        have ledger := ledger_execute h sound lexemes
        exact ⟨continues_of_ledger ledger, sound_of_ledger ledger sound⟩
      | registry operation => exact ⟨continues_refl s.symbols, sound⟩
    obtain ⟨continues, sound', ledger⟩ := ih (madeFrom_act h activity) here.2
    exact ⟨continues_trans here.1 continues, sound', ledger⟩

theorem ledger_of_actAll_overflow : ∃ t : SymbolTable,
    t = ((start Registry.vocabulary (Table.empty.insert "x" (.int 0x7fffffff)) false).actAll
      [.call ["int", "y", "=", "x", "+", "1", ";", "x", "=", "y", "/", "0", ";"],
        .call ["string", "x", ";"]]).2.symbols ∧
      t.entries = [("x", .int 0x7fffffff), ("y", .int (-0x80000000))] ∧ t.Sound :=
  ⟨_, rfl, by decide +kernel,
    (ledger_of_actAll (madeFrom_start Registry.reachable_vocabulary _ false) (by decide +kernel) _).2.1⟩

end Session

end LineLang
