import LineLang.Proofs.Session.Simulation

/-!
# A call is local to its names

`execute_local`: two sessions whose symbols agree on the names that a call mentions run it alike, and their
symbols agree on these names behind it. Each keeps the values and the places of all other names.
-/

namespace LineLang

/-- The tables have the same value for each of the names, or both have none. -/
def SymbolTable.AgreeOn (names : List String) (t t' : SymbolTable) : Prop :=
  ∀ name ∈ names, t'.get? name = t.get? name

/-- All names but these keep their values, and every name keeps its place. -/
structure SymbolTable.Spares (names : List String) (t t' : SymbolTable) : Prop where
  values : ∀ name, name ∉ names → t'.get? name = t.get? name
  places : t.keys <+: t'.keys

theorem agreeOn_insert {names : List String} {t t' : SymbolTable} (h : t.AgreeOn names t')
    (name : String) (value : Value) :
    SymbolTable.AgreeOn names (t.insert name value) (t'.insert name value) := by
  intro word member
  rw [Table.get?_insert, Table.get?_insert, h word member]

theorem spares_refl (names : List String) (t : SymbolTable) : t.Spares names t :=
  ⟨fun _ _ => rfl, List.prefix_rfl⟩

theorem spares_insert {names : List String} {t t' : SymbolTable} (h : t.Spares names t') {name : String}
    (member : name ∈ names) (value : Value) : t.Spares names (t'.insert name value) := by
  constructor
  · intro word other
    have differs : word ≠ name := fun same => other (same ▸ member)
    rw [Table.get?_insert, if_neg differs, h.values word other]
  · exact h.places.trans (Table.keys_prefix_insert t' name value)

/-- An entry without its picture of the symbols. -/
def Entry.unpictured (entry : Entry) : Entry := { entry with picture := none }

def Journal.unpictured (j : Journal) : Journal := { j with entries := j.entries.map Entry.unpictured }

theorem unpictured_record {j j' : Journal} (same : j'.unpictured = j.unpictured)
    (statement : Option String) (fields : Table String Json)
    (picture picture' : Option (Table String String)) :
    (j'.record statement fields picture').unpictured = (j.record statement fields picture).unpictured := by
  obtain ⟨entries, next, last⟩ := Journal.mk.inj same
  simp only [Journal.unpictured, Journal.record, Journal.entry, List.map_append, entries, next, last]
  rfl

namespace Session

/-- The sessions have the same setting, symbols that agree on the names, and the same records but for the
pictures. -/
structure SameOn (names : List String) (s s' : Session) : Prop where
  setting : SameSetting s s'
  agree : s.symbols.AgreeOn names s'.symbols
  journal_eq : s'.journal.unpictured = s.journal.unpictured

theorem simulation_sameOn (names : List String) (text : String) :
    Simulation (· ∈ names) text text (SameOn names) where
  setting h := h.setting
  get?_eq h member := h.agree _ member
  insert value h _ := ⟨⟨h.setting.registry_eq, h.setting.dialect_eq, h.setting.verbose_eq⟩,
    agreeOn_insert h.agree _ value, h.journal_eq⟩
  note _ h := ⟨⟨h.setting.registry_eq, h.setting.dialect_eq, h.setting.verbose_eq⟩, h.agree,
    unpictured_record h.journal_eq _ _ _ _⟩
  encode _ h := ⟨⟨rfl, h.setting.dialect_eq, h.setting.verbose_eq⟩, h.agree, h.journal_eq⟩

/-- A session beside itself, as far as it spares the symbols of a table. -/
theorem simulation_spares (names : List String) (t : SymbolTable) (text : String) :
    Simulation (· ∈ names) text text fun s s' => s' = s ∧ t.Spares names s.symbols where
  setting h := h.1 ▸ ⟨rfl, rfl, rfl⟩
  get?_eq h _ := by rw [h.1]
  insert value h member := ⟨by rw [h.1], spares_insert h.2 member value⟩
  note _ h := ⟨by rw [h.1], h.2⟩
  encode _ h := ⟨by rw [h.1], h.2⟩

theorem spares_execute (s : Session) (lexemes : List String) :
    s.symbols.Spares (lexemes.filter (· ≠ "")) (s.execute lexemes).2.1.symbols := by
  obtain ⟨-, -, -, spares⟩ := alike_execute (simulation_spares (lexemes.filter (· ≠ "")) s.symbols)
    ⟨rfl, spares_refl _ _⟩ (fun lexeme member some => List.mem_filter.2 ⟨member, by simpa using some⟩)
  exact spares

/-- Sessions that differ in no name that a call mentions run the call alike, and differ in none of them
behind it. No other name has got another value or another place. -/
theorem execute_local {s s' : Session} (lexemes : List String)
    (same : SameOn (lexemes.filter (· ≠ "")) s s') :
    (s'.execute lexemes).1 = (s.execute lexemes).1 ∧
      (s'.execute lexemes).2.2 = (s.execute lexemes).2.2 ∧
        SameOn (lexemes.filter (· ≠ "")) (s.execute lexemes).2.1 (s'.execute lexemes).2.1 ∧
          s.symbols.Spares (lexemes.filter (· ≠ "")) (s.execute lexemes).2.1.symbols ∧
            s'.symbols.Spares (lexemes.filter (· ≠ "")) (s'.execute lexemes).2.1.symbols := by
  have mentioned : ∀ lexeme ∈ lexemes, lexeme ≠ "" → lexeme ∈ lexemes.filter (· ≠ "") :=
    fun lexeme member some => List.mem_filter.2 ⟨member, by simpa using some⟩
  obtain ⟨outcome, events, related⟩ := alike_execute (simulation_sameOn _) same mentioned
  exact ⟨outcome, events, related, spares_execute s lexemes, spares_execute s' lexemes⟩

/-- The tables share `x` only; `q` is in neither. -/
theorem execute_local_unshared :
    let s := start Registry.vocabulary (.ofList [("x", .int 1), ("hidden", .string "a")]) true
    let s' := start Registry.vocabulary (.ofList [("other", .int 5), ("x", .int 1)]) true
    let lexemes := ["int", "y", "=", "x", "+", "1", ";", "x", "=", "y", "*", "q", ";"]
    SameOn (lexemes.filter (· ≠ "")) s s' ∧
      (s'.execute lexemes).1 = .ok (.rejected ⟨.unknownOperand "q", some "q"⟩) ∧
        (s.execute lexemes).2.1.symbols.entries =
          [("x", .int 1), ("hidden", .string "a"), ("y", .int 2)] ∧
          (s'.execute lexemes).2.1.symbols.get? "other" = some (.int 5) ∧
            (s'.execute lexemes).2.1.symbols.get? "y" = some (.int 2) := by
  intro s s' lexemes
  have agree : s.symbols.AgreeOn (lexemes.filter (· ≠ "")) s'.symbols := by
    unfold SymbolTable.AgreeOn
    decide +kernel
  have same : SameOn (lexemes.filter (· ≠ "")) s s' := ⟨⟨rfl, rfl, rfl⟩, agree, rfl⟩
  have ran : (s.execute lexemes).1 = .ok (.rejected ⟨.unknownOperand "q", some "q"⟩) := by
    decide +kernel
  have symbols : (s.execute lexemes).2.1.symbols.entries =
      [("x", .int 1), ("hidden", .string "a"), ("y", .int 2)] := by decide +kernel
  have given : (s.execute lexemes).2.1.symbols.get? "y" = some (.int 2) := by decide +kernel
  obtain ⟨outcome, -, after, -, others⟩ := execute_local lexemes same
  refine ⟨same, outcome.trans ran, symbols, ?_, ?_⟩
  · exact (others.values "other" (by decide +kernel)).trans (by decide +kernel)
  · exact (after.agree "y" (by decide +kernel)).trans given

end Session

end LineLang
