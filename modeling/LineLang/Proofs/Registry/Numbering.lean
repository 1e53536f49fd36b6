import LineLang.Proofs.Lexeme.Decimal
import LineLang.Proofs.Registry.Coherence

/-!
# How a registry is laid out

`consistent_of_operations`: whatever is registered and encoded, and whatever of it fails, the codes of
a category follow each other from the first of its range, the owners of codes are the inverse of the
tables, and every table holds lexemes of its own kind only.
-/

namespace LineLang.Registry

theorem table_assign (r : Registry) (category other : Category) (lexeme : String) :
    (r.assign category lexeme).table other =
      if other = category then (r.table category).insert lexeme (r.next category)
      else r.table other := by
  cases category <;> cases other <;> rfl

theorem next_assign_of_ne (r : Registry) {category other : Category} (h : other ≠ category)
    (lexeme : String) : (r.assign category lexeme).next other = r.next other := by
  cases category <;> cases other <;> first | rfl | exact absurd rfl h

theorem config_of_grows {r r' : Registry} (grows : Grows r r') : r'.config = r.config := by
  induction grows with
  | refl => rfl
  | assign _ _ ih => rw [ih, config_assign]

/-! ### Consecutive codes -/

/-- The codes of a category in the order of its table, and the code that comes next. -/
structure Consecutive (r : Registry) : Prop where
  code_eq : ∀ category (i : Nat) lexeme code, (r.table category).entries[i]? = some (lexeme, code) →
    code = (r.config.range category).first + i ∧ code ≤ (r.config.range category).last
  next_eq : ∀ category, r.next category = (r.config.range category).first + (r.table category).size

theorem consecutive_empty (config : Config) : (empty config).Consecutive := by
  constructor
  · intro category i lexeme code entry
    cases category <;> simp [empty, table, Table.empty] at entry
  · intro category
    cases category <;> simp [empty, next, table, Table.empty, Table.size, Config.range]

theorem consecutive_assign {r : Registry} {category : Category} {lexeme : String}
    (h : r.Consecutive) (admitted : r.Admits category lexeme) :
    (r.assign category lexeme).Consecutive := by
  have absent := (Table.get?_eq_none_iff _ _).1 admitted.fresh
  constructor
  · intro other i word code entry
    rw [config_assign]
    by_cases same : other = category
    · subst same
      rw [table_assign, if_pos rfl, Table.entries_insert_of_not_mem _ _ absent] at entry
      by_cases old : i < (r.table other).entries.length
      · rw [List.getElem?_append_left old] at entry
        exact h.code_eq other i word code entry
      · -- the entry that is new stands behind all others and has the code that came next
        have here := (List.getElem?_eq_some_iff.1 entry).1
        have last : i = (r.table other).entries.length := by
          rw [List.length_append, List.length_singleton] at here
          omega
        subst last
        simp only [List.getElem?_concat_length, Option.some.injEq, Prod.mk.injEq] at entry
        rw [← entry.2]
        exact ⟨h.next_eq other, admitted.inRange⟩
    · rw [table_assign, if_neg same] at entry
      exact h.code_eq other i word code entry
  · intro other
    rw [config_assign]
    by_cases same : other = category
    · subst same
      rw [table_assign, if_pos rfl, next_assign r admitted.fresh,
        Table.size_insert_of_not_mem _ _ absent, h.next_eq]
      push_cast
      omega
    · rw [table_assign, if_neg same, next_assign_of_ne r same, h.next_eq]

theorem consecutive_of_grows {r r' : Registry} (grows : Grows r r') (h : r.Consecutive) :
    r'.Consecutive := by
  induction grows with
  | refl => exact h
  | assign admitted _ ih => exact ih (consecutive_assign h admitted)

theorem consecutive_of_reachable {r : Registry} (h : r.Reachable) : r.Consecutive := by
  obtain ⟨config, leads⟩ := h
  exact consecutive_of_grows (grows_of_leads leads) (consecutive_empty config)

theorem inRange_of_codeFor {r : Registry} (h : r.Reachable) {category : Category} {lexeme : String}
    {code : Int} (given : r.codeFor category lexeme = some code) :
    (r.config.range category).first ≤ code ∧ code ≤ (r.config.range category).last := by
  have consecutive := consecutive_of_reachable h
  obtain ⟨i, entry⟩ := List.mem_iff_getElem?.1 ((Table.get?_eq_some_iff _ _ _).1 given)
  obtain ⟨place, inside⟩ := consecutive.code_eq category i lexeme code entry
  omega

/-! ### Kinds of lexemes -/

/-- A lexeme may stand in the table of a category. -/
def Suits (category : Category) (lexeme : String) : Prop :=
  lexeme ≠ "" ∧ (category = .keyword ∨ category = .operator ∨ category = freeCategory lexeme)

def Sorted (r : Registry) : Prop := ∀ category, ∀ lexeme ∈ (r.table category).keys, Suits category lexeme

theorem sorted_empty (config : Config) : (empty config).Sorted := by
  intro category lexeme member
  cases category <;> simp [empty, table, Table.empty, Table.keys] at member

theorem sorted_assign {r : Registry} {category : Category} {lexeme : String} (h : r.Sorted)
    (admitted : r.Admits category lexeme) : (r.assign category lexeme).Sorted := by
  have absent := (Table.get?_eq_none_iff _ _).1 admitted.fresh
  intro other word member
  by_cases same : other = category
  · subst same
    rw [table_assign, if_pos rfl, Table.keys_insert, if_neg absent, List.mem_append,
      List.mem_singleton] at member
    rcases member with old | rfl
    · exact h other word old
    · exact ⟨admitted.nonempty, admitted.fitting⟩
  · rw [table_assign, if_neg same] at member
    exact h other word member

theorem sorted_of_grows {r r' : Registry} (grows : Grows r r') (h : r.Sorted) : r'.Sorted := by
  induction grows with
  | refl => exact h
  | assign admitted _ ih => exact ih (sorted_assign h admitted)

theorem suits_literal_iff (lexeme : String) :
    Suits .literal lexeme ↔ lexeme ≠ "" ∧ IsDecimal lexeme := by
  rw [← isNumeric_iff, Suits, freeCategory]
  cases isNumeric lexeme <;> simp

theorem suits_symbol_iff (lexeme : String) :
    Suits .symbol lexeme ↔ lexeme ≠ "" ∧ ¬IsDecimal lexeme := by
  rw [← isNumeric_iff, Suits, freeCategory]
  cases isNumeric lexeme <;> simp

/-! ### The layout -/

theorem decode_and_categoryOf_iff (r : Registry) (code : Int) (lexeme : String)
    (category : Category) : r.decode code = some lexeme ∧ r.categoryOf code = some category ↔
      r.owners.get? code = some ⟨lexeme, category⟩ := by
  unfold decode categoryOf
  cases r.owners.get? code with
  | none => simp
  | some owner =>
    obtain ⟨word, other⟩ := owner
    simp

/-- The tables, the cursors and the reverse maps of a registry with the ranges of `config`. -/
structure Consistent (config : Config) (r : Registry) : Prop where
  codes : ∀ category (i : Nat) lexeme code, (r.table category).entries[i]? = some (lexeme, code) →
    code = (config.range category).first + i ∧ code ≤ (config.range category).last
  nextSymbol : r.nextSymbol = config.symbol.first + r.symbols.size
  nextLiteral : r.nextLiteral = config.literal.first + r.literals.size
  inverse : ∀ category lexeme code, r.codeFor category lexeme = some code ↔
    r.decode code = some lexeme ∧ r.categoryOf code = some category
  unshared : ∀ category other lexeme word code, r.codeFor category lexeme = some code →
    r.codeFor other word = some code → category = other ∧ lexeme = word
  nonempty : ∀ category, "" ∉ (r.table category).keys
  disjoint : ∀ lexeme ∈ r.keywords.keys, lexeme ∉ r.operators.keys
  literals : ∀ lexeme ∈ r.literals.keys, IsDecimal lexeme
  symbols : ∀ lexeme ∈ r.symbols.keys, ¬IsDecimal lexeme

/-- Every history of operations, failed ones included, leaves a consistent registry. -/
theorem consistent_of_operations (config : Config) (operations : List Operation) :
    (operations.foldl perform (empty config)).Consistent config := by
  have grows : Grows (empty config) (operations.foldl perform (empty config)) :=
    grows_of_leads ⟨operations, rfl⟩
  generalize operations.foldl perform (empty config) = r at grows
  have coherent := coherent_of_grows grows (coherent_empty config)
  have consecutive := consecutive_of_grows grows (consecutive_empty config)
  have sorted := sorted_of_grows grows (sorted_empty config)
  obtain rfl : r.config = config := config_of_grows grows
  constructor
  · exact consecutive.code_eq
  · exact consecutive.next_eq .symbol
  · exact consecutive.next_eq .literal
  · intro category lexeme code
    rw [decode_and_categoryOf_iff, coherent.owner_iff]
  · intro category other lexeme word code
    exact eq_of_codeFor coherent
  · intro category member
    exact (sorted category "" member).1 rfl
  · intro lexeme keyword operator
    rcases coherent.disjoint lexeme with absent | absent
    · exact (Table.get?_eq_none_iff _ _).1 absent keyword
    · exact (Table.get?_eq_none_iff _ _).1 absent operator
  · intro lexeme member
    exact ((suits_literal_iff lexeme).1 (sorted .literal lexeme member)).2
  · intro lexeme member
    exact ((suits_symbol_iff lexeme).1 (sorted .symbol lexeme member)).2

end LineLang.Registry
