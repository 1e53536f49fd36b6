import LineLang.Proofs.Dump
import LineLang.Proofs.Session.Roles
import LineLang.Proofs.Session.Store

/-!
# Texts without quotes

`plain_execute`: where the lexemes of a call have their double quotes at the ends only, no quote gets into a
text or a name. Literals lose those at their ends, and concatenation brings in none.
-/

namespace LineLang

/-! ### Lexemes -/

theorem wellFormed_cases {cs : List Char} (h : WellFormed cs) :
    (∃ inner, cs = '"' :: (inner ++ ['"']) ∧ '"' ∉ inner) ∨ ('"' ∉ cs ∧ '=' ∉ cs.tail.dropLast) := by
  cases h with
  | quoted unquoted => exact .inl ⟨_, rfl, unquoted⟩
  | digraph listed =>
    refine .inr ⟨?_, by simp⟩
    rintro quote
    simp only [List.mem_cons, List.not_mem_nil, or_false] at listed quote
    rcases quote with rfl | quote
    · simp at listed
    · cases quote
  | single listed =>
    refine .inr ⟨?_, by simp⟩
    rintro quote
    rw [← List.mem_singleton.1 quote] at listed
    simp [punctuation] at listed
  | word word =>
    have none {c : Char} (special : isWordChar c = false) : c ∉ cs := fun member =>
      Bool.false_ne_true (special.symm.trans (word.2 c member))
    have noEquals : '=' ∉ cs := none rfl
    exact .inr ⟨none rfl, fun inside => noEquals (List.mem_of_mem_tail (List.mem_of_mem_dropLast inside))⟩

theorem plainName_of_wellFormed {name : String} (h : WellFormed name.toList)
    (unquoted : isQuoted name = false) : PlainName name := by
  have unwrapped : ¬IsWrapped name := by simp [← isQuoted_iff, unquoted]
  rcases wellFormed_cases h with ⟨inner, whole, -⟩ | ⟨noQuote, noEquals⟩
  · exact absurd ⟨inner, whole⟩ unwrapped
  · refine ⟨?_, noQuote, noEquals⟩
    rintro rfl
    exact ne_nil_of_wellFormed h rfl

theorem literalHolds_plain {lexeme : String} (h : WellFormed lexeme.toList) :
    LiteralHolds Value.Plain lexeme := by
  intro value read
  unfold readLiteral at read
  split at read
  · rename_i quoted
    cases read
    obtain ⟨text, wrapped⟩ := (isQuoted_iff lexeme).1 quoted
    show '"' ∉ (unquote lexeme).toList
    rcases wellFormed_cases h with ⟨inner, whole, unquoted⟩ | ⟨noQuote, -⟩
    · rw [unquote, whole, String.toList_ofList]
      simpa using unquoted
    · rw [wrapped] at noQuote
      exact absurd List.mem_cons_self noQuote
  · obtain ⟨n, -, rfl⟩ := map_eq_ok read
    trivial

/-! ### Values -/

theorem quote_not_mem_text {value : Value} (plain : value.Plain) : '"' ∉ value.text.toList := by
  cases value with
  | int n =>
    intro member
    rcases Dump.decimal_of_mem_toString n _ member with sign | digit
    · cases sign
    · cases digit
  | string s => exact plain
  | foreign => cases plain

theorem closed_plain : Value.Closed Value.Plain where
  zero ty := by
    cases ty with
    | int => trivial
    | string | named => exact List.not_mem_nil
  apply {role left right value} plainLeft plainRight applied := by
    unfold Role.apply at applied
    split at applied
    · split at applied
      · obtain ⟨n, rfl⟩ := ofInt_of_compute applied
        trivial
      · cases applied
    · cases applied
      show '"' ∉ (left.text ++ right.text).toList
      rw [String.toList_append]
      exact List.not_mem_append (quote_not_mem_text plainLeft) (quote_not_mem_text plainRight)

theorem plain_iff (t : SymbolTable) :
    t.Plain ↔ (∀ name ∈ t.keys, PlainName name) ∧ t.Holds Value.Plain := by
  simp only [SymbolTable.Plain, forall_and]
  exact and_congr_left' List.forall_mem_map.symm

/-! ### Names -/

/-- A name that a call adds is one of its words. -/
theorem names_of_ledger {r : Registry} {words : List String} {entries : List Entry} {t t' : SymbolTable}
    (h : Ledger r words entries t t') {name : String} (member : name ∈ t'.keys) :
    name ∈ t.keys ∨ (r.Nameable name ∧ name ∈ words) := by
  induction h with
  | done => exact .inl member
  | @update words others entry entries t t₁ t' updates _ ih =>
    rcases ih member with present | ⟨nameable, later⟩
    · by_cases old : name ∈ t.keys
      · exact .inl old
      · obtain ⟨value, -, nameable, skipped, keyword, rest, rfl, -⟩ := updates.declared name present old
        exact .inr ⟨nameable, by simp⟩
    · exact .inr ⟨nameable, List.mem_append_right _ later⟩

namespace Session

/-! ### A call -/

section Call

variable {P : Value → Prop} (closed : Value.Closed P) {s : Session} (table : s.symbols.Holds P)
  {phase : Phase} (h : phase.Holds P)
include closed table h

theorem holds_finish (text : String) : (s.finish text phase).2.1.symbols.Holds P := by
  unfold finish
  split
  · rename_i target pending
    dsimp only
    split
    · exact table
    split
    · exact table
    rename_i value finished
    rcases perform_cases s text (target.write value) with ⟨fault, -, failed⟩ |
      ⟨symbols, event, ran, performed⟩
    · rw [failed]
      exact table
    · rw [performed]
      exact holds_of_run closed table (holds_write target (LineLang.holds_finish closed h finished)) ran
  · exact table

theorem holds_feed (text : String) {tokens : List Token}
    (literals : ∀ token ∈ tokens, LiteralHolds P token.lexeme) :
    (s.feed text phase tokens).2.1.symbols.Holds P := by
  induction tokens generalizing s phase with
  | nil => exact holds_finish closed table h text
  | cons token tokens ih =>
    obtain ⟨literal, literals⟩ := List.forall_mem_cons.1 literals
    rw [feed]
    cases step : phase.step s.dialect s.registry s.symbols token with
    | error report => exact table
    | ok move =>
      have holds := holds_step closed table h literal step
      cases move with
      | goOn next => exact ih table holds literals
      | complete write =>
        dsimp only
        rcases perform_cases s text write with ⟨fault, -, failed⟩ | ⟨symbols, event, ran, performed⟩
        · rw [failed]
          exact table
        · rw [performed]
          -- nothing is pending in the next statement
          have idle : Phase.start.Holds P := trivial
          exact ih (s := note { s with symbols } text event) (holds_of_run closed table holds ran) idle
            literals

end Call

theorem holds_execute {P : Value → Prop} (closed : Value.Closed P) {s : Session}
    (table : s.symbols.Holds P) {lexemes : List String}
    (literals : ∀ lexeme ∈ lexemes, LiteralHolds P lexeme) : (s.execute lexemes).2.1.symbols.Holds P := by
  rcases execute_cases s lexemes with ⟨e, r, -, result⟩ | ⟨r, -, result⟩ |
    ⟨tokens, r, encoded, -, result⟩
  · rw [result]
    exact table
  · rw [result]
    exact table
  · rw [result]
    obtain ⟨rfl, -⟩ := Registry.tokens_of_encodeAll ne_empty_of_mem_filter encoded
    have idle : Phase.start.Holds P := trivial
    refine holds_feed closed (s := { s with registry := r }) table idle _ (List.forall_mem_map.2 ?_)
    exact fun lexeme member => literals lexeme (List.mem_of_mem_filter member)

/-- The symbols are plain, and further calls keep them so. -/
structure Clean (made : Registry) (s : Session) : Prop where
  made : s.MadeFrom made
  sound : s.symbols.Sound
  plain : s.symbols.Plain

theorem clean_execute {made : Registry} {s : Session} (h : s.Clean made) {lexemes : List String}
    (wellFormed : ∀ lexeme ∈ lexemes, WellFormed lexeme.toList) : (s.execute lexemes).2.1.Clean made := by
  have ledger := ledger_execute h.made h.sound lexemes
  refine ⟨madeFrom_execute h.made lexemes, sound_of_ledger ledger h.sound, ?_⟩
  obtain ⟨names, values⟩ := (plain_iff _).1 h.plain
  refine (plain_iff _).2 ⟨fun name member => ?_, ?_⟩
  · rcases names_of_ledger ledger member with old | ⟨nameable, word⟩
    · exact names name old
    · exact plainName_of_wellFormed (wellFormed name (List.mem_of_mem_filter word)) nameable.unquoted
  · exact holds_execute closed_plain values fun lexeme member => literalHolds_plain (wellFormed lexeme member)

end Session

end LineLang
