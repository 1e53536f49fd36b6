import Mathlib
import LineLang.Proofs.Lexeme.Layout
import LineLang.SymbolTable

/-!
# Dumps of symbol tables

A dump puts quotes around texts, but it escapes nothing. `dump_inj`: symbol tables with the same dump are
the same all the same, if no text has a double quote in it and no name an equals sign between its ends.
-/

namespace LineLang

/-- An integer, or a text without double quotes. -/
def Value.Plain : Value → Prop
  | .int _ => True
  | .string s => '"' ∉ s.toList
  | .foreign .. => False

structure PlainName (name : String) : Prop where
  nonempty : name ≠ ""
  unquoted : '"' ∉ name.toList
  /-- The first and the last character may be an equals sign. -/
  inside : '=' ∉ name.toList.tail.dropLast

def SymbolTable.Plain (t : SymbolTable) : Prop :=
  ∀ entry ∈ t.entries, PlainName entry.1 ∧ entry.2.Plain

namespace Dump

theorem append_inj_of_stop {p : Char → Bool} {front front' back back' : List Char}
    (all : ∀ c ∈ front, p c = true) (all' : ∀ c ∈ front', p c = true)
    (stop : ∀ c ∈ back.head?, p c = false) (stop' : ∀ c ∈ back'.head?, p c = false)
    (same : front ++ back = front' ++ back') : front = front' ∧ back = back' := by
  obtain ⟨taken, dropped⟩ := takeWhile_append_of_head all stop
  obtain ⟨taken', dropped'⟩ := takeWhile_append_of_head all' stop'
  rw [same] at taken dropped
  exact ⟨taken.symm.trans taken', dropped.symm.trans dropped'⟩

/-! ### Names -/

theorem nil_of_name {name back : List Char} (nonempty : name ≠ [])
    (inside : '=' ∉ (name ++ '=' :: back).tail.dropLast) : back = [] := by
  obtain ⟨first, others, rfl⟩ := List.exists_cons_of_ne_nil nonempty
  by_contra some
  refine inside ?_
  rw [List.cons_append, List.tail_cons, List.dropLast_append_cons, List.dropLast_cons_of_ne_nil some]
  simp

/-- A name ends at the equals sign that has no other one behind it. -/
theorem name_append_inj {name name' rest rest' : List Char} (nonempty : name ≠ []) (nonempty' : name' ≠ [])
    (inside : '=' ∉ name.tail.dropLast) (inside' : '=' ∉ name'.tail.dropLast)
    (first : rest.head? ≠ some '=') (first' : rest'.head? ≠ some '=')
    (same : name ++ '=' :: rest = name' ++ '=' :: rest') : name = name' ∧ rest = rest' := by
  rcases List.append_eq_append_iff.1 same with ⟨more, rfl, behind⟩ | ⟨more, rfl, behind⟩
  · cases more with
    | nil => exact ⟨(List.append_nil name).symm, (List.cons.inj behind).2⟩
    | cons c more =>
      obtain ⟨rfl, rfl⟩ := List.cons.inj behind
      rw [nil_of_name nonempty inside'] at first
      exact absurd rfl first
  · cases more with
    | nil => exact ⟨List.append_nil name', (List.cons.inj behind).2.symm⟩
    | cons c more =>
      obtain ⟨rfl, rfl⟩ := List.cons.inj behind
      rw [nil_of_name nonempty' inside] at first'
      exact absurd rfl first'

/-! ### Values -/

theorem decimal_of_mem_toString (n : Int) : ∀ c ∈ (toString n).toList, c = '-' ∨ c.isDigit = true := by
  intro c member
  rw [Int.toString_eq_repr, Int.repr_eq_if] at member
  have digits (n : Nat) : c ∈ n.repr.toList → c.isDigit = true := by
    rw [Nat.toList_repr]
    exact Nat.isDigit_of_mem_toDigits (by omega) (by omega)
  split at member
  · exact .inr (digits _ member)
  · rw [String.toList_append] at member
    rcases List.mem_append.1 member with sign | digit
    · exact .inl (by simpa using sign)
    · exact .inr (digits _ digit)

theorem exists_cons_of_toString (n : Int) :
    ∃ c cs, (toString n).toList = c :: cs ∧ (c = '-' ∨ c.isDigit = true) := by
  have some : (toString n).toList ≠ [] := by
    rw [Int.toString_eq_repr, Int.repr_eq_if]
    split
    · rw [Nat.toList_repr]
      exact Nat.toDigits_ne_nil
    · simp
  obtain ⟨c, cs, whole⟩ := List.exists_cons_of_ne_nil some
  exact ⟨c, cs, whole, decimal_of_mem_toString n c (whole ▸ List.mem_cons_self)⟩

theorem toList_shown_string (s : String) :
    (Value.string s).shown.toList = '"' :: (s.toList ++ ['"']) := by
  simp [Value.shown]

/-- A value starts with a sign, a digit or a quote. -/
theorem head?_shown_ne {value : Value} (plain : value.Plain) (rest : List Char) :
    (value.shown.toList ++ rest).head? ≠ some '=' := by
  cases value with
  | int n =>
    obtain ⟨c, cs, whole, starts⟩ := exists_cons_of_toString n
    rw [Value.shown, whole]
    rintro ⟨⟩
    rcases starts with starts | starts <;> cases starts
  | string s =>
    rw [toList_shown_string]
    rintro ⟨⟩
  | foreign => cases plain

/-- Behind a value there is nothing or a comma. -/
def Ends (rest : List Char) : Prop := ∀ c ∈ rest.head?, c = ','

theorem int_append_inj {n n' : Int} {rest rest' : List Char} (ends : Ends rest) (ends' : Ends rest')
    (same : (toString n).toList ++ rest = (toString n').toList ++ rest') : n = n' ∧ rest = rest' := by
  have noComma (n : Int) : ∀ c ∈ (toString n).toList, (c != ',') = true := by
    intro c member
    rw [bne_iff_ne]
    rintro rfl
    rcases decimal_of_mem_toString n ',' member with sign | digit
    · cases sign
    · cases digit
  have stop {rest : List Char} (ends : Ends rest) : ∀ c ∈ rest.head?, (c != ',') = false :=
    fun c head => by simp [ends c head]
  obtain ⟨decimal, behind⟩ := append_inj_of_stop (noComma n) (noComma n') (stop ends) (stop ends') same
  rw [String.toList_inj, Int.toString_eq_repr, Int.toString_eq_repr] at decimal
  exact ⟨Int.repr_inj.1 decimal, behind⟩

theorem string_append_inj {s s' : List Char} (unquoted : '"' ∉ s) (unquoted' : '"' ∉ s')
    {rest rest' : List Char} (same : s ++ '"' :: rest = s' ++ '"' :: rest') : s = s' ∧ rest = rest' := by
  have inside {s : List Char} (unquoted : '"' ∉ s) : ∀ c ∈ s, (c != '"') = true :=
    fun c member => bne_iff_ne.2 fun quote => unquoted (quote ▸ member)
  have stop (rest : List Char) : ∀ c ∈ ('"' :: rest).head?, (c != '"') = false := by simp
  obtain ⟨text, behind⟩ := append_inj_of_stop (inside unquoted) (inside unquoted') (stop rest) (stop rest') same
  exact ⟨text, (List.cons.inj behind).2⟩

theorem int_append_ne_string (n : Int) (s : String) (rest rest' : List Char) :
    (Value.int n).shown.toList ++ rest ≠ (Value.string s).shown.toList ++ rest' := by
  obtain ⟨c, cs, whole, starts⟩ := exists_cons_of_toString n
  rw [Value.shown, whole, toList_shown_string]
  intro same
  rw [(List.cons.inj same).1] at starts
  rcases starts with starts | starts <;> cases starts

theorem shown_append_inj {value value' : Value} (plain : value.Plain) (plain' : value'.Plain)
    {rest rest' : List Char} (ends : Ends rest) (ends' : Ends rest')
    (same : value.shown.toList ++ rest = value'.shown.toList ++ rest') : value = value' ∧ rest = rest' := by
  cases value with
  | foreign => cases plain
  | int n =>
    cases value' with
    | foreign => cases plain'
    | string s => exact absurd same (int_append_ne_string n s rest rest')
    | int n' =>
      obtain ⟨rfl, rfl⟩ := int_append_inj ends ends' same
      exact ⟨rfl, rfl⟩
  | string s =>
    cases value' with
    | foreign => cases plain'
    | int n => exact absurd same.symm (int_append_ne_string n s rest' rest)
    | string s' =>
      simp only [toList_shown_string, List.cons_append, List.append_assoc, List.nil_append,
        List.cons.injEq, true_and] at same
      obtain ⟨text, rfl⟩ := string_append_inj plain plain' same
      rw [String.toList_inj.1 text]
      exact ⟨rfl, rfl⟩

/-! ### Entries -/

def entryText (entry : String × Value) : List Char := entry.1.toList ++ '=' :: entry.2.shown.toList

theorem entry_append_inj {entry entry' : String × Value} (plain : PlainName entry.1 ∧ entry.2.Plain)
    (plain' : PlainName entry'.1 ∧ entry'.2.Plain) {rest rest' : List Char} (ends : Ends rest)
    (ends' : Ends rest') (same : entryText entry ++ rest = entryText entry' ++ rest') :
    entry = entry' ∧ rest = rest' := by
  obtain ⟨name, value⟩ := entry
  obtain ⟨name', value'⟩ := entry'
  obtain ⟨named, valued⟩ := plain
  obtain ⟨named', valued'⟩ := plain'
  have filled {name : String} (named : PlainName name) : name.toList ≠ [] :=
    fun empty => named.nonempty (String.toList_eq_nil_iff.1 empty)
  simp only [entryText, List.append_assoc, List.cons_append] at same
  obtain ⟨names, values⟩ := name_append_inj (filled named) (filled named') named.inside named'.inside
    (head?_shown_ne valued rest) (head?_shown_ne valued' rest') same
  obtain ⟨rfl, rfl⟩ := shown_append_inj valued valued' ends ends' values
  obtain rfl : name = name' := String.toList_inj.1 names
  exact ⟨rfl, rfl⟩

/-- The entries behind another one. -/
def tailText (entries : List (String × Value)) : List Char :=
  entries.flatMap fun entry => [',', ' '] ++ entryText entry

theorem ends_tailText (entries : List (String × Value)) : Ends (tailText entries) := by
  cases entries with
  | nil => simp [Ends, tailText]
  | cons entry entries => simp [Ends, tailText]

theorem tailText_inj {entries entries' : List (String × Value)}
    (plain : ∀ entry ∈ entries, PlainName entry.1 ∧ entry.2.Plain)
    (plain' : ∀ entry ∈ entries', PlainName entry.1 ∧ entry.2.Plain)
    (same : tailText entries = tailText entries') : entries = entries' := by
  induction entries generalizing entries' with
  | nil =>
    cases entries' with
    | nil => rfl
    | cons entry' entries' => simp [tailText] at same
  | cons entry entries ih =>
    cases entries' with
    | nil => simp [tailText] at same
    | cons entry' entries' =>
      obtain ⟨here, others⟩ := List.forall_mem_cons.1 plain
      obtain ⟨here', others'⟩ := List.forall_mem_cons.1 plain'
      have same : entryText entry ++ tailText entries = entryText entry' ++ tailText entries' := by
        simpa [tailText] using same
      obtain ⟨rfl, rest⟩ := entry_append_inj here here' (ends_tailText _) (ends_tailText _) same
      rw [ih others others' rest]

def listText (entries : List (String × Value)) : List Char := [',', ' '].intercalate (entries.map entryText)

theorem toList_dump (t : SymbolTable) : t.dump.toList = "Symbols: ".toList ++ listText t.entries := by
  rw [SymbolTable.dump, String.toList_append, String.toList_intercalate, List.map_map, listText]
  congr 2
  refine List.map_congr_left fun entry _ => ?_
  show (entry.1 ++ "=" ++ entry.2.shown).toList = entryText entry
  simp [entryText]

theorem listText_cons (entry : String × Value) (entries : List (String × Value)) :
    listText (entry :: entries) = entryText entry ++ tailText entries := by
  induction entries generalizing entry with
  | nil => simp [listText, tailText]
  | cons next entries ih =>
    have rest := ih next
    rw [listText, List.map_cons] at rest
    rw [listText, List.map_cons, List.map_cons, List.intercalate_cons_cons, rest, tailText, tailText,
      List.flatMap_cons]
    simp

theorem listText_eq_nil_iff (entries : List (String × Value)) : listText entries = [] ↔ entries = [] := by
  cases entries with
  | nil => simp [listText]
  | cons entry entries => simp [listText_cons, entryText]

theorem tailText_of_ne_nil {entries : List (String × Value)} (some : entries ≠ []) :
    tailText entries = [',', ' '] ++ listText entries := by
  obtain ⟨entry, entries, rfl⟩ := List.exists_cons_of_ne_nil some
  rw [listText_cons, tailText, List.flatMap_cons, List.append_assoc]
  rfl

end Dump

theorem dump_inj {t t' : SymbolTable} (plain : t.Plain) (plain' : t'.Plain) :
    t.dump = t'.dump ↔ t = t' := by
  refine ⟨fun same => ?_, congrArg SymbolTable.dump⟩
  rw [← String.toList_inj, Dump.toList_dump, Dump.toList_dump, List.append_cancel_left_eq] at same
  have entries : t.entries = t'.entries := by
    by_cases none : t.entries = []
    · rw [none, (Dump.listText_eq_nil_iff []).2 rfl, eq_comm, Dump.listText_eq_nil_iff] at same
      rw [none, same]
    · have some : t'.entries ≠ [] := by
        rwa [Ne, ← Dump.listText_eq_nil_iff, ← same, Dump.listText_eq_nil_iff]
      refine Dump.tailText_inj plain plain' ?_
      rw [Dump.tailText_of_ne_nil none, Dump.tailText_of_ne_nil some, same]
  cases t
  cases t'
  cases entries
  rfl

/-- A text with a quote in it may look like two. -/
example :
    let two : SymbolTable := (Table.empty.insert "a" (.string "1")).insert "b" (.string "2")
    let one : SymbolTable := Table.empty.insert "a" (.string "1\", b=\"2")
    two.dump = one.dump := by decide +kernel

end LineLang
