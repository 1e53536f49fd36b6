import LineLang.Proofs.Lexeme.Layout
import Mathlib.Algebra.Ring.Parity
import Mathlib.Order.Bounds.Basic

/-!
# Where splitting stops

`split_stops`: a line is split up to its first `//` that has an even number of quotes before it, or else
up to its end. In the second case an odd number of quotes is an error at the last of them.
-/

namespace LineLang

/-- Two slashes outside quotes. -/
def CommentStart (text : List Char) (i : Nat) : Prop :=
  (text.drop i).take 2 = ['/', '/'] ∧ Even ((text.take i).count '"')

/-- In front of `rest`, a text starts no comment and leaves no quote open. -/
structure Passed (front rest : List Char) : Prop where
  even : Even (front.count '"')
  noComment : ∀ i < front.length, ¬CommentStart (front ++ rest) i

/-! ### Comments -/

theorem getElem?_of_commentStart {text : List Char} {i : Nat} (h : CommentStart text i) :
    text[i]? = some '/' ∧ text[i + 1]? = some '/' := by
  have slashes (k : Nat) (below : k < 2) : text[i + k]? = ['/', '/'][k]? := by
    rw [← h.1, List.getElem?_take_of_lt below, List.getElem?_drop]
  exact ⟨slashes 0 (by omega), slashes 1 (by omega)⟩

theorem commentStart_append_iff {front : List Char} (even : Even (front.count '"')) (rest : List Char)
    (i : Nat) : CommentStart (front ++ rest) (front.length + i) ↔ CommentStart rest i := by
  simp only [CommentStart, List.drop_length_add_append, List.take_length_add_append,
    List.count_append, Nat.even_add, even, true_iff]

theorem commentStart_append_iff_of_passed {front rest : List Char} (h : Passed front rest) (i : Nat) :
    CommentStart (front ++ rest) i ↔ ∃ k, i = front.length + k ∧ CommentStart rest k := by
  constructor
  · intro start
    have beyond : front.length ≤ i := Nat.le_of_not_lt fun within => h.noComment i within start
    obtain ⟨k, rfl⟩ := Nat.exists_eq_add_of_le beyond
    exact ⟨k, rfl, (commentStart_append_iff h.even rest k).1 start⟩
  · rintro ⟨k, rfl, start⟩
    exact (commentStart_append_iff h.even rest k).2 start

/-! ### What is passed -/

theorem passed_of_plain {front : List Char} (plain : ∀ c ∈ front, c ≠ '"' ∧ c ≠ '/')
    (rest : List Char) : Passed front rest := by
  have unquoted : front.count '"' = 0 := List.count_eq_zero.2 fun member => (plain _ member).1 rfl
  refine ⟨by simp [unquoted], fun i within start => ?_⟩
  have slash := (getElem?_of_commentStart start).1
  rw [List.getElem?_append_left within] at slash
  exact (plain '/' (List.mem_of_getElem? slash)).2 rfl

theorem passed_slash {rest : List Char} (apart : rest.head? ≠ some '/') : Passed ['/'] rest := by
  refine ⟨by simp, fun i within start => ?_⟩
  obtain rfl : i = 0 := by simpa using within
  refine apart ?_
  rw [List.head?_eq_getElem?]
  exact (getElem?_of_commentStart start).2

/-- Between an opening quote and the place behind its partner, the number of quotes is odd. -/
theorem not_commentStart_of_quote {inner : List Char} (inside : '"' ∉ inner) (rest : List Char)
    {i : Nat} (within : i ≤ inner.length + 1) : ¬CommentStart ('"' :: (inner ++ rest)) i := by
  intro start
  cases i with
  | zero => simpa using (getElem?_of_commentStart start).1
  | succ k =>
    have none : (inner.take k).count '"' = 0 :=
      List.count_eq_zero.2 fun member => inside (List.mem_of_mem_take member)
    have odd := start.2
    rw [List.take_succ_cons, List.take_append_of_le_length (by omega), List.count_cons_self, none] at odd
    exact absurd odd (by decide)

theorem passed_of_quoted {inner : List Char} (inside : '"' ∉ inner) (rest : List Char) :
    Passed ('"' :: inner ++ ['"']) rest := by
  have none : inner.count '"' = 0 := List.count_eq_zero.2 inside
  refine ⟨by simp [none, even_two], fun i within => ?_⟩
  have whole : '"' :: inner ++ ['"'] ++ rest = '"' :: (inner ++ '"' :: rest) := by simp
  rw [whole]
  exact not_commentStart_of_quote inside _ (by simp at within; omega)

theorem passed_of_wellFormed {lexeme rest : List Char} (wellFormed : WellFormed lexeme)
    (follows : Follows lexeme rest) : Passed lexeme rest := by
  cases wellFormed with
  | quoted inside => exact passed_of_quoted inside rest
  | @digraph c joins =>
    have plain : ∀ c ∈ ['=', '!', '<', '>'], c ≠ '"' ∧ c ≠ '/' := by simp
    exact passed_of_plain (List.forall_mem_cons.2 ⟨plain c joins, by simp⟩) rest
  | @single c listed =>
    by_cases slash : c = '/'
    · subst slash
      exact passed_slash (follows.slash rfl)
    · have unquoted : ∀ c ∈ punctuation, c ≠ '"' := by simp [punctuation]
      exact passed_of_plain (List.forall_mem_singleton.2 ⟨unquoted c listed, slash⟩) rest
  | word word =>
    refine passed_of_plain (fun c member => ?_) rest
    obtain ⟨-, unlisted, unquoted⟩ := (isWordChar_iff c).1 (word.2 c member)
    exact ⟨unquoted, fun same => unlisted (same ▸ by decide)⟩

theorem passed_of_blank {c : Char} (blank : isBlank c = true) (rest : List Char) : Passed [c] rest := by
  refine passed_of_plain (List.forall_mem_singleton.2 ⟨?_, ?_⟩) rest
  · rintro rfl
    cases blank
  · rintro rfl
    cases blank

/-! ### The place where splitting stops -/

/-- How splitting a text that stands at `index` and in `column` ends, and where. -/
inductive Stops (index column : Nat) (text : List Char) :
    Except OpenQuote (List String) × Cursor → Prop where
  | comment {i : Nat} {lexemes : List String} : IsLeast {i | CommentStart text i} i →
      Stops index column text (.ok lexemes, ⟨index + i, column + i, text.drop i⟩)
  | done {lexemes : List String} : (∀ i, ¬CommentStart text i) → Even (text.count '"') →
      Stops index column text (.ok lexemes, ⟨index + text.length, column + text.length, []⟩)
  | openQuote {front back : List Char} : (∀ i, ¬CommentStart text i) → Odd (text.count '"') →
      text = front ++ '"' :: back → '"' ∉ back → Stops index column text
        (.error ⟨column + front.length⟩, ⟨index + text.length, column + text.length, []⟩)

theorem stops_append {index column : Nat} {front rest : List Char} (passed : Passed front rest)
    (before : List String → List String) {result : Except OpenQuote (List String)} {stop : Cursor}
    (h : Stops (index + front.length) (column + front.length) rest (result, stop)) :
    Stops index column (front ++ rest) (result.map before, stop) := by
  have starts := commentStart_append_iff_of_passed passed
  have noStart (none : ∀ i, ¬CommentStart rest i) : ∀ i, ¬CommentStart (front ++ rest) i := by
    intro i start
    obtain ⟨k, -, behind⟩ := (starts i).1 start
    exact none k behind
  cases h with
  | @comment i lexemes least =>
    have least : IsLeast {i | CommentStart (front ++ rest) i} (front.length + i) := by
      refine ⟨(starts _).2 ⟨i, rfl, least.1⟩, fun j start => ?_⟩
      obtain ⟨k, rfl, behind⟩ := (starts j).1 start
      exact Nat.add_le_add_left (least.2 behind) _
    have there : Stops index column (front ++ rest) (.ok (before lexemes), _) := .comment least
    rwa [List.drop_length_add_append, ← Nat.add_assoc, ← Nat.add_assoc] at there
  | @done lexemes none even =>
    have there : Stops index column (front ++ rest) (.ok (before lexemes), _) := .done (noStart none)
      (by rw [List.count_append]; exact passed.even.add even)
    rwa [List.length_append, ← Nat.add_assoc, ← Nat.add_assoc] at there
  | @openQuote front' back none odd cut last =>
    have there : Stops index column (front ++ rest) (.error ⟨column + (front ++ front').length⟩, _) :=
      .openQuote (noStart none) (by rw [List.count_append]; exact passed.even.add_odd odd)
        (by rw [cut, List.append_assoc]) last
    rwa [List.length_append, List.length_append, ← Nat.add_assoc, ← Nat.add_assoc, ← Nat.add_assoc]
      at there

theorem quote_of_readLexeme_eq_none {c : Char} {cs : List Char} (h : readLexeme c cs = none) :
    c = '"' ∧ '"' ∉ cs := by
  unfold readLexeme at h
  split at h
  · rename_i quote
    split at h
    · rename_i all
      refine ⟨quote, fun member => ?_⟩
      simpa using List.dropWhile_eq_nil_iff.1 all '"' member
    · cases h
  · repeat' split at h
    all_goals cases h

theorem stops_splitFrom (index column : Nat) (text : List Char) :
    Stops index column text (splitFrom index column text) := by
  induction index, column, text using splitFrom.induct with
  | case1 index column =>
    rw [splitFrom_nil]
    exact .done (fun i start => by simpa using (getElem?_of_commentStart start).1) (by simp)
  | case2 index column c rest blank ih =>
    rw [splitFrom_blank blank]
    have there := stops_append (passed_of_blank blank rest) id ih
    rwa [Except.map_id] at there
  | case3 index column c rest blank comment =>
    obtain ⟨rfl, head⟩ := comment
    obtain ⟨text, rfl⟩ := List.head?_eq_some_iff.1 head
    rw [splitFrom_comment]
    exact .comment (i := 0) ⟨⟨rfl, by simp⟩, fun _ _ => Nat.zero_le _⟩
  | case4 index column c rest blank noComment none =>
    obtain ⟨rfl, unquoted⟩ := quote_of_readLexeme_eq_none none
    rw [splitFrom_open (by simpa using blank) noComment none]
    have here : '"' :: rest = [] ++ '"' :: rest := rfl
    refine .openQuote (fun i start => ?_) ?_ here unquoted
    · have inside := (List.getElem?_eq_some_iff.1 (getElem?_of_commentStart start).1).1
      rw [← List.append_nil rest] at start
      exact not_commentStart_of_quote unquoted [] (Nat.le_of_lt inside) start
    · rw [List.count_cons_self, List.count_eq_zero.2 unquoted]
      exact odd_one
  | case5 index column c rest blank noComment lexeme after found _ _ _ ih =>
    have blank : isBlank c = false := by simpa using blank
    obtain ⟨wellFormed, follows⟩ := follows_of_readLexeme blank noComment found
    rw [splitFrom_lexeme blank noComment found, ← append_of_readLexeme found]
    exact stops_append (passed_of_wellFormed wellFormed follows) _ ih

/-- Splitting again from the place where it has stopped finds nothing and stays there. -/
theorem split_of_stops {index column : Nat} {text : List Char} {result : Except OpenQuote (List String)}
    {stop : Cursor} (h : Stops index column text (result, stop)) : stop.split = (.ok [], stop) := by
  cases h with
  | @comment i lexemes least =>
    have slashes : text.drop i = '/' :: '/' :: (text.drop i).drop 2 := by
      conv_lhs => rw [← List.take_append_drop 2 (text.drop i), least.1.1]
      rfl
    show splitFrom (index + i) (column + i) (text.drop i) = _
    rw [slashes, splitFrom_comment]
  | done | openQuote => exact splitFrom_nil _ _

/-- A line has an open quote if and only if no comment starts in it and its number of quotes is odd; the
message then names the column of the last one. Splitting stops at the first comment or at the end, and
doing it again changes nothing. -/
theorem split_stops (line file : String) (number : Int) :
    let text := line.toList
    let result := (Cursor.ofLine line).split.1
    let stop := (Cursor.ofLine line).split.2
    ((∃ quote, result = .error quote) ↔
        (∀ i, ¬CommentStart text i) ∧ Odd (text.count '"')) ∧
      (∀ quote, result = .error quote → ∃ front back, text = front ++ '"' :: back ∧ '"' ∉ back ∧
        quote.message file number =
          s!"Unterminated string literal at {file}:{number}:{front.length + 1}") ∧
      (∀ i, IsLeast {i | CommentStart text i} i → stop.index = i) ∧
      ((∀ i, ¬CommentStart text i) → stop.index = text.length) ∧
      stop.column = stop.index + 1 ∧ stop.split = (.ok [], stop) := by
  intro text result stop
  have stops : Stops 0 1 text (result, stop) := stops_splitFrom 0 1 text
  have again := split_of_stops stops
  have together (n : Nat) : 1 + n = 0 + n + 1 := by omega
  clear_value result stop
  cases stops with
  | @comment i lexemes least =>
    refine ⟨iff_of_false (by simp) fun none => none.1 i least.1, by simp, fun k least' => ?_,
      fun none => absurd least.1 (none i), together i, again⟩
    rw [least'.unique least, Nat.zero_add]
  | done none even =>
    exact ⟨iff_of_false (by simp) fun odd => Nat.not_even_iff_odd.2 odd.2 even, by simp,
      fun i least => absurd least.1 (none i), fun _ => Nat.zero_add _, together _, again⟩
  | @openQuote front back none odd cut last =>
    refine ⟨iff_of_true ⟨_, rfl⟩ ⟨none, odd⟩, ?_, fun i least => absurd least.1 (none i),
      fun _ => Nat.zero_add _, together _, again⟩
    rintro quote failed
    cases failed
    rw [Nat.add_comm 1]
    exact ⟨front, back, cut, last, rfl⟩

/-- Slashes inside quotes start no comment, and neither do those behind the first quote that stays open. -/
example : (Cursor.ofLine "a/\"//\"b \"c//").split.1 = .error ⟨9⟩ := by decide +kernel

end LineLang
