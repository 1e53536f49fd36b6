import LineLang.Lexeme.Split
import Mathlib.Data.List.TakeWhile

/-!
# Layouts of lexemes

A line is a layout of lexemes when it has them in order, apart from blanks and a comment, and no two
neighbours run together. `splitLine_eq_ok_iff_laidOut`: a line is split into the lexemes that it is a
layout of, and every layout is split.
-/

namespace LineLang

def IsWord (lexeme : List Char) : Prop := lexeme ≠ [] ∧ ∀ c ∈ lexeme, isWordChar c = true

inductive WellFormed : List Char → Prop where
  | quoted {inner : List Char} : '"' ∉ inner → WellFormed ('"' :: inner ++ ['"'])
  | digraph {c : Char} : c ∈ ['=', '!', '<', '>'] → WellFormed [c, '=']
  | single {c : Char} : c ∈ punctuation → WellFormed [c]
  | word {lexeme : List Char} : IsWord lexeme → WellFormed lexeme

/-- Without a blank between them, the texts would not be read as two. -/
def Glues (left right : List Char) : Prop :=
  (IsWord left ∧ IsWord right) ∨
    ((∃ c ∈ ['=', '!', '<', '>'], left = [c]) ∧ right.head? = some '=') ∨
      (left = ['/'] ∧ right.head? = some '/')

/-- The text between two neighbours; at the start of a line there is no left one. -/
structure Gap (left : Option (List Char)) (gap right : List Char) : Prop where
  blank : ∀ c ∈ gap, isBlank c = true
  apart : ∀ lexeme ∈ left, Glues lexeme right → gap ≠ []

/-- A text behind a lexeme, or at the start of a line, is a layout of lexemes. -/
inductive LaidOut : Option (List Char) → List (List Char) → List Char → Prop where
  | done {left : Option (List Char)} {gap : List Char} :
      (∀ c ∈ gap, isBlank c = true) → LaidOut left [] gap
  | comment {left : Option (List Char)} {gap text : List Char} :
      Gap left gap ('/' :: '/' :: text) → LaidOut left [] (gap ++ '/' :: '/' :: text)
  | lexeme {left : Option (List Char)} {gap lexeme rest : List Char} {lexemes : List (List Char)} :
      Gap left gap lexeme → WellFormed lexeme → LaidOut (some lexeme) lexemes rest →
        LaidOut left (lexeme :: lexemes) (gap ++ (lexeme ++ rest))

/-! ### Single characters -/

theorem joinsEquals_iff (c : Char) : joinsEquals c = true ↔ c ∈ ['=', '!', '<', '>'] := by
  simp [joinsEquals, or_assoc]

theorem isPunctuation_iff (c : Char) : isPunctuation c = true ↔ c ∈ punctuation := by
  rw [isPunctuation, List.contains_iff_mem]

theorem mem_punctuation_of_joinsEquals : ∀ c ∈ ['=', '!', '<', '>'], c ∈ punctuation := by
  simp [punctuation]

theorem not_blank_of_mem_punctuation : ∀ c ∈ punctuation, isBlank c = false := by
  simp [punctuation, isBlank]

theorem isWordChar_iff (c : Char) :
    isWordChar c = true ↔ isBlank c = false ∧ c ∉ punctuation ∧ c ≠ '"' := by
  simp [isWordChar, ← isPunctuation_iff, and_assoc]

theorem not_isWord_of_mem_punctuation {c : Char} (h : c ∈ punctuation) (cs : List Char) :
    ¬IsWord (c :: cs) := by
  rintro ⟨-, word⟩
  exact ((isWordChar_iff c).1 (word c List.mem_cons_self)).2.1 h

theorem not_blank_of_wellFormed {c : Char} {cs : List Char} (h : WellFormed (c :: cs)) :
    isBlank c = false := by
  generalize whole : c :: cs = lexeme at h
  cases h with
  | quoted =>
    cases whole
    rfl
  | digraph joins =>
    cases whole
    exact not_blank_of_mem_punctuation c (mem_punctuation_of_joinsEquals c joins)
  | single punctuation =>
    cases whole
    exact not_blank_of_mem_punctuation c punctuation
  | word word =>
    subst whole
    exact ((isWordChar_iff c).1 (word.2 c List.mem_cons_self)).1

theorem ne_nil_of_wellFormed {lexeme : List Char} (h : WellFormed lexeme) : lexeme ≠ [] := by
  cases h with
  | quoted | digraph | single => simp
  | word word => exact word.1

/-! ### Reading one lexeme -/

/-- What stands behind a lexeme does not belong to it, nor does it make a comment of it. -/
structure Follows (lexeme rest : List Char) : Prop where
  word : IsWord lexeme → ∀ c ∈ rest.head?, isWordChar c = false
  equals : ∀ c ∈ ['=', '!', '<', '>'], lexeme = [c] → rest.head? ≠ some '='
  slash : lexeme = ['/'] → rest.head? ≠ some '/'

theorem takeWhile_append_of_head {p : Char → Bool} {inside rest : List Char}
    (all : ∀ c ∈ inside, p c = true) (stop : ∀ c ∈ rest.head?, p c = false) :
    (inside ++ rest).takeWhile p = inside ∧ (inside ++ rest).dropWhile p = rest := by
  rw [List.takeWhile_append_of_pos all, List.dropWhile_append_of_pos all]
  cases rest with
  | nil => simp
  | cons c rest => simp [stop c rfl]

theorem not_of_mem_head?_dropWhile {p : Char → Bool} {cs : List Char} :
    ∀ c ∈ (cs.dropWhile p).head?, p c = false := by
  intro c head
  have := List.head?_dropWhile_not p cs
  rw [Option.mem_def.1 head] at this
  simpa using this

theorem follows_quoted (inner rest : List Char) : Follows ('"' :: inner) rest := by
  refine ⟨?_, ?_, ?_⟩
  · rintro ⟨-, word⟩
    exact absurd rfl ((isWordChar_iff '"').1 (word '"' List.mem_cons_self)).2.2
  · rintro c joins same
    obtain ⟨rfl, -⟩ := List.cons.inj same
    exact absurd joins (by decide)
  · intro same
    cases same

theorem follows_digraph {c : Char} (listed : c ∈ punctuation) (rest : List Char) :
    Follows [c, '='] rest :=
  ⟨fun word => absurd word (not_isWord_of_mem_punctuation listed _), by simp, by simp⟩

theorem follows_single {c : Char} {rest : List Char} (listed : c ∈ punctuation)
    (equals : joinsEquals c = true → rest.head? ≠ some '=')
    (slash : ¬(c = '/' ∧ rest.head? = some '/')) : Follows [c] rest := by
  refine ⟨fun word => absurd word (not_isWord_of_mem_punctuation listed _), ?_, ?_⟩
  · intro joiner joins same
    obtain rfl := List.singleton_inj.1 same
    exact equals ((joinsEquals_iff c).2 joins)
  · intro same head
    exact slash ⟨List.singleton_inj.1 same, head⟩

theorem follows_word {c : Char} (unlisted : c ∉ punctuation) (text : List Char) {rest : List Char}
    (stop : ∀ d ∈ rest.head?, isWordChar d = false) : Follows (c :: text) rest := by
  refine ⟨fun _ => stop, ?_, ?_⟩
  · intro joiner joins same
    obtain ⟨rfl, -⟩ := List.cons.inj same
    exact absurd (mem_punctuation_of_joinsEquals c joins) unlisted
  · intro same
    obtain ⟨rfl, -⟩ := List.cons.inj same
    exact absurd (by simp [punctuation]) unlisted

theorem follows_of_readLexeme {c : Char} {cs lexeme rest : List Char} (blank : isBlank c = false)
    (noComment : ¬(c = '/' ∧ cs.head? = some '/')) (h : readLexeme c cs = some (lexeme, rest)) :
    WellFormed lexeme ∧ Follows lexeme rest := by
  unfold readLexeme at h
  split at h
  · rename_i quote
    subst quote
    split at h
    · cases h
    · rename_i closing tail found
      cases h
      have head : closing ∈ (cs.dropWhile (· != '"')).head? := by
        rw [found]
        rfl
      have stop := not_of_mem_head?_dropWhile closing head
      obtain rfl : closing = '"' := by simpa using stop
      refine ⟨.quoted fun member => ?_, follows_quoted _ _⟩
      simpa using List.mem_takeWhile_imp member
  split at h
  · rename_i noQuote sign
    have listed := (isPunctuation_iff c).1 sign
    split at h
    · rename_i next rest
      split at h
      · rename_i joined
        obtain ⟨joins, rfl⟩ : joinsEquals c = true ∧ next = '=' := by simpa using joined
        cases h
        exact ⟨.digraph ((joinsEquals_iff c).1 joins), follows_digraph listed rest⟩
      · rename_i apart
        cases h
        have noEquals : joinsEquals c = true → (next :: rest).head? ≠ some '=' := by
          intro joins head
          exact apart (by simpa [joins] using head)
        exact ⟨.single listed, follows_single listed noEquals noComment⟩
    · cases h
      exact ⟨.single listed, follows_single listed (by simp) (by simp)⟩
  · rename_i noQuote noSign
    cases h
    have unlisted : c ∉ punctuation := fun listed => noSign ((isPunctuation_iff c).2 listed)
    have first : isWordChar c = true := (isWordChar_iff c).2 ⟨blank, unlisted, noQuote⟩
    have all : ∀ d ∈ c :: cs.takeWhile isWordChar, isWordChar d = true :=
      List.forall_mem_cons.2 ⟨first, fun d member => List.mem_takeWhile_imp member⟩
    exact ⟨.word ⟨by simp, all⟩, follows_word unlisted _ not_of_mem_head?_dropWhile⟩

theorem readLexeme_of_follows {c : Char} {cs lexeme rest : List Char} (wellFormed : WellFormed lexeme)
    (follows : Follows lexeme rest) (whole : lexeme ++ rest = c :: cs) :
    readLexeme c cs = some (lexeme, rest) := by
  unfold readLexeme
  cases wellFormed with
  | @quoted inner inside =>
    simp only [List.cons_append, List.append_assoc, List.nil_append, List.cons.injEq] at whole
    obtain ⟨rfl, rfl⟩ := whole
    have unquoted : ∀ c ∈ inner, (c != '"') = true := by
      intro c member
      exact bne_iff_ne.2 fun same => inside (same ▸ member)
    have closes : ∀ c ∈ ('"' :: rest).head?, (c != '"') = false := by simp
    obtain ⟨inside, behind⟩ := takeWhile_append_of_head unquoted closes
    rw [if_pos rfl, inside, behind]
  | @digraph first joins =>
    obtain ⟨rfl, rfl⟩ := List.cons.inj whole
    have listed := mem_punctuation_of_joinsEquals first joins
    rw [if_neg (by rintro rfl; exact absurd joins (by decide)), if_pos ((isPunctuation_iff _).2 listed)]
    simp [(joinsEquals_iff first).2 joins]
  | @single first listed =>
    obtain ⟨rfl, rfl⟩ := List.cons.inj whole
    rw [if_neg (by rintro rfl; exact absurd listed (by decide)), if_pos ((isPunctuation_iff _).2 listed)]
    cases rest with
    | nil => rfl
    | cons next rest =>
      have apart : (joinsEquals first && next == '=') = false := by
        by_contra joined
        obtain ⟨joins, rfl⟩ : joinsEquals first = true ∧ next = '=' := by simpa using joined
        exact follows.equals first ((joinsEquals_iff first).1 joins) rfl rfl
      simp [apart]
  | word word =>
    cases lexeme with
    | nil => exact absurd rfl word.1
    | cons first text =>
      simp only [List.cons_append, List.cons.injEq] at whole
      obtain ⟨rfl, rfl⟩ := whole
      obtain ⟨-, unlisted, noQuote⟩ := (isWordChar_iff first).1 (word.2 first List.mem_cons_self)
      have others : ∀ c ∈ text, isWordChar c = true := fun c member =>
        word.2 c (List.mem_cons_of_mem _ member)
      obtain ⟨inside, behind⟩ := takeWhile_append_of_head others (follows.word word)
      rw [if_neg noQuote, if_neg (fun sign => unlisted ((isPunctuation_iff _).1 sign)), inside, behind]

/-! ### Neighbours -/

theorem not_glues_of_follows {left right rest : List Char} (nonempty : right ≠ [])
    (follows : Follows left (right ++ rest)) : ¬Glues left right := by
  obtain ⟨c, cs, rfl⟩ := List.exists_cons_of_ne_nil nonempty
  rintro (⟨word, word'⟩ | ⟨⟨joiner, joins, same⟩, head⟩ | ⟨same, head⟩)
  · have stops := follows.word word c rfl
    rw [word'.2 c List.mem_cons_self] at stops
    cases stops
  · exact follows.equals joiner joins same head
  · exact follows.slash same head

theorem follows_of_not_glues {left right rest : List Char} (nonempty : right ≠ [])
    (word : ∀ c ∈ right.head?, isWordChar c = true → IsWord right) (h : ¬Glues left right) :
    Follows left (right ++ rest) := by
  have head : (right ++ rest).head? = right.head? := by
    obtain ⟨c, cs, rfl⟩ := List.exists_cons_of_ne_nil nonempty
    rfl
  constructor
  · intro isWord c first
    rw [head] at first
    by_contra more
    exact h (.inl ⟨isWord, word c first (by simpa using more)⟩)
  · intro joiner joins same equals
    exact h (.inr (.inl ⟨⟨joiner, joins, same⟩, head ▸ equals⟩))
  · intro same slash
    exact h (.inr (.inr ⟨same, head ▸ slash⟩))

theorem follows_of_blank {c : Char} (blank : isBlank c = true) (left rest : List Char) :
    Follows left (c :: rest) := by
  have other : ∀ d ∈ punctuation, c ≠ d := by
    rintro d listed rfl
    rw [not_blank_of_mem_punctuation c listed] at blank
    cases blank
  refine ⟨?_, ?_, ?_⟩
  · rintro - d head
    cases head
    simp [isWordChar, blank]
  · rintro - - - head
    exact other '=' (by decide) (Option.some.inj head)
  · rintro - head
    exact other '/' (by decide) (Option.some.inj head)

theorem isWord_of_wellFormed {lexeme : List Char} (h : WellFormed lexeme) :
    ∀ c ∈ lexeme.head?, isWordChar c = true → IsWord lexeme := by
  intro c head first
  obtain ⟨-, unlisted, noQuote⟩ := (isWordChar_iff c).1 first
  cases h with
  | quoted => exact absurd (Option.some.inj head).symm noQuote
  | digraph joins =>
    cases head
    exact absurd (mem_punctuation_of_joinsEquals c joins) unlisted
  | single listed =>
    cases head
    exact absurd listed unlisted
  | word word => exact word

theorem follows_of_gap {left gap right rest : List Char} (h : Gap (some left) gap right)
    (nonempty : right ≠ []) (word : ∀ c ∈ right.head?, isWordChar c = true → IsWord right) :
    Follows left (gap ++ (right ++ rest)) := by
  cases gap with
  | nil =>
    show Follows left (right ++ rest)
    exact follows_of_not_glues nonempty word fun glues => h.apart left rfl glues rfl
  | cons c gap => exact follows_of_blank (h.blank c List.mem_cons_self) left _

theorem follows_of_laidOut {left cs : List Char} {lexemes : List (List Char)}
    (h : LaidOut (some left) lexemes cs) : Follows left cs := by
  cases h with
  | done blank =>
    cases cs with
    | nil => exact ⟨by simp, by simp, by simp⟩
    | cons c cs => exact follows_of_blank (blank c List.mem_cons_self) left cs
  | @comment _ gap text apart =>
    rw [← List.append_nil ('/' :: '/' :: text)]
    refine follows_of_gap apart (by simp) ?_
    rintro c head first
    cases head
    cases first
  | lexeme apart wellFormed =>
    exact follows_of_gap apart (ne_nil_of_wellFormed wellFormed) (isWord_of_wellFormed wellFormed)

/-! ### Splitting -/

theorem splitFrom_nil (index column : Nat) :
    splitFrom index column [] = (.ok [], ⟨index, column, []⟩) := by
  rw [splitFrom.eq_def]

theorem splitFrom_blank {c : Char} (blank : isBlank c = true) (index column : Nat)
    (cs : List Char) : splitFrom index column (c :: cs) = splitFrom (index + 1) (column + 1) cs := by
  rw [splitFrom.eq_def]
  dsimp only
  rw [if_pos blank]

theorem splitFrom_comment (index column : Nat) (text : List Char) :
    splitFrom index column ('/' :: '/' :: text) = (.ok [], ⟨index, column, '/' :: '/' :: text⟩) := by
  rw [splitFrom.eq_def]
  dsimp only
  rw [if_neg (by decide), if_pos ⟨rfl, rfl⟩]

section Reading

variable {c : Char} {cs : List Char} (blank : isBlank c = false)
  (noComment : ¬(c = '/' ∧ cs.head? = some '/'))
include blank noComment

theorem splitFrom_open (none : readLexeme c cs = none) (index column : Nat) :
    splitFrom index column (c :: cs) =
      (.error ⟨column⟩, ⟨index + (cs.length + 1), column + (cs.length + 1), []⟩) := by
  rw [splitFrom.eq_def]
  dsimp only
  rw [if_neg (by simp [blank]), if_neg noComment]
  split
  · rfl
  · rename_i some
    rw [none] at some
    cases some

theorem splitFrom_lexeme {lexeme rest : List Char} (found : readLexeme c cs = some (lexeme, rest))
    (index column : Nat) : splitFrom index column (c :: cs) =
      ((splitFrom (index + lexeme.length) (column + lexeme.length) rest).1.map (String.ofList lexeme :: ·),
        (splitFrom (index + lexeme.length) (column + lexeme.length) rest).2) := by
  rw [splitFrom.eq_def]
  dsimp only
  rw [if_neg (by simp [blank]), if_neg noComment]
  split
  · rename_i none
    rw [found] at none
    cases none
  · rename_i some
    rw [found] at some
    cases some
    rfl

end Reading

theorem splitFrom_gap {gap : List Char} (blank : ∀ c ∈ gap, isBlank c = true) (index column : Nat)
    (cs : List Char) :
    splitFrom index column (gap ++ cs) = splitFrom (index + gap.length) (column + gap.length) cs := by
  induction gap generalizing index column with
  | nil => rfl
  | cons c gap ih =>
    have further (n : Nat) : n + 1 + gap.length = n + (c :: gap).length := by
      rw [List.length_cons, Nat.add_right_comm, Nat.add_assoc]
    rw [List.cons_append, splitFrom_blank (blank c List.mem_cons_self),
      ih (fun d member => blank d (List.mem_cons_of_mem _ member)), further, further]

theorem laidOut_cons_blank {c : Char} (blank : isBlank c = true) {left : Option (List Char)}
    {lexemes : List (List Char)} {cs : List Char} (h : LaidOut none lexemes cs) :
    LaidOut left lexemes (c :: cs) := by
  have longer {gap : List Char} (others : ∀ d ∈ gap, isBlank d = true) :
      ∀ d ∈ c :: gap, isBlank d = true := List.forall_mem_cons.2 ⟨blank, others⟩
  cases h with
  | done others => exact .done (longer others)
  | @comment _ gap text apart =>
    show LaidOut left [] ((c :: gap) ++ '/' :: '/' :: text)
    exact .comment ⟨longer apart.blank, fun _ _ _ => by simp⟩
  | @lexeme _ gap lexeme rest lexemes apart wellFormed behind =>
    show LaidOut left (lexeme :: lexemes) ((c :: gap) ++ (lexeme ++ rest))
    exact .lexeme ⟨longer apart.blank, fun _ _ _ => by simp⟩ wellFormed behind

theorem laidOut_of_splitFrom {index column : Nat} {cs : List Char} {lexemes : List String}
    (h : (splitFrom index column cs).1 = .ok lexemes) {left : Option (List Char)}
    (follows : ∀ lexeme ∈ left, Follows lexeme cs) :
    LaidOut left (lexemes.map String.toList) cs := by
  induction index, column, cs using splitFrom.induct generalizing left lexemes with
  | case1 index column =>
    rw [splitFrom_nil] at h
    cases h
    exact .done (by simp)
  | case2 index column c rest blank ih =>
    rw [splitFrom_blank blank] at h
    -- behind a blank nothing can glue, so that the left neighbour is forgotten
    exact laidOut_cons_blank blank (ih h (by simp))
  | case3 index column c rest blank comment =>
    obtain ⟨rfl, head⟩ := comment
    obtain ⟨text, rfl⟩ := List.head?_eq_some_iff.1 head
    rw [splitFrom_comment] at h
    cases h
    show LaidOut left [] ([] ++ '/' :: '/' :: text)
    refine .comment ⟨by simp, fun lexeme before glues => ?_⟩
    have apart := follows lexeme before
    rw [← List.append_nil ('/' :: '/' :: text)] at apart
    exact absurd glues (not_glues_of_follows (by simp) apart)
  | case4 index column c rest blank noComment none =>
    rw [splitFrom_open (by simpa using blank) noComment none] at h
    cases h
  | case5 index column c rest blank noComment lexeme after found _ _ _ ih =>
    have blank : isBlank c = false := by simpa using blank
    rw [splitFrom_lexeme blank noComment found] at h
    obtain ⟨wellFormed, separate⟩ := follows_of_readLexeme blank noComment found
    have whole := append_of_readLexeme found
    cases split : (splitFrom (index + lexeme.length) (column + lexeme.length) after).1 with
    | error quote =>
      rw [split] at h
      cases h
    | ok others =>
      rw [split] at h
      cases h
      have behind : LaidOut (some lexeme) (others.map String.toList) after :=
        ih split (by simpa using separate)
      rw [← whole, List.map_cons, String.toList_ofList]
      show LaidOut left (lexeme :: others.map String.toList) ([] ++ (lexeme ++ after))
      refine .lexeme ⟨by simp, fun left before glues => ?_⟩ wellFormed behind
      have apart := follows left before
      rw [← whole] at apart
      exact absurd glues (not_glues_of_follows (ne_nil_of_wellFormed wellFormed) apart)

theorem noComment_of_wellFormed {c : Char} {cs rest : List Char} (wellFormed : WellFormed (c :: cs))
    (follows : Follows (c :: cs) rest) : ¬(c = '/' ∧ (cs ++ rest).head? = some '/') := by
  rintro ⟨rfl, head⟩
  generalize whole : '/' :: cs = lexeme at wellFormed
  cases wellFormed with
  | quoted => cases whole
  | digraph joins =>
    cases whole
    exact absurd joins (by decide)
  | single =>
    cases whole
    exact follows.slash rfl head
  | word word =>
    subst whole
    exact not_isWord_of_mem_punctuation (by decide) cs word

theorem splitFrom_of_laidOut {left : Option (List Char)} {lexemes : List (List Char)}
    {cs : List Char} (h : LaidOut left lexemes cs) (index column : Nat) :
    (splitFrom index column cs).1 = .ok (lexemes.map String.ofList) := by
  induction h generalizing index column with
  | @done _ gap blank =>
    rw [← List.append_nil gap, splitFrom_gap blank, splitFrom_nil]
    rfl
  | comment apart =>
    rw [splitFrom_gap apart.blank, splitFrom_comment]
    rfl
  | @lexeme _ gap lexeme rest _ apart wellFormed behind ih =>
    have follows := follows_of_laidOut behind
    obtain ⟨c, cs, rfl⟩ := List.exists_cons_of_ne_nil (ne_nil_of_wellFormed wellFormed)
    have blank := not_blank_of_wellFormed wellFormed
    have found := readLexeme_of_follows wellFormed follows rfl
    have noComment := noComment_of_wellFormed wellFormed follows
    rw [splitFrom_gap apart.blank, List.cons_append, splitFrom_lexeme blank noComment found, ih]
    rfl

/-! ### Lexemes of a line -/

section Parts

variable {left : Option (List Char)} {lexemes : List (List Char)} {cs : List Char}

theorem wellFormed_of_laidOut (h : LaidOut left lexemes cs) : ∀ lexeme ∈ lexemes, WellFormed lexeme := by
  induction h with
  | done | comment => simp
  | lexeme _ wellFormed _ ih => exact List.forall_mem_cons.2 ⟨wellFormed, ih⟩

theorem subset_of_laidOut (h : LaidOut left lexemes cs) : ∀ lexeme ∈ lexemes, lexeme ⊆ cs := by
  induction h with
  | done | comment => simp
  | lexeme _ _ _ ih =>
    refine List.forall_mem_cons.2 ⟨fun c member => by simp [member], fun other member c inside => ?_⟩
    simp [ih other member inside]

end Parts

/-- Lexemes with a space between any two are laid out. -/
theorem laidOut_intercalate {lexemes : List (List Char)} (h : ∀ lexeme ∈ lexemes, WellFormed lexeme) :
    LaidOut none lexemes ([' '].intercalate lexemes) := by
  have noGap (lexeme : List Char) : Gap none [] lexeme := ⟨by simp, by simp⟩
  induction lexemes with
  | nil =>
    rw [List.intercalate_nil]
    exact .done (by simp)
  | cons lexeme lexemes ih =>
    obtain ⟨wellFormed, others⟩ := List.forall_mem_cons.1 h
    cases lexemes with
    | nil =>
      have alone : LaidOut none [lexeme] ([] ++ (lexeme ++ [])) :=
        .lexeme (noGap lexeme) wellFormed (.done (by simp))
      simpa using alone
    | cons next lexemes =>
      rw [List.intercalate_cons_cons, List.append_assoc]
      exact .lexeme (noGap lexeme) wellFormed (laidOut_cons_blank rfl (ih others))

theorem laidOut_of_splitLine {line : String} {lexemes : List String} (h : splitLine line = .ok lexemes) :
    LaidOut none (lexemes.map String.toList) line.toList :=
  laidOut_of_splitFrom h (by simp)

theorem splitLine_of_laidOut {line : String} {lexemes : List String}
    (h : LaidOut none (lexemes.map String.toList) line.toList) : splitLine line = .ok lexemes := by
  show (splitFrom 0 1 line.toList).1 = .ok lexemes
  rw [splitFrom_of_laidOut h 0 1, List.map_map]
  simp [Function.comp_def]

theorem ne_empty_of_splitLine {line : String} {lexemes : List String}
    (h : splitLine line = .ok lexemes) : ∀ lexeme ∈ lexemes, lexeme ≠ "" := by
  rintro _ member rfl
  have wellFormed := wellFormed_of_laidOut (laidOut_of_splitLine h)
  exact ne_nil_of_wellFormed (wellFormed _ (List.mem_map_of_mem member)) rfl

/-- A line is split into exactly the lexemes that it is a layout of. -/
theorem splitLine_eq_ok_iff_laidOut (line : String) (lexemes : List String) :
    splitLine line = .ok lexemes ↔ LaidOut none (lexemes.map String.toList) line.toList :=
  ⟨laidOut_of_splitLine, splitLine_of_laidOut⟩

example : splitLine "a===b///c" = .ok ["a", "==", "=", "b"] := by decide +kernel

end LineLang
