import LineLang.Proofs.Lexeme.Decimal
import LineLang.Proofs.Lexeme.Layout
import LineLang.Text.Numeral
import Mathlib.Data.List.DropRight
import Mathlib.Data.Nat.Digits.Defs

/-!
# What numerals denote

`parse?_eq_some_iff`: the texts that are read as integers are those that the grammar of numerals allows,
and each is read as its positional value.
-/

namespace LineLang

namespace Numeral

/-- The digits of a run in which single `_` may stand between neighbours. -/
inductive Digits : List Char → List Nat → Prop where
  | last {c : Char} {d : Nat} : digitValue? c = some d → Digits [c] [d]
  | next {c : Char} {d : Nat} {cs : List Char} {ds : List Nat} :
      digitValue? c = some d → Digits cs ds → Digits (c :: cs) (d :: ds)
  | gap {c : Char} {d : Nat} {cs : List Char} {ds : List Nat} :
      digitValue? c = some d → Digits cs ds → Digits (c :: '_' :: cs) (d :: ds)

/-- The number that digits write in base ten. -/
def place (digits : List Nat) : Nat := Nat.ofDigits 10 digits.reverse

/-- Digits with at most one sign right before them, and the number that they write. -/
inductive Signed : List Char → Int → Prop where
  | unsigned {cs : List Char} {digits : List Nat} :
      Digits cs digits → digits.length ≤ 4300 → Signed cs (place digits)
  | plus {cs : List Char} {digits : List Nat} :
      Digits cs digits → digits.length ≤ 4300 → Signed ('+' :: cs) (place digits)
  | minus {cs : List Char} {digits : List Nat} :
      Digits cs digits → digits.length ≤ 4300 → Signed ('-' :: cs) (-place digits)

/-- The text is a numeral with blanks around it. -/
def Denotes (s : String) (n : Int) : Prop :=
  ∃ before core behind, s.toList = before ++ (core ++ behind) ∧ (∀ c ∈ before, isBlank c = true) ∧
    (∀ c ∈ behind, isBlank c = true) ∧ Signed core n

/-! ### Digits -/

theorem ofDigits_eq_place (digits : List Nat) : ofDigits digits = place digits := by
  rw [place, Nat.ofDigits_eq_foldr, List.foldr_reverse, ofDigits]
  congr 1
  funext n d
  exact Nat.add_comm _ _

theorem digitZeros_not_blank : ∀ first ∈ digitZeros, ∀ k < 10,
    isBlank (Char.ofNat (first + k)) = false := by decide

theorem not_blank_of_digit {c : Char} {d : Nat} (h : digitValue? c = some d) : isBlank c = false := by
  obtain ⟨first, found, -⟩ := Option.map_eq_some_iff.1 h
  have range := List.find?_some found
  simp only [Bool.and_eq_true, decide_eq_true_eq] at range
  have := digitZeros_not_blank first (List.mem_of_find?_eq_some found) (c.toNat - first) (by omega)
  rwa [Nat.add_sub_cancel' range.1, Char.ofNat_toNat] at this

theorem exists_digit_of_digits {cs : List Char} {ds : List Nat} (h : Digits cs ds) :
    ∃ c rest d, cs = c :: rest ∧ digitValue? c = some d := by
  cases h with
  | last digit | next digit | gap digit => exact ⟨_, _, _, rfl, digit⟩

theorem digits_of_digits? {cs : List Char} {ds : List Nat} (h : digits? cs = some ds) :
    Digits cs ds := by
  fun_induction digits? cs generalizing ds with
  | case1 => cases h
  | case2 c =>
    obtain ⟨d, digit, rfl⟩ := Option.map_eq_some_iff.1 h
    exact .last digit
  | case3 c rest ih =>
    simp only [Option.bind_eq_bind, Option.bind_eq_some_iff, Option.pure_def, Option.some.injEq] at h
    obtain ⟨d, digit, others, run, rfl⟩ := h
    exact .gap digit (ih run)
  | case4 c rest _ _ ih =>
    simp only [Option.bind_eq_bind, Option.bind_eq_some_iff, Option.pure_def, Option.some.injEq] at h
    obtain ⟨d, digit, others, run, rfl⟩ := h
    exact .next digit (ih run)

theorem digits?_of_digits {cs : List Char} {ds : List Nat} (h : Digits cs ds) :
    digits? cs = some ds := by
  induction h with
  | last digit => simp [digits?, digit]
  | @next c d cs ds digit run ih =>
    obtain ⟨c', rest, d', rfl, digit'⟩ := exists_digit_of_digits run
    -- a run begins with a digit, so that the equation for `_` does not apply
    have noGap : c' ≠ '_' := by
      rintro rfl
      cases digit'.symm.trans (show digitValue? '_' = none by decide)
    rw [digits?.eq_4 c (c' :: rest) (by simp) (by simp [noGap]), digit, ih]
    rfl
  | gap digit _ ih => simp [digits?, digit, ih]

theorem digits?_eq_some_iff {cs : List Char} {ds : List Nat} : digits? cs = some ds ↔ Digits cs ds :=
  ⟨digits_of_digits?, digits?_of_digits⟩

/-! ### Signs -/

theorem magnitude?_eq_some_iff {cs : List Char} {n : Nat} :
    magnitude? cs = some n ↔ ∃ digits, Digits cs digits ∧ digits.length ≤ 4300 ∧ n = place digits := by
  simp only [magnitude?, Option.bind_eq_bind, Option.bind_eq_some_iff, Option.ite_none_right_eq_some,
    Option.some.injEq, digits?_eq_some_iff, ofDigits_eq_place, maxDigits, eq_comm (a := n)]

theorem signed_of_signed? {cs : List Char} {n : Int} (h : signed? cs = some n) : Signed cs n := by
  unfold signed? at h
  split at h
  · obtain ⟨m, read, rfl⟩ := Option.map_eq_some_iff.1 h
    obtain ⟨digits, run, short, rfl⟩ := magnitude?_eq_some_iff.1 read
    exact .plus run short
  · obtain ⟨m, read, rfl⟩ := Option.map_eq_some_iff.1 h
    obtain ⟨digits, run, short, rfl⟩ := magnitude?_eq_some_iff.1 read
    exact .minus run short
  · obtain ⟨m, read, rfl⟩ := Option.map_eq_some_iff.1 h
    obtain ⟨digits, run, short, rfl⟩ := magnitude?_eq_some_iff.1 read
    exact .unsigned run short

theorem signed?_of_digits {cs : List Char} {digits : List Nat} (run : Digits cs digits) :
    signed? cs = (magnitude? cs).map Int.ofNat := by
  obtain ⟨c, rest, d, rfl, digit⟩ := exists_digit_of_digits run
  unfold signed?
  split
  · rename_i same
    obtain ⟨rfl, -⟩ := List.cons.inj same
    cases digit.symm.trans (show digitValue? '+' = none by decide)
  · rename_i same
    obtain ⟨rfl, -⟩ := List.cons.inj same
    cases digit.symm.trans (show digitValue? '-' = none by decide)
  · rfl

theorem signed?_of_signed {cs : List Char} {n : Int} (h : Signed cs n) : signed? cs = some n := by
  cases h with
  | unsigned run short =>
    rw [signed?_of_digits run, magnitude?_eq_some_iff.2 ⟨_, run, short, rfl⟩]
    rfl
  | plus run short =>
    rw [signed?, magnitude?_eq_some_iff.2 ⟨_, run, short, rfl⟩]
    rfl
  | minus run short =>
    rw [signed?, magnitude?_eq_some_iff.2 ⟨_, run, short, rfl⟩]
    rfl

/-! ### Blanks around -/

theorem trimBy_append {p : Char → Bool} {before core behind : List Char}
    (front : ∀ c ∈ before, p c = true) (back : ∀ c ∈ behind, p c = true) (some : core ≠ [])
    (first : ∀ c ∈ core.head?, p c = false) (last : ∀ c ∈ core.getLast?, p c = false) :
    trimBy p (before ++ (core ++ behind)) = core := by
  have opening : ∀ c ∈ (core ++ behind).head?, p c = false := by
    rwa [List.head?_append_of_ne_nil _ some]
  have closing : ∀ c ∈ core.reverse.head?, p c = false := by
    rwa [List.head?_reverse]
  have reversed : ∀ c ∈ behind.reverse, p c = true := fun c member => back c (List.mem_reverse.1 member)
  rw [trimBy, (takeWhile_append_of_head front opening).2, List.reverse_append,
    (takeWhile_append_of_head reversed closing).2, List.reverse_reverse]

theorem exists_trimBy (p : Char → Bool) (cs : List Char) :
    ∃ before behind, cs = before ++ (trimBy p cs ++ behind) ∧ (∀ c ∈ before, p c = true) ∧
      ∀ c ∈ behind, p c = true := by
  refine ⟨cs.takeWhile p, (cs.dropWhile p).rtakeWhile p, ?_, fun c => List.mem_takeWhile_imp,
    fun c => List.mem_rtakeWhile_imp⟩
  exact (List.takeWhile_append_dropWhile (p := p) (l := cs)).symm.trans
    (congrArg _ List.rdropWhile_append_rtakeWhile.symm)

theorem mem_of_digits {cs : List Char} {ds : List Nat} (h : Digits cs ds) :
    ∀ c ∈ cs, c = '_' ∨ ∃ d, digitValue? c = some d := by
  induction h with
  | last digit => exact List.forall_mem_singleton.2 (.inr ⟨_, digit⟩)
  | next digit _ ih => exact List.forall_mem_cons.2 ⟨.inr ⟨_, digit⟩, ih⟩
  | gap digit _ ih => exact List.forall_mem_cons.2 ⟨.inr ⟨_, digit⟩, List.forall_mem_cons.2 ⟨.inl rfl, ih⟩⟩

theorem mem_of_signed {cs : List Char} {n : Int} (h : Signed cs n) :
    ∀ c ∈ cs, c ∈ ['+', '-', '_'] ∨ ∃ d, digitValue? c = some d := by
  have unsigned {cs : List Char} {ds : List Nat} (run : Digits cs ds) :
      ∀ c ∈ cs, c ∈ ['+', '-', '_'] ∨ ∃ d, digitValue? c = some d := fun c member =>
    (mem_of_digits run c member).imp_left (by rintro rfl; decide)
  cases h with
  | unsigned run => exact unsigned run
  | plus run | minus run => exact List.forall_mem_cons.2 ⟨.inl (by decide), unsigned run⟩

theorem not_blank_of_signed {cs : List Char} {n : Int} (h : Signed cs n) :
    ∀ c ∈ cs, isBlank c = false := by
  intro c member
  rcases mem_of_signed h c member with sign | ⟨d, digit⟩
  · simp only [List.mem_cons, List.not_mem_nil, or_false] at sign
    rcases sign with rfl | rfl | rfl <;> decide
  · exact not_blank_of_digit digit

theorem ne_nil_of_signed {cs : List Char} {n : Int} (h : Signed cs n) : cs ≠ [] := by
  cases h with
  | unsigned run =>
    obtain ⟨c, rest, d, rfl, -⟩ := exists_digit_of_digits run
    exact List.cons_ne_nil c rest
  | plus | minus => exact List.cons_ne_nil _ _

/-- Texts without information separators are read as what they denote. -/
theorem parse?_eq_some_iff {s : String} (clean : ∀ c ∈ s.toList, ¬(0x1c ≤ c.toNat ∧ c.toNat ≤ 0x1f))
    (n : Int) : parse? s = some n ↔ Denotes s n := by
  -- only the separators are blank and no padding
  have padding : ∀ c ∈ s.toList, isPadding c = isBlank c := by
    intro c member
    have plain : (decide (0x1c ≤ c.toNat) && decide (c.toNat ≤ 0x1f)) = false := by
      rw [← Bool.decide_and]
      exact decide_eq_false (clean c member)
    rw [isPadding, plain, Bool.not_false, Bool.and_true]
  unfold parse? Denotes
  constructor
  · intro read
    obtain ⟨before, behind, whole, front, back⟩ := exists_trimBy isPadding s.toList
    rw [whole] at padding
    simp only [List.forall_mem_append] at padding
    exact ⟨before, _, behind, whole, fun c member => (padding.1 c member).symm.trans (front c member),
      fun c member => (padding.2.2 c member).symm.trans (back c member), signed_of_signed? read⟩
  · rintro ⟨before, core, behind, whole, front, back, signed⟩
    rw [whole] at padding ⊢
    simp only [List.forall_mem_append] at padding
    have visible : ∀ c ∈ core, isPadding c = false := fun c member =>
      (padding.2.1 c member).trans (not_blank_of_signed signed c member)
    have trimmed : trimBy isPadding (before ++ (core ++ behind)) = core := by
      refine trimBy_append ?_ ?_ (ne_nil_of_signed signed) ?_ ?_
      · exact fun c member => (padding.1 c member).trans (front c member)
      · exact fun c member => (padding.2.2 c member).trans (back c member)
      · exact fun c head => visible c (List.mem_of_mem_head? head)
      · exact fun c last => visible c (List.mem_of_mem_getLast? last)
    rw [trimmed]
    exact signed?_of_signed signed

end Numeral

end LineLang
