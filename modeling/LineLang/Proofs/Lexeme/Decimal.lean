import LineLang.Lexeme.Basic
import Mathlib.Data.List.TakeWhile

/-!
# Decimal lexemes

`isNumeric_iff`: the lexemes that are taken for numbers are those with one or more digits, and possibly
a point with one or more digits behind it.
-/

namespace LineLang

/-- One or more of the digits `0` to `9`. -/
def IsDigits (cs : List Char) : Prop := cs ≠ [] ∧ ∀ c ∈ cs, '0' ≤ c ∧ c ≤ '9'

def IsDecimal (lexeme : String) : Prop :=
  IsDigits lexeme.toList ∨
    ∃ whole fraction, IsDigits whole ∧ IsDigits fraction ∧ lexeme.toList = whole ++ '.' :: fraction

theorem isDigit_iff (c : Char) : c.isDigit = true ↔ '0' ≤ c ∧ c ≤ '9' := by
  simp only [Char.isDigit, Bool.and_eq_true, decide_eq_true_eq, ge_iff_le]
  rfl

theorem isDigits_iff (cs : List Char) : IsDigits cs ↔ cs ≠ [] ∧ ∀ c ∈ cs, c.isDigit := by
  simp only [IsDigits, isDigit_iff]

theorem span_point {whole : List Char} (h : ∀ c ∈ whole, c.isDigit) (fraction : List Char) :
    (whole ++ '.' :: fraction).takeWhile Char.isDigit = whole ∧
      (whole ++ '.' :: fraction).dropWhile Char.isDigit = '.' :: fraction := by
  rw [List.takeWhile_append_of_pos h, List.dropWhile_append_of_pos h]
  exact ⟨List.append_nil whole, rfl⟩

theorem isNumeric_iff (lexeme : String) : isNumeric lexeme = true ↔ IsDecimal lexeme := by
  unfold isNumeric IsDecimal
  dsimp only
  generalize lexeme.toList = cs
  constructor
  · intro numeric
    have whole : cs.takeWhile Char.isDigit ++ cs.dropWhile Char.isDigit = cs :=
      List.takeWhile_append_dropWhile
    have digits : ∀ c ∈ cs.takeWhile Char.isDigit, c.isDigit := fun c => List.mem_takeWhile_imp
    rw [Bool.and_eq_true, Bool.not_eq_true', List.isEmpty_eq_false_iff] at numeric
    obtain ⟨some, behind⟩ := numeric
    split at behind
    · rename_i nothing
      rw [nothing, List.append_nil] at whole
      rw [whole] at some digits
      exact .inl ((isDigits_iff cs).2 ⟨some, digits⟩)
    · rename_i point fraction rest
      simp only [Bool.and_eq_true, beq_iff_eq, Bool.not_eq_true', List.isEmpty_eq_false_iff,
        List.all_eq_true] at behind
      obtain ⟨⟨rfl, someBehind⟩, digitsBehind⟩ := behind
      exact .inr ⟨_, fraction, (isDigits_iff _).2 ⟨some, digits⟩,
        (isDigits_iff _).2 ⟨someBehind, digitsBehind⟩, by rw [← rest, whole]⟩
  · rintro (plain | ⟨whole, fraction, one, two, rfl⟩)
    · obtain ⟨some, digits⟩ := (isDigits_iff cs).1 plain
      rw [List.takeWhile_eq_self_iff.2 digits, List.dropWhile_eq_nil_iff.2 digits]
      simp [some]
    · obtain ⟨some, digits⟩ := (isDigits_iff whole).1 one
      obtain ⟨someBehind, digitsBehind⟩ := (isDigits_iff fraction).1 two
      obtain ⟨taken, left⟩ := span_point digits fraction
      rw [taken, left]
      simp [some, someBehind, List.all_eq_true.2 digitsBehind]

example : isNumeric "3.14" ∧ ¬isNumeric "3." ∧ ¬isNumeric ".5" ∧ ¬isNumeric "-1" := by decide

end LineLang
