import LineLang.Proofs.Text.Numeral
import LineLang.Text.Padded

/-!
# Numbers in writing

`place_toDigits`: the digits that a number is written with are worth the number. `padded_inj`: zeros in
front do not make two numbers look alike, also where a number is longer than it is padded to.
-/

namespace LineLang

theorem isDigits_toDigits (n : Nat) : IsDigits (Nat.toDigits 10 n) :=
  (isDigits_iff _).2 ⟨Nat.toDigits_ne_nil, fun _ => Nat.isDigit_of_mem_toDigits (by omega) (by omega)⟩

theorem place_toDigits (n : Nat) :
    Numeral.place ((Nat.toDigits 10 n).map fun c => c.toNat - '0'.toNat) = n := by
  rw [← Numeral.ofDigits_eq_place, ofDigits, List.foldl_map]
  exact Nat.ofDigitChars_ten_toDigits

/-! ### Padded numbers -/

theorem toList_padded (width n : Nat) : (padded 10 width n).toList =
    List.replicate (width - (toString n).length) '0' ++ (toString n).toList := by
  rw [padded, String.toList_ofList, List.leftpad, Nat.toString_eq_repr, Nat.toList_repr,
    ← String.length_toList, Nat.toList_repr]

theorem ofDigitChars_padded (width n : Nat) : Nat.ofDigitChars 10 (padded 10 width n).toList 0 = n := by
  rw [toList_padded, Nat.ofDigitChars_append, Nat.ofDigitChars_replicate_zero, Nat.mul_zero,
    Nat.toString_eq_repr, Nat.toList_repr, Nat.ofDigitChars_ten_toDigits]

theorem padded_inj {width n n' : Nat} (h : padded 10 width n = padded 10 width n') : n = n' := by
  rw [← ofDigitChars_padded width n, h, ofDigitChars_padded]

end LineLang
