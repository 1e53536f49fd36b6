import LineLang.Operand

/-!
# 32-bit arithmetic

`apply_exact`: an operator on two integers of any size computes its exact result and takes that modulo
2^32 into the range of 32-bit integers. Only a quotient can be missing, and of two 32-bit integers only
one quotient is out of range.
-/

namespace LineLang

/-- The exact result of an operator. What a quotient leaves over is smaller than the divisor and has the
sign of the dividend. -/
inductive Operator.Exact (a b : Int) : Operator → Int → Prop where
  | plus : Exact a b .plus (a + b)
  | minus : Exact a b .minus (a - b)
  | times : Exact a b .times (a * b)
  | divide {q r : Int} : a = q * b + r → r.natAbs < b.natAbs → r = 0 ∨ r.sign = a.sign →
      Exact a b .divide q

/-! ### Wrapping -/

theorem isInt32_iff (n : Int) : isInt32 n = true ↔ -0x80000000 ≤ n ∧ n ≤ 0x7fffffff := by
  simp [isInt32]

/-- Every integer is congruent to one 32-bit integer. -/
theorem eq_wrap_iff (a n : Int) :
    n = wrap a ↔ isInt32 n = true ∧ n % 0x100000000 = a % 0x100000000 := by
  have residue : wrap a = n ↔ -((0x100000000 : Nat) / 2 : Int) ≤ n ∧
      n < ((0x100000000 : Nat) + 1 : Int) / 2 ∧ ((0x100000000 : Nat) : Int) ∣ n - a :=
    Int.bmod_eq_iff (by decide)
  rw [eq_comm, residue, isInt32_iff]
  omega

theorem isInt32_wrap (a : Int) : isInt32 (wrap a) = true := ((eq_wrap_iff a _).1 rfl).1

theorem wrap_eq_self_iff (a : Int) : wrap a = a ↔ isInt32 a = true := by
  rw [eq_comm, eq_wrap_iff]
  exact and_iff_left rfl

theorem wrap_add_wrap (a b : Int) : wrap (wrap a + wrap b) = wrap (a + b) :=
  Int.bmod_add_bmod.trans Int.add_bmod_bmod

theorem wrap_sub_wrap (a b : Int) : wrap (wrap a - wrap b) = wrap (a - b) :=
  Int.bmod_sub_bmod.trans Int.sub_bmod_bmod

theorem wrap_mul_wrap (a b : Int) : wrap (wrap a * wrap b) = wrap (a * b) :=
  Int.bmod_mul_bmod.trans Int.mul_bmod_bmod

/-! ### Quotients -/

theorem exact_divide_tdiv (a : Int) {b : Int} (h : b ≠ 0) : Operator.Exact a b .divide (a.tdiv b) := by
  have positive : 0 < b.natAbs := Int.natAbs_pos.2 h
  refine .divide (Int.tdiv_mul_add_tmod a b).symm ?_ ?_
  · rw [Int.natAbs_tmod]
    exact Nat.mod_lt _ positive
  · have sign := Int.sign_tmod a b
    split at sign
    · exact .inl (Int.sign_eq_zero_iff_zero.1 sign)
    · exact .inr sign

/-- A quotient is cut off towards zero. -/
theorem exact_divide_iff (a : Int) {b : Int} (h : b ≠ 0) (q : Int) :
    Operator.Exact a b .divide q ↔ q = a.tdiv b := by
  constructor
  · intro exact
    cases exact with
    | @divide _ r division small sign =>
      have whole : r + b * q = a := by rw [division, Int.mul_comm, Int.add_comm]
      rcases Int.le_total 0 a with above | below
      · have : 0 ≤ r := by
          rcases sign with rfl | same
          · exact Int.le_refl 0
          · exact Int.sign_nonneg_iff.1 (same ▸ Int.sign_nonneg_iff.2 above)
        exact ((Int.tdiv_tmod_unique above h).2 ⟨whole, this, by omega⟩).1.symm
      · have : r ≤ 0 := by
          rcases sign with rfl | same
          · exact Int.le_refl 0
          · exact Int.sign_nonpos_iff.1 (same ▸ Int.sign_nonpos_iff.2 below)
        exact ((Int.tdiv_tmod_unique' below h).2 ⟨whole, by omega, this⟩).1.symm
  · rintro rfl
    exact exact_divide_tdiv a h

/-- The range of 32-bit integers is not symmetric, so that one quotient does not fit. -/
theorem isInt32_tdiv_iff {a b : Int} (fits : isInt32 a = true) (h : b ≠ 0) :
    isInt32 (a.tdiv b) = true ↔ ¬(a = -0x80000000 ∧ b = -1) := by
  rw [isInt32_iff] at fits ⊢
  constructor
  · rintro range ⟨rfl, rfl⟩
    exact absurd range (by decide)
  · intro other
    by_cases one : b = 1
    · rwa [one, Int.tdiv_one]
    by_cases minus : b = -1
    · rw [minus, Int.tdiv_neg, Int.tdiv_one]
      omega
    -- by any other divisor the dividend is halved at least
    have half : (a.tdiv b).natAbs ≤ a.natAbs / 2 := by
      rw [Int.natAbs_tdiv]
      exact Nat.div_le_div_left (by omega) (by decide)
    omega

/-! ### Operators -/

theorem compute_wrap {op : Operator} (total : op ≠ .divide) (a b : Int) :
    op.compute (wrap a) (wrap b) = op.compute a b := by
  cases op with
  | plus | minus | times =>
    simp only [Operator.compute, Value.ofInt, wrap_add_wrap, wrap_sub_wrap, wrap_mul_wrap]
  | divide => exact absurd rfl total

theorem exists_exact (op : Operator) (a : Int) {b : Int} (defined : op = .divide → b ≠ 0) :
    ∃ n, (∀ m, op.Exact a b m ↔ m = n) ∧ op.compute a b = .ok (.int (wrap n)) := by
  cases op with
  | plus | minus | times =>
    refine ⟨_, fun m => ⟨fun exact => ?_, ?_⟩, rfl⟩
    · cases exact
      rfl
    · rintro rfl
      constructor
  | divide => exact ⟨a.tdiv b, exact_divide_iff a (defined rfl), if_neg (defined rfl)⟩

/-- Integers wrap around to the one 32-bit integer that they are congruent to. An operator wraps its exact
result, so that only a quotient depends on more than its operands modulo 2^32. It fails for a zero divisor
only, and of two 32-bit integers it wraps in a single case. -/
theorem apply_exact (a b : Int) :
    (∀ n, n = wrap a ↔ isInt32 n = true ∧ n % 0x100000000 = a % 0x100000000) ∧
    (∀ op : Operator, (op = .divide → b ≠ 0) → ∃ n, (∀ m, op.Exact a b m ↔ m = n) ∧
      (Role.binary op).apply (.int a) (.int b) = .ok (.int (wrap n))) ∧
    (∀ op : Operator, op ≠ .divide → (Role.binary op).apply (.int (wrap a)) (.int (wrap b)) =
      (Role.binary op).apply (.int a) (.int b)) ∧
    ((Role.binary .divide).apply (.int a) (.int b) = .error .divisionByZero ↔ b = 0) ∧
    (isInt32 a = true → isInt32 b = true → ∀ q, Operator.Exact a b .divide q →
      (wrap q ≠ q ↔ a = -0x80000000 ∧ b = -1) ∧ (wrap q ≠ q → wrap q = -0x80000000)) := by
  refine ⟨eq_wrap_iff a, fun op => exists_exact op a, fun op total => compute_wrap total a b, ?_, ?_⟩
  · constructor
    · intro failed
      by_cases zero : b = 0
      · exact zero
      · obtain ⟨n, -, result⟩ := exists_exact .divide a fun _ => zero
        cases failed.symm.trans result
    · rintro rfl
      rfl
  · intro fits _ q exact
    have nonzero : b ≠ 0 := by
      rintro rfl
      cases exact
      contradiction
    have overflows : wrap q ≠ q ↔ a = -0x80000000 ∧ b = -1 := by
      rw [Ne, wrap_eq_self_iff, (exact_divide_iff a nonzero q).1 exact, isInt32_tdiv_iff fits nonzero,
        Classical.not_not]
    refine ⟨overflows, fun wraps => ?_⟩
    obtain ⟨rfl, rfl⟩ := overflows.1 wraps
    rw [(exact_divide_iff _ nonzero q).1 exact]
    decide

theorem apply_lowest_by_minus_one :
    Operator.Exact (-0x80000000) (-1) .divide 0x80000000 ∧
      (Role.binary .divide).apply (.int (-0x80000000)) (.int (-1)) = .ok (.int (-0x80000000)) := by
  obtain ⟨-, result, -, -, range⟩ := apply_exact (-0x80000000) (-1)
  obtain ⟨n, exact, result⟩ := result .divide (by decide)
  have quotient : Operator.Exact (-0x80000000) (-1) .divide 0x80000000 :=
    .divide (r := 0) (by decide) (by decide) (.inl rfl)
  obtain rfl := (exact _).1 quotient
  obtain ⟨overflows, lowest⟩ := range (by decide) (by decide) _ quotient
  exact ⟨quotient, by rw [result, lowest (overflows.2 ⟨rfl, rfl⟩)]⟩

end LineLang
