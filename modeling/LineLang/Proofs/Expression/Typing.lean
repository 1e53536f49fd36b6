import LineLang.Proofs.Expression.Closure
import LineLang.Proofs.Expression.Evaluation

/-!
# Types of expressions

`ty_eval_expr`: operators do not matter for the type of an expression. It is an integer if all of its
operands are integers, and a text otherwise.
-/

namespace LineLang

/-- An integer of any size or a text. -/
def Value.Native : Value → Prop
  | .int _ | .string _ => True
  | .foreign .. => False

instance : DecidablePred Value.Native
  | .int _ | .string _ => inferInstanceAs (Decidable True)
  | .foreign .. => inferInstanceAs (Decidable False)

/-- The type of an operand, without its value. -/
def Operand.ty? (t : SymbolTable) : Operand → Option Ty
  | .literal lexeme => some (if isQuoted lexeme then .string else .int)
  | .name lexeme => (t.get? lexeme).map Value.ty

def Expr.AllInt (t : SymbolTable) (e : Expr) : Prop := ∀ o ∈ e.operands, o.ty? t = some .int

instance (t : SymbolTable) (e : Expr) : Decidable (e.AllInt t) :=
  inferInstanceAs (Decidable (∀ o ∈ e.operands, o.ty? t = some .int))

def Expr.ty (t : SymbolTable) (e : Expr) : Ty := if e.AllInt t then .int else .string

/-! ### Values -/

theorem ty_of_native {value : Value} (h : value.Native) : value.ty = .int ∨ value.ty = .string := by
  cases value with
  | int => exact .inl rfl
  | string => exact .inr rfl
  | foreign => cases h

/-- The result of an operator is an integer if both of its operands are. -/
theorem ty_apply {role : Role} {left right value : Value} (one : left.Native) (two : right.Native)
    (h : role.apply left right = .ok value) :
    value.Native ∧ (value.ty = .int ↔ left.ty = .int ∧ right.ty = .int) := by
  unfold Role.apply at h
  split at h
  · split at h
    · obtain ⟨n, rfl⟩ := ofInt_of_compute h
      exact ⟨trivial, by simp [Value.ty, Value.ofInt]⟩
    · cases h
  · rename_i noInts
    cases h
    refine ⟨trivial, iff_of_false (by simp [Value.ty]) ?_⟩
    rintro ⟨leftInt, rightInt⟩
    cases left <;> cases right <;> simp_all [Value.ty, Value.Native]

theorem ty_readLiteral {lexeme : String} {value : Value} (h : readLiteral lexeme = .ok value) :
    value.Native ∧ (value.ty = .int ↔ isQuoted lexeme = false) := by
  unfold readLiteral at h
  split at h
  · rename_i quoted
    cases h
    exact ⟨trivial, by simp [Value.ty, quoted]⟩
  · rename_i unquoted
    obtain ⟨n, -, rfl⟩ := map_eq_ok h
    exact ⟨trivial, by simp [Value.ty, Value.ofInt, unquoted]⟩

/-! ### Trees -/

theorem ty_eval_operand {t : SymbolTable} (native : t.Holds Value.Native) {o : Operand}
    {value : Value} (h : o.eval t = .ok value) :
    value.Native ∧ (value.ty = .int ↔ o.ty? t = some .int) := by
  cases o with
  | literal lexeme =>
    obtain ⟨valid, type⟩ := ty_readLiteral (mapError_eq_ok h)
    exact ⟨valid, by simp [type, Operand.ty?]⟩
  | name lexeme =>
    have found := get?_of_read (mapError_eq_ok h)
    exact ⟨holds_of_get? native found, by simp [Operand.ty?, found]⟩

mutual

theorem ty_eval_expr {t : SymbolTable} (native : t.Holds Value.Native) {e : Expr} {value : Value}
    (h : e.eval t = .ok value) :
    value.Native ∧ (value.ty = .int ↔ ∀ o ∈ e.operands, o.ty? t = some .int) := by
  cases e with
  | term x => exact ty_eval_term native (x := x) h
  | binary left op right =>
    obtain ⟨a, evalLeft, rest⟩ := bind_eq_ok h
    obtain ⟨b, evalRight, applied⟩ := bind_eq_ok rest
    obtain ⟨validLeft, typeLeft⟩ := ty_eval_expr native evalLeft
    obtain ⟨validRight, typeRight⟩ := ty_eval_term native evalRight
    obtain ⟨valid, type⟩ := ty_apply validLeft validRight (mapError_eq_ok applied)
    refine ⟨valid, ?_⟩
    rw [type, typeLeft, typeRight, Expr.operands, List.forall_mem_append]

theorem ty_eval_term {t : SymbolTable} (native : t.Holds Value.Native) {x : Term} {value : Value}
    (h : x.eval t = .ok value) :
    value.Native ∧ (value.ty = .int ↔ ∀ o ∈ x.operands, o.ty? t = some .int) := by
  cases x with
  | operand o =>
    obtain ⟨valid, type⟩ := ty_eval_operand native h
    exact ⟨valid, by rw [type, Term.operands, List.forall_mem_singleton]⟩
  | parens e => exact ty_eval_expr native (e := e) h

end

/-- The value of an expression has the type of the expression. -/
theorem ty_of_eval {t : SymbolTable} (native : t.Holds Value.Native) {e : Expr} {value : Value}
    (h : e.eval t = .ok value) : value.ty = e.ty t := by
  obtain ⟨valid, type⟩ := ty_eval_expr native h
  unfold Expr.ty
  split
  · rename_i ints
    exact type.2 ints
  · rename_i text
    exact (ty_of_native valid).resolve_left fun int => text (type.1 int)

end LineLang
