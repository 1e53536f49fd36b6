import LineLang.Proofs.Expression.Typing
import LineLang.Proofs.Session.Statement

/-!
# Statements with a value of another type

`rejectsType_iff_ty`: where the value of an expression is given to a name, the types of its operands
decide whether the statement is rejected for a type.
-/

namespace LineLang

namespace Target

/-- The value does not have the type that the name asks for. -/
def Mismatches (t : SymbolTable) (value : Value) : Target → Prop
  | .declaration ty _ => value.ty ≠ ty
  | .assignment name => ∃ old, t.get? name = some old ∧ old.ty ≠ value.ty

/-- The type is checked before a declared name is found to be there already, and behind the check that an
assigned name is there. -/
theorem mismatches_iff (t : SymbolTable) (value : Value) (target : Target) :
    target.Mismatches t value ↔
      ∃ fault, (target.write value).run t = .error fault ∧ fault.kind = "TypeMismatch" := by
  cases target with
  | declaration ty name =>
    simp only [Mismatches, write, Write.run]
    by_cases same : value.ty = ty
    · rw [if_pos same]
      refine iff_of_false (fun other => other same) ?_
      rintro ⟨fault, failed, kind⟩
      unfold SymbolTable.declare at failed
      split at failed
      · cases failed
        simp [Fault.kind] at kind
      · cases failed
    · rw [if_neg same]
      exact iff_of_true same ⟨_, rfl, rfl⟩
  | assignment name =>
    simp only [Mismatches, write, Write.run, SymbolTable.assign]
    cases found : t.get? name with
    | none =>
      refine iff_of_false (by simp) ?_
      rintro ⟨fault, failed, kind⟩
      cases failed
      simp [Fault.kind] at kind
    | some old =>
      by_cases same : old.ty = value.ty
      · simp only [Option.some.injEq, exists_eq_left', same, ne_eq, not_true_eq_false, false_iff]
        rintro ⟨fault, failed, -⟩
        cases failed
      · simp only [Option.some.injEq, exists_eq_left', ne_eq, same, not_false_eq_true, true_iff]
        exact ⟨_, rfl, rfl⟩

end Target

namespace Session

/-- The call is rejected for the type of a value. -/
def RejectsType (s : Session) (lexemes : List String) : Prop :=
  ∃ report, (s.execute lexemes).1 = .ok (.rejected report) ∧ report.fault.kind = "TypeMismatch"

section Statement

variable {made : Registry} {s : Session} (h : s.MadeFrom made) (complete : Dialect.Complete made)
  {e : Expr} (operands : ∀ o ∈ e.operands, s.roleOf o.lexeme = some o.role)
include h complete operands

/-- An expression that is encoded is evaluated by the stacks as its tree is. -/
theorem eval_of_evaluate {tokens : List Token} {r : Registry}
    (encoded : s.registry.encodeAll e.lexemes = (.ok tokens, r)) :
    Stacks.evaluate s.dialect r s.symbols tokens = e.eval s.symbols := by
  have nonempty := nonempty_of_mem_expr h operands
  have leads := (Registry.leads_encodeAll s.registry e.lexemes).1
  rw [encoded] at leads
  have knows : s.dialect.Knows r := by
    rw [h.dialect_eq]
    exact Dialect.knows_of_complete h.reachable (Registry.leads_trans h.leads leads) complete
  have fits : ∀ o ∈ e.operands, s.dialect.classify (r.token o.lexeme) = o.role := fun o member =>
    classify_of_encodeAll h nonempty encoded (Expr.lexeme_mem member) (operands o member)
  rw [(Registry.tokens_of_encodeAll nonempty encoded).1]
  exact Stacks.evaluate_expr knows s.symbols e fits

theorem rejectsType_iff_mismatches {value : Value} (evaluated : e.eval s.symbols = .ok value)
    (opening : Opening) (named : s.roleOf opening.name = some .name)
    (encodable : (s.registry.encodeAll (opening.lexemes ++ (e.lexemes ++ [";"]))).1.isOk) :
    s.RejectsType (opening.lexemes ++ (e.lexemes ++ [";"])) ↔
      opening.target.Mismatches s.symbols value := by
  obtain ⟨tokens, r, encoded⟩ := Registry.encodeAll_of_isOk encodable
  obtain ⟨result, ran, what⟩ := execute_statement h opening e named operands complete encoded
  rw [evaluated] at what
  dsimp only at what
  rw [Target.mismatches_iff, RejectsType, ran]
  rcases perform_cases { s with registry := r } (statementText tokens)
    (opening.target.write value) with ⟨fault, failed, performed⟩ | ⟨symbols, event, written, performed⟩
  · rw [performed] at what
    subst what
    have failed : (opening.target.write value).run s.symbols = .error fault := failed
    simp [reject, failed]
  · rw [performed] at what
    subst what
    have written : (opening.target.write value).run s.symbols = .ok (symbols, event) := written
    simp [written]

/-- The operands alone decide the type of an expression that has a value, and with it whether a statement is
rejected for a type. -/
theorem rejectsType_iff_ty (native : s.symbols.Holds Value.Native) {tokens : List Token} {r : Registry}
    (encoded : s.registry.encodeAll e.lexemes = (.ok tokens, r)) {value : Value}
    (evaluated : Stacks.evaluate s.dialect r s.symbols tokens = .ok value) :
    (value.ty = .int ↔ ∀ o ∈ e.operands, o.ty? s.symbols = some .int) ∧
    ∀ name, s.roleOf name = some .name →
      ((s.registry.encodeAll (["int", name, "="] ++ (e.lexemes ++ [";"]))).1.isOk →
        (s.RejectsType (["int", name, "="] ++ (e.lexemes ++ [";"])) ↔
          ∃ o ∈ e.operands, o.ty? s.symbols ≠ some .int)) ∧
      ((s.registry.encodeAll (["string", name, "="] ++ (e.lexemes ++ [";"]))).1.isOk →
        (s.RejectsType (["string", name, "="] ++ (e.lexemes ++ [";"])) ↔
          ∀ o ∈ e.operands, o.ty? s.symbols = some .int)) ∧
      ((s.registry.encodeAll ([name, "="] ++ (e.lexemes ++ [";"]))).1.isOk →
        ∀ old, s.symbols.get? name = some old →
          (s.RejectsType ([name, "="] ++ (e.lexemes ++ [";"])) ↔ e.ty s.symbols ≠ old.ty)) := by
  rw [eval_of_evaluate h complete operands encoded] at evaluated
  obtain ⟨valid, type⟩ := ty_eval_expr native evaluated
  have rejects := rejectsType_iff_mismatches h complete operands evaluated
  refine ⟨type, fun name named => ⟨fun encodable => ?_, fun encodable => ?_, fun encodable => ?_⟩⟩
  · have mismatch : s.RejectsType (["int", name, "="] ++ (e.lexemes ++ [";"])) ↔ value.ty ≠ .int :=
      rejects (.int name) named encodable
    rw [mismatch, Ne, type]
    simp
  · have mismatch : s.RejectsType (["string", name, "="] ++ (e.lexemes ++ [";"])) ↔
        value.ty ≠ .string := rejects (.string name) named encodable
    rw [mismatch, ← type]
    rcases ty_of_native valid with int | string
    · simp [int]
    · simp [string]
  · intro old present
    have mismatch : s.RejectsType ([name, "="] ++ (e.lexemes ++ [";"])) ↔
        ∃ old, s.symbols.get? name = some old ∧ old.ty ≠ value.ty :=
      rejects (.plain name) named encodable
    rw [mismatch, present, ty_of_eval native evaluated]
    simp [eq_comm]

end Statement

/-- The quotient of a number and a text is a text. -/
theorem rejectsType_of_text :
    (start Registry.vocabulary .empty false).RejectsType
      ["int", "x", "=", "(", "1", "+", "2", ")", "/", "\"a\"", ";"] := by
  let e : Expr := .binary (.term (.parens (.binary (.term (.operand (.literal "1"))) .plus
    (.operand (.literal "2"))))) .divide (.operand (.literal "\"a\""))
  have started := madeFrom_start Registry.reachable_vocabulary .empty false
  have operands : ∀ o ∈ e.operands,
      (start Registry.vocabulary .empty false).roleOf o.lexeme = some o.role := by decide +kernel
  obtain ⟨tokens, r, encoded⟩ := Registry.encodeAll_of_isOk
    (show (Registry.vocabulary.encodeAll e.lexemes).1.isOk by decide +kernel)
  have evaluated := eval_of_evaluate started Registry.complete_vocabulary operands encoded
  have value : e.eval .empty = .ok (.string "3a") := by decide +kernel
  obtain ⟨-, statements⟩ := rejectsType_iff_ty started Registry.complete_vocabulary operands
    (List.forall_mem_nil _) encoded (evaluated.trans value)
  exact ((statements "x" (by decide +kernel)).1 (by decide +kernel)).2
    ⟨.literal "\"a\"", by decide, by decide⟩

end Session

end LineLang
