import LineLang.Operand
import LineLang.SymbolTable

/-!
# Expression trees

The infix expressions of the language, how they are written, and their value: both sides of an
operator are evaluated from left to right before the operator is applied, and operators group to the
left.
-/

namespace LineLang

inductive Operand where
  | literal (lexeme : String)
  | name (lexeme : String)
  deriving DecidableEq, Repr

def Operand.lexeme : Operand → String
  | .literal lexeme | .name lexeme => lexeme

def Operand.role : Operand → Role
  | .literal _ => .literal
  | .name _ => .name

def Operator.lexeme : Operator → String
  | .plus => "+"
  | .minus => "-"
  | .times => "*"
  | .divide => "/"

mutual

inductive Expr where
  | term (x : Term)
  | binary (left : Expr) (op : Operator) (right : Term)

inductive Term where
  | operand (o : Operand)
  | parens (e : Expr)

end

/-! ### Writing -/

mutual

def Expr.lexemes : Expr → List String
  | .term x => x.lexemes
  | .binary left op right => left.lexemes ++ op.lexeme :: right.lexemes

def Term.lexemes : Term → List String
  | .operand o => [o.lexeme]
  | .parens e => "(" :: (e.lexemes ++ [")"])

end

mutual

def Expr.operands : Expr → List Operand
  | .term x => x.operands
  | .binary left _ right => left.operands ++ right.operands

def Term.operands : Term → List Operand
  | .operand o => [o]
  | .parens e => e.operands

end

/-! ### Evaluating -/

def Operand.eval (t : SymbolTable) : Operand → Except Report Value
  | .literal lexeme => (readLiteral lexeme).mapError Fault.report
  | .name lexeme => (t.read lexeme).mapError Fault.report

theorem fault_of_readLiteral {lexeme : String} {fault : Fault}
    (h : readLiteral lexeme = .error fault) : fault = .notAnInteger lexeme := by
  unfold readLiteral at h
  split at h
  · cases h
  · cases read : readInteger lexeme with
    | ok n =>
      rw [read] at h
      cases h
    | error fault' =>
      rw [read] at h
      cases h
      unfold readInteger at read
      split at read
      · split at read <;> cases read
        rfl
      · cases read
        rfl

theorem fault_of_read {t : SymbolTable} {name : String} {fault : Fault}
    (h : t.read name = .error fault) : fault = .unknownOperand name := by
  unfold SymbolTable.read at h
  split at h <;> cases h
  rfl

/-- An operand has no value only if it is no integer or no declared name. -/
theorem Operand.eval_eq_error {t : SymbolTable} {o : Operand} {report : Report}
    (h : o.eval t = .error report) :
    report = ⟨.notAnInteger o.lexeme, some o.lexeme⟩ ∨
      report = ⟨.unknownOperand o.lexeme, some o.lexeme⟩ := by
  cases o with
  | literal lexeme =>
    rw [eval] at h
    cases read : readLiteral lexeme with
    | ok value =>
      rw [read] at h
      cases h
    | error fault =>
      rw [read, fault_of_readLiteral read] at h
      cases h
      exact .inl rfl
  | name lexeme =>
    rw [eval] at h
    cases read : t.read lexeme with
    | ok value =>
      rw [read] at h
      cases h
    | error fault =>
      rw [read, fault_of_read read] at h
      cases h
      exact .inr rfl

/-- An operator on two values. A fault that names no lexeme is found at the operator. -/
def Operator.eval (op : Operator) (left right : Value) : Except Report Value :=
  ((Role.binary op).apply left right).mapError fun fault => fault.report.orAt op.lexeme

mutual

def Expr.eval (t : SymbolTable) : Expr → Except Report Value
  | .term x => x.eval t
  | .binary left op right => do
    let a ← left.eval t
    let b ← right.eval t
    op.eval a b

def Term.eval (t : SymbolTable) : Term → Except Report Value
  | .operand o => o.eval t
  | .parens e => e.eval t

end

end LineLang
