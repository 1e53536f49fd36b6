import LineLang.Dialect
import LineLang.Operand

/-!
# Expression stacks

An expression is evaluated as it is read, with a stack of values and a stack of operator codes. All
operators bind alike and group to the left; an open parenthesis on the stack stops them.
-/

namespace LineLang

/-- Both stacks, topmost first. -/
structure Stacks where
  operands : List Value := []
  operators : List Int := []

namespace Stacks

variable (d : Dialect) (r : Registry)

/-- Applies an operator to the two topmost values. A fault is found at the operator. -/
def applyOperator (code : Int) (operands : List Value) : Except Report (List Value) :=
  let lexeme := (r.decode code).getD ""
  match operands with
  | right :: left :: rest =>
    match (d.roleOf code).apply left right with
    | .ok value => .ok (value :: rest)
    | .error fault => .error (fault.report.orAt lexeme)
  | _ => .error (Fault.missingOperand lexeme).report

/-- Applies operators from the top while they satisfy `yields`. -/
def collapse (yields : Int → Bool) (operands : List Value) : List Int → Except Report Stacks
  | [] => .ok ⟨operands, []⟩
  | code :: operators =>
    if yields code then
      match applyOperator d r code operands with
      | .error report => .error report
      | .ok operands => collapse yields operands operators
    else .ok ⟨operands, code :: operators⟩

def pushOperand (s : Stacks) (value : Value) : Stacks := { s with operands := value :: s.operands }

def openParen (s : Stacks) (code : Int) : Stacks := { s with operators := code :: s.operators }

/-- Reads a binary operator, after those that bind at least as tightly. -/
def pushOperator (s : Stacks) (code : Int) : Except Report Stacks := do
  let yields top := !d.isOpenParen top && d.weight code ≤ d.weight top
  let s ← collapse d r yields s.operands s.operators
  return { s with operators := code :: s.operators }

def closeParen (s : Stacks) : Except Report Stacks := do
  let s ← collapse d r (fun top => !d.isOpenParen top) s.operands s.operators
  match s.operators with
  | [] => .error Fault.unmatchedClose.report
  | _ :: operators => return { s with operators }

def finish (s : Stacks) : Except Report Value := do
  let s ← collapse d r (fun top => !d.isOpenParen top) s.operands s.operators
  match s.operators, s.operands with
  | _ :: _, _ => .error Fault.unmatchedOpen.report
  | [], [] => .error Fault.emptyExpression.report
  | [], value :: _ => return value

def isEmpty (s : Stacks) : Bool := s.operands.isEmpty && s.operators.isEmpty

end Stacks

end LineLang
