import LineLang.Proofs.Dialect
import LineLang.Proofs.Expression.Tree
import LineLang.Recognizer

/-!
# Reading an expression evaluates it

`readAll_expr`: whatever is on the stacks below, reading the tokens of an expression and then
applying the operators that are still pending comes to the value of its tree, or to the first fault
in the order of evaluation.
-/

namespace LineLang.Stacks
open Dialect (Knows)

/-- Reads the tokens of an expression. A fault that names no lexeme is found at the token. -/
def readAll (d : Dialect) (r : Registry) (t : SymbolTable) (s : Stacks) :
    List Token → Except Report Stacks
  | [] => return s
  | token :: tokens => do
    let s ← (s.read d r t (d.classify token) token).mapError (·.orAt token.lexeme)
    s.readAll d r t tokens

/-- The value that the stacks come to behind the tokens of an expression. -/
def evaluate (d : Dialect) (r : Registry) (t : SymbolTable) (tokens : List Token) :
    Except Report Value := do
  let s ← readAll d r t {} tokens
  s.finish d r

/-- Applies the operators down to the nearest open parenthesis. -/
def settle (d : Dialect) (r : Registry) (s : Stacks) : Except Report Stacks :=
  collapse d r (fun top => !d.isOpenParen top) s.operands s.operators

/-- Nothing is pending above the nearest open parenthesis. -/
def Settled (d : Dialect) (operators : List Int) : Prop :=
  ∀ top ∈ operators.head?, d.isOpenParen top = true

theorem settle_of_settled {d : Dialect} (r : Registry) {operators : List Int}
    (h : Settled d operators) (operands : List Value) :
    settle d r ⟨operands, operators⟩ = .ok ⟨operands, operators⟩ := by
  cases operators with
  | nil => rfl
  | cons top operators => simp [settle, collapse, h top rfl]

theorem readAll_append (d : Dialect) (r : Registry) (t : SymbolTable) (s : Stacks)
    (front back : List Token) :
    s.readAll d r t (front ++ back) = (s.readAll d r t front >>= (·.readAll d r t back)) := by
  induction front generalizing s with
  | nil => rfl
  | cons token front ih => simp only [List.cons_append, readAll, bind_assoc, ih]

/-! ### Faults at their lexemes -/

/-- A fault comes with the lexeme it is found at. -/
def Located {α : Type} (result : Except Report α) : Prop :=
  ∀ report, result = .error report → report.lexeme.isSome

theorem mapError_orAt {α : Type} {result : Except Report α} (h : Located result) (lexeme : String) :
    result.mapError (·.orAt lexeme) = result := by
  cases result with
  | ok a => rfl
  | error report =>
    obtain ⟨fault, found⟩ := report
    obtain ⟨word, rfl⟩ := Option.isSome_iff_exists.1 (h _ rfl)
    rfl

theorem located_applyOperator (d : Dialect) (r : Registry) (code : Int) (operands : List Value) :
    Located (applyOperator d r code operands) := by
  intro report failed
  unfold applyOperator at failed
  dsimp only at failed
  split at failed
  · split at failed
    · cases failed
    · cases failed
      rfl
  · cases failed
    rfl

theorem located_collapse (d : Dialect) (r : Registry) (yields : Int → Bool) (operands : List Value)
    (operators : List Int) : Located (collapse d r yields operands operators) := by
  induction operators generalizing operands with
  | nil =>
    intro report failed
    cases failed
  | cons code operators ih =>
    intro report failed
    rw [collapse] at failed
    split at failed
    · split at failed
      · rename_i failure
        cases failed
        exact located_applyOperator d r code operands _ failure
      · exact ih _ report failed
    · cases failed

theorem located_settle (d : Dialect) (r : Registry) (s : Stacks) : Located (settle d r s) :=
  located_collapse d r _ s.operands s.operators

theorem mapError_bind {α β : Type} (result : Except Report α) (next : α → Except Report β)
    (f : Report → Report) :
    (result >>= next).mapError f = (result.mapError f >>= fun a => (next a).mapError f) := by
  cases result <;> rfl

theorem located_bind {α β : Type} {result : Except Report α} {next : α → Except Report β}
    (first : Located result) (after : ∀ a, Located (next a)) : Located (result >>= next) := by
  cases result with
  | ok a => exact after a
  | error report =>
    intro report' failed
    cases failed
    exact first report rfl

theorem located_operand (t : SymbolTable) (o : Operand) : Located (o.eval t) := by
  intro report failed
  rcases Operand.eval_eq_error failed with rfl | rfl <;> rfl

theorem located_operator (op : Operator) (left right : Value) : Located (op.eval left right) := by
  intro report failed
  unfold Operator.eval at failed
  cases applied : (Role.binary op).apply left right with
  | ok value =>
    rw [applied] at failed
    cases failed
  | error fault =>
    rw [applied] at failed
    cases failed
    rfl

mutual

theorem located_expr (t : SymbolTable) (e : Expr) : Located (e.eval t) := by
  cases e with
  | term x => exact located_term t x
  | binary left op right =>
    exact located_bind (located_expr t left) fun a =>
      located_bind (located_term t right) fun b => located_operator op a b

theorem located_term (t : SymbolTable) (x : Term) : Located (x.eval t) := by
  cases x with
  | operand o => exact located_operand t o
  | parens e => exact located_expr t e

end

/-! ### Operators and parentheses -/

/-- All operators weigh the same, so that a new one settles those before it. -/
theorem pushOperator_of_weight {d : Dialect} (r : Registry)
    (weigh : ∀ code, d.weight code = standardWeight) (s : Stacks) (code : Int) :
    s.pushOperator d r code =
      (settle d r s >>= fun s => pure { s with operators := code :: s.operators }) := by
  have yields : (fun top => !d.isOpenParen top && decide (d.weight code ≤ d.weight top)) =
      fun top => !d.isOpenParen top := by
    funext top
    simp [weigh]
  unfold pushOperator settle
  dsimp only
  rw [yields]

theorem pushOperator_eq {d : Dialect} {r : Registry} (knows : d.Knows r) (s : Stacks) (code : Int) :
    s.pushOperator d r code =
      (settle d r s >>= fun s => pure { s with operators := code :: s.operators }) :=
  pushOperator_of_weight r knows.weight s code

theorem special_operator (op : Operator) :
    (.operator, op.lexeme, .binary op) ∈ specialLexemes := by
  cases op <;> decide

section Tokens

variable {d : Dialect} {r : Registry} (knows : d.Knows r)
include knows

theorem isOpenParen_operator (op : Operator) : d.isOpenParen (r.token op.lexeme).code = false := by
  simp [Dialect.isOpenParen, knows.role _ _ _ (special_operator op)]

theorem isOpenParen_paren : d.isOpenParen (r.token "(").code = true := by
  have := knows.role .operator "(" .openParen (by decide)
  simp [Dialect.isOpenParen, this]

theorem applyOperator_operator (op : Operator) (left right : Value) (operands : List Value) :
    applyOperator d r (r.token op.lexeme).code (right :: left :: operands) =
      (op.eval left right).map (· :: operands) := by
  have role := knows.role _ _ _ (special_operator op)
  have lexeme := knows.decode _ _ _ (special_operator op)
  unfold applyOperator Operator.eval Dialect.roleOf
  simp only [role, lexeme, Option.getD_some]
  cases (Role.binary op).apply left right <;> rfl

theorem settle_operator (op : Operator) (left right : Value) (operands : List Value)
    {operators : List Int} (settled : Settled d operators) :
    settle d r ⟨right :: left :: operands, (r.token op.lexeme).code :: operators⟩ =
      (op.eval left right >>= fun value => pure ⟨value :: operands, operators⟩) := by
  rw [settle, collapse, if_pos (by simp [isOpenParen_operator knows]), applyOperator_operator knows]
  cases op.eval left right with
  | error report => rfl
  | ok value => exact settle_of_settled r settled (value :: operands)

variable (t : SymbolTable)

theorem readAll_operator (s : Stacks) (op : Operator) (tokens : List Token) :
    s.readAll d r t (r.token op.lexeme :: tokens) =
      (settle d r s >>= fun s =>
        readAll d r t { s with operators := (r.token op.lexeme).code :: s.operators } tokens) := by
  rw [readAll, knows.classify_eq (special_operator op), read, pushOperator_eq knows, mapError_bind,
    mapError_orAt (located_settle d r s), bind_assoc]
  rfl

theorem readAll_open (s : Stacks) (tokens : List Token) :
    s.readAll d r t (r.token "(" :: tokens) =
      readAll d r t { s with operators := (r.token "(").code :: s.operators } tokens := by
  rw [readAll, knows.classify_eq (show (.operator, "(", .openParen) ∈ specialLexemes by decide)]
  rfl

/-- A closing parenthesis settles what stands in it and takes the open one away. -/
theorem readAll_close (s : Stacks) :
    s.readAll d r t [r.token ")"] =
      (settle d r s >>= fun s =>
        match s.operators with
        | [] => .error ⟨.unmatchedClose, some ")"⟩
        | _ :: operators => pure { s with operators }) := by
  rw [readAll, knows.classify_eq (show (.operator, ")", .closeParen) ∈ specialLexemes by decide), read,
    closeParen, ← settle, mapError_bind, mapError_orAt (located_settle d r s), bind_assoc]
  congr 1
  funext s
  obtain ⟨operands, operators⟩ := s
  cases operators <;> rfl

omit knows in
theorem readAll_operand (o : Operand) (fits : d.classify (r.token o.lexeme) = o.role) (s : Stacks) :
    s.readAll d r t [r.token o.lexeme] = (o.eval t >>= fun value => pure (s.pushOperand value)) := by
  have read : s.read d r t o.role (r.token o.lexeme) =
      (o.eval t >>= fun value => pure (s.pushOperand value)) := by
    cases o with
    | literal lexeme =>
      simp only [Stacks.read, Operand.role, Operand.lexeme, Operand.eval, Registry.token]
      cases readLiteral lexeme <;> rfl
    | name lexeme =>
      simp only [Stacks.read, Operand.role, Operand.lexeme, Operand.eval, Registry.token]
      cases t.read lexeme <;> rfl
  rw [readAll, fits, read, mapError_bind, mapError_orAt (located_operand t o), bind_assoc]
  rfl

/-! ### Trees -/

mutual

/-- Reading an expression and applying what is then pending comes to its value. -/
theorem readAll_expr (e : Expr)
    (fits : ∀ o ∈ e.operands, d.classify (r.token o.lexeme) = o.role) (operands : List Value)
    {operators : List Int} (settled : Settled d operators) :
    (readAll d r t ⟨operands, operators⟩ (e.lexemes.map r.token) >>= settle d r) =
      (e.eval t >>= fun value => pure ⟨value :: operands, operators⟩) := by
  cases e with
  | term x =>
    have pushed := readAll_term x fits operands operators
    rw [Expr.lexemes, Expr.eval, pushed, bind_assoc]
    simp only [pure_bind, settle_of_settled r settled]
    rfl
  | binary left op right =>
    have fitsLeft := fun o member => fits o (List.mem_append_left _ member)
    have fitsRight := fun o member => fits o (List.mem_append_right _ member)
    calc (readAll d r t ⟨operands, operators⟩ ((left.binary op right).lexemes.map r.token) >>=
          settle d r)
        = (readAll d r t ⟨operands, operators⟩ (left.lexemes.map r.token) >>= settle d r) >>= fun s =>
            readAll d r t { s with operators := (r.token op.lexeme).code :: s.operators }
              (right.lexemes.map r.token) >>= settle d r := by
          simp only [Expr.lexemes, List.map_append, List.map_cons, readAll_append,
            readAll_operator knows, bind_assoc]
      _ = left.eval t >>= fun a =>
            readAll d r t ⟨a :: operands, (r.token op.lexeme).code :: operators⟩
              (right.lexemes.map r.token) >>= settle d r := by
          rw [readAll_expr left fitsLeft operands settled, bind_assoc]
          simp only [pure_bind]
      _ = left.eval t >>= fun a => right.eval t >>= fun b =>
            settle d r ⟨b :: a :: operands, (r.token op.lexeme).code :: operators⟩ := by
          simp only [readAll_term right fitsRight, bind_assoc, pure_bind]
      _ = (left.binary op right).eval t >>= fun value => pure ⟨value :: operands, operators⟩ := by
          simp only [settle_operator knows op _ _ _ settled, Expr.eval, bind_assoc]

/-- Reading a term pushes its value, whatever is pending. -/
theorem readAll_term (x : Term)
    (fits : ∀ o ∈ x.operands, d.classify (r.token o.lexeme) = o.role) (operands : List Value)
    (operators : List Int) :
    readAll d r t ⟨operands, operators⟩ (x.lexemes.map r.token) =
      (x.eval t >>= fun value => pure ⟨value :: operands, operators⟩) := by
  cases x with
  | operand o =>
    exact readAll_operand t o (fits o (List.mem_singleton_self o)) ⟨operands, operators⟩
  | parens e =>
    have settled : Settled d ((r.token "(").code :: operators) := by
      rintro _ ⟨rfl⟩
      exact isOpenParen_paren knows
    have inside := readAll_expr e fits operands settled
    calc readAll d r t ⟨operands, operators⟩ ((Term.parens e).lexemes.map r.token)
        = (readAll d r t ⟨operands, (r.token "(").code :: operators⟩ (e.lexemes.map r.token) >>=
            settle d r) >>= fun s => match s.operators with
              | [] => .error ⟨.unmatchedClose, some ")"⟩
              | _ :: operators => pure { s with operators } := by
          simp only [Term.lexemes, List.map_cons, List.map_append, List.map_nil, readAll_open knows,
            readAll_append, readAll_close knows, bind_assoc]
      _ = (Term.parens e).eval t >>= fun value => pure ⟨value :: operands, operators⟩ := by
          rw [inside, bind_assoc]
          rfl

end

/-- The value that the stacks come to behind an expression is the value of its tree. -/
theorem evaluate_expr (e : Expr)
    (fits : ∀ o ∈ e.operands, d.classify (r.token o.lexeme) = o.role) :
    evaluate d r t (e.lexemes.map r.token) = e.eval t := by
  have whole := readAll_expr knows t e fits [] (show Settled d [] by simp [Settled])
  unfold evaluate finish
  change (readAll d r t {} (e.lexemes.map r.token) >>= fun s => settle d r s >>= _) = _
  rw [← bind_assoc]
  change readAll d r t {} (e.lexemes.map r.token) >>= settle d r = _ at whole
  rw [whole, bind_assoc]
  cases e.eval t <;> rfl

/-- What is pending behind an expression comes to its value. -/
theorem finish_expr (e : Expr) (fits : ∀ o ∈ e.operands, d.classify (r.token o.lexeme) = o.role)
    {pending : Stacks} (read : readAll d r t {} (e.lexemes.map r.token) = .ok pending) :
    pending.finish d r = e.eval t := by
  rw [← evaluate_expr knows t e fits, evaluate, read]
  rfl

end Tokens

end LineLang.Stacks
