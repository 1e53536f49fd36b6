import LineLang.Proofs.Expression.Tally
import Mathlib.Data.List.Nodup

/-!
# Which operators have been applied

The stacks do not tell one `+` from another. An account does: its operators carry the positions that
they were read at, and it keeps the positions of those that it has applied. Without the positions it is
the stacks, in lockstep (`erase_evaluate`). `count_applied`: when no operator waits any more, every binary
operator has been applied once, and nothing else has been applied.
-/

namespace LineLang

structure Account where
  operands : List Value := []
  operators : List (Nat × Int) := []
  /-- The positions of the operators that have been applied, latest first. -/
  applied : List Nat := []

namespace Account

def erase (a : Account) : Stacks := ⟨a.operands, a.operators.map Prod.snd⟩

section Machine

variable (d : Dialect) (r : Registry)

def collapse (yields : Int → Bool) (operands : List Value) (applied : List Nat) :
    List (Nat × Int) → Except Report Account
  | [] => .ok ⟨operands, [], applied⟩
  | (position, code) :: operators =>
    if yields code then
      match Stacks.applyOperator d r code operands with
      | .error report => .error report
      | .ok operands => collapse yields operands (position :: applied) operators
    else .ok ⟨operands, (position, code) :: operators, applied⟩

def settle (a : Account) : Except Report Account :=
  collapse d r (fun top => !d.isOpenParen top) a.operands a.applied a.operators

def pushOperator (a : Account) (position : Nat) (code : Int) : Except Report Account := do
  let yields top := !d.isOpenParen top && d.weight code ≤ d.weight top
  let a ← collapse d r yields a.operands a.applied a.operators
  return { a with operators := (position, code) :: a.operators }

def closeParen (a : Account) : Except Report Account := do
  let a ← a.settle d r
  match a.operators with
  | [] => .error Fault.unmatchedClose.report
  | _ :: operators => return { a with operators }

variable (t : SymbolTable)

/-- Reads the token at a position. What is no operator and no parenthesis is read on the stacks. -/
def read (a : Account) (position : Nat) (role : Role) (token : Token) : Except Report Account :=
  match role with
  | .binary _ => a.pushOperator d r position token.code
  | .openParen => .ok { a with operators := (position, token.code) :: a.operators }
  | .closeParen => a.closeParen d r
  | role => do
    let s ← a.erase.read d r t role token
    return { a with operands := s.operands }

def readAll (a : Account) (position : Nat) : List Token → Except Report Account
  | [] => return a
  | token :: tokens => do
    let a ← (a.read d r t position (d.classify token) token).mapError (·.orAt token.lexeme)
    a.readAll (position + 1) tokens

/-- The account of an expression, behind the operators that its last token leaves. -/
def evaluate (tokens : List Token) : Except Report Account := do
  let a ← readAll d r t {} 0 tokens
  a.settle d r

end Machine

/-! ### Lockstep -/

section Lockstep

variable (d : Dialect) (r : Registry)

theorem erase_collapse (yields : Int → Bool) (operands : List Value) (applied : List Nat)
    (operators : List (Nat × Int)) :
    (collapse d r yields operands applied operators).map erase =
      Stacks.collapse d r yields operands (operators.map Prod.snd) := by
  induction operators generalizing operands applied with
  | nil => rfl
  | cons entry operators ih =>
    obtain ⟨position, code⟩ := entry
    rw [collapse, List.map_cons, Stacks.collapse]
    split
    · cases Stacks.applyOperator d r code operands with
      | error report => rfl
      | ok operands => exact ih operands (position :: applied)
    · rfl

theorem erase_settle (a : Account) : (a.settle d r).map erase = a.erase.settle d r :=
  erase_collapse d r _ a.operands a.applied a.operators

theorem erase_pushOperator (a : Account) (position : Nat) (code : Int) :
    (a.pushOperator d r position code).map erase = a.erase.pushOperator d r code := by
  unfold pushOperator Stacks.pushOperator
  dsimp only [erase]
  rw [← erase_collapse d r _ a.operands a.applied]
  cases collapse d r _ a.operands a.applied a.operators <;> rfl

theorem erase_closeParen (a : Account) : (a.closeParen d r).map erase = a.erase.closeParen d r := by
  unfold closeParen Stacks.closeParen
  rw [← Stacks.settle, ← erase_settle]
  cases a.settle d r with
  | error report => rfl
  | ok a =>
    obtain ⟨operands, operators, applied⟩ := a
    cases operators <;> rfl

variable (t : SymbolTable)

theorem erase_read (a : Account) (position : Nat) (role : Role) (token : Token) :
    (a.read d r t position role token).map erase = a.erase.read d r t role token := by
  cases role with
  | binary op => exact erase_pushOperator d r a position token.code
  | closeParen => exact erase_closeParen d r a
  | literal | name =>
    simp only [read, Stacks.read]
    split <;> rfl
  | _ => rfl

theorem erase_readAll (a : Account) (position : Nat) (tokens : List Token) :
    (a.readAll d r t position tokens).map erase = a.erase.readAll d r t tokens := by
  induction tokens generalizing a position with
  | nil => rfl
  | cons token tokens ih =>
    rw [readAll, Stacks.readAll, ← erase_read d r t a position]
    cases a.read d r t position (d.classify token) token with
    | error report => rfl
    | ok a => exact ih a (position + 1)

theorem erase_evaluate (tokens : List Token) :
    (evaluate d r t tokens).map erase = (Stacks.readAll d r t {} tokens >>= (·.settle d r)) := by
  have lockstep := erase_readAll d r t {} 0 tokens
  change _ = Stacks.readAll d r t {} tokens at lockstep
  rw [evaluate, ← lockstep]
  cases readAll d r t {} 0 tokens with
  | error report => rfl
  | ok a => exact erase_settle d r a

end Lockstep

/-! ### Positions -/

variable {d : Dialect} {r : Registry}

/-- The positions of the operators that wait for their values. -/
def waiting (d : Dialect) (operators : List (Nat × Int)) : List Nat :=
  (operators.filter fun entry => !d.isOpenParen entry.2).map Prod.fst

/-- The positions of the operators that wait or have been applied. -/
def positions (d : Dialect) (a : Account) : List Nat := a.applied ++ waiting d a.operators

theorem waiting_operator {code : Int} (h : d.isOpenParen code = false) (position : Nat)
    (operators : List (Nat × Int)) :
    waiting d ((position, code) :: operators) = position :: waiting d operators := by
  simp [waiting, h]

theorem waiting_paren {code : Int} (h : d.isOpenParen code = true) (position : Nat)
    (operators : List (Nat × Int)) :
    waiting d ((position, code) :: operators) = waiting d operators := by
  simp [waiting, h]

theorem positions_collapse {yields : Int → Bool}
    (within : ∀ code, yields code = true → d.isOpenParen code = false) {operands : List Value}
    {applied : List Nat} {operators : List (Nat × Int)} {a : Account}
    (h : collapse d r yields operands applied operators = .ok a) :
    (a.positions d).Perm (applied ++ waiting d operators) := by
  induction operators generalizing operands applied with
  | nil =>
    cases h
    exact .refl _
  | cons entry operators ih =>
    obtain ⟨position, code⟩ := entry
    rw [collapse] at h
    split at h
    · rename_i yielding
      split at h
      · cases h
      · rw [waiting_operator (within code yielding)]
        exact (ih h).trans List.perm_middle.symm
    · cases h
      exact .refl _

theorem positions_settle {a a' : Account} (h : a.settle d r = .ok a') :
    (a'.positions d).Perm (a.positions d) :=
  positions_collapse (by simp) h

theorem positions_pushOperator {a a' : Account} {position : Nat} {code : Int}
    (waits : d.isOpenParen code = false) (h : a.pushOperator d r position code = .ok a') :
    (a'.positions d).Perm (a.positions d ++ [position]) := by
  obtain ⟨a₁, collapsed, same⟩ := bind_eq_ok h
  have kept : (a₁.positions d).Perm (a.positions d) := positions_collapse (by simp +contextual) collapsed
  cases same
  unfold positions
  rw [waiting_operator waits]
  exact List.perm_middle.trans ((kept.cons position).trans (List.perm_append_singleton _ _).symm)

theorem positions_closeParen {a a' : Account} (h : a.closeParen d r = .ok a') :
    (a'.positions d).Perm (a.positions d) := by
  obtain ⟨a₁, settled, popped⟩ := bind_eq_ok h
  have kept := positions_settle settled
  have bare : a.erase.settle d r = .ok a₁.erase := by rw [← erase_settle, settled]; rfl
  -- what settling stops at is a parenthesis, whose position is none of a waiting operator
  have top := Stacks.settled_collapse bare
  obtain ⟨operands, operators, applied⟩ := a₁
  cases operators with
  | nil => cases popped
  | cons entry operators =>
    have paren : d.isOpenParen entry.2 = true := top _ rfl
    cases popped
    unfold positions at kept ⊢
    rwa [waiting_paren paren] at kept

variable {t : SymbolTable}

/-- Of the tokens, a binary operator alone brings its position. -/
theorem positions_read {a a' : Account} {position : Nat} {token : Token}
    (h : a.read d r t position (d.classify token) token = .ok a') :
    (a'.positions d).Perm (a.positions d ++ [d.classify token].findIdxs Role.isBinary position) := by
  generalize classified : d.classify token = role at h ⊢
  cases role with
  | literal | name =>
    obtain ⟨s, -, same⟩ := bind_eq_ok h
    cases same
    exact (List.append_nil _).symm ▸ .refl _
  | binary op =>
    have waits := Stacks.isOpenParen_of_classify (by simp) classified
    exact positions_pushOperator (by rw [waits]; rfl) h
  | openParen =>
    have paren : d.isOpenParen token.code = true := Stacks.isOpenParen_of_classify (by simp) classified
    cases h
    unfold positions
    rw [waiting_paren paren]
    exact (List.append_nil _).symm ▸ .refl _
  | closeParen => exact (List.append_nil _).symm ▸ positions_closeParen h
  | intType | stringType | equals | semicolon | other => cases h

theorem positions_readAll {tokens : List Token} {a a' : Account} {position : Nat}
    (h : a.readAll d r t position tokens = .ok a') :
    (a'.positions d).Perm
      (a.positions d ++ (tokens.map d.classify).findIdxs Role.isBinary position) := by
  induction tokens generalizing a position with
  | nil =>
    cases h
    exact (List.append_nil _).symm ▸ .refl _
  | cons token tokens ih =>
    obtain ⟨a₁, first, after⟩ := bind_eq_ok h
    have front := positions_read (mapError_eq_ok first)
    rw [List.map_cons, ← List.singleton_append, List.findIdxs_append, ← List.append_assoc]
    exact (ih after).trans (front.append_right _)

/-- When no operator waits, the binary operators are what has been applied, each of them once. -/
theorem count_applied {tokens : List Token} {a : Account} (h : evaluate d r t tokens = .ok a)
    (none : a.operators = []) (position : Nat) :
    a.applied.count position =
      if ((tokens.map d.classify)[position]?).any Role.isBinary then 1 else 0 := by
  obtain ⟨a₁, read, settled⟩ := bind_eq_ok h
  have all : a.applied.Perm ((tokens.map d.classify).findIdxs Role.isBinary) := by
    have kept := (positions_settle settled).trans (positions_readAll read)
    simpa [positions, none, waiting] using kept
  rw [all.count_eq, List.nodup_findIdxs.count]
  simp [Option.any_eq_true, List.getElem?_eq_some_iff]

end Account

end LineLang
