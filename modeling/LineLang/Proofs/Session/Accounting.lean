import LineLang.Proofs.Expression.Account
import LineLang.Proofs.Session.Statement

/-!
# Operands and operators of an expression

Nothing is asked of the order that the tokens of an expression come in. `account_of_evaluate`: if they
come to a value, the parentheses are in balance, every operator has been applied once and the other
operands lie below the value; out of balance, they end the call at a fault.
-/

namespace LineLang.Session

/-- The call ends at a fault, which it notes, and writes nothing. -/
def EndsAtFault (s : Session) (text : String) (call : Outcome × Session × List Event) : Prop :=
  ∃ outcome event, call = (outcome, s.note text event, [event]) ∧
    (event.rule = "ERROR" ∨ event.rule = "INCOMPLETE")

section Feeding

variable (s : Session) (text : String)

theorem endsAtFault_reject (fault : Fault) (lexeme : String) :
    s.EndsAtFault text (s.reject text fault lexeme) :=
  ⟨_, .rejected fault lexeme, rfl, .inl rfl⟩

/-- Stacks that come to no value end the call, at a semicolon or behind its last token. -/
theorem endsAtFault_feed {target : Target} {pending : Stacks} {report : Report} {rest : List Token}
    (closed : ∀ token ∈ rest.head?, s.dialect.classify token = .semicolon)
    (some : pending.isEmpty = false)
    (failed : pending.finish s.dialect s.registry = .error report) :
    s.EndsAtFault text (s.feed text (.expression target pending) rest) := by
  cases rest with
  | nil =>
    refine ⟨.incomplete report, .unterminated report.fault, ?_, .inr rfl⟩
    simp [feed, finish, some, failed]
  | cons token rest =>
    have step : (Phase.expression target pending).step s.dialect s.registry s.symbols token =
        .error report := by
      simp only [Phase.step, closed token rfl, failed]
      rfl
    rw [feed, step]
    exact endsAtFault_reject s text _ _

variable {tokens rest : List Token}
  (noEnd : ∀ token ∈ tokens, s.dialect.classify token ≠ .semicolon)
  (closed : ∀ token ∈ rest.head?, s.dialect.classify token = .semicolon)
include noEnd closed

theorem endsAtFault_of_not_balanced (target : Target)
    (unbalanced : ¬Role.Balanced (tokens.map s.dialect.classify)) :
    s.EndsAtFault text (s.feed text (.expression target {}) (tokens ++ rest)) := by
  rw [feed_expression s text target {} tokens rest noEnd]
  cases read : Stacks.readAll s.dialect s.registry s.symbols {} tokens with
  | error report => exact endsAtFault_reject s text _ _
  | ok pending =>
    -- in balance up to here, the tokens can only have left a parenthesis open
    have isOpen : pending.depth s.dialect ≠ 0 := fun none =>
      unbalanced (Stacks.balanced_of_readAll read none)
    have some : pending.isEmpty = false := by
      obtain ⟨operands, operators⟩ := pending
      cases operators with
      | nil => exact absurd rfl isOpen
      | cons => simp [Stacks.isEmpty]
    cases finished : pending.finish s.dialect s.registry with
    | error report => exact endsAtFault_feed s text closed some finished
    | ok value => exact absurd (Stacks.tally_finish finished).1 isOpen

/-- Tokens in any order that come to a value have their parentheses in balance. Each of the binary
operators has been applied, once, and the operands that are too many are left below the value. Tokens that
are out of balance write nothing. -/
theorem account_of_evaluate (target : Target) :
    (∀ value, Stacks.evaluate s.dialect s.registry s.symbols tokens = .ok value →
      Role.Balanced (tokens.map s.dialect.classify) ∧
      ∃ account others,
        Account.evaluate s.dialect s.registry s.symbols tokens = .ok account ∧
        (Stacks.readAll s.dialect s.registry s.symbols {} tokens >>=
          (·.settle s.dialect s.registry)) = .ok account.erase ∧
        account.erase = ⟨value :: others, []⟩ ∧
        (∀ position, account.applied.count position =
          if ((tokens.map s.dialect.classify)[position]?).any Role.isBinary then 1 else 0) ∧
        (tokens.map s.dialect.classify).countP Role.isOperand =
          (tokens.map s.dialect.classify).countP Role.isBinary + 1 + others.length) ∧
    (¬Role.Balanced (tokens.map s.dialect.classify) →
      (s.feed text (.expression target {}) (tokens ++ rest)).2.1.symbols = s.symbols ∧
      ∃ event, (s.feed text (.expression target {}) (tokens ++ rest)).2.2 = [event] ∧
        (event.rule = "ERROR" ∨ event.rule = "INCOMPLETE")) := by
  constructor
  · intro value evaluated
    obtain ⟨pending, read, finished⟩ := bind_eq_ok evaluated
    obtain ⟨others, settled⟩ := Stacks.finish_eq_ok finished
    have lockstep := Account.erase_evaluate s.dialect s.registry s.symbols tokens
    have last : (Stacks.readAll s.dialect s.registry s.symbols {} tokens >>=
        (·.settle s.dialect s.registry)) = .ok ⟨value :: others, []⟩ := by
      rw [read]
      exact settled
    rw [last] at lockstep
    obtain ⟨account, accounted, erased⟩ := map_eq_ok lockstep
    have none : account.operators = [] := List.map_eq_nil_iff.1 (congrArg Stacks.operators erased)
    exact ⟨Stacks.balanced_of_readAll read (Stacks.tally_finish finished).1, account, others, accounted,
      by rw [last, erased], erased, Account.count_applied accounted none,
      Stacks.countP_of_settle read settled⟩
  · intro unbalanced
    obtain ⟨outcome, event, ended, rule⟩ :=
      endsAtFault_of_not_balanced s text noEnd closed target unbalanced
    rw [ended]
    exact ⟨rfl, event, rfl, rule⟩

end Feeding

/-- The operator takes its operands from outside of its parentheses, and the first one is left. A
parenthesis that closes nothing ends the call. -/
theorem account_of_lone_operator :
    ∃ s : Session, s.MadeFrom Registry.vocabulary ∧
      (∃ account other, Account.evaluate s.dialect s.registry s.symbols
          (["7", "1", "2", "(", "+", ")"].map s.registry.token) = .ok account ∧
        account.erase = ⟨[.int 3, other], []⟩ ∧ account.applied.count 4 = 1) ∧
      (s.feed "x = 1 ) ;" (.expression (.assignment "x") {})
        (["1", ")", ";"].map s.registry.token)).2.1.symbols.get? "x" = some (.int 3) := by
  let s := ((start Registry.vocabulary .empty false).execute
    ["int", "x", "=", "7", "1", "2", "(", "+", ")", ";"]).2.1
  have closed : ∀ token ∈ [s.registry.token ";"].head?, s.dialect.classify token = .semicolon := by
    decide +kernel
  refine ⟨s, madeFrom_execute (madeFrom_start Registry.reachable_vocabulary .empty false) _, ?_, ?_⟩
  · have noEnd : ∀ token ∈ ["7", "1", "2", "(", "+", ")"].map s.registry.token,
        s.dialect.classify token ≠ .semicolon := by decide +kernel
    have roles : (["7", "1", "2", "(", "+", ")"].map s.registry.token).map s.dialect.classify =
        [.literal, .literal, .literal, .openParen, .binary .plus, .closeParen] := by decide +kernel
    obtain ⟨-, account, others, evaluated, -, erased, applied, count⟩ :=
      (account_of_evaluate s "" noEnd closed (.assignment "x")).1 (.int 3) (by decide +kernel)
    clear_value s
    rw [roles] at applied count
    have one : others.length = 1 := by
      have counted : 3 = 1 + 1 + others.length := count
      omega
    obtain ⟨other, rfl⟩ := List.length_eq_one_iff.1 one
    exact ⟨account, other, evaluated, erased, applied 4⟩
  · have noEnd : ∀ token ∈ ["1", ")"].map s.registry.token, s.dialect.classify token ≠ .semicolon := by
      decide +kernel
    have unbalanced : ¬Role.Balanced ((["1", ")"].map s.registry.token).map s.dialect.classify) :=
      fun balanced => absurd balanced.total (by decide +kernel)
    have written : s.symbols.get? "x" = some (.int 3) := by decide +kernel
    obtain ⟨kept, -⟩ :=
      (account_of_evaluate s "x = 1 ) ;" noEnd closed (.assignment "x")).2 unbalanced
    clear_value s
    exact (congrArg (·.get? "x") kept).trans written

end LineLang.Session
