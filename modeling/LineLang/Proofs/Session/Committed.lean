import LineLang.Proofs.Expression.Alternation
import LineLang.Proofs.Session.Rejection
import LineLang.Proofs.Session.Statement

/-!
# Committed expressions

What a call must have read when it commits the value of an expression. `exists_expr_iff_apart`: the
expression has its parentheses in balance and more operands than operators, and it is an infix expression
if and only if no two of its terms stand side by side.
-/

namespace LineLang.Session

section Feeding

variable {s : Session} {text : String} {value : Value} {more : List Event}

theorem event_of_perform {s' : Session} {target : Target} {event : Event}
    (h : s.perform text (target.write value) = .ok (s', event)) : event = target.event value := by
  obtain ⟨symbols, ran, -⟩ := perform_eq_ok h
  have written := Target.run_write_of_admits (Target.admits_of_run_write ran)
  rw [ran] at written
  exact (Prod.mk.inj (Except.ok.inj written)).2

theorem events_reject_ne (fault : Fault) (lexeme : String) (target : Target) :
    (s.reject text fault lexeme).2.2 ≠ target.event value :: more := by
  cases target <;> simp [reject, Target.event]

/-- Only a name is given a value. -/
theorem named_of_committed (knows : s.dialect.Knows s.registry) {opening : Opening} {rest : List Token}
    (committed : (s.feed text .start (opening.lexemes.map s.registry.token ++ rest)).2.2 =
      opening.target.event value :: more) :
    s.dialect.classify (s.registry.token opening.name) = .name := by
  have int := knows.classify_eq (show (.keyword, "int", .intType) ∈ specialLexemes by decide)
  have string := knows.classify_eq (show (.keyword, "string", .stringType) ∈ specialLexemes by decide)
  have equals := knows.classify_eq (show (.operator, "=", .equals) ∈ specialLexemes by decide)
  cases opening with
  | int name | string name =>
    simp only [Opening.lexemes, List.map_cons, List.cons_append, feed, Phase.step, int, string,
      Opening.name] at committed ⊢
    cases role : s.dialect.classify (s.registry.token name) with
    | name => rfl
    | _ =>
      rw [role] at committed
      exact absurd committed (events_reject_ne _ _ _)
  | plain name =>
    simp only [Opening.lexemes, List.map_cons, List.cons_append, feed, Phase.step, equals,
      Opening.name] at committed ⊢
    cases role : s.dialect.classify (s.registry.token name) with
    | name => rfl
    | _ =>
      rw [role] at committed
      exact absurd committed (events_reject_ne _ _ _)

/-- The value that is committed is what the stacks come to, at a semicolon or behind the last token. -/
theorem finish_of_committed {target : Target} {pending : Stacks} {rest : List Token}
    (closed : ∀ token ∈ rest.head?, s.dialect.classify token = .semicolon)
    (committed : (s.feed text (.expression target pending) rest).2.2 = target.event value :: more) :
    pending.finish s.dialect s.registry = .ok value := by
  have unterminated (fault : Fault) : [Event.unterminated fault] ≠ target.event value :: more := by
    cases target <;> simp [Target.event]
  cases rest with
  | nil =>
    unfold feed finish at committed
    dsimp only at committed
    split at committed
    · cases committed
    cases finished : pending.finish s.dialect s.registry with
    | error report =>
      rw [finished] at committed
      exact absurd committed (unterminated _)
    | ok value' =>
      rw [finished] at committed
      dsimp only at committed
      split at committed
      · exact absurd committed (unterminated _)
      · rename_i performed
        obtain rfl := (List.cons.inj committed).1
        exact congrArg _ (event_injective (event_of_perform performed)).symm
  | cons token rest =>
    rw [feed] at committed
    simp only [Phase.step, closed token rfl] at committed
    cases finished : pending.finish s.dialect s.registry with
    | error report =>
      rw [finished] at committed
      exact absurd committed (events_reject_ne _ _ _)
    | ok value' =>
      rw [finished] at committed
      simp only [bind, Except.bind, pure, Except.pure] at committed
      split at committed
      · exact absurd committed (events_reject_ne _ _ _)
      · rename_i performed
        obtain rfl := (List.cons.inj committed).1
        exact congrArg _ (event_injective (event_of_perform performed)).symm

/-- An expression whose value is committed has been read on the stacks. -/
theorem readAll_of_committed {target : Target} {tokens rest : List Token}
    (noEnd : ∀ token ∈ tokens, s.dialect.classify token ≠ .semicolon)
    (closed : ∀ token ∈ rest.head?, s.dialect.classify token = .semicolon)
    (committed : (s.feed text (.expression target {}) (tokens ++ rest)).2.2 =
      target.event value :: more) :
    ∃ pending, Stacks.readAll s.dialect s.registry s.symbols {} tokens = .ok pending ∧
      pending.finish s.dialect s.registry = .ok value := by
  rw [feed_expression s text target {} tokens rest noEnd] at committed
  cases read : Stacks.readAll s.dialect s.registry s.symbols {} tokens with
  | error report =>
    rw [read] at committed
    exact absurd committed (events_reject_ne _ _ _)
  | ok pending =>
    rw [read] at committed
    exact ⟨pending, rfl, finish_of_committed closed committed⟩

end Feeding

/-- A call with `lexemes` commits the value of the words `e`. They end at a semicolon or with the call,
and the statement stands behind those in `done`. -/
structure CommitsBehind (s : Session) (lexemes done : List String) (opening : Opening)
    (e : List String) (value : Value) : Prop where
  cut : ∃ rest, lexemes.filter (· ≠ "") = done ++ (opening.lexemes ++ (e ++ rest)) ∧
    ∀ word ∈ rest.head?, word = ";"
  closed : ∀ word ∈ done.getLast?, word = ";"
  whole : ";" ∉ e
  printed : ∃ more,
    (s.execute lexemes).2.2 = (s.execute done).2.2 ++ opening.target.event value :: more

/-- A tree is written as the words are, and its operands are operands of the session. -/
def Spells (s : Session) (tree : Expr) (words : List String) : Prop :=
  tree.lexemes = words ∧ ∀ o ∈ tree.operands, s.roleOf o.lexeme = some o.role

theorem apart_of_spells {s : Session}
    (signs : ∀ entry ∈ specialLexemes, s.roleOf entry.2.1 = some entry.2.2) {tree : Expr}
    {words : List String} (h : s.Spells tree words) :
    Apart (words.map fun word => (s.roleOf word).getD .other) := by
  obtain ⟨rfl, fits⟩ := h
  apply apart_expr
  · intro category lexeme special listed
    rw [signs _ listed]
    rfl
  · intro o operand
    rw [fits o operand]
    rfl

section Committed

variable {made : Registry} {s : Session} (h : s.MadeFrom made) (complete : Dialect.Complete made)
include h complete

/-- What a call emits behind its first statements, it emits from the session that they leave. -/
theorem exists_feed_of_printed {lexemes done back : List String} {event : Event} {more : List Event}
    (cut : lexemes.filter (· ≠ "") = done ++ back) (closed : ∀ word ∈ done.getLast?, word = ";")
    (printed : (s.execute lexemes).2.2 = (s.execute done).2.2 ++ event :: more) :
    ∃ (text : String) (s₁ : Session), s.registry.encodeAll (lexemes.filter (· ≠ "")) =
        (.ok ((lexemes.filter (· ≠ "")).map s₁.registry.token), s₁.registry) ∧
      s₁.dialect = s.dialect ∧ s₁.symbols = (s.execute done).2.1.symbols ∧
        (s₁.feed text .start (back.map s₁.registry.token)).2.2 = event :: more := by
  have nonempty := @ne_empty_of_mem_filter lexemes
  have leads := (Registry.leads_encodeAll s.registry (lexemes.filter (· ≠ ""))).1
  have filtered := execute_filter s lexemes
  rcases execute_cases s lexemes with ⟨_, r, -, result⟩ | ⟨r, -, result⟩ |
    ⟨tokens, r, encoded, -, result⟩
  · rw [result] at printed
    simp at printed
  · rw [result] at printed
    simp at printed
  rw [encoded] at leads
  have knows := Dialect.knows_of_complete h.reachable (Registry.leads_trans h.leads leads) complete
  obtain ⟨rfl, -⟩ := Registry.tokens_of_encodeAll nonempty encoded
  generalize statementText ((lexemes.filter (· ≠ "")).map r.token) = text at result
  generalize lexemes.filter (· ≠ "") = words at cut nonempty filtered encoded result ⊢
  subst cut
  -- nothing is emitted behind a rejection
  have passed : done ≠ [] → ∀ report, (s.execute done).1 ≠ .ok (.rejected report) := by
    intro any report rejected
    have stopped := (execute_of_rejected h nonempty encoded any rejected).2.1
    rw [filtered, printed] at stopped
    simp at stopped
  have ends : ∀ word ∈ done.getLast?, s.dialect.classify (r.token word) = .semicolon := by
    intro word last
    rw [closed word last, h.dialect_eq]
    exact knows.classify_eq (show (.operator, ";", .semicolon) ∈ specialLexemes by decide)
  obtain ⟨s₁, reads, state⟩ := reads_of_closed h nonempty encoded text ends passed
  obtain ⟨registry, dialect, -⟩ := sameSetting_of_reads reads
  rw [result, List.map_append, feed_of_reads reads] at printed
  obtain rfl : s₁.registry = r := registry
  exact ⟨text, s₁, encoded, dialect, state.symbols_eq, List.append_cancel_left printed⟩

/-- Committed words were read on the stacks in a registry that has them all, with the symbols that the
statements before them left. -/
theorem readAll_of_commitsBehind {lexemes done e : List String} {opening : Opening} {value : Value}
    (commits : s.CommitsBehind lexemes done opening e value) :
    ∃ r tokens pending, s.registry.encodeAll (lexemes.filter (· ≠ "")) = (.ok tokens, r) ∧
      s.registry.Leads r ∧
        (∀ word ∈ e, word ∈ lexemes.filter (· ≠ "") ∧ r.Encodes word (r.token word)) ∧
          Stacks.readAll s.dialect r (s.execute done).2.1.symbols {} (e.map r.token) = .ok pending ∧
            pending.finish s.dialect r = .ok value := by
  obtain ⟨⟨rest, cut, ended⟩, closed, whole, more, printed⟩ := commits
  obtain ⟨text, s₁, encoded, dialect, symbols, committed⟩ :=
    exists_feed_of_printed h complete cut closed printed
  have leads := (Registry.leads_encodeAll s.registry (lexemes.filter (· ≠ ""))).1
  rw [encoded] at leads
  have known : ∀ word ∈ e, word ∈ lexemes.filter (· ≠ "") ∧
      s₁.registry.Encodes word (s₁.registry.token word) := by
    intro word inside
    have member : word ∈ lexemes.filter (· ≠ "") := by
      rw [cut]
      simp [inside]
    exact ⟨member, (Registry.tokens_of_encodeAll ne_empty_of_mem_filter encoded).2 word member⟩
  have leads' := Registry.leads_trans h.leads leads
  have knows : s₁.dialect.Knows s₁.registry := by
    rw [dialect, h.dialect_eq]
    exact Dialect.knows_of_complete h.reachable leads' complete
  have semicolon : (.operator, ";", .semicolon) ∈ specialLexemes := by decide
  have noEnd : ∀ token ∈ e.map s₁.registry.token, s₁.dialect.classify token ≠ .semicolon := by
    intro token read same
    obtain ⟨word, inside, rfl⟩ := List.mem_map.1 read
    rw [dialect, h.dialect_eq] at same
    have spelled := Dialect.lexeme_of_classify h.reachable leads' (known word inside).2 semicolon same
    exact whole (spelled ▸ inside)
  have ends : ∀ token ∈ (rest.map s₁.registry.token).head?,
      s₁.dialect.classify token = .semicolon := by
    intro token first
    obtain ⟨word, head, rfl⟩ := Option.map_eq_some_iff.1 (List.head?_map ▸ first)
    rw [ended word head, knows.classify_eq semicolon]
  rw [List.map_append] at committed
  have named := named_of_committed knows committed
  rw [feed_opening knows opening named text, List.map_append] at committed
  obtain ⟨pending, read, finished⟩ := readAll_of_committed noEnd ends committed
  rw [dialect, symbols] at read
  rw [dialect] at finished
  exact ⟨s₁.registry, _, pending, encoded, leads, known, read, finished⟩

/-- A committed expression has its parentheses in balance and more operands than operators. It is an
infix expression, whose value is then committed, if and only if its terms are apart. -/
theorem exists_expr_iff_apart {lexemes done e : List String} {opening : Opening} {value : Value}
    (commits : s.CommitsBehind lexemes done opening e value) :
    ∃ roles : List Role, e.map (s.execute lexemes).2.1.roleOf = roles.map some ∧ Tally 0 0 roles ∧
      ((∃ tree, (s.execute lexemes).2.1.Spells tree e) ↔ Apart roles) ∧
        ∀ tree, (s.execute lexemes).2.1.Spells tree e →
          tree.eval (s.execute done).2.1.symbols = .ok value := by
  obtain ⟨r, tokens, pending, encoded, leads, known, read, finished⟩ :=
    readAll_of_commitsBehind h complete commits
  have leads := Registry.leads_trans h.leads leads
  have knows := Dialect.knows_of_complete h.reachable leads complete
  rw [← h.dialect_eq] at knows
  -- a word has the role in which its token was read
  have roles : ∀ word ∈ e, (s.execute lexemes).2.1.roleOf word =
      some (s.dialect.classify (r.token word)) := fun word inside =>
    roleOf_execute encoded word (known word inside).1
  have spells : ∀ tree, (s.execute lexemes).2.1.Spells tree e ↔ tree.lexemes = e ∧
      ∀ o ∈ tree.operands, s.dialect.classify (r.token o.lexeme) = o.role := by
    intro tree
    refine and_congr_right fun written => forall_congr' fun o => imp_congr_right fun operand => ?_
    rw [roles o.lexeme (written ▸ Expr.lexeme_mem operand), Option.some_inj]
  have tally := Stacks.tally_of_readAll read finished
  rw [List.map_map] at tally
  refine ⟨e.map fun word => s.dialect.classify (r.token word), ?_, tally, ?_, ?_⟩
  · rw [List.map_map]
    exact List.map_congr_left roles
  · simp only [spells]
    constructor
    · rintro ⟨tree, rfl, fits⟩
      exact apart_expr (fun _ _ _ special => knows.classify_eq special) tree fits
    · intro apart
      refine exists_expr_of_tally ?_ tally apart
      intro word inside category lexeme special
      rw [h.dialect_eq] at special
      exact Dialect.lexeme_of_classify h.reachable leads (known word inside).2 special rfl
  · intro tree spelled
    obtain ⟨rfl, fits⟩ := (spells tree).1 spelled
    rw [← Stacks.finish_expr knows _ tree fits read, finished]

end Committed

theorem exists_expr_of_unterminated :
    ∃ tree, ((start Registry.vocabulary .empty false).execute
        ["int", "x", "=", "2", "*", "(", "3", "+", "4", ")"]).2.1.Spells tree
          ["2", "*", "(", "3", "+", "4", ")"] ∧ tree.eval .empty = .ok (.int 14) := by
  have commits : (start Registry.vocabulary .empty false).CommitsBehind
      ["int", "x", "=", "2", "*", "(", "3", "+", "4", ")"] [] (.int "x")
      ["2", "*", "(", "3", "+", "4", ")"] (.int 14) :=
    ⟨⟨[], by decide, by decide⟩, by decide, by decide, [], by decide +kernel⟩
  obtain ⟨roles, read, -, tree, value⟩ := exists_expr_iff_apart
    (madeFrom_start Registry.reachable_vocabulary .empty false) Registry.complete_vocabulary commits
  obtain rfl : roles = [.literal, .binary .times, .openParen, .literal, .binary .plus, .literal,
      .closeParen] :=
    List.map_injective_iff.2 (fun _ _ => Option.some.inj) (read.symm.trans (by decide +kernel))
  obtain ⟨tree, spelled⟩ := tree.2 (by decide)
  exact ⟨tree, spelled, value tree spelled⟩

/-- An operator in parentheses of its own takes its operands from outside, and the first one is lost. -/
theorem commits_side_by_side :
    (start Registry.vocabulary .empty false).CommitsBehind
        ["int", "x", "=", "7", "1", "2", "(", "+", ")", ";"] [] (.int "x")
        ["7", "1", "2", "(", "+", ")"] (.int 3) ∧
      ¬∃ tree, ((start Registry.vocabulary .empty false).execute
        ["int", "x", "=", "7", "1", "2", "(", "+", ")", ";"]).2.1.Spells tree
          ["7", "1", "2", "(", "+", ")"] := by
  refine ⟨⟨⟨[";"], by decide, by decide⟩, by decide, by decide, [], by decide +kernel⟩, ?_⟩
  rintro ⟨tree, spelled⟩
  exact absurd (apart_of_spells (by decide +kernel) spelled) (by decide +kernel)

end LineLang.Session
