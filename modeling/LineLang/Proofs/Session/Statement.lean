import LineLang.Proofs.Effect
import LineLang.Proofs.Expression.Evaluation
import LineLang.Proofs.Registry.Standard
import LineLang.Proofs.Session.Run

/-!
# Statements with an expression

`execute_commits_iff_eval`: a statement that gives the value of an expression to a name does what
the tree of the expression says. It writes the value if there is one and the name admits it, and is
rejected with the first fault of the evaluation otherwise.
-/

namespace LineLang

/-- How a statement begins that gives a value to a name: `int x =`, `string x =` or `x =`. -/
inductive Opening where
  | int (name : String)
  | string (name : String)
  | plain (name : String)
  deriving DecidableEq, Repr

namespace Opening

def name : Opening → String
  | .int name | .string name | .plain name => name

def lexemes : Opening → List String
  | .int name => ["int", name, "="]
  | .string name => ["string", name, "="]
  | .plain name => [name, "="]

def target : Opening → Target
  | .int name => .declaration .int name
  | .string name => .declaration .string name
  | .plain name => .assignment name

end Opening

namespace Target

def name : Target → String
  | .declaration _ name | .assignment name => name

/-- A declared name is new and has the declared type; an assigned name keeps its type. -/
def Admits (t : SymbolTable) (value : Value) : Target → Prop
  | .declaration ty name => value.ty = ty ∧ t.get? name = none
  | .assignment name => ∃ old, t.get? name = some old ∧ old.ty = value.ty

def event (target : Target) (value : Value) : Event :=
  match target with
  | .declaration _ name => .initialised name value
  | .assignment name => .assigned name value

theorem run_write_of_admits {t : SymbolTable} {value : Value} {target : Target}
    (h : target.Admits t value) :
    (target.write value).run t = .ok (t.insert target.name value, target.event value) := by
  cases target with
  | declaration ty name =>
    obtain ⟨rfl, fresh⟩ := h
    simp [write, Write.run, SymbolTable.declare, Table.contains, fresh, Target.name, event, Except.map]
  | assignment name =>
    obtain ⟨old, present, same⟩ := h
    simp [write, Write.run, SymbolTable.assign, present, same, Target.name, event, Except.map]

theorem admits_of_run_write {t : SymbolTable} {value : Value} {target : Target}
    {result : SymbolTable × Event} (h : (target.write value).run t = .ok result) :
    target.Admits t value := by
  cases target with
  | declaration ty name =>
    simp only [write, Write.run] at h
    split at h
    · rename_i same
      obtain ⟨_, declared, -⟩ := map_eq_ok h
      exact ⟨same, (declare_eq_ok declared).1⟩
    · cases h
  | assignment name =>
    obtain ⟨_, assigned, -⟩ := map_eq_ok h
    obtain ⟨old, present, same, -⟩ := assign_eq_ok assigned
    exact ⟨old, present, same⟩

end Target

/-! ### What an expression is written with -/

mutual

theorem Expr.mem_lexemes {e : Expr} {lexeme : String} (h : lexeme ∈ e.lexemes) :
    (∃ o ∈ e.operands, o.lexeme = lexeme) ∨
      ∃ category role, (category, lexeme, role) ∈ specialLexemes ∧ role ≠ .semicolon := by
  cases e with
  | term x => exact Term.mem_lexemes (e := x) h
  | binary left op right =>
    rw [Expr.lexemes, List.mem_append, List.mem_cons] at h
    rcases h with inLeft | rfl | inRight
    · exact (Expr.mem_lexemes inLeft).imp_left fun ⟨o, member, same⟩ =>
        ⟨o, List.mem_append_left _ member, same⟩
    · exact .inr ⟨_, _, Stacks.special_operator op, by simp⟩
    · exact (Term.mem_lexemes inRight).imp_left fun ⟨o, member, same⟩ =>
        ⟨o, List.mem_append_right _ member, same⟩

theorem Term.mem_lexemes {e : Term} {lexeme : String} (h : lexeme ∈ e.lexemes) :
    (∃ o ∈ e.operands, o.lexeme = lexeme) ∨
      ∃ category role, (category, lexeme, role) ∈ specialLexemes ∧ role ≠ .semicolon := by
  cases e with
  | operand o => exact .inl ⟨o, List.mem_singleton_self o, (List.mem_singleton.1 h).symm⟩
  | parens e =>
    rw [Term.lexemes, List.mem_cons, List.mem_append, List.mem_singleton] at h
    rcases h with rfl | inside | rfl
    · exact .inr ⟨.operator, .openParen, by decide, by simp⟩
    · exact Expr.mem_lexemes inside
    · exact .inr ⟨.operator, .closeParen, by decide, by simp⟩

end

mutual

theorem Expr.lexeme_mem {e : Expr} {o : Operand} (h : o ∈ e.operands) : o.lexeme ∈ e.lexemes := by
  cases e with
  | term x => exact Term.lexeme_mem (e := x) h
  | binary left op right =>
    rw [Expr.operands, List.mem_append] at h
    rw [Expr.lexemes, List.mem_append, List.mem_cons]
    exact h.imp Expr.lexeme_mem fun inRight => .inr (Term.lexeme_mem inRight)

theorem Term.lexeme_mem {e : Term} {o : Operand} (h : o ∈ e.operands) : o.lexeme ∈ e.lexemes := by
  cases e with
  | operand o' =>
    rw [List.mem_singleton.1 h]
    exact List.mem_singleton_self _
  | parens e => exact List.mem_cons_of_mem _ (List.mem_append_left _ (Expr.lexeme_mem h))

end

namespace Session

/-! ### Reading a statement -/

theorem step_expression {d : Dialect} {token : Token} (notEnd : d.classify token ≠ .semicolon)
    (r : Registry) (t : SymbolTable) (target : Target) (pending : Stacks) :
    (Phase.expression target pending).step d r t token =
      (pending.read d r t (d.classify token) token >>= fun pending =>
        pure (.goOn (.expression target pending))) := by
  unfold Phase.step
  dsimp only
  split
  · contradiction
  · rfl

/-- Reading an expression in a statement is reading it on the stacks. -/
theorem feed_expression (s : Session) (text : String) (target : Target) (pending : Stacks)
    (tokens rest : List Token)
    (noEnd : ∀ token ∈ tokens, s.dialect.classify token ≠ .semicolon) :
    s.feed text (.expression target pending) (tokens ++ rest) =
      match pending.readAll s.dialect s.registry s.symbols tokens with
      | .error report => s.reject text report.fault (report.lexeme.getD "")
      | .ok pending => s.feed text (.expression target pending) rest := by
  induction tokens generalizing pending with
  | nil => rfl
  | cons token tokens ih =>
    have step := step_expression (noEnd token List.mem_cons_self) s.registry s.symbols target pending
    rw [List.cons_append, feed, step, Stacks.readAll]
    cases pending.read s.dialect s.registry s.symbols (s.dialect.classify token) token with
    | error report =>
      obtain ⟨fault, lexeme⟩ := report
      cases lexeme <;> rfl
    | ok pending => exact ih pending fun token member => noEnd token (List.mem_cons_of_mem _ member)

theorem feed_opening {s : Session} (knows : s.dialect.Knows s.registry) (opening : Opening)
    (named : s.dialect.classify (s.registry.token opening.name) = .name) (text : String)
    (rest : List Token) :
    s.feed text .start (opening.lexemes.map s.registry.token ++ rest) =
      s.feed text (.expression opening.target {}) rest := by
  have int := knows.classify_eq (show (.keyword, "int", .intType) ∈ specialLexemes by decide)
  have string := knows.classify_eq (show (.keyword, "string", .stringType) ∈ specialLexemes by decide)
  have equals := knows.classify_eq (show (.operator, "=", .equals) ∈ specialLexemes by decide)
  cases opening with
  | int name =>
    rw [Opening.name] at named
    simp only [Opening.lexemes, List.map_cons, List.map_nil, List.cons_append, List.nil_append, feed,
      Phase.step, int, named, equals]
    rfl
  | string name =>
    rw [Opening.name] at named
    simp only [Opening.lexemes, List.map_cons, List.map_nil, List.cons_append, List.nil_append, feed,
      Phase.step, string, named, equals]
    rfl
  | plain name =>
    rw [Opening.name] at named
    simp only [Opening.lexemes, List.map_cons, List.map_nil, List.cons_append, List.nil_append, feed,
      Phase.step, named, equals]
    rfl

theorem feed_terminated {s : Session} (knows : s.dialect.Knows s.registry) (target : Target)
    (e : Expr) (fits : ∀ o ∈ e.operands, s.dialect.classify (s.registry.token o.lexeme) = o.role)
    (text : String) :
    s.feed text (.expression target {}) ((e.lexemes ++ [";"]).map s.registry.token) =
      match e.eval s.symbols with
      | .error report => s.reject text report.fault (report.lexeme.getD "")
      | .ok value =>
        match s.perform text (target.write value) with
        | .error fault => s.reject text fault (fault.lexeme?.getD ";")
        | .ok (s, event) => (.accepted, s, [event]) := by
  have noEnd : ∀ token ∈ e.lexemes.map s.registry.token, s.dialect.classify token ≠ .semicolon := by
    intro token member
    obtain ⟨lexeme, written, rfl⟩ := List.mem_map.1 member
    rcases Expr.mem_lexemes written with ⟨o, operand, rfl⟩ | ⟨category, role, special, notEnd⟩
    · rw [fits o operand]
      cases o <;> simp [Operand.role]
    · rwa [knows.classify_eq special]
  have semicolon := knows.classify_eq (show (.operator, ";", .semicolon) ∈ specialLexemes by decide)
  have settled : Stacks.Settled s.dialect [] := by simp [Stacks.Settled]
  have whole := Stacks.readAll_expr knows s.symbols e fits [] settled
  rw [List.map_append, feed_expression s text target {} _ _ noEnd]
  change (Stacks.readAll s.dialect s.registry s.symbols {} (e.lexemes.map s.registry.token) >>= _) = _
    at whole
  cases read : Stacks.readAll s.dialect s.registry s.symbols {} (e.lexemes.map s.registry.token) with
  | error report =>
    rw [read] at whole
    cases value : e.eval s.symbols with
    | error report' =>
      rw [value] at whole
      cases whole
      rfl
    | ok value' =>
      rw [value] at whole
      cases whole
  | ok pending =>
    have finish := Stacks.finish_expr knows s.symbols e fits read
    have step : (Phase.expression target pending).step s.dialect s.registry s.symbols
        (s.registry.token ";") = (e.eval s.symbols >>= fun value =>
          pure (.complete (target.write value))) := by
      simp only [Phase.step, semicolon, finish]
    simp only [List.map_cons, List.map_nil, feed, step]
    cases value : e.eval s.symbols with
    | error report =>
      obtain ⟨lexeme, found⟩ :=
        Option.isSome_iff_exists.1 (Stacks.located_expr s.symbols e report value)
      simp [bind, Except.bind, found]
    | ok value' =>
      simp only [bind, Except.bind, pure, Except.pure]
      cases s.perform text (target.write value') <;> rfl

/-! ### Running a statement -/

theorem special_ne_empty : ∀ entry ∈ specialLexemes, entry.2.1 ≠ "" := by decide

theorem nonempty_of_mem_expr {made : Registry} {s : Session} (h : s.MadeFrom made) {e : Expr}
    (operands : ∀ o ∈ e.operands, s.roleOf o.lexeme = some o.role) :
    ∀ lexeme ∈ e.lexemes, lexeme ≠ "" := by
  intro lexeme member
  rcases Expr.mem_lexemes member with ⟨o, operand, rfl⟩ | ⟨category, role, entry, -⟩
  · exact ne_empty_of_roleOf h (operands o operand) (by cases o <;> simp [Operand.role])
  · exact special_ne_empty _ entry

section Execution

variable {made : Registry} {s : Session} (h : s.MadeFrom made) (opening : Opening) (e : Expr)
  (named : s.roleOf opening.name = some .name)
  (operands : ∀ o ∈ e.operands, s.roleOf o.lexeme = some o.role)
include h named operands

theorem nonempty_of_mem_statement :
    ∀ lexeme ∈ opening.lexemes ++ (e.lexemes ++ [";"]), lexeme ≠ "" := by
  have name := ne_empty_of_roleOf h named (.inl rfl)
  intro lexeme member
  rw [List.mem_append, List.mem_append, List.mem_singleton] at member
  rcases member with inOpening | inExpr | rfl
  · cases opening <;> simp only [Opening.lexemes, List.mem_cons, List.not_mem_nil, or_false] at inOpening
    all_goals rcases inOpening with rfl | rfl | rfl
    all_goals first | exact name | decide
  · exact nonempty_of_mem_expr h operands lexeme inExpr
  · decide

theorem execute_statement (complete : Dialect.Complete made) {tokens : List Token} {r : Registry}
    (encoded : s.registry.encodeAll (opening.lexemes ++ (e.lexemes ++ [";"])) = (.ok tokens, r)) :
    ∃ result, s.execute (opening.lexemes ++ (e.lexemes ++ [";"])) = (.ok result.1, result.2) ∧
      result =
        match e.eval s.symbols with
        | .error report =>
          reject { s with registry := r } (statementText tokens) report.fault (report.lexeme.getD "")
        | .ok value =>
          match perform { s with registry := r } (statementText tokens) (opening.target.write value) with
          | .error fault =>
            reject { s with registry := r } (statementText tokens) fault (fault.lexeme?.getD ";")
          | .ok (s, event) => (.accepted, s, [event]) := by
  have nonempty := nonempty_of_mem_statement h opening e named operands
  have leads := (Registry.leads_encodeAll s.registry (opening.lexemes ++ (e.lexemes ++ [";"]))).1
  rw [encoded] at leads
  have run := execute_of_encodeAll nonempty (by simp) encoded
  have knows : s.dialect.Knows r := by
    rw [h.dialect_eq]
    exact Dialect.knows_of_complete h.reachable (Registry.leads_trans h.leads leads) complete
  have name : s.dialect.classify (r.token opening.name) = .name := by
    have member : opening.name ∈ opening.lexemes := by
      cases opening <;> simp [Opening.name, Opening.lexemes]
    exact classify_of_encodeAll h nonempty encoded (List.mem_append_left _ member) named
  have fits : ∀ o ∈ e.operands, s.dialect.classify (r.token o.lexeme) = o.role := by
    intro o member
    have written : o.lexeme ∈ opening.lexemes ++ (e.lexemes ++ [";"]) :=
      List.mem_append_right _ (List.mem_append_left _ (Expr.lexeme_mem member))
    exact classify_of_encodeAll h nonempty encoded written (operands o member)
  obtain ⟨rfl, -⟩ := Registry.tokens_of_encodeAll nonempty encoded
  refine ⟨_, run, ?_⟩
  have opened := feed_opening (s := { s with registry := r }) knows opening name
    (statementText ((opening.lexemes ++ (e.lexemes ++ [";"])).map r.token))
    ((e.lexemes ++ [";"]).map r.token)
  rw [← List.map_append] at opened
  rw [opened]
  exact feed_terminated (s := { s with registry := r }) knows opening.target e fits _

end Execution

/-! ### What the statement does -/

/-- A call carries out one statement, which writes a value to its target. -/
def Commits (s : Session) (lexemes : List String) (target : Target) (value : Value) : Prop :=
  ∃ s', s.execute lexemes = (.ok .accepted, s', [target.event value]) ∧
    s'.symbols = s.symbols.insert target.name value

/-- A call is rejected with a report, and its symbols stay as they were. -/
def Rejects (s : Session) (lexemes : List String) (report : Report) : Prop :=
  ∃ s' lexeme, report.lexeme = some lexeme ∧
    s.execute lexemes = (.ok (.rejected report), s', [.rejected report.fault lexeme]) ∧
      s'.symbols = s.symbols

theorem perform_of_admits {s : Session} (text : String) {target : Target} {value : Value}
    (h : target.Admits s.symbols value) :
    s.perform text (target.write value) =
      .ok (note { s with symbols := s.symbols.insert target.name value } text (target.event value),
        target.event value) := by
  rw [perform, Target.run_write_of_admits h]
  rfl

theorem perform_of_not_admits {s : Session} (text : String) {target : Target} {value : Value}
    (h : ¬target.Admits s.symbols value) :
    ∃ fault, s.perform text (target.write value) = .error fault := by
  rcases perform_cases s text (target.write value) with ⟨fault, -, failed⟩ | ⟨symbols, event, ran, -⟩
  · exact ⟨fault, failed⟩
  · exact absurd (Target.admits_of_run_write ran) h

theorem event_injective {target : Target} {value value' : Value}
    (h : target.event value = target.event value') : value = value' := by
  cases target <;> simpa [Target.event] using h

/-- A statement with an expression in it writes the value of the tree, if it has one that the target
admits, and is rejected with the first fault of the evaluation if it has none. -/
theorem execute_commits_iff_eval {made : Registry} {s : Session} (h : s.MadeFrom made)
    (complete : Dialect.Complete made) (opening : Opening) (e : Expr)
    (named : s.roleOf opening.name = some .name)
    (operands : ∀ o ∈ e.operands, s.roleOf o.lexeme = some o.role)
    (encodable : (s.registry.encodeAll (opening.lexemes ++ (e.lexemes ++ [";"]))).1.isOk) :
    (∀ value, s.Commits (opening.lexemes ++ (e.lexemes ++ [";"])) opening.target value ↔
      e.eval s.symbols = .ok value ∧ opening.target.Admits s.symbols value) ∧
    ∀ report, e.eval s.symbols = .error report →
      s.Rejects (opening.lexemes ++ (e.lexemes ++ [";"])) report := by
  obtain ⟨tokens, r, encoded⟩ := Registry.encodeAll_of_isOk encodable
  obtain ⟨result, ran, what⟩ := execute_statement h opening e named operands complete encoded
  unfold Commits Rejects
  rw [ran]
  cases value : e.eval s.symbols with
  | error report =>
    rw [value] at what
    subst what
    refine ⟨fun value => ⟨?_, fun ⟨evaluated, _⟩ => by cases evaluated⟩, ?_⟩
    · rintro ⟨s', same, -⟩
      cases same
    · intro report' same
      obtain rfl := Except.error.inj same
      obtain ⟨lexeme, found⟩ := Option.isSome_iff_exists.1 (Stacks.located_expr s.symbols e _ value)
      obtain ⟨fault, _⟩ := report
      subst found
      exact ⟨note { s with registry := r } (statementText tokens) (.rejected fault lexeme), lexeme,
        rfl, rfl, rfl⟩
  | ok value' =>
    rw [value] at what
    refine ⟨fun value => ?_, fun report failed => by cases failed⟩
    simp only [Except.ok.injEq]
    by_cases admits : opening.target.Admits s.symbols value'
    · have performed := perform_of_admits (s := { s with registry := r }) (statementText tokens) admits
      simp only [performed] at what
      subst what
      constructor
      · rintro ⟨s', same, -⟩
        simp only [Prod.mk.injEq, List.cons.injEq, and_true, true_and] at same
        obtain rfl := event_injective same.2
        exact ⟨rfl, admits⟩
      · rintro ⟨rfl, -⟩
        exact ⟨_, rfl, rfl⟩
    · obtain ⟨fault, failed⟩ :=
        perform_of_not_admits (s := { s with registry := r }) (statementText tokens) admits
      simp only [failed] at what
      subst what
      constructor
      · rintro ⟨s', same, -⟩
        cases same
      · rintro ⟨rfl, admitted⟩
        exact absurd admitted admits

theorem commits_product :
    (start Registry.vocabulary .empty false).Commits
      ["int", "x", "=", "2", "*", "(", "3", "+", "4", ")", ";"] (.declaration .int "x") (.int 14) :=
  ((execute_commits_iff_eval (madeFrom_start Registry.reachable_vocabulary .empty false)
    Registry.complete_vocabulary (.int "x")
    (.binary (.term (.operand (.literal "2"))) .times
      (.parens (.binary (.term (.operand (.literal "3"))) .plus (.operand (.literal "4")))))
    (by decide +kernel) (by decide +kernel) (by decide +kernel)).1 (.int 14)).2
      ⟨by decide +kernel, by decide, by decide +kernel⟩

end Session

end LineLang
