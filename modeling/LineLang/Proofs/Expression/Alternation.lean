import LineLang.Proofs.Expression.Tally
import Mathlib.Data.List.Chain

/-!
# Terms side by side

The stacks do not ask for an operator between two terms. That is the only way for an expression without
a tree to come to a value: `exists_expr_of_tally` finds the tree of an expression that comes to a value
and has no term right behind another, and `apart_expr` says that the terms of a tree are apart.
-/

namespace LineLang

namespace Role

/-- Whether a term may end with a token in this role. -/
def endsTerm : Role → Bool
  | .name | .literal | .closeParen => true
  | _ => false

/-- Whether a term may begin with a token in this role. -/
def beginsTerm : Role → Bool
  | .name | .literal | .openParen => true
  | _ => false

end Role

/-- No term begins right behind the end of another. -/
def Apart (roles : List Role) : Prop :=
  roles.IsChain fun left right => left.endsTerm = true → right.beginsTerm = false

instance (roles : List Role) : Decidable (Apart roles) :=
  inferInstanceAs (Decidable (roles.IsChain _))

theorem apart_cons {role : Role} {roles : List Role} : Apart (role :: roles) ↔
    (role.endsTerm = true → ∀ next ∈ roles.head?, next.beginsTerm = false) ∧ Apart roles := by
  unfold Apart
  rw [List.isChain_cons]
  exact and_congr_left fun _ => ⟨fun h ends next head => h next head ends,
    fun h next head ends => h ends next head⟩

/-! ### No operand is missing -/

/-- Behind the end of a term there is one more operand than operators: terms that are apart bring too few
operands to make up for a missing one. -/
theorem le_surplus_of_tally {depth : Nat} {surplus : Int} {roles : List Role}
    (h : Tally depth surplus roles) (apart : Apart roles) :
    0 ≤ surplus ∧ ((∀ next ∈ roles.head?, next.beginsTerm = false) → 1 ≤ surplus) := by
  induction h with
  | done left => exact ⟨by omega, fun _ => left⟩
  | operand operand _ ih =>
    obtain ⟨separate, apart⟩ := apart_cons.1 apart
    have ends := (ih apart).2 (separate (by rcases operand with rfl | rfl <;> rfl))
    refine ⟨by omega, fun first => ?_⟩
    have begins := first _ rfl
    rcases operand with rfl | rfl <;> cases begins
  | operator _ ih =>
    have := (ih (apart_cons.1 apart).2).1
    exact ⟨by omega, fun _ => by omega⟩
  | openParen _ ih =>
    have := (ih (apart_cons.1 apart).2).1
    refine ⟨this, fun first => ?_⟩
    cases first _ rfl
  | closeParen _ ih =>
    obtain ⟨separate, apart⟩ := apart_cons.1 apart
    have := (ih apart).2 (separate rfl)
    exact ⟨by omega, fun _ => this⟩

/-- Where a term is to come and no operand is missing, a term begins. -/
theorem tally_before_term {depth : Nat} {roles : List Role} (h : Tally depth 0 roles)
    (apart : Apart roles) :
    (∃ role rest, roles = role :: rest ∧ (role = .name ∨ role = .literal) ∧ Tally depth 1 rest) ∨
      ∃ rest, roles = .openParen :: rest ∧ Tally (depth + 1) 0 rest := by
  cases h with
  | done left => omega
  | operand operand rest => exact .inl ⟨_, _, rfl, operand, rest⟩
  | operator rest =>
    have := (le_surplus_of_tally rest (apart_cons.1 apart).2).1
    omega
  | openParen rest => exact .inr ⟨_, rfl, rest⟩
  | closeParen rest =>
    obtain ⟨separate, apart⟩ := apart_cons.1 apart
    have := (le_surplus_of_tally rest apart).2 (separate rfl)
    omega

/-- Where a term has ended and none begins, there is an operator, a closing parenthesis or nothing. -/
theorem tally_behind_term {depth : Nat} {roles : List Role} (h : Tally depth 1 roles)
    (noTerm : ∀ next ∈ roles.head?, next.beginsTerm = false) :
    (depth = 0 ∧ roles = []) ∨ (∃ op rest, roles = .binary op :: rest ∧ Tally depth 0 rest) ∨
      ∃ outer rest, depth = outer + 1 ∧ roles = .closeParen :: rest ∧ Tally outer 1 rest := by
  cases h with
  | done => exact .inl ⟨rfl, rfl⟩
  | operand operand =>
    have begins := noTerm _ rfl
    rcases operand with rfl | rfl <;> cases begins
  | operator rest => exact .inr (.inl ⟨_, _, rfl, rest⟩)
  | openParen => cases noTerm _ rfl
  | closeParen rest => exact .inr (.inr ⟨_, _, rfl, rfl, rest⟩)

/-! ### Trees -/

/-- An expression whose operands are read in their roles. -/
structure FittingExpr (role : String → Role) where
  tree : Expr
  fits : ∀ o ∈ tree.operands, role o.lexeme = o.role

namespace FittingExpr

variable {role : String → Role}

/-- What a term may stand behind in its parentheses: nothing, or an expression and an operator. -/
abbrev Left (role : String → Role) : Type := Option (FittingExpr role × Operator)

def Left.lexemes : Left role → List String
  | none => []
  | some (e, op) => e.tree.lexemes ++ [op.lexeme]

/-- The lexemes up to the innermost of the parentheses that are open, which is listed first. -/
def outerLexemes : List (Left role) → List String
  | [] => []
  | left :: outer => outerLexemes outer ++ (left.lexemes ++ ["("])

def append (left : Left role) (x : Term) (fits : ∀ o ∈ x.operands, role o.lexeme = o.role) :
    FittingExpr role :=
  match left with
  | none => ⟨.term x, fits⟩
  | some (e, op) => ⟨.binary e.tree op x, List.forall_mem_append.2 ⟨e.fits, fits⟩⟩

theorem lexemes_append (left : Left role) (x : Term)
    (fits : ∀ o ∈ x.operands, role o.lexeme = o.role) :
    (append left x fits).tree.lexemes = left.lexemes ++ x.lexemes := by
  cases left with
  | none => rfl
  | some left => simp [append, Left.lexemes, Expr.lexemes]

/-- The words that have a special role are the lexemes with this role. -/
def Spelled (role : String → Role) (words : List String) : Prop :=
  ∀ word ∈ words, ∀ category special, (category, special, role word) ∈ specialLexemes → word = special

/-- What is read within parentheses, and what is still to come, are an expression. -/
theorem exists_expr {words : List String} (spelled : Spelled role words)
    (apart : Apart (words.map role)) (outer : List (Left role)) :
    (∀ left : Left role, Tally outer.length 0 (words.map role) →
      ∃ e : FittingExpr role, e.tree.lexemes = outerLexemes outer ++ (left.lexemes ++ words)) ∧
    ∀ whole : FittingExpr role, Tally outer.length 1 (words.map role) →
      (∀ next ∈ (words.map role).head?, next.beginsTerm = false) →
        ∃ e : FittingExpr role,
          e.tree.lexemes = outerLexemes outer ++ (whole.tree.lexemes ++ words) := by
  -- on the words to come: first those where a term is to begin, then those where one has ended
  induction words generalizing outer with
  | nil =>
    refine ⟨fun left tally => ?_, fun whole tally noTerm => ?_⟩
    · rcases tally_before_term tally apart with ⟨_, _, none, -⟩ | ⟨_, none, -⟩ <;> cases none
    · rcases tally_behind_term tally noTerm with ⟨closed, -⟩ | ⟨_, _, none, -⟩ | ⟨_, _, -, none, -⟩
      · rw [List.length_eq_zero_iff.1 closed]
        exact ⟨whole, by simp [outerLexemes]⟩
      all_goals cases none
  | cons word words ih =>
    rw [List.map_cons] at apart ⊢
    obtain ⟨separate, apart'⟩ := apart_cons.1 apart
    obtain ⟨spell, others⟩ := List.forall_mem_cons.1 spelled
    refine ⟨fun left tally => ?_, fun whole tally noTerm => ?_⟩
    · rcases tally_before_term tally apart with ⟨_, _, same, operand, rest⟩ | ⟨_, same, rest⟩
      · obtain ⟨rfl, rfl⟩ := List.cons.inj same
        obtain ⟨o, rfl, fits⟩ : ∃ o : Operand, o.lexeme = word ∧ role o.lexeme = o.role := by
          rcases operand with name | literal
          · exact ⟨.name word, rfl, name⟩
          · exact ⟨.literal word, rfl, literal⟩
        have ends : (role o.lexeme).endsTerm = true := by
          rcases operand with name | literal
          · rw [name]; rfl
          · rw [literal]; rfl
        have fit : ∀ o' ∈ (Term.operand o).operands, role o'.lexeme = o'.role := by
          intro o' member
          rw [List.mem_singleton.1 member, fits]
        obtain ⟨e, written⟩ := (ih others apart' outer).2 (append left (.operand o) fit) rest
          (separate ends)
        rw [lexemes_append, Term.lexemes] at written
        exact ⟨e, by simpa using written⟩
      · obtain ⟨paren, rfl⟩ := List.cons.inj same
        obtain rfl := spell .operator "(" (by rw [paren]; decide)
        obtain ⟨e, written⟩ := (ih others apart' (left :: outer)).1 none rest
        exact ⟨e, by simpa [outerLexemes, Left.lexemes] using written⟩
    · rcases tally_behind_term tally noTerm with ⟨-, none⟩ | ⟨op, _, same, rest⟩ |
        ⟨depth, _, inside, same, rest⟩
      · cases none
      · obtain ⟨operator, rfl⟩ := List.cons.inj same
        obtain rfl := spell .operator op.lexeme (by rw [operator]; exact Stacks.special_operator op)
        obtain ⟨e, written⟩ := (ih others apart' outer).1 (some (whole, op)) rest
        exact ⟨e, by simpa [Left.lexemes] using written⟩
      · obtain ⟨paren, rfl⟩ := List.cons.inj same
        obtain rfl := spell .operator ")" (by rw [paren]; decide)
        obtain ⟨left, outer, rfl⟩ := List.exists_cons_of_length_eq_add_one inside
        obtain rfl := Nat.succ.inj inside
        have ends : (role ")").endsTerm = true := by rw [paren]; rfl
        have fit : ∀ o ∈ (Term.parens whole.tree).operands, role o.lexeme = o.role := whole.fits
        obtain ⟨e, written⟩ := (ih others apart' outer).2 (append left (.parens whole.tree) fit) rest
          (separate ends)
        rw [lexemes_append, Term.lexemes] at written
        exact ⟨e, by simpa [outerLexemes] using written⟩

end FittingExpr

/-- An expression that comes to a value and has its terms apart is an infix expression. -/
theorem exists_expr_of_tally {role : String → Role} {words : List String}
    (spelled : FittingExpr.Spelled role words) (tally : Tally 0 0 (words.map role))
    (apart : Apart (words.map role)) :
    ∃ e : Expr, e.lexemes = words ∧ ∀ o ∈ e.operands, role o.lexeme = o.role := by
  obtain ⟨e, written⟩ := (FittingExpr.exists_expr spelled apart []).1 none tally
  exact ⟨e.tree, by simpa [FittingExpr.outerLexemes, FittingExpr.Left.lexemes] using written, e.fits⟩

/-! ### The terms of a tree -/

section Trees

variable {role : String → Role} (signs : ∀ category lexeme special,
  (category, lexeme, special) ∈ specialLexemes → role lexeme = special)
include signs

mutual

theorem apart_expr (e : Expr) (fits : ∀ o ∈ e.operands, role o.lexeme = o.role) :
    Apart (e.lexemes.map role) := by
  cases e with
  | term x => exact apart_term x fits
  | binary left op right =>
    have leftApart := apart_expr left fun o member => fits o (List.mem_append_left _ member)
    have rightApart := apart_term right fun o member => fits o (List.mem_append_right _ member)
    have operator := signs _ _ _ (Stacks.special_operator op)
    unfold Apart at leftApart rightApart ⊢
    rw [Expr.lexemes, List.map_append, List.map_cons, List.isChain_append, List.isChain_cons, operator]
    refine ⟨leftApart, ⟨fun _ _ ends => (by cases ends), rightApart⟩, ?_⟩
    rintro _ - _ ⟨rfl⟩ -
    rfl

theorem apart_term (x : Term) (fits : ∀ o ∈ x.operands, role o.lexeme = o.role) :
    Apart (x.lexemes.map role) := by
  cases x with
  | operand o => exact List.isChain_singleton _
  | parens e =>
    have inside := apart_expr e fits
    have opening := signs .operator "(" .openParen (by decide)
    have closing := signs .operator ")" .closeParen (by decide)
    unfold Apart at inside ⊢
    rw [Term.lexemes, List.map_cons, List.map_append, List.isChain_cons, List.isChain_append, opening,
      List.map_singleton, closing]
    refine ⟨fun _ _ ends => (by cases ends), inside, List.isChain_singleton _, ?_⟩
    rintro _ - _ ⟨rfl⟩ -
    rfl

end

end Trees

end LineLang
