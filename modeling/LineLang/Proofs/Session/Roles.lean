import LineLang.Proofs.Registry.Numbering
import LineLang.Proofs.Session.Run

/-!
# Roles follow from registration

`roles_of_encoded`: a lexeme has its special role if it was registered for it when the session was
started. Every other lexeme has a role by its category and its spelling, whatever codes were given out
in the meantime.
-/

namespace LineLang

/-- The lexeme is a text between double quotes. -/
def IsWrapped (lexeme : String) : Prop := ∃ text, lexeme.toList = '"' :: (text ++ ['"'])

theorem isQuoted_iff (lexeme : String) : isQuoted lexeme = true ↔ IsWrapped lexeme := by
  unfold isQuoted IsWrapped
  generalize lexeme.toList = cs
  simp only [Bool.and_eq_true, decide_eq_true_eq, beq_iff_eq]
  constructor
  · rintro ⟨⟨long, opens⟩, closes⟩
    cases cs with
    | nil => cases opens
    | cons first rest =>
      obtain rfl := Option.some.inj opens
      cases rest with
      | nil => simp at long
      | cons second rest =>
        rw [List.getLast?_cons_cons] at closes
        obtain ⟨text, whole⟩ := List.getLast?_eq_some_iff.1 closes
        exact ⟨text, by rw [whole]⟩
  · rintro ⟨text, rfl⟩
    refine ⟨⟨by simp, rfl⟩, ?_⟩
    rw [← List.cons_append, List.getLast?_append]
    rfl

namespace Dialect

/-- The role of a lexeme that has no special one. -/
inductive PlainRole (r : Registry) (lexeme : String) : Role → Prop where
  | reserved : r.isReserved lexeme = true → PlainRole r lexeme .other
  | literal : r.isReserved lexeme = false → IsDecimal lexeme ∨ IsWrapped lexeme →
      PlainRole r lexeme .literal
  | name : r.isReserved lexeme = false → ¬IsDecimal lexeme → ¬IsWrapped lexeme →
      PlainRole r lexeme .name

theorem classify_of_no_role {d : Dialect} {token : Token} (none : d.roles.get? token.code = none) :
    d.classify token =
      match token.category with
      | some .symbol => if isQuoted token.lexeme then .literal else .name
      | some .literal => .literal
      | _ => .other := by
  unfold classify
  split
  · rename_i found
    cases found.symm.trans none
  · rfl

/-- Without a role of its code, a token is classified by category and spelling. -/
theorem plainRole_classify {d : Dialect} {r r' : Registry} (same : r.SameReserved r') {lexeme : String}
    {token : Token} (h : r'.Encodes lexeme token) (none : d.roles.get? token.code = none) :
    PlainRole r lexeme (d.classify token) := by
  rw [classify_of_no_role none, h.category_eq, h.lexeme_eq, ← Registry.categoryFor_congr same]
  cases reserved : r.isReserved lexeme with
  | true =>
    rcases Registry.categoryFor_of_reserved reserved with keyword | operator
    · rw [keyword]
      exact .reserved reserved
    · rw [operator]
      exact .reserved reserved
  | false =>
    rw [Registry.categoryFor_of_unreserved reserved, Registry.freeCategory]
    cases numeric : isNumeric lexeme with
    | true => exact .literal reserved (.inl ((isNumeric_iff lexeme).1 numeric))
    | false =>
      have noDecimal : ¬IsDecimal lexeme := by simp [← isNumeric_iff, numeric]
      cases quoted : isQuoted lexeme with
      | true => exact .literal reserved (.inr ((isQuoted_iff lexeme).1 quoted))
      | false =>
        have unwrapped : ¬IsWrapped lexeme := by simp [← isQuoted_iff, quoted]
        exact .name reserved noDecimal unwrapped

/-- The token of no lexeme has no role unless the code that it bears is within a range. -/
theorem classify_null {made : Registry} (reachable : made.Reachable)
    (outside : ∀ category, ¬((made.config.range category).first ≤ Token.null.code ∧
      Token.null.code ≤ (made.config.range category).last)) :
    (ofRegistry made).classify .null = .other := by
  have none : (ofRegistry made).roles.get? Token.null.code = none := by
    cases found : (ofRegistry made).roles.get? Token.null.code with
    | none => rfl
    | some role =>
      obtain ⟨category, lexeme, -, given⟩ :=
        (get?_roles_iff (Registry.coherent_of_reachable reachable) _ _).1 found
      exact absurd (Registry.inRange_of_codeFor reachable given) (outside category)
  rw [classify_of_no_role none]
  rfl

end Dialect

namespace Session
open Dialect (HasRole PlainRole)

/-- A lexeme that is encoded has its special role if and only if it was registered for it when the session
was started, and otherwise the role that registration and spelling give it now. What has no lexeme has
no role, if no range holds its code. -/
theorem roles_of_encoded {made : Registry} {s : Session} (h : s.MadeFrom made) :
    (∀ lexeme token r, lexeme ≠ "" → s.registry.encode lexeme = (.ok token, r) →
      (∀ category role, (category, lexeme, role) ∈ specialLexemes →
        (s.dialect.classify token = role ↔ (made.codeFor category lexeme).isSome)) ∧
      ((¬∃ role, HasRole made lexeme role) →
        PlainRole s.registry lexeme (s.dialect.classify token))) ∧
    ((∀ category, ¬((made.config.range category).first ≤ -1 ∧
        -1 ≤ (made.config.range category).last)) → s.roleOf "" = some .other) := by
  constructor
  · intro lexeme token r nonempty encoded
    have encodes := Registry.encodes_of_encode nonempty encoded
    have leads := Registry.leads_trans h.leads (Registry.leads_encode s.registry lexeme)
    have same := Registry.sameReserved_encode s.registry lexeme
    rw [encoded] at leads same
    have roles := Dialect.get?_roles_iff_hasRole h.reachable leads encodes
    rw [h.dialect_eq]
    constructor
    · intro category role special
      constructor
      · intro classified
        obtain ⟨other, special', registered⟩ :=
          (roles role).1 (Dialect.get?_of_classify (Dialect.special_role _ special) classified)
        obtain ⟨rfl, -⟩ := Prod.mk.inj (Dialect.special_unique _ special' _ special rfl)
        exact registered
      · intro registered
        exact Dialect.classify_of_hasRole h.reachable leads encodes ⟨category, special, registered⟩
    · intro plain
      have none : (Dialect.ofRegistry made).roles.get? token.code = none := by
        cases found : (Dialect.ofRegistry made).roles.get? token.code with
        | none => rfl
        | some role => exact absurd ⟨role, (roles role).1 found⟩ plain
      exact Dialect.plainRole_classify same encodes none
  · intro outside
    exact congrArg some (h.dialect_eq ▸ Dialect.classify_null h.reachable outside)

/-- The ranges overlap. `string` is registered as an operator, and `+` is registered too late. -/
theorem roles_after_late_registration :
    let made := [Registry.Operation.encode "x", .registerKeywords ["int"],
      .registerOperators ["string"]].foldl Registry.perform
        (.empty ⟨⟨1, 9, by decide⟩, ⟨2, 9, by decide⟩, ⟨0, 9, by decide⟩, ⟨0, 9, by decide⟩⟩)
    let s : Session := { start made .empty false with
      registry := [Registry.Operation.registerOperators ["+"]].foldl Registry.perform made }
    let int : Token := ⟨"int", some .keyword, 1⟩
    let string : Token := ⟨"string", some .operator, 2⟩
    let plus : Token := ⟨"+", some .operator, 3⟩
    (s.registry.encode "int").1 = .ok int ∧ s.dialect.classify int = .intType ∧
      (s.registry.encode "string").1 = .ok string ∧
        PlainRole s.registry "string" (s.dialect.classify string) ∧
          (s.registry.encode "+").1 = .ok plus ∧ s.dialect.classify plus ≠ .binary .plus ∧
            s.roleOf "" = some .other := by
  intro made s int string plus
  have started : s.MadeFrom made := ⟨⟨_, _, rfl⟩, rfl, _, rfl⟩
  obtain ⟨lexemes, nothing⟩ := roles_of_encoded started
  have string_plain : ¬∃ role, HasRole made "string" role := by
    rintro ⟨role, category, special, registered⟩
    simp [specialLexemes] at special
    obtain ⟨rfl, rfl⟩ := special
    exact absurd registered (by decide +kernel)
  refine ⟨rfl, ?_, rfl, ?_, rfl, ?_, nothing ?_⟩
  · exact ((lexemes "int" int _ (by decide) rfl).1 .keyword .intType (by decide)).2 (by decide +kernel)
  · exact (lexemes "string" string _ (by decide) rfl).2 string_plain
  · intro classified
    have := ((lexemes "+" plus _ (by decide) rfl).1 .operator (.binary .plus) (by decide)).1 classified
    exact absurd this (by decide +kernel)
  · intro category
    cases category <;> decide

end Session

end LineLang
