import LineLang.Proofs.Registry.Capacity
import LineLang.Proofs.Runner.Run

/-!
# What a run encodes

A run encodes the lexemes of its lines in the order in which they stand, whatever its statements do.
`encodes_runNumbered`: it leaves the registry that this leaves, and fails if this does.
-/

namespace LineLang

/-- The lexemes of a line. A line with an open quote has none. -/
def lexemesOf (line : String) : List String :=
  match splitLine line with
  | .ok lexemes => lexemes
  | .error _ => []

theorem lexemesOf_of_ok {line : String} {lexemes : List String} (split : splitLine line = .ok lexemes) :
    lexemesOf line = lexemes := by
  rw [lexemesOf, split]

theorem lexemesOf_of_error {line : String} {quote : OpenQuote} (split : splitLine line = .error quote) :
    lexemesOf line = [] := by
  rw [lexemesOf, split]

/-- The error that a result is, if it is one. -/
def Registry.error? {α : Type} : Except RegistryError α → Option RegistryError
  | .ok _ => none
  | .error e => some e

namespace Run

/-- A run has encoded lexemes, up to one that has no code. -/
structure Encodes (r : Registry) (lexemes : List String) (run : Run) : Prop where
  registry_eq : run.session.registry = (r.encodeAll lexemes).2
  failure_eq : run.failure = Registry.error? (r.encodeAll lexemes).1

variable {r : Registry} {front back : List String} {first : Run}

theorem encodes_of_failed {e : RegistryError} (encodes : Encodes r front first)
    (failed : first.failure = some e) : Encodes r (front ++ back) first := by
  obtain ⟨registry, failure⟩ := encodes
  rw [failed] at failure
  rcases ahead : r.encodeAll front with ⟨e' | tokens, r'⟩
  · rw [ahead] at registry failure
    obtain rfl := Option.some.inj failure
    constructor
    · rw [registry, Registry.encodeAll_append, ahead]
    · rw [failed, Registry.encodeAll_append, ahead]
      rfl
  · rw [ahead] at failure
    cases failure

theorem encodes_followedBy {rest : Run} (encodes : Encodes r front first)
    (passed : first.failure = none) (behind : Encodes first.session.registry back rest) :
    Encodes r (front ++ back) (first.followedBy rest) := by
  obtain ⟨registry, failure⟩ := encodes
  rw [passed] at failure
  rcases ahead : r.encodeAll front with ⟨e | tokens, r'⟩
  · rw [ahead] at failure
    cases failure
  · rw [ahead] at registry
    obtain ⟨registry', failure'⟩ := behind
    rw [registry] at registry' failure'
    constructor
    · rw [followedBy, registry', Registry.encodeAll_append, ahead]
      dsimp only
      rcases r'.encodeAll back with ⟨e | others, r''⟩ <;> rfl
    · rw [followedBy, failure', Registry.encodeAll_append, ahead]
      dsimp only
      rcases r'.encodeAll back with ⟨e | others, r''⟩ <;> rfl

end Run

namespace Session
open Run (Encodes)

variable {s : Session} (file : String) (encoded : Bool) (number : Nat)

theorem encodes_runLine (line : String) :
    Encodes s.registry (lexemesOf line) (s.runLine file encoded number line) := by
  cases split : splitLine line with
  | error quote =>
    rw [lexemesOf_of_error split, runLine_of_unsplit file encoded number split]
    exact ⟨rfl, rfl⟩
  | ok lexemes =>
    rw [lexemesOf_of_ok split]
    by_cases none : lexemes = []
    · rw [runLine_of_nil file encoded number split none, none]
      exact ⟨rfl, rfl⟩
    rcases encodes : s.registry.encodeAll lexemes with ⟨e | tokens, r⟩
    · rw [runLine_of_error file encoded number split none encodes]
      exact ⟨by rw [encodes], by rw [encodes]; rfl⟩
    · rw [runLine_of_ok file encoded number split none encodes]
      have same := sameSetting_feed { s with registry := r } (" ".intercalate lexemes) .start tokens
      exact ⟨by rw [encodes]; exact same.registry_eq, by rw [encodes]; rfl⟩

theorem encodes_runNumbered (lines : List String) :
    Encodes s.registry (lines.flatMap lexemesOf) (s.runNumbered file encoded number lines) := by
  induction lines generalizing s number with
  | nil => exact ⟨rfl, rfl⟩
  | cons line lines ih =>
    have here := encodes_runLine (s := s) file encoded number line
    rw [runNumbered_cons, List.flatMap_cons]
    cases outcome : (s.runLine file encoded number line).failure with
    | some e =>
      rw [Run.andThen_of_failed _ outcome]
      exact Run.encodes_of_failed here outcome
    | none =>
      rw [Run.andThen_of_passed _ outcome]
      exact Run.encodes_followedBy here outcome (ih (number + 1))

/-- Where no two ranges share a code, a run fails if and only if there is no room for its lexemes. -/
theorem failure_runNumbered (h : s.registry.Reachable) (disjoint : s.registry.config.Disjoint)
    (lines : List String) :
    ((s.runNumbered file encoded number lines).failure = none ∧
        ∀ category, s.registry.HasRoom category (lines.flatMap lexemesOf)) ∨
      ∃ category, (category = .symbol ∨ category = .literal) ∧
        ¬s.registry.HasRoom category (lines.flatMap lexemesOf) ∧
          (s.runNumbered file encoded number lines).failure =
            some (.exhausted category (s.registry.config.range category).last) := by
  rw [(encodes_runNumbered file encoded number lines).failure_eq]
  rcases Registry.encodeAll_of_disjoint h disjoint (lines.flatMap lexemesOf) with
    ⟨tokens, r, result, room⟩ | ⟨category, r, free, full, result⟩
  · exact .inl ⟨by rw [result]; rfl, room⟩
  · exact .inr ⟨category, free, full, by rw [result]; rfl⟩

end Session

end LineLang
