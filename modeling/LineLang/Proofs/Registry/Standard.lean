import LineLang.Proofs.Dialect
import LineLang.Registry.Standard

/-!
# The registry of the standard vocabulary
-/

namespace LineLang.Registry

/-- The registry that new sessions start on. -/
def vocabulary : Registry :=
  [Operation.registerKeywords standardKeywords, .registerOperators standardOperators].foldl perform
    (empty .standard)

theorem standard_eq_vocabulary : standard .standard = .ok vocabulary := rfl

theorem reachable_vocabulary : vocabulary.Reachable := ⟨.standard, _, rfl⟩

theorem complete_vocabulary : Dialect.Complete vocabulary := by
  unfold Dialect.Complete
  decide +kernel

end LineLang.Registry
