import LineLang.Registry.Basic

/-!
# The standard vocabulary

The keywords and operators that every program may use.
-/

namespace LineLang.Registry

def standardKeywords : List String := ["int", "string", "body", "remove", "clear", "if", "while"]

def standardOperators : List String := ["+", "-", "*", "/", "=", "==", "(", ")", ";", "["]

/-- A registry with the standard keywords and operators, if the ranges have room for them. -/
def standard (config : Config) : Except RegistryError Registry :=
  match (empty config).registerKeywords standardKeywords with
  | (.error e, _) => .error e
  | (.ok (), r) =>
    match r.registerOperators standardOperators with
    | (.error e, _) => .error e
    | (.ok (), r) => .ok r

end LineLang.Registry
