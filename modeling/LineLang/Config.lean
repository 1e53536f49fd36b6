/-!
# Categories and code ranges

Every lexeme with a code belongs to one of four categories, and each category has a range of codes.
-/

namespace LineLang

inductive Category where
  | keyword
  | operator
  | symbol
  | literal
  deriving DecidableEq, Repr

/-- The word for a category in a sentence. -/
def Category.word : Category → String
  | .keyword => "keyword"
  | .operator => "operator"
  | .symbol => "symbol"
  | .literal => "literal"

/-- The name that tokens carry. -/
def Category.name : Category → String
  | .keyword => "KEYWORD"
  | .operator => "OPERATOR"
  | .symbol => "SYMBOL"
  | .literal => "LITERAL"

/-- A run of codes with at least one code. -/
structure CodeRange where
  first : Int
  last : Int
  first_le_last : first ≤ last := by decide
  deriving DecidableEq

/-- The code range of every category. Ranges may overlap. -/
structure Config where
  keyword : CodeRange
  operator : CodeRange
  symbol : CodeRange
  literal : CodeRange
  deriving DecidableEq

/-- A range that ends before it starts. -/
structure ConfigError where
  category : Category
  first : Int
  last : Int
  deriving DecidableEq, Repr

def ConfigError.message (e : ConfigError) : String :=
  s!"Bad {e.category.word} range: start {e.first} is greater than end {e.last}"

namespace Config

def range (config : Config) : Category → CodeRange
  | .keyword => config.keyword
  | .operator => config.operator
  | .symbol => config.symbol
  | .literal => config.literal

def checkRange (category : Category) (bounds : Int × Int) : Except ConfigError CodeRange :=
  if h : bounds.1 ≤ bounds.2 then .ok ⟨bounds.1, bounds.2, h⟩
  else .error ⟨category, bounds.1, bounds.2⟩

/-- Four ranges from their bounds; the first bad one is reported. -/
def ofBounds (keyword operator symbol literal : Int × Int) : Except ConfigError Config := do
  let keyword ← checkRange .keyword keyword
  let operator ← checkRange .operator operator
  let symbol ← checkRange .symbol symbol
  let literal ← checkRange .literal literal
  return ⟨keyword, operator, symbol, literal⟩

/-- The ranges that are used when none are given. -/
def standard : Config where
  keyword := { first := 100, last := 199 }
  operator := { first := 200, last := 299 }
  symbol := { first := 300, last := 699 }
  literal := { first := 700, last := 999 }

end Config

end LineLang
