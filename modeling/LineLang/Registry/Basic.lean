import LineLang.Config
import LineLang.Lexeme.Basic
import LineLang.Table

/-!
# The code registry

The registry hands out a code for every lexeme. Keywords and operators are registered in batches;
every other lexeme gets the next free code of its category when it is first encoded. A code is never
taken back or shared, and an operation that fails changes nothing.
-/

namespace LineLang

/-- An encoded lexeme. Only the token of the empty lexeme has no category. -/
structure Token where
  lexeme : String
  category : Option Category
  code : Int
  deriving DecidableEq, Repr

namespace Token

/-- The token of the empty lexeme. -/
def null : Token := ⟨"", none, -1⟩

def categoryName (token : Token) : String :=
  match token.category with
  | some category => category.name
  | none => "UNKNOWN"

/-- A token as it is listed, its code in full. The host would not write a code of over 4300 digits, which only
a range beyond such a number has. -/
def text (token : Token) : String := s!"{token.lexeme} -> {token.categoryName} #{token.code}"

end Token

/-- The lexeme and category that a code stands for. -/
structure Owner where
  lexeme : String
  category : Category
  deriving DecidableEq, Repr

inductive RegistryError where
  | emptyLexeme (category : Category)
  | duplicate (lexeme : String)
  | exhausted (category : Category) (last : Int)
  | taken (code : Int) (lexeme : String) (owner : Owner)
  deriving DecidableEq, Repr

namespace RegistryError

def kind : RegistryError → String
  | .exhausted .. => "RangeExhausted"
  | _ => "RegistrationError"

/-- What is said about an error, with codes in full like those of tokens. -/
def message : RegistryError → String
  | .emptyLexeme category => s!"Cannot register an empty {category.word}"
  | .duplicate lexeme => s!"Lexeme '{lexeme}' is already registered"
  | .exhausted category last => s!"Out of {category.word} codes (limit {last})"
  | .taken code lexeme owner =>
    s!"Code {code} for '{lexeme}' is already assigned to '{owner.lexeme}' ({owner.category.name})"

end RegistryError

/-- A table of codes for each category, the owner of every code, and the next code for a new symbol
and a new literal. -/
structure Registry where
  config : Config
  keywords : Table String Int := .empty
  operators : Table String Int := .empty
  symbols : Table String Int := .empty
  literals : Table String Int := .empty
  owners : Table Int Owner := .empty
  nextSymbol : Int
  nextLiteral : Int

namespace Registry

def empty (config : Config) : Registry where
  config
  nextSymbol := config.symbol.first
  nextLiteral := config.literal.first

def table (r : Registry) : Category → Table String Int
  | .keyword => r.keywords
  | .operator => r.operators
  | .symbol => r.symbols
  | .literal => r.literals

/-- The code that the next new lexeme of a category gets. -/
def next (r : Registry) : Category → Int
  | .keyword => r.config.keyword.first + r.keywords.size
  | .operator => r.config.operator.first + r.operators.size
  | .symbol => r.nextSymbol
  | .literal => r.nextLiteral

def codeFor (r : Registry) (category : Category) (lexeme : String) : Option Int :=
  (r.table category).get? lexeme

def decode (r : Registry) (code : Int) : Option String := (r.owners.get? code).map (·.lexeme)

def categoryOf (r : Registry) (code : Int) : Option Category :=
  (r.owners.get? code).map (·.category)

def isReserved (r : Registry) (lexeme : String) : Bool :=
  r.keywords.contains lexeme || r.operators.contains lexeme

/-- Gives the next code of a category to a lexeme. -/
def assign (r : Registry) (category : Category) (lexeme : String) : Registry :=
  let code := r.next category
  let owned := { r with owners := r.owners.insert code ⟨lexeme, category⟩ }
  match category with
  | .keyword => { owned with keywords := r.keywords.insert lexeme code }
  | .operator => { owned with operators := r.operators.insert lexeme code }
  | .symbol => { owned with symbols := r.symbols.insert lexeme code, nextSymbol := r.nextSymbol + 1 }
  | .literal =>
    { owned with literals := r.literals.insert lexeme code, nextLiteral := r.nextLiteral + 1 }

/-! ### Checks -/

/-- A code is within the range of its category. -/
def checkRange (r : Registry) (category : Category) (code : Int) : Except RegistryError Unit :=
  let last := (r.config.range category).last
  if code ≤ last then .ok () else .error (.exhausted category last)

/-- A code has no owner yet. -/
def checkFree (r : Registry) (code : Int) (lexeme : String) : Except RegistryError Unit :=
  match r.owners.get? code with
  | none => .ok ()
  | some owner => .error (.taken code lexeme owner)

/-- Consecutive codes from `code` on have no owner yet. -/
def checkAllFree (r : Registry) (code : Int) : List String → Except RegistryError Unit
  | [] => .ok ()
  | lexeme :: lexemes => do
    r.checkFree code lexeme
    r.checkAllFree (code + 1) lexemes

/-- The lexemes are not empty, not reserved, and different from each other and from `seen`. -/
def checkNew (r : Registry) (category : Category) (seen : List String) :
    List String → Except RegistryError Unit
  | [] => .ok ()
  | lexeme :: lexemes =>
    if lexeme = "" then .error (.emptyLexeme category)
    else if r.isReserved lexeme || seen.contains lexeme then .error (.duplicate lexeme)
    else r.checkNew category (lexeme :: seen) lexemes

/-- A batch can be registered: its lexemes are new, and the next codes are in range and free. -/
def checkBatch (r : Registry) (category : Category) (batch : List String) :
    Except RegistryError Unit := do
  r.checkNew category [] batch
  if batch ≠ [] then r.checkRange category (r.next category + batch.length - 1)
  r.checkAllFree (r.next category) batch

/-! ### Operations

Each gives its outcome and the registry afterwards. -/

/-- Gives a lexeme the next code of a category, unless that code has an owner. -/
def give (r : Registry) (category : Category) (lexeme : String) :
    Except RegistryError Unit × Registry :=
  match r.checkFree (r.next category) lexeme with
  | .error e => (.error e, r)
  | .ok () => (.ok (), r.assign category lexeme)

/-- Gives codes to lexemes from left to right. When one fails, those before it keep theirs. -/
def giveAll (r : Registry) (category : Category) :
    List String → Except RegistryError Unit × Registry
  | [] => (.ok (), r)
  | lexeme :: lexemes =>
    match r.give category lexeme with
    | (.error e, r) => (.error e, r)
    | (.ok (), r) => r.giveAll category lexemes

/-- Registers a batch in a category. The whole batch is checked before its first code is given out. -/
def register (r : Registry) (category : Category) (batch : List String) :
    Except RegistryError Unit × Registry :=
  match r.checkBatch category batch with
  | .error e => (.error e, r)
  | .ok () => r.giveAll category batch

def registerKeywords (r : Registry) (batch : List String) : Except RegistryError Unit × Registry :=
  r.register .keyword batch

def registerOperators (r : Registry) (batch : List String) : Except RegistryError Unit × Registry :=
  r.register .operator batch

/-- The category of a lexeme that is not reserved. -/
def freeCategory (lexeme : String) : Category := if isNumeric lexeme then .literal else .symbol

/-- The token of a lexeme that needs no new code. -/
def known? (r : Registry) (lexeme : String) : Option Token :=
  if lexeme = "" then some .null
  else
    match r.keywords.get? lexeme with
    | some code => some ⟨lexeme, some .keyword, code⟩
    | none =>
      match r.operators.get? lexeme with
      | some code => some ⟨lexeme, some .operator, code⟩
      | none =>
        (r.codeFor (freeCategory lexeme) lexeme).map fun code =>
          ⟨lexeme, some (freeCategory lexeme), code⟩

/-- Gives a new lexeme the next code of its category. -/
def allocate (r : Registry) (category : Category) (lexeme : String) :
    Except RegistryError Token × Registry :=
  let code := r.next category
  match r.checkRange category code with
  | .error e => (.error e, r)
  | .ok () =>
    match r.checkFree code lexeme with
    | .error e => (.error e, r)
    | .ok () => (.ok ⟨lexeme, some category, code⟩, r.assign category lexeme)

def encode (r : Registry) (lexeme : String) : Except RegistryError Token × Registry :=
  match r.known? lexeme with
  | some token => (.ok token, r)
  | none => r.allocate (freeCategory lexeme) lexeme

/-- The tokens of lexemes from left to right. When one fails, those before it keep their codes. -/
def encodeAll (r : Registry) : List String → Except RegistryError (List Token) × Registry
  | [] => (.ok [], r)
  | lexeme :: lexemes =>
    match r.encode lexeme with
    | (.error e, r) => (.error e, r)
    | (.ok token, r) =>
      match r.encodeAll lexemes with
      | (.error e, r) => (.error e, r)
      | (.ok tokens, r) => (.ok (token :: tokens), r)

end Registry

end LineLang
