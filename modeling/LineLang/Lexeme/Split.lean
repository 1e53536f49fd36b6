import LineLang.Lexeme.Basic
import LineLang.Text.Blank

/-!
# Splitting a line

A line is split into lexemes from left to right. Blanks separate lexemes, `//` outside quotes ends
the line, and a quote that is never closed is an error.
-/

namespace LineLang

def isWordChar (c : Char) : Bool := !isBlank c && !isPunctuation c && c != '"'

/-- The lexeme that begins with `c`, and the text behind it. An open quote begins none. -/
def readLexeme (c : Char) (cs : List Char) : Option (List Char × List Char) :=
  if c = '"' then
    match cs.dropWhile (· != '"') with
    | [] => none
    | closing :: rest => some (c :: cs.takeWhile (· != '"') ++ [closing], rest)
  else if isPunctuation c then
    match cs with
    | next :: rest => if joinsEquals c && next == '=' then some ([c, next], rest) else some ([c], cs)
    | [] => some ([c], [])
  else some (c :: cs.takeWhile isWordChar, cs.dropWhile isWordChar)

/-- Reading a lexeme loses nothing. -/
theorem append_of_readLexeme {c : Char} {cs lexeme rest : List Char}
    (h : readLexeme c cs = some (lexeme, rest)) : lexeme ++ rest = c :: cs := by
  unfold readLexeme at h
  split at h
  · split at h
    · cases h
    · rename_i closing tail found
      cases h
      have := List.takeWhile_append_dropWhile (p := (· != '"')) (l := cs)
      rw [found] at this
      simpa using this
  · split at h
    · split at h
      · split at h <;> cases h <;> rfl
      · cases h; rfl
    · cases h
      simp [List.takeWhile_append_dropWhile]

theorem ne_nil_of_readLexeme {c : Char} {cs lexeme rest : List Char}
    (h : readLexeme c cs = some (lexeme, rest)) : lexeme ≠ [] := by
  unfold readLexeme at h
  repeat' split at h
  all_goals cases h
  all_goals simp

theorem length_lt_of_readLexeme {c : Char} {cs lexeme rest : List Char}
    (h : readLexeme c cs = some (lexeme, rest)) : rest.length < (c :: cs).length := by
  have whole := congrArg List.length (append_of_readLexeme h)
  have nonempty := List.length_pos_iff.2 (ne_nil_of_readLexeme h)
  rw [List.length_append] at whole
  omega

/-- A quote without a partner, by the column it stands in. -/
structure OpenQuote where
  column : Nat
  deriving DecidableEq, Repr

def OpenQuote.message (quote : OpenQuote) (file : String) (line : Int) : String :=
  s!"Unterminated string literal at {file}:{line}:{quote.column}"

/-- A place in a line: how many characters are behind it, its column, and the characters ahead. -/
structure Cursor where
  index : Nat
  column : Nat
  rest : List Char

/-- The start of a line. Columns count from one. -/
def Cursor.ofLine (line : String) : Cursor := ⟨0, 1, line.toList⟩

/-- The lexemes of `cs`, which stands at `index` and in `column`, and the place where splitting stops: at a
comment, or at the end. -/
def splitFrom (index column : Nat) (cs : List Char) : Except OpenQuote (List String) × Cursor :=
  match cs with
  | [] => (.ok [], ⟨index, column, []⟩)
  | c :: rest =>
    if isBlank c then splitFrom (index + 1) (column + 1) rest
    else if c = '/' ∧ rest.head? = some '/' then (.ok [], ⟨index, column, c :: rest⟩)
    else
      match found : readLexeme c rest with
      | none => (.error ⟨column⟩, ⟨index + (rest.length + 1), column + (rest.length + 1), []⟩)
      | some (lexeme, after) =>
        let (result, stop) := splitFrom (index + lexeme.length) (column + lexeme.length) after
        (result.map (String.ofList lexeme :: ·), stop)
termination_by cs.length
decreasing_by
  · exact Nat.lt_succ_self _
  · exact length_lt_of_readLexeme found

/-- The lexemes from a place on, and the place where splitting stops. -/
def Cursor.split (cursor : Cursor) : Except OpenQuote (List String) × Cursor :=
  splitFrom cursor.index cursor.column cursor.rest

def splitLine (line : String) : Except OpenQuote (List String) := (Cursor.ofLine line).split.1

end LineLang
