/-!
# Lines

A text is cut into lines at its line breaks. A break at the very end starts no further line.
-/

namespace LineLang

/-- The characters that end a line of a program. -/
def isLineBreak (c : Char) : Bool :=
  let n := c.toNat
  (0x0a ≤ n && n ≤ 0x0d) || (0x1c ≤ n && n ≤ 0x1e) || n == 0x85 || n == 0x2028 || n == 0x2029

/-- A carriage return and line feed together are one line feed. -/
def mergeCrLf : List Char → List Char
  | [] => []
  | '\r' :: '\n' :: r => '\n' :: mergeCrLf r
  | c :: r => c :: mergeCrLf r

/-- The lines of a text whose line ends are the characters that satisfy `isEnd`. -/
def linesBy (isEnd : Char → Bool) : List Char → List (List Char)
  | [] => []
  | c :: r =>
    if isEnd c then [] :: linesBy isEnd r
    else
      match linesBy isEnd r with
      | [] => [[c]]
      | line :: lines => (c :: line) :: lines

def programLines (text : String) : List String :=
  (linesBy isLineBreak (mergeCrLf text.toList)).map String.ofList

/-- A text as it is read from a file, where a carriage return ends a line as well. -/
def readAsText (text : String) : String :=
  String.ofList ((mergeCrLf text.toList).map fun c => if c = '\r' then '\n' else c)

/-- The lines that are typed at a terminal. A carriage return is a character of its line. -/
def typedLines (text : String) : List String :=
  (linesBy (· == '\n') text.toList).map String.ofList

end LineLang
