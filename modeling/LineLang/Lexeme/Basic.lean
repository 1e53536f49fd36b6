/-!
# Lexemes

The characters that lexemes are made of, and the two kinds of lexeme that stand for values.
-/

namespace LineLang

/-- Characters that are lexemes by themselves. -/
def punctuation : List Char :=
  ['(', ')', '\x7b', '\x7d', '[', ']', ',', ';', ':', '+', '-', '*', '/', '%', '<', '>', '=', '!']

def isPunctuation (c : Char) : Bool := punctuation.contains c

/-- Punctuation that forms one lexeme with a `=` right after it. -/
def joinsEquals (c : Char) : Bool := c == '=' || c == '!' || c == '<' || c == '>'

def isQuoted (lexeme : String) : Bool :=
  let cs := lexeme.toList
  2 ≤ cs.length && cs.head? == some '"' && cs.getLast? == some '"'

def unquote (lexeme : String) : String := String.ofList lexeme.toList.tail.dropLast

/-- Digits, and possibly a point with more digits. There is no sign and no exponent. -/
def isNumeric (lexeme : String) : Bool :=
  let cs := lexeme.toList
  !(cs.takeWhile Char.isDigit).isEmpty &&
    match cs.dropWhile Char.isDigit with
    | [] => true
    | point :: fraction => point == '.' && !fraction.isEmpty && fraction.all Char.isDigit

/-- The lexemes of a line as they are shown, with a mark for its end. -/
def showLexemes (lexemes : List String) : String := ", ".intercalate (lexemes ++ ["EOL"])

end LineLang
