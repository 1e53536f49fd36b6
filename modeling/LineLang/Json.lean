import LineLang.Text.Padded

/-!
# Documents

Data trees with ordered objects, and their indented, ASCII-only text.
-/

namespace LineLang

inductive Json where
  | null
  | bool (b : Bool)
  | int (n : Int)
  | string (s : String)
  | array (items : List Json)
  | object (fields : List (String × Json))

namespace Json

/-- A character above the basic plane is written as two units of sixteen bits. -/
def escapeUnits (n : Nat) : String :=
  if n < 0x10000 then "\\u" ++ hex 4 n
  else "\\u" ++ hex 4 (0xd800 + (n - 0x10000) / 0x400) ++ "\\u" ++ hex 4 (0xdc00 + (n - 0x10000) % 0x400)

def escape (c : Char) : String :=
  if c = '"' then "\\\""
  else if c = '\\' then "\\\\"
  else if c = '\n' then "\\n"
  else if c = '\r' then "\\r"
  else if c = '\t' then "\\t"
  else if c = '\x0c' then "\\f"
  else if c = '\x08' then "\\b"
  else if 0x20 ≤ c.toNat ∧ c.toNat < 0x7f then c.toString
  else escapeUnits c.toNat

def quote (s : String) : String := "\"" ++ String.join (s.toList.map escape) ++ "\""

/-- The start of a line that is indented by two spaces a level. -/
def newline (level : Nat) : String := "\n" ++ String.ofList (List.replicate (2 * level) ' ')

/-- Members between brackets, each on a line of its own; no members, no lines. -/
def block (opening closing : String) (level : Nat) (members : List String) : String :=
  if members.isEmpty then opening ++ closing
  else
    opening ++ newline (level + 1) ++ ("," ++ newline (level + 1)).intercalate members ++
      newline level ++ closing

mutual

/-- The text of a document that stands `level` levels deep. -/
def render (level : Nat) : Json → String
  | .null => "null"
  | .bool b => if b then "true" else "false"
  | .int n => toString n
  | .string s => quote s
  | .array items => block "[" "]" level (renderItems (level + 1) items)
  | .object fields => block "\x7b" "\x7d" level (renderFields (level + 1) fields)

def renderItems (level : Nat) : List Json → List String
  | [] => []
  | item :: items => item.render level :: renderItems level items

def renderFields (level : Nat) : List (String × Json) → List String
  | [] => []
  | (key, value) :: fields => (quote key ++ ": " ++ value.render level) :: renderFields level fields

end

end Json

end LineLang
