import SpriteScript.Text.Hex

/-!
# JSON text

Summaries are written as JSON: the members of an object sorted by name, two blanks of indentation
for each level, and nothing but printable ASCII. Other characters stand as escapes of their UTF-16
units.
-/

namespace SpriteScript

inductive JsonValue where
  | bool (b : Bool)
  | int (n : Int)
  | text (s : String)
  | array (items : List JsonValue)
  | object (members : List (String × JsonValue))

namespace JsonValue

/-- A UTF-16 unit as an escape. -/
def unitEscape (n : Nat) : String := "\\u" ++ Text.hex 4 n

/-- A character inside of quotes. -/
def escapeChar (c : Char) : String :=
  if c = '"' then "\\\""
  else if c = '\\' then "\\\\"
  else if c = '\n' then "\\n"
  else if c = '\r' then "\\r"
  else if c = '\t' then "\\t"
  else if c = '\x08' then "\\b"
  else if c = '\x0c' then "\\f"
  else if 0x20 ≤ c.toNat ∧ c.toNat < 0x7F then c.toString
  else if c.toNat < 0x10000 then unitEscape c.toNat
  else
    let n := c.toNat - 0x10000
    unitEscape (0xD800 + n / 0x400) ++ unitEscape (0xDC00 + n % 0x400)

def quote (s : String) : String := "\"" ++ String.join (s.toList.map escapeChar) ++ "\""

/-- The beginning of a line at a depth. -/
def newline (depth : Nat) : String := "\n" ++ String.ofList (List.replicate (2 * depth) ' ')

/-- Parts in brackets, each on a line of its own; without parts the brackets stand alone. -/
def enclose (opening closing : Char) (depth : Nat) (parts : List String) : String :=
  if parts.isEmpty then String.ofList [opening, closing]
  else
    opening.toString ++ newline (depth + 1) ++
      String.intercalate ("," ++ newline (depth + 1)) parts ++ newline depth ++ closing.toString

mutual

/-- The text of a value at a depth. -/
def render (depth : Nat) : JsonValue → String
  | bool true => "true"
  | bool false => "false"
  | int n => toString n
  | text s => quote s
  | array items => enclose '[' ']' depth (renderAll (depth + 1) items)
  | object members =>
    let parts := renderMembers (depth + 1) members
    enclose '\x7b' '\x7d' depth ((parts.mergeSort fun a b => a.1 ≤ b.1).map fun (name, body) =>
      quote name ++ ": " ++ body)

def renderAll (depth : Nat) : List JsonValue → List String
  | [] => []
  | j :: js => render depth j :: renderAll depth js

/-- The members of an object by name, each with the text of its value. -/
def renderMembers (depth : Nat) : List (String × JsonValue) → List (String × String)
  | [] => []
  | (name, j) :: members => (name, render depth j) :: renderMembers depth members

end

end JsonValue

end SpriteScript
