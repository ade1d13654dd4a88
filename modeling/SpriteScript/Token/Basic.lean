/-!
# Tokens

A line of a script is a list of tokens: names, literals, single marks, and groups of tokens in
brackets. Groups nest, so tokens form trees.
-/

namespace SpriteScript

inductive Delimiter where
  | parenthesis
  | bracket
  | brace
deriving DecidableEq, Repr

namespace Delimiter

def opening : Delimiter → Char
  | parenthesis => '('
  | bracket => '['
  | brace => '\x7b'

def closing : Delimiter → Char
  | parenthesis => ')'
  | bracket => ']'
  | brace => '\x7d'

def all : List Delimiter := [parenthesis, bracket, brace]

/-- The delimiter that a character opens. -/
def ofOpening? (c : Char) : Option Delimiter := all.find? (·.opening == c)

/-- The delimiter that a character closes. -/
def ofClosing? (c : Char) : Option Delimiter := all.find? (·.closing == c)

/-- Both brackets side by side. -/
def name (d : Delimiter) : String := String.ofList [d.opening, d.closing]

end Delimiter

inductive Token where
  | identifier (name : String)
  | literal (text : String)
  | punctuation (c : Char)
  | group (delimiter : Delimiter) (items : List Token)
deriving Repr

instance : Inhabited Token := ⟨.group .parenthesis []⟩

namespace Token

mutual

/-- A token as text; the items of a group stand one space apart. However deep groups are, there is a
text: an interpreter's own limit on recursion is left out. -/
def render : Token → String
  | identifier name => name
  | literal text => text
  | punctuation c => c.toString
  | group d items =>
    d.opening.toString ++ String.intercalate " " (renderAll items) ++ d.closing.toString

def renderAll : List Token → List String
  | [] => []
  | t :: ts => t.render :: renderAll ts

end

theorem renderAll_eq_map (ts : List Token) : renderAll ts = ts.map render := by
  induction ts with
  | nil => rfl
  | cons t ts ih => simp [renderAll, ih]

end Token

end SpriteScript
