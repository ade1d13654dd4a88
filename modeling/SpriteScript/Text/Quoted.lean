import SpriteScript.Text.Hex
import SpriteScript.Text.Printable

/-!
# Quoted text

Text is quoted for a message so that it stays on one line: in single quotes, or in double quotes
if it holds single ones and no double ones; backslashes, the quote and unprintable characters are
escaped.
-/

namespace SpriteScript.Text

/-- The quote put around a text. -/
def quoteFor (s : String) : Char :=
  if s.contains '\'' && !s.contains '"' then '"' else '\''

/-- A character as it stands between two `quote`s. -/
def quotedChar (quote c : Char) : String :=
  if c = quote ∨ c = '\\' then String.ofList ['\\', c]
  else if c = '\n' then "\\n"
  else if c = '\r' then "\\r"
  else if c = '\t' then "\\t"
  else if isPrintable c then c.toString
  else if c.toNat < 0x100 then "\\x" ++ hex 2 c.toNat
  else if c.toNat < 0x10000 then "\\u" ++ hex 4 c.toNat
  else "\\U" ++ hex 8 c.toNat

/-- A text in quotes. -/
def quoted (s : String) : String :=
  let quote := quoteFor s
  quote.toString ++ String.join (s.toList.map (quotedChar quote)) ++ quote.toString

end SpriteScript.Text
