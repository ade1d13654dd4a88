/-!
# Names of characters

An escape may give a character by its name. There are some hundred thousand names, and which of them
are known is left open: whatever is told of texts holds for any way to look names up. To run a
program there is one that knows the names of Basic Latin and of the most common punctuation beyond.
-/

namespace SpriteScript.Text

/-- A way to look up characters by their names. -/
class CharacterNames where
  find? : List Char → Option Char

namespace CharacterNames

/-- The names of characters that are no letters. -/
def signs : List (String × Char) := [
  ("SPACE", ' '), ("EXCLAMATION MARK", '!'), ("QUOTATION MARK", '"'), ("NUMBER SIGN", '#'),
  ("DOLLAR SIGN", '$'), ("PERCENT SIGN", '%'), ("AMPERSAND", '&'), ("APOSTROPHE", '\''),
  ("LEFT PARENTHESIS", '('), ("RIGHT PARENTHESIS", ')'), ("ASTERISK", '*'), ("PLUS SIGN", '+'),
  ("COMMA", ','), ("HYPHEN-MINUS", '-'), ("FULL STOP", '.'), ("SOLIDUS", '/'),
  ("DIGIT ZERO", '0'), ("DIGIT ONE", '1'), ("DIGIT TWO", '2'), ("DIGIT THREE", '3'),
  ("DIGIT FOUR", '4'), ("DIGIT FIVE", '5'), ("DIGIT SIX", '6'), ("DIGIT SEVEN", '7'),
  ("DIGIT EIGHT", '8'), ("DIGIT NINE", '9'), ("COLON", ':'), ("SEMICOLON", ';'),
  ("LESS-THAN SIGN", '<'), ("EQUALS SIGN", '='), ("GREATER-THAN SIGN", '>'),
  ("QUESTION MARK", '?'), ("COMMERCIAL AT", '@'), ("LEFT SQUARE BRACKET", '['),
  ("REVERSE SOLIDUS", '\\'), ("RIGHT SQUARE BRACKET", ']'), ("CIRCUMFLEX ACCENT", '^'),
  ("LOW LINE", '_'), ("GRAVE ACCENT", '\x60'), ("LEFT CURLY BRACKET", '{'), ("VERTICAL LINE", '|'),
  ("RIGHT CURLY BRACKET", '}'), ("TILDE", '~'), ("HYPHEN", '\u2010'),
  ("NON-BREAKING HYPHEN", '\u2011'), ("FIGURE DASH", '\u2012'), ("EN DASH", '\u2013'),
  ("EM DASH", '\u2014'), ("LEFT SINGLE QUOTATION MARK", '\u2018'),
  ("RIGHT SINGLE QUOTATION MARK", '\u2019'), ("LEFT DOUBLE QUOTATION MARK", '\u201c'),
  ("RIGHT DOUBLE QUOTATION MARK", '\u201d'), ("DAGGER", '\u2020'), ("DOUBLE DAGGER", '\u2021'),
  ("BULLET", '\u2022'), ("HORIZONTAL ELLIPSIS", '\u2026'), ("PER MILLE SIGN", '\u2030'),
  ("PRIME", '\u2032'), ("DOUBLE PRIME", '\u2033')]

def letters : List Char := "ABCDEFGHIJKLMNOPQRSTUVWXYZ".toList

def letter? (name : List Char) : Option Char :=
  (letters.find? fun c => name == "LATIN CAPITAL LETTER ".toList ++ [c]) <|>
    (letters.find? fun c => name == "LATIN SMALL LETTER ".toList ++ [c]).map Char.toLower

/-- Names are the same in any case. -/
scoped instance latin : CharacterNames where
  find? name :=
    let name := name.map Char.toUpper
    letter? name <|> (signs.find? fun (sign, _) => sign.toList == name).map (·.2)

end CharacterNames

end SpriteScript.Text
