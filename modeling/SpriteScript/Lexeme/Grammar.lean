import SpriteScript.Text.Pattern
import SpriteScript.Text.Word

/-!
# The grammar of lexemes

The patterns of numbers, strings, names and operators, and the order in which they are tried
(`recognize`). Digits are ASCII digits; single underscores may stand between them.
-/

namespace SpriteScript.Grammar

open Text Pattern

/-- More digits after a first one, each with at most one underscore before it. -/
def moreDigits (p : Char → Bool) : List Char → List Char × List Char
  | '_' :: c :: cs =>
    if p c then
      let (taken, rest) := moreDigits p cs
      ('_' :: c :: taken, rest)
    else ([], '_' :: c :: cs)
  | c :: cs =>
    if p c then
      let (taken, rest) := moreDigits p cs
      (c :: taken, rest)
    else ([], c :: cs)
  | [] => ([], [])

/-- Digits of one kind. -/
def digits (p : Char → Bool) : Pattern := (satisfy p).followedBy fun cs => some (moreDigits p cs)

def isHexDigit (c : Char) : Bool := c.isDigit || ('a' ≤ c && c ≤ 'f') || ('A' ≤ c && c ≤ 'F')

/-- A zero, the mark of a base, and digits; an underscore may follow the mark. -/
def marked (lower upper : Char) (p : Char → Bool) : Pattern :=
  (char '0').followedBy <| (satisfy fun c => c == lower || c == upper).followedBy <|
    (optional (char '_')).followedBy (digits p)

/-- Zeros, or a number that does not begin with one. -/
def plainInteger : Pattern :=
  (digits (· == '0')).orElse <|
    (satisfy fun c => '1' ≤ c && c ≤ '9').followedBy fun cs => some (moreDigits Char.isDigit cs)

def integer : Pattern :=
  firstOf [marked 'x' 'X' isHexDigit, marked 'b' 'B' fun c => c == '0' || c == '1',
    marked 'o' 'O' fun c => '0' ≤ c && c ≤ '7', plainInteger]

def exponent : Pattern :=
  (satisfy fun c => c == 'e' || c == 'E').followedBy <|
    (optional (satisfy fun c => c == '-' || c == '+')).followedBy (digits Char.isDigit)

/-- A number with a point, with digits on one side of it at least. -/
def pointed : Pattern :=
  (firstOf [
    (digits Char.isDigit).followedBy <| (char '.').followedBy (optional (digits Char.isDigit)),
    (char '.').followedBy (digits Char.isDigit)]).followedBy (optional exponent)

def fraction : Pattern := pointed.orElse ((digits Char.isDigit).followedBy exponent)

def imaginaryMark : Pattern := satisfy fun c => c == 'j' || c == 'J'

def number : Pattern :=
  firstOf [(digits Char.isDigit).followedBy imaginaryMark, fraction.followedBy imaginaryMark,
    fraction, integer]

/-- A line feed, alone or after a carriage return. -/
def lineEnd : Pattern := (optional (char '\r')).followedBy (char '\n')

/-- A backslash at the end of a line, which joins the next line to it. -/
def join : Pattern := (char '\\').followedBy lineEnd

def comment : Pattern := (char '#').followedBy (many fun c => c != '\r' && c != '\n')

/-- The operators; of two that begin alike the longer stands first. -/
def operators : List String :=
  ["~", "\x7d", "|=", "|", "\x7b", "^=", "^", "]", "[", "@=", "@", ">>=", ">>", ">=", ">", "==",
    "=", "<=", "<<=", "<<", "<", ";", ":=", ":", "/=", "//=", "//", "/", "...", ".", "->", "-=", "-",
    ",", "+=", "+", "*=", "**=", "**", "*", ")", "(", "&=", "&", "%=", "%", "!="]

def operator : Pattern := firstOf (operators.map fun s => exactly s.toList)

/-- The letters that may stand before the quotes of a string, in lower case. -/
def stringMarks : List String := ["", "b", "r", "u", "f", "br", "rb", "fr", "rf"]

/-- The letters before quotes; whether quotes follow is for the next pattern to say. -/
def stringMark : Pattern := fun cs =>
  let letters := cs.takeWhile Char.isAlpha
  if stringMarks.contains (String.ofList (letters.map Char.toLower)) then
    some (letters, cs.dropWhile Char.isAlpha)
  else none

/-- The quotes that open a string over several lines. -/
def longQuotes (quote : Char) : List Char := [quote, quote, quote]

/-- The rest of a string that runs over lines, through its closing quotes. -/
def stringEnd (close : List Char) : Pattern := through (exactly close) fun _ => false

/-- A string that ends on its line. -/
def string (quote : Char) : Pattern :=
  stringMark.followedBy <| (char quote).followedBy <| through (char quote) (· == '\n')

/-- The beginning of a string whose line is joined to the next one. -/
def brokenString (quote : Char) : Pattern :=
  stringMark.followedBy <| (char quote).followedBy <|
    through join fun c => c == quote || c == '\n'

def word : Pattern := (satisfy isWord).followedBy (many isWord)

/-- What a piece of a line is recognised as. -/
inductive Form where
  | join
  | comment
  | longQuotes (quote : Char)
  | number
  | lineEnd
  | operator
  | string
  | brokenString (quote : Char)
  | word
deriving DecidableEq, Repr

/-- The forms in the order in which they are tried. -/
def forms : List (Form × Pattern) := [
  (.join, join),
  (.comment, comment),
  (.longQuotes '\'', stringMark.followedBy (exactly (longQuotes '\''))),
  (.longQuotes '"', stringMark.followedBy (exactly (longQuotes '"'))),
  (.number, number),
  (.lineEnd, lineEnd),
  (.operator, operator),
  (.string, string '\''),
  (.string, string '"'),
  (.brokenString '\'', brokenString '\''),
  (.brokenString '"', brokenString '"'),
  (.word, word)]

/-- The form at the front of a text, the characters it takes, and the rest. -/
def recognize (cs : List Char) : Option (Form × List Char × List Char) :=
  forms.findSome? fun (form, pattern) => (pattern cs).map fun (taken, rest) => (form, taken, rest)

end SpriteScript.Grammar
