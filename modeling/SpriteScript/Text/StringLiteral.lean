import SpriteScript.Text.CharacterName
import SpriteScript.Text.Lines
import SpriteScript.Text.Numeral

/-!
# String literals

A string literal is text in single or double quotes, once or three times on each side. A backslash
begins an escape, unless the literal is raw. Literals after one another are read as one, and blanks
and a comment may follow them. What they denote is a list of code points: an escape may give a
surrogate, which is a code point but no character.
-/

namespace SpriteScript.Text.StringLiteral

variable [CharacterNames]

/-! ## Escapes -/

/-- The value of a hexadecimal digit; only ASCII digits count in an escape. -/
def hexDigit? (c : Char) : Option Nat := if c.toNat < 0x80 then digit? 16 c else none

/-- Reads exactly `n` hexadecimal digits after those that gave `value`. -/
def hexValue? : Nat → Nat → List Char → Option (Nat × List Char)
  | 0, value, cs => some (value, cs)
  | n + 1, value, c :: cs => do hexValue? n (value * 16 + (← hexDigit? c)) cs
  | _ + 1, _, [] => none

def isOctalDigit (c : Char) : Bool := '0' ≤ c && c ≤ '7'

/-- The character that is named between braces, and the text after them. -/
def named? : List Char → Option (Char × List Char)
  | '{' :: cs =>
    let name := cs.takeWhile (· != '}')
    match name, cs.drop name.length with
    | _ :: _, '}' :: cs => (CharacterNames.find? name).map (·, cs)
    | _, _ => none
  | _ => none

/-- The code points of an escape, given the character after the backslash, and the text after it.
A character that begins no escape stands for itself and keeps its backslash. -/
def escape? (c : Char) (cs : List Char) : Option (List Nat × List Char) :=
  match c with
  | '\n' => some ([], cs)
  | '\\' | '\'' | '"' => some ([c.toNat], cs)
  | 'a' => some ([0x07], cs)
  | 'b' => some ([0x08], cs)
  | 'f' => some ([0x0C], cs)
  | 'n' => some ([0x0A], cs)
  | 'r' => some ([0x0D], cs)
  | 't' => some ([0x09], cs)
  | 'v' => some ([0x0B], cs)
  | 'x' => (hexValue? 2 0 cs).map fun (n, cs) => ([n], cs)
  | 'u' => (hexValue? 4 0 cs).map fun (n, cs) => ([n], cs)
  | 'U' => do
    let (n, cs) ← hexValue? 8 0 cs
    if n ≤ 0x10FFFF then some ([n], cs) else none
  | 'N' => (named? cs).map fun (c, cs) => ([c.toNat], cs)
  | _ =>
    if isOctalDigit c then
      let ds := c :: (cs.takeWhile isOctalDigit).take 2
      some ([ds.foldl (fun n d => n * 8 + (d.toNat - '0'.toNat)) 0], cs.drop (ds.length - 1))
    else some (['\\'.toNat, c.toNat], cs)

/-- The code points of the text between the quotes; `bound` is at least its length. -/
def codePointsWithin? : (bound : Nat) → List Char → Option (List Nat)
  | _, [] => some []
  | 0, _ => none
  | n + 1, '\\' :: c :: cs => do
    let (points, rest) ← escape? c cs
    return points ++ (← codePointsWithin? n rest)
  | n + 1, c :: cs => do return c.toNat :: (← codePointsWithin? n cs)

/-! ## Literals -/

/-- The text before the closing quotes and the text after them. A backslash shields the character
after it; a line feed may stand bare only where `multiline` holds. -/
def beforeClose? (close : List Char) (multiline : Bool) : List Char → Option (List Char × List Char)
  | [] => none
  | '\\' :: c :: cs =>
    (beforeClose? close multiline cs).map fun (inside, rest) => ('\\' :: c :: inside, rest)
  | c :: cs =>
    if close.isPrefixOf (c :: cs) then some ([], (c :: cs).drop close.length)
    else if c = '\n' ∧ multiline = false then none
    else (beforeClose? close multiline cs).map fun (inside, rest) => (c :: inside, rest)

/-- The text between the quotes of a literal, and the text after it. -/
def content? : List Char → Option (List Char × List Char)
  | [] => none
  | q :: cs =>
    if [q, q].isPrefixOf cs then beforeClose? [q, q, q] true (cs.drop 2)
    else beforeClose? [q] false cs

def isQuote (c : Char) : Bool := c == '\'' || c == '"'

/-- The literal that a text begins with, and whether it is raw. There may be a letter before the
quotes, and one that makes it anything else than text is none. -/
def opening? : List Char → Option (Bool × List Char)
  | [] => none
  | c :: cs =>
    if isQuote c then some (false, c :: cs)
    else if cs.head?.any isQuote then
      if c = 'r' ∨ c = 'R' then some (true, cs)
      else if c = 'u' ∨ c = 'U' then some (false, cs)
      else none
    else none

/-! ## What follows a literal -/

/-- Leaves out what may stand between two literals: blanks, and the end of a line after a
backslash, if that is not where the text ends. -/
def skipGap : List Char → List Char
  | '\\' :: '\n' :: c :: cs => skipGap (c :: cs)
  | c :: cs => if c = ' ' ∨ c = '\t' ∨ c = '\x0c' then skipGap cs else c :: cs
  | [] => []

/-- Where a text is looked at after its literals. -/
inductive Place where
  /-- On the line of the last literal. -/
  | literal
  | comment
  /-- Before anything but blanks on a later line: whether these indent it, and whether those before
  a backslash and the end of a line did. -/
  | margin (indented continued : Bool)

/-- Whether nothing follows but blank lines and comments. The last line must not be indented if it
has nothing else. -/
def isOver : Place → List Char → Bool
  | .margin indented continued, [] => !indented && !continued
  | _, [] => true
  | .comment, c :: cs => isOver (if c = '\n' then .margin false false else .comment) cs
  | .margin indented continued, '\\' :: '\n' :: c :: cs =>
    isOver (.margin indented (indented || continued)) (c :: cs)
  | .margin _ continued, c :: cs =>
    if c = ' ' ∨ c = '\t' then isOver (.margin true continued) cs
    else if c = '\x0c' then isOver (.margin false continued) cs
    else if c = '\n' then isOver (.margin false false) cs
    else c = '#' && isOver .comment cs
  | .literal, c :: cs =>
    if c = '\n' then isOver (.margin false false) cs else c = '#' && isOver .comment cs

/-! ## Texts -/

/-- The code points of literals after one another, of which the text begins with the first one;
`bound` is at least its length. -/
def joinedWithin? : (bound : Nat) → (raw : Bool) → List Char → Option (List Nat)
  | 0, _, _ => none
  | n + 1, raw, cs => do
    let (inside, rest) ← content? cs
    let points ←
      if raw then some (inside.map Char.toNat) else codePointsWithin? inside.length inside
    match opening? (skipGap rest) with
    | some (raw, cs) => return points ++ (← joinedWithin? n raw cs)
    | none => if isOver .literal (skipGap rest) then some points else none

/-- The code points that a text denotes which begins with a quote. Every way to end a line counts as
a line feed, and no literal holds a null character. -/
def codePoints? (cs : List Char) : Option (List Nat) :=
  if cs.contains '\x00' then none
  else
    let cs := unifyLineEnds cs
    joinedWithin? cs.length false cs

/-- The characters of a list of code points, unless a surrogate is among them. -/
def characters? (points : List Nat) : Option (List Char) :=
  points.mapM fun n => if n.isValidChar then some (Char.ofNat n) else none

end SpriteScript.Text.StringLiteral
