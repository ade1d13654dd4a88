import SpriteScript.Lexeme.Scan
import SpriteScript.Text.Numeral
import SpriteScript.Token.Basic

/-!
# Tokens from lexemes

Lexemes become flat pieces first: layout is dropped, operators fall into single characters, and a
minus is joined to an integer right after it. Then the brackets among the pieces are matched, which
turns the flat row into trees (`nest`).
-/

namespace SpriteScript

/-- Why a line has no tokens. -/
inductive LexError where
  | unscannable (cause : ScanError)
  /-- A quote that opens a string without an end; `text` is what is left of the string. -/
  | openQuote (text : String)
  | unbalanced (delimiter : Delimiter)
  | unclosed (delimiter : Delimiter)
deriving DecidableEq, Repr

def LexError.message : LexError → String
  | .unscannable cause => s!"Unable to tokenize line: {cause.message}"
  | .openQuote text => s!"Unterminated string literal: {text}"
  | .unbalanced d => s!"Unbalanced closing delimiter '{d.closing}'"
  | .unclosed d => s!"Unclosed delimiter '{d.opening}'"

/-- A lexeme's share in the row of tokens before brackets are matched. -/
inductive Piece where
  | token (t : Token)
  | opening (delimiter : Delimiter)
  | closing (delimiter : Delimiter)
  | openQuote (text : String)

namespace Piece

/-- The piece for one character of an operator. -/
def ofOperatorChar (c : Char) : Piece :=
  match Delimiter.ofOpening? c, Delimiter.ofClosing? c with
  | some d, _ => opening d
  | none, some d => closing d
  | none, none => token (.punctuation c)

/-- The pieces for stray text: none for blanks, single marks for the rest. -/
def ofStray (text : List Char) : List Piece :=
  if text.all Text.isBlank then []
  else if text.head?.any fun c => c == '\'' || c == '"' then [openQuote (String.ofList text)]
  else text.map fun c => token (.punctuation c)

def ofLexeme (l : Lexeme) : List Piece :=
  match l.kind with
  | .name => [token (.identifier (String.ofList l.text))]
  | .number | .string => [token (.literal (String.ofList l.text))]
  | .operator => l.text.map ofOperatorChar
  | .stray => ofStray l.text
  | .comment | .lineEnd => []

/-- Whether `n` is an integer that begins right where the minus `l` ends. -/
def isNegated (l n : Lexeme) : Bool :=
  l.kind == .operator && l.text == ['-'] && n.kind == .number && n.start == l.stop &&
    (Text.integer? n.text).isSome

/-- The pieces for lexemes without layout. -/
def ofLexemes : List Lexeme → List Piece
  | [] => []
  | [l] => ofLexeme l
  | l :: n :: ls =>
    if isNegated l n then token (.literal (String.ofList ('-' :: n.text))) :: ofLexemes ls
    else ofLexeme l ++ ofLexemes (n :: ls)

end Piece

/-- Matches brackets. `around` holds the groups that are open, the innermost first, each with the
tokens before it; `inside` holds the tokens of the innermost group so far. -/
def nest (around : List (Delimiter × List Token)) (inside : List Token) :
    List Piece → Except LexError (List Token)
  | [] =>
    match around with
    | [] => .ok inside
    | (d, _) :: _ => .error (.unclosed d)
  | .token t :: ps => nest around (inside ++ [t]) ps
  | .opening d :: ps => nest ((d, inside) :: around) [] ps
  | .closing d :: ps =>
    match around with
    | (e, before) :: around =>
      if e = d then nest around (before ++ [.group d inside]) ps else .error (.unbalanced d)
    | [] => .error (.unbalanced d)
  | .openQuote text :: _ => .error (.openQuote text)

namespace Token

/-- The tokens that lexemes form. -/
def ofLexemes (ls : List Lexeme) : Except LexError (List Token) :=
  nest [] [] (Piece.ofLexemes (ls.filter (!·.isLayout)))

/-- The tokens of a line; blanks around it do not count. -/
def ofLine (line : String) : Except LexError (List Token) := do
  let ls ← (scan (Text.strip line.toList)).mapError .unscannable
  ofLexemes ls

end Token

/-- A line without its comment, which begins at the first number sign. -/
def stripComment (line : String) : String := String.ofList (line.toList.takeWhile (· != '#'))

end SpriteScript
