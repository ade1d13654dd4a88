/-!
# Lexemes

A line falls into lexemes: flat pieces of text with a kind and a place. The kinds are coarse.
Whatever fits no rule is a stray character and does not stop the scan.
-/

namespace SpriteScript

/-- A place in a text: the row counts from one, the column from zero. -/
structure Position where
  row : Nat
  column : Nat
deriving DecidableEq, Repr

/-- A scanner of lines gives no other kinds: what opens and closes an indented block and what marks
the end of the text are told by the lines alone. So there is no kind that tokens could not be made
of, and no error for one. -/
inductive LexemeKind where
  | name
  | number
  | string
  | operator
  /-- Text that fits no rule, or a string that was cut off. -/
  | stray
  | comment
  | lineEnd
deriving DecidableEq, Repr

/-- A piece of a line, from `start` up to `stop`. -/
structure Lexeme where
  kind : LexemeKind
  text : List Char
  start : Position
  stop : Position
deriving DecidableEq, Repr

/-- Whether a lexeme only lays the text out. -/
def Lexeme.isLayout (l : Lexeme) : Bool := l.kind == .comment || l.kind == .lineEnd

/-- Why a text cannot be scanned. -/
inductive ScanError where
  /-- The text ends inside of the string that begins at `start`. -/
  | openString (start : Position)
  /-- The text ends at `row` inside of brackets or after a joined line. -/
  | openStatement (row : Nat)
  /-- The line at `row` is indented less than the one before it, and as no line around it is. -/
  | badIndent (row : Nat)
deriving DecidableEq, Repr

def ScanError.message : ScanError → String
  | .openString p => s!"('EOF in multi-line string', ({p.row}, {p.column}))"
  | .openStatement row => s!"('EOF in multi-line statement', ({row}, 0))"
  | .badIndent row =>
    s!"unindent does not match any outer indentation level (<tokenize>, line {row})"

end SpriteScript
