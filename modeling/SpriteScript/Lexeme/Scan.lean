import SpriteScript.Lexeme.Basic
import SpriteScript.Lexeme.Grammar
import SpriteScript.Text.Lines

/-!
# Scanning

A text is scanned line by line. From one line to the next the scan remembers the open brackets,
whether the lines are joined, the indentations of the lines around, and a string that has not ended.
Outside of brackets every line must be indented like one of the lines around it or deeper.
-/

namespace SpriteScript

open Grammar

/-- A string that runs over the end of a line. -/
structure OpenString where
  /-- The quotes that will close it. -/
  close : List Char
  text : List Char
  start : Position
deriving DecidableEq, Repr

/-- What a scan remembers between two lines. -/
structure ScanState where
  /-- Brackets opened less brackets closed. -/
  depth : Int := 0
  joined : Bool := false
  /-- The indentations of the lines around, the innermost first. -/
  indents : List Nat := [0]
  openString? : Option OpenString := none
  /-- Whether an open string is given up where a line is not joined to the next. A string in single
  quotes sets this, and only a string that ends well clears it. -/
  strict : Bool := false
deriving DecidableEq, Repr

namespace ScanState

/-- Whether the next line begins a statement of its own. -/
def isFresh (st : ScanState) : Bool := st.depth == 0 && !st.joined

/-- Counts the brackets of an operator. -/
def afterOperator (st : ScanState) (text : List Char) : ScanState :=
  match text with
  | '(' :: _ | '[' :: _ | '\x7b' :: _ => { st with depth := st.depth + 1 }
  | ')' :: _ | ']' :: _ | '\x7d' :: _ => { st with depth := st.depth - 1 }
  | _ => st

end ScanState

/-- The blanks that may stand between two lexemes of a line. -/
def isGap (c : Char) : Bool := c == ' ' || c == '\x0c' || c == '\t'

/-- Scans the rest of a line, which has at most `bound` characters. -/
def scanRest : (bound : Nat) → Position → List Char → ScanState → List Lexeme × ScanState
  | 0, _, _, st => ([], st)
  | bound + 1, p, cs, st =>
    let start : Position := { p with column := p.column + (cs.takeWhile isGap).length }
    match cs.dropWhile isGap with
    | [] => ([], st)
    | body =>
      match recognize body with
      | none =>
        -- the first character at hand is stray, be it one of the blanks
        let stop : Position := { p with column := p.column + 1 }
        let (ls, st) := scanRest bound stop cs.tail st
        (⟨.stray, cs.take 1, p, stop⟩ :: ls, st)
      | some (form, taken, rest) =>
        let stop : Position := { start with column := start.column + taken.length }
        let emit (kind : LexemeKind) (st : ScanState) : List Lexeme × ScanState :=
          let (ls, st) := scanRest bound stop rest st
          (⟨kind, taken, start, stop⟩ :: ls, st)
        match form with
        | .join => scanRest bound stop rest { st with joined := true }
        | .comment => emit .comment st
        | .number => emit .number st
        | .lineEnd => emit .lineEnd st
        | .operator => emit .operator (st.afterOperator taken)
        | .string => emit .string st
        | .word => emit (if taken.head?.any Text.isNameStart then .name else .operator) st
        | .longQuotes quote =>
          match stringEnd (longQuotes quote) rest with
          | some (more, rest) =>
            let stop : Position := { stop with column := stop.column + more.length }
            let (ls, st) := scanRest bound stop rest st
            (⟨.string, taken ++ more, start, stop⟩ :: ls, st)
          | none =>
            ([], { st with openString? := some ⟨longQuotes quote, taken ++ rest, start⟩ })
        | .brokenString quote =>
          ([], { st with openString? := some ⟨[quote], taken ++ rest, start⟩, strict := true })

/-- The column and the number of the blanks that a line begins with, and the rest of it. A tab goes
to the next multiple of eight, a form feed back to the margin. -/
def indentation (column count : Nat) : List Char → Nat × Nat × List Char
  | ' ' :: cs => indentation (column + 1) (count + 1) cs
  | '\t' :: cs => indentation ((column / 8 + 1) * 8) (count + 1) cs
  | '\x0c' :: cs => indentation 0 (count + 1) cs
  | cs => (column, count, cs)

/-- The indentations around a line that begins at `column`, if one of them fits. -/
def indentsFor? (column : Nat) : List Nat → Option (List Nat)
  | [] => none
  | i :: is =>
    if i < column then some (column :: i :: is)
    else if (i :: is).contains column then some ((i :: is).dropWhile (column < ·))
    else none

/-- Whether a line is joined to the next one. -/
def endsJoined (line : List Char) : Bool :=
  ['\\', '\n'].isSuffixOf line || ['\\', '\r', '\n'].isSuffixOf line

/-- Scans lines, of which the first has the number `row`. -/
def scanLines (st : ScanState) (row : Nat) : List (List Char) → Except ScanError (List Lexeme)
  | [] =>
    match st.openString? with
    | some s => .error (.openString s.start)
    | none => if st.isFresh then .ok [] else .error (.openStatement row)
  | line :: lines =>
    match st.openString? with
    | some s =>
      match stringEnd s.close line with
      | some (more, rest) => do
        let stop : Position := ⟨row, more.length⟩
        let closed := { st with openString? := none, strict := false }
        let (ls, st) := scanRest line.length stop rest closed
        return ⟨.string, s.text ++ more, s.start, stop⟩ :: ls ++ (← scanLines st (row + 1) lines)
      | none =>
        if st.strict && !endsJoined line then do
          let ls ← scanLines { st with openString? := none } (row + 1) lines
          return ⟨.stray, s.text ++ line, s.start, ⟨row, line.length⟩⟩ :: ls
        else
          let longer := { s with text := s.text ++ line }
          scanLines { st with openString? := some longer } (row + 1) lines
    | none =>
      if st.isFresh then
        let (column, count, rest) := indentation 0 0 line
        match rest with
        | [] => .ok []
        | c :: _ =>
          if c = '#' ∨ c = '\r' ∨ c = '\n' then scanLines st (row + 1) lines
          else
            match indentsFor? column st.indents with
            | none => .error (.badIndent row)
            | some indents => do
              let (ls, st) := scanRest line.length ⟨row, count⟩ rest { st with indents }
              return ls ++ (← scanLines st (row + 1) lines)
      else do
        let (ls, st) := scanRest line.length ⟨row, 0⟩ line { st with joined := false }
        return ls ++ (← scanLines st (row + 1) lines)

/-- The lexemes of a text. -/
def scan (cs : List Char) : Except ScanError (List Lexeme) := scanLines {} 1 (Text.feedLines cs)

end SpriteScript
