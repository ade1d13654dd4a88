import SpriteScript.Source.Line

/-!
# Whole scripts

Lines are compiled in order with one scope between them. The first line that fails ends it: the
bytes of the lines before it stay, and so do the names bound so far.
-/

namespace SpriteScript

/-- The failure of one line of a script. -/
structure CompileError where
  /-- The number of the line, from zero. -/
  line : Nat
  /-- The text of the line without its comment. -/
  code : String
  cause : SourceError
deriving Repr

def CompileError.message (e : CompileError) : String :=
  if e.cause.isReported then
    s!"Error occurred on line {e.line}: {e.cause.messageIn e.code}"
  else e.cause.message

/-- What compiling lines leaves behind. -/
structure CompiledProgram where
  scope : Scope
  warnings : List String := []
  bytes : Bytes := []
  error? : Option CompileError := none

namespace Source

variable [Text.CharacterNames]

/-- Takes the characters that end a line off its end. -/
def withoutEnd (line : String) : String :=
  String.ofList (Text.dropEndWhile (fun c => c == '\r' || c == '\n') line.toList)

/-- Compiles lines, of which the first has the number `n`. -/
def compileFrom (s : Scope) (n : Nat) : List String → CompiledProgram
  | [] => { scope := s }
  | line :: lines =>
    let c := compileLine s (withoutEnd line)
    match c.result with
    | .error cause =>
      { scope := c.scope, warnings := c.warnings,
        error? := some ⟨n, stripComment (withoutEnd line), cause⟩ }
    | .ok _ =>
      let rest := compileFrom c.scope (n + 1) lines
      { rest with warnings := c.warnings ++ rest.warnings, bytes := c.bytes ++ rest.bytes }

def compileLines (s : Scope) (lines : List String) : CompiledProgram := compileFrom s 0 lines

/-- The lines of a source. -/
def lines (source : String) : List String :=
  (Text.splitLines source.toList).map String.ofList

/-- Compiles a source with the names bound so far. -/
def compileIn (s : Scope) (source : String) : CompiledProgram := compileLines s (lines source)

/-- Compiles a source on its own. -/
def compile (source : String) : CompiledProgram := compileIn {} source

end Source

end SpriteScript
