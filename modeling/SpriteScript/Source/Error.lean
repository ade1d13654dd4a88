import SpriteScript.Token.Nesting
import SpriteScript.Value.Encode

/-!
# Errors of a script

Why a line of a script cannot be compiled. Most errors are reported with the line's number and, if
they lie in its text, with the text itself. Two are not reported but stop the compiler as they are:
a string with a surrogate in it, and a number that is too long to be named in a report.
-/

namespace SpriteScript

/-- In what way a token does not belong where it stands. -/
inductive Misfit where
  | command
  | literal
  | punctuation
  | group
  | token
deriving DecidableEq, Repr

def Misfit.text : Misfit → String
  | .command => "Expected a command name"
  | .literal => "Unexpected literal"
  | .punctuation => "Unexpected punctuation"
  | .group => "Only parenthesized groups are supported"
  | .token => "Unexpected token"

inductive SourceError where
  | lexical (cause : LexError)
  | unexpected (misfit : Misfit) (found : Token)
  /-- No name stands where one is needed; nothing may stand there at all. -/
  | expectedIdentifier (found? : Option Token)
  | unknownCommand (name : String)
  | unboundName (name : String)
  | encoding (cause : EncodeError)
  /-- A string with a surrogate, which UTF-8 cannot write. -/
  | surrogate
deriving Repr

namespace SourceError

def message : SourceError → String
  | lexical cause => cause.message
  | unexpected misfit found => s!"{misfit.text}: {found.render}"
  | expectedIdentifier none => "Expected an identifier, found end of line"
  | expectedIdentifier (some found) => s!"Expected an identifier, found {found.render}"
  | unknownCommand name => s!"Unknown command: {name}"
  | unboundName name => s!"Unable to find variable named '{name}'"
  | encoding cause => cause.message
  | surrogate => "surrogates not allowed"

/-- Whether the error is reported, with its line. -/
def isReported : SourceError → Bool
  | surrogate | encoding .unwritableNumber | encoding .tooWide => false
  | _ => true

/-- Whether a report shows the text of the line. -/
def showsLine : SourceError → Bool
  | unboundName _ => false
  | e => e.isReported

/-- The message of an error in the given line. -/
def messageIn (line : String) (e : SourceError) : String :=
  let code := String.ofList (Text.strip line.toList)
  if e.showsLine && !code.isEmpty then s!"{e.message}\nCode: {code}" else e.message

end SourceError

end SpriteScript
