/-!
# About

A short text that states what is fixed about the format of scripts and programs.
-/

namespace SpriteScript.About

def version : String := "0.2.0"

def lines : List String := [
  "LitScript " ++ version,
  "Byte order: big-endian for opcodes, ids and literal payloads.",
  "Opcodes: 16-bit words; 0 terminates evaluation.",
  "Literal tags: 1 u8, 2 i16, 3 i32, 4 string, 5 tuple, 6 variable invocation.",
  "Variables: ids start at 1 and are never reused within a compilation.",
  "Resources: dependencies receive ids before their dependents; a resource " ++
    "unused for a full frame generation is evicted."]

def text : String := String.intercalate "\n" lines

/-- What is written out, if it is asked for. -/
def output (wanted : Bool) : String := if wanted then text ++ "\n" else ""

end SpriteScript.About
