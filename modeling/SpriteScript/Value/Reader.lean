import SpriteScript.Text.Utf8

/-!
# Readers

A reader takes bytes off the front of a byte string and leaves the rest; it leaves a rest after a
failure too, so that the place of a failure is known.
-/

namespace SpriteScript

/-- Why bytes cannot be read. -/
inductive DecodeError where
  /-- Fewer bytes are left than are needed. -/
  | truncated (expected found : Nat)
  /-- No value begins with this byte. -/
  | unknownTag (tag : UInt8)
  /-- The bytes of a text are not UTF-8. -/
  | badText (fault : Text.Utf8.Fault)
deriving DecidableEq, Repr

def DecodeError.message : DecodeError → String
  | .truncated expected found =>
    s!"Unexpected end of bytecode: expected {expected} byte(s), found {found}"
  | .unknownTag tag => s!"Unexpected byte while reading bytecode: 0X{Text.upperHex 2 tag.toNat}"
  | .badText fault => s!"Error converting from UTF-8: {fault.message}"

/-- Reads from the front of a byte string and leaves the rest. -/
abbrev Reader (ε α : Type) := EStateM ε Bytes α

namespace Reader

/-- Takes `n` bytes; if fewer are left, it takes those and fails. -/
def take (n : Nat) : Reader DecodeError Bytes := fun bs =>
  let taken := bs.take n
  if taken.length = n then .ok taken (bs.drop n)
  else .error (.truncated n taken.length) (bs.drop n)

/-- Takes one byte. -/
def byte : Reader DecodeError UInt8 := fun bs =>
  match bs with
  | [] => .error (.truncated 1 0) []
  | b :: bs => .ok b bs

/-- Takes an unsigned number of `width` bytes. -/
def unsigned (width : Nat) : Reader DecodeError Nat := ofBigEndian <$> take width

/-- Takes a signed number of `width` bytes. -/
def signed (width : Nat) : Reader DecodeError Int := unwrap (8 * width) <$> unsigned width

/-- Runs a reader `n` times and collects what it reads. -/
def times {ε α : Type} (r : Reader ε α) : Nat → Reader ε (List α)
  | 0 => pure []
  | n + 1 => do
    let a ← r
    return a :: (← times r n)

/-- Reads as `r` does, with its failures renamed. -/
def mapError {ε ε' α : Type} (f : ε → ε') (r : Reader ε α) : Reader ε' α := fun bs =>
  match r bs with
  | .ok a rest => .ok a rest
  | .error e rest => .error (f e) rest

/-- A verdict that takes no bytes. -/
def ofExcept {ε α : Type} : Except ε α → Reader ε α
  | .ok a => pure a
  | .error e => throw e

end Reader

end SpriteScript
