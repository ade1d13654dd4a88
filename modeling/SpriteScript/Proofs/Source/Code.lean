import SpriteScript.Proofs.Source.Command

/-!
# The code of a script

The bytes of a script that compiles fall into pieces, one for each line that is not blank
(`compile_eq_code`). A piece is an opcode, an id if the command binds one, and the bytes of values,
one for each operand of the line.
-/

namespace SpriteScript

open EState

/-- What a line that is not blank contributes. -/
structure LineCode where
  text : String
  op : Opcode
  /-- How many operands the line has, whether its command takes that many or not. -/
  operands : Nat
  bytes : Bytes

/-- The bytes of a line are an opcode, an id if the command binds one, and written values. -/
def LineCode.Spelled (c : LineCode) : Prop :=
  c.op ≠ .stop ∧ ∃ (owner payload : Bytes) (vs : List Value),
    c.bytes = Source.wordBytes c.op ++ (owner ++ payload) ∧
      owner.length = (if c.op.binds then 4 else 0) ∧ Value.encodeAll vs = .ok payload ∧
      vs.length = c.operands

namespace Source

variable [Text.CharacterNames]

def lineCode? (s : Scope) (line : String) : Option LineCode :=
  match Token.ofLine (stripComment line) with
  | .ok (.identifier name :: ts) =>
    (Opcode.ofKeyword? name).map fun op =>
      { text := line, op, operands := Operand.count (if op.binds then ts.tail else ts),
        bytes := (compileLine s line).bytes }
  | _ => none

def codeFrom (s : Scope) : List String → List LineCode
  | [] => []
  | line :: lines =>
    (lineCode? s (withoutEnd line)).toList ++
      codeFrom (compileLine s (withoutEnd line)).scope lines

def code (source : String) : List LineCode := codeFrom {} (lines source)

/-! ## One line -/

theorem lineCode?_of_isBlank {s : Scope} {line : String} (h : isBlank line = true) :
    lineCode? s line = none := by
  unfold isBlank at h
  cases hl : Token.ofLine (stripComment line) with
  | error e => simp [hl] at h
  | ok ts =>
    cases ts with
    | nil => simp [lineCode?, hl]
    | cons t ts => simp [hl] at h

/-- The piece of a line has the opcode and the operands of its command. -/
theorem lineCode?_of_command? {s : Scope} {line : String} {c : Command}
    (h : command? line = some c) :
    lineCode? s line =
      some ⟨line, c.op, Operand.count c.operands, (compileLine s line).bytes⟩ := by
  unfold command? at h
  split at h
  · rename_i name ts hl
    split at h
    · rename_i op target rest hop
      cases h
      by_cases hb : op.binds = true <;> simp [lineCode?, hl, hop, hb]
    · rename_i op hop _
      split at h
      · cases h
      · rename_i hb
        cases h
        simp [lineCode?, hl, hop, hb]
    · cases h
  · cases h

/-- What a command is written as is spelled as it should be. -/
theorem spelled_of_writes {s : Scope} {c : Command} {vs : List Value} {bs : Bytes} {text : String}
    (h : c.Writes s vs bs) : LineCode.Spelled ⟨text, c.op, Operand.count c.operands, bs⟩ := by
  obtain ⟨payload, hvs, hbytes⟩ := h.bytes
  exact ⟨h.op, c.ownerBytes s, payload, vs, hbytes, h.length_ownerBytes, hvs,
    by rw [← h.denotes.length_eq, Draft.length_drafts]⟩

/-! ## Whole scripts -/

theorem compileFrom_eq_codeFrom {s : Scope} {n : Nat} {lines : List String}
    (h : (compileFrom s n lines).error? = none) :
    (compileFrom s n lines).bytes = (codeFrom s lines).flatMap (·.bytes) ∧
      (codeFrom s lines).map (·.text) = (lines.map withoutEnd).filter (!isBlank ·) ∧
      ∀ c ∈ codeFrom s lines, c.Spelled := by
  induction lines generalizing s n with
  | nil => exact ⟨rfl, rfl, by simp [codeFrom]⟩
  | cons line lines ih =>
    obtain ⟨hline, hlines, hbytes⟩ := compileFrom_cons_of_ok h
    obtain ⟨ihbytes, ihtext, ihspelled⟩ := ih hlines
    rw [hbytes, ihbytes, List.map_cons, codeFrom]
    obtain ⟨hb, -, hempty, -⟩ | ⟨hb, c, vs, hc, hwrites, -⟩ := compileLine_ok hline
    · -- a blank line writes nothing and has no piece
      rw [hempty, lineCode?_of_isBlank hb, List.filter_cons_of_neg (by simp [hb])]
      exact ⟨rfl, ihtext, ihspelled⟩
    · rw [lineCode?_of_command? hc, List.filter_cons_of_pos (by simp [hb]), ← ihtext]
      refine ⟨by simp, by simp, ?_⟩
      intro d hd
      rcases List.mem_cons.mp hd with rfl | hd
      · exact spelled_of_writes hwrites
      · exact ihspelled d hd

/-- The bytes of a script are the pieces of its lines that are not blank, in order. -/
theorem compile_eq_code {source : String} (h : (compile source).error? = none) :
    (compile source).bytes = (code source).flatMap (·.bytes) ∧
      (code source).map (·.text) = ((lines source).map withoutEnd).filter (!isBlank ·) ∧
      ∀ c ∈ code source, c.Spelled :=
  compileFrom_eq_codeFrom h

end Source

end SpriteScript
