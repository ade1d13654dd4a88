import SpriteScript.Proofs.Run.Effect

/-!
# Instructions

An instruction as it stands in the bytes: an opcode, the id it binds, and the values after it. How
many values it takes depends on the opcode alone (`Opcode.arity`), and what it does in a store is a
relation (`Instruction.Means`). Reading the operands one by one, each with its check, yields such
an effect of the values that stand there (`means_of_read`); so later proofs open neither the
readers nor the checks.
-/

namespace SpriteScript

open EState

def Opcode.arity : Opcode → Nat
  | stop => 0
  | gamedef | define => 1
  | log | depend => 2
  | createTexture | colorId => 3
  | drawPixel => 4
  | drawRectangle => 6

structure Instruction where
  op : Opcode
  /-- The id that it binds, if it binds one. -/
  owner? : Option Nat
  operands : List Value

def Opcode.instruction (op : Opcode) : Reader DecodeError Instruction := do
  let owner? ← if op.binds then some <$> Reader.unsigned 4 else pure none
  return ⟨op, owner?, ← Reader.times Value.decode op.arity⟩

/-- What an instruction does in a store. An instruction that does nothing of the kind fails. -/
inductive Instruction.Means (s : Store) : Instruction → Effect → Prop where
  | gamedef {v : Value} {name : String} :
      s.asText v = .ok name → Means s ⟨.gamedef, none, [v]⟩ (.name name)
  | define {id : Nat} {v : Value} : Means s ⟨.define, some id, [v]⟩ (.bind id v)
  | log {f a : Value} {format line : String} {items : List Value} {texts : List String} :
      s.asText f = .ok format → s.asTuple a = .ok items → items.mapM s.text = .ok texts →
      LogFormat.fill format texts = .ok line →
      Means s ⟨.log, none, [f, a]⟩ (.log line (LogFormat.warnings format texts))
  | createTexture {id : Nat} {w h c : Value} {width height : Int} {background : Color}
      {m : Image} :
      s.narrow .imageWidth w = .ok width → s.narrow .imageHeight h = .ok height →
      s.asColor c = .ok background → Image.blank width height background = .ok m →
      Means s ⟨.createTexture, some id, [w, h, c]⟩ (.create id m)
  | colorId {t i c : Value} {image index : Int} {color : Color} :
      s.asTarget t = .ok image → s.narrow .colorIndex i = .ok index → s.asColor c = .ok color →
      Means s ⟨.colorId, none, [t, i, c]⟩ (.setColor image index color)
  | drawPixel {t x y c : Value} {image px py : Int} {color : Color} :
      s.asTarget t = .ok image → s.narrow .x x = .ok px → s.narrow .y y = .ok py →
      s.asDrawColor image c = .ok color →
      Means s ⟨.drawPixel, none, [t, x, y, c]⟩ (.draw image ⟨.pixel px py, color⟩)
  | drawRectangle {t x y w h c : Value} {image px py width height : Int} {color : Color} :
      s.asTarget t = .ok image → s.narrow .x x = .ok px → s.narrow .y y = .ok py →
      s.narrow .width w = .ok width → s.narrow .height h = .ok height →
      s.asDrawColor image c = .ok color →
      Means s ⟨.drawRectangle, none, [t, x, y, w, h, c]⟩
        (.draw image ⟨.rectangle px py width height, color⟩)
  | depend {a b : Value} {image dependency : Int} :
      s.asTarget a = .ok image → s.asTarget b = .ok dependency →
      Means s ⟨.depend, none, [a, b]⟩ (.depend image dependency)

/-! ## Readers of operands -/

namespace Reader

variable {ε ε' α : Type}

theorem mapError_eq_ok_iff {f : ε → ε'} {r : Reader ε α} {a : α} {bs rest : Bytes} :
    mapError f r bs = .ok a rest ↔ r bs = .ok a rest := by
  unfold mapError
  cases r bs <;> simp

theorem ofExcept_eq_ok_iff {x : Except ε α} {a : α} {bs rest : Bytes} :
    ofExcept x bs = .ok a rest ↔ x = .ok a ∧ rest = bs := by
  cases x <;> simp [ofExcept, eq_comm]

theorem times_zero_eq_ok_iff {r : Reader ε α} {as : List α} {bs rest : Bytes} :
    times r 0 bs = .ok as rest ↔ as = [] ∧ rest = bs := by
  simp [times, eq_comm]

theorem times_succ_eq_ok_iff {r : Reader ε α} {n : Nat} {as : List α} {bs rest : Bytes} :
    times r (n + 1) bs = .ok as rest ↔
      ∃ a mid others, r bs = .ok a mid ∧ times r n mid = .ok others rest ∧ as = a :: others := by
  rw [times, bind_eq_ok_iff]
  simp only [bind_eq_ok_iff, pure_apply, EStateM.Result.ok.injEq]
  constructor
  · rintro ⟨a, mid, ha, others, _, hothers, rfl, rfl⟩
    exact ⟨a, mid, others, ha, hothers, rfl⟩
  · rintro ⟨a, mid, others, ha, hothers, rfl⟩
    exact ⟨a, mid, ha, others, rest, hothers, rfl, rfl⟩

theorem times_cons {r : Reader ε α} {n : Nat} {a : α} {as : List α} {bs mid rest : Bytes}
    (h : r bs = .ok a mid) (hs : times r n mid = .ok as rest) :
    times r (n + 1) bs = .ok (a :: as) rest :=
  times_succ_eq_ok_iff.mpr ⟨a, mid, as, h, hs, rfl⟩

theorem times_nil {r : Reader ε α} {bs : Bytes} : times r 0 bs = .ok [] bs := rfl

end Reader

namespace OperandReader

theorem checked_eq_ok_iff {α : Type} {check : Value → Except SemanticError α} {a : α}
    {bs rest : Bytes} :
    checked check bs = .ok a rest ↔
      ∃ v, Value.decode bs = .ok v rest ∧ check v = .ok a := by
  unfold checked
  rw [bind_eq_ok_iff]
  simp only [Reader.mapError_eq_ok_iff, Reader.ofExcept_eq_ok_iff, mapError_eq_ok_iff]
  constructor
  · rintro ⟨v, _, hv, ha, rfl⟩
    exact ⟨v, hv, ha⟩
  · rintro ⟨v, hv, ha⟩
    exact ⟨v, rest, hv, ha, rfl⟩

theorem id_eq_ok_iff {id : Int} {bs rest : Bytes} :
    OperandReader.id bs = .ok id rest ↔
      ∃ n : Nat, Reader.unsigned 4 bs = .ok n rest ∧ (n : Int) = id := by
  unfold OperandReader.id
  rw [Reader.mapError_eq_ok_iff, map_eq_ok_iff]
  rfl

end OperandReader

namespace Opcode

theorem instruction_eq_ok_iff {op : Opcode} (hb : op.binds = false) {i : Instruction}
    {bs rest : Bytes} :
    op.instruction bs = .ok i rest ↔
      ∃ vs, Reader.times Value.decode op.arity bs = .ok vs rest ∧ i = ⟨op, none, vs⟩ := by
  simp only [instruction, hb, Bool.false_eq_true, if_false, pure_bind, bind_pure_comp,
    map_eq_ok_iff, @eq_comm _ i]

theorem instruction_eq_ok_iff_of_binds {op : Opcode} (hb : op.binds = true) {i : Instruction}
    {bs rest : Bytes} :
    op.instruction bs = .ok i rest ↔
      ∃ id mid vs, Reader.unsigned 4 bs = .ok id mid ∧
        Reader.times Value.decode op.arity mid = .ok vs rest ∧ i = ⟨op, some id, vs⟩ := by
  simp only [instruction, hb, if_true, bind_map_left, bind_pure_comp, bind_eq_ok_iff,
    map_eq_ok_iff, @eq_comm _ i, exists_and_left]

/-- What reading does is what the instruction in the bytes means. -/
theorem means_of_read {s : Store} {op : Opcode} {e : Effect} {bs rest : Bytes}
    (h : op.read s bs = .ok e rest) : ∃ i, op.instruction bs = .ok i rest ∧ i.Means s e := by
  cases op with
  | stop => simp [read] at h
  | gamedef =>
    simp only [read, map_eq_ok_iff, OperandReader.checked_eq_ok_iff] at h
    obtain ⟨name, ⟨v, hv, hname⟩, rfl⟩ := h
    exact ⟨_, (instruction_eq_ok_iff rfl).mpr ⟨[v], Reader.times_cons hv Reader.times_nil, rfl⟩,
      .gamedef hname⟩
  | define =>
    simp only [read, OperandReader.value, bind_eq_ok_iff, OperandReader.id_eq_ok_iff,
      OperandReader.checked_eq_ok_iff, pure_apply, EStateM.Result.ok.injEq,
      Except.ok.injEq] at h
    obtain ⟨_, mid, ⟨id, hid, rfl⟩, _, _, ⟨v, hv, rfl⟩, rfl, rfl⟩ := h
    exact ⟨_, (instruction_eq_ok_iff_of_binds rfl).mpr
      ⟨id, mid, [v], hid, Reader.times_cons hv Reader.times_nil, rfl⟩, .define⟩
  | log =>
    simp only [read, bind_eq_ok_iff, OperandReader.checked_eq_ok_iff, Reader.ofExcept_eq_ok_iff,
      mapError_eq_ok_iff, except_bind_eq_ok_iff] at h
    obtain ⟨format, _, ⟨f, hf, hformat⟩, items, _, ⟨a, ha, hitems⟩, ⟨texts, htexts, line, hline,
      he⟩, rfl⟩ := h
    cases he
    exact ⟨_, (instruction_eq_ok_iff rfl).mpr
      ⟨[f, a], Reader.times_cons hf (Reader.times_cons ha Reader.times_nil), rfl⟩,
      .log hformat hitems htexts hline⟩
  | createTexture =>
    simp only [read, OperandReader.number, OperandReader.color, bind_eq_ok_iff,
      OperandReader.id_eq_ok_iff, OperandReader.checked_eq_ok_iff, Reader.ofExcept_eq_ok_iff,
      mapError_eq_ok_iff, except_map_eq_ok_iff] at h
    obtain ⟨_, mid, ⟨id, hid, rfl⟩, width, _, ⟨w, hw, hwidth⟩, height, _, ⟨h, hh, hheight⟩,
      background, _, ⟨c, hc, hbackground⟩, ⟨m, hm, rfl⟩, rfl⟩ := h
    exact ⟨_, (instruction_eq_ok_iff_of_binds rfl).mpr ⟨id, mid, [w, h, c], hid,
      Reader.times_cons hw (Reader.times_cons hh (Reader.times_cons hc Reader.times_nil)), rfl⟩,
      .createTexture hwidth hheight hbackground hm⟩
  | colorId =>
    simp only [read, OperandReader.target, OperandReader.number, OperandReader.color,
      bind_eq_ok_iff, OperandReader.checked_eq_ok_iff, pure_apply,
      EStateM.Result.ok.injEq] at h
    obtain ⟨image, _, ⟨t, ht, himage⟩, index, _, ⟨i, hi, hindex⟩, color, _, ⟨c, hc, hcolor⟩, rfl,
      rfl⟩ := h
    exact ⟨_, (instruction_eq_ok_iff rfl).mpr ⟨[t, i, c],
      Reader.times_cons ht (Reader.times_cons hi (Reader.times_cons hc Reader.times_nil)), rfl⟩,
      .colorId himage hindex hcolor⟩
  | drawPixel =>
    simp only [read, OperandReader.drawing, OperandReader.target, OperandReader.number,
      bind_eq_ok_iff, OperandReader.checked_eq_ok_iff, pure_apply,
      EStateM.Result.ok.injEq] at h
    obtain ⟨image, _, ⟨t, ht, himage⟩, _, _, ⟨px, _, ⟨x, hx, hpx⟩, py, _, ⟨y, hy, hpy⟩, rfl,
      rfl⟩, color, _, ⟨c, hc, hcolor⟩, rfl, rfl⟩ := h
    exact ⟨_, (instruction_eq_ok_iff rfl).mpr ⟨[t, x, y, c], Reader.times_cons ht
      (Reader.times_cons hx (Reader.times_cons hy (Reader.times_cons hc Reader.times_nil))), rfl⟩,
      .drawPixel himage hpx hpy hcolor⟩
  | drawRectangle =>
    simp only [read, OperandReader.drawing, OperandReader.target, OperandReader.number,
      bind_eq_ok_iff, OperandReader.checked_eq_ok_iff, pure_apply,
      EStateM.Result.ok.injEq] at h
    obtain ⟨image, _, ⟨t, ht, himage⟩, _, _, ⟨px, _, ⟨x, hx, hpx⟩, py, _, ⟨y, hy, hpy⟩, width, _,
      ⟨w, hw, hwidth⟩, height, _, ⟨h, hh, hheight⟩, rfl, rfl⟩, color, _, ⟨c, hc, hcolor⟩, rfl,
      rfl⟩ := h
    exact ⟨_, (instruction_eq_ok_iff rfl).mpr ⟨[t, x, y, w, h, c], Reader.times_cons ht
      (Reader.times_cons hx (Reader.times_cons hy (Reader.times_cons hw (Reader.times_cons hh
      (Reader.times_cons hc Reader.times_nil))))), rfl⟩,
      .drawRectangle himage hpx hpy hwidth hheight hcolor⟩
  | depend =>
    simp only [read, OperandReader.target, bind_eq_ok_iff, OperandReader.checked_eq_ok_iff,
      pure_apply, EStateM.Result.ok.injEq] at h
    obtain ⟨image, _, ⟨a, ha, himage⟩, dependency, _, ⟨b, hb, hdependency⟩, rfl, rfl⟩ := h
    exact ⟨_, (instruction_eq_ok_iff rfl).mpr
      ⟨[a, b], Reader.times_cons ha (Reader.times_cons hb Reader.times_nil), rfl⟩,
      .depend himage hdependency⟩

end Opcode

end SpriteScript
