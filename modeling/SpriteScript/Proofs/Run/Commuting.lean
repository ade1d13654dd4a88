import SpriteScript.Proofs.Run.Completion
import SpriteScript.Proofs.Store.Separate

/-!
# Instructions on different images

An instruction that colours an image, draws on it or relates it to another one changes what belongs
to that image and nothing else (`Effect.aside_apply`), and of other images it sees only that they
are there. So two such instructions on different images can be carried out in either order
(`Machine.run_commutes`), whatever aliases and shared values they go through.
-/

namespace SpriteScript

open EState

def Opcode.isOnImage : Opcode → Bool
  | colorId | drawPixel | drawRectangle | depend => true
  | _ => false

def Effect.image? : Effect → Option Int
  | setColor image _ _ | draw image _ | depend image _ => some image
  | _ => none

/-- The first operand of an instruction leads to the image that it changes something about. -/
def Instruction.IsOn (i : Instruction) (s : Store) (image : Int) : Prop :=
  i.op.isOnImage = true ∧
    ∃ id others, i.operands = .reference id :: others ∧ s.resolveId id = .ok image

/-- The bytes are one instruction, and on the machine it is carried out. -/
structure Machine.Succeeds (m : Machine) (bs : Bytes) (i : Instruction) : Prop where
  front : Instruction.front? bs = some i
  completed : (m.step bs).outcome = .completed
  rest : (m.step bs).rest = []

variable {s t : Store} {e f : Effect} {i j : Instruction} {image other : Int}

/-! ## Effects on images -/

theorem Store.resolveId_of_asTarget {id : Int} (h : s.asTarget (.reference id) = .ok image) :
    s.resolveId id = .ok image := by
  simp only [asTarget, except_bind_eq_ok_iff] at h
  obtain ⟨target, htarget, _, -, _, -, h⟩ := h
  cases h
  exact htarget

theorem Instruction.Means.image?_eq (h : i.Means s e) (hi : i.IsOn s image) :
    e.image? = some image := by
  obtain ⟨hop, id, others, hoperands, hid⟩ := hi
  have htarget : ∀ {x : Int}, s.asTarget (.reference id) = .ok x → x = image := by
    intro x hx
    have hboth := (Store.resolveId_of_asTarget hx).symm.trans hid
    rwa [Except.ok.injEq] at hboth
  cases h with
  | gamedef => cases hop
  | define => cases hop
  | log => cases hop
  | createTexture => cases hop
  | colorId ht =>
    cases hoperands
    exact congrArg some (htarget ht)
  | drawPixel ht =>
    cases hoperands
    exact congrArg some (htarget ht)
  | drawRectangle ht =>
    cases hoperands
    exact congrArg some (htarget ht)
  | depend ht =>
    cases hoperands
    exact congrArg some (htarget ht)

namespace Effect

theorem aside_apply (h : e.image? = some image) (m : Machine) :
    m.store.Aside image (e.apply m).store := by
  cases e with
  | setColor x index c =>
    cases h
    exact m.store.aside_setColor image index c
  | draw x d =>
    cases h
    exact m.store.aside_draw image d
  | depend x dependency =>
    cases h
    exact m.store.aside_addDependency image dependency
  | _ => cases h

/-- Effects on two images can come in either order. Each kind of effect has a part of the store to
itself, and effects of one kind change it under different ids. -/
theorem after_comm (he : e.image? = some image) (hf : f.image? = some other) (hne : image ≠ other)
    (m : Machine) : (m.after e).after f = (m.after f).after e := by
  cases e with
  | setColor x index c =>
    cases he
    cases f with
    | setColor y index' c' =>
      cases hf
      simp only [Machine.after, apply, Store.setColor_comm _ hne]
    | draw => rfl
    | depend => rfl
    | _ => cases hf
  | draw x d =>
    cases he
    cases f with
    | setColor => rfl
    | draw y d' =>
      cases hf
      simp only [Machine.after, apply, Store.draw_comm _ hne]
    | depend => rfl
    | _ => cases hf
  | depend x dependency =>
    cases he
    cases f with
    | setColor => rfl
    | draw => rfl
    | depend y dependency' =>
      cases hf
      simp only [Machine.after, apply, Store.addDependency_comm _ hne]
    | _ => cases hf
  | _ => cases he

end Effect

/-! ## Reading -/

theorem Opcode.op_of_instruction {op : Opcode} {bs rest : Bytes}
    (h : op.instruction bs = .ok i rest) : i.op = op := by
  cases hb : op.binds with
  | false =>
    obtain ⟨vs, -, rfl⟩ := (instruction_eq_ok_iff hb).mp h
    rfl
  | true =>
    obtain ⟨id, mid, vs, -, -, rfl⟩ := (instruction_eq_ok_iff_of_binds hb).mp h
    rfl

theorem OperandReader.drawing_of_aside (h : s.Aside image t) {shape : OperandReader Shape}
    {bs rest : Bytes} (hread : drawing s shape bs = .ok f rest) (hf : f.image? ≠ some image) :
    drawing t shape bs = .ok f rest := by
  simp only [drawing, target, bind_eq_ok_iff, pure_apply, EStateM.Result.ok.injEq] at hread ⊢
  obtain ⟨x, mid, hx, area, before, harea, c, after, hc, rfl, rfl⟩ := hread
  have hne : x ≠ image := fun heq => hf (congrArg some heq)
  rw [← h.asTarget_eq]
  refine ⟨x, mid, hx, area, before, harea, c, after, ?_, rfl, rfl⟩
  rwa [← h.asDrawColor_eq hne]

/-- An instruction on one image is read as before when something about another one has changed. -/
theorem Opcode.read_of_aside (h : s.Aside image t) {op : Opcode} (hop : op.isOnImage = true)
    {bs rest : Bytes} (hread : op.read s bs = .ok f rest) (hf : f.image? ≠ some image) :
    op.read t bs = .ok f rest := by
  have hnumber : OperandReader.number t = OperandReader.number s := by
    funext q
    rw [OperandReader.number, OperandReader.number, h.narrow_eq]
  have htarget : OperandReader.target t = OperandReader.target s := by
    rw [OperandReader.target, OperandReader.target, h.asTarget_eq]
  have hcolor : OperandReader.color t = OperandReader.color s := by
    rw [OperandReader.color, OperandReader.color, h.asColor_eq]
  cases op with
  | colorId =>
    simp only [read, hnumber, htarget, hcolor] at hread ⊢
    exact hread
  | drawPixel =>
    simp only [read, hnumber] at hread ⊢
    exact OperandReader.drawing_of_aside h hread hf
  | drawRectangle =>
    simp only [read, hnumber] at hread ⊢
    exact OperandReader.drawing_of_aside h hread hf
  | depend =>
    simp only [read, htarget] at hread ⊢
    exact hread
  | _ => cases hop

/-! ## Runs -/

namespace Machine

variable {m n : Machine} {a b : Bytes}

/-- An instruction that succeeds has an effect, and has it also when something about another image
has changed. -/
theorem Succeeds.exists_effect (h : m.Succeeds a i) (hi : i.IsOn m.store image) :
    ∃ e, e.image? = some image ∧ m.step a = m.complete i.op [] e ∧
      ∀ (n : Machine) (other : Int), m.store.Aside other n.store → image ≠ other →
        n.step a = n.complete i.op [] e := by
  obtain ⟨hfront, hcompleted, hrest⟩ := h
  obtain ⟨p, q, mid, op, e, rest, rfl, hop, hread, hstep⟩ := read_of_completed hcompleted
  obtain ⟨k, hk, hmeans⟩ := Opcode.means_of_read hread
  simp only [Instruction.front?, hop, hk, Option.some.injEq] at hfront
  subst hfront
  obtain rfl := Opcode.op_of_instruction hk
  rw [hstep] at hrest
  obtain rfl : rest = [] := hrest
  have himage := hmeans.image?_eq hi
  refine ⟨e, himage, hstep, fun n other haside hne => ?_⟩
  -- what is different on `n` is about an image that the effect is not about
  have hother : e.image? ≠ some other := by
    rw [himage, ne_eq, Option.some.injEq]
    exact hne
  exact step_of_read hop (Opcode.read_of_aside haside hi.1 hread hother)

/-- What a run over an instruction that succeeds and other bytes comes to. -/
theorem Succeeds.append (h : m.Succeeds a i) (hstep : m.step a = m.complete i.op [] e)
    (tail : Bytes) :
    (m.Exhausts (a ++ tail) ↔ (m.after e).Exhausts tail) ∧
      (m.run (a ++ tail)).error? = ((m.after e).run tail).error? ∧
      m.executed (a ++ tail) = ⟨m.store, i⟩ :: (m.after e).executed tail ∧
      (m.run (a ++ tail)).machine = ((m.after e).run tail).machine := by
  obtain ⟨taken, htaken, hframed⟩ := exists_framed h.completed
  rw [h.rest, List.append_nil] at htaken
  subst htaken
  obtain ⟨k, hk⟩ := hframed.front
  have hself := hk []
  rw [List.append_nil, h.front, Option.some.injEq] at hself
  have hmachine : (m.step a).machine = m.after e := by rw [hstep, complete_machine]
  rw [← hmachine]
  refine ⟨hframed.exhausts_append, hframed.error?_run_append tail, ?_,
    hframed.machine_run_append tail⟩
  rw [executed_of_front (hframed.outcome_step_append tail) (hk tail), hframed.whole, hself]

/-- Two instructions, of which the second has the same effect when the first one is done. -/
theorem Succeeds.append_both (ha : m.Succeeds a i) (hb : m.Succeeds b j)
    (hfirst : m.step a = m.complete i.op [] e)
    (hsecond : (m.after e).step b = (m.after e).complete j.op [] f) :
    (m.Exhausts (a ++ b) ∧ (m.run (a ++ b)).error? = none ∧
      (m.executed (a ++ b)).map (·.instruction) = [i, j]) ∧
      (m.run (a ++ b)).machine = (m.after e).after f := by
  have hb' : (m.after e).Succeeds b j := ⟨hb.front, by rw [hsecond]; rfl, by rw [hsecond]; rfl⟩
  obtain ⟨hexhausts, herror, hexecuted, hmachine⟩ := ha.append hfirst b
  obtain ⟨hexhausts', herror', hexecuted', hmachine'⟩ := hb'.append hsecond []
  rw [List.append_nil] at hexhausts' herror' hexecuted' hmachine'
  refine ⟨⟨hexhausts.mpr (hexhausts'.mpr (exhausts_nil _)), herror.trans herror', ?_⟩,
    hmachine.trans hmachine'⟩
  rw [hexecuted, hexecuted']
  rfl

/-- Instructions on different images commute: if each of two succeeds alone, they succeed one after
the other in either order, and leave the same machine. -/
theorem run_commutes (ha : m.Succeeds a i) (hb : m.Succeeds b j) (hi : i.IsOn m.store image)
    (hj : j.IsOn m.store other) (hne : image ≠ other) :
    (m.Exhausts (a ++ b) ∧ (m.run (a ++ b)).error? = none ∧
      (m.executed (a ++ b)).map (·.instruction) = [i, j]) ∧
    (m.Exhausts (b ++ a) ∧ (m.run (b ++ a)).error? = none ∧
      (m.executed (b ++ a)).map (·.instruction) = [j, i]) ∧
    (m.run (a ++ b)).machine = (m.run (b ++ a)).machine := by
  obtain ⟨e, he, hfirst, hfirst'⟩ := ha.exists_effect hi
  obtain ⟨f, hf, hsecond, hsecond'⟩ := hb.exists_effect hj
  obtain ⟨hab, hab'⟩ := ha.append_both hb hfirst (hsecond' _ _ (e.aside_apply he m) hne.symm)
  obtain ⟨hba, hba'⟩ := hb.append_both ha hsecond (hfirst' _ _ (f.aside_apply hf m) hne)
  refine ⟨hab, hba, ?_⟩
  rw [hab', hba', Effect.after_comm he hf hne]

/-- One image is coloured through an alias and the other one is drawn on, and both take the number
of one variable for an index. -/
theorem run_commutes_shared :
    let done : Bytes := [0, 4, 0, 0, 0, 1, 1, 2, 1, 2, 5, 3, 1, 1, 1, 1, 1, 1,
      0, 4, 0, 0, 0, 2, 1, 2, 1, 2, 5, 3, 1, 1, 1, 1, 1, 1, 0, 2, 0, 0, 0, 3, 6, 0, 0, 0, 1,
      0, 2, 0, 0, 0, 4, 1, 9, 0, 5, 6, 0, 0, 0, 2, 6, 0, 0, 0, 4, 5, 3, 1, 5, 1, 5, 1, 5]
    let m := (run {} done).machine
    let color : Instruction := ⟨.colorId, none,
      [.reference 3, .reference 4, .tuple [.number .w8 1, .number .w8 2, .number .w8 3]]⟩
    let pixel : Instruction :=
      ⟨.drawPixel, none, [.reference 2, .number .w8 0, .number .w8 1, .reference 4]⟩
    let a : Bytes := [0, 5, 6, 0, 0, 0, 3, 6, 0, 0, 0, 4, 5, 3, 1, 1, 1, 2, 1, 3]
    let b : Bytes := [0, 6, 6, 0, 0, 0, 2, 1, 0, 1, 1, 6, 0, 0, 0, 4]
    (m.Succeeds a color ∧ m.Succeeds b pixel ∧ color.IsOn m.store 1 ∧ pixel.IsOn m.store 2) ∧
      (m.run (a ++ b)).error? = none ∧ (m.run (b ++ a)).error? = none ∧
        (m.run (a ++ b)).machine = (m.run (b ++ a)).machine := by
  intro done m color pixel a b
  have ha : m.Succeeds a color := ⟨by cbv, by decide +kernel, by decide +kernel⟩
  have hb : m.Succeeds b pixel := ⟨by cbv, by decide +kernel, by decide +kernel⟩
  have hcolor : color.IsOn m.store 1 := ⟨rfl, 3, _, rfl, by decide +kernel⟩
  have hpixel : pixel.IsOn m.store 2 := ⟨rfl, 2, _, rfl, by decide +kernel⟩
  obtain ⟨⟨-, hfirst, -⟩, ⟨-, hsecond, -⟩, hmachine⟩ :=
    run_commutes ha hb hcolor hpixel (by decide)
  exact ⟨⟨ha, hb, hcolor, hpixel⟩, hfirst, hsecond, hmachine⟩

end Machine

end SpriteScript
