import SpriteScript.Proofs.Run.Renaming
import SpriteScript.Proofs.Store.Inlining

/-!
# Instructions with inlined variables

An instruction does the same when references in its operands are replaced by what they stand for
(`Machine.step_inlines`). Only one that binds a variable to its operand is apart, because it does
not look at what it binds. The two instructions are read side by side, operand by operand, and every
check on the way says the same of both.
-/

namespace SpriteScript

open EState

def Opcode.slots : Opcode → List Slot
  | stop => []
  | gamedef | define => [.value]
  | log => [.value, .value]
  | createTexture => [.value, .value, .value]
  | colorId => [.target, .value, .value]
  | drawPixel => [.target, .value, .value, .value]
  | drawRectangle => [.target, .value, .value, .value, .value, .value]
  | depend => [.target, .target]

/-- An instruction in whose operands references are replaced by what they stand for. -/
structure Instruction.Inlines (s : Store) (i j : Instruction) : Prop where
  op : j.op = i.op
  owner? : j.owner? = i.owner?
  operands : s.InlinesAll i.op.slots i.operands j.operands

/-- Bytes that are values and a tail, and bytes that are other values and the same tail. -/
def Beside (tail : Bytes) (vs ws : List Value) (bs cs : Bytes) : Prop :=
  ∃ payload payload', Value.encodeAll vs = .ok payload ∧ Value.encodeAll ws = .ok payload' ∧
    bs = payload ++ tail ∧ cs = payload' ++ tail

/-- Readers that tell the same of bytes that are related. -/
abbrev OperandReader.Alike {α : Type} (pre : Bytes → Bytes → Prop) (r r' : OperandReader α)
    (post : Bytes → Bytes → Prop) : Prop :=
  EState.Parallel (fun e => e) (fun _ _ => True) pre (fun a => a) r r' post

variable {s : Store} {tail : Bytes} {v w : Value} {vs ws : List Value} {i j : Instruction}

/-! ## Reading -/

namespace OperandReader

theorem alike_checked {α : Type} {check check' : Value → Except SemanticError α}
    (h : check v = check' w) :
    Alike (Beside tail (v :: vs) (w :: ws)) (checked check) (checked check')
      (Beside tail vs ws) := by
  rintro bs cs ⟨payload, payload', hvs, hws, rfl, rfl⟩
  obtain ⟨first, rest, hv, hrest, rfl⟩ := Value.encodeAll_cons_eq_ok_iff.mp hvs
  obtain ⟨first', rest', hw, hrest', rfl⟩ := Value.encodeAll_cons_eq_ok_iff.mp hws
  rw [List.append_assoc, List.append_assoc]
  unfold checked
  rw [bind_of_ok (Reader.mapError_eq_ok_iff.mpr (Value.decode_append hv _)),
    bind_of_ok (Reader.mapError_eq_ok_iff.mpr (Value.decode_append hw _)), h]
  cases check' w with
  | ok a => exact .ok ⟨rest, rest', hrest, hrest', rfl, rfl⟩
  | error e => exact .error trivial

theorem alike_pure {α : Type} (a : α) (R : Bytes → Bytes → Prop) :
    Alike R (pure a : OperandReader α) (pure a) R :=
  .pure rfl fun _ _ hbs => hbs

/-- The id that an instruction binds stands in front of its operands. -/
theorem alike_id {k : Nat} (hk : (k : Int) ≤ maxId) :
    Alike (fun bs cs => ∃ rest rest', bs = bigEndian 4 k ++ rest ∧ cs = bigEndian 4 k ++ rest' ∧
      Beside tail vs ws rest rest') OperandReader.id OperandReader.id (Beside tail vs ws) := by
  rintro _ _ ⟨rest, rest', rfl, rfl, hrest⟩
  rw [id_append hk, id_append hk]
  exact .ok hrest

theorem alike_drawing {shape : OperandReader Shape} {a b : Value}
    (htarget : s.asTarget v = s.asTarget w)
    (hshape : Alike (Beside tail vs ws) shape shape (Beside tail [a] [b]))
    (hcolor : ∀ image, s.asDrawColor image a = s.asDrawColor image b) :
    Alike (Beside tail (v :: vs) (w :: ws)) (drawing s shape) (drawing s shape)
      (Beside tail [] []) :=
  (alike_checked htarget).bind fun image => hshape.bind fun _ =>
    (alike_checked (hcolor image)).bind fun _ => alike_pure _ _

/-- What is done with what a check found is as good as a part of the check. -/
theorem checked_bind_ofExcept {α β : Type} (check : Value → Except SemanticError α)
    (k : α → Except SemanticError β) :
    (checked check >>= fun a => Reader.ofExcept ((k a).mapError .semantic)) =
      checked fun v => check v >>= k := by
  unfold checked
  rw [bind_assoc]
  congr 1
  funext v
  dsimp only
  cases check v <;> rfl

end OperandReader

/-- The line of a log is made of the texts of the items, so it is the same. -/
theorem Store.log_inlines (hs : s.Acyclic) (h : s.Inlines .value v w) (format : String) :
    (do
      let items ← s.asTuple v
      let texts ← items.mapM s.text
      return Effect.log (← LogFormat.fill format texts) (LogFormat.warnings format texts)) =
    (do
      let items ← s.asTuple w
      let texts ← items.mapM s.text
      return Effect.log (← LogFormat.fill format texts) (LogFormat.warnings format texts)) := by
  refine (agree_asTuple hs h).bind_eq fun items items' hitems => ?_
  rw [mapM_text_inlines hs hitems]

open OperandReader in
/-- Reading two instructions of which one inlines variables of the other tells one effect. -/
theorem Opcode.alike_read (hs : s.Acyclic) {op : Opcode} (hb : op.binds = false)
    (h : s.InlinesAll op.slots vs ws) :
    Alike (Beside tail vs ws) (op.read s) (op.read s) (Beside tail [] []) := by
  have hvalue : ∀ {v w : Value}, s.Inlines .value v w → ∀ q, s.narrow q v = s.narrow q w :=
    fun h q => s.narrow_inlines hs h q
  cases op with
  | define => cases hb
  | createTexture => cases hb
  | stop => exact .throw rfl fun _ _ _ => trivial
  | gamedef =>
    match h with
    | .cons hname .nil => exact (alike_checked (s.asText_inlines hs hname)).map fun _ => rfl
  | log =>
    match h with
    | .cons hformat (.cons hitems .nil) =>
      refine (alike_checked (s.asText_inlines hs hformat)).bind fun format => ?_
      rw [checked_bind_ofExcept]
      exact alike_checked (s.log_inlines hs hitems format)
  | colorId =>
    match h with
    | .cons htarget (.cons hindex (.cons hcolor .nil)) =>
      exact (alike_checked (s.asTarget_inlines hs htarget)).bind fun _ =>
        (alike_checked (hvalue hindex _)).bind fun _ =>
          (alike_checked (s.asColor_inlines hs hcolor)).bind fun _ => alike_pure _ _
  | drawPixel =>
    match h with
    | .cons htarget (.cons hx (.cons hy (.cons hcolor .nil))) =>
      refine alike_drawing (s.asTarget_inlines hs htarget) ?_ (s.asDrawColor_inlines hs hcolor)
      exact (alike_checked (hvalue hx _)).bind fun _ =>
        (alike_checked (hvalue hy _)).bind fun _ => alike_pure _ _
  | drawRectangle =>
    match h with
    | .cons htarget (.cons hx (.cons hy (.cons hwidth (.cons hheight (.cons hcolor .nil))))) =>
      refine alike_drawing (s.asTarget_inlines hs htarget) ?_ (s.asDrawColor_inlines hs hcolor)
      exact (alike_checked (hvalue hx _)).bind fun _ =>
        (alike_checked (hvalue hy _)).bind fun _ =>
          (alike_checked (hvalue hwidth _)).bind fun _ =>
            (alike_checked (hvalue hheight _)).bind fun _ => alike_pure _ _
  | depend =>
    match h with
    | .cons hfirst (.cons hsecond .nil) =>
      exact (alike_checked (s.asTarget_inlines hs hfirst)).bind fun _ =>
        (alike_checked (s.asTarget_inlines hs hsecond)).bind fun _ => alike_pure _ _

open OperandReader in
theorem Opcode.alike_read_createTexture (hs : s.Acyclic) {k : Nat} (hk : (k : Int) ≤ maxId)
    (h : s.InlinesAll createTexture.slots vs ws) :
    Alike (fun bs cs => ∃ rest rest', bs = bigEndian 4 k ++ rest ∧ cs = bigEndian 4 k ++ rest' ∧
      Beside tail vs ws rest rest') (createTexture.read s) (createTexture.read s)
      (Beside tail [] []) := by
  match h with
  | .cons hwidth (.cons hheight (.cons hcolor .nil)) =>
    refine (alike_id hk).bind fun owner => (alike_checked (s.narrow_inlines hs hwidth _)).bind
      fun width => (alike_checked (s.narrow_inlines hs hheight _)).bind fun height => ?_
    rw [OperandReader.color, checked_bind_ofExcept]
    exact alike_checked (by rw [s.asColor_inlines hs hcolor])

/-- An instruction and one that inlines its variables are read alike, with the id that they bind in
front of their operands. -/
theorem Instruction.Inlines.ends_read (hs : s.Acyclic) (hop : i.op ≠ .define) (hi : i.Headed)
    (hij : i.Inlines s j) {payload payload' : Bytes}
    (hvs : Value.encodeAll i.operands = .ok payload)
    (hws : Value.encodeAll j.operands = .ok payload') (tail : Bytes) :
    EState.Ends (fun e => e) (fun _ _ => True) (fun a => a) (Beside tail [] [])
      (i.op.read s (i.ownerBytes ++ (payload ++ tail)))
      (i.op.read s (j.ownerBytes ++ (payload' ++ tail))) := by
  have hbeside : Beside tail i.operands j.operands (payload ++ tail) (payload' ++ tail) :=
    ⟨payload, payload', hvs, hws, rfl, rfl⟩
  have hbinds := hi.binds
  rw [ownerBytes, ownerBytes, hij.owner?]
  cases howner : i.owner? with
  | none =>
    rw [howner] at hbinds
    exact Opcode.alike_read hs hbinds.symm hij.operands _ _ hbeside
  | some k =>
    rw [howner] at hbinds
    have hcreate : i.op = .createTexture := by
      cases h : i.op with
      | createTexture => rfl
      | define => exact (hop h).elim
      | _ => rw [h] at hbinds; cases hbinds
    have hslots := hij.operands
    rw [hcreate] at hslots ⊢
    exact Opcode.alike_read_createTexture hs (hi.room k howner) hslots _ _
      ⟨_, _, rfl, rfl, hbeside⟩

/-! ## Steps -/

namespace Machine

variable {m : Machine} {bs cs : Bytes}

/-- An instruction does the same when references in it are replaced by what they stand for. The step
has one outcome and leaves one machine and one log, and if it completes, it leaves what stood after
the instruction. -/
theorem step_inlines (hs : m.store.Acyclic) (hop : i.op ≠ .define) (hi : i.Headed)
    (hij : i.Inlines m.store j) (hbs : i.encode = .ok bs) (hcs : j.encode = .ok cs)
    (tail : Bytes) :
    ∃ rest, m.step (cs ++ tail) = { m.step (bs ++ tail) with rest := rest } ∧
      ((m.step (bs ++ tail)).outcome = .completed →
        (m.step (bs ++ tail)).rest = tail ∧ rest = tail) := by
  obtain ⟨payload, hvs, rfl⟩ := Instruction.encode_eq_ok_iff.mp hbs
  obtain ⟨payload', hws, rfl⟩ := Instruction.encode_eq_ok_iff.mp hcs
  have hread := hij.ends_read hs hop hi hvs hws tail
  simp only [List.append_assoc, hij.op]
  by_cases hstop : i.op = .stop
  · rw [hstop, step_stop, step_stop]
    exact ⟨_, rfl, fun hc => by cases hc⟩
  · generalize hr : i.op.read m.store (i.ownerBytes ++ _) = result at hread
    generalize hr' : i.op.read m.store (j.ownerBytes ++ _) = result' at hread
    cases hread with
    | ok hrest =>
      obtain ⟨_, _, ⟨⟩, ⟨⟩, rfl, rfl⟩ := hrest
      rw [step_wordBytes_of_ok hr, step_wordBytes_of_ok hr']
      exact ⟨_, rfl, fun _ => ⟨rfl, rfl⟩⟩
    | error =>
      rw [step_wordBytes_of_error hstop hr, step_wordBytes_of_error hstop hr']
      exact ⟨_, rfl, fun hc => by cases hc⟩

/-- A pixel is drawn through an alias of an image, where an alias of a number says. -/
theorem step_inlines_pixel :
    let image : Image := { width := 2, height := 2, background := ⟨0, 0, 0, false⟩ }
    let numbers : Store := (({} : Store).bind 1 (.number .w8 7)).bind 2 (.reference 1)
    let m : Machine := { store := (numbers.bind 3 (.image image)).bind 4 (.reference 3) }
    let i : Instruction := ⟨.drawPixel, none,
      [.reference 4, .reference 2, .number .w8 0,
        .tuple [.reference 2, .reference 2, .reference 1]]⟩
    let j : Instruction := ⟨.drawPixel, none,
      [.reference 3, .number .w8 7, .number .w8 0,
        .tuple [.number .w8 7, .reference 2, .number .w8 7]]⟩
    let bs : Bytes := [0, 6, 6, 0, 0, 0, 4, 6, 0, 0, 0, 2, 1, 0,
      5, 3, 6, 0, 0, 0, 2, 6, 0, 0, 0, 2, 6, 0, 0, 0, 1]
    let cs : Bytes := [0, 6, 6, 0, 0, 0, 3, 1, 7, 1, 0, 5, 3, 1, 7, 6, 0, 0, 0, 2, 1, 7]
    m.store.Acyclic ∧ i.encode = .ok bs ∧ j.encode = .ok cs ∧ i.Inlines m.store j ∧
      (m.step (bs ++ [])).outcome = .completed ∧
      ∃ rest, m.step (cs ++ []) = { m.step (bs ++ []) with rest := rest } ∧
        ((m.step (bs ++ [])).outcome = .completed → (m.step (bs ++ [])).rest = [] ∧ rest = []) := by
  intro image numbers m i j bs cs
  have hnumbers : numbers.Grounded := by
    refine (Store.Grounded.empty.bind ?_).bind ?_
    · rintro r ⟨⟩
    · rintro r ⟨⟩
      exact ⟨by decide, rfl⟩
  have hs : m.store.Grounded := by
    refine (hnumbers.bind ?_).bind ?_
    · rintro r ⟨⟩
    · rintro r ⟨⟩
      exact ⟨by decide, rfl⟩
  have hseven : m.store.Leads 1 1 := .here (v := .number .w8 7) rfl (by simp)
  have hnumber : m.store.Leads 2 1 := .onward rfl hseven
  have hself : m.store.Leads 3 3 := .here (v := .image image) rfl (by simp)
  have himage : m.store.Leads 4 3 := .onward rfl hself
  have hchannels : List.Forall₂ (m.store.Inlines .value) [.reference 2, .reference 2, .reference 1]
      [.number .w8 7, .reference 2, .number .w8 7] :=
    .cons (.value hnumber rfl) (.cons (.same _ _) (.cons (.value hseven rfl) .nil))
  have hij : i.Inlines m.store j := ⟨rfl, rfl, .cons (.target himage) (.cons (.value hnumber rfl)
    (.cons (.same _ _) (.cons (.tuple _ hchannels) .nil)))⟩
  have hi : i.Headed := ⟨rfl, by simp [i]⟩
  have hbs : i.encode = .ok bs := by decide +kernel
  have hcs : j.encode = .ok cs := by decide +kernel
  exact ⟨hs.acyclic, hbs, hcs, hij, by decide +kernel,
    step_inlines hs.acyclic (by decide) hi hij hbs hcs []⟩

end Machine

end SpriteScript
