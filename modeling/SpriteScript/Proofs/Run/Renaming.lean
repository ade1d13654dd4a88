import SpriteScript.Proofs.Run.Assembly
import SpriteScript.Proofs.Store.Renaming

/-!
# Runs under other ids

A program whose ids are exchanged for others runs as the program itself does. Reading is followed
operand by operand on both sides (`Opcode.parallel_read`), so the steps correspond one by one
(`Machine.steps_rename`): they begin the same instructions, say the same, and end alike.
-/

namespace SpriteScript

open EState

variable (ρ : Renaming)

/-! ## Checks -/

namespace Store.Renamed

variable {ρ} {s t : Store}

theorem narrow (h : s.Renamed ρ t) (q : Quantity) (v : Value) :
    t.narrow q (v.rename ρ) = both id (SemanticError.rename ρ) (s.narrow q v) := by
  rw [Store.narrow, h.asNumber]
  refine both_bind (fun n => ?_) _
  rw [id]
  split <;> rfl

theorem narrow_bind {α : Type} (h : s.Renamed ρ t) {q : Quantity} {v : Value}
    {k k' : Int → Except SemanticError α}
    (hk : ∀ n, k' n = both id (SemanticError.rename ρ) (k n)) :
    (t.narrow q (v.rename ρ) >>= k') = both id (SemanticError.rename ρ) (s.narrow q v >>= k) := by
  rw [h.narrow]
  exact both_bind hk _

theorem asColor (h : s.Renamed ρ t) (v : Value) :
    t.asColor (v.rename ρ) = both id (SemanticError.rename ρ) (s.asColor v) := by
  rw [Store.asColor, h.asTuple]
  refine both_bind (fun items => ?_) _
  match items with
  | [] => rfl
  | [_] => rfl
  | [_, _] => rfl
  | [r, g, b] =>
    refine h.narrow_bind fun red => h.narrow_bind fun green => h.narrow_bind fun blue => ?_
    rfl
  | [r, g, b, a] =>
    refine h.narrow_bind fun red => h.narrow_bind fun green => h.narrow_bind fun blue => ?_
    rw [h.asNumber]
    refine both_bind (fun alpha => ?_) _
    rfl
  | _ :: _ :: _ :: _ :: _ :: rest =>
    show Except.error
        (SemanticError.badDimensions "3 or 4" ((rest.map (Value.rename ρ)).length + 5 : Nat)) =
      .error (.badDimensions "3 or 4" (rest.length + 5 : Nat))
    rw [List.length_map]

theorem asDrawColor (h : s.Renamed ρ t) (image : Int) (v : Value) :
    t.asDrawColor (ρ image) (v.rename ρ) =
      both id (SemanticError.rename ρ) (s.asDrawColor image v) := by
  rw [asDrawColor_eq_bind, asDrawColor_eq_bind, h.resolve]
  refine both_bind (fun w => ?_) _
  cases w with
  | number width n =>
    show (if Quantity.colorIndex.admits n then t.color (ρ image) n else _) =
      both _ _ (if _ then _ else _)
    split
    · exact h.color image n
    · rfl
  | tuple items => exact h.asColor (.tuple items)
  | _ => exact congrArg Except.error (Value.mismatch_rename ρ _ _)

theorem asTarget (h : s.Renamed ρ t) (v : Value) :
    t.asTarget (v.rename ρ) = both ρ (SemanticError.rename ρ) (s.asTarget v) := by
  cases v with
  | reference id =>
    show t.resolveId (ρ id) >>= _ = both _ _ (s.resolveId id >>= _)
    rw [h.resolveId]
    refine both_bind (fun target => ?_) _
    show t.get (ρ target) >>= _ = both _ _ (s.get target >>= _)
    rw [h.get]
    refine both_bind (fun w => ?_) _
    rw [h.asImage]
    refine both_bind (fun _ => ?_) _
    rfl
  | _ => exact congrArg Except.error (Value.mismatch_rename ρ _ _)

end Store.Renamed

/-- The errors of a log line name no ids. -/
theorem LogFormat.fill_rename (format : String) (texts : List String) :
    both id (SemanticError.rename ρ) (fill format texts) = fill format texts := by
  refine both_id_of_failsOnly ?_
  unfold fill
  split
  · exact .error rfl
  · exact .ok _

/-- Neither do those of an image. -/
theorem Image.blank_rename (width height : Int) (background : Color) :
    both id (SemanticError.rename ρ) (blank width height background) =
      blank width height background := by
  have hside : ∀ n, FailsOnly (fun e => e.rename ρ = e) (side n) := by
    intro n
    unfold side
    split
    · exact .ok _
    · exact .error rfl
  refine both_id_of_failsOnly ?_
  exact .bind (hside width) fun _ _ => .bind (hside height) fun _ _ => .ok _

/-! ## Reading -/

def RunError.rename : RunError → RunError
  | semantic cause => semantic (cause.rename ρ)
  | e => e

def Effect.rename : Effect → Effect
  | name s => name s
  | bind id v => bind (ρ id) (v.rename ρ)
  | log line warnings => log line warnings
  | create id m => create (ρ id) m
  | setColor image index c => setColor (ρ image) index c
  | draw image d => draw (ρ image) d
  | depend image dependency => depend (ρ image) (ρ dependency)

namespace Instruction

def rename (i : Instruction) : Instruction :=
  ⟨i.op, i.owner?.map fun id : Nat => (ρ id).toNat, i.operands.map (Value.rename ρ)⟩

@[simp] theorem rename_op (i : Instruction) : (i.rename ρ).op = i.op := rfl

structure WellFormed (i : Instruction) : Prop extends i.Headed where
  arity : i.operands.length = i.op.arity

end Instruction

/-- Bytes that are some values and a tail, and bytes that are the same values under other ids and
another tail. -/
inductive Copied (tail tail' : Bytes) : (count : Nat) → Bytes → Bytes → Prop where
  | nil : Copied tail tail' 0 tail tail'
  | cons {n : Nat} {v : Value} {first first' rest rest' : Bytes} (hv : v.encode = .ok first)
      (hv' : (v.rename ρ).encode = .ok first') (hrest : Copied tail tail' n rest rest') :
      Copied tail tail' (n + 1) (first ++ rest) (first' ++ rest')

variable {ρ} {tail tail' : Bytes} {n : Nat}

abbrev OperandReader.Parallel (ρ : Renaming) {α β : Type} (pre : Bytes → Bytes → Prop) (g : α → β)
    (r : OperandReader α) (r' : OperandReader β) (post : Bytes → Bytes → Prop) : Prop :=
  EState.Parallel (RunError.rename ρ) (fun _ _ => True) pre g r r' post

theorem parallel_ofExcept {α β : Type} {g : α → β} {x : Except SemanticError α}
    {x' : Except SemanticError β} (h : x' = both g (SemanticError.rename ρ) x)
    (R : Bytes → Bytes → Prop) :
    OperandReader.Parallel ρ R g (Reader.ofExcept (x.mapError .semantic))
      (Reader.ofExcept (x'.mapError .semantic)) R := by
  subst h
  cases x with
  | ok a => exact .pure rfl fun _ _ hbs => hbs
  | error e => exact .throw rfl fun _ _ _ => trivial

theorem parallel_checked {α β : Type} {g : α → β} {check : Value → Except SemanticError α}
    {check' : Value → Except SemanticError β}
    (h : ∀ v, check' (v.rename ρ) = both g (SemanticError.rename ρ) (check v)) (n : Nat) :
    OperandReader.Parallel ρ (Copied ρ tail tail' (n + 1)) g (OperandReader.checked check)
      (OperandReader.checked check') (Copied ρ tail tail' n) := by
  intro bs bs' hbs
  cases hbs with
  | @cons _ v first first' rest rest' hv hv' hrest =>
    unfold OperandReader.checked
    rw [bind_of_ok (Reader.mapError_eq_ok_iff.mpr (Value.decode_append hv rest)),
      bind_of_ok (Reader.mapError_eq_ok_iff.mpr (Value.decode_append hv' rest'))]
    exact parallel_ofExcept (h v) _ rest rest' hrest

def Instruction.Copied (ρ : Renaming) (i : Instruction) (tail tail' bs bs' : Bytes) : Prop :=
  ∃ rest rest', bs = i.ownerBytes ++ rest ∧ bs' = (i.rename ρ).ownerBytes ++ rest' ∧
    SpriteScript.Copied ρ tail tail' i.op.arity rest rest'

theorem OperandReader.id_append {k : Nat} (hk : (k : Int) ≤ maxId) (rest : Bytes) :
    OperandReader.id (bigEndian 4 k ++ rest) = .ok (k : Int) rest := by
  have hlt : k < 1 <<< (8 * 4) := by
    simp only [maxId] at hk
    omega
  refine id_eq_ok_iff.mpr ⟨k, ?_, rfl⟩
  rw [Reader.unsigned_bigEndian_append, Nat.mod_eq_of_lt hlt]

section Read

variable {s t : Store} {i : Instruction}

theorem parallel_owner {k : Nat} (howner : i.owner? = some k) (hk : (k : Int) ≤ maxId) :
    OperandReader.Parallel ρ (i.Copied ρ tail tail') ρ OperandReader.id OperandReader.id
      (Copied ρ tail tail' i.op.arity) := by
  rintro _ _ ⟨rest, rest', rfl, rfl, hrest⟩
  obtain ⟨hlow, hhigh⟩ := ρ.room ⟨Int.natCast_nonneg k, hk⟩
  have hself : (((ρ k).toNat : Nat) : Int) = ρ k := Int.toNat_of_nonneg hlow
  have hid := OperandReader.id_append hk rest
  have hid' := OperandReader.id_append (hself.symm ▸ hhigh) rest'
  rw [hself] at hid'
  rw [Instruction.ownerBytes, Instruction.ownerBytes, Instruction.rename, howner]
  show EState.Ends _ _ _ _ (OperandReader.id (bigEndian 4 k ++ rest))
    (OperandReader.id (bigEndian 4 (ρ k).toNat ++ rest'))
  rw [hid, hid']
  exact .ok hrest

theorem Instruction.Copied.operands (howner : i.owner? = none) {bs bs' : Bytes}
    (h : i.Copied ρ tail tail' bs bs') : SpriteScript.Copied ρ tail tail' i.op.arity bs bs' := by
  obtain ⟨rest, rest', rfl, rfl, hrest⟩ := h
  rw [ownerBytes, ownerBytes, rename, howner]
  exact hrest

theorem parallel_drawing (h : s.Renamed ρ t) {shape shape' : OperandReader Shape}
    (hshape : OperandReader.Parallel ρ (Copied ρ tail tail' n) id shape shape'
      (Copied ρ tail tail' 1)) :
    OperandReader.Parallel ρ (Copied ρ tail tail' (n + 1)) (Effect.rename ρ)
      (OperandReader.drawing s shape) (OperandReader.drawing t shape') (Copied ρ tail tail' 0) :=
  (parallel_checked h.asTarget n).bind fun image => hshape.bind fun _ =>
    (parallel_checked (h.asDrawColor image) 0).bind fun _ => .pure rfl fun _ _ hbs => hbs

/-- The line of a log is the same under other ids. -/
theorem log_rename (h : s.Renamed ρ t) (format : String) (items : List Value) :
    (do
      let texts ← (items.map (Value.rename ρ)).mapM t.text
      return Effect.log (← LogFormat.fill format texts) (LogFormat.warnings format texts)) =
    both (Effect.rename ρ) (SemanticError.rename ρ) (do
      let texts ← items.mapM s.text
      return Effect.log (← LogFormat.fill format texts) (LogFormat.warnings format texts)) := by
  rw [both_mapM h.text]
  refine both_bind (fun texts => ?_) _
  show LogFormat.fill format (texts.map fun text => text) >>= _ =
    both _ _ (LogFormat.fill format texts >>= _)
  rw [List.map_id']
  conv_lhs => rw [← LogFormat.fill_rename ρ]
  refine both_bind (fun line => ?_) _
  rfl

theorem blank_create_rename (id width height : Int) (background : Color) :
    (Image.blank width height background).map (.create (ρ id)) =
      both (Effect.rename ρ) (SemanticError.rename ρ)
        ((Image.blank width height background).map (.create id)) := by
  conv_lhs => rw [← Image.blank_rename ρ]
  cases Image.blank width height background <;> rfl

/-- Reading an instruction tells the same effect, on variables with other ids. -/
theorem Opcode.parallel_read (h : s.Renamed ρ t) (hi : i.Headed) :
    OperandReader.Parallel ρ (i.Copied ρ tail tail') (Effect.rename ρ) (i.op.read s) (i.op.read t)
      (Copied ρ tail tail' 0) := by
  -- what stands in front of the operands: nothing, or the id that is bound
  have hplain : i.op.binds = false → ∀ {α β : Type} {g : α → β} {r : OperandReader α}
      {r' : OperandReader β} {post : Bytes → Bytes → Prop},
      OperandReader.Parallel ρ (Copied ρ tail tail' i.op.arity) g r r' post →
        OperandReader.Parallel ρ (i.Copied ρ tail tail') g r r' post := by
    intro hb α β g r r' post hr
    have hnone : i.owner? = none := by
      rw [← Option.not_isSome_iff_eq_none, hi.binds, hb]
      exact Bool.false_ne_true
    exact hr.of_pre fun _ _ => Instruction.Copied.operands hnone
  have howner : i.op.binds = true → OperandReader.Parallel ρ (i.Copied ρ tail tail') ρ
      OperandReader.id OperandReader.id (Copied ρ tail tail' i.op.arity) := by
    intro hb
    obtain ⟨k, hk⟩ := Option.isSome_iff_exists.mp (hi.binds.trans hb)
    exact parallel_owner hk (hi.room k hk)
  obtain ⟨op, owner?, operands⟩ := i
  cases op with
  | stop => exact .throw rfl fun _ _ _ => trivial
  | gamedef =>
    exact hplain rfl ((parallel_checked h.asText 0).map fun _ => rfl)
  | define =>
    exact (howner rfl).bind fun _ => (parallel_checked (fun _ => rfl) 0).bind fun _ =>
      .pure rfl fun _ _ hbs => hbs
  | log =>
    refine hplain rfl ?_
    exact (parallel_checked h.asText 1).bind fun format =>
      (parallel_checked h.asTuple 0).bind fun items =>
        parallel_ofExcept (log_rename h format items) _
  | createTexture =>
    exact (howner rfl).bind fun id => (parallel_checked (h.narrow _) 2).bind fun width =>
      (parallel_checked (h.narrow _) 1).bind fun height =>
        (parallel_checked h.asColor 0).bind fun background =>
          parallel_ofExcept (blank_create_rename id width height background) _
  | colorId =>
    refine hplain rfl ?_
    exact (parallel_checked h.asTarget 2).bind fun _ =>
      (parallel_checked (h.narrow _) 1).bind fun _ =>
        (parallel_checked h.asColor 0).bind fun _ => .pure rfl fun _ _ hbs => hbs
  | drawPixel =>
    refine hplain rfl (parallel_drawing h ?_)
    exact (parallel_checked (h.narrow _) 2).bind fun _ =>
      (parallel_checked (h.narrow _) 1).bind fun _ => .pure rfl fun _ _ hbs => hbs
  | drawRectangle =>
    refine hplain rfl (parallel_drawing h ?_)
    exact (parallel_checked (h.narrow _) 4).bind fun _ =>
      (parallel_checked (h.narrow _) 3).bind fun _ =>
        (parallel_checked (h.narrow _) 2).bind fun _ =>
          (parallel_checked (h.narrow _) 1).bind fun _ => .pure rfl fun _ _ hbs => hbs
  | depend =>
    refine hplain rfl ?_
    exact (parallel_checked h.asTarget 1).bind fun _ =>
      (parallel_checked h.asTarget 0).bind fun _ => .pure rfl fun _ _ hbs => hbs

end Read

/-! ## Writing -/

namespace Value

mutual

/-- What can be written can be written under other ids. -/
theorem exists_encode_rename (ρ : Renaming) : ∀ (v : Value) {bs : Bytes}, v.encode = .ok bs →
    ∃ bs', (v.rename ρ).encode = .ok bs'
  | .number _ _, bs, h => ⟨bs, h⟩
  | .text _, bs, h => ⟨bs, h⟩
  | .image _, bs, h => ⟨bs, h⟩
  | .reference id, _, h => by
      obtain ⟨hid, -⟩ := encodeReference_eq_ok_iff.mp h
      exact ⟨_, encodeReference_eq_ok_iff.mpr ⟨ρ.room hid, rfl⟩⟩
  | .tuple items, _, h => by
      obtain ⟨payload, hitems, h⟩ := encode_tuple_eq_ok_iff.mp h
      obtain ⟨hlen, -⟩ := encodeTuple_eq_ok_iff.mp h
      obtain ⟨payload', hitems'⟩ := exists_encodeAll_renameAll ρ items hitems
      have hsame : (renameAll ρ items).length = items.length := by
        rw [renameAll_eq_map, List.length_map]
      exact ⟨_, encode_tuple_eq_ok_iff.mpr ⟨payload', hitems',
        encodeTuple_eq_ok_iff.mpr ⟨hsame ▸ hlen, rfl⟩⟩⟩

theorem exists_encodeAll_renameAll (ρ : Renaming) : ∀ (vs : List Value) {bs : Bytes},
    encodeAll vs = .ok bs → ∃ bs', encodeAll (renameAll ρ vs) = .ok bs'
  | [], bs, h => ⟨bs, h⟩
  | v :: vs, _, h => by
      obtain ⟨first, rest, hv, hvs, -⟩ := encodeAll_cons_eq_ok_iff.mp h
      obtain ⟨first', hv'⟩ := exists_encode_rename ρ v hv
      obtain ⟨rest', hvs'⟩ := exists_encodeAll_renameAll ρ vs hvs
      exact ⟨_, encodeAll_cons_eq_ok_iff.mpr ⟨first', rest', hv', hvs', rfl⟩⟩

end

end Value

theorem copied_of_encodeAll {vs : List Value} {payload payload' : Bytes}
    (hvs : Value.encodeAll vs = .ok payload)
    (hvs' : Value.encodeAll (vs.map (Value.rename ρ)) = .ok payload') :
    Copied ρ tail tail' vs.length (payload ++ tail) (payload' ++ tail') := by
  induction vs generalizing payload payload' with
  | nil =>
    cases hvs
    cases hvs'
    exact .nil
  | cons v vs ih =>
    obtain ⟨first, rest, hv, hrest, rfl⟩ := Value.encodeAll_cons_eq_ok_iff.mp hvs
    obtain ⟨first', rest', hv', hrest', rfl⟩ := Value.encodeAll_cons_eq_ok_iff.mp hvs'
    rw [List.append_assoc, List.append_assoc]
    exact .cons hv hv' (ih hrest hrest')

namespace Instruction

variable {i : Instruction} {is : List Instruction} {bs : Bytes}

theorem exists_encode_rename (ρ : Renaming) (h : i.encode = .ok bs) :
    ∃ bs', (i.rename ρ).encode = .ok bs' := by
  obtain ⟨payload, hvs, -⟩ := encode_eq_ok_iff.mp h
  obtain ⟨payload', hvs'⟩ := Value.exists_encodeAll_renameAll ρ _ hvs
  rw [Value.renameAll_eq_map] at hvs'
  exact ⟨_, encode_eq_ok_iff.mpr ⟨payload', hvs', rfl⟩⟩

theorem exists_encodeAll_rename (ρ : Renaming) (h : encodeAll is = .ok bs) :
    ∃ bs', encodeAll (is.map (rename ρ)) = .ok bs' := by
  induction is generalizing bs with
  | nil => exact ⟨bs, h⟩
  | cons i is ih =>
    obtain ⟨first, rest, hi, hrest, -⟩ := encodeAll_cons_eq_ok_iff.mp h
    obtain ⟨first', hi'⟩ := exists_encode_rename ρ hi
    obtain ⟨rest', hrest'⟩ := ih hrest
    exact ⟨_, encodeAll_cons_eq_ok_iff.mpr ⟨first', rest', hi', hrest', rfl⟩⟩

end Instruction

/-! ## Steps -/

structure Machine.Renamed (ρ : Renaming) (m m' : Machine) : Prop where
  store : m.store.Renamed ρ m'.store
  name : m'.name = m.name
  completed : m'.completed = m.completed

def Outcome.rename (ρ : Renaming) : Outcome → Outcome
  | failed e => failed (e.rename ρ)
  | outcome => outcome

theorem Outcome.error?_rename (outcome : Outcome) :
    (outcome.rename ρ).error? = outcome.error?.map (RunError.rename ρ) := by
  cases outcome <;> rfl

structure Step.Renamed (ρ : Renaming) (s s' : Step) : Prop where
  opcode? : s'.opcode? = s.opcode?
  machine : s.machine.Renamed ρ s'.machine
  log : s'.log = s.log
  warnings : s'.warnings = s.warnings
  outcome : s'.outcome = s.outcome.rename ρ

theorem Step.Renamed.outcome_eq_completed_iff {s s' : Step} (h : s.Renamed ρ s') :
    s'.outcome = .completed ↔ s.outcome = .completed := by
  rw [h.outcome]
  cases s.outcome <;> simp [Outcome.rename]

namespace Machine

variable {m m' : Machine} {i : Instruction} {is : List Instruction} {bs bs' : Bytes}

theorem Renamed.apply (h : m.Renamed ρ m') (e : Effect) :
    (e.apply m).Renamed ρ ((e.rename ρ).apply m') := by
  cases e with
  | name s => exact { h with name := rfl }
  | bind id v => exact { h with store := h.store.bind id v }
  | log line warnings => exact h
  | create id image =>
    exact { h with store := (h.store.bind id (.image image)).addPending id }
  | setColor image index c => exact { h with store := h.store.setColor image index c }
  | draw image d => exact { h with store := h.store.draw image d }
  | depend image dependency => exact { h with store := h.store.addDependency image dependency }

theorem Renamed.idle (h : m.Renamed ρ m') (opcode? : Option Opcode) (rest rest' : Bytes)
    (outcome : Outcome) :
    (m.idle opcode? rest outcome).Renamed ρ (m'.idle opcode? rest' (outcome.rename ρ)) :=
  ⟨rfl, h, rfl, rfl, rfl⟩

theorem Renamed.complete (h : m.Renamed ρ m') (op : Opcode) (rest rest' : Bytes) (e : Effect) :
    (m.complete op rest e).Renamed ρ (m'.complete op rest' (e.rename ρ)) where
  opcode? := rfl
  machine := { h.apply e with completed := congrArg (· + 1) (h.apply e).completed }
  log := by cases e <;> rfl
  warnings := by cases e <;> rfl
  outcome := rfl

theorem step_stop (m : Machine) (bs : Bytes) :
    m.step (Source.wordBytes .stop ++ bs) = m.idle (some .stop) bs .stopped := by
  rw [wordBytes_eq]
  simp [step_eq_read, ofWord?_wordBytes]

/-- The step of an instruction does the same under other ids, and where it completes nothing but
the tail is left. -/
theorem step_rename (h : m.Renamed ρ m') (hi : i.WellFormed) (hbs : i.encode = .ok bs)
    (hbs' : (i.rename ρ).encode = .ok bs') (tail tail' : Bytes) :
    (m.step (bs ++ tail)).Renamed ρ (m'.step (bs' ++ tail')) ∧
      ((m.step (bs ++ tail)).outcome = .completed →
        (m.step (bs ++ tail)).rest = tail ∧ (m'.step (bs' ++ tail')).rest = tail') := by
  obtain ⟨payload, hvs, rfl⟩ := Instruction.encode_eq_ok_iff.mp hbs
  obtain ⟨payload', hvs', rfl⟩ := Instruction.encode_eq_ok_iff.mp hbs'
  have hcopied : i.Copied ρ tail tail' (i.ownerBytes ++ (payload ++ tail))
      ((i.rename ρ).ownerBytes ++ (payload' ++ tail')) :=
    ⟨_, _, rfl, rfl, hi.arity ▸ copied_of_encodeAll hvs hvs'⟩
  have hread := Opcode.parallel_read h.store hi.toHeaded _ _ hcopied
  simp only [List.append_assoc, Instruction.rename_op]
  by_cases hop : i.op = .stop
  · rw [hop, step_stop, step_stop]
    exact ⟨h.idle _ _ _ .stopped, fun hc => by cases hc⟩
  · generalize hr : i.op.read m.store _ = result at hread
    generalize hr' : i.op.read m'.store _ = result' at hread
    cases hread with
    | ok hrest =>
      cases hrest
      rw [step_wordBytes_of_ok hr, step_wordBytes_of_ok hr']
      exact ⟨h.complete i.op tail tail' _, fun _ => ⟨rfl, rfl⟩⟩
    | @error e rest rest' _ =>
      rw [step_wordBytes_of_error hop hr, step_wordBytes_of_error hop hr']
      exact ⟨h.idle _ rest rest' (.failed e), fun hc => by cases hc⟩

/-- Under other ids a program takes the same steps. -/
theorem steps_rename (his : ∀ i ∈ is, i.WellFormed) (hbs : Instruction.encodeAll is = .ok bs)
    (hbs' : Instruction.encodeAll (is.map (Instruction.rename ρ)) = .ok bs')
    (h : m.Renamed ρ m') : List.Forall₂ (Step.Renamed ρ) (m.steps bs) (m'.steps bs') := by
  induction is generalizing m m' bs bs' with
  | nil =>
    cases hbs
    cases hbs'
    exact .cons (h.idle none [] [] .stopped) .nil
  | cons i is ih =>
    obtain ⟨first, tail, hi, htail, rfl⟩ := Instruction.encodeAll_cons_eq_ok_iff.mp hbs
    obtain ⟨first', tail', hi', htail', rfl⟩ := Instruction.encodeAll_cons_eq_ok_iff.mp hbs'
    obtain ⟨hstep, hrest⟩ := step_rename h (his i List.mem_cons_self) hi hi' tail tail'
    have houtcome := hstep.outcome_eq_completed_iff
    -- what a completed step leaves is the other instructions; any other step is the last
    by_cases hc : (m.step (first ++ tail)).outcome = .completed
    · obtain ⟨hleft, hleft'⟩ := hrest hc
      rw [steps_of_completed hc, steps_of_completed (houtcome.mpr hc), hleft, hleft']
      exact .cons hstep (ih (fun j hj => his j (List.mem_cons_of_mem i hj)) htail htail'
        hstep.machine)
    · rw [steps_of_not_completed hc, steps_of_not_completed (mt houtcome.mp hc)]
      exact .cons hstep .nil

structure Run.Renamed (ρ : Renaming) (r r' : Run) : Prop where
  machine : r.machine.Renamed ρ r'.machine
  log : r'.log = r.log
  warnings : r'.warnings = r.warnings
  opcodes : r'.opcodes = r.opcodes
  error? : r'.error? = r.error?.map (RunError.rename ρ)

section Steps

variable {ss ss' : List Step}

theorem map_eq_of_renamed {α : Type} {f : Step → α} (hf : ∀ {s s'}, s.Renamed ρ s' → f s' = f s)
    (h : List.Forall₂ (Step.Renamed ρ) ss ss') : ss'.map f = ss.map f := by
  induction h with
  | nil => rfl
  | cons hs _ ih => rw [List.map_cons, List.map_cons, hf hs, ih]

theorem getLast?_renamed (h : List.Forall₂ (Step.Renamed ρ) ss ss') :
    Option.Rel (Step.Renamed ρ) ss.getLast? ss'.getLast? := by
  induction h with
  | nil => exact .none
  | @cons s s' ss ss' hs _ ih =>
    rw [List.getLast?_cons, List.getLast?_cons]
    refine .some ?_
    generalize ss.getLast? = last?, ss'.getLast? = last?' at ih
    cases ih with
    | none => exact hs
    | some hlast => exact hlast

end Steps

/-- Under other ids a program runs as before. -/
theorem run_rename (his : ∀ i ∈ is, i.WellFormed) (hbs : Instruction.encodeAll is = .ok bs)
    (hbs' : Instruction.encodeAll (is.map (Instruction.rename ρ)) = .ok bs')
    (h : m.Renamed ρ m') : (m.run bs).Renamed ρ (m'.run bs') := by
  have hsteps := steps_rename his hbs hbs' h
  have hlast := getLast?_renamed hsteps
  have hend : (m.run bs).machine.Renamed ρ (m'.run bs').machine ∧
      (m'.run bs').error? = (m.run bs).error?.map (RunError.rename ρ) := by
    simp only [run]
    generalize (m.steps bs).getLast? = last?, (m'.steps bs').getLast? = last?' at hlast
    cases hlast with
    | none => exact ⟨h, rfl⟩
    | @some s s' hs =>
      have herror : s'.outcome.error? = s.outcome.error?.map (RunError.rename ρ) := by
        rw [hs.outcome, Outcome.error?_rename]
      exact ⟨hs.machine, herror⟩
  have hopcodes := congrArg (List.filterMap id) (map_eq_of_renamed Step.Renamed.opcode? hsteps)
  rw [List.filterMap_map, List.filterMap_map] at hopcodes
  refine ⟨hend.1, ?_, ?_, hopcodes, hend.2⟩
  · simp only [run, List.flatMap_def, map_eq_of_renamed Step.Renamed.log hsteps]
  · simp only [run, List.flatMap_def, map_eq_of_renamed Step.Renamed.warnings hsteps]

end Machine

end SpriteScript
