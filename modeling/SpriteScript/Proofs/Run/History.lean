import SpriteScript.Proofs.Picture.Raster
import SpriteScript.Proofs.Run.Meaning
import SpriteScript.Proofs.Run.Steps

/-!
# Histories

The history of a run is the list of the instructions that were carried out, each with the store in
which it was. It tells what every image looks like: size and background come from the last
instruction that created it, and what was drawn on it are the drawing instructions since then whose
target led to its variable, each with the colour its operand meant when it was carried out. A run
keeps its store in agreement with its history (`Chronicle`).
-/

namespace SpriteScript

def Instruction.front? : Bytes → Option Instruction
  | a :: b :: rest =>
    match Opcode.ofWord? (ofBigEndian [a, b]) with
    | some op =>
      match op.instruction rest with
      | .ok i _ => some i
      | .error .. => none
    | none => none
  | _ => none

structure Executed where
  store : Store
  instruction : Instruction

namespace Machine

def executedFrom : Machine → Bytes → List Step → List Executed
  | _, _, [] => []
  | m, bs, s :: steps =>
    match s.outcome, Instruction.front? bs with
    | .completed, some i => ⟨m.store, i⟩ :: executedFrom s.machine s.rest steps
    | _, _ => []

def executed (m : Machine) (bs : Bytes) : List Executed := executedFrom m bs (m.steps bs)

end Machine

/-! ## What instructions did -/

namespace Executed

inductive Creates (x : Executed) (v : Int) : Nat → Nat → Color → Prop where
  | intro {id width height : Nat} {w h c : Value} {background : Color}
      (instruction : x.instruction = ⟨.createTexture, some id, [w, h, c]⟩) (owner : (id : Int) = v)
      (hw : x.store.IsNumber w width) (hh : x.store.IsNumber h height)
      (hc : x.store.IsColor c background) : Creates x v width height background

/-- It registered a colour for the image of a variable under an index. -/
inductive Registers (x : Executed) (v index : Int) : Color → Prop where
  | intro {id : Int} {i c : Value} {color : Color}
      (instruction : x.instruction = ⟨.colorId, none, [.reference id, i, c]⟩)
      (target : x.store.Leads id v) (hi : x.store.IsNumber i index)
      (hc : x.store.IsColor c color) : Registers x v index color

/-- It drew an area on the image of a variable, with the colour that is meant by its last
operand. -/
inductive Draws (x : Executed) (v : Int) : Area → Value → Prop where
  | pixel {id px py : Int} {a b c : Value}
      (instruction : x.instruction = ⟨.drawPixel, none, [.reference id, a, b, c]⟩)
      (target : x.store.Leads id v) (hx : x.store.IsNumber a px) (hy : x.store.IsNumber b py) :
      Draws x v ⟨px, py, 1, 1⟩ c
  | rectangle {id px py width height : Int} {a b w h c : Value}
      (instruction : x.instruction = ⟨.drawRectangle, none, [.reference id, a, b, w, h, c]⟩)
      (target : x.store.Leads id v) (hx : x.store.IsNumber a px) (hy : x.store.IsNumber b py)
      (hw : x.store.IsNumber w width) (hh : x.store.IsNumber h height) :
      Draws x v ⟨px, py, width, height⟩ c

end Executed

structure IsLast (p : Executed → Prop) (history early : List Executed) (x : Executed)
    (late : List Executed) : Prop where
  split : history = early ++ x :: late
  holds : p x
  after : ∀ y ∈ late, ¬ p y

/-- What the colour operand of a drawing on a variable's image meant: a tuple of channels, or the
colour that was registered last under an index. -/
inductive Meant (past : List Executed) (y : Executed) (v : Int) (operand : Value) : Color → Prop
    where
  | channels {c : Color} (hc : y.store.IsColor operand c) : Meant past y v operand c
  | index {n : Int} {c : Color} {early late : List Executed} {x : Executed}
      (hn : y.store.IsNumber operand n)
      (last : IsLast (fun x => ∃ c, x.Registers v n c) past early x late)
      (registers : x.Registers v n c) : Meant past y v operand c

/-- What the image of a variable shows at a point that had a background, when `after` happened
after `past`. -/
inductive Shows (past after : List Executed) (v px py : Int) (background : Color) : Color → Prop
    where
  | drawn {early late : List Executed} {y : Executed} {area : Area} {operand : Value} {c : Color}
      (last : IsLast (fun y => ∃ area operand, y.Draws v area operand ∧ area.Covers px py)
        after early y late)
      (draws : y.Draws v area operand) (covers : area.Covers px py)
      (meant : Meant (past ++ early) y v operand c) : Shows past after v px py background c
  | bare (never : ∀ y ∈ after, ∀ area operand, y.Draws v area operand → ¬ area.Covers px py) :
      Shows past after v px py background background

/-- The draws on the image of a variable, when `after` happened after `past`. -/
inductive Drawn (past : List Executed) (v : Int) : List Executed → List Draw → Prop where
  | nil : Drawn past v [] []
  | other {after : List Executed} {ds : List Draw} {y : Executed} (before : Drawn past v after ds)
      (never : ∀ area operand, ¬ y.Draws v area operand) : Drawn past v (after ++ [y]) ds
  | draw {after : List Executed} {ds : List Draw} {y : Executed} {d : Draw} {operand : Value}
      (before : Drawn past v after ds) (draws : y.Draws v d.shape.area operand)
      (meant : Meant (past ++ after) y v operand d.color) :
      Drawn past v (after ++ [y]) (ds ++ [d])

structure Image.ToldBy (m : Image) (history : List Executed) (v : Int) : Prop where
  told : ∃ before x after,
    IsLast (fun x => ∃ w h c, x.Creates v w h c) history before x after ∧
      x.Creates v m.width m.height m.background ∧ Drawn (before ++ [x]) v after m.draws

structure Chronicle (history : List Executed) (s : Store) : Prop where
  image : ∀ {v : Int} {m : Image}, s.bindings.get? v = some (.image m) → m.ToldBy history v
  color : ∀ {v n : Int} {c : Color}, s.color v n = .ok c → ∃ early x late,
    IsLast (fun x => ∃ c, x.Registers v n c) history early x late ∧ x.Registers v n c

variable {history past after early late : List Executed} {x y : Executed} {v n px py : Int}
  {c background : Color} {area : Area} {operand : Value} {s : Store} {e : Effect}
  {i : Instruction} {p : Executed → Prop}

/-! ## The last of a history -/

namespace IsLast

theorem append (h : IsLast p history early x late) (hy : ¬ p y) :
    IsLast p (history ++ [y]) early x (late ++ [y]) where
  split := by rw [h.split, List.append_assoc, List.cons_append]
  holds := h.holds
  after := by
    intro z hz
    rcases List.mem_append.mp hz with hz | hz
    · exact h.after z hz
    · rw [List.mem_singleton.mp hz]
      exact hy

theorem self (history : List Executed) (hy : p y) : IsLast p (history ++ [y]) history y [] where
  split := rfl
  holds := hy
  after := by simp

end IsLast

/-! ## One instruction has one meaning -/

namespace Executed

theorem Draws.unique {u : Int} {b : Area} {o : Value} (h : x.Draws v area operand)
    (h' : x.Draws u b o) : v = u ∧ area = b := by
  cases h with
  | pixel hi ht hx hy =>
    cases h' with
    | pixel hi' ht' hx' hy' =>
      cases hi.symm.trans hi'
      exact ⟨ht.unique ht', by rw [hx.unique hx', hy.unique hy']⟩
    | rectangle hi' => cases hi.symm.trans hi'
  | rectangle hi ht hx hy hw hh =>
    cases h' with
    | pixel hi' => cases hi.symm.trans hi'
    | rectangle hi' ht' hx' hy' hw' hh' =>
      cases hi.symm.trans hi'
      exact ⟨ht.unique ht', by rw [hx.unique hx', hy.unique hy', hw.unique hw', hh.unique hh']⟩

theorem Registers.unique {u k : Int} {d : Color} (h : x.Registers v n c)
    (h' : x.Registers u k d) : v = u ∧ n = k := by
  cases h with
  | intro hi ht hn _ =>
    cases h' with
    | intro hi' ht' hn' _ =>
      cases hi.symm.trans hi'
      exact ⟨ht.unique ht', hn.unique hn'⟩

theorem Creates.unique {u : Int} {w h k l : Nat} {d : Color} (hx : x.Creates v w h c)
    (hx' : x.Creates u k l d) : v = u := by
  cases hx with
  | intro hi howner =>
    cases hx' with
    | intro hi' howner' =>
      cases hi.symm.trans hi'
      exact howner.symm.trans howner'

theorem Creates.op {w h : Nat} (hx : x.Creates v w h c) : x.instruction.op = .createTexture := by
  cases hx with
  | intro hi => rw [hi]

theorem Registers.op (h : x.Registers v n c) : x.instruction.op = .colorId := by
  cases h with
  | intro hi => rw [hi]

theorem Draws.op (h : x.Draws v area operand) :
    x.instruction.op = .drawPixel ∨ x.instruction.op = .drawRectangle := by
  cases h with
  | pixel hi => exact Or.inl (by rw [hi])
  | rectangle hi => exact Or.inr (by rw [hi])

end Executed

/-! ## Colours -/

theorem Store.IsColor.inRange {v : Value} (h : s.IsColor v c) : c.InRange := by
  cases h with
  | three _ hr hg hb => exact ⟨hr.2, hg.2, hb.2⟩
  | four _ hr hg hb _ => exact ⟨hr.2, hg.2, hb.2⟩

theorem Executed.Creates.inRange {w h : Nat} (hx : x.Creates v w h c) : c.InRange := by
  cases hx with
  | intro _ _ _ _ hc => exact hc.inRange

theorem Meant.inRange (h : Meant past y v operand c) : c.InRange := by
  cases h with
  | channels hc => exact hc.inRange
  | index _ _ registers =>
    cases registers with
    | intro _ _ _ hc => exact hc.inRange

namespace Drawn

variable {ds : List Draw}

theorem inRange (h : Drawn past v after ds) : ∀ d ∈ ds, d.color.InRange := by
  induction h with
  | nil => simp
  | other _ _ ih => exact ih
  | draw _ _ meant ih =>
    intro d hd
    rcases List.mem_append.mp hd with hd | hd
    · exact ih d hd
    · rw [List.mem_singleton.mp hd]
      exact meant.inRange

end Drawn

/-- What does not draw at a point changes nothing there. -/
theorem Shows.append (h : Shows past after v px py background c)
    (hy : ∀ area operand, y.Draws v area operand → ¬ area.Covers px py) :
    Shows past (after ++ [y]) v px py background c := by
  cases h with
  | drawn last draws covers meant =>
    refine .drawn (last.append ?_) draws covers meant
    rintro ⟨area, operand, hdraws, hcovers⟩
    exact hy area operand hdraws hcovers
  | bare never =>
    refine .bare fun z hz area operand hdraws => ?_
    rcases List.mem_append.mp hz with hz | hz
    · exact never z hz area operand hdraws
    · rw [List.mem_singleton.mp hz] at hdraws
      exact hy area operand hdraws

/-- The last of the draws at a point is what the history shows there. -/
theorem Drawn.shows {ds : List Draw} (h : Drawn past v after ds) (px py : Int)
    (background : Color) :
    Shows past after v px py background
      (((ds.reverse.find? (·.shape.area.Covers px py)).map (·.color)).getD background) := by
  induction h with
  | nil => exact .bare (by simp)
  | other _ never ih => exact ih.append fun area operand hdraws => (never area operand hdraws).elim
  | @draw after ds y d operand _ draws meant ih =>
    rw [List.reverse_append, List.reverse_singleton, List.singleton_append, List.find?_cons]
    by_cases hcovers : d.shape.area.Covers px py
    · simp only [hcovers, decide_true, Option.map_some, Option.getD_some]
      exact .drawn (.self after ⟨_, _, draws, hcovers⟩) draws hcovers meant
    · simp only [hcovers, decide_false]
      refine ih.append fun area other hdraws => ?_
      rw [(hdraws.unique draws).2]
      exact hcovers

namespace Image.ToldBy

variable {m : Image}

theorem inRange (h : m.ToldBy history v) : m.InRange := by
  obtain ⟨_, _, _, -, hcreates, hdrawn⟩ := h.told
  exact ⟨hcreates.inRange, hdrawn.inRange⟩

/-- What neither creates an image for a variable nor draws on it tells nothing of its image. -/
theorem append (h : m.ToldBy history v) (hcreates : ∀ w h c, ¬ y.Creates v w h c)
    (hdraws : ∀ area operand, ¬ y.Draws v area operand) : m.ToldBy (history ++ [y]) v := by
  obtain ⟨before, x, after, last, creates, drawn⟩ := h.told
  refine ⟨before, x, after ++ [y], last.append ?_, creates, .other drawn hdraws⟩
  rintro ⟨w, h, c, hy⟩
  exact hcreates w h c hy

theorem draw {d : Draw} (h : m.ToldBy history v) (hcreates : ∀ w h c, ¬ y.Creates v w h c)
    (hdraws : y.Draws v d.shape.area operand) (hmeant : Meant history y v operand d.color) :
    (m.draw d).ToldBy (history ++ [y]) v := by
  obtain ⟨before, x, after, last, creates, drawn⟩ := h.told
  refine ⟨before, x, after ++ [y], last.append ?_, creates, .draw drawn hdraws ?_⟩
  · rintro ⟨w, h, c, hy⟩
    exact hcreates w h c hy
  · rw [List.append_assoc, List.singleton_append, ← last.split]
    exact hmeant

end Image.ToldBy

/-! ## Histories and stores -/

theorem Store.color_congr {t : Store} (h : t.colors = s.colors) (v n : Int) :
    t.color v n = s.color v n := by
  unfold Store.color
  rw [h]

theorem Image.of_side_eq_ok {length : Int} {k : Nat} (h : Image.side length = .ok k) :
    (k : Int) = length := by
  unfold Image.side at h
  split at h
  · rename_i hrange
    cases h
    exact Int.toNat_of_nonneg hrange.1
  · cases h

theorem Image.of_blank_eq_ok {width height : Int} {m : Image}
    (h : Image.blank width height background = .ok m) :
    (m.width : Int) = width ∧ (m.height : Int) = height ∧ m.background = background ∧
      m.draws = [] := by
  simp only [Image.blank, EState.except_bind_eq_ok_iff] at h
  obtain ⟨w, hw, k, hk, h⟩ := h
  cases h
  exact ⟨Image.of_side_eq_ok hw, Image.of_side_eq_ok hk, rfl, rfl⟩

/-- What neither creates images nor draws tells nothing of any image. -/
theorem Image.ToldBy.append_of_op {m : Image} (h : m.ToldBy history v)
    (hop : y.instruction.op ∉ [Opcode.createTexture, .drawPixel, .drawRectangle]) :
    m.ToldBy (history ++ [y]) v := by
  refine h.append ?_ ?_
  · intro width height c hy
    simp [hy.op] at hop
  · intro area operand hy
    rcases hy.op with hy | hy <;> simp [hy] at hop

namespace Chronicle

theorem empty : Chronicle [] {} where
  image := by
    intro v m h
    cases h
  color := by
    intro v n c h
    cases h

/-- What registers no colour keeps the agreement if it does as to images. -/
theorem append {t : Store} (h : Chronicle history s) (hop : y.instruction.op ≠ .colorId)
    (hcolors : t.colors = s.colors)
    (himage : ∀ {v : Int} {m : Image}, t.bindings.get? v = some (.image m) →
      m.ToldBy (history ++ [y]) v) : Chronicle (history ++ [y]) t where
  image := himage
  color := by
    intro v n c hc
    obtain ⟨early, x, late, last, hx⟩ := h.color (Store.color_congr hcolors v n ▸ hc)
    refine ⟨early, x, late ++ [y], last.append ?_, hx⟩
    rintro ⟨c, hregisters⟩
    exact hop hregisters.op

/-- An instruction that makes no image and no colour keeps the agreement. -/
theorem append_of_quiet {t : Store} (h : Chronicle history s)
    (hop : y.instruction.op ∈ [Opcode.gamedef, .define, .log, .depend])
    (himage : ∀ {v : Int} {m : Image}, t.bindings.get? v = some (.image m) →
      s.bindings.get? v = some (.image m))
    (hcolors : t.colors = s.colors) : Chronicle (history ++ [y]) t := by
  have hother : y.instruction.op ≠ .colorId ∧
      y.instruction.op ∉ [Opcode.createTexture, .drawPixel, .drawRectangle] := by
    revert hop
    cases y.instruction.op <;> decide
  exact h.append hother.1 hcolors fun hm => (h.image (himage hm)).append_of_op hother.2

theorem meant_of_asDrawColor (h : Chronicle history y.store)
    (hc : y.store.asDrawColor v operand = .ok c) : Meant history y v operand c := by
  rcases Store.isColor_or_color_of_asDrawColor hc with hc | ⟨n, hn, hc⟩
  · exact .channels hc
  · obtain ⟨early, x, late, last, registers⟩ := h.color hc
    exact .index hn last registers

/-- A drawing instruction keeps the agreement. -/
theorem append_of_draw {d : Draw} (h : Chronicle history y.store)
    (hdraws : y.Draws v d.shape.area operand) (hmeant : Meant history y v operand d.color) :
    Chronicle (history ++ [y]) (y.store.draw v d) := by
  have hop : y.instruction.op ≠ .colorId ∧ y.instruction.op ≠ .createTexture := by
    rcases hdraws.op with hop | hop <;> simp [hop]
  refine h.append hop.1 rfl fun {u m} hm => ?_
  have hcreates : ∀ w h c, ¬ y.Creates u w h c := fun _ _ _ hy => hop.2 hy.op
  have hold := Store.get?_draw_eq_image hm
  by_cases hu : u = v
  · subst hu
    obtain ⟨old, hget, rfl⟩ := by simpa using hold
    exact (h.image hget).draw hcreates hdraws hmeant
  · -- a target leads to one variable only, so the other images are not drawn on
    rw [if_neg hu] at hold
    refine (h.image hold).append hcreates ?_
    intro area other hy
    exact hu (hy.unique hdraws).1

/-- An instruction that creates an image keeps the agreement: all that the history told of the
variable before is past. -/
theorem append_of_create {m : Image} (h : Chronicle history y.store)
    (hcreates : y.Creates v m.width m.height m.background) (hdraws : m.draws = []) :
    Chronicle (history ++ [y]) ((y.store.bind v (.image m)).addPending v) := by
  have hop : y.instruction.op ≠ .colorId := by simp [hcreates.op]
  refine h.append hop (Store.colors_addPending _ v) fun {u k} hk => ?_
  rw [Store.bindings_addPending, Store.get?_bind] at hk
  by_cases hu : u = v
  · rw [if_pos hu] at hk
    cases hk
    subst hu
    refine ⟨history, y, [], .self history ⟨_, _, _, hcreates⟩, hcreates, ?_⟩
    rw [hdraws]
    exact .nil
  · rw [if_neg hu] at hk
    refine (h.image hk).append ?_ ?_
    · intro width height c hy
      exact hu (hy.unique hcreates)
    · intro area operand hy
      rcases hy.op with hop | hop <;> cases hop.symm.trans hcreates.op

/-- An instruction that registers a colour keeps the agreement. -/
theorem append_of_setColor (h : Chronicle history y.store) (hregisters : y.Registers v n c) :
    Chronicle (history ++ [y]) (y.store.setColor v n c) where
  image := by
    intro u m hm
    exact (h.image hm).append_of_op (by simp [hregisters.op])
  color := by
    intro u k d hd
    rw [Store.color_setColor] at hd
    by_cases hkey : u = v ∧ k = n
    · rw [if_pos hkey] at hd
      cases hd
      obtain ⟨rfl, rfl⟩ := hkey
      exact ⟨history, y, [], .self history ⟨c, hregisters⟩, hregisters⟩
    · rw [if_neg hkey] at hd
      obtain ⟨early, x, late, last, hx⟩ := h.color hd
      refine ⟨early, x, late ++ [y], last.append ?_, hx⟩
      rintro ⟨c, hy⟩
      exact hkey (hy.unique hregisters)

/-- What an instruction does keeps a store in agreement with its history. -/
theorem step {m : Machine} (h : Chronicle history m.store) (hm : i.Means m.store e)
    (hplain : ∀ v ∈ i.operands, ∀ image, v ≠ .image image) :
    Chronicle (history ++ [⟨m.store, i⟩]) (e.apply m).store := by
  cases hm with
  | gamedef => exact h.append_of_quiet (by simp) id rfl
  | log => exact h.append_of_quiet (by simp) id rfl
  | depend => exact h.append_of_quiet (by simp) id rfl
  | @define id v =>
    refine h.append_of_quiet (by simp) ?_ rfl
    intro u image himage
    rw [Effect.apply, Store.get?_bind] at himage
    by_cases hu : u = id
    · rw [if_pos hu] at himage
      exact (hplain v (by simp) image (Option.some.inj himage)).elim
    · rwa [if_neg hu] at himage
  | createTexture hw hh hc hblank =>
    obtain ⟨hwidth, hheight, hbackground, hdraws⟩ := Image.of_blank_eq_ok hblank
    refine append_of_create h (.intro rfl rfl ?_ ?_ ?_) hdraws
    · exact hwidth ▸ (Store.isNumber_of_narrow hw).1
    · exact hheight ▸ (Store.isNumber_of_narrow hh).1
    · exact hbackground ▸ Store.isColor_of_asColor hc
  | colorId ht hi hc =>
    obtain ⟨id, _, rfl, hleads, -⟩ := Store.leads_of_asTarget ht
    exact append_of_setColor h
      (.intro rfl hleads (Store.isNumber_of_narrow hi).1 (Store.isColor_of_asColor hc))
  | drawPixel ht hx hy hc =>
    obtain ⟨id, _, rfl, hleads, -⟩ := Store.leads_of_asTarget ht
    exact append_of_draw h (.pixel rfl hleads (Store.isNumber_of_narrow hx).1
      (Store.isNumber_of_narrow hy).1) (meant_of_asDrawColor h hc)
  | drawRectangle ht hx hy hw hh hc =>
    obtain ⟨id, _, rfl, hleads, -⟩ := Store.leads_of_asTarget ht
    exact append_of_draw h (.rectangle rfl hleads (Store.isNumber_of_narrow hx).1
      (Store.isNumber_of_narrow hy).1 (Store.isNumber_of_narrow hw).1
      (Store.isNumber_of_narrow hh).1) (meant_of_asDrawColor h hc)

end Chronicle

/-! ## Histories of runs -/

namespace Machine

variable {m : Machine} {bs : Bytes}

theorem executed_of_not_completed (h : (m.step bs).outcome ≠ .completed) :
    m.executed bs = [] := by
  rw [executed, steps_of_not_completed h, executedFrom]
  split
  · rename_i hc _
    exact (h hc).elim
  · rfl

theorem executed_of_front (h : (m.step bs).outcome = .completed)
    (hfront : Instruction.front? bs = some i) :
    m.executed bs = ⟨m.store, i⟩ :: (m.step bs).machine.executed (m.step bs).rest := by
  rw [executed, steps_of_completed h, executedFrom, h, hfront]
  rfl

/-- A completed step is the first of the history, and what its instruction means was done. -/
theorem exists_executed (h : (m.step bs).outcome = .completed) :
    ∃ op i e, m.executed bs =
        ⟨m.store, i⟩ :: (m.step bs).machine.executed (m.step bs).rest ∧
      m.step bs = m.complete op (m.step bs).rest e ∧ i.Means m.store e ∧
        ∀ v ∈ i.operands, ∀ image, v ≠ .image image := by
  obtain ⟨a, b, mid, op, i, e, rest, rfl, hop, hi, hmeans, hstep⟩ := step_of_completed h
  have hfront : Instruction.front? (a :: b :: mid) = some i := by
    simp only [Instruction.front?, hop, hi]
  exact ⟨op, i, e, executed_of_front h hfront, by rw [hstep]; rfl, hmeans,
    Opcode.ne_image_of_instruction hi⟩

theorem executed_of_completed (h : (m.step bs).outcome = .completed) :
    ∃ i e, m.executed bs =
        ⟨m.store, i⟩ :: (m.step bs).machine.executed (m.step bs).rest ∧
      (m.step bs).machine.store = (e.apply m).store ∧ i.Means m.store e ∧
        ∀ v ∈ i.operands, ∀ image, v ≠ .image image := by
  obtain ⟨op, i, e, hexecuted, hstep, hmeans, hplain⟩ := exists_executed h
  exact ⟨i, e, hexecuted, by rw [hstep]; rfl, hmeans, hplain⟩

end Machine

/-- A run keeps its store in agreement with its history. -/
theorem Chronicle.run {m : Machine} {bs : Bytes} (h : Chronicle history m.store) :
    Chronicle (history ++ m.executed bs) (m.run bs).machine.store := by
  induction m, bs using Machine.run_induction generalizing history with
  | ends m bs hc =>
    rw [Machine.executed_of_not_completed hc, List.append_nil,
      Machine.run_machine_of_not_completed hc]
    exact h
  | goes m bs hc ih =>
    obtain ⟨i, e, hexecuted, hstore, hmeans, hplain⟩ := Machine.executed_of_completed hc
    rw [hexecuted, Machine.run_machine_of_completed hc, ← List.singleton_append,
      ← List.append_assoc]
    refine ih ?_
    rw [hstore]
    exact h.step hmeans hplain

end SpriteScript
