import SpriteScript.Proofs.Resource.Residency

/-!
# Coherence

Images may be drawn on while they are in a dictionary. Two things are kept of an image: the numbers
that it was prepared with, which a draw drops, and the texture of a resident resource, which stays.
So what a load gives is what the image showed when its texture was built, and just that much behind
the image as was drawn since (`Resources.load_coherent`).
-/

namespace SpriteScript

namespace Image

/-- The texture of an image whose draws are laid out anew. -/
def painted (m : Image) : Except RenderError Texture := { m with buffer? := none }.prepare.render

/-- An image is another one with more draws, be it prepared or not. -/
structure DrawnOn (m old : Image) (draws : List Draw) : Prop where
  width : m.width = old.width
  height : m.height = old.height
  background : m.background = old.background
  draws : m.draws = old.draws ++ draws

variable {m n old : Image} {d : Draw} {ds es : List Draw}

/-! ## Painting anew -/

/-- A texture shows what is laid out, whatever the draws are. -/
theorem render_congr (hwidth : m.width = n.width) (hheight : m.height = n.height)
    (hbackground : m.background = n.background) (hbuffer : m.buffer? = n.buffer?) :
    m.render = n.render := by
  unfold render buffer title
  rw [hwidth, hheight, hbackground, hbuffer]

theorem DrawnOn.painted_eq (h : m.DrawnOn old []) : m.painted = old.painted := by
  have hdraws : m.draws = old.draws := by rw [h.draws, List.append_nil]
  refine render_congr h.width h.height h.background ?_
  show some m.layout = some old.layout
  rw [layout, layout, hdraws]

/-- The numbers that an image was prepared with are those of its draws. -/
theorem Made.painted_eq (h : m.Made) : m.painted = m.prepare.render := by
  rcases h.buffer with hnone | hsome
  · have hself : { m with buffer? := none } = m := by rw [← hnone]
    rw [painted, hself]
  · have hprepare : m.prepare = m := by rw [Image.prepare, hsome]
    rw [hprepare]
    exact render_congr rfl rfl rfl hsome.symm

theorem DrawnOn.refl (m : Image) : m.DrawnOn m [] := ⟨rfl, rfl, rfl, (List.append_nil _).symm⟩

theorem DrawnOn.trans (h : n.DrawnOn m es) (h' : m.DrawnOn old ds) : n.DrawnOn old (ds ++ es) where
  width := h.width.trans h'.width
  height := h.height.trans h'.height
  background := h.background.trans h'.background
  draws := by rw [h.draws, h'.draws, List.append_assoc]

/-- Preparing an image makes no difference to what was drawn on it. -/
theorem DrawnOn.of_prepared (h : n.DrawnOn m []) (h' : n.DrawnOn old ds) : m.DrawnOn old ds where
  width := h.width.symm.trans h'.width
  height := h.height.symm.trans h'.height
  background := h.background.symm.trans h'.background
  draws := by rw [← h'.draws, h.draws, List.append_nil]

theorem drawnOn_draw (m : Image) (d : Draw) : (m.draw d).DrawnOn m [d] := ⟨rfl, rfl, rfl, rfl⟩

theorem drawnOn_prepare (m : Image) : m.prepare.DrawnOn m [] := by
  unfold prepare
  split
  · exact .refl m
  · exact ⟨rfl, rfl, rfl, (List.append_nil _).symm⟩

theorem InRange.draw (h : m.InRange) (hd : d.color.InRange) : (m.draw d).InRange := by
  refine ⟨h.1, fun e he => ?_⟩
  rcases List.mem_append.mp he with he | he
  · exact h.2 e he
  · rwa [List.mem_singleton.mp he]

end Image

namespace Resources

inductive Action where
  | call (c : Call)
  | draw (id : Int) (d : Draw)
  | prepare (id : Int)

namespace Action

def apply (r : Resources) : Action → Resources
  | call c => c.apply r
  | draw id d => r.modifyImage id (·.draw d)
  | prepare id => r.modifyImage id Image.prepare

def Paintable : Action → Prop
  | call (.add m) => m.Made ∧ m.InRange
  | draw _ d => d.color.InRange
  | _ => True

def drawsOn (id : Int) : Action → List Draw
  | draw other d => if other = id then [d] else []
  | _ => []

end Action

def acted (r : Resources) (actions : List Action) : Resources := actions.foldl Action.apply r

def drawsOn (id : Int) (actions : List Action) : List Draw := actions.flatMap (Action.drawsOn id)

/-- A load of a resource that was not resident, after some actions, and the image that was stored
then. -/
structure BuiltAfter (actions : List Action) (id : Int) (handle : Nat) (old : Image) : Prop where
  anew : (acted {} actions).handle? id = none
  gave : ((acted {} actions).load id).1 = .ok handle
  image : (acted {} actions).image? id = some old

/-- Every resident has the texture of its image as it was when the texture was built, and the image
is that one with what was drawn since. -/
def Coherent (actions : List Action) : Prop :=
  ∀ id handle, (acted {} actions).handle? id = some handle →
    ∃ before later old m t u, actions = before ++ .call (.load id) :: later ∧
      BuiltAfter before id handle old ∧ (acted {} actions).image? id = some m ∧
      m.DrawnOn old (drawsOn id later) ∧
      (acted {} actions).renderer.textures[handle]? = some t ∧ old.painted = .ok u ∧ t.Alike u

variable {r : Resources} {released : List Nat} {actions later : List Action} {a : Action}
  {c : Call} {id other : Int} {handle : Nat} {m old : Image} {t : Texture}

theorem acted_concat (r : Resources) (actions : List Action) (a : Action) :
    r.acted (actions ++ [a]) = a.apply (r.acted actions) :=
  List.foldl_concat ..

theorem drawsOn_concat (id : Int) (actions : List Action) (a : Action) :
    drawsOn id (actions ++ [a]) = drawsOn id actions ++ a.drawsOn id := by
  rw [drawsOn, List.flatMap_append, List.flatMap_singleton]
  rfl

/-! ## One action -/

/-- Drawing on images and preparing them keeps the accounts balanced. -/
theorem Balanced.modifyImage {f : Image → Image} (h : r.Balanced released)
    (hf : ∀ m, m.Made ∧ m.InRange → (f m).Made ∧ (f m).InRange) (id : Int) :
    (r.modifyImage id f).Balanced released where
  ledger := by simpa [Ledger] using h.ledger
  images := forall_images_modifyImage h.images hf id
  loaded := by simpa using h.loaded
  previous := by simpa using h.previous
  used := by simpa [isResident, handle?] using h.used
  stored := by
    intro other hother
    have hstored := h.stored other (by simpa [isResident, handle?] using hother)
    rw [image?_modifyImage]
    split
    · rwa [Option.isSome_map]
    · exact hstored
  keys := by simpa using h.keys
  handles := by simpa using h.handles

theorem Balanced.act (h : r.Balanced released) (ha : a.Paintable) :
    ∃ more, (a.apply r).Balanced more := by
  cases a with
  | call c =>
    refine ⟨_, h.call c fun m hm => ?_⟩
    subst hm
    exact ha
  | draw id d => exact ⟨_, h.modifyImage (fun _ hm => ⟨hm.1.draw d, hm.2.draw ha⟩) id⟩
  | prepare id => exact ⟨_, h.modifyImage (fun _ hm => ⟨hm.1.prepare, hm.2.prepare⟩) id⟩

/-- What is stored stays so, and changes only by what is drawn on it. -/
theorem Call.exists_drawnOn_apply (c : Call) (hm : r.image? id = some m) :
    ∃ n, (c.apply r).image? id = some n ∧ n.DrawnOn m [] := by
  cases c with
  | add k =>
    refine ⟨m, ?_, .refl m⟩
    unfold image? at hm ⊢
    split at hm
    · obtain ⟨hlt, -⟩ := List.getElem?_eq_some_iff.mp hm
      rw [if_pos ‹_›, Call.apply, Resources.add, List.getElem?_append_left hlt, hm]
    · cases hm
  | load other =>
    rw [Call.apply, image?_load, hm]
    split
    · exact ⟨m.prepare, rfl, m.drawnOn_prepare⟩
    · exact ⟨m, rfl, .refl m⟩
  | _ => exact ⟨m, hm, .refl m⟩

theorem Action.exists_drawnOn_apply (a : Action) (hm : r.image? id = some m) :
    ∃ n, (a.apply r).image? id = some n ∧ n.DrawnOn m (a.drawsOn id) := by
  cases a with
  | call c => exact c.exists_drawnOn_apply hm
  | draw other d =>
    rw [Action.apply, Action.drawsOn, image?_modifyImage, hm]
    by_cases heq : id = other
    · rw [if_pos heq, if_pos heq.symm]
      exact ⟨m.draw d, rfl, m.drawnOn_draw d⟩
    · rw [if_neg heq, if_neg (Ne.symm heq)]
      exact ⟨m, rfl, .refl m⟩
  | prepare other =>
    rw [Action.apply, image?_modifyImage, hm]
    split
    · exact ⟨m.prepare, rfl, m.drawnOn_prepare⟩
    · exact ⟨m, rfl, .refl m⟩

theorem Action.exists_alike_apply (a : Action) (ht : r.renderer.textures[handle]? = some t) :
    ∃ u, (a.apply r).renderer.textures[handle]? = some u ∧ u.Alike t := by
  cases a with
  | call c => exact Resources.exists_alike_apply c ht
  | draw other d =>
    rw [Action.apply, renderer_modifyImage]
    exact ⟨t, ht, rfl, rfl, rfl⟩
  | prepare other =>
    rw [Action.apply, renderer_modifyImage]
    exact ⟨t, ht, rfl, rfl, rfl⟩

theorem handle?_clean (h : (r.residents.map (·.1)).Nodup)
    (hhandle : r.clean.2.handle? id = some handle) : r.handle? id = some handle :=
  (handle?_eq_some_iff h).mpr
    (mem_residents_clean.mp (mem_residents_of_handle? hhandle)).1

/-- Only a load makes a resource resident, with the texture that it gives. -/
theorem handle?_load (h : (r.load other).2.handle? id = some handle) :
    r.handle? id = some handle ∨
      other = id ∧ r.handle? id = none ∧ (r.load id).1 = .ok handle := by
  have hloads := r.loads other
  generalize hresult : r.load other = result at hloads h
  cases hloads with
  | resident =>
    left
    simpa [handle?] using h
  | missing => exact .inl h
  | unpainted =>
    left
    simpa [handle?] using h
  | @built m t hnone =>
    rw [handle?, residents_mark, install, List.lookup_append, Option.or_eq_some_iff] at h
    rcases h with hold | ⟨hnot, hnew⟩
    · exact .inl hold
    · right
      simp only [List.lookup_cons, List.lookup_nil] at hnew
      split at hnew
      · rename_i heq
        obtain rfl : id = other := by simpa using heq
        cases hnew
        exact ⟨rfl, hnot, by rw [hresult]⟩
      · cases hnew

theorem Action.handle?_apply (hkeys : (r.residents.map (·.1)).Nodup)
    (h : (a.apply r).handle? id = some handle) :
    r.handle? id = some handle ∨
      a = .call (.load id) ∧ r.handle? id = none ∧ (r.load id).1 = .ok handle := by
  cases a with
  | call c =>
    cases c with
    | load other =>
      rcases handle?_load h with hold | ⟨rfl, hnew⟩
      · exact .inl hold
      · exact .inr ⟨rfl, hnew⟩
    | clean => exact .inl (handle?_clean hkeys h)
    | endFrame => exact .inl (handle?_clean (r := r.swap) hkeys h)
    | _ => exact .inl h
  | draw other d =>
    left
    simpa [handle?, Action.apply] using h
  | prepare other =>
    left
    simpa [handle?, Action.apply] using h

/-- What a load gives is resident. -/
theorem handle?_load_self (h : (r.load id).1 = .ok handle) :
    (r.load id).2.handle? id = some handle := by
  have hloads := r.loads id
  generalize r.load id = result at hloads h ⊢
  cases hloads with
  | resident hhandle =>
    cases h
    rwa [handle?, residents_mark]
  | missing => cases h
  | unpainted => cases h
  | @built m t hnone =>
    cases h
    rw [handle?, residents_mark, install, List.lookup_append, Option.or_eq_some_iff]
    exact .inr ⟨hnone, List.lookup_cons_self⟩

/-- A texture that is built shows the image that is stored. -/
theorem exists_painted_load (h : r.Balanced released) (hm : r.image? id = some m)
    (hnone : r.handle? id = none) (hgave : (r.load id).1 = .ok handle) :
    ∃ t, (r.load id).2.renderer.textures[handle]? = some t ∧ m.painted = .ok t := by
  obtain ⟨t, ht⟩ := h.exists_render hm
  rw [load_of_render hnone hm ht] at hgave ⊢
  cases hgave
  refine ⟨t, ?_, ?_⟩
  · rw [renderer_mark]
    exact Renderer.getElem?_keep_built ..
  · rw [(h.images m (mem_images_of_image? hm)).1.painted_eq, ht]

/-! ## Runs -/

theorem exists_balanced (h : ∀ a ∈ actions, a.Paintable) :
    ∃ released, (acted {} actions).Balanced released := by
  induction actions using List.reverseRecOn with
  | nil => exact ⟨[], .empty⟩
  | append_singleton actions a ih =>
    obtain ⟨released, hbalanced⟩ := ih fun b hb => h b (List.mem_append_left _ hb)
    rw [acted_concat]
    exact hbalanced.act (h a (by simp))

/-- The induction is on the last action: a resident was one before, or the action built it. -/
theorem coherent (h : ∀ a ∈ actions, a.Paintable) : Coherent actions := by
  induction actions using List.reverseRecOn with
  | nil =>
    intro id handle hhandle
    cases hhandle
  | append_singleton actions a ih =>
    have hactions : ∀ a ∈ actions, a.Paintable := fun b hb => h b (List.mem_append_left _ hb)
    obtain ⟨released, hbalanced⟩ := exists_balanced hactions
    intro id handle hhandle
    rw [acted_concat] at hhandle ⊢
    rcases Action.handle?_apply hbalanced.keys hhandle with hold | ⟨rfl, hnone, hgave⟩
    · obtain ⟨before, later, old, m, t, u, rfl, hbuilt, hm, hdrawn, ht, hu, halike⟩ :=
        ih hactions id handle hold
      obtain ⟨n, hn, hmore⟩ := a.exists_drawnOn_apply hm
      obtain ⟨v, hv, hsame⟩ := a.exists_alike_apply ht
      refine ⟨before, later ++ [a], old, n, v, u, by simp, hbuilt, hn, ?_, hv, hu,
        hsame.width.trans halike.width, hsame.height.trans halike.height,
        hsame.bytes.trans halike.bytes⟩
      rw [drawsOn_concat]
      exact hmore.trans hdrawn
    · have hstored : ((acted {} actions).image? id).isSome := by
        rw [Option.isSome_iff_ne_none, ne_eq, ← hbalanced.load_fails_iff, hgave]
        simp
      obtain ⟨m, hm⟩ := Option.isSome_iff_exists.mp hstored
      obtain ⟨t, ht, hpainted⟩ := exists_painted_load hbalanced hm hnone hgave
      obtain ⟨n, hn, hsame⟩ := (Call.load id).exists_drawnOn_apply hm
      exact ⟨actions, [], m, n, t, t, rfl, ⟨hnone, hgave, hm⟩, hn, hsame, ht, hpainted, rfl, rfl,
        rfl⟩

/-- Whatever was added, drawn, prepared, loaded and evicted before, and in whatever order, loading
what is stored gives a texture with the pixels that its image had when the texture was built. They
are those that the image has now, unless something was drawn on it since. It is assumed that no
image is stored under two ids, or what is drawn on it under one would show under the other: here an
image is stored by value, and a draw is one on the image of a single id. -/
theorem load_coherent (h : ∀ a ∈ actions, a.Paintable)
    (hm : (acted {} actions).image? id = some m) :
    ∃ handle t, ((acted {} actions).load id).1 = .ok handle ∧
      ((acted {} actions).load id).2.renderer.textures[handle]? = some t ∧
      ∃ before later old u, actions ++ [.call (.load id)] = before ++ .call (.load id) :: later ∧
        BuiltAfter before id handle old ∧ m.DrawnOn old (drawsOn id later) ∧
        old.painted = .ok u ∧ t.Alike u ∧ (drawsOn id later = [] → m.painted = .ok u) := by
  obtain ⟨released, hbalanced⟩ := exists_balanced h
  cases hgave : ((acted {} actions).load id).1 with
  | error e =>
    have hnone := hbalanced.load_fails_iff.mp ⟨e, hgave⟩
    cases hm.symm.trans hnone
  | ok handle =>
    have hload : ∀ a ∈ actions ++ [.call (.load id)], a.Paintable := by
      intro a ha
      rcases List.mem_append.mp ha with ha | ha
      · exact h a ha
      · rw [List.mem_singleton.mp ha]
        trivial
    have hresident : (acted {} (actions ++ [.call (.load id)])).handle? id = some handle := by
      rw [acted_concat]
      exact handle?_load_self hgave
    obtain ⟨before, later, old, n, t, u, hsplit, hbuilt, hn, hdrawn, ht, hu, halike⟩ :=
      coherent hload id handle hresident
    rw [acted_concat] at hn ht
    obtain ⟨k, hk, hsame⟩ := (Call.load id).exists_drawnOn_apply hm
    cases hn.symm.trans hk
    have hstored := hsame.of_prepared hdrawn
    refine ⟨handle, t, rfl, ht, before, later, old, u, hsplit, hbuilt, hstored, hu, halike, ?_⟩
    intro hnothing
    rw [hnothing] at hstored
    rw [hstored.painted_eq, hu]

/-- A white pixel on a black image shows after the texture was evicted. -/
theorem load_coherent_evicted :
    let black : Image := { width := 1, height := 1, background := ⟨0, 0, 0, false⟩ }
    let white : Draw := ⟨.pixel 0 0, ⟨255, 255, 255, false⟩⟩
    let actions : List Action := [.call (.add black), .call (.load 0), .draw 0 white,
      .call .endFrame, .call .endFrame]
    ∃ m, (acted {} actions).image? 0 = some m ∧
      ∃ handle t, ((acted {} actions).load 0).1 = .ok handle ∧
        ((acted {} actions).load 0).2.renderer.textures[handle]? = some t ∧
        t.bytes = [255, 255, 255, 255] ∧
        ∃ before later old u, actions ++ [.call (.load 0)] = before ++ .call (.load 0) :: later ∧
          BuiltAfter before 0 handle old ∧ m.DrawnOn old (drawsOn 0 later) ∧
          old.painted = .ok u ∧ t.Alike u ∧ (drawsOn 0 later = [] → m.painted = .ok u) := by
  intro black white actions
  have hblack : black.Made ∧ black.InRange :=
    ⟨.new 1 1 _ [] [], by simp [black, Image.InRange, Color.InRange]⟩
  have hactions : ∀ a ∈ actions, a.Paintable := by
    simp [actions, white, Action.Paintable, Color.InRange, hblack]
  have hstored : ((acted {} actions).image? 0).isSome := by decide +kernel
  obtain ⟨m, hm⟩ := Option.isSome_iff_exists.mp hstored
  obtain ⟨handle, t, hgave, ht, hrest⟩ := load_coherent hactions hm
  refine ⟨m, hm, handle, t, hgave, ht, ?_, hrest⟩
  have hhandle : ((acted {} actions).load 0).1 = .ok 1 := by decide +kernel
  have htextures : ((acted {} actions).load 0).2.renderer.textures[1]?.map (·.bytes) =
      some [255, 255, 255, 255] := by decide +kernel
  cases hhandle.symm.trans hgave
  rw [ht] at htextures
  exact Option.some.inj htextures

/-- While the texture is kept, what is drawn on its image does not show. -/
theorem load_behind_draws :
    let black : Image := { width := 1, height := 1, background := ⟨0, 0, 0, false⟩ }
    let white : Draw := ⟨.pixel 0 0, ⟨255, 255, 255, false⟩⟩
    let actions : List Action := [.call (.add black), .call (.load 0), .draw 0 white]
    (∀ a ∈ actions, a.Paintable) ∧
      ∃ handle t m u, ((acted {} actions).load 0).1 = .ok handle ∧
        ((acted {} actions).load 0).2.renderer.textures[handle]? = some t ∧
        (acted {} actions).image? 0 = some m ∧ m.painted = .ok u ∧ t.bytes ≠ u.bytes := by
  intro black white actions
  have hblack : black.Made ∧ black.InRange :=
    ⟨.new 1 1 _ [] [], by simp [black, Image.InRange, Color.InRange]⟩
  have hactions : ∀ a ∈ actions, a.Paintable := by
    simp [actions, white, Action.Paintable, Color.InRange, hblack]
  refine ⟨hactions, 0, { width := 1, height := 1, bytes := [0, 0, 0, 255] },
    { black with draws := [white], prepareCount := 1 },
    { width := 1, height := 1, bytes := [255, 255, 255, 255] }, ?_⟩
  decide +kernel

end Resources

end SpriteScript
