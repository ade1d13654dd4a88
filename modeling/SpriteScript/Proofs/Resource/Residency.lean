import Mathlib.Data.List.Induction
import SpriteScript.Proofs.Resource.Accounting
import SpriteScript.Proofs.Resource.Loading

/-!
# Residency over frames

While resources are only loaded and frames only end, a dictionary is a cache of two frames
(`Resources.Residency`): resident is what was loaded in this frame or in the one before, and it is
given again as the texture it is; anything else is built anew. What was loaded, and when, is read
off the calls alone (`Resources.Gave`). A dictionary has to remember it for just two frames
(`Resources.Remembers`), and the end of a frame makes the one into the other.
-/

namespace SpriteScript

/-- Textures that differ at most in whether they were released. -/
structure Texture.Alike (t u : Texture) : Prop where
  width : t.width = u.width
  height : t.height = u.height
  bytes : t.bytes = u.bytes

theorem Image.prepareCount_prepare (m : Image) :
    m.prepare.prepareCount = m.prepareCount + if m.isPrepared then 0 else 1 := by
  cases h : m.buffer? with
  | none => simp [prepare, isPrepared, h]
  | some records => simp [prepare, isPrepared, h]

namespace Resources

namespace Call

inductive Plays : Call → Prop where
  | load (id : Int) : Plays (load id)
  | endFrame : Plays endFrame

def endsFrame : Call → Bool
  | endFrame => true
  | _ => false

end Call

/-- Loading a resource gave a handle, and since then `age` frames have ended. -/
def Gave (first : Resources) (calls : List Call) (age : Nat) (id : Int) (handle : Nat) : Prop :=
  ∃ earlier later, calls = earlier ++ .load id :: later ∧ later.countP Call.endsFrame = age ∧
    ((first.after earlier).load id).1 = .ok handle

/-- Loading a resource gave a handle in this frame or in the one before. -/
def Recent (first : Resources) (calls : List Call) (id : Int) (handle : Nat) : Prop :=
  first.Gave calls 0 id handle ∨ first.Gave calls 1 id handle

/-- A dictionary of resources after calls that make up frames. -/
structure Residency (first : Resources) (calls : List Call) : Prop where
  /-- Resident is what was loaded in this frame or in the one before, with the texture it gave. -/
  resident : ∀ id handle, (first.after calls).handle? id = some handle ↔
    first.Recent calls id handle
  /-- It is given again, and nothing is built. -/
  again : ∀ id handle, first.Recent calls id handle →
    ((first.after calls).load id).1 = .ok handle ∧
      ((first.after calls).load id).2.renderer = (first.after calls).renderer
  /-- Anything else is built, if it can be painted. -/
  anew : ∀ id m t, (∀ handle, ¬ first.Recent calls id handle) → first.image? id = some m →
    m.prepare.render = .ok t →
      ((first.after calls).load id).1 = .ok (first.after calls).renderer.built ∧
        ((first.after calls).load id).2.renderer = (first.after calls).renderer.keep t
  /-- What cannot be painted is not to be had. -/
  refused : ∀ id, (∀ m t, first.image? id = some m → m.prepare.render ≠ .ok t) →
    (∃ e, ((first.after calls).load id).1 = .error e) ∧
      ((first.after calls).load id).2.renderer = (first.after calls).renderer
  /-- The end of the frame evicts what was loaded in the frame before and not in this one, -/
  evicted : ∀ id, id ∈ (first.after calls).endFrame.1 ↔
    (∃ handle, first.Gave calls 1 id handle) ∧ ∀ other, ¬ first.Gave calls 0 id other
  /-- in the order in which the textures were built. -/
  order : (first.after calls).endFrame.1.Pairwise fun id other => ∀ handle later,
    first.Recent calls id handle → first.Recent calls other later → handle < later
  /-- All textures that a resource ever had show what its image shows. -/
  texture : ∀ age id handle m, first.Gave calls age id handle → first.image? id = some m →
    ∃ t u, m.prepare.render = .ok t ∧ (first.after calls).renderer.textures[handle]? = some u ∧
      u.Alike t
  /-- However often a resource was loaded, its image was prepared once. -/
  prepared : ∀ id m, first.image? id = some m → .load id ∈ calls →
    ∃ k, (first.after calls).image? id = some k ∧ k.isPrepared = true ∧
      k.prepareCount = m.prepareCount + if m.isPrepared then 0 else 1

structure Remembers (r : Resources) (now before : Int → Nat → Prop) : Prop where
  loaded : ∀ id, id ∈ r.loaded ↔ ∃ handle, now id handle
  previous : ∀ id, id ∈ r.previous ↔ ∃ handle, before id handle
  resident : ∀ id handle, (id, handle) ∈ r.residents ↔ now id handle ∨ before id handle
  keys : (r.residents.map (·.1)).Nodup
  order : (r.residents.map (·.2)).Pairwise (· < ·)
  built : ∀ handle ∈ r.residents.map (·.2), handle < r.renderer.built

variable {first r : Resources} {calls : List Call} {c : Call} {id other : Int}
  {handle age : Nat} {now before : Int → Nat → Prop} {m : Image} {t u : Texture}

/-! ## What calls gave -/

theorem after_append (r : Resources) (calls more : List Call) :
    r.after (calls ++ more) = (r.after calls).after more := by
  induction calls generalizing r with
  | nil => rfl
  | cons c calls ih => exact ih _

theorem after_concat (r : Resources) (calls : List Call) (c : Call) :
    r.after (calls ++ [c]) = c.apply (r.after calls) :=
  after_append r calls [c]

/-- With one more call, either that call gave the handle or an earlier one did. -/
theorem gave_concat : first.Gave (calls ++ [c]) age id handle ↔
    (∃ n, first.Gave calls n id handle ∧ age = n + [c].countP Call.endsFrame) ∨
      c = .load id ∧ age = 0 ∧ ((first.after calls).load id).1 = .ok handle := by
  constructor
  · rintro ⟨earlier, later, hcalls, hage, hgave⟩
    rcases List.eq_nil_or_concat' later with rfl | ⟨later, last, rfl⟩
    · obtain ⟨rfl, hc⟩ := List.append_inj' hcalls rfl
      cases hc
      exact Or.inr ⟨rfl, hage.symm, hgave⟩
    · rw [← List.cons_append, ← List.append_assoc] at hcalls
      obtain ⟨rfl, hc⟩ := List.append_inj' hcalls rfl
      cases hc
      rw [List.countP_append] at hage
      exact Or.inl ⟨_, ⟨earlier, later, rfl, rfl, hgave⟩, hage.symm⟩
  · rintro (⟨n, ⟨earlier, later, rfl, rfl, hgave⟩, rfl⟩ | ⟨rfl, rfl, hgave⟩)
    · refine ⟨earlier, later ++ [c], by simp, ?_, hgave⟩
      rw [List.countP_append]
    · exact ⟨calls, [], rfl, rfl, hgave⟩

theorem gave_load : first.Gave (calls ++ [.load id]) age other handle ↔
    first.Gave calls age other handle ∨
      age = 0 ∧ other = id ∧ ((first.after calls).load id).1 = .ok handle := by
  rw [gave_concat]
  constructor
  · rintro (⟨n, hgave, rfl⟩ | ⟨hid, rfl, hgave⟩)
    · exact Or.inl hgave
    · cases hid
      exact Or.inr ⟨rfl, rfl, hgave⟩
  · rintro (hgave | ⟨rfl, rfl, hgave⟩)
    · exact Or.inl ⟨age, hgave, rfl⟩
    · exact Or.inr ⟨rfl, rfl, hgave⟩

theorem gave_endFrame : first.Gave (calls ++ [.endFrame]) age id handle ↔
    ∃ n, first.Gave calls n id handle ∧ age = n + 1 := by
  rw [gave_concat]
  simp [Call.endsFrame]

theorem Gave.mem (h : first.Gave calls age id handle) : .load id ∈ calls := by
  obtain ⟨earlier, later, rfl, -⟩ := h
  simp

/-! ## What a dictionary remembers -/

theorem mem_loaded_mark : other ∈ (r.mark id).loaded ↔ other ∈ r.loaded ∨ other = id := by
  unfold mark
  split
  · rename_i hmarked
    have hid : id ∈ r.loaded := by simpa using hmarked
    constructor
    · exact Or.inl
    · rintro (hother | rfl)
      · exact hother
      · exact hid
  · simp

@[simp] theorem previous_mark (r : Resources) (id : Int) : (r.mark id).previous = r.previous := by
  unfold mark
  split <;> rfl

namespace Remembers

theorem start (images : List Image) (renderer : Renderer) :
    Remembers { images, renderer } (fun _ _ => False) fun _ _ => False where
  loaded := by simp
  previous := by simp
  resident := by simp
  keys := List.nodup_nil
  order := List.Pairwise.nil
  built := by simp

/-- Loading a resident only marks it. -/
theorem mark (h : r.Remembers now before) (hmem : (id, handle) ∈ r.residents) :
    (r.mark id).Remembers (fun other k => now other k ∨ other = id ∧ k = handle) before where
  loaded := by
    intro other
    rw [mem_loaded_mark, h.loaded, exists_or]
    simp
  previous := by simpa using h.previous
  resident := by
    intro other k
    rw [residents_mark, h.resident]
    constructor
    · rintro (hnow | hbefore)
      · exact Or.inl (Or.inl hnow)
      · exact Or.inr hbefore
    · rintro ((hnow | ⟨rfl, rfl⟩) | hbefore)
      · exact Or.inl hnow
      · exact (h.resident _ _).mp hmem
      · exact Or.inr hbefore
  keys := by simpa using h.keys
  order := by simpa using h.order
  built := by simpa using h.built

/-- What is built becomes resident as the last. -/
theorem install (h : r.Remembers now before) (hnew : r.handle? id = none) (t : Texture) :
    ((r.install id t).mark id).Remembers
      (fun other k => now other k ∨ other = id ∧ k = r.renderer.built) before where
  loaded := by
    intro other
    rw [mem_loaded_mark, loaded_install, h.loaded, exists_or]
    simp
  previous := by
    intro other
    rw [previous_mark, previous_install, h.previous]
  resident := by
    intro other k
    rw [residents_mark, Resources.install, List.mem_append, h.resident, List.mem_singleton,
      Prod.mk.injEq, or_right_comm]
  keys := by
    have hnot : id ∉ r.residents.map (·.1) := by
      rw [← isResident_iff, isResident, hnew]
      simp
    rw [residents_mark, Resources.install, List.map_append]
    exact h.keys.append (List.nodup_singleton id) (by simpa using hnot)
  order := by
    rw [residents_mark, Resources.install, List.map_append, List.pairwise_append]
    refine ⟨h.order, List.pairwise_singleton .., fun k hk last hlast => ?_⟩
    obtain rfl := List.mem_singleton.mp hlast
    exact h.built k hk
  built := by
    have hbuilt : (r.install id t).renderer.built = r.renderer.built + 1 := List.length_append
    rw [residents_mark, renderer_mark, hbuilt, Resources.install, List.map_append]
    intro k hk
    rcases List.mem_append.mp hk with hk | hk
    · exact Nat.lt_succ_of_lt (h.built k hk)
    · rw [List.mem_singleton.mp hk]
      exact Nat.lt_succ_self _

/-- Of what a dictionary remembers, preparing an image changes nothing. -/
theorem modifyImage (h : r.Remembers now before) (id : Int) (f : Image → Image) :
    (r.modifyImage id f).Remembers now before where
  loaded := by simpa using h.loaded
  previous := by simpa using h.previous
  resident := by simpa using h.resident
  keys := by simpa using h.keys
  order := by simpa using h.order
  built := by simpa using h.built

/-- A load adds what it gives. -/
theorem load (h : r.Remembers now before) (id : Int) :
    (r.load id).2.Remembers
      (fun other k => now other k ∨ other = id ∧ (r.load id).1 = .ok k) before := by
  have hloads := r.loads id
  generalize r.load id = result at hloads ⊢
  cases hloads with
  | resident hhandle =>
    simpa [@eq_comm _ _ (_ : Nat)] using h.mark (mem_residents_of_handle? hhandle)
  | missing => simpa using h
  | unpainted => simpa using h.modifyImage id Image.prepare
  | @built m t hhandle => simpa [@eq_comm _ _ (_ : Nat)] using h.install hhandle t

/-- The frame that ends becomes the frame before, and what was loaded earlier is forgotten. -/
theorem endFrame (h : r.Remembers now before) :
    r.endFrame.2.Remembers (fun _ _ => False) now where
  loaded := by simp [Resources.endFrame, clean, swap]
  previous := h.loaded
  resident := by
    intro id handle
    rw [Resources.endFrame, mem_residents_clean]
    constructor
    · rintro ⟨hmem, hmarked | hused⟩
      · cases hmarked
      · -- a resource has one texture, so the resident one is the one that was loaded
        obtain ⟨other, hother⟩ := (h.loaded id).mp hused
        have heq := List.inj_on_of_nodup_map h.keys hmem ((h.resident id other).mpr (Or.inl hother))
          rfl
        cases heq
        exact Or.inr hother
    · rintro (hfalse | hnow)
      · cases hfalse
      · exact ⟨(h.resident id handle).mpr (Or.inl hnow), Or.inr ((h.loaded id).mpr ⟨handle, hnow⟩)⟩
  keys := h.keys.sublist (List.filter_sublist.map _)
  order := h.order.sublist (List.filter_sublist.map _)
  built := by
    rw [Resources.endFrame, renderer_clean, Renderer.built_releases]
    intro handle hhandle
    exact h.built handle ((List.filter_sublist.map _).subset hhandle)

theorem handle?_eq_some_iff (h : r.Remembers now before) :
    r.handle? id = some handle ↔ now id handle ∨ before id handle :=
  (Resources.handle?_eq_some_iff h.keys).trans (h.resident id handle)

theorem handle?_eq_none (h : r.Remembers now before)
    (hnone : ∀ handle, ¬ (now id handle ∨ before id handle)) : r.handle? id = none :=
  Option.eq_none_iff_forall_ne_some.mpr fun handle hhandle =>
    hnone handle (h.handle?_eq_some_iff.mp hhandle)

/-- The resources with the marks of no frame but the one before are stale when this one ends. -/
theorem mem_stale (h : r.Remembers now before) :
    (id, handle) ∈ r.swap.stale ↔ before id handle ∧ ∀ other, ¬ now id other := by
  have hstale : (id, handle) ∈ r.swap.stale ↔ (id, handle) ∈ r.residents ∧ id ∉ r.loaded := by
    simp [stale, swap]
  rw [hstale, h.resident, h.loaded, not_exists]
  constructor
  · rintro ⟨hnow | hbefore, hnot⟩
    · exact absurd hnow (hnot handle)
    · exact ⟨hbefore, hnot⟩
  · rintro ⟨hbefore, hnot⟩
    exact ⟨Or.inr hbefore, hnot⟩

theorem mem_evicted (h : r.Remembers now before) :
    id ∈ r.endFrame.1 ↔ (∃ handle, before id handle) ∧ ∀ other, ¬ now id other := by
  rw [Resources.endFrame, clean, List.mem_map, ← exists_and_right]
  constructor
  · rintro ⟨⟨_, handle⟩, hmem, rfl⟩
    exact ⟨handle, h.mem_stale.mp hmem⟩
  · rintro ⟨handle, hbefore⟩
    exact ⟨(id, handle), h.mem_stale.mpr hbefore, rfl⟩

/-- Residents stand in the order of their handles, and so does what is evicted of them. -/
theorem pairwise_evicted (h : r.Remembers now before) :
    r.endFrame.1.Pairwise fun id other => ∀ handle later,
      now id handle ∨ before id handle → now other later ∨ before other later → handle < later := by
  have hresident : ∀ {id handle k}, (id, handle) ∈ r.residents → now id k ∨ before id k →
      handle = k := fun hmem hk =>
    congrArg Prod.snd (List.inj_on_of_nodup_map h.keys hmem ((h.resident _ _).mpr hk) rfl)
  have hstale : r.swap.stale.Pairwise fun entry other => entry.2 < other.2 :=
    (List.pairwise_map.mp h.order).sublist List.filter_sublist
  rw [Resources.endFrame, clean, List.pairwise_map]
  refine hstale.imp_of_mem fun hfirst hsecond hlt handle later hhandle hlater => ?_
  rwa [← hresident (List.mem_filter.mp hfirst).1 hhandle,
    ← hresident (List.mem_filter.mp hsecond).1 hlater]

end Remembers

/-- A load prepares the image of what was not resident, and leaves all others. -/
theorem image?_load (r : Resources) (id other : Int) :
    (r.load id).2.image? other =
      if other = id ∧ r.handle? id = none then (r.image? other).map Image.prepare
      else r.image? other := by
  have hloads := r.loads id
  generalize r.load id = result at hloads ⊢
  cases hloads with
  | resident hhandle => simp [hhandle]
  | missing hhandle himage =>
    split
    · rename_i heq
      rw [heq.1, himage, Option.map_none]
    · rfl
  | unpainted hhandle => simp [hhandle, image?_modifyImage]
  | built hhandle => simp [hhandle, image?_install]

theorem image?_endFrame (r : Resources) (id : Int) : r.endFrame.2.image? id = r.image? id := rfl

/-- Textures stay what they show, whether they are released or not. -/
theorem exists_alike_clean (ht : r.renderer.textures[handle]? = some t) :
    ∃ u, r.clean.2.renderer.textures[handle]? = some u ∧ u.Alike t := by
  refine ⟨if handle ∈ r.evicted then { t with released := true } else t, ?_, ?_⟩
  · rw [renderer_clean, Renderer.getElem?_releases]
    exact congrArg (Option.map _) ht
  · split <;> exact ⟨rfl, rfl, rfl⟩

theorem exists_alike_apply (c : Call) (ht : r.renderer.textures[handle]? = some t) :
    ∃ u, (c.apply r).renderer.textures[handle]? = some u ∧ u.Alike t := by
  have hsame : ∃ u, r.renderer.textures[handle]? = some u ∧ u.Alike t := ⟨t, ht, rfl, rfl, rfl⟩
  cases c with
  | load id =>
    rw [Call.apply]
    have hloads := r.loads id
    generalize r.load id = result at hloads ⊢
    cases hloads with
    | resident => simpa using hsame
    | missing => exact hsame
    | unpainted => simpa using hsame
    | @built m new =>
      rw [renderer_mark]
      exact ⟨t, Renderer.getElem?_keep ht new, rfl, rfl, rfl⟩
  | add m => exact hsame
  | resource id => exact hsame
  | swap => exact hsame
  | clean => exact exists_alike_clean ht
  | endFrame => exact exists_alike_clean (r := r.swap) ht

/-! ## Frames -/

section Frames

variable (images : List Image) (renderer : Renderer)

/-- The induction is on the last call: what the calls before it gave is what is remembered then. -/
theorem remembers_after (h : ∀ c ∈ calls, c.Plays) :
    (after { images, renderer } calls).Remembers (Gave { images, renderer } calls 0)
      (Gave { images, renderer } calls 1) := by
  induction calls using List.reverseRecOn with
  | nil =>
    have hnone : ∀ age, Gave { images, renderer } [] age = fun _ _ => False := by
      intro age
      ext id handle
      constructor
      · intro hgave
        exact List.not_mem_nil hgave.mem
      · exact False.elim
    rw [hnone, hnone]
    exact .start images renderer
  | append_singleton calls c ih =>
    have hcalls := ih fun c hc => h c (List.mem_append_left _ hc)
    rw [after_concat]
    cases h c (by simp) with
    | endFrame =>
      have hnow : Gave { images, renderer } (calls ++ [.endFrame]) 0 = fun _ _ => False := by
        ext id handle
        simp [gave_endFrame]
      have hbefore : Gave { images, renderer } (calls ++ [.endFrame]) 1 =
          Gave { images, renderer } calls 0 := by
        ext id handle
        simp [gave_endFrame]
      rw [hnow, hbefore]
      exact hcalls.endFrame
    | load id =>
      have hbefore : Gave { images, renderer } (calls ++ [.load id]) 1 =
          Gave { images, renderer } calls 1 := by
        ext other handle
        simp [gave_load]
      have hnow : Gave { images, renderer } (calls ++ [.load id]) 0 = fun other handle =>
          Gave { images, renderer } calls 0 other handle ∨
            other = id ∧ ((after { images, renderer } calls).load id).1 = .ok handle := by
        ext other handle
        simp [gave_load]
      rw [hnow, hbefore]
      exact hcalls.load id

/-- What a resource was loaded from is prepared, and all other images are as they were. -/
theorem image?_after (h : ∀ c ∈ calls, c.Plays) (id : Int) :
    (.load id ∉ calls ∧
        (after { images, renderer } calls).image? id = image? { images, renderer } id) ∨
      (.load id ∈ calls ∧ (after { images, renderer } calls).image? id =
        (image? { images, renderer } id).map Image.prepare) := by
  induction calls using List.reverseRecOn with
  | nil => exact Or.inl ⟨List.not_mem_nil, rfl⟩
  | append_singleton calls c ih =>
    have hcalls : ∀ c ∈ calls, c.Plays := fun c hc => h c (List.mem_append_left _ hc)
    have hid := ih hcalls
    rw [after_concat]
    cases h c (by simp) with
    | endFrame =>
      rw [Call.apply, image?_endFrame]
      simpa using hid
    | load other =>
      rw [Call.apply, image?_load, List.mem_append, List.mem_singleton, Call.load.injEq]
      by_cases heq : id = other
      · subst heq
        refine Or.inr ⟨Or.inr rfl, ?_⟩
        split
        · rcases hid with ⟨-, hsame⟩ | ⟨-, hprepared⟩
          · rw [hsame]
          · rw [hprepared, Option.map_map]
            congr 1
            exact funext Image.prepare_prepare
        · -- a resident was loaded before
          rename_i hresident
          rcases hid with ⟨hnot, -⟩ | ⟨-, hprepared⟩
          · refine absurd ⟨rfl, ?_⟩ hresident
            refine (remembers_after images renderer hcalls).handle?_eq_none fun handle hgave => ?_
            exact hnot (hgave.elim Gave.mem Gave.mem)
          · exact hprepared
      · simpa [heq] using hid

/-- Preparing makes no difference between an image and what it was at first. -/
theorem map_prepare_image?_after (h : ∀ c ∈ calls, c.Plays) (id : Int) :
    ((after { images, renderer } calls).image? id).map Image.prepare =
      (image? { images, renderer } id).map Image.prepare := by
  rcases image?_after images renderer h id with ⟨-, hid⟩ | ⟨-, hid⟩
  · rw [hid]
  · rw [hid, Option.map_map]
    congr 1
    exact funext Image.prepare_prepare

theorem exists_of_image?_after (h : ∀ c ∈ calls, c.Plays)
    (hm : (after { images, renderer } calls).image? id = some m) :
    ∃ k, image? { images, renderer } id = some k ∧ k.prepare = m.prepare := by
  have hprepare := map_prepare_image?_after images renderer h id
  rw [hm] at hprepare
  exact Option.map_eq_some_iff.mp hprepare.symm

/-- Whatever a load gave, it gave for an image that can be painted, and a texture that shows it. -/
theorem Gave.texture (h : ∀ c ∈ calls, c.Plays)
    (hgave : Gave { images, renderer } calls age id handle) :
    ∃ m t u, image? { images, renderer } id = some m ∧ m.prepare.render = .ok t ∧
      (after { images, renderer } calls).renderer.textures[handle]? = some u ∧ u.Alike t := by
  induction calls using List.reverseRecOn generalizing age with
  | nil => simpa using hgave.mem
  | append_singleton calls c ih =>
    have hcalls : ∀ c ∈ calls, c.Plays := fun c hc => h c (List.mem_append_left _ hc)
    have hearlier : ∀ n, Gave { images, renderer } calls n id handle → ∃ m t u,
        image? { images, renderer } id = some m ∧ m.prepare.render = .ok t ∧
        (c.apply (after { images, renderer } calls)).renderer.textures[handle]? = some u ∧
          u.Alike t := by
      intro n hn
      obtain ⟨m, t, u, hm, ht, hu, halike⟩ := ih hcalls hn
      obtain ⟨v, hv, hsame⟩ := exists_alike_apply c hu
      exact ⟨m, t, v, hm, ht, hv, hsame.width.trans halike.width, hsame.height.trans halike.height,
        hsame.bytes.trans halike.bytes⟩
    rw [after_concat]
    rcases gave_concat.mp hgave with ⟨n, hn, -⟩ | ⟨rfl, -, hgave⟩
    · exact hearlier n hn
    · have hloads := (after { images, renderer } calls).loads id
      rw [Call.apply] at hearlier ⊢
      generalize (after { images, renderer } calls).load id = result at hearlier hloads hgave ⊢
      cases hloads with
      | resident hhandle =>
        -- nothing was built, so an earlier load gave the handle
        cases hgave
        have hremembers := remembers_after images renderer hcalls
        rcases hremembers.handle?_eq_some_iff.mp hhandle with hnow | hbefore
        · exact hearlier 0 hnow
        · exact hearlier 1 hbefore
      | missing => cases hgave
      | unpainted => cases hgave
      | @built m t hhandle himage htexture =>
        cases hgave
        obtain ⟨k, hk, hprepare⟩ := exists_of_image?_after images renderer hcalls himage
        refine ⟨k, t, t, hk, by rw [hprepare, htexture], ?_, rfl, rfl, rfl⟩
        rw [renderer_mark]
        exact Renderer.getElem?_keep_built ..

/-- Frames of loads keep just what they loaded and the frame before, whatever the images are, how
often a resource is loaded in a frame, and how many frames there are. -/
theorem residency_over_frames (h : ∀ c ∈ calls, c.Plays) :
    Residency { images, renderer } calls := by
  have hremembers := remembers_after images renderer h
  have hnone : ∀ id, (∀ handle, ¬ Recent { images, renderer } calls id handle) →
      (after { images, renderer } calls).handle? id = none := fun id => hremembers.handle?_eq_none
  constructor
  case resident => exact fun id handle => hremembers.handle?_eq_some_iff
  case again =>
    intro id handle hrecent
    rw [load_of_handle? (hremembers.handle?_eq_some_iff.mpr hrecent)]
    exact ⟨rfl, renderer_mark ..⟩
  case anew =>
    intro id m t hnew hm ht
    have hid := map_prepare_image?_after images renderer h id
    rw [hm] at hid
    obtain ⟨k, hk, hprepare⟩ := Option.map_eq_some_iff.mp hid
    rw [load_of_render (hnone id hnew) hk (by rw [hprepare, ht])]
    exact ⟨rfl, renderer_mark ..⟩
  case refused =>
    intro id hunpainted
    have hloads := (after { images, renderer } calls).loads id
    generalize (after { images, renderer } calls).load id = result at hloads ⊢
    cases hloads with
    | resident hhandle =>
      -- a resident was given by a load, so its image can be painted
      have hrecent := hremembers.handle?_eq_some_iff.mp hhandle
      obtain ⟨m, t, -, hm, ht, -⟩ := hrecent.elim (Gave.texture images renderer h)
        (Gave.texture images renderer h)
      exact absurd ht (hunpainted m t hm)
    | missing => exact ⟨⟨_, rfl⟩, rfl⟩
    | unpainted => exact ⟨⟨_, rfl⟩, renderer_modifyImage ..⟩
    | built _ himage htexture =>
      obtain ⟨k, hk, hprepare⟩ := exists_of_image?_after images renderer h himage
      exact absurd (by rw [hprepare, htexture]) (hunpainted k _ hk)
  case evicted => exact fun id => hremembers.mem_evicted
  case order => exact hremembers.pairwise_evicted
  case texture =>
    intro age id handle m hgave hm
    obtain ⟨k, t, u, hk, ht, hu, halike⟩ := hgave.texture images renderer h
    obtain rfl := Option.some.inj (hm.symm.trans hk)
    exact ⟨t, u, ht, hu, halike⟩
  case prepared =>
    intro id m hm hload
    rcases image?_after images renderer h id with ⟨hnot, -⟩ | ⟨-, hid⟩
    · exact absurd hload hnot
    · rw [hid, hm]
      exact ⟨m.prepare, rfl, m.isPrepared_prepare, m.prepareCount_prepare⟩

/-- Two resources over three frames: the first one rests in the second frame, is evicted at its end
and is built anew in the third; the other is loaded in the first two and lives on. -/
theorem residency_over_frames_three :
    let image : Image := { width := 1, height := 1, background := ⟨1, 2, 3, false⟩ }
    let first : Resources := { images := [image, image] }
    let calls : List Call := [.load 0, .load 1, .endFrame, .load 1, .endFrame, .load 0]
    (∀ c ∈ calls, c.Plays) ∧ Residency first calls ∧
      (first.after (calls.take 4)).endFrame.1 = [0] ∧
      (first.after calls).residents = [(1, 1), (0, 2)] ∧
      (first.after calls).images.map (·.prepareCount) = [1, 1] := by
  intro image first calls
  have hplays : ∀ c ∈ calls, c.Plays := by
    intro c hc
    simp only [calls, List.mem_cons, List.not_mem_nil, or_false] at hc
    rcases hc with rfl | rfl | rfl | rfl | rfl | rfl <;> constructor
  exact ⟨hplays, residency_over_frames [image, image] {} hplays, by decide +kernel,
    by decide +kernel, by decide +kernel⟩

end Frames

end Resources

end SpriteScript
