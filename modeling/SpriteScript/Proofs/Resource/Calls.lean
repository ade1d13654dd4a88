import Mathlib.Data.List.Nodup
import SpriteScript.Proofs.EState
import SpriteScript.Resource.Dictionary

/-!
# Calls on resources

What a single call can do to a dictionary of resources and to its renderer. A load does one of four
things (`Resources.Loads`), and only one of them builds a texture. The textures that were released
are told from the handles alone, in whatever order these were released (`getElem?_releases`).
-/

namespace SpriteScript

namespace Renderer

variable {handles : List Nat} {renderer : Renderer} {t : Texture} {k : Nat}

/-- Releasing marks the textures with the handles, and changes nothing else in any. -/
theorem getElem?_releases (handles : List Nat) (renderer : Renderer) (k : Nat) :
    (handles.foldl release renderer).textures[k]? =
      renderer.textures[k]?.map
        fun t => if k ∈ handles then { t with released := true } else t := by
  induction handles generalizing renderer with
  | nil => simp
  | cons handle handles ih =>
    rw [List.foldl_cons, ih, release, List.getElem?_modify]
    cases renderer.textures[k]? with
    | none => simp
    | some t =>
      by_cases hk : handle = k
      · simp [hk]
      · simp [hk, Ne.symm hk]

theorem built_releases (handles : List Nat) (renderer : Renderer) :
    (handles.foldl release renderer).built = renderer.built := by
  induction handles generalizing renderer with
  | nil => rfl
  | cons handle handles ih =>
    rw [List.foldl_cons, ih]
    exact List.length_modify ..

theorem released_releases (handles : List Nat) (renderer : Renderer) :
    (handles.foldl release renderer).released = renderer.released + handles.length := by
  induction handles generalizing renderer with
  | nil => rfl
  | cons handle handles ih =>
    rw [List.foldl_cons, ih, List.length_cons]
    show renderer.released + 1 + handles.length = _
    omega

def keep (renderer : Renderer) (t : Texture) : Renderer :=
  { renderer with textures := renderer.textures ++ [t] }

theorem getElem?_keep (h : renderer.textures[k]? = some t) (u : Texture) :
    (renderer.keep u).textures[k]? = some t := by
  obtain ⟨hlt, -⟩ := List.getElem?_eq_some_iff.mp h
  rw [keep, List.getElem?_append_left hlt, h]

theorem getElem?_keep_built (renderer : Renderer) (t : Texture) :
    (renderer.keep t).textures[renderer.built]? = some t :=
  List.getElem?_concat_length ..

/-- Releases and a new texture do not get in each other's way. -/
theorem releases_keep (hlt : ∀ k ∈ handles, k < renderer.built) (t : Texture) :
    handles.foldl release (renderer.keep t) = (handles.foldl release renderer).keep t := by
  induction handles generalizing renderer with
  | nil => rfl
  | cons handle handles ih =>
    obtain ⟨hhandle, hhandles⟩ := List.forall_mem_cons.mp hlt
    have hrelease : (renderer.keep t).release handle = (renderer.release handle).keep t := by
      unfold release keep
      congr 1
      refine List.ext_getElem? fun k => ?_
      by_cases hk : k < renderer.textures.length
      · rw [List.getElem?_modify, List.getElem?_append_left hk,
          List.getElem?_append_left (by rwa [List.length_modify]), List.getElem?_modify]
      · have hle : renderer.textures.length ≤ k := Nat.le_of_not_lt hk
        have hne : handle ≠ k := fun heq => hk (heq ▸ hhandle)
        rw [List.getElem?_modify, List.getElem?_append_right hle,
          List.getElem?_append_right (by rwa [List.length_modify]), List.length_modify]
        simp [hne]
    have hbuilt : (renderer.release handle).built = renderer.built :=
      built_releases [handle] renderer
    rw [List.foldl_cons, List.foldl_cons, hrelease, ih (hbuilt ▸ hhandles)]

end Renderer

namespace Resources

def install (r : Resources) (id : Int) (t : Texture) : Resources :=
  { r.modifyImage id Image.prepare with
    renderer := r.renderer.keep t
    residents := r.residents ++ [(id, r.renderer.built)] }

inductive Loads (r : Resources) (id : Int) : Except ResourceError Nat × Resources → Prop where
  | resident {handle : Nat} (hhandle : r.handle? id = some handle) :
      Loads r id (.ok handle, r.mark id)
  | missing (hhandle : r.handle? id = none) (himage : r.image? id = none) :
      Loads r id (.error (.semantic (.missingMaterial id)), r)
  | unpainted {m : Image} {e : RenderError} (hhandle : r.handle? id = none)
      (himage : r.image? id = some m) (herror : m.prepare.render = .error e) :
      Loads r id (.error (.render e), r.modifyImage id Image.prepare)
  | built {m : Image} {t : Texture} (hhandle : r.handle? id = none)
      (himage : r.image? id = some m) (htexture : m.prepare.render = .ok t) :
      Loads r id (.ok r.renderer.built, (r.install id t).mark id)

variable {r : Resources} {id other : Int} {handle : Nat} {m : Image} {t : Texture}

/-! ## Images and marks -/

theorem image?_modifyImage (r : Resources) (id other : Int) (f : Image → Image) :
    (r.modifyImage id f).image? other =
      if other = id then (r.image? other).map f else r.image? other := by
  unfold modifyImage image?
  by_cases hother : 0 ≤ other
  · by_cases hid : 0 ≤ id
    · rw [if_pos hid, if_pos hother, if_pos hother, List.getElem?_modify]
      by_cases heq : other = id
      · simp [heq]
      · have hne : id.toNat ≠ other.toNat := by omega
        simp [heq, hne]
    · have hne : other ≠ id := by omega
      rw [if_neg hid, if_neg hne]
  · rw [if_neg hother, if_neg hother]
    split <;> rfl

@[simp] theorem residents_modifyImage (r : Resources) (id : Int) (f : Image → Image) :
    (r.modifyImage id f).residents = r.residents := by
  unfold modifyImage
  split <;> rfl

@[simp] theorem renderer_modifyImage (r : Resources) (id : Int) (f : Image → Image) :
    (r.modifyImage id f).renderer = r.renderer := by
  unfold modifyImage
  split <;> rfl

@[simp] theorem loaded_modifyImage (r : Resources) (id : Int) (f : Image → Image) :
    (r.modifyImage id f).loaded = r.loaded := by
  unfold modifyImage
  split <;> rfl

@[simp] theorem previous_modifyImage (r : Resources) (id : Int) (f : Image → Image) :
    (r.modifyImage id f).previous = r.previous := by
  unfold modifyImage
  split <;> rfl

theorem mem_images_of_image? (h : r.image? id = some m) : m ∈ r.images := by
  unfold image? at h
  split at h
  · exact List.mem_of_getElem? h
  · cases h

/-- What all images have, they have after a change that keeps it. -/
theorem forall_images_modifyImage {p : Image → Prop} {f : Image → Image}
    (h : ∀ m ∈ r.images, p m) (hf : ∀ m, p m → p (f m)) (id : Int) :
    ∀ m ∈ (r.modifyImage id f).images, p m := by
  unfold modifyImage
  split
  · intro m hm
    obtain ⟨k, hk⟩ := List.mem_iff_getElem?.mp hm
    rw [List.getElem?_modify] at hk
    obtain ⟨old, hold, rfl⟩ := Option.map_eq_some_iff.mp hk
    have hp : p old := h old (List.mem_of_getElem? hold)
    split
    · exact hf old hp
    · exact hp
  · exact h

@[simp] theorem image?_mark (r : Resources) (id other : Int) :
    (r.mark id).image? other = r.image? other := by
  unfold mark
  split <;> rfl

@[simp] theorem residents_mark (r : Resources) (id : Int) :
    (r.mark id).residents = r.residents := by
  unfold mark
  split <;> rfl

@[simp] theorem renderer_mark (r : Resources) (id : Int) : (r.mark id).renderer = r.renderer := by
  unfold mark
  split <;> rfl

/-! ## Loading -/

theorem load_of_handle? (h : r.handle? id = some handle) : r.load id = (.ok handle, r.mark id) := by
  simp only [load, h]

theorem load_of_image?_eq_none (h : r.handle? id = none) (hm : r.image? id = none) :
    r.load id = (.error (.semantic (.missingMaterial id)), r) := by
  simp only [load, h, image, hm, Option.elim_none]

/-- Loading what is not resident builds its texture. -/
theorem load_of_render (h : r.handle? id = none) (hm : r.image? id = some m)
    (ht : m.prepare.render = .ok t) :
    r.load id = (.ok r.renderer.built, (r.install id t).mark id) := by
  have hbuild : r.renderer.build m.prepare = .ok (r.renderer.built, r.renderer.keep t) :=
    EState.except_bind_eq_ok_iff.mpr ⟨t, ht, rfl⟩
  simp only [load, h, image, hm, Option.elim_some, renderer_modifyImage, hbuild,
    residents_modifyImage, install]

theorem loads (r : Resources) (id : Int) : r.Loads id (r.load id) := by
  cases hhandle : r.handle? id with
  | some handle =>
    rw [load_of_handle? hhandle]
    exact .resident hhandle
  | none =>
    cases himage : r.image? id with
    | none =>
      rw [load_of_image?_eq_none hhandle himage]
      exact .missing hhandle himage
    | some m =>
      cases htexture : m.prepare.render with
      | ok t =>
        rw [load_of_render hhandle himage htexture]
        exact .built hhandle himage htexture
      | error e =>
        have hbuild : (r.modifyImage id Image.prepare).renderer.build m.prepare = .error e := by
          rw [Renderer.build, htexture]
          rfl
        simp only [load, hhandle, image, himage, Option.elim_some, hbuild]
        exact .unpainted hhandle himage htexture

/-! ## Residents -/

theorem mem_residents_of_handle? (h : r.handle? id = some handle) : (id, handle) ∈ r.residents := by
  obtain ⟨before, after, hsplit, -⟩ := List.lookup_eq_some_iff.mp h
  rw [hsplit]
  exact List.mem_append_right _ List.mem_cons_self

theorem isResident_iff : r.isResident id = true ↔ id ∈ r.residents.map (·.1) := by
  rw [isResident, handle?, List.lookup_isSome_iff, List.mem_map]
  simp only [beq_iff_eq, @eq_comm _ id]

theorem handle?_eq_some_iff (h : (r.residents.map (·.1)).Nodup) :
    r.handle? id = some handle ↔ (id, handle) ∈ r.residents := by
  refine ⟨mem_residents_of_handle?, fun hmem => ?_⟩
  cases hhandle : r.handle? id with
  | none =>
    have hresident : r.isResident id = true := isResident_iff.mpr (List.mem_map_of_mem hmem)
    rw [isResident, hhandle] at hresident
    cases hresident
  | some other =>
    have heq := List.inj_on_of_nodup_map h (mem_residents_of_handle? hhandle) hmem rfl
    rw [(Prod.mk.inj heq).2]

/-! ## Building -/

theorem loaded_install (r : Resources) (id : Int) (t : Texture) :
    (r.install id t).loaded = r.loaded :=
  loaded_modifyImage r id Image.prepare

theorem previous_install (r : Resources) (id : Int) (t : Texture) :
    (r.install id t).previous = r.previous :=
  previous_modifyImage r id Image.prepare

theorem image?_install (r : Resources) (id other : Int) (t : Texture) :
    (r.install id t).image? other =
      if other = id then (r.image? other).map Image.prepare else r.image? other :=
  image?_modifyImage r id other Image.prepare

theorem isResident_install :
    (r.install id t).isResident other = true ↔ r.isResident other = true ∨ other = id := by
  rw [isResident_iff, isResident_iff, install, List.map_append, List.mem_append]
  simp

/-! ## Evicting -/

def evicted (r : Resources) : List Nat := r.stale.map (·.2)

theorem renderer_clean (r : Resources) :
    r.clean.2.renderer = r.evicted.foldl Renderer.release r.renderer := by
  rw [evicted, List.foldl_map]
  rfl

/-- What is not evicted was used, and what was used is not evicted. -/
theorem mem_residents_clean {entry : Int × Nat} : entry ∈ r.clean.2.residents ↔
    entry ∈ r.residents ∧ (entry.1 ∈ r.loaded ∨ entry.1 ∈ r.previous) := by
  simp [clean]

end Resources

end SpriteScript
