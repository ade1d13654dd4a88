import SpriteScript.Proofs.Picture.Raster
import SpriteScript.Proofs.Resource.Calls

/-!
# Loading resources

Resources are built from their images when they are loaded, kept for a while and evicted. Loading
changes an image only by preparing it, so whatever was loaded and evicted before, the texture that
loading gives shows the image that was stored under the id at first (`Faithful`).
-/

namespace SpriteScript

theorem Image.prepare_prepare (m : Image) : m.prepare.prepare = m.prepare := by
  cases h : m.buffer? with
  | none => simp [prepare, h]
  | some records => simp [prepare, h]

namespace Resources

def Fresh (r : Resources) : Prop :=
  ∀ {id : Int} {m : Image}, r.image? id = some m → m.buffer? = none ∧ m.InRange

/-- Resources that came by loading and evicting from others: images were prepared at most, and the
texture of every resident shows its image. -/
structure Faithful (first r : Resources) : Prop where
  image : ∀ id, r.image? id = first.image? id ∨ r.image? id = (first.image? id).map Image.prepare
  texture : ∀ {id : Int} {handle : Nat}, (id, handle) ∈ r.residents →
    ∃ m t, first.image? id = some m ∧ r.renderer.textures[handle]? = some t ∧ m.ShownBy t

variable {first r : Resources} {id other : Int} {handle : Nat} {m : Image} {t : Texture}

/-! ## Loading -/

namespace Faithful

theorem start (first : Resources) (h : first.residents = []) : Faithful first first where
  image := fun _ => Or.inl rfl
  texture := by
    intro id handle hmem
    rw [h] at hmem
    cases hmem

theorem prepare_image (h : Faithful first r) (hm : first.image? id = some m) :
    ∃ k, r.image? id = some k ∧ k.prepare = m.prepare := by
  rcases h.image id with hid | hid
  · exact ⟨m, hid.trans hm, rfl⟩
  · rw [hm] at hid
    exact ⟨m.prepare, hid, m.prepare_prepare⟩

/-- Only images and residents matter, and of the textures only what they show. -/
theorem of_residents_subset {next : Resources} (h : Faithful first r)
    (himage : ∀ id, next.image? id = r.image? id ∨ next.image? id = (r.image? id).map Image.prepare)
    (hresidents : next.residents ⊆ r.residents)
    (htextures : ∀ {k : Nat} {m : Image} {t : Texture}, r.renderer.textures[k]? = some t →
      m.ShownBy t → ∃ u, next.renderer.textures[k]? = some u ∧ m.ShownBy u) :
    Faithful first next where
  image := by
    intro id
    rcases himage id with hid | hid
    · rw [hid]
      exact h.image id
    · right
      rcases h.image id with hr | hr
      · rw [hid, hr]
      · rw [hid, hr, Option.map_map]
        congr 1
        exact funext Image.prepare_prepare
  texture := by
    intro id handle hmem
    obtain ⟨m, t, hm, ht, hshown⟩ := h.texture (hresidents hmem)
    obtain ⟨u, hu, hshown⟩ := htextures ht hshown
    exact ⟨m, u, hm, hu, hshown⟩

theorem mark (h : Faithful first r) (id : Int) : Faithful first (r.mark id) := by
  refine h.of_residents_subset ?_ ?_ ?_
  · exact fun other => Or.inl (image?_mark ..)
  · rw [residents_mark]
    exact List.Subset.refl _
  · intro k m t ht hshown
    exact ⟨t, by rwa [renderer_mark], hshown⟩

/-- A new texture may be kept if it shows its image. -/
theorem build (h : Faithful first r) (hm : first.image? id = some m) (hshown : m.ShownBy t) :
    Faithful first (r.install id t) where
  image := by
    intro other
    rw [image?_install]
    split
    · -- a former loading may have prepared the image already
      rename_i heq
      obtain ⟨k, hk, hprepare⟩ := h.prepare_image hm
      right
      rw [heq, hk, hm, Option.map_some, Option.map_some, hprepare]
    · exact h.image other
  texture := by
    intro other handle hmem
    rcases List.mem_append.mp hmem with hmem | hmem
    · obtain ⟨k, u, hk, hu, hshown⟩ := h.texture hmem
      exact ⟨k, u, hk, Renderer.getElem?_keep hu t, hshown⟩
    · cases List.mem_singleton.mp hmem
      exact ⟨m, t, hm, Renderer.getElem?_keep_built .., hshown⟩

/-- Loading a stored image gives a texture that shows it. -/
theorem load (hfresh : first.Fresh) (h : Faithful first r) (hm : first.image? id = some m) :
    Faithful first (r.load id).2 ∧ ∃ handle t, (r.load id).1 = .ok handle ∧
      (r.load id).2.renderer.textures[handle]? = some t ∧ m.ShownBy t := by
  cases hhandle : r.handle? id with
  | some handle =>
    obtain ⟨k, t, hk, ht, hshown⟩ := h.texture (mem_residents_of_handle? hhandle)
    obtain rfl := Option.some.inj (hm.symm.trans hk)
    rw [load_of_handle? hhandle]
    exact ⟨h.mark id, handle, t, rfl, by rwa [renderer_mark], hshown⟩
  | none =>
    obtain ⟨hbuffer, hrange⟩ := hfresh hm
    obtain ⟨t, ht, hshown⟩ := Image.render_prepare hbuffer hrange
    obtain ⟨k, hk, hprepare⟩ := h.prepare_image hm
    rw [load_of_render hhandle hk (hprepare ▸ ht)]
    refine ⟨(h.build hm hshown).mark id, r.renderer.built, t, rfl, ?_, hshown⟩
    rw [renderer_mark]
    exact Renderer.getElem?_keep_built ..

/-- Loading an id that nothing is stored under changes nothing. -/
theorem load_of_none (h : Faithful first r) (hnone : first.image? id = none) :
    Faithful first (r.load id).2 := by
  have himage : r.image? id = none := by
    rcases h.image id with hid | hid <;> simpa [hnone] using hid
  cases hhandle : r.handle? id with
  | some handle =>
    obtain ⟨m, _, hm, -⟩ := h.texture (mem_residents_of_handle? hhandle)
    cases hnone.symm.trans hm
  | none =>
    rw [load_of_image?_eq_none hhandle himage]
    exact h

/-! ## Ending a frame -/

theorem endFrame (h : Faithful first r) : Faithful first r.endFrame.2 := by
  refine h.of_residents_subset (fun _ => Or.inl rfl) (fun _ hmem => (List.mem_filter.mp hmem).1) ?_
  intro k m t ht hshown
  have hkept : r.endFrame.2.renderer.textures[k]? =
      some (if k ∈ r.swap.evicted then { t with released := true } else t) := by
    rw [Resources.endFrame, renderer_clean, Renderer.getElem?_releases]
    exact congrArg (Option.map _) ht
  refine ⟨_, hkept, ?_⟩
  split
  · exact ⟨hshown.width, hshown.height, hshown.bytes, hshown.pixel⟩
  · exact hshown

end Faithful

end Resources

end SpriteScript
