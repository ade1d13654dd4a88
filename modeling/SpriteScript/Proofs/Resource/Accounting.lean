import SpriteScript.Proofs.Picture.Raster
import SpriteScript.Proofs.Resource.Calls

/-!
# Accounts of textures

Resources may be added, loaded and evicted in any order, and generations may be swapped without an
eviction or the other way round. Still every texture is accounted for (`Resources.Accounted`): it is
kept for one resource, or it was released once. What carries this over a call is that the handles of
the residents and those released so far are together all handles there are, each once
(`Resources.Balanced`).
-/

namespace SpriteScript

/-- Images as they come about: new, drawn on, and prepared. -/
inductive Image.Made : Image → Prop where
  | new (width height : Nat) (background : Color) (draws : List Draw) (dependencies : List Int) :
      Made { width, height, background, draws, dependencies }
  | draw {m : Image} (before : Made m) (d : Draw) : Made (m.draw d)
  | prepare {m : Image} (before : Made m) : Made m.prepare

namespace Resources

inductive Call where
  | add (m : Image)
  | load (id : Int)
  | resource (id : Int)
  | swap
  | clean
  | endFrame

namespace Call

def apply (r : Resources) : Call → Resources
  | add m => r.add m
  | load id => (r.load id).2
  | resource _ => r
  | swap => r.swap
  | clean => r.clean.2
  | endFrame => r.endFrame.2

def Fails (r : Resources) : Call → Prop
  | load id => ∃ e, (r.load id).1 = .error e
  | resource id => ∃ e, r.resource id = .error e
  | _ => False

def releases (r : Resources) : Call → List Nat
  | clean => r.evicted
  | endFrame => r.swap.evicted
  | _ => []

end Call

def after : Resources → List Call → Resources
  | r, [] => r
  | r, c :: calls => after (c.apply r) calls

def releases : Resources → List Call → List Nat
  | _, [] => []
  | r, c :: calls => c.releases r ++ releases (c.apply r) calls

/-- The renderer is one that built textures and released these handles, and did nothing else. -/
def Ledger (r : Resources) (released : List Nat) : Prop :=
  ∃ textures, (∀ t ∈ textures, t.released = false) ∧
    r.renderer = released.foldl Renderer.release { textures }

/-- What is in use is resident, and what is resident is stored, each once. -/
structure Orderly (r : Resources) : Prop where
  loaded : r.loaded.Nodup
  previous : r.previous.Nodup
  used : ∀ id, id ∈ r.loaded ∨ id ∈ r.previous → r.isResident id
  stored : ∀ id, r.isResident id → (r.image? id).isSome
  keys : (r.residents.map (·.1)).Nodup

structure Accounted (r : Resources) (released : List Nat) : Prop extends r.Orderly where
  ledger : r.Ledger released
  count : r.renderer.built = r.renderer.released + r.residents.length
  /-- A texture is kept for just one resource, or it was released just once. -/
  texture : ∀ k t, r.renderer.textures[k]? = some t →
    (t.released = false ∧ released.count k = 0 ∧
        ∃ id, ∀ other, r.handle? other = some k ↔ other = id) ∨
      (t.released = true ∧ released.count k = 1 ∧ ∀ id, r.handle? id ≠ some k)

structure Balanced (r : Resources) (released : List Nat) : Prop extends r.Orderly where
  ledger : r.Ledger released
  images : ∀ m ∈ r.images, m.Made ∧ m.InRange
  handles : (r.residents.map (·.2) ++ released).Perm (List.range r.renderer.built)

end Resources

variable {r : Resources} {released : List Nat} {m : Image} {t : Texture} {id : Int} {k : Nat}
  {calls : List Resources.Call}

/-! ## Images -/

namespace Image

/-- The numbers of a prepared image are those of its draws. -/
theorem Made.buffer (h : m.Made) : m.buffer? = none ∨ m.buffer? = some m.layout := by
  induction h with
  | new => exact .inl rfl
  | draw => exact .inl rfl
  | @prepare m _ ih =>
    right
    rcases ih with hnone | hsome
    · rw [Image.prepare, hnone]
      rfl
    · rw [Image.prepare, hsome]
      exact hsome

theorem InRange.prepare (h : m.InRange) : m.prepare.InRange := by
  unfold Image.prepare
  split
  · exact h
  · exact h

theorem Made.exists_render (h : m.Made) (hrange : m.InRange) :
    ∃ t, m.prepare.render = .ok t := by
  rcases h.buffer with hnone | hsome
  · obtain ⟨t, ht, -⟩ := render_prepare hnone hrange
    exact ⟨t, ht⟩
  · have hprepare : m.prepare = m := by rw [Image.prepare, hsome]
    obtain ⟨t, ht, -⟩ := exists_render_of_layout hsome hrange
    exact ⟨t, by rw [hprepare, ht]⟩

theorem released_of_render (h : m.render = .ok t) : t.released = false := by
  simp only [render, EState.except_bind_eq_ok_iff] at h
  obtain ⟨_, -, _, -, _, -, h⟩ := h
  cases h
  rfl

end Image

namespace Resources

/-! ## Ledgers -/

theorem Ledger.keep (h : r.Ledger released) (hlt : ∀ k ∈ released, k < r.renderer.built)
    (ht : t.released = false) {next : Resources} (hnext : next.renderer = r.renderer.keep t) :
    next.Ledger released := by
  obtain ⟨textures, hnew, hrenderer⟩ := h
  refine ⟨textures ++ [t], ?_, ?_⟩
  · intro u hu
    rcases List.mem_append.mp hu with hu | hu
    · exact hnew u hu
    · rwa [List.mem_singleton.mp hu]
  · rw [hrenderer, Renderer.built_releases] at hlt
    rw [hnext, hrenderer]
    exact (Renderer.releases_keep hlt t).symm

/-- A texture was released if its handle is in the ledger. -/
theorem Ledger.released_iff (h : r.Ledger released) (ht : r.renderer.textures[k]? = some t) :
    t.released = true ↔ k ∈ released := by
  obtain ⟨textures, hnew, hrenderer⟩ := h
  rw [hrenderer, Renderer.getElem?_releases] at ht
  obtain ⟨u, hu, rfl⟩ := Option.map_eq_some_iff.mp ht
  have hfalse := hnew u (List.mem_of_getElem? hu)
  by_cases hk : k ∈ released
  · simp [hk]
  · simp [hk, hfalse]

theorem Ledger.released_eq (h : r.Ledger released) : r.renderer.released = released.length := by
  obtain ⟨textures, -, hrenderer⟩ := h
  rw [hrenderer, Renderer.released_releases]
  exact Nat.zero_add _

namespace Balanced

/-! ## Calls -/

theorem empty : Balanced {} [] where
  ledger := ⟨[], by simp, rfl⟩
  images := by simp
  loaded := List.nodup_nil
  previous := List.nodup_nil
  used := by simp
  stored := by
    intro id h
    cases h
  keys := List.nodup_nil
  handles := .nil

theorem add (h : r.Balanced released) (hm : m.Made) (hrange : m.InRange) :
    (r.add m).Balanced released where
  ledger := h.ledger
  images := by
    intro k hk
    rcases List.mem_append.mp hk with hk | hk
    · exact h.images k hk
    · rw [List.mem_singleton.mp hk]
      exact ⟨hm, hrange⟩
  loaded := h.loaded
  previous := h.previous
  used := h.used
  stored := by
    intro id hid
    obtain ⟨k, hk⟩ := Option.isSome_iff_exists.mp (h.stored id hid)
    unfold image? at hk ⊢
    split at hk
    · obtain ⟨hlt, -⟩ := List.getElem?_eq_some_iff.mp hk
      rw [if_pos ‹_›, Resources.add, List.getElem?_append_left hlt, hk]
      rfl
    · cases hk
  keys := h.keys
  handles := h.handles

theorem mark (h : r.Balanced released) (hid : r.isResident id) :
    (r.mark id).Balanced released := by
  unfold Resources.mark
  split
  · exact h
  · rename_i hnew
    have hnot : id ∉ r.loaded := by simpa using hnew
    refine ⟨⟨?_, h.previous, ?_, h.stored, h.keys⟩, h.ledger, h.images, h.handles⟩
    · exact h.loaded.append (List.nodup_singleton id) (by simpa using hnot)
    · rintro other (hother | hother)
      · rcases List.mem_append.mp hother with hother | hother
        · exact h.used other (.inl hother)
        · rwa [List.mem_singleton.mp hother]
      · exact h.used other (.inr hother)

theorem released_lt_built (h : r.Balanced released) : ∀ k ∈ released, k < r.renderer.built :=
  fun _ hk => List.mem_range.mp (h.handles.mem_iff.mp (List.mem_append_right _ hk))

/-- Every image in store can be painted. -/
theorem exists_render (h : r.Balanced released) (himage : r.image? id = some m) :
    ∃ t, m.prepare.render = .ok t := by
  obtain ⟨hmade, hrange⟩ := h.images m (mem_images_of_image? himage)
  exact hmade.exists_render hrange

theorem install (h : r.Balanced released) (hhandle : r.handle? id = none)
    (himage : r.image? id = some m) (ht : t.released = false) :
    (r.install id t).Balanced released where
  ledger := h.ledger.keep h.released_lt_built ht rfl
  images := forall_images_modifyImage h.images (fun _ hm => ⟨hm.1.prepare, hm.2.prepare⟩) id
  loaded := by
    rw [loaded_install]
    exact h.loaded
  previous := by
    rw [previous_install]
    exact h.previous
  used := by
    intro other hother
    rw [loaded_install, previous_install] at hother
    exact isResident_install.mpr (.inl (h.used other hother))
  stored := by
    intro other hother
    have hstored : (r.image? other).isSome := by
      rcases isResident_install.mp hother with hother | rfl
      · exact h.stored other hother
      · rw [himage]
        rfl
    rw [image?_install]
    split
    · rwa [Option.isSome_map]
    · exact hstored
  keys := by
    have hnot : id ∉ r.residents.map (·.1) := by
      rw [← isResident_iff, isResident, hhandle]
      simp
    rw [Resources.install, List.map_append]
    exact h.keys.append (List.nodup_singleton id) (by simpa using hnot)
  handles := by
    have hbuilt : (r.install id t).renderer.built = r.renderer.built + 1 := List.length_append
    have hswap : (r.residents.map (·.2) ++ [r.renderer.built] ++ released).Perm
        (r.residents.map (·.2) ++ released ++ [r.renderer.built]) := by
      rw [List.append_assoc, List.append_assoc]
      exact .append_left _ List.perm_append_comm
    rw [hbuilt, List.range_succ, Resources.install, List.map_append]
    exact hswap.trans (h.handles.append_right _)

theorem load (h : r.Balanced released) (id : Int) : (r.load id).2.Balanced released := by
  have hload := r.loads id
  generalize r.load id = result at hload ⊢
  cases hload with
  | @resident handle hhandle =>
    have hresident : r.isResident id := by
      rw [isResident, hhandle]
      rfl
    exact h.mark hresident
  | missing => exact h
  | @unpainted m e _ himage herror =>
    obtain ⟨t, ht⟩ := h.exists_render himage
    cases herror.symm.trans ht
  | built hhandle himage htexture =>
    have hinstall := h.install hhandle himage (Image.released_of_render htexture)
    exact hinstall.mark (isResident_install.mpr (.inr rfl))

theorem handle?_eq_none (h : r.Balanced released) (hnone : r.image? id = none) :
    r.handle? id = none := by
  cases hhandle : r.handle? id with
  | none => rfl
  | some handle =>
    have hstored := h.stored id (by rw [isResident, hhandle]; rfl)
    rw [hnone] at hstored
    cases hstored

/-- Loading fails for just what is not stored. -/
theorem load_fails_iff (h : r.Balanced released) :
    (∃ e, (r.load id).1 = .error e) ↔ r.image? id = none := by
  constructor
  · rintro ⟨e, he⟩
    have hload := r.loads id
    generalize r.load id = result at hload he
    cases hload with
    | resident => cases he
    | missing _ himage => exact himage
    | unpainted _ himage herror =>
      obtain ⟨t, ht⟩ := h.exists_render himage
      cases herror.symm.trans ht
    | built => cases he
  · intro hnone
    rw [load_of_image?_eq_none (h.handle?_eq_none hnone) hnone]
    exact ⟨_, rfl⟩

theorem load_eq_self (h : r.Balanced released) (hfails : ∃ e, (r.load id).1 = .error e) :
    (r.load id).2 = r := by
  have hnone := h.load_fails_iff.mp hfails
  rw [load_of_image?_eq_none (h.handle?_eq_none hnone) hnone]

theorem swap (h : r.Balanced released) : r.swap.Balanced released where
  ledger := h.ledger
  images := h.images
  loaded := List.nodup_nil
  previous := h.loaded
  used := by
    rintro id (hid | hid)
    · cases hid
    · exact h.used id (.inl hid)
  stored := h.stored
  keys := h.keys
  handles := h.handles

/-- After an eviction the residents are those that were used. -/
theorem isResident_clean (h : r.Balanced released) :
    r.clean.2.isResident id ↔ id ∈ r.clean.2.loaded ∨ id ∈ r.clean.2.previous := by
  rw [isResident_iff, List.mem_map]
  constructor
  · rintro ⟨entry, hentry, rfl⟩
    exact (mem_residents_clean.mp hentry).2
  · intro hused
    obtain ⟨entry, hentry, rfl⟩ := List.mem_map.mp (isResident_iff.mp (h.used id hused))
    exact ⟨entry, mem_residents_clean.mpr ⟨hentry, hused⟩, rfl⟩

theorem clean (h : r.Balanced released) : r.clean.2.Balanced (released ++ r.evicted) where
  ledger := by
    obtain ⟨textures, hnew, hrenderer⟩ := h.ledger
    exact ⟨textures, hnew, by rw [renderer_clean, hrenderer, List.foldl_append]⟩
  images := h.images
  loaded := h.loaded
  previous := h.previous
  used := fun _ hused => h.isResident_clean.mpr hused
  stored := by
    intro id hid
    exact h.stored id (h.used id (h.isResident_clean.mp hid))
  keys := h.keys.sublist (List.filter_sublist.map _)
  handles := by
    have hsplit : (r.clean.2.residents.map (·.2) ++ r.evicted).Perm (r.residents.map (·.2)) := by
      rw [evicted, ← List.map_append]
      exact (List.filter_append_perm _ r.residents).map _
    have hswap : (r.clean.2.residents.map (·.2) ++ (released ++ r.evicted)).Perm
        (r.clean.2.residents.map (·.2) ++ r.evicted ++ released) := by
      rw [List.append_assoc]
      exact .append_left _ List.perm_append_comm
    rw [renderer_clean, Renderer.built_releases]
    exact hswap.trans ((hsplit.append_right released).trans h.handles)

theorem call (h : r.Balanced released) (c : Call)
    (hc : ∀ m, c = .add m → m.Made ∧ m.InRange) :
    (c.apply r).Balanced (released ++ c.releases r) := by
  cases c with
  | add m =>
    obtain ⟨hm, hrange⟩ := hc m rfl
    simpa [Call.apply, Call.releases] using h.add hm hrange
  | load id => simpa [Call.apply, Call.releases] using h.load id
  | resource id => simpa [Call.apply, Call.releases] using h
  | swap => simpa [Call.apply, Call.releases] using h.swap
  | clean => exact h.clean
  | endFrame => exact h.swap.clean

theorem after (h : r.Balanced released)
    (hcalls : ∀ m, Call.add m ∈ calls → m.Made ∧ m.InRange) :
    (r.after calls).Balanced (released ++ r.releases calls) := by
  induction calls generalizing r released with
  | nil => simpa [Resources.after, Resources.releases] using h
  | cons c calls ih =>
    have hcall := h.call c fun m hm => hcalls m (hm ▸ List.mem_cons_self)
    rw [Resources.after, Resources.releases, ← List.append_assoc]
    exact ih hcall fun m hm => hcalls m (List.mem_cons_of_mem _ hm)

/-! ## Accounts -/

theorem nodup (h : r.Balanced released) : (r.residents.map (·.2) ++ released).Nodup :=
  h.handles.nodup_iff.mpr List.nodup_range

theorem accounted (h : r.Balanced released) : r.Accounted released where
  toOrderly := h.toOrderly
  ledger := h.ledger
  count := by
    have hlength := h.handles.length_eq
    rw [List.length_append, List.length_map, List.length_range] at hlength
    rw [h.ledger.released_eq, ← hlength, Nat.add_comm]
  texture := by
    intro k t ht
    have hreleased := h.ledger.released_iff ht
    have hnodup := List.nodup_append.mp h.nodup
    have hbuilt : k ∈ List.range r.renderer.built := by
      obtain ⟨hlt, -⟩ := List.getElem?_eq_some_iff.mp ht
      exact List.mem_range.mpr hlt
    rcases List.mem_append.mp (h.handles.mem_iff.mpr hbuilt) with hmem | hmem
    · have hnot : k ∉ released := fun hk => hnodup.2.2 k hmem k hk rfl
      obtain ⟨⟨id, _⟩, hentry, rfl⟩ := List.mem_map.mp hmem
      left
      refine ⟨by simpa [hnot] using hreleased, List.count_eq_zero.mpr hnot, id, fun other => ?_⟩
      rw [handle?_eq_some_iff h.keys]
      constructor
      · intro hother
        exact (Prod.mk.inj (List.inj_on_of_nodup_map hnodup.1 hother hentry rfl)).1
      · rintro rfl
        exact hentry
    · right
      refine ⟨hreleased.mpr hmem, List.count_eq_one_of_mem hnodup.2.1 hmem, fun id hhandle => ?_⟩
      exact hnodup.2.2 k (List.mem_map_of_mem (mem_residents_of_handle? hhandle)) k hmem rfl

end Balanced

/-- The accounts balance after any calls, failed ones included, if the images that are added have
the channels of colours. A call that fails changes nothing; and after an eviction just those
resources are resident that were used in the last two generations. -/
theorem accounts_balance (calls : List Call)
    (h : ∀ m, Call.add m ∈ calls → m.Made ∧ m.InRange) :
    (after {} calls).Accounted (releases {} calls) ∧
      (∀ c : Call, c.Fails (after {} calls) → c.apply (after {} calls) = after {} calls) ∧
      ∀ c ∈ [Call.clean, .endFrame], ∀ id,
        (c.apply (after {} calls)).isResident id ↔
          id ∈ (c.apply (after {} calls)).loaded ∨ id ∈ (c.apply (after {} calls)).previous := by
  have hbalanced : (after {} calls).Balanced (releases {} calls) := Balanced.empty.after h
  refine ⟨hbalanced.accounted, fun c hc => ?_, fun c hc id => ?_⟩
  · cases c with
    | load id => exact hbalanced.load_eq_self hc
    | resource id => rfl
    | _ => cases hc
  · simp only [List.mem_cons, List.not_mem_nil, or_false] at hc
    rcases hc with rfl | rfl
    · exact hbalanced.isResident_clean
    · exact hbalanced.swap.isResident_clean

/-- A resource that is loaded again after its eviction, and one that there is not. -/
theorem accounts_balance_again :
    let m : Image := { width := 1, height := 1, background := ⟨1, 2, 3, false⟩ }
    let calls : List Call := [.add m, .load 0, .swap, .swap, .clean, .load 5, .load 0, .endFrame]
    (after {} calls).residents = [(0, 1)] ∧ (after {} calls).renderer.built = 2 ∧
      (after {} calls).Accounted [0] ∧
      (Call.load 5).apply (after {} calls) = after {} calls ∧
      ∀ id, ((Call.clean).apply (after {} calls)).isResident id ↔
        id ∈ ((Call.clean).apply (after {} calls)).loaded ∨
          id ∈ ((Call.clean).apply (after {} calls)).previous := by
  intro m calls
  have himages : ∀ k, Call.add k ∈ calls → k.Made ∧ k.InRange := by
    intro k hk
    obtain rfl : k = m := by simpa [calls] using hk
    refine ⟨.new 1 1 _ [] [], ?_, by simp [m]⟩
    simp [m, Color.InRange]
  have hreleases : releases {} calls = [0] := by decide +kernel
  have hmissing : (Call.load 5).Fails (after {} calls) :=
    ⟨.semantic (.missingMaterial 5), by decide +kernel⟩
  obtain ⟨haccounted, hfails, hclean⟩ := accounts_balance calls himages
  rw [hreleases] at haccounted
  exact ⟨by decide +kernel, by decide +kernel, haccounted, hfails (.load 5) hmissing,
    hclean .clean List.mem_cons_self⟩

end Resources

end SpriteScript
