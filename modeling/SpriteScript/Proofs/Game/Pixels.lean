import SpriteScript.Game.Basic
import SpriteScript.Proofs.Resource.Loading
import SpriteScript.Proofs.Resource.Resolution
import SpriteScript.Proofs.Run.History

/-!
# Pixels of a game

What a player sees goes back to the instructions of the program. The run left the images as its
history tells (`Chronicle.run`), resolving copied each of them into a resource of its own, and
loading shows the image of a resource however often it was evicted before.
-/

namespace SpriteScript

variable {history : List Executed} {v : Int} {m : Image} {t : Texture} {bs : Bytes} {g now : Game}

/-- A texture shows what a history tells of the image of a variable: it has the size that the last
instruction gave it that created the image, and every pixel is the colour that was drawn there last
since then, or the background. -/
def Texture.Portrays (t : Texture) (history : List Executed) (v : Int) : Prop :=
  ∃ before x after width height background,
    IsLast (fun x => ∃ w h c, x.Creates v w h c) history before x after ∧
      x.Creates v width height background ∧ t.width = width ∧ t.height = height ∧
        ∀ px py : Int, 0 ≤ px → px < width → 0 ≤ py → py < height →
          ∃ p c, t.pixel px py = .ok p ∧ p.rgba = c.rgba ∧
            Shows (before ++ [x]) after v px py background c

theorem Image.ToldBy.portrays (h : m.ToldBy history v) (hshown : m.ShownBy t) :
    t.Portrays history v := by
  obtain ⟨before, x, after, last, creates, drawn⟩ := h.told
  refine ⟨before, x, after, _, _, _, last, creates, hshown.width, hshown.height, ?_⟩
  intro px py hx hxw hy hyh
  obtain ⟨p, hp, hrgba⟩ := hshown.pixel hx hxw hy hyh
  exact ⟨p, _, hp, hrgba, drawn.shows px py m.background⟩

/-- What shows a copy shows the image itself, which has the same draws. -/
theorem Image.ShownBy.of_copyOf {old : Image} (h : m.ShownBy t) (hcopy : m.CopyOf old) :
    old.ShownBy t where
  width := h.width.trans hcopy.width
  height := h.height.trans hcopy.height
  bytes := by rw [h.bytes, hcopy.width, hcopy.height]
  pixel := by
    intro px py hx hxw hy hyh
    rw [← hcopy.width] at hxw
    rw [← hcopy.height] at hyh
    obtain ⟨p, hp, hrgba⟩ := h.pixel hx hxw hy hyh
    refine ⟨p, hp, hrgba.trans ?_⟩
    rw [Image.colorAt, Image.colorAt, hcopy.draws, hcopy.background]

theorem Image.InRange.of_copyOf {old : Image} (h : old.InRange) (hcopy : m.CopyOf old) :
    m.InRange := by
  rw [Image.InRange, hcopy.background, hcopy.draws]
  exact h

namespace Game

inductive Played (g : Game) : Game → Prop where
  | start : Played g g
  | load {now : Game} (before : Played g now) (id : Int) : Played g (now.loadResource id).2
  | endFrame {now : Game} (before : Played g now) : Played g now.endFrame

theorem Played.faithful (h : g.Played now) (hresidents : g.resources.residents = [])
    (hfresh : g.resources.Fresh) : g.resources.Faithful now.resources := by
  induction h with
  | start => exact .start g.resources hresidents
  | @load now _ id ih =>
    cases hm : g.resources.image? id with
    | none => exact ih.load_of_none hm
    | some m => exact (ih.load hfresh hm).1
  | endFrame _ ih => exact ih.endFrame

/-- A game is loaded if its program runs to its end and all its images can be resolved. -/
theorem of_load (h : (load bs).result = .ok g) :
    ∃ t, Resolver.all { store := (Machine.run {} bs).machine.store, resources := {} } = .ok () t ∧
      g.resources = t.resources := by
  unfold load at h
  simp only at h
  split at h
  · cases h
  · split at h
    · cases h
    · rename_i t ht
      cases h
      exact ⟨t, ht, rfl⟩

/-- Every resource of a loaded game is a copy of an image that the history tells of. -/
theorem exists_told {t : Resolution} {order : List Int} {k : Nat}
    (h : t.Resolved (Machine.run {} bs).machine.store {} order)
    (hk : k < t.resources.images.length) :
    ∃ v m old, t.resources.images[k]? = some m ∧ m.CopyOf old ∧
      old.ToldBy (Machine.executed {} bs) v ∧
      ∀ u, t.resolved.get? u = some (k : Int) ↔ u = v := by
  have hchronicle : Chronicle (Machine.executed {} bs) (Machine.run {} bs).machine.store :=
    Chronicle.run (m := {}) .empty
  obtain ⟨v, m, hm, ⟨old, hold, hcopy, -⟩, hv⟩ := h.exists_variable (k := k) (by simpa using hk)
  refine ⟨v, m, old, by simpa using hm, hcopy, hchronicle.image hold, ?_⟩
  simpa [Resources.next] using hv

/-- Whatever a program does, the texture of a resource shows what the history of the run tells of
the image that became the resource, and it does so at any time. -/
theorem texture_portrays_history (h : (load bs).result = .ok g) :
    ∃ t, Resolver.all { store := (Machine.run {} bs).machine.store, resources := {} } = .ok () t ∧
      g.resources = t.resources ∧
      ∀ id ∈ g.resources.ids, ∃ v, (∀ u, t.resolved.get? u = some id ↔ u = v) ∧
        ∀ now, g.Played now → ∃ handle texture, (now.loadResource id).1 = .ok handle ∧
          (now.loadResource id).2.resources.renderer.textures[handle]? = some texture ∧
          texture.Portrays (Machine.executed {} bs) v := by
  obtain ⟨t, ht, hresources⟩ := of_load h
  refine ⟨t, ht, hresources, ?_⟩
  obtain ⟨order, horder⟩ := Resolver.resolved_of_all ht
  -- resolving copied the images, so none of them is prepared
  have hfresh : g.resources.Fresh := by
    intro id m hm
    rw [hresources, Resources.image?] at hm
    split at hm
    · obtain ⟨hk, -⟩ := List.getElem?_eq_some_iff.mp hm
      obtain ⟨v, _, old, himage, hcopy, htold, -⟩ := exists_told horder hk
      cases hm.symm.trans himage
      exact ⟨hcopy.unprepared, htold.inRange.of_copyOf hcopy⟩
    · cases hm
  have hresidents : g.resources.residents = [] := by
    obtain ⟨added, hadded, -⟩ := horder.resources
    rw [hresources, hadded]
  intro id hid
  obtain ⟨k, hk, rfl⟩ := List.mem_map.mp hid
  rw [List.mem_range, hresources] at hk
  obtain ⟨v, m, old, himage, hcopy, htold, hv⟩ := exists_told horder hk
  refine ⟨v, hv, fun now hnow => ?_⟩
  have hstored : g.resources.image? (Int.ofNat k) = some m := by
    rw [hresources, Resources.image?, if_pos (by simp)]
    exact himage
  obtain ⟨-, handle, texture, hhandle, htexture, hshown⟩ :=
    (hnow.faithful hresidents hfresh).load hfresh hstored
  exact ⟨handle, texture, hhandle, htexture, htold.portrays (hshown.of_copyOf hcopy)⟩

/-- An image of two by two pixels with a transparent pixel drawn on it. -/
theorem texture_portrays_history_pixel :
    let bs : Bytes := [0, 4, 0, 0, 0, 1, 1, 2, 1, 2, 5, 3, 1, 9, 1, 9, 1, 9,
      0, 6, 6, 0, 0, 0, 1, 1, 0, 1, 1, 5, 4, 1, 1, 1, 2, 1, 3, 1, 0]
    ∃ g, (load bs).result = .ok g ∧ g.resources.ids = [0] ∧
      ∃ t, Resolver.all { store := (Machine.run {} bs).machine.store, resources := {} } = .ok () t ∧
        g.resources = t.resources ∧
        ∀ id ∈ g.resources.ids, ∃ v, (∀ u, t.resolved.get? u = some id ↔ u = v) ∧
          ∀ now, g.Played now → ∃ handle texture, (now.loadResource id).1 = .ok handle ∧
            (now.loadResource id).2.resources.renderer.textures[handle]? = some texture ∧
            texture.Portrays (Machine.executed {} bs) v := by
  intro bs
  have hids : (load bs).result.toOption.map (·.resources.ids) = some [0] := by decide +kernel
  cases hresult : (load bs).result with
  | error e =>
    rw [hresult] at hids
    cases hids
  | ok g =>
    rw [hresult] at hids
    exact ⟨g, rfl, Option.some.inj hids, texture_portrays_history hresult⟩

end Game

end SpriteScript
