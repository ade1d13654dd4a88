import SpriteScript.Proofs.Game.Pixels
import SpriteScript.Proofs.Resource.Calls
import SpriteScript.Proofs.Run.Renderable

/-!
# Whatever is decoded can be rendered

What a run leaves is within the limits of the renderer (`Store.Renderable.run`), and resolving
copies it as it is. So no resource of a loaded game fails to load, whatever the bytes were, and what
it loads is a texture that is as large as its image.
-/

namespace SpriteScript

open EState

variable {bs : Bytes} {g : Game}

namespace Game

/-! ## Loaded games -/

/-- Resolving makes resources of renderable images only, and loads none of them. -/
theorem fresh_of_load (h : (load bs).result = .ok g) :
    g.resources.Fresh ∧ g.resources.residents = [] := by
  obtain ⟨t, ht, hresources⟩ := of_load h
  obtain ⟨order, horder⟩ := Resolver.resolved_of_all ht
  obtain ⟨added, hadded, hbecomes⟩ := horder.resources
  rw [hresources, hadded]
  refine ⟨?_, rfl⟩
  have hrenderable : (Machine.run {} bs).machine.store.Renderable :=
    Store.Renderable.run (m := {}) .empty
  intro id m hm
  unfold Resources.image? at hm
  split at hm
  · rw [List.nil_append] at hm
    obtain ⟨hk, hm⟩ := List.getElem?_eq_some_iff.mp hm
    obtain ⟨old, hold, hcopy, -⟩ := hbecomes.get (hbecomes.length_eq ▸ hk) hk
    subst hm
    exact ⟨hcopy.unprepared, (hrenderable.images hold).colors.of_copyOf hcopy⟩
  · cases hm

/-- Whatever is decoded can be rendered. Every step over any bytes leaves a renderable store; and if
the bytes are those of a game, then loading any of its resources succeeds at any time and gives a
texture of the size of the image, with four bytes for each pixel. -/
theorem decoded_is_renderable (bs : Bytes) :
    (∀ s ∈ Machine.steps {} bs, s.machine.store.Renderable) ∧
      ∀ g, (load bs).result = .ok g → ∀ id : Int, 0 ≤ id → id < g.resources.next →
        ∃ m, g.resources.image? id = some m ∧ ∀ now, g.Played now →
          ∃ handle t, (now.loadResource id).1 = .ok handle ∧
            (now.loadResource id).2.resources.renderer.textures[handle]? = some t ∧
            t.width = m.width ∧ t.height = m.height ∧
            t.bytes.length = 4 * (m.width * m.height) := by
  refine ⟨Store.Renderable.empty.of_mem_steps, fun g h id hid hlt => ?_⟩
  obtain ⟨hfresh, hresidents⟩ := fresh_of_load h
  have hk : id.toNat < g.resources.images.length := by
    unfold Resources.next at hlt
    omega
  have himage : g.resources.image? id = some g.resources.images[id.toNat] := by
    rw [Resources.image?, if_pos hid, List.getElem?_eq_getElem hk]
  refine ⟨_, himage, fun now hnow => ?_⟩
  obtain ⟨-, handle, t, hhandle, ht, hshown⟩ :=
    (hnow.faithful hresidents hfresh).load hfresh himage
  exact ⟨handle, t, hhandle, ht, hshown.width, hshown.height, hshown.bytes⟩

/-- An image of two by three pixels with a rectangle on it that lies outside. -/
theorem decoded_is_renderable_image :
    let bs : Bytes := [0, 4, 0, 0, 0, 1, 1, 2, 1, 3, 5, 3, 1, 9, 1, 9, 1, 9,
      0, 7, 6, 0, 0, 0, 1, 2, 128, 0, 1, 0, 2, 127, 255, 1, 1, 5, 3, 1, 1, 1, 2, 1, 3]
    (∀ s ∈ Machine.steps {} bs, s.machine.store.Renderable) ∧
      ∃ g, (load bs).result = .ok g ∧ g.resources.next = 1 ∧ ∀ now, g.Played now →
        ∃ handle t, (now.loadResource 0).1 = .ok handle ∧
          (now.loadResource 0).2.resources.renderer.textures[handle]? = some t ∧
          t.bytes.length = 24 := by
  intro bs
  obtain ⟨hsteps, hgames⟩ := decoded_is_renderable bs
  refine ⟨hsteps, ?_⟩
  have hload : (load bs).result.toOption.map
      (fun g => (g.resources.next, (g.resources.image? 0).map fun m => (m.width, m.height))) =
      some (1, some (2, 3)) := by decide +kernel
  cases hresult : (load bs).result with
  | error e =>
    rw [hresult] at hload
    cases hload
  | ok g =>
    rw [hresult] at hload
    obtain ⟨hnext, hsize⟩ := Prod.mk.inj (Option.some.inj hload)
    refine ⟨g, rfl, hnext, fun now hnow => ?_⟩
    obtain ⟨m, hm, hrenders⟩ := hgames g hresult 0 (Int.le_refl 0) (by rw [hnext]; decide)
    obtain ⟨handle, t, hhandle, ht, -, -, hlength⟩ := hrenders now hnow
    rw [hm] at hsize
    obtain ⟨hwidth, hheight⟩ := Prod.mk.inj (Option.some.inj hsize)
    refine ⟨handle, t, hhandle, ht, ?_⟩
    rw [hlength, hwidth, hheight]

end Game

end SpriteScript
