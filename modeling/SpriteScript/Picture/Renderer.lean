import SpriteScript.Picture.Texture

/-!
# Renderers

A renderer builds textures and releases them. It keeps every texture it has built, in order; the
position of a texture in that list is its handle.
-/

namespace SpriteScript

structure Renderer where
  /-- All textures built so far, the oldest first. -/
  textures : List Texture := []
  /-- How many releases there were. -/
  released : Nat := 0
deriving DecidableEq, Repr

namespace Renderer

/-- How many textures were built. -/
def built (r : Renderer) : Nat := r.textures.length

/-- Builds the texture of a prepared image and gives its handle. -/
def build (r : Renderer) (m : Image) : Except RenderError (Nat × Renderer) := do
  let texture ← m.render
  return (r.built, { r with textures := r.textures ++ [texture] })

/-- Releases the texture with the handle. -/
def release (r : Renderer) (handle : Nat) : Renderer :=
  { textures := r.textures.modify handle fun t => { t with released := true },
    released := r.released + 1 }

end Renderer

end SpriteScript
