import SpriteScript.Picture.Renderer
import SpriteScript.SemanticError

/-!
# Resources

Images become resources with the ids zero, one, and so on. A resource is resident while a texture
of it is kept: loading builds the texture unless there is one, and marks the resource as used in
this frame. At the end of a frame the marks of the frame before are dropped, and every resident
resource without a mark is evicted.
-/

namespace SpriteScript

/-- Why a resource cannot be had. -/
inductive ResourceError where
  | semantic (cause : SemanticError)
  | render (cause : RenderError)
deriving DecidableEq, Repr

structure Resources where
  /-- The image of every resource, in order of id. -/
  images : List Image := []
  renderer : Renderer := {}
  /-- The resident resources with the handles of their textures, in the order they became so. -/
  residents : List (Int × Nat) := []
  /-- The resources used in this frame, in the order of their first use. -/
  loaded : List Int := []
  /-- The resources used in the frame before. -/
  previous : List Int := []
deriving DecidableEq, Repr

namespace Resources

/-- The id that the next image will get. -/
def next (r : Resources) : Int := r.images.length

def add (r : Resources) (m : Image) : Resources := { r with images := r.images ++ [m] }

def image? (r : Resources) (id : Int) : Option Image :=
  if 0 ≤ id then r.images[id.toNat]? else none

def image (r : Resources) (id : Int) : Except SemanticError Image :=
  (r.image? id).elim (.error (.missingMaterial id)) .ok

/-- The ids of all resources. -/
def ids (r : Resources) : List Int := (List.range r.images.length).map Int.ofNat

/-- Changes the image of a resource. -/
def modifyImage (r : Resources) (id : Int) (f : Image → Image) : Resources :=
  if 0 ≤ id then { r with images := r.images.modify id.toNat f } else r

def handle? (r : Resources) (id : Int) : Option Nat := r.residents.lookup id

def isResident (r : Resources) (id : Int) : Bool := (r.handle? id).isSome

/-- The handle of a resident resource's texture. -/
def resource (r : Resources) (id : Int) : Except SemanticError Nat :=
  (r.handle? id).elim (.error (.missingResource id)) .ok

/-- Marks a resource as used in this frame. -/
def mark (r : Resources) (id : Int) : Resources :=
  if r.loaded.contains id then r else { r with loaded := r.loaded ++ [id] }

/-- Makes a resource resident if it is not, and marks it. The image is prepared first, and stays so
even if its texture cannot be built. -/
def load (r : Resources) (id : Int) : Except ResourceError Nat × Resources :=
  match r.handle? id with
  | some handle => (.ok handle, r.mark id)
  | none =>
    match r.image id with
    | .error e => (.error (.semantic e), r)
    | .ok m =>
      let r := r.modifyImage id Image.prepare
      match r.renderer.build m.prepare with
      | .error e => (.error (.render e), r)
      | .ok (handle, renderer) =>
        (.ok handle, { r with renderer, residents := r.residents ++ [(id, handle)] }.mark id)

/-- Begins the next frame: what was used in this frame was used in the frame before. -/
def swap (r : Resources) : Resources := { r with loaded := [], previous := r.loaded }

/-- The resident resources without a mark, in the order they became resident. -/
def stale (r : Resources) : List (Int × Nat) :=
  r.residents.filter fun (id, _) => !(r.loaded.contains id || r.previous.contains id)

/-- Evicts the resident resources without a mark and tells which they were. -/
def clean (r : Resources) : List Int × Resources :=
  (r.stale.map (·.1),
    { r with
      residents := r.residents.filter fun (id, _) => r.loaded.contains id || r.previous.contains id
      renderer := r.stale.foldl (fun renderer (_, handle) => renderer.release handle) r.renderer })

/-- Ends a frame and tells what was evicted. -/
def endFrame (r : Resources) : List Int × Resources := r.swap.clean

end Resources

end SpriteScript
