import SpriteScript.Game.Basic
import SpriteScript.Proofs.Resource.Failure
import SpriteScript.Proofs.Run.Dependencies

/-!
# Games of scripts

A script whose program runs without an error makes a game unless its images depend on each other in
a circle (`loads_unless_cyclic`). Everything else that could keep an image from becoming a resource
is ruled out by the ledger of the run: whatever is pending or depended on is an image, under an id
that was bound just once.
-/

namespace SpriteScript

def Cyclic (edges : List (Int × Int)) : Prop :=
  ∃ v, Relation.TransGen (fun a b => (a, b) ∈ edges) v v

/-- What the image of a variable is among the resources that the variables of `order` become: a copy
whose dependencies are where its edges lead. -/
def Store.Gives (s : Store) (edges : List (Int × Int)) (order : List Int) (v : Int)
    (m : Image) : Prop :=
  ∃ old, s.bindings.get? v = some (.image old) ∧ m.CopyOf old ∧
    m.dependencies = (targets edges v).map fun b => (order.idxOf b : Int)

/-- How the program of a script loads, when the instructions it carries out span a graph. -/
structure LoadsUnlessCyclic [Text.CharacterNames] (source : String) (edges : List (Int × Int)) :
    Prop where
  /-- Every command was carried out, in order. -/
  ops : (Machine.executed {} (Source.compile source).bytes).map (·.instruction.op) =
    (Source.commands source).map (·.op)
  /-- The graph has an edge for each instruction that relates two images. -/
  spans : Spans (Machine.executed {} (Source.compile source).bytes) edges
  /-- Resolving fails if and only if the graph has a cycle, -/
  fails_iff :
    (∃ e t, Resolver.all
      { store := (Machine.run {} (Source.compile source).bytes).machine.store, resources := {} } =
        .error e t) ↔ Cyclic edges
  /-- for that reason, -/
  fails : ∀ e t, Resolver.all
      { store := (Machine.run {} (Source.compile source).bytes).machine.store, resources := {} } =
        .error e t → ∃ ids, e = .cycle ids
  /-- and there is no game then, and for no other reason. -/
  load : ∀ e, (Game.load (Source.compile source).bytes).result = .error e →
    ∃ ids, e = .resolution (.cycle ids)
  /-- Otherwise there is one resource for each command that creates an image. -/
  resources : ∀ t, Resolver.all
      { store := (Machine.run {} (Source.compile source).bytes).machine.store, resources := {} } =
        .ok () t →
    t.resources.images.length =
      (Source.commands source).countP (fun c => c.op = .createTexture) ∧
    ∃ order, order.Perm (created (Machine.executed {} (Source.compile source).bytes)) ∧
      List.Forall₂
        ((Machine.run {} (Source.compile source).bytes).machine.store.Gives edges order) order
        t.resources.images

/-! ## The graph of a ledger -/

namespace Ledger

variable {history : List Executed} {edges : List (Int × Int)} {s : Store} {v w : Int}

theorem dependsOn_iff (h : Ledger history edges s) : s.DependsOn v w ↔ (v, w) ∈ edges := by
  rw [Store.DependsOn, h.dependencies, mem_targets]

theorem reachable_iff (h : Ledger history edges s) : s.Reachable v ↔ v ∈ created history := by
  constructor
  · rintro ⟨root, hroot, hreach⟩
    rw [h.pending] at hroot
    induction hreach with
    | refl => exact hroot
    | tail _ hstep _ => exact (h.ends _ (h.dependsOn_iff.mp hstep)).2
  · intro hv
    exact ⟨v, h.pending ▸ hv, .refl⟩

theorem image_of_reachable (h : Ledger history edges s) (hv : s.Reachable v) :
    ∃ m, s.bindings.get? v = some (.image m) :=
  (h.image_iff v).mp (h.reachable_iff.mp hv)

/-- Every cycle can be reached, since both ends of every edge are pending. -/
theorem cyclic_iff (h : Ledger history edges s) :
    Cyclic edges ↔ ∃ v, s.Reachable v ∧ Relation.TransGen s.DependsOn v v := by
  have hrel : (fun a b => (a, b) ∈ edges) = s.DependsOn := by
    ext a b
    exact h.dependsOn_iff.symm
  rw [Cyclic, hrel]
  constructor
  · rintro ⟨v, hcycle⟩
    obtain ⟨next, hnext, -⟩ := Relation.TransGen.head'_iff.mp hcycle
    exact ⟨v, h.reachable_iff.mpr (h.ends _ (h.dependsOn_iff.mp hnext)).1, hcycle⟩
  · rintro ⟨v, -, hcycle⟩
    exact ⟨v, hcycle⟩

/-- What resolving makes of the images of a ledger. -/
theorem gives_of_resolved (h : Ledger history edges s) {t : Resolution} {order : List Int}
    (ht : t.Resolved s {} order) :
    order.Perm (created history) ∧ List.Forall₂ (s.Gives edges order) order t.resources.images := by
  constructor
  · refine (List.perm_ext_iff_of_nodup ht.nodup h.nodup).mpr fun v => ?_
    rw [ht.mem_iff, h.reachable_iff]
  · obtain ⟨added, hresources, hadded⟩ := ht.resources
    rw [hresources, List.nil_append]
    refine hadded.imp ?_
    rintro v m ⟨old, hold, hcopy, hdependencies⟩
    refine ⟨old, hold, hcopy, ?_⟩
    rw [hdependencies, h.dependencies]
    apply List.map_congr_left
    intro b _
    simp [Resources.idIn, Resources.next]

end Ledger

/-- Without an error there was an image created for each command that creates one. -/
theorem Machine.Follows.length_created [Text.CharacterNames] {m last : Machine} {s : Scope}
    {cs : List Command} {history : List Executed} {error? : Option RunError}
    (h : m.Follows s cs history last error?) (herror : error? = none) :
    (created history).length = cs.countP (fun c => c.op = .createTexture) := by
  induction h with
  | stop => rfl
  | fail => cases herror
  | surplus => cases herror
  | @next m next last s c cs vs bs e history error? written means store rest ih =>
    have htarget := written.target
    unfold created
    rw [List.filterMap_cons, List.countP_cons, ← ih herror]
    by_cases hop : c.op = .createTexture
    · rw [hop] at htarget
      obtain ⟨name, hname⟩ := Option.isSome_iff_exists.mp htarget
      simp [Executed.created?, Command.instruction, Command.owner?, hop, hname, created]
    · simp [Executed.created?, Command.instruction, hop, created]

/-- A compiled program that runs without an error fails to load only because of a cycle among the
images that it relates. -/
theorem loads_unless_cyclic [Text.CharacterNames] {source : String}
    (h : (Source.compile source).error? = none)
    (hrun : (Machine.run {} (Source.compile source).bytes).error? = none) :
    ∃ edges, LoadsUnlessCyclic source edges := by
  have hfollows := Machine.follows (Source.writes_of_compile h) {}
  obtain ⟨edges, hledger⟩ := hfollows.ledger .empty .empty
  rw [List.nil_append] at hledger
  have hfails := fun e t => Resolver.cycle_of_all_error (r := {}) (e := e) (t := t)
    fun _ hv => hledger.image_of_reachable hv
  refine ⟨edges, hfollows.ops_eq hrun, hledger.spans, ?_, hfails, ?_, ?_⟩
  · rw [Resolver.all_error_iff fun _ hv => hledger.image_of_reachable hv, hledger.cyclic_iff]
  · intro e he
    simp only [Game.load, hrun] at he
    cases hall : Resolver.all
        { store := (Machine.run {} (Source.compile source).bytes).machine.store,
          resources := {} } with
    | ok _ t =>
      rw [hall] at he
      cases he
    | error cause t =>
      rw [hall] at he
      cases he
      obtain ⟨ids, rfl⟩ := hfails _ _ hall
      exact ⟨ids, rfl⟩
  · intro t ht
    obtain ⟨order, hresolved⟩ := Resolver.resolved_of_all ht
    obtain ⟨hperm, himages⟩ := hledger.gives_of_resolved hresolved
    refine ⟨?_, order, hperm, himages⟩
    rw [← himages.length_eq, hperm.length_eq, hfollows.length_created hrun]

open scoped Text.CharacterNames

/-- An image related to another through an alias. -/
theorem loads_unless_cyclic_alias :
    ∃ edges, LoadsUnlessCyclic
      "create_tex a 1 1 (0,0,0)\ncreate_tex b 1 1 (0,0,0)\ndef c @b\ndepend @a @c" edges := by
  refine loads_unless_cyclic ?_ ?_
  · rw [← Option.isNone_iff_eq_none]
    decide +kernel
  · rw [← Option.isNone_iff_eq_none]
    decide +kernel

end SpriteScript
