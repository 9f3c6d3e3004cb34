import Wander.Structs.Alloc
import Wander.Lib.GoMap

/-!
# Plans

The allocation maps of `structs.Plan`, keyed by node ID, and what the state store's
`UpsertPlanResults` writes for them. A plan names the allocations it stops (`NodeUpdate`), the
ones it places or updates in place (`NodeAllocation`) and the ones it preempts
(`NodePreemptions`); once it is applied, a stopped allocation is desired to stop, a preempted one
to be evicted, and a placement is stored as the plan has it.
-/

set_option autoImplicit false
set_option relaxedAutoImplicit false

namespace Wander.Structs

open Wander.Lib GoMap

/-- `structs.Plan`. -/
structure Plan where
  nodeUpdate : GoMap String (List Allocation) := ∅
  nodeAllocation : GoMap String (List Allocation) := ∅
  nodePreemptions : GoMap String (List Allocation) := ∅
deriving DecidableEq

namespace Plan

/-- The writes `UpsertPlanResults` hands to `upsertAllocsImpl`, in its order: the stops, the
placements, then the preemptions. -/
def upserts (p : Plan) : List Allocation :=
  (contents p.nodeUpdate).map (fun a ↦ { a with desiredStatus := .stop }) ++
    contents p.nodeAllocation ++
    (contents p.nodePreemptions).map (fun a ↦ { a with desiredStatus := .evict })

/-- The allocations table once the plan is applied: each write replaces the allocation of its ID. -/
def applyTo (p : Plan) (allocs : GoMap String Allocation) : GoMap String Allocation :=
  upsertAll Allocation.id allocs p.upserts

/-- What the scheduler keeps of a plan's placements: each sits under the node it names, and no
allocation is placed twice. -/
structure PlacementsWf (p : Plan) : Prop where
  nodeID_eq : ∀ k a, a ∈ get p.nodeAllocation k [] → a.nodeID = k
  ids_nodup : ((contents p.nodeAllocation).map Allocation.id).Nodup

/-- An allocation of the applied plan that is not terminal is one of its placements. -/
theorem mem_placements_of_upserts {p : Plan} {a : Allocation} (ha : a ∈ p.upserts)
    (hlive : a.terminalStatus = false) : a ∈ contents p.nodeAllocation := by
  simp only [upserts, List.mem_append, List.mem_map] at ha
  rcases ha with (⟨b, -, rfl⟩ | ha) | ⟨b, -, rfl⟩
  · simp [Allocation.terminalStatus, Allocation.serverTerminalStatus] at hlive
  · exact ha
  · simp [Allocation.terminalStatus, Allocation.serverTerminalStatus] at hlive

/-- Every ID the plan stops or preempts on a node is written by the plan. -/
theorem mem_upserts_ids_of_stop {p : Plan} {k x : String}
    (h : x ∈ (get p.nodeUpdate k []).map Allocation.id ∨
      x ∈ (get p.nodePreemptions k []).map Allocation.id) :
    x ∈ p.upserts.map Allocation.id := by
  simp only [upserts, List.map_append, List.map_map, List.mem_append, List.mem_map,
    Function.comp_apply]
  rcases h with h | h
  · obtain ⟨a, ha, rfl⟩ := List.mem_map.mp h
    exact Or.inl (Or.inl ⟨a, mem_contents_of_mem_get ha, rfl⟩)
  · obtain ⟨a, ha, rfl⟩ := List.mem_map.mp h
    exact Or.inr ⟨a, mem_contents_of_mem_get ha, rfl⟩

theorem mem_upserts_ids_of_placement {p : Plan} {k x : String}
    (h : x ∈ (get p.nodeAllocation k []).map Allocation.id) : x ∈ p.upserts.map Allocation.id := by
  obtain ⟨a, ha, rfl⟩ := List.mem_map.mp h
  simp only [upserts, List.map_append, List.mem_append]
  exact Or.inl (Or.inr (List.mem_map_of_mem (mem_contents_of_mem_get ha)))

/-- The placements under one node have distinct IDs. -/
theorem PlacementsWf.get_nodup {p : Plan} (hp : p.PlacementsWf) (k : String) :
    ((get p.nodeAllocation k []).map Allocation.id).Nodup := by
  have hperm := (contents_perm_get_erase p.nodeAllocation k).map Allocation.id
  rw [List.map_append] at hperm
  exact (hperm.nodup_iff.mp hp.ids_nodup).of_append_left

end Plan

end Wander.Structs
