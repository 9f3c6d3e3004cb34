import Wander.Structs.Alloc
import Wander.Structs.Node

/-!
# The drainer's job watcher

`nomad/drainer/watch_jobs.go`: `handleJob` and `handleTaskGroup`, which compute for a draining
job the allocations to mark for migration and those that finished migrating. The state snapshot
is read through `nodeByID`, its node lookup, which does not fail here; the cache of draining nodes
`handleTaskGroup` keeps only saves lookups in one snapshot. Go ranges over the job's groups in map
order, which moves allocations within the result's lists and nothing else; here the groups come
in the job's order.

`foldl_scanAlloc_service` puts the loop of `handleTaskGroup` as filters and a count, and
`handleTaskGroup_drain_bound` is what it guarantees: the allocations it marks for migration are
running on draining nodes and not yet marked, and leave at least `Count - MaxParallel` healthy
allocations unmarked by it. Allocations marked before and not yet stopped count as healthy, so a
second pass marks more while the first ones are still in flight
(`handleTaskGroup_exceeds_maxParallel`).
-/

set_option autoImplicit false
set_option relaxedAutoImplicit false

namespace Wander.Drainer

open Wander.Structs

/-- `jobResult`. -/
structure JobResult where
  drain : List Allocation := []
  migrated : List Allocation := []
  done : Bool := true
deriving DecidableEq

/-- `newJobResult`. -/
def newJobResult : JobResult := {}

/-- The variables of the loop of `handleTaskGroup`: the result it appends migrated allocations
to, the healthy count, whether an allocation is still draining, and the drainable ones. -/
structure GroupScan where
  result : JobResult
  healthy : ℕ := 0
  remainingDrainingAlloc : Bool := false
  drainable : List Allocation := []

/-- `onDrainingNode` of `handleTaskGroup`: the allocation's node exists and has a drain
strategy. -/
def onDrainingNode (nodeByID : String → Option Node) (alloc : Allocation) : Bool :=
  (nodeByID alloc.nodeID).any fun node ↦ node.drainStrategy.isSome

section Scan

variable (onDrainingNode : Allocation → Bool) (batch : Bool) (lastHandledIndex : ℕ)

/-- An allocation terminal on the client, on a draining node and updated since the last handled
index has migrated. -/
def migrated (alloc : Allocation) : Bool :=
  alloc.clientTerminalStatus && onDrainingNode alloc && lastHandledIndex < alloc.modifyIndex

/-- One pass of the loop of `handleTaskGroup`. -/
def scanAlloc (st : GroupScan) (alloc : Allocation) : GroupScan :=
  if migrated onDrainingNode lastHandledIndex alloc then
    { st with result := { st.result with migrated := st.result.migrated ++ [alloc] } }
  else
    -- a running service allocation with a deployment health is healthy for migration
    let healthy :=
      if !batch && !alloc.terminalStatus && AllocDeploymentStatus.hasHealth alloc.deploymentStatus
      then st.healthy + 1 else st.healthy
    if !onDrainingNode alloc || alloc.clientTerminalStatus then { st with healthy }
    else
      { st with
        healthy
        remainingDrainingAlloc := true
        drainable := if !batch && !alloc.desiredTransition.shouldMigrate then st.drainable ++ [alloc]
          else st.drainable }

end Scan

/-- `handleTaskGroup`; `nodeByID` is the snapshot's `NodeByID`. -/
def handleTaskGroup (nodeByID : String → Option Node) (batch : Bool) (tg : TaskGroup)
    (allocs : List Allocation) (lastHandledIndex : ℕ) (result : JobResult) : JobResult :=
  let st := allocs.foldl (scanAlloc (onDrainingNode nodeByID) batch lastHandledIndex) { result }
  let result := if st.remainingDrainingAlloc then { st.result with done := false } else st.result
  if batch then result
  else
    match tg.migrate with
    -- `handleJob` passes a service group only with a migrate strategy; Go would dereference nil
    | none => result
    | some migrate =>
      let thresholdCount := tg.count - migrate.maxParallel
      let numToDrain := min (st.drainable.length : ℤ) (st.healthy - thresholdCount)
      if numToDrain ≤ 0 then result
      else { result with drain := result.drain ++ st.drainable.take numToDrain.toNat }

/-- `handleJob`: the groups with a migrate strategy, or every group of a batch job, each with its
allocations. -/
def handleJob (nodeByID : String → Option Node) (job : Job) (allocs : List Allocation)
    (lastHandledIndex : ℕ) : JobResult :=
  let batch := job.type = jobTypeBatch
  let taskGroups := job.taskGroups.filter fun tg ↦ tg.migrate.isSome || batch
  taskGroups.foldl (fun r tg ↦
    handleTaskGroup nodeByID batch tg (allocs.filter (·.taskGroup = tg.name)) lastHandledIndex r)
    newJobResult

/-- A service allocation healthy for migration: not terminal, with a deployment health. -/
def healthyForMigration (alloc : Allocation) : Bool :=
  !alloc.terminalStatus && AllocDeploymentStatus.hasHealth alloc.deploymentStatus

section Scan

variable {onDrainingNode : Allocation → Bool} {lastHandledIndex : ℕ}

/-- The loop of a service group's `handleTaskGroup` as filters of its allocations: the migrated
ones, the healthy count, whether one still drains, and the drainable ones. -/
theorem foldl_scanAlloc_service (allocs : List Allocation) (st : GroupScan) :
    allocs.foldl (scanAlloc onDrainingNode false lastHandledIndex) st =
      { result := { st.result with
          migrated := st.result.migrated ++ allocs.filter (migrated onDrainingNode lastHandledIndex) }
        healthy := st.healthy + allocs.countP healthyForMigration
        remainingDrainingAlloc := st.remainingDrainingAlloc ||
          allocs.any fun a ↦ onDrainingNode a && !a.clientTerminalStatus
        drainable := st.drainable ++ allocs.filter fun a ↦
          onDrainingNode a && !a.clientTerminalStatus && !a.desiredTransition.shouldMigrate } := by
  induction allocs generalizing st with
  | nil => simp
  | cons alloc allocs ih =>
    rw [List.foldl_cons, ih]
    unfold scanAlloc
    by_cases hm : migrated onDrainingNode lastHandledIndex alloc = true
    · -- a migrated allocation is terminal on the client, so it counts nowhere else
      have hc : alloc.clientTerminalStatus = true := by
        simp only [migrated, Bool.and_eq_true] at hm
        exact hm.1.1
      have hterm : alloc.terminalStatus = true := by simp [Allocation.terminalStatus, hc]
      simp [healthyForMigration, hm, hc, hterm]
    · rw [if_neg hm]
      -- on a draining node or not, terminal on the client or not; the healthy count moves alike
      cases hd : onDrainingNode alloc <;> cases hc : alloc.clientTerminalStatus <;>
        simp [healthyForMigration, List.filter_cons, List.countP_cons, hd, hc, hm] <;>
        split_ifs <;> simp [Nat.add_comm, Nat.add_left_comm]

end Scan

section Service

variable {nodeByID : String → Option Node} {tg : TaskGroup} {m : MigrateStrategy}
  {allocs : List Allocation} {lastHandledIndex : ℕ} {result : JobResult}

/-- The allocations a service group's `handleTaskGroup` can mark: on a draining node, running on
the client and not yet marked, in the order of `allocs`. -/
def drainable (nodeByID : String → Option Node) (allocs : List Allocation) : List Allocation :=
  allocs.filter fun a ↦
    onDrainingNode nodeByID a && !a.clientTerminalStatus && !a.desiredTransition.shouldMigrate

/-- A service group with a migrate strategy has the first `min(drainable, healthy - (Count -
MaxParallel))` drainable allocations marked, when that is positive. -/
theorem handleTaskGroup_drain_eq (hm : tg.migrate = some m) :
    (handleTaskGroup nodeByID false tg allocs lastHandledIndex result).drain =
      let numToDrain := min ((drainable nodeByID allocs).length : ℤ)
        (allocs.countP healthyForMigration - (tg.count - m.maxParallel))
      if numToDrain ≤ 0 then result.drain
      else result.drain ++ (drainable nodeByID allocs).take numToDrain.toNat := by
  unfold handleTaskGroup
  rw [foldl_scanAlloc_service]
  dsimp only
  simp only [hm, drainable, Bool.false_eq_true, ↓reduceIte, List.nil_append, Nat.zero_add]
  -- whether the group is done does not touch the drain list
  split_ifs with hn <;> simp [hn]

/-- The allocations a service group's `handleTaskGroup` marks for migration are drainable ones,
in order, and leave at least `Count - MaxParallel` of the group's healthy allocations unmarked by
it. Allocations marked before that are still running count among the healthy ones. -/
theorem handleTaskGroup_drain_bound (hm : tg.migrate = some m) :
    ∃ marked, (handleTaskGroup nodeByID false tg allocs lastHandledIndex result).drain =
        result.drain ++ marked ∧ marked.Sublist (drainable nodeByID allocs) ∧
      (marked ≠ [] → tg.count - m.maxParallel + marked.length ≤
        allocs.countP healthyForMigration) := by
  rw [handleTaskGroup_drain_eq hm]
  dsimp only
  split_ifs with hn
  · exact ⟨[], (List.append_nil _).symm, List.nil_sublist _, fun h ↦ absurd rfl h⟩
  · refine ⟨_, rfl, List.take_sublist _ _, fun _ ↦ ?_⟩
    rw [List.length_take]
    omega

end Service

/-- A node with a drain strategy, and the lookup of a snapshot holding it alone. -/
def drainingNodeByID (id : String) : Option Node :=
  if id = "n1" then some { id := "n1", drainStrategy := some {} } else none

/-- A service group of three allocations migrating one at a time. -/
def webGroup : TaskGroup := { name := "web", count := 3, migrate := some { maxParallel := 1 } }

/-- A running, healthy allocation of `webGroup` on the draining node, marked for migration or
not. -/
def webAlloc (id : String) (marked : Bool) : Allocation :=
  { id, nodeID := "n1", taskGroup := "web", clientStatus := .running,
    deploymentStatus := some { healthy := some true },
    desiredTransition := { migrate := if marked then some true else none } }

/-- A first pass over the three allocations marks `a1`. While `a1` still runs, any change of the
allocations makes the watcher pass again, and the second pass marks `a2`: two allocations in
flight, against a `MaxParallel` of 1. -/
theorem handleTaskGroup_exceeds_maxParallel :
    (handleTaskGroup drainingNodeByID false webGroup
        [webAlloc "a1" false, webAlloc "a2" false, webAlloc "a3" false] 0 newJobResult).drain =
      [webAlloc "a1" false] ∧
    let allocs := [webAlloc "a1" true, webAlloc "a2" false, webAlloc "a3" false]
    let inFlight := allocs.filter fun a ↦
      !a.terminalStatus && onDrainingNode drainingNodeByID a && a.desiredTransition.shouldMigrate
    let marked := (handleTaskGroup drainingNodeByID false webGroup allocs 0 newJobResult).drain
    marked = [webAlloc "a2" false] ∧
      max (inFlight.length : ℤ) 1 < inFlight.length + marked.length := by
  decide

theorem handleTaskGroup_drain_bound_webGroup :
    webGroup.migrate = some { maxParallel := 1 } ∧
      ∃ marked, (handleTaskGroup drainingNodeByID false webGroup
          [webAlloc "a1" true, webAlloc "a2" false, webAlloc "a3" false] 0 newJobResult).drain =
          newJobResult.drain ++ marked ∧
        marked.Sublist (drainable drainingNodeByID
          [webAlloc "a1" true, webAlloc "a2" false, webAlloc "a3" false]) ∧
        (marked ≠ [] → webGroup.count - ({ maxParallel := 1 } : MigrateStrategy).maxParallel +
          marked.length ≤ [webAlloc "a1" true, webAlloc "a2" false, webAlloc "a3" false].countP
            healthyForMigration) :=
  ⟨rfl, handleTaskGroup_drain_bound rfl⟩

end Wander.Drainer
