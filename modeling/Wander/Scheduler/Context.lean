import Wander.State.StateStore

/-!
# `scheduler/context.go`: the evaluation context

What the feasibility iterators read while a plan is being built: the state snapshot and the
plan so far. `proposedAllocs` is the scheduler's view of a node once the plan is applied: the
node's allocations less the plan's stops and preemptions and those the client finished, with the
plan's placements in the place of the allocations of their IDs.

`EvalEligibility` is the evaluation's cache of feasibility verdicts per computed node class, for
the job and for each task group, with the flags that switch it off when constraints escape the
computed class.
-/

set_option autoImplicit false
set_option relaxedAutoImplicit false

namespace Wander.Scheduler

open Wander.Lib Wander.Structs Wander.State GoMap

/-- The parts of `EvalContext` the modelled iterators read. -/
structure EvalContext where
  state : StateStore
  plan : Plan

namespace EvalContext

/-- `EvalContext.ProposedAllocs`. The store's read cannot fail here, so neither can this. -/
def proposedAllocs (ctx : EvalContext) (nodeID : String) : List Allocation :=
  let proposed := ctx.state.allocsByNode nodeID
  let update := get ctx.plan.nodeUpdate nodeID []
  let proposed := if update.length > 0 then removeAllocs proposed update else proposed
  let nodePreemptedAllocs := get ctx.plan.nodePreemptions nodeID []
  let proposed :=
    if nodePreemptedAllocs.length > 0 then removeAllocs proposed nodePreemptedAllocs else proposed
  -- indexed by ID, so that an in-place update replaces the allocation it updates
  let proposedIDs := upsertAll Allocation.id ∅ (proposed.filter fun a ↦ !a.clientTerminalStatus)
  let proposedIDs := upsertAll Allocation.id proposedIDs (get ctx.plan.nodeAllocation nodeID [])
  values proposedIDs

/-- The allocations of the node that `proposedAllocs` keeps before the plan's placements are
written over them. -/
def kept (ctx : EvalContext) (nodeID : String) : List Allocation :=
  (removeAllocs (removeAllocs (ctx.state.allocsByNode nodeID) (get ctx.plan.nodeUpdate nodeID []))
    (get ctx.plan.nodePreemptions nodeID [])).filter fun a ↦ !a.clientTerminalStatus

theorem proposedAllocs_eq (ctx : EvalContext) (nodeID : String) :
    ctx.proposedAllocs nodeID = values (upsertAll Allocation.id (upsertAll Allocation.id ∅
      (ctx.kept nodeID)) (get ctx.plan.nodeAllocation nodeID [])) := by
  simp only [proposedAllocs, kept, ite_removeAllocs]

theorem mem_kept {ctx : EvalContext} {nodeID : String} {a : Allocation} :
    a ∈ ctx.kept nodeID ↔ a ∈ ctx.state.allocsByNode nodeID ∧
      a.id ∉ (get ctx.plan.nodeUpdate nodeID []).map Allocation.id ∧
      a.id ∉ (get ctx.plan.nodePreemptions nodeID []).map Allocation.id ∧
      a.clientTerminalStatus = false := by
  simp [kept, mem_removeAllocs, and_assoc]

/-- What is kept is part of the allocations table, so its IDs are distinct when the table is
keyed by them. -/
theorem kept_nodup {ctx : EvalContext} (nodeID : String)
    (hkeys : ∀ k b, ctx.state.allocs.lookup k = some b → b.id = k) :
    ((ctx.kept nodeID).map Allocation.id).Nodup := by
  have hsub : (ctx.kept nodeID).Sublist (values ctx.state.allocs) :=
    List.filter_sublist.trans <| (removeAllocs_sublist _ _).trans <|
      (removeAllocs_sublist _ _).trans List.filter_sublist
  exact (hsub.map _).nodup (nodup_map_values hkeys)

/-- An allocation of the node that the plan leaves alone and the client has not finished is
proposed. The state's allocations must be keyed by their IDs, as the table's `id` index keys
them. -/
theorem mem_proposedAllocs_of_state {ctx : EvalContext} {a : Allocation}
    (hkeys : ∀ k b, ctx.state.allocs.lookup k = some b → b.id = k)
    (ha : a ∈ values ctx.state.allocs) (hclient : a.clientTerminalStatus = false)
    (hupdate : a.id ∉ (get ctx.plan.nodeUpdate a.nodeID []).map Allocation.id)
    (hpreempt : a.id ∉ (get ctx.plan.nodePreemptions a.nodeID []).map Allocation.id)
    (hplaced : a.id ∉ (get ctx.plan.nodeAllocation a.nodeID []).map Allocation.id) :
    a ∈ ctx.proposedAllocs a.nodeID := by
  have hnode : a ∈ ctx.state.allocsByNode a.nodeID := by
    simp [StateStore.allocsByNode, ha]
  have hkept : a ∈ ctx.kept a.nodeID := mem_kept.mpr ⟨hnode, hupdate, hpreempt, hclient⟩
  have hlookup : (upsertAll Allocation.id (upsertAll Allocation.id ∅ (ctx.kept a.nodeID))
      (get ctx.plan.nodeAllocation a.nodeID [])).lookup a.id = some a := by
    have hfresh : ∀ b ∈ get ctx.plan.nodeAllocation a.nodeID [], b.id ≠ a.id := by
      intro b hb hid
      exact hplaced (hid ▸ List.mem_map_of_mem hb)
    rw [lookup_upsertAll_of_forall_ne hfresh]
    exact lookup_upsertAll_of_mem (kept_nodup a.nodeID hkeys) hkept
  rw [proposedAllocs_eq]
  exact mem_values_of_lookup hlookup

/-- A placement of the plan on a node is proposed there, when the node's placements have distinct
IDs. -/
theorem mem_proposedAllocs_of_placement {ctx : EvalContext} {nodeID : String} {a : Allocation}
    (hnodup : ((get ctx.plan.nodeAllocation nodeID []).map Allocation.id).Nodup)
    (ha : a ∈ get ctx.plan.nodeAllocation nodeID []) : a ∈ ctx.proposedAllocs nodeID := by
  rw [proposedAllocs_eq]
  exact mem_values_of_lookup (lookup_upsertAll_of_mem hnodup ha)

/-- `proposedAllocs` sees every allocation that is live on the node once the plan is applied: a
placement through the plan, any other through the state, which the plan then leaves alone. -/
theorem mem_proposedAllocs_of_applied {ctx : EvalContext} {a : Allocation}
    (hkeys : ∀ k b, ctx.state.allocs.lookup k = some b → b.id = k)
    (hplan : ctx.plan.PlacementsWf) (ha : a ∈ values (ctx.plan.applyTo ctx.state.allocs))
    (hlive : a.terminalStatus = false) : a ∈ ctx.proposedAllocs a.nodeID := by
  rcases mem_values_upsertAll ha with hw | ⟨k, hk, hfree⟩
  · -- written by the plan, and live: one of the node's placements
    obtain ⟨n, hn⟩ := mem_contents_iff.mp (Plan.mem_placements_of_upserts hw hlive)
    have hnode := hplan.nodeID_eq n a hn
    subst hnode
    exact mem_proposedAllocs_of_placement (hplan.get_nodup a.nodeID) hn
  · -- left alone by the plan: no write of the plan has its ID
    have hid := hkeys k a hk
    subst hid
    have hfresh : a.id ∉ ctx.plan.upserts.map Allocation.id := by
      intro h
      obtain ⟨w, hw, hwid⟩ := List.mem_map.mp h
      exact hfree w hw hwid
    have hclient : a.clientTerminalStatus = false := by
      simp only [Allocation.terminalStatus, Bool.or_eq_false_iff] at hlive
      exact hlive.2
    exact mem_proposedAllocs_of_state hkeys (mem_values_of_lookup hk) hclient
      (fun h ↦ hfresh (Plan.mem_upserts_ids_of_stop (Or.inl h)))
      (fun h ↦ hfresh (Plan.mem_upserts_ids_of_stop (Or.inr h)))
      (fun h ↦ hfresh (Plan.mem_upserts_ids_of_placement h))

end EvalContext

/-! ## The eligibility cache -/

/-- `ComputedClassFeasibility`. -/
inductive ComputedClassFeasibility
  | unknown
  | eligible
  | ineligible
  | escaped
deriving DecidableEq, Repr

/-- `EvalEligibility`, less the quota it records. -/
structure EvalEligibility where
  job : GoMap String ComputedClassFeasibility := ∅
  jobEscaped : Bool := false
  taskGroups : GoMap String (GoMap String ComputedClassFeasibility) := ∅
  tgEscapedConstraints : GoMap String Bool := ∅
deriving DecidableEq

namespace EvalEligibility

/-- `NewEvalEligibility`. -/
def newEvalEligibility : EvalEligibility := {}

/-- `EvalEligibility.SetJob`: the job and each of its groups, with its tasks, escape when one of
their constraints does. -/
def setJob (e : EvalEligibility) (job : Job) : EvalEligibility :=
  { e with
    jobEscaped := (escapedConstraints job.constraints).length ≠ 0
    tgEscapedConstraints := job.taskGroups.foldl (fun m tg ↦
      let constraints := tg.constraints ++ tg.tasks.flatMap (·.constraints)
      m.insert tg.name ((escapedConstraints constraints).length ≠ 0)) e.tgEscapedConstraints }

/-- `EvalEligibility.JobStatus`. -/
def jobStatus (e : EvalEligibility) (class_ : String) : ComputedClassFeasibility :=
  if e.jobEscaped then .escaped else (e.job.lookup class_).getD .unknown

/-- `EvalEligibility.SetJobEligibility`. -/
def setJobEligibility (e : EvalEligibility) (eligible : Bool) (class_ : String) :
    EvalEligibility :=
  { e with job := e.job.insert class_ (if eligible then .eligible else .ineligible) }

/-- Whether the task group's constraints escape, as `TaskGroupStatus` reads it. -/
def taskGroupEscaped (e : EvalEligibility) (tg : String) : Bool :=
  get e.tgEscapedConstraints tg false

/-- `EvalEligibility.TaskGroupStatus`. -/
def taskGroupStatus (e : EvalEligibility) (tg class_ : String) : ComputedClassFeasibility :=
  if e.taskGroupEscaped tg then .escaped
  else ((e.taskGroups.lookup tg).bind (·.lookup class_)).getD .unknown

/-- `EvalEligibility.SetTaskGroupEligibility`. -/
def setTaskGroupEligibility (e : EvalEligibility) (eligible : Bool) (tg class_ : String) :
    EvalEligibility :=
  let eligibility : ComputedClassFeasibility := if eligible then .eligible else .ineligible
  { e with taskGroups := e.taskGroups.insert tg ((get e.taskGroups tg ∅).insert class_ eligibility) }

/-- The verdict a setter records. -/
def verdict (eligible : Bool) : ComputedClassFeasibility :=
  if eligible then .eligible else .ineligible

theorem jobStatus_setJobEligibility (e : EvalEligibility) (eligible : Bool) (c c' : String) :
    (e.setJobEligibility eligible c).jobStatus c' =
      if e.jobEscaped then .escaped else if c' = c then verdict eligible else e.jobStatus c' := by
  unfold jobStatus setJobEligibility verdict
  by_cases hc : c' = c
  · subst hc
    cases e.jobEscaped <;> simp [AList.lookup_insert]
  · cases e.jobEscaped <;> simp [AList.lookup_insert_ne hc, hc]

@[simp] theorem jobStatus_setTaskGroupEligibility (e : EvalEligibility) (eligible : Bool)
    (tg c c' : String) : (e.setTaskGroupEligibility eligible tg c).jobStatus c' = e.jobStatus c' :=
  rfl

@[simp] theorem taskGroupStatus_setJobEligibility (e : EvalEligibility) (eligible : Bool)
    (c tg c' : String) :
    (e.setJobEligibility eligible c).taskGroupStatus tg c' = e.taskGroupStatus tg c' :=
  rfl

theorem taskGroupStatus_setTaskGroupEligibility (e : EvalEligibility) (eligible : Bool)
    (tg c c' : String) :
    (e.setTaskGroupEligibility eligible tg c).taskGroupStatus tg c' =
      if e.taskGroupEscaped tg then .escaped
      else if c' = c then verdict eligible else e.taskGroupStatus tg c' := by
  unfold taskGroupStatus setTaskGroupEligibility verdict taskGroupEscaped
  by_cases hc : c' = c
  · subst hc
    cases GoMap.get e.tgEscapedConstraints tg false <;> simp [AList.lookup_insert]
  · simp only [AList.lookup_insert, Option.bind_some, AList.lookup_insert_ne hc, hc, if_false]
    cases GoMap.get e.tgEscapedConstraints tg false <;>
      cases htg : e.taskGroups.lookup tg <;> simp [htg, GoMap.get]

end EvalEligibility

end Wander.Scheduler
