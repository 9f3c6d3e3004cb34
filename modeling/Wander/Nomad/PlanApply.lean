import Mathlib
import Wander.Structs.Plan
import Wander.Structs.Node

/-!
# `nomad/plan_apply.go`: which part of a plan the applier commits

The plan applier checks a plan against a snapshot of the state before it commits it.
`evaluatePlanPlacements` hands each node of the plan to a pool of workers running
`evaluateNodePlan`, and folds their verdicts into a result as they come back (`handleResult`): a
node that passes contributes its stops, placements and still-live preemptions, a node that fails
is skipped, and for an all-at-once plan the first failure empties the result and cancels the rest.
After a partial commit the deployment's placed canaries are cut down to the allocations the result
places (`correctDeploymentCanaries`).

The pool returns its verdicts in an order the code does not fix; here that order is the list
`order`, any permutation of the plan's nodes. `handleResults_spec` folds any list of verdicts, and
`evaluatePlanPlacements_commits` says what the result holds whatever the order: the plan's stops
and placements on exactly the nodes that pass, or nothing at all for an all-at-once plan with a
failing node. `evaluateNodePlan_fit_iff` says which nodes pass: a node with no placements; a
disconnected node whose placements only mark allocations unknown; a ready node whose placements
update its allocations in place, or that is eligible and has room (`AllocsFit`) for what it would
run. Together they bound every node the result places on (`evaluatePlanPlacements_placed_fit`).
After a partial commit the committed deployment lists as placed canaries only allocations the
result places (`evaluatePlanPlacements_canaries`).

Scope. `AllocsFit` is a parameter: the model's resource structures carry the networks and devices
of an allocation, not its CPU, memory and disk. The snapshot's reads do not fail, so the error
paths of the memdb lookups are not reachable here; `evaluatePlan`'s denormalization of the plan
and its quota check, which always passes in this edition, are left out.
-/

set_option autoImplicit false
set_option relaxedAutoImplicit false

namespace Wander.Nomad

open Wander.Lib Wander.Structs GoMap

/-- `structs.NodeStatusInit`, `NodeStatusReady`, `NodeStatusDown` and
`NodeStatusDisconnected`. -/
inductive NodeStatus
  | initializing
  | ready
  | down
  | disconnected
deriving DecidableEq, Repr

/-- `structs.NodeSchedulingEligible` and `NodeSchedulingIneligible`. -/
inductive SchedulingEligibility
  | eligible
  | ineligible
deriving DecidableEq, Repr

/-- A node as the plan applier reads it: the fields of `structs.Node` that the model has, with
its `Status` and `SchedulingEligibility`. -/
structure PlanNode extends Node where
  status : NodeStatus
  schedulingEligibility : SchedulingEligibility

/-- The reads of `state.StateSnapshot` the plan applier makes: the nodes and allocations tables,
and the index of each table. -/
structure PlanSnapshot where
  nodes : GoMap String PlanNode
  allocs : GoMap String Allocation
  nodesIndex : ℕ
  allocsIndex : ℕ

namespace PlanSnapshot

/-- `StateSnapshot.NodeByID`. -/
def nodeByID (snap : PlanSnapshot) (nodeID : String) : Option PlanNode := snap.nodes.lookup nodeID

/-- `StateSnapshot.AllocByID`. -/
def allocByID (snap : PlanSnapshot) (id : String) : Option Allocation := snap.allocs.lookup id

/-- `StateSnapshot.AllocsByNodeTerminal`: the allocations the `node` index holds for a node and a
terminal status. -/
def allocsByNodeTerminal (snap : PlanSnapshot) (node : String) (terminal : Bool) :
    List Allocation :=
  (values snap.allocs).filter fun a ↦ a.nodeID = node ∧ a.terminalStatus = terminal

end PlanSnapshot

/-- `refreshIndex`: the later of the indexes of the allocations and nodes tables. -/
def refreshIndex (snap : PlanSnapshot) : ℕ := max snap.nodesIndex snap.allocsIndex

/-- `structs.DeploymentStatusUpdate`. -/
structure DeploymentStatusUpdate where
  deploymentID : String
  status : String
  statusDescription : String
deriving DecidableEq, Repr

/-- The fields of `structs.Plan` the plan applier reads: the allocation maps of `Plan`,
`AllAtOnce`, the deployment and the deployment updates. -/
structure ApplierPlan extends Plan where
  allAtOnce : Bool := false
  deployment : Option Deployment := none
  deploymentUpdates : List DeploymentStatusUpdate := []

/-- `structs.PlanResult`, less the indexes the applier sets once the plan is committed. -/
structure PlanResult where
  nodeUpdate : GoMap String (List Allocation)
  nodeAllocation : GoMap String (List Allocation)
  deployment : Option Deployment
  deploymentUpdates : List DeploymentStatusUpdate
  nodePreemptions : GoMap String (List Allocation)
  rejectedNodes : List String := []
  refreshIndex : ℕ := 0

/-- `structs.AllocSubset`: whether every allocation of `subset` has the ID of one of `allocs`. -/
def allocSubset (allocs subset : List Allocation) : Bool :=
  if subset.length = 0 then true
  else subset.all fun a ↦ a.id ∈ allocs.map Allocation.id

/-- `isValidForDisconnectedNode`: every placement on the node marks an allocation unknown. -/
def isValidForDisconnectedNode (plan : ApplierPlan) (nodeID : String) : Bool :=
  (get plan.nodeAllocation nodeID []).all fun alloc ↦ alloc.clientStatus = .unknown

/-- The allocations a node would run under the plan: its non-terminal ones less the plan's stops,
preemptions and placements on it, and then the placements. -/
def proposedAllocs (snap : PlanSnapshot) (plan : ApplierPlan) (nodeID : String) :
    List Allocation :=
  removeAllocs (snap.allocsByNodeTerminal nodeID false)
      (get plan.nodeUpdate nodeID [] ++ get plan.nodePreemptions nodeID [] ++
        get plan.nodeAllocation nodeID []) ++
    get plan.nodeAllocation nodeID []

/-- `evaluateNodePlan`: whether the plan's allocations on a node fit, and the reason when they
do not. `allocsFit` is `structs.AllocsFit` with device checks and a fresh network index. -/
def evaluateNodePlan (allocsFit : PlanNode → List Allocation → Bool × String)
    (snap : PlanSnapshot) (plan : ApplierPlan) (nodeID : String) : Bool × String :=
  -- an evict-only plan always fits
  if (get plan.nodeAllocation nodeID []).length = 0 then (true, "")
  else
    match snap.nodeByID nodeID with
    | none => (false, "node does not exist")
    | some node =>
      if node.status = .disconnected then
        if isValidForDisconnectedNode plan node.id then (true, "")
        else (false, "node is disconnected and contains invalid updates")
      else if node.status ≠ .ready then (false, "node is not ready for placements")
      -- in-place updates and stops need no room, even on an ineligible node
      else if allocSubset (snap.allocsByNodeTerminal nodeID false)
          (get plan.nodeAllocation nodeID []) then (true, "")
      else if node.schedulingEligibility = .ineligible then (false, "node is not eligible")
      else allocsFit node (proposedAllocs snap plan nodeID)

/-- `Deployment.HasPlacedCanaries`. -/
def hasPlacedCanaries (d : Deployment) : Bool :=
  if d.taskGroups.entries.length = 0 then false
  else (values d.taskGroups).any fun group ↦ group.placedCanaries.length ≠ 0

/-- `correctDeploymentCanaries`: each group of the deployment keeps the placed canaries that the
result places. -/
def correctDeploymentCanaries (result : PlanResult) : PlanResult :=
  match result.deployment with
  | none => result
  | some d =>
    if !hasPlacedCanaries d then result
    else
      let placedAllocs := (contents result.nodeAllocation).map Allocation.id
      let prune := fun (group : DeploymentState) ↦ { group with
        placedCanaries := group.placedCanaries.filter fun canaryID ↦ canaryID ∈ placedAllocs }
      { result with deployment := some { d with taskGroups := mapValues prune d.taskGroups } }

/-- The variables of `evaluatePlanPlacements` that its results update: the result,
`partialCommit` and `rejectedNodes`. -/
structure EvalState where
  result : PlanResult
  partialCommit : Bool := false
  rejectedNodes : List String := []

/-- The preemptions of a node that are still live in the snapshot. -/
def livePreemptions (snap : PlanSnapshot) (nodePreemptions : List Allocation) : List Allocation :=
  nodePreemptions.filter fun preemptedAlloc ↦
    match snap.allocByID preemptedAlloc.id with
    | some alloc => !alloc.terminalStatus
    | none => false

/-- `handleResult` for the verdict `fit` on a node: the variables after it, and whether to cancel
the evaluation. -/
def handleResult (snap : PlanSnapshot) (plan : ApplierPlan) (st : EvalState) (nodeID : String)
    (fit : Bool) : EvalState × Bool :=
  if !fit then
    let st := { st with partialCommit := true, rejectedNodes := st.rejectedNodes.insert nodeID }
    if plan.allAtOnce then
      let cleared := { st.result with
        nodeUpdate := ∅
        nodeAllocation := ∅
        deploymentUpdates := []
        deployment := none
        nodePreemptions := ∅ }
      ({ st with result := cleared }, true)
    else (st, false)
  else
    let nodeUpdate := get plan.nodeUpdate nodeID []
    let nodeAlloc := get plan.nodeAllocation nodeID []
    let r := st.result
    let r := { r with nodeUpdate :=
      if nodeUpdate.length > 0 then r.nodeUpdate.insert nodeID nodeUpdate else r.nodeUpdate }
    let r := { r with nodeAllocation :=
      if nodeAlloc.length > 0 then r.nodeAllocation.insert nodeID nodeAlloc else r.nodeAllocation }
    let r := { r with nodePreemptions :=
      match plan.nodePreemptions.lookup nodeID with
      | some nodePreemptions =>
        r.nodePreemptions.insert nodeID (livePreemptions snap nodePreemptions)
      | none => r.nodePreemptions }
    ({ st with result := r }, false)

/-- The verdicts handled in the order they arrive, until one cancels the evaluation. -/
def handleResults (snap : PlanSnapshot) (plan : ApplierPlan) :
    EvalState → List (String × Bool) → EvalState
  | st, [] => st
  | st, (nodeID, fit) :: rest =>
    match handleResult snap plan st nodeID fit with
    | (st, true) => st
    | (st, false) => handleResults snap plan st rest

/-- The nodes `evaluatePlanPlacements` sends to the pool: those with stops, then those with
placements and no stops. -/
def planNodeIDs (plan : ApplierPlan) : List String :=
  plan.nodeUpdate.keys ++ plan.nodeAllocation.keys.filter fun nodeID ↦
    nodeID ∉ plan.nodeUpdate.keys

/-- The variables as `evaluatePlanPlacements` sets them up: a result with empty maps and the
plan's deployment and deployment updates. -/
def evalInit (plan : ApplierPlan) : EvalState where
  result :=
    { nodeUpdate := ∅
      nodeAllocation := ∅
      deployment := plan.deployment
      deploymentUpdates := plan.deploymentUpdates
      nodePreemptions := ∅ }

/-- The verdicts of the pool, arriving in the order `order`. -/
def verdicts (allocsFit : PlanNode → List Allocation → Bool × String) (snap : PlanSnapshot)
    (plan : ApplierPlan) (order : List String) : List (String × Bool) :=
  order.map fun nodeID ↦ (nodeID, (evaluateNodePlan allocsFit snap plan nodeID).1)

/-- The end of `evaluatePlanPlacements` once every verdict is handled: after a partial commit the
refresh index, which must not be 0, and the canaries cut down; then the rejected nodes. -/
def settleResult (snap : PlanSnapshot) (st : EvalState) : Except String PlanResult :=
  if st.partialCommit then
    let index := refreshIndex snap
    if index = 0 then .error "partialCommit with RefreshIndex of 0"
    else .ok { correctDeploymentCanaries { st.result with refreshIndex := index } with
      rejectedNodes := st.rejectedNodes }
  else .ok { st.result with rejectedNodes := st.rejectedNodes }

/-- `evaluatePlanPlacements`, the verdicts of the pool arriving in the order `order`. -/
def evaluatePlanPlacements (allocsFit : PlanNode → List Allocation → Bool × String)
    (snap : PlanSnapshot) (plan : ApplierPlan) (order : List String) :
    Except String PlanResult :=
  settleResult snap (handleResults snap plan (evalInit plan) (verdicts allocsFit snap plan order))

variable (allocsFit : PlanNode → List Allocation → Bool × String) (snap : PlanSnapshot)
  (plan : ApplierPlan)

/-! ### The verdict on one node -/

/-- The nodes `evaluateNodePlan` lets through: one with no placements; a disconnected one whose
placements only mark allocations unknown; a ready one whose placements update its allocations in
place, or that is eligible and has room for what it would run. -/
theorem evaluateNodePlan_fit_iff (nodeID : String) :
    (evaluateNodePlan allocsFit snap plan nodeID).1 = true ↔
      get plan.nodeAllocation nodeID [] = [] ∨
      ∃ node, snap.nodeByID nodeID = some node ∧
        (node.status = .disconnected ∧ isValidForDisconnectedNode plan node.id = true ∨
          node.status = .ready ∧
            (allocSubset (snap.allocsByNodeTerminal nodeID false)
                (get plan.nodeAllocation nodeID []) = true ∨
              node.schedulingEligibility = .eligible ∧
                (allocsFit node (proposedAllocs snap plan nodeID)).1 = true)) := by
  unfold evaluateNodePlan
  by_cases hnil : get plan.nodeAllocation nodeID [] = []
  · simp [hnil]
  rw [if_neg (by simpa using hnil)]
  cases hnode : snap.nodeByID nodeID with
  | none => simp [hnil]
  | some node =>
    cases hs : node.status with
    | disconnected =>
      by_cases hv : isValidForDisconnectedNode plan node.id = true <;> simp [hnil, hs, hv]
    | ready =>
      -- in-place updates pass before eligibility and room are looked at
      by_cases hsub : allocSubset (snap.allocsByNodeTerminal nodeID false)
          (get plan.nodeAllocation nodeID []) = true
      · simp [hnil, hs, hsub]
      · cases he : node.schedulingEligibility <;> simp [hnil, hs, hsub, he]
    | initializing => simp [hnil, hs]
    | down => simp [hnil, hs]

/-! ### Folding the verdicts -/

/-- The result holds the stops and placements of the nodes that `passed`, their preemptions
that are still live, and the plan's deployment and deployment updates. -/
structure Commits (passed : String → Prop) (r : PlanResult) : Prop where
  nodeUpdate : ∀ n l, r.nodeUpdate.lookup n = some l ↔
    passed n ∧ l = get plan.nodeUpdate n [] ∧ l ≠ []
  nodeAllocation : ∀ n l, r.nodeAllocation.lookup n = some l ↔
    passed n ∧ l = get plan.nodeAllocation n [] ∧ l ≠ []
  nodePreemptions : ∀ n l, r.nodePreemptions.lookup n = some l ↔
    passed n ∧ ∃ pre, plan.nodePreemptions.lookup n = some pre ∧ l = livePreemptions snap pre
  deployment : r.deployment = plan.deployment
  deploymentUpdates : r.deploymentUpdates = plan.deploymentUpdates

/-- What an all-at-once plan leaves once a node fails: no stops, placements, preemptions,
deployment or deployment updates. -/
structure Cleared (r : PlanResult) : Prop where
  nodeUpdate : r.nodeUpdate = ∅
  nodeAllocation : r.nodeAllocation = ∅
  nodePreemptions : r.nodePreemptions = ∅
  deployment : r.deployment = none
  deploymentUpdates : r.deploymentUpdates = []

variable {snap plan}

theorem Commits.of_iff {P Q : String → Prop} {r : PlanResult} (h : Commits snap plan P r)
    (hPQ : ∀ n, P n ↔ Q n) : Commits snap plan Q r where
  nodeUpdate n l := by rw [h.nodeUpdate, hPQ]
  nodeAllocation n l := by rw [h.nodeAllocation, hPQ]
  nodePreemptions n l := by rw [h.nodePreemptions, hPQ]
  deployment := h.deployment
  deploymentUpdates := h.deploymentUpdates

/-- Writing a node's slice into a map when it is not empty adds the node to those whose slices
the map holds. -/
theorem lookup_insert_of_length_pos {m : GoMap String (List Allocation)} {P : String → Prop}
    {v : String → List Allocation} (hm : ∀ n l, m.lookup n = some l ↔ P n ∧ l = v n ∧ l ≠ [])
    (k : String) (n : String) (l : List Allocation) :
    (if (v k).length > 0 then m.insert k (v k) else m).lookup n = some l ↔
      (n = k ∨ P n) ∧ l = v n ∧ l ≠ [] := by
  by_cases hnk : n = k
  · subst hnk
    split_ifs with hk
    · rw [AList.lookup_insert, Option.some.injEq]
      exact ⟨fun h ↦ ⟨.inl rfl, h.symm, h ▸ List.ne_nil_of_length_pos hk⟩, fun h ↦ h.2.1.symm⟩
    · rw [hm]
      have hnil : v n = [] := List.eq_nil_of_length_eq_zero (by omega)
      exact ⟨fun h ↦ ⟨.inr h.1, h.2⟩, fun h ↦ absurd (h.2.1.trans hnil) h.2.2⟩
  · split_ifs <;> simp [AList.lookup_insert_ne hnk, hm, hnk]

/-- A passing verdict: the node's stops, placements and live preemptions join the result. -/
theorem handleResult_pass {P : String → Prop} {st : EvalState}
    (h : Commits snap plan P st.result) (nodeID : String) :
    handleResult snap plan st nodeID true =
      ((handleResult snap plan st nodeID true).1, false) ∧
    (handleResult snap plan st nodeID true).1.partialCommit = st.partialCommit ∧
    Commits snap plan (fun n ↦ n = nodeID ∨ P n) (handleResult snap plan st nodeID true).1.result := by
  refine ⟨rfl, rfl, ?_⟩
  constructor
  · exact lookup_insert_of_length_pos h.nodeUpdate nodeID
  · exact lookup_insert_of_length_pos h.nodeAllocation nodeID
  · intro n l
    simp only [handleResult, Bool.not_true, Bool.false_eq_true, if_false]
    by_cases hnk : n = nodeID
    · subst hnk
      cases hp : plan.nodePreemptions.lookup n with
      | none => simp [hp, h.nodePreemptions]
      | some pre => simp [eq_comm]
    · split <;> simp [AList.lookup_insert_ne hnk, h.nodePreemptions, hnk]
  · exact h.deployment
  · exact h.deploymentUpdates

variable (snap) in
/-- A failing verdict on an all-at-once plan empties the result and cancels the evaluation. -/
theorem handleResult_fail_allAtOnce (hall : plan.allAtOnce = true) (st : EvalState)
    (nodeID : String) :
    ∃ st', handleResult snap plan st nodeID false = (st', true) ∧ Cleared st'.result ∧
      st'.partialCommit = true := by
  simp only [handleResult, hall]
  exact ⟨_, rfl, ⟨rfl, rfl, rfl, rfl, rfl⟩, rfl⟩

/-- A failing verdict on another plan only marks a partial commit. -/
theorem handleResult_fail (hall : plan.allAtOnce = false) (st : EvalState) (nodeID : String) :
    handleResult snap plan st nodeID false =
      ({ st with partialCommit := true, rejectedNodes := st.rejectedNodes.insert nodeID }, false) := by
  simp [handleResult, hall]

/-- The verdicts `l` folded from a result that holds the nodes that passed before: either an
all-at-once plan meets a failure and the result is emptied, or the result holds the nodes that
passed before and those that pass in `l`, by induction on `l`. -/
theorem handleResults_spec (l : List (String × Bool)) :
    ∀ (st : EvalState) (P : String → Prop), Commits snap plan P st.result →
      (plan.allAtOnce = true ∧ (∃ x ∈ l, x.2 = false) ∧
          Cleared (handleResults snap plan st l).result ∧
          (handleResults snap plan st l).partialCommit = true) ∨
        ((plan.allAtOnce = true → ∀ x ∈ l, x.2 = true) ∧
          Commits snap plan (fun n ↦ (n, true) ∈ l ∨ P n) (handleResults snap plan st l).result ∧
          ((handleResults snap plan st l).partialCommit = true ↔
            st.partialCommit = true ∨ ∃ x ∈ l, x.2 = false)) := by
  induction l with
  | nil =>
    intro st P h
    exact .inr ⟨by simp, h.of_iff (by simp), by simp [handleResults]⟩
  | cons x rest ih =>
    intro st P h
    obtain ⟨nodeID, fit⟩ := x
    cases fit with
    | true =>
      obtain ⟨hcont, hpartial, hpass⟩ := handleResult_pass h nodeID
      have hstep : handleResults snap plan st ((nodeID, true) :: rest) =
          handleResults snap plan (handleResult snap plan st nodeID true).1 rest := by
        rw [handleResults, hcont]
      rw [hstep]
      rcases ih _ _ hpass with ⟨hall, ⟨y, hy, hyf⟩, hcl, hpc⟩ | ⟨hall, hcom, hpc⟩
      · exact .inl ⟨hall, ⟨y, List.mem_cons_of_mem _ hy, hyf⟩, hcl, hpc⟩
      · refine .inr ⟨fun ha y hy ↦ ?_, hcom.of_iff fun n ↦ ?_, ?_⟩
        · rcases List.mem_cons.mp hy with rfl | hy
          · rfl
          · exact hall ha y hy
        · simp only [List.mem_cons, Prod.mk.injEq, and_true]
          exact or_left_comm.trans or_assoc.symm
        · rw [hpc, hpartial]
          simp
    | false =>
      cases hall : plan.allAtOnce with
      | true =>
        -- the first failure of an all-at-once plan cancels the rest
        obtain ⟨st', hcancel, hcl, hpc⟩ := handleResult_fail_allAtOnce snap hall st nodeID
        have hstep : handleResults snap plan st ((nodeID, false) :: rest) = st' := by
          rw [handleResults, hcancel]
        rw [hstep]
        exact .inl ⟨rfl, ⟨_, List.mem_cons_self, rfl⟩, hcl, hpc⟩
      | false =>
        have hstep : handleResults snap plan st ((nodeID, false) :: rest) =
            handleResults snap plan
              { st with partialCommit := true, rejectedNodes := st.rejectedNodes.insert nodeID }
              rest := by
          rw [handleResults, handleResult_fail hall]
        rw [hstep]
        rcases ih { st with partialCommit := true, rejectedNodes := st.rejectedNodes.insert nodeID }
            P h with ⟨hall', -⟩ | ⟨-, hcom, hpc⟩
        · exact absurd hall' (by simp [hall])
        · refine .inr ⟨by simp, hcom.of_iff fun n ↦ ?_, ?_⟩
          · simp
          · rw [hpc]
            simp

/-! ### The result, whatever the order of the verdicts -/

@[simp] theorem correctDeploymentCanaries_nodeUpdate (r : PlanResult) :
    (correctDeploymentCanaries r).nodeUpdate = r.nodeUpdate := by
  unfold correctDeploymentCanaries
  split
  · rfl
  · split <;> rfl

@[simp] theorem correctDeploymentCanaries_nodeAllocation (r : PlanResult) :
    (correctDeploymentCanaries r).nodeAllocation = r.nodeAllocation := by
  unfold correctDeploymentCanaries
  split
  · rfl
  · split <;> rfl

@[simp] theorem correctDeploymentCanaries_nodePreemptions (r : PlanResult) :
    (correctDeploymentCanaries r).nodePreemptions = r.nodePreemptions := by
  unfold correctDeploymentCanaries
  split
  · rfl
  · split <;> rfl

variable (snap) in
theorem commits_evalInit : Commits snap plan (fun _ ↦ False) (evalInit plan).result where
  nodeUpdate n l := by simp [evalInit]
  nodeAllocation n l := by simp [evalInit]
  nodePreemptions n l := by simp [evalInit]
  deployment := rfl
  deploymentUpdates := rfl

/-- An all-at-once plan with a node that fails `evaluateNodePlan`. -/
def Aborted (allocsFit : PlanNode → List Allocation → Bool × String) (snap : PlanSnapshot)
    (plan : ApplierPlan) : Prop :=
  plan.allAtOnce = true ∧ ∃ n ∈ planNodeIDs plan, (evaluateNodePlan allocsFit snap plan n).1 = false

/-- The verdicts as they arrive, for an order that is a permutation of the plan's nodes. -/
theorem mem_verdicts {order : List String} (hperm : order.Perm (planNodeIDs plan)) (n : String)
    (b : Bool) :
    (n, b) ∈ verdicts allocsFit snap plan order ↔
      n ∈ planNodeIDs plan ∧ b = (evaluateNodePlan allocsFit snap plan n).1 := by
  rw [← hperm.mem_iff]
  simp only [verdicts, List.mem_map, Prod.mk.injEq]
  constructor
  · rintro ⟨m, hm, rfl, rfl⟩
    exact ⟨hm, rfl⟩
  · rintro ⟨hn, rfl⟩
    exact ⟨n, hn, rfl, rfl⟩

theorem mem_planNodeIDs_of_nodeUpdate {n : String} (h : get plan.nodeUpdate n [] ≠ []) :
    n ∈ planNodeIDs plan := by
  have hmem : n ∈ plan.nodeUpdate := by
    by_contra hn
    exact h (by simp [GoMap.get, AList.lookup_eq_none.mpr hn])
  exact List.mem_append_left _ (AList.mem_keys.mpr hmem)

theorem mem_planNodeIDs_of_nodeAllocation {n : String} (h : get plan.nodeAllocation n [] ≠ []) :
    n ∈ planNodeIDs plan := by
  have hmem : n ∈ plan.nodeAllocation := by
    by_contra hn
    exact h (by simp [GoMap.get, AList.lookup_eq_none.mpr hn])
  by_cases hu : n ∈ plan.nodeUpdate.keys
  · exact List.mem_append_left _ hu
  · exact List.mem_append_right _ (List.mem_filter.mpr ⟨AList.mem_keys.mpr hmem, by simpa using hu⟩)

/-- With a refresh index, settling returns a result. -/
theorem settleResult_isOk (hidx : 0 < refreshIndex snap) (st : EvalState) :
    ∃ r, settleResult snap st = .ok r := by
  unfold settleResult
  by_cases hpc : st.partialCommit = true
  · have hne : refreshIndex snap ≠ 0 := by omega
    simp [hpc, hne]
  · simp [hpc]

/-- Settling keeps the maps the verdicts fold to, and after a partial commit cuts down the
canaries. -/
theorem settleResult_ok {st : EvalState} {r : PlanResult} (h : settleResult snap st = .ok r) :
    r.nodeUpdate = st.result.nodeUpdate ∧ r.nodeAllocation = st.result.nodeAllocation ∧
      r.nodePreemptions = st.result.nodePreemptions ∧
      (st.partialCommit = true → r.deployment =
        (correctDeploymentCanaries { st.result with refreshIndex := refreshIndex snap }).deployment) := by
  unfold settleResult at h
  by_cases hpc : st.partialCommit = true
  · by_cases hzero : refreshIndex snap = 0
    · simp [hpc, hzero] at h
    · simp only [hpc, if_true, hzero, if_false, Except.ok.injEq] at h
      subst h
      exact ⟨by simp, by simp, by simp, fun _ ↦ rfl⟩
  · simp only [hpc, Bool.false_eq_true, if_false, Except.ok.injEq] at h
    subst h
    exact ⟨rfl, rfl, rfl, fun h ↦ absurd h hpc⟩

variable (snap) in
/-- The failing verdicts of a permutation of the plan's nodes are the plan's failing nodes. -/
theorem exists_verdict_false {order : List String} (hperm : order.Perm (planNodeIDs plan)) :
    (∃ x ∈ verdicts allocsFit snap plan order, x.2 = false) ↔
      ∃ n ∈ planNodeIDs plan, (evaluateNodePlan allocsFit snap plan n).1 = false := by
  constructor
  · rintro ⟨⟨n, b⟩, hx, rfl⟩
    obtain ⟨hn, hb⟩ := (mem_verdicts allocsFit hperm n false).mp hx
    exact ⟨n, hn, hb.symm⟩
  · rintro ⟨n, hn, hb⟩
    exact ⟨(n, false), (mem_verdicts allocsFit hperm n false).mpr ⟨hn, hb.symm⟩, rfl⟩

variable (snap) in
/-- The verdicts on a permutation of the plan's nodes, folded from the start: an aborted plan
leaves an emptied result, another one the nodes of the plan that pass. -/
theorem handleResults_verdicts {order : List String} (hperm : order.Perm (planNodeIDs plan)) :
    (Aborted allocsFit snap plan ∧
        Cleared (handleResults snap plan (evalInit plan) (verdicts allocsFit snap plan order)).result) ∨
      (¬Aborted allocsFit snap plan ∧
        Commits snap plan
          (fun n ↦ n ∈ planNodeIDs plan ∧ (evaluateNodePlan allocsFit snap plan n).1 = true)
          (handleResults snap plan (evalInit plan) (verdicts allocsFit snap plan order)).result) := by
  rcases handleResults_spec _ _ _ (commits_evalInit snap) with ⟨hall, hx, hcl, -⟩ | ⟨hall, hcom, -⟩
  · exact .inl ⟨⟨hall, (exists_verdict_false allocsFit snap hperm).mp hx⟩, hcl⟩
  · refine .inr ⟨fun ⟨ha, hn⟩ ↦ ?_, hcom.of_iff fun n ↦ ?_⟩
    · obtain ⟨x, hx, hxf⟩ := (exists_verdict_false allocsFit snap hperm).mpr hn
      simp [hall ha x hx] at hxf
    · rw [or_false, mem_verdicts allocsFit hperm, eq_comm]

/-- Whatever the order in which the pool returns its verdicts, the applier commits the plan's stops
and placements on exactly the nodes that pass `evaluateNodePlan`, with their preemptions that are
still live, unless the plan is all-at-once and a node fails, when it commits nothing. -/
theorem evaluatePlanPlacements_commits {order : List String}
    (hperm : order.Perm (planNodeIDs plan)) (hidx : 0 < refreshIndex snap) :
    ∃ r, evaluatePlanPlacements allocsFit snap plan order = .ok r ∧
      (∀ n l, r.nodeUpdate.lookup n = some l ↔ ¬Aborted allocsFit snap plan ∧
        (evaluateNodePlan allocsFit snap plan n).1 = true ∧ l = get plan.nodeUpdate n [] ∧
        l ≠ []) ∧
      (∀ n l, r.nodeAllocation.lookup n = some l ↔ ¬Aborted allocsFit snap plan ∧
        (evaluateNodePlan allocsFit snap plan n).1 = true ∧ l = get plan.nodeAllocation n [] ∧
        l ≠ []) ∧
      (∀ n l, r.nodePreemptions.lookup n = some l ↔ ¬Aborted allocsFit snap plan ∧
        n ∈ planNodeIDs plan ∧ (evaluateNodePlan allocsFit snap plan n).1 = true ∧
        ∃ pre, plan.nodePreemptions.lookup n = some pre ∧ l = livePreemptions snap pre) := by
  obtain ⟨r, hr⟩ := settleResult_isOk hidx
    (handleResults snap plan (evalInit plan) (verdicts allocsFit snap plan order))
  obtain ⟨hu, ha, hp, -⟩ := settleResult_ok hr
  refine ⟨r, hr, ?_⟩
  rw [hu, ha, hp]
  rcases handleResults_verdicts allocsFit snap hperm with ⟨hab, hcl⟩ | ⟨hab, hcom⟩
  · -- an all-at-once plan with a failing node: nothing is committed
    simp [hcl.nodeUpdate, hcl.nodeAllocation, hcl.nodePreemptions, hab]
  · -- a stop or a placement that is not empty names a node of the plan
    refine ⟨fun n l ↦ ?_, fun n l ↦ ?_, fun n l ↦ ?_⟩
    · rw [hcom.nodeUpdate]
      constructor
      · rintro ⟨⟨-, hv⟩, hl, hne⟩
        exact ⟨hab, hv, hl, hne⟩
      · rintro ⟨-, hv, rfl, hne⟩
        exact ⟨⟨mem_planNodeIDs_of_nodeUpdate hne, hv⟩, rfl, hne⟩
    · rw [hcom.nodeAllocation]
      constructor
      · rintro ⟨⟨-, hv⟩, hl, hne⟩
        exact ⟨hab, hv, hl, hne⟩
      · rintro ⟨-, hv, rfl, hne⟩
        exact ⟨⟨mem_planNodeIDs_of_nodeAllocation hne, hv⟩, rfl, hne⟩
    · rw [hcom.nodePreemptions]
      constructor
      · rintro ⟨⟨hn, hv⟩, hpre⟩
        exact ⟨hab, hn, hv, hpre⟩
      · rintro ⟨-, hn, hv, hpre⟩
        exact ⟨⟨hn, hv⟩, hpre⟩

/-- Two nodes, `n1` ready and `n2` down. -/
def twoNodeSnap : PlanSnapshot where
  nodes := ((∅ : GoMap String PlanNode).insert "n1"
      { id := "n1", status := .ready, schedulingEligibility := .eligible }).insert "n2"
    { id := "n2", status := .down, schedulingEligibility := .eligible }
  allocs := ∅
  nodesIndex := 7
  allocsIndex := 5

/-- One placement on each node of `twoNodeSnap`. -/
def twoNodePlan : ApplierPlan where
  nodeAllocation := ((∅ : GoMap String (List Allocation)).insert "n1"
      [{ id := "a1", nodeID := "n1" }]).insert "n2" [{ id := "a2", nodeID := "n2" }]

/-- Room for one allocation on a node. -/
def roomForOne (_ : PlanNode) (proposed : List Allocation) : Bool × String :=
  (decide (proposed.length ≤ 1), "")

theorem evaluatePlanPlacements_commits_twoNodes :
    ["n2", "n1"].Perm (planNodeIDs twoNodePlan) ∧ 0 < refreshIndex twoNodeSnap ∧
      ∃ r, evaluatePlanPlacements roomForOne twoNodeSnap twoNodePlan ["n2", "n1"] = .ok r ∧
        (∀ n l, r.nodeUpdate.lookup n = some l ↔ ¬Aborted roomForOne twoNodeSnap twoNodePlan ∧
          (evaluateNodePlan roomForOne twoNodeSnap twoNodePlan n).1 = true ∧
          l = get twoNodePlan.nodeUpdate n [] ∧ l ≠ []) ∧
        (∀ n l, r.nodeAllocation.lookup n = some l ↔ ¬Aborted roomForOne twoNodeSnap twoNodePlan ∧
          (evaluateNodePlan roomForOne twoNodeSnap twoNodePlan n).1 = true ∧
          l = get twoNodePlan.nodeAllocation n [] ∧ l ≠ []) ∧
        (∀ n l, r.nodePreemptions.lookup n = some l ↔ ¬Aborted roomForOne twoNodeSnap twoNodePlan ∧
          n ∈ planNodeIDs twoNodePlan ∧
          (evaluateNodePlan roomForOne twoNodeSnap twoNodePlan n).1 = true ∧
          ∃ pre, twoNodePlan.nodePreemptions.lookup n = some pre ∧
            l = livePreemptions twoNodeSnap pre) :=
  ⟨by decide, by decide, evaluatePlanPlacements_commits roomForOne (by decide) (by decide)⟩

/-- The placement on the down node is not committed, the one on the ready node is. -/
example : (evaluatePlanPlacements roomForOne twoNodeSnap twoNodePlan ["n2", "n1"]).toOption.map
    (fun r ↦ r.nodeAllocation.keys) = some ["n1"] := by
  decide

/-- Whatever the order of the verdicts, a node on which the committed result places allocations
takes the plan's placements on it, and is either disconnected with placements that only mark
allocations unknown, or ready with placements that update its allocations in place, or ready,
eligible and with room for what it would run. -/
theorem evaluatePlanPlacements_placed_fit {order : List String}
    (hperm : order.Perm (planNodeIDs plan)) {r : PlanResult}
    (h : evaluatePlanPlacements allocsFit snap plan order = .ok r) {n : String}
    {l : List Allocation} (hl : r.nodeAllocation.lookup n = some l) :
    l = get plan.nodeAllocation n [] ∧ ∃ node, snap.nodeByID n = some node ∧
      (node.status = .disconnected ∧ isValidForDisconnectedNode plan node.id = true ∨
        node.status = .ready ∧
          (allocSubset (snap.allocsByNodeTerminal n false) l = true ∨
            node.schedulingEligibility = .eligible ∧
              (allocsFit node (proposedAllocs snap plan n)).1 = true)) := by
  obtain ⟨-, ha, -, -⟩ := settleResult_ok h
  rw [ha] at hl
  rcases handleResults_verdicts allocsFit snap hperm with ⟨-, hcl⟩ | ⟨-, hcom⟩
  · simp [hcl.nodeAllocation] at hl
  · obtain ⟨⟨-, hv⟩, rfl, hne⟩ := (hcom.nodeAllocation n l).mp hl
    refine ⟨rfl, ?_⟩
    rcases (evaluateNodePlan_fit_iff allocsFit snap plan n).mp hv with hnil | hnode
    · exact absurd hnil hne
    · exact hnode

/-- A deployment whose group `web` placed the canaries `a1` and `a2`. -/
def canaryDeployment : Deployment :=
  { id := "d1", «namespace» := defaultNamespace, jobID := "web", jobCreateIndex := 1,
    status := .running, createIndex := 1, modifyIndex := 1,
    taskGroups := (∅ : GoMap String DeploymentState).insert "web" { placedCanaries := ["a1", "a2"] } }

/-- `twoNodePlan` with the canaries `a1` on `n1` and `a2` on the down node `n2`. -/
def canaryPlan : ApplierPlan := { twoNodePlan with deployment := some canaryDeployment }

/-- What the applier makes of `canaryPlan`: the placement on `n1`, `n2` rejected, and the
deployment's canaries cut down to `a1`. -/
def canaryResult : PlanResult :=
  { nodeUpdate := ∅
    nodeAllocation := (∅ : GoMap String (List Allocation)).insert "n1"
      [{ id := "a1", nodeID := "n1" }]
    deployment := some { canaryDeployment with
      taskGroups := (∅ : GoMap String DeploymentState).insert "web" { placedCanaries := ["a1"] } }
    deploymentUpdates := []
    nodePreemptions := ∅
    rejectedNodes := ["n2"]
    refreshIndex := 7 }

theorem evaluatePlanPlacements_canaryPlan :
    evaluatePlanPlacements roomForOne twoNodeSnap canaryPlan ["n2", "n1"] = .ok canaryResult := by
  rfl

theorem evaluatePlanPlacements_placed_fit_canaryPlan :
    ["n2", "n1"].Perm (planNodeIDs canaryPlan) ∧
      evaluatePlanPlacements roomForOne twoNodeSnap canaryPlan ["n2", "n1"] = .ok canaryResult ∧
      canaryResult.nodeAllocation.lookup "n1" = some [{ id := "a1", nodeID := "n1" }] ∧
      [{ id := "a1", nodeID := "n1" }] = get canaryPlan.nodeAllocation "n1" [] ∧
      ∃ node, twoNodeSnap.nodeByID "n1" = some node ∧
        (node.status = .disconnected ∧ isValidForDisconnectedNode canaryPlan node.id = true ∨
          node.status = .ready ∧
            (allocSubset (twoNodeSnap.allocsByNodeTerminal "n1" false)
                [{ id := "a1", nodeID := "n1" }] = true ∨
              node.schedulingEligibility = .eligible ∧
                (roomForOne node (proposedAllocs twoNodeSnap canaryPlan "n1")).1 = true)) :=
  have hperm : ["n2", "n1"].Perm (planNodeIDs canaryPlan) := by decide
  have hl : canaryResult.nodeAllocation.lookup "n1" = some [{ id := "a1", nodeID := "n1" }] := by
    decide
  ⟨hperm, evaluatePlanPlacements_canaryPlan, hl,
    evaluatePlanPlacements_placed_fit roomForOne hperm evaluatePlanPlacements_canaryPlan hl⟩

/-! ### Canaries after a partial commit -/

theorem placedCanaries_eq_nil {d : Deployment} (h : hasPlacedCanaries d = false) {tg : String}
    {group : DeploymentState} (hg : d.taskGroups.lookup tg = some group) :
    group.placedCanaries = [] := by
  have hmem : group ∈ values d.taskGroups := mem_values_of_lookup hg
  unfold hasPlacedCanaries at h
  split_ifs at h with hlen
  · have hnil : d.taskGroups.entries = [] := List.eq_nil_of_length_eq_zero hlen
    simp [values, hnil] at hmem
  · simpa using List.any_eq_false.mp h group hmem

/-- After `correctDeploymentCanaries` each placed canary of the deployment is an allocation the
result places. -/
theorem correctDeploymentCanaries_placed (r : PlanResult) {d : Deployment}
    (hd : (correctDeploymentCanaries r).deployment = some d) {tg : String}
    {group : DeploymentState} (hg : d.taskGroups.lookup tg = some group) :
    ∀ c ∈ group.placedCanaries, c ∈ (contents r.nodeAllocation).map Allocation.id := by
  unfold correctDeploymentCanaries at hd
  split at hd
  · rename_i hnone
    rw [hnone] at hd
    cases hd
  · rename_i d₀ hd₀
    split at hd
    · -- no group lists a placed canary
      rename_i hno
      rw [hd₀, Option.some.injEq] at hd
      subst hd
      simp [placedCanaries_eq_nil (by simpa using hno) hg]
    · -- each group keeps the canaries the result places
      simp only [Option.some.injEq] at hd
      subst hd
      simp only [lookup_mapValues, Option.map_eq_some_iff] at hg
      obtain ⟨g₀, -, rfl⟩ := hg
      intro c hc
      exact of_decide_eq_true (List.mem_filter.mp hc).2

/-- After a partial commit, whatever the order of the verdicts, each placed canary of the
committed deployment is an allocation the result places. -/
theorem evaluatePlanPlacements_canaries {order : List String} {r : PlanResult}
    (h : evaluatePlanPlacements allocsFit snap plan order = .ok r)
    (hrej : ∃ n ∈ order, (evaluateNodePlan allocsFit snap plan n).1 = false) {d : Deployment}
    (hd : r.deployment = some d) {tg : String} {group : DeploymentState}
    (hg : d.taskGroups.lookup tg = some group) :
    ∀ c ∈ group.placedCanaries, ∃ a ∈ contents r.nodeAllocation, a.id = c := by
  set st := handleResults snap plan (evalInit plan) (verdicts allocsFit snap plan order)
  -- a failing verdict is handled, so the commit is partial
  have hpc : st.partialCommit = true := by
    obtain ⟨n, hn, hv⟩ := hrej
    have hx : ∃ x ∈ verdicts allocsFit snap plan order, x.2 = false :=
      ⟨(n, false), List.mem_map.mpr ⟨n, hn, by rw [hv]⟩, rfl⟩
    rcases handleResults_spec _ _ _ (commits_evalInit snap) with ⟨-, -, -, hpc⟩ | ⟨-, -, hpc⟩
    · exact hpc
    · exact hpc.mpr (.inr hx)
  obtain ⟨-, ha, -, hdep⟩ := settleResult_ok h
  intro c hc
  have hmem := correctDeploymentCanaries_placed _ ((hdep hpc).symm.trans hd) hg c hc
  rw [← ha] at hmem
  simpa using hmem

theorem evaluatePlanPlacements_canaries_canaryPlan :
    evaluatePlanPlacements roomForOne twoNodeSnap canaryPlan ["n2", "n1"] = .ok canaryResult ∧
      (∃ n ∈ ["n2", "n1"], (evaluateNodePlan roomForOne twoNodeSnap canaryPlan n).1 = false) ∧
      canaryResult.deployment = some { canaryDeployment with
        taskGroups := (∅ : GoMap String DeploymentState).insert "web" { placedCanaries := ["a1"] } } ∧
      ∀ c ∈ ["a1"], ∃ a ∈ contents canaryResult.nodeAllocation, a.id = c :=
  have hrej : ∃ n ∈ ["n2", "n1"], (evaluateNodePlan roomForOne twoNodeSnap canaryPlan n).1 = false :=
    ⟨"n2", by decide, by decide⟩
  have hg : ((∅ : GoMap String DeploymentState).insert "web"
      { placedCanaries := ["a1"] }).lookup "web" = some { placedCanaries := ["a1"] } := by decide
  ⟨evaluatePlanPlacements_canaryPlan, hrej, rfl,
    evaluatePlanPlacements_canaries roomForOne evaluatePlanPlacements_canaryPlan hrej rfl hg⟩

end Wander.Nomad
