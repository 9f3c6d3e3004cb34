import Wander.Structs.Job
import Wander.Structs.Network
import Wander.Lib.Strings
import Mathlib.Data.Rat.Init

/-!
# Allocations

The fields of `structs.Allocation` that the modelled code reads, its terminal-status predicates,
and the names `job.group[i]` the scheduler gives allocations, with the index `i` read back from a
name. Create and modify indexes are raft indexes and reschedule times nanosecond counts. The
float64 `NormScore` of the placement metrics is a rational: NaN and the infinities are left out.
-/

set_option autoImplicit false
set_option relaxedAutoImplicit false

namespace Wander.Structs

/-- The values of `Allocation.DesiredStatus`. -/
inductive AllocDesiredStatus
  | run
  | stop
  | evict
deriving DecidableEq, Repr

/-- The values of `Allocation.ClientStatus`. -/
inductive AllocClientStatus
  | pending
  | running
  | complete
  | failed
  | lost
  | unknown
deriving DecidableEq, Repr

/-- The fields of `structs.RescheduleEvent` that garbage collection and `NextDelay` read. -/
structure RescheduleEvent where
  rescheduleTime : ℤ
  delay : ℤ := 0
deriving DecidableEq, Repr

/-- The fields of `structs.AllocDeploymentStatus` that the modelled code reads; `healthy` is
`none` for a nil pointer. -/
structure AllocDeploymentStatus where
  healthy : Option Bool := none
  canary : Bool := false
  modifyIndex : ℕ := 0
deriving DecidableEq, Repr

/-- `structs.DesiredTransition`; each field is `none` for a nil pointer. -/
structure DesiredTransition where
  migrate : Option Bool := none
  reschedule : Option Bool := none
  forceReschedule : Option Bool := none
deriving DecidableEq, Repr

/-- `DesiredTransition.ShouldMigrate`. -/
def DesiredTransition.shouldMigrate (d : DesiredTransition) : Bool := d.migrate == some true

/-- `DesiredTransition.ShouldReschedule`. -/
def DesiredTransition.shouldReschedule (d : DesiredTransition) : Bool := d.reschedule == some true

/-- `DesiredTransition.ShouldForceReschedule`. -/
def DesiredTransition.shouldForceReschedule (d : DesiredTransition) : Bool :=
  d.forceReschedule == some true

/-- `AllocDeploymentStatus.HasHealth`, of a status pointer (`none` for nil). -/
def AllocDeploymentStatus.hasHealth : Option AllocDeploymentStatus → Bool
  | some d => d.healthy.isSome
  | none => false

/-- `structs.Allocation`. `rescheduleTracker` is the tracker's events, `none` for a nil
tracker; `jobVersion` and `jobCreateIndex` are `Job.Version` and `Job.CreateIndex` of the job the
allocation embeds; `normScores` are the `NormScore`s of `Metrics.ScoreMetaData`, empty for nil
metrics; `allocatedResources` is `none` for nil, and `taskResources` is the `TaskResources` of
allocations from before 0.9. `job` is the embedded job, `none` for nil, of which the preemptor
reads the priority and the migrate strategies. -/
structure Allocation where
  id : String := ""
  «namespace» : String := ""
  evalID : String := ""
  name : String := ""
  nodeID : String := ""
  jobID : String := ""
  jobVersion : ℕ := 0
  jobCreateIndex : ℕ := 0
  taskGroup : String := ""
  deploymentID : String := ""
  desiredStatus : AllocDesiredStatus := .run
  desiredTransition : DesiredTransition := {}
  clientStatus : AllocClientStatus := .pending
  deploymentStatus : Option AllocDeploymentStatus := none
  previousAllocation : String := ""
  nextAllocation : String := ""
  rescheduleTracker : Option (List RescheduleEvent) := none
  normScores : List ℚ := []
  allocatedResources : Option AllocatedResources := none
  taskResources : Lib.GoMap String Resources := ∅
  createIndex : ℕ := 0
  modifyIndex : ℕ := 0
  job : Option Job := none
deriving DecidableEq, Repr

/-- `structs.AllocName`. -/
def allocName (job group : String) (idx : ℕ) : String :=
  job ++ "." ++ group ++ "[" ++ toString idx ++ "]"

/-- `structs.AllocIndexFromName`: the number between the prefix `job.group[` and the last
character, read by strconv.Atoi. Lengths count characters, where Go counts bytes. -/
def allocIndexFromName (allocName jobID taskGroup : String) : ℕ :=
  let l := allocName.toList.length
  let pre := jobID.toList.length + taskGroup.toList.length + 2
  if l ≤ 3 ∨ l ≤ pre then 0
  else Lib.uintOfInt (Lib.atoi (String.ofList ((allocName.toList.take (l - 1)).drop pre)))

namespace Allocation

/-- `Allocation.ServerTerminalStatus`. -/
def serverTerminalStatus (a : Allocation) : Bool :=
  match a.desiredStatus with
  | .stop | .evict => true
  | .run => false

/-- `Allocation.ClientTerminalStatus`. -/
def clientTerminalStatus (a : Allocation) : Bool :=
  match a.clientStatus with
  | .complete | .failed | .lost => true
  | .pending | .running | .unknown => false

/-- `Allocation.TerminalStatus`. -/
def terminalStatus (a : Allocation) : Bool := a.serverTerminalStatus || a.clientTerminalStatus

/-- `AllocMetric.MaxNormScore` of the allocation's metrics: the score of the first entry of
`ScoreMetaData`, `none` for nil metrics or an empty list. -/
def maxNormScore (a : Allocation) : Option ℚ := a.normScores.head?

/-- `Allocation.Index`: the index its name carries. -/
def index (a : Allocation) : ℕ := allocIndexFromName a.name a.jobID a.taskGroup

/-- An allocation the server has told to stop is terminal while its client still runs it. -/
theorem terminalStatus_of_stop (a : Allocation) (h : a.desiredStatus = .stop) :
    a.terminalStatus = true := by
  simp [terminalStatus, serverTerminalStatus, h]

end Allocation

/-- `structs.RemoveAllocs`: the allocations whose ID no allocation of `remove` has. -/
def removeAllocs (allocs remove : List Allocation) : List Allocation :=
  if remove.length = 0 then allocs
  else allocs.filter fun a ↦ a.id ∉ remove.map Allocation.id

theorem mem_removeAllocs {allocs remove : List Allocation} {a : Allocation} :
    a ∈ removeAllocs allocs remove ↔ a ∈ allocs ∧ a.id ∉ remove.map Allocation.id := by
  unfold removeAllocs
  split
  · rename_i h
    simp [List.length_eq_zero_iff.mp h]
  · simp

theorem removeAllocs_sublist (allocs remove : List Allocation) :
    (removeAllocs allocs remove).Sublist allocs := by
  unfold removeAllocs
  split
  · exact List.Sublist.refl _
  · exact List.filter_sublist

/-- The callers' guard on an empty removal list changes nothing: `RemoveAllocs` keeps everything
then. -/
@[simp] theorem ite_removeAllocs (allocs remove : List Allocation) :
    (if remove.length > 0 then removeAllocs allocs remove else allocs) =
      removeAllocs allocs remove := by
  split
  · rfl
  · rename_i h
    simp [removeAllocs, Nat.eq_zero_of_not_pos h]

/-- `structs.TaskStatePending`. -/
def taskStatePending : String := "pending"

/-- `structs.TaskStateRunning`. -/
def taskStateRunning : String := "running"

/-- `structs.TaskStateDead`. -/
def taskStateDead : String := "dead"

/-- The fields of `structs.TaskState` that the task coordinator reads. -/
structure TaskState where
  state : String
  failed : Bool := false
deriving DecidableEq, Repr

/-- `TaskState.Successful`. -/
def TaskState.successful (ts : TaskState) : Bool := ts.state = taskStateDead && !ts.failed

end Wander.Structs
