import Wander.Structs.Evaluation
import Wander.Structs.Network

/-!
# Jobs

The fields of `structs.Job`, `structs.TaskGroup`, `structs.Task`, `structs.Deployment` and
`structs.JobSummary` that job registration, job scaling, the state store's job and allocation
upserts, the core scheduler's garbage collection and the scheduler (its stack's distinct_hosts,
distinct_property, network and spread checks, and its test for a destructive update) read or
write. `periodic` and `parameterizedJob` stand for the source's pointers (`none` and `false` for
nil); a nil slice is the empty list, so `spreads` cannot tell a nil slice from an empty one.
Indexes are raft indexes, `submitTime` and durations are nanosecond counts.
-/

set_option autoImplicit false
set_option relaxedAutoImplicit false

namespace Wander.Structs

/-- `structs.DefaultNamespace`. -/
def defaultNamespace : String := "default"

/-- `structs.NodePoolDefault`. -/
def nodePoolDefault : String := "default"

/-- The bounds of `structs.ScalingPolicy` that `Job.Scale` checks. -/
structure ScalingPolicy where
  min : ℤ
  max : ℤ
deriving DecidableEq, Repr

/-- `structs.ReschedulePolicy`; its durations are nanoseconds. -/
structure ReschedulePolicy where
  attempts : ℤ
  interval : ℤ
  unlimited : Bool
  delay : ℤ := 0
  delayFunction : String := ""
  maxDelay : ℤ := 0
deriving DecidableEq, Repr

/-- A block that the scheduler only compares whole, with an `Equal` method that compares each of
its fields (`EphemeralDisk`, `Vault`, `Template`, `TaskArtifact`, `VolumeRequest`,
`VolumeMount`, `TaskCSIPluginConfig`, `SidecarTask`, `ConsulGateway`): it stands as the values of
its fields, and two blocks are equal when those are. -/
structure Block where
  fields : List String := []
deriving DecidableEq, Repr

/-- The field of `structs.LogConfig` that the scheduler reads. -/
structure LogConfig where
  disabled : Bool := false
deriving DecidableEq, Repr

/-- `structs.RestartPolicy`; its durations are nanoseconds. -/
structure RestartPolicy where
  attempts : ℤ := 0
  interval : ℤ := 0
  delay : ℤ := 0
  mode : String := ""
  renderTemplates : Bool := false
deriving DecidableEq, Repr

/-- `structs.RestartPolicyModeDelay`. -/
def restartPolicyModeDelay : String := "delay"

/-- `structs.RestartPolicyModeFail`. -/
def restartPolicyModeFail : String := "fail"

/-- The fields of `structs.WorkloadIdentity` that its `Equal` compares. -/
structure WorkloadIdentity where
  env : Bool := false
  file : Bool := false
deriving DecidableEq, Repr

/-- The field of `structs.ConsulSidecarService` that the scheduler compares. -/
structure ConsulSidecarService where
  port : String := ""
deriving DecidableEq, Repr

/-- `structs.ConsulConnect`. -/
structure ConsulConnect where
  native : Bool := false
  sidecarService : Option ConsulSidecarService := none
  sidecarTask : Option Block := none
  gateway : Option Block := none
deriving DecidableEq, Repr

/-- The fields of `structs.Service` that the scheduler compares. -/
structure Service where
  name : String := ""
  portLabel : String := ""
  connect : Option ConsulConnect := none
deriving DecidableEq, Repr

/-- `structs.TaskLifecycleConfig`. -/
structure TaskLifecycleConfig where
  hook : String
  sidecar : Bool
deriving DecidableEq, Repr

/-- `structs.TaskLifecycleHookPrestart`. -/
def taskLifecycleHookPrestart : String := "prestart"

/-- `structs.TaskLifecycleHookPoststart`. -/
def taskLifecycleHookPoststart : String := "poststart"

/-- `structs.TaskLifecycleHookPoststop`. -/
def taskLifecycleHookPoststop : String := "poststop"

/-- The fields of `structs.Task` that the scheduler reads. `config` holds the values of the
driver's configuration as the texts `cmp.Equal` compares. -/
structure Task where
  name : String
  driver : String
  user : String := ""
  config : Lib.GoMap String String := ∅
  env : Lib.GoMap String String := ∅
  constraints : List Constraint := []
  affinities : List Affinity := []
  artifacts : List Block := []
  vault : Option Block := none
  templates : List Block := []
  csiPluginConfig : Option Block := none
  volumeMounts : List Block := []
  «meta» : Lib.GoMap String String := ∅
  resources : Resources := {}
  identity : Option WorkloadIdentity := none
  logConfig : LogConfig := {}
  restartPolicy : Option RestartPolicy := none
  lifecycle : Option TaskLifecycleConfig := none
deriving DecidableEq, Repr

namespace Task

/-- `Task.IsPrestart`. -/
def isPrestart (t : Task) : Bool := t.lifecycle.any (·.hook = taskLifecycleHookPrestart)

/-- `Task.IsPoststart`. -/
def isPoststart (t : Task) : Bool := t.lifecycle.any (·.hook = taskLifecycleHookPoststart)

/-- `Task.IsPoststop`. -/
def isPoststop (t : Task) : Bool := t.lifecycle.any (·.hook = taskLifecycleHookPoststop)

end Task

/-- The field of `structs.MigrateStrategy` that the drainer reads. -/
structure MigrateStrategy where
  maxParallel : ℤ := 1
deriving DecidableEq, Repr

/-- `structs.SpreadTarget`; the percentage is a `uint8`. -/
structure SpreadTarget where
  value : String := ""
  percent : ℕ := 0
deriving DecidableEq, Repr

/-- `structs.Spread`; the weight is an `int8`. -/
structure Spread where
  «attribute» : String := ""
  weight : ℤ := 0
  spreadTarget : List SpreadTarget := []
deriving DecidableEq, Repr

/-- `structs.TaskGroup`. -/
structure TaskGroup where
  name : String
  count : ℤ
  constraints : List Constraint := []
  affinities : List Affinity := []
  spreads : List Spread := []
  networks : List NetworkResource := []
  ephemeralDisk : Option Block := none
  services : List Service := []
  volumes : Lib.GoMap String Block := ∅
  restartPolicy : Option RestartPolicy := none
  «meta» : Lib.GoMap String String := ∅
  tasks : List Task := []
  scaling : Option ScalingPolicy := none
  reschedulePolicy : Option ReschedulePolicy := none
  migrate : Option MigrateStrategy := none
deriving DecidableEq, Repr

/-- `structs.JobTypeService`. -/
def jobTypeService : String := "service"

/-- `structs.JobTypeBatch`. -/
def jobTypeBatch : String := "batch"

/-- `structs.JobTypeSysBatch`. -/
def jobTypeSysBatch : String := "sysbatch"

/-- The values of `Job.Status` the state store sets. -/
inductive JobStatus
  | pending
  | running
  | dead
deriving DecidableEq, Repr

/-- The field of `structs.PeriodicConfig` that garbage collection reads. -/
structure PeriodicConfig where
  enabled : Bool
deriving DecidableEq, Repr

/-- `structs.Job`. -/
structure Job where
  id : String := ""
  «namespace» : String := ""
  type : String := ""
  priority : ℤ := 0
  nodePool : String := ""
  constraints : List Constraint := []
  affinities : List Affinity := []
  spreads : List Spread := []
  taskGroups : List TaskGroup := []
  «meta» : Lib.GoMap String String := ∅
  periodic : Option PeriodicConfig := none
  parameterizedJob : Bool := false
  dispatched : Bool := false
  stop : Bool := false
  status : JobStatus := .pending
  version : ℕ := 0
  createIndex : ℕ := 0
  modifyIndex : ℕ := 0
  jobModifyIndex : ℕ := 0
  submitTime : ℤ := 0
deriving DecidableEq, Repr

/-- `TaskGroup.LookupTask`: the first task of the name. -/
def TaskGroup.lookupTask (tg : TaskGroup) (name : String) : Option Task :=
  tg.tasks.find? fun t ↦ t.name = name

namespace Job

/-- `Job.NamespacedID`. -/
def namespacedID (j : Job) : NamespacedID := ⟨j.id, j.namespace⟩

/-- `Job.IsPeriodic`. -/
def isPeriodic (j : Job) : Bool := j.periodic.isSome

/-- `Job.LookupTaskGroup`. -/
def lookupTaskGroup (j : Job) (name : String) : Option TaskGroup :=
  j.taskGroups.find? fun tg ↦ tg.name = name

/-- `Job.CombinedTaskMeta`: the task's meta, then the group's and the job's for the keys it
lacks. -/
def combinedTaskMeta (j : Job) (groupName taskName : String) : Lib.GoMap String String :=
  match j.lookupTaskGroup groupName with
  | none => j.meta
  | some group =>
    let addMissing := fun (combined : Lib.GoMap String String) (e : Σ _ : String, String) ↦
      if e.1 ∈ combined then combined else combined.insert e.1 e.2
    let combined := ((group.lookupTask taskName).map (·.meta)).getD ∅
    j.meta.entries.foldl addMissing (group.meta.entries.foldl addMissing combined)

/-- `Job.IsParameterized`. -/
def isParameterized (j : Job) : Bool := j.parameterizedJob && !j.dispatched

/-- The part of `Job.Canonicalize` that touches a modelled field: the job is put in the default
namespace when it names none. -/
def canonicalize (j : Job) : Job :=
  if j.namespace = "" then { j with «namespace» := defaultNamespace } else j

/-- `Job.SpecChanged` for a non-nil receiver: the new job differs from the existing one in a
field other than those the state store sets (status, stability, version, the three indexes and
the submit time). -/
def specChanged (j new : Job) : Bool :=
  decide ({ new with
    status := j.status
    version := j.version
    createIndex := j.createIndex
    modifyIndex := j.modifyIndex
    jobModifyIndex := j.jobModifyIndex
    submitTime := j.submitTime } ≠ j)

@[simp] theorem canonicalize_of_ne {j : Job} (h : j.namespace ≠ "") : j.canonicalize = j := by
  simp [canonicalize, h]

theorem namespace_canonicalize_ne (j : Job) : j.canonicalize.namespace ≠ "" := by
  unfold canonicalize
  split
  · show defaultNamespace ≠ ""
    decide
  · assumption

@[simp] theorem id_canonicalize (j : Job) : j.canonicalize.id = j.id := by
  unfold canonicalize
  split <;> rfl

@[simp] theorem nodePool_canonicalize (j : Job) : j.canonicalize.nodePool = j.nodePool := by
  unfold canonicalize
  split <;> rfl

end Job

/-- The values of `Deployment.Status`. -/
inductive DeploymentStatus
  | running
  | paused
  | failed
  | successful
  | cancelled
  | initializing
  | pending
  | blocked
  | unblocking
deriving DecidableEq, Repr

/-- The counters of `structs.DeploymentState` that allocation updates change. They are Go ints:
an update can take one below zero. -/
structure DeploymentState where
  placedCanaries : List String := []
  placedAllocs : ℤ := 0
  healthyAllocs : ℤ := 0
  unhealthyAllocs : ℤ := 0
deriving DecidableEq, Repr

/-- The fields of `structs.Deployment` that the modelled code reads; `taskGroups` holds the
deployment state of each task group of a rolling update. -/
structure Deployment where
  id : String
  «namespace» : String
  jobID : String
  jobCreateIndex : ℕ
  status : DeploymentStatus
  createIndex : ℕ
  modifyIndex : ℕ
  taskGroups : Lib.GoMap String DeploymentState := ∅
deriving DecidableEq

/-- The counters of `structs.TaskGroupSummary`, one for each client status and `Queued`. -/
structure TaskGroupSummary where
  queued : ℕ := 0
  complete : ℕ := 0
  failed : ℕ := 0
  running : ℕ := 0
  starting : ℕ := 0
  lost : ℕ := 0
  unknown : ℕ := 0
deriving DecidableEq, Repr

/-- The fields of `structs.JobSummary` that the modelled code reads. -/
structure JobSummary where
  jobID : String
  «namespace» : String
  summary : Lib.GoMap String TaskGroupSummary
  createIndex : ℕ
  modifyIndex : ℕ
deriving DecidableEq

/-- `Deployment.Active`. -/
def Deployment.active (d : Deployment) : Bool :=
  match d.status with
  | .running | .paused | .blocked | .unblocking | .initializing | .pending => true
  | .failed | .successful | .cancelled => false

end Wander.Structs
