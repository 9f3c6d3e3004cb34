import Wander.Structs.Plan
import Wander.Structs.Node
import Wander.Lib.Except

/-!
# `nomad/state/state_store.go`: the tables and the job upsert

The tables of the state store that the modelled code reads, each keyed as its memdb table is
(jobs by namespace and ID, the others by ID), the queries over them, and `upsertJobImpl`, the
write a job registration commits. A memdb iterator visits a table in index order; the queries
here visit it in the order of the model's map, and nothing proved depends on that order.
-/

set_option autoImplicit false
set_option relaxedAutoImplicit false

namespace Wander.State

open Wander.Lib Wander.Structs

/-- The state store's tables. -/
structure StateStore where
  namespaces : List String
  nodePools : List String
  jobs : GoMap NamespacedID Job
  evals : GoMap String Evaluation
  allocs : GoMap String Allocation
  deployments : GoMap String Deployment
  nodes : GoMap String Node := ∅
  jobSummaries : GoMap NamespacedID JobSummary := ∅
deriving DecidableEq

namespace StateStore

/-- `StateStore.JobByID`. -/
def jobByID (s : StateStore) (ns id : String) : Option Job := s.jobs.lookup ⟨id, ns⟩

/-- `StateStore.EvalsByJob`: the `job_prefix` index filtered to exact job IDs. -/
def evalsByJob (s : StateStore) (ns jobID : String) : List Evaluation :=
  (GoMap.values s.evals).filter fun e ↦ e.namespace = ns ∧ e.jobID = jobID

/-- `StateStore.AllocsByJob`: the allocations the `job` index holds for a job, less, unless
`anyCreateIndex`, those of an earlier job of the same ID, whose embedded job has another
`CreateIndex` than the stored one. -/
def allocsByJob (s : StateStore) (ns jobID : String) (anyCreateIndex : Bool) : List Allocation :=
  let job := s.jobByID ns jobID
  (GoMap.values s.allocs).filter fun a ↦
    a.namespace = ns ∧ a.jobID = jobID ∧
      (anyCreateIndex = true ∨ job.all (fun j ↦ a.jobCreateIndex = j.createIndex) = true)

/-- `StateStore.NodeByID`. -/
def nodeByID (s : StateStore) (nodeID : String) : Option Node := s.nodes.lookup nodeID

/-- `StateStore.AllocsByNode`: the allocations the `node_prefix` index holds for a node, terminal
or not. -/
def allocsByNode (s : StateStore) (node : String) : List Allocation :=
  (GoMap.values s.allocs).filter fun a ↦ a.nodeID = node

/-- `StateStore.AllocsByEval`. -/
def allocsByEval (s : StateStore) (evalID : String) : List Allocation :=
  (GoMap.values s.allocs).filter fun a ↦ a.evalID = evalID

/-- `StateStore.AllocsByDeployment`. -/
def allocsByDeployment (s : StateStore) (deploymentID : String) : List Allocation :=
  (GoMap.values s.allocs).filter fun a ↦ a.deploymentID = deploymentID

/-- `StateStore.LatestDeploymentByJobID`: of the job's deployments, the first with the greatest
`CreateIndex`. -/
def latestDeploymentByJobID (s : StateStore) (ns jobID : String) : Option Deployment :=
  ((GoMap.values s.deployments).filter fun d ↦ d.namespace = ns ∧ d.jobID = jobID).foldl
    (fun out d ↦ match out with
      | some o => if o.createIndex < d.createIndex then some d else out
      | none => some d) none

/-- `jobIsGCable`, the condition of the jobs table's `gc` index: a periodic or parameterized job
once it is stopped, another job once it is dead and either stopped or a batch or system batch
job. -/
def jobIsGCable (j : Job) : Bool :=
  let periodic := match j.periodic with
    | some p => p.enabled
    | none => false
  if periodic || j.isParameterized then j.stop
  else if j.status ≠ .dead then false
  else if j.stop then true
  else j.type = jobTypeBatch ∨ j.type = jobTypeSysBatch

/-- `StateStore.JobsByGC` for the collectable jobs. -/
def jobsByGC (s : StateStore) : List Job := (GoMap.values s.jobs).filter jobIsGCable

/-- `StateStore.getJobStatus`. A system, periodic or parameterized job runs until it is stopped;
another job runs while it has a non-terminal allocation, is pending while it has a non-terminal
evaluation, and is dead once all it has are terminal. -/
def getJobStatus (s : StateStore) (job : Job) (evalDelete : Bool) : JobStatus :=
  if job.type = jobTypeSystem ∨ job.isParameterized ∨ job.isPeriodic then
    if job.stop then .dead else .running
  else
    -- the source reads the job index, which is what any create index asks for
    let allocs := s.allocsByJob job.namespace job.id true
    if allocs.any (!·.terminalStatus) then .running
    else
      let evals := s.evalsByJob job.namespace job.id
      if evals.any (!·.terminalStatus) then .pending
      else if evalDelete ∨ evals ≠ [] ∨ allocs ≠ [] then .dead
      else .pending

end StateStore

/-! ## The job upsert -/

/-- The `Setup the indexes correctly` block of `upsertJobImpl`: the indexes and the version a
job gets from the job stored under its ID. -/
def setupIndexes (index : ℕ) (keepVersion : Bool) : Option Job → Job → Job
  | some existing, job =>
    let job := { job with createIndex := existing.createIndex, modifyIndex := index }
    if keepVersion then job
    else
      let job := { job with jobModifyIndex := index }
      if job.version ≤ existing.version then { job with version := existing.version + 1 } else job
  | none, job => { job with createIndex := index, modifyIndex := index, jobModifyIndex := index }

/-- The node pool upgrade path of `upsertJobImpl`: a job that names no node pool is put in the
default one. -/
def withDefaultNodePool (job : Job) : Job :=
  if job.nodePool = "" then { job with nodePool := nodePoolDefault } else job

/-- The job `upsertJobImpl` inserts: its indexes set from the job stored under its ID and its
status computed from the tables (for a new job through `setJobStatus`, which computes the same
status). -/
def upsertedJob (s : StateStore) (index : ℕ) (keepVersion : Bool) (job : Job) : Job :=
  let job := setupIndexes index keepVersion (s.jobs.lookup job.namespacedID) job
  { job with status := s.getJobStatus job false }

/-- `StateStore.upsertJobImpl` on the modelled tables: the namespace and node pool checks, then
the insert. The job summary, version, scaling policy, recommendation, plugin and submission
tables it also writes are not modelled. -/
def upsertJobImpl (index : ℕ) (job : Job) (keepVersion : Bool) (s : StateStore) :
    Except String StateStore :=
  let jobID := quoted job.id
  if job.namespace ∉ s.namespaces then
    let ns := quoted job.namespace
    .error s!"job {jobID} is in nonexistent namespace {ns}"
  else
    let job := withDefaultNodePool job
    if job.nodePool ∉ s.nodePools then
      let pool := quoted job.nodePool
      .error s!"job {jobID} is in nonexistent node pool {pool}"
    else
      .ok { s with jobs := s.jobs.insert job.namespacedID (upsertedJob s index keepVersion job) }

@[simp] theorem namespacedID_withDefaultNodePool (job : Job) :
    (withDefaultNodePool job).namespacedID = job.namespacedID := by
  unfold withDefaultNodePool
  split <;> rfl

@[simp] theorem namespace_withDefaultNodePool (job : Job) :
    (withDefaultNodePool job).namespace = job.namespace := by
  unfold withDefaultNodePool
  split <;> rfl

theorem nodePool_withDefaultNodePool_ne (job : Job) : (withDefaultNodePool job).nodePool ≠ "" := by
  unfold withDefaultNodePool
  split
  · show nodePoolDefault ≠ ""
    decide
  · assumption

theorem withDefaultNodePool_of_ne {job : Job} (h : job.nodePool ≠ "") :
    withDefaultNodePool job = job := by
  simp [withDefaultNodePool, h]

/-- Setting up the indexes touches only the indexes and the version. -/
theorem setupIndexes_eq (index : ℕ) (keepVersion : Bool) (existing : Option Job) (job : Job) :
    ∃ createIndex modifyIndex jobModifyIndex version, setupIndexes index keepVersion existing job =
      { job with createIndex, modifyIndex, jobModifyIndex, version } := by
  cases existing with
  | none => exact ⟨_, _, _, _, rfl⟩
  | some e =>
    simp only [setupIndexes]
    split
    · exact ⟨_, _, _, _, rfl⟩
    · split
      · exact ⟨_, _, _, _, rfl⟩
      · exact ⟨_, _, _, _, rfl⟩

/-- The upsert touches only the indexes, the version and the status. -/
theorem upsertedJob_eq (s : StateStore) (index : ℕ) (keepVersion : Bool) (job : Job) :
    ∃ createIndex modifyIndex jobModifyIndex version status,
      upsertedJob s index keepVersion job =
        { job with createIndex, modifyIndex, jobModifyIndex, version, status } := by
  obtain ⟨c, m, jm, v, h⟩ := setupIndexes_eq index keepVersion (s.jobs.lookup job.namespacedID) job
  refine ⟨c, m, jm, v, s.getJobStatus (setupIndexes index keepVersion
    (s.jobs.lookup job.namespacedID) job) false, ?_⟩
  simp only [upsertedJob, h]

@[simp] theorem namespacedID_upsertedJob (s : StateStore) (index : ℕ) (keepVersion : Bool)
    (job : Job) : (upsertedJob s index keepVersion job).namespacedID = job.namespacedID := by
  obtain ⟨_, _, _, _, _, h⟩ := upsertedJob_eq s index keepVersion job
  rw [h]
  rfl

@[simp] theorem namespace_upsertedJob (s : StateStore) (index : ℕ) (keepVersion : Bool)
    (job : Job) : (upsertedJob s index keepVersion job).namespace = job.namespace := by
  obtain ⟨_, _, _, _, _, h⟩ := upsertedJob_eq s index keepVersion job
  rw [h]

@[simp] theorem nodePool_upsertedJob (s : StateStore) (index : ℕ) (keepVersion : Bool)
    (job : Job) : (upsertedJob s index keepVersion job).nodePool = job.nodePool := by
  obtain ⟨_, _, _, _, _, h⟩ := upsertedJob_eq s index keepVersion job
  rw [h]

/-- Without `keepVersion` both modify indexes of the upserted job are the upsert's index. -/
theorem upsertedJob_indexes (s : StateStore) (index : ℕ) (job : Job) :
    (upsertedJob s index false job).jobModifyIndex = index ∧
      (upsertedJob s index false job).modifyIndex = index := by
  unfold upsertedJob
  cases s.jobs.lookup job.namespacedID with
  | none => exact ⟨rfl, rfl⟩
  | some e =>
    simp only [setupIndexes, Bool.false_eq_true, if_false]
    split <;> exact ⟨rfl, rfl⟩

/-- What a successful upsert does to the tables: the job, with its node pool defaulted, is stored
under its ID as `upsertedJob` sets it, and nothing else changes. -/
theorem upsertJobImpl_ok {index : ℕ} {job : Job} {keepVersion : Bool} {s s' : StateStore}
    (h : upsertJobImpl index job keepVersion s = .ok s') :
    s' = { s with
      jobs := s.jobs.insert job.namespacedID
        (upsertedJob s index keepVersion (withDefaultNodePool job)) } := by
  unfold upsertJobImpl at h
  dsimp only at h
  split at h
  · cases h
  · split at h
    · cases h
    · injection h with h
      rw [← h, namespacedID_withDefaultNodePool]

/-- A job as the state store holds it under `k` once the raft index `index` is applied: under its
own ID, in a named namespace and node pool, with the `JobModifyIndex` of the upsert that stored it
and the `ModifyIndex` of the last write to it, that upsert or a later one that kept the version
(`setJobStatus`, `UpdateJobStability`). -/
structure StoredJob (index : ℕ) (k : NamespacedID) (j : Job) : Prop where
  key : j.namespacedID = k
  namespace_ne : j.namespace ≠ ""
  nodePool_ne : j.nodePool ≠ ""
  pos : 0 < j.jobModifyIndex
  jobModifyIndex_le : j.jobModifyIndex ≤ j.modifyIndex
  le_index : j.modifyIndex ≤ index

/-- Every job of the store is stored as the upserts up to raft index `index` store jobs. -/
def StateStore.Stored (s : StateStore) (index : ℕ) : Prop :=
  ∀ k j, s.jobs.lookup k = some j → StoredJob index k j

theorem StoredJob.mono {index index' : ℕ} {k : NamespacedID} {j : Job} (hj : StoredJob index k j)
    (h : index ≤ index') : StoredJob index' k j :=
  { hj with le_index := hj.le_index.trans h }

theorem StoredJob.jobModifyIndex_le_index {index : ℕ} {k : NamespacedID} {j : Job}
    (hj : StoredJob index k j) : j.jobModifyIndex ≤ index :=
  hj.jobModifyIndex_le.trans hj.le_index

theorem StateStore.Stored.insert {s : StateStore} {index : ℕ} (hs : s.Stored index)
    {k : NamespacedID} {j' : Job} (hj' : StoredJob (index + 1) k j') :
    ({ s with jobs := s.jobs.insert k j' } : StateStore).Stored (index + 1) := by
  intro k₀ j hj
  by_cases hk : k₀ = k
  · subst hk
    rw [AList.lookup_insert, Option.some.injEq] at hj
    exact hj ▸ hj'
  · rw [AList.lookup_insert_ne hk] at hj
    exact (hs _ _ hj).mono (Nat.le_succ index)

/-- An upsert of a job in a named namespace at a positive index stores it as `StoredJob` says. -/
theorem storedJob_upsertedJob (s : StateStore) {index : ℕ} (hpos : 0 < index) {job : Job}
    (hns : job.namespace ≠ "") :
    StoredJob index job.namespacedID (upsertedJob s index false (withDefaultNodePool job)) := by
  obtain ⟨hjmi, hmi⟩ := upsertedJob_indexes s index (withDefaultNodePool job)
  refine ⟨by simp, by simpa using hns, ?_, ?_, ?_, ?_⟩
  · simpa using nodePool_withDefaultNodePool_ne job
  · rw [hjmi]
    exact hpos
  · rw [hjmi, hmi]
  · rw [hmi]

end Wander.State
