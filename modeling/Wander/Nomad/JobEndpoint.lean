import Wander.State.StateStore

/-!
# `Job.Register`, `Job.Scale` and the job upsert they commit

The registration and scaling endpoints of `nomad/job_endpoint.go` from the snapshot they read to
the raft entry they apply, and the finite-state machine's `applyUpsertJob` with the state store's
`upsertJobImpl` that applies it. Each endpoint is a function of the snapshot: it fails with the
error the RPC returns, or yields the `JobRegisterRequest` it hands to `raftApply`, or `none` when
it commits no job (a registration of an unchanged spec, a scaling event without a count).

The admission controllers are the server's configured hooks. What the model asks of them is what
every hook of the source keeps: the job's ID and namespace.
-/

set_option autoImplicit false
set_option relaxedAutoImplicit false

namespace Wander.Nomad

open Wander.Lib Wander.Structs Wander.State

/-- `structs.NewErrRPCCoded`. -/
def newErrRPCCoded (code : ℕ) (msg : String) : String := s!"RPC Error:: {code},{msg}"

/-- `structs.JobRegisterRequest`, as the endpoint receives it and raft carries it. `namespace`
is the request's `WriteRequest.Namespace`. -/
structure JobRegisterRequest where
  job : Job
  enforceIndex : Bool := false
  jobModifyIndex : ℕ := 0
  preserveCounts : Bool := false
  «namespace» : String := ""
deriving DecidableEq

/-- `WriteRequest.RequestNamespace`. -/
def requestNamespace (ns : String) : String := if ns = "" then defaultNamespace else ns

theorem requestNamespace_ne_empty (ns : String) : requestNamespace ns ≠ "" := by
  unfold requestNamespace
  split
  · decide
  · assumption

/-! ## The finite-state machine -/

/-- `nomadFSM.applyUpsertJob` on the jobs table: `Canonicalize`, then `UpsertJob`, which runs
`upsertJobImpl` without keeping the version. The request's `EnforceIndex` and `JobModifyIndex`
are not read. -/
def applyUpsertJob (index : ℕ) (req : JobRegisterRequest) (s : StateStore) :
    Except String StateStore :=
  upsertJobImpl index req.job.canonicalize false s

/-- The finite-state machine applies a registration whatever check-and-set it carries. -/
theorem applyUpsertJob_enforceIndex (index : ℕ) (req : JobRegisterRequest) (enforceIndex : Bool)
    (jobModifyIndex : ℕ) (s : StateStore) :
    applyUpsertJob index { req with enforceIndex, jobModifyIndex } s = applyUpsertJob index req s :=
  rfl

/-- An applied job upsert stores under the job's key a job stamped with the upsert's index, and
changes nothing else. -/
theorem applyUpsertJob_ok {index : ℕ} {req : JobRegisterRequest} {s s' : StateStore}
    (hpos : 0 < index) (h : applyUpsertJob index req s = .ok s') :
    ∃ j, StoredJob index req.job.canonicalize.namespacedID j ∧ j.jobModifyIndex = index ∧
      s' = { s with jobs := s.jobs.insert req.job.canonicalize.namespacedID j } :=
  ⟨_, storedJob_upsertedJob s hpos (Job.namespace_canonicalize_ne req.job),
    (upsertedJob_indexes s index _).1, upsertJobImpl_ok h⟩

/-! ## Registration -/

/-- `RegisterEnforceIndexErrPrefix`. -/
def registerEnforceIndexErrPrefix : String := "Enforcing job modify index"

/-- What a check-and-set request with job modify index `m` asks of the job stored under its ID:
none when `m` is zero, one whose `JobModifyIndex` is `m` otherwise. -/
def IndexMatches : Option Job → ℕ → Prop
  | none, m => m = 0
  | some j, m => m ≠ 0 ∧ j.jobModifyIndex = m

instance (existing : Option Job) (m : ℕ) : Decidable (IndexMatches existing m) := by
  cases existing <;> unfold IndexMatches <;> infer_instance

/-- The `EnforceIndex` check of `Job.Register` against the job of its snapshot. -/
def enforceIndexCheck (existingJob : Option Job) (jmi : ℕ) : Except String Unit :=
  match existingJob with
  | some existing =>
    if jmi = 0 then .error s!"{registerEnforceIndexErrPrefix} 0: job already exists"
    else if jmi ≠ existing.jobModifyIndex then
      let current := existing.jobModifyIndex
      .error s!"{registerEnforceIndexErrPrefix} {jmi}: job exists with conflicting job modify index: {current}"
    else .ok ()
  | none =>
    if jmi ≠ 0 then .error s!"{registerEnforceIndexErrPrefix} {jmi}: job does not exist"
    else .ok ()

theorem enforceIndexCheck_ok_iff (existingJob : Option Job) (jmi : ℕ) :
    enforceIndexCheck existingJob jmi = .ok () ↔ IndexMatches existingJob jmi := by
  cases existingJob with
  | none =>
    by_cases h : jmi = 0 <;> simp [enforceIndexCheck, IndexMatches, h]
  | some existing =>
    by_cases h : jmi = 0
    · simp [enforceIndexCheck, IndexMatches, h]
    · by_cases h' : jmi = existing.jobModifyIndex
      · simp [enforceIndexCheck, IndexMatches, h']
      · simp [enforceIndexCheck, IndexMatches, h, h', Ne.symm h']

/-- `validateJobUpdate`. -/
def validateJobUpdate (old : Option Job) (new : Job) : Except String Unit :=
  match old with
  | none =>
    if new.dispatched then .error "job can\x27t be submitted with \x27Dispatched\x27 set" else .ok ()
  | some old =>
    let oldType := quoted old.type
    let newType := quoted new.type
    if old.type ≠ new.type then .error s!"cannot update job from type {oldType} to {newType}"
    else if old.isPeriodic ∧ !new.isPeriodic then
      .error "cannot update periodic job to being non-periodic"
    else if new.isPeriodic ∧ !old.isPeriodic then
      .error "cannot update non-periodic job to being periodic"
    else if old.isParameterized ∧ !new.isParameterized then
      .error "cannot update parameterized job to being non-parameterized"
    else if new.isParameterized ∧ !old.isParameterized then
      .error "cannot update non-parameterized job to being parameterized"
    else if old.dispatched ≠ new.dispatched then .error "field \x27Dispatched\x27 is read-only"
    else .ok ()

/-- The `PreserveCounts` block of `Job.Register`: every group takes the count of the existing
job's group of its name (the last one, as the source's map keeps it). -/
def preserveCounts (existing job : Job) : Job :=
  let prevCounts : GoMap String ℤ :=
    existing.taskGroups.foldl (fun m tg ↦ m.insert tg.name tg.count) ∅
  { job with taskGroups := job.taskGroups.map fun tg ↦
      match prevCounts.lookup tg.name with
      | some count => { tg with count := count }
      | none => tg }

/-- The admission controllers of the server: mutating and validating hooks that keep the job's
ID and namespace. -/
structure AdmissionControllers where
  run : Job → Except String Job
  namespacedID_run : ∀ job job', run job = .ok job' → job'.namespacedID = job.namespacedID

/-- The job `Job.Register` commits: the admitted job with the existing counts when the request
preserves them, stamped with the submit time `now`. -/
def registeredJob (existingJob : Option Job) (args : JobRegisterRequest) (job : Job) (now : ℤ) :
    Job :=
  let job := match existingJob with
    | some existing => if args.preserveCounts then preserveCounts existing job else job
    | none => job
  { job with submitTime := now }

/-- Whether `Job.Register` calls `raftApply`: for a new job, and for an existing one whose spec
changed. -/
def registerCommits (existingJob : Option Job) (job : Job) : Bool :=
  match existingJob with
  | some existing => existing.specChanged job
  | none => true

/-- `Job.Register` from its argument checks to its `raftApply`: the entry it commits, or `none`
when the job exists with an unchanged spec. -/
def register (admissionControllers : AdmissionControllers) (snap : StateStore)
    (args : JobRegisterRequest) (now : ℤ) : Except String (Option JobRegisterRequest) := do
  let reqNamespace := requestNamespace args.namespace
  let a := quoted reqNamespace
  let b := quoted args.job.namespace
  Except.throwIf (reqNamespace ≠ args.job.namespace)
    s!"mismatched request namespace in request: {a}, {b}"
  let job ← admissionControllers.run args.job
  let existingJob := snap.jobs.lookup ⟨job.id, reqNamespace⟩
  (if args.enforceIndex then enforceIndexCheck existingJob args.jobModifyIndex else pure ())
  validateJobUpdate existingJob job
  let job := registeredJob existingJob args job now
  pure (if registerCommits existingJob job then some { args with job } else none)

/-- The key `Job.Register` reads its job under. -/
def JobRegisterRequest.key (args : JobRegisterRequest) : NamespacedID :=
  ⟨args.job.id, requestNamespace args.namespace⟩

@[simp] theorem namespacedID_registeredJob (existingJob : Option Job) (args : JobRegisterRequest)
    (job : Job) (now : ℤ) :
    (registeredJob existingJob args job now).namespacedID = job.namespacedID := by
  unfold registeredJob
  cases existingJob with
  | none => rfl
  | some existing =>
    dsimp only
    split <;> rfl

/-- What a registration that commits hands to raft: its own check-and-set fields, and a job with
the request's ID and namespace that passed the check against the snapshot. -/
theorem register_ok {ac : AdmissionControllers} {snap : StateStore} {args req : JobRegisterRequest}
    {now : ℤ} (h : register ac snap args now = .ok (some req)) :
    req.enforceIndex = args.enforceIndex ∧ req.jobModifyIndex = args.jobModifyIndex ∧
      req.job.namespacedID = args.key ∧
      (args.enforceIndex = true → IndexMatches (snap.jobs.lookup args.key) args.jobModifyIndex) := by
  simp only [register, Except.bind_eq_ok, Except.throwIf_eq_ok, Except.pure_eq_ok] at h
  obtain ⟨_, hns, job, hrun, _, hcheck, _, _, hcommit⟩ := h
  have hid : job.namespacedID = args.job.namespacedID := ac.namespacedID_run _ _ hrun
  have hkey : (⟨job.id, requestNamespace args.namespace⟩ : NamespacedID) = args.key := by
    simp only [Job.namespacedID, NamespacedID.mk.injEq] at hid
    simp [JobRegisterRequest.key, hid.1]
  rw [hkey] at hcheck hcommit
  split at hcommit
  · cases hcommit
    refine ⟨rfl, rfl, ?_, fun he ↦ ?_⟩
    · rw [namespacedID_registeredJob, hid]
      simp only [Job.namespacedID, JobRegisterRequest.key, not_not.mp hns]
    · simp only [he, if_true] at hcheck
      exact (enforceIndexCheck_ok_iff _ _).mp hcheck
  · cases hcommit

/-! ## Scaling -/

/-- `structs.ScalingTargetNamespace`. -/
def scalingTargetNamespace : String := "Namespace"

/-- `structs.ScalingTargetJob`. -/
def scalingTargetJob : String := "Job"

/-- `structs.ScalingTargetGroup`. -/
def scalingTargetGroup : String := "Group"

/-- `structs.JobScaleRequest`: the job, the scaling target and the new count. `namespace` is the
request's `WriteRequest.Namespace`. -/
structure JobScaleRequest where
  jobID : String
  target : GoMap String String
  count : Option ℤ := none
  error : Bool := false
  «namespace» : String := ""

/-- `JobScaleRequest.Validate`. A Go `int` is as wide as an `int64` on the platforms the server
is built for, so the check that the count fits one never fails and is left out. -/
def JobScaleRequest.validate (r : JobScaleRequest) : Except String Unit := do
  let ns := GoMap.get r.target scalingTargetNamespace ""
  Except.throwIf (ns ≠ "" ∧ ns ≠ requestNamespace r.namespace)
    (newErrRPCCoded 400 "namespace in payload did not match header")
  let jobID := GoMap.get r.target scalingTargetJob ""
  Except.throwIf (jobID ≠ "" ∧ jobID ≠ r.jobID) "job ID in payload did not match URL"
  Except.throwIf (GoMap.get r.target scalingTargetGroup "" = "")
    (newErrRPCCoded 400 "missing task group name for scaling action")
  match r.count with
  | some count => do
    Except.throwIf (count < 0) (newErrRPCCoded 400 "scaling action count can\x27t be negative")
    Except.throwIf (r.error = true)
      (newErrRPCCoded 400 "scaling action should not contain count if error is true")
  | none => pure ()

/-- The scaling policy bounds that `Job.Scale` checks a new count against. -/
def checkScalingBounds (group : TaskGroup) (count : ℤ) : Except String Unit :=
  match group.scaling with
  | some scaling => do
    let min := scaling.min
    let max := scaling.max
    Except.throwIf (count < min) (newErrRPCCoded 400
      s!"group count was less than scaling policy minimum: {count} < {min}")
    Except.throwIf (max < count) (newErrRPCCoded 400
      s!"group count was greater than scaling policy maximum: {count} > {max}")
  | none => pure ()

/-- The `Update group count` step of `Job.Scale`: the first group of the name, the one the
source's loop breaks at, takes the count. -/
def setGroupCount (groupName : String) (count : ℤ) : List TaskGroup → List TaskGroup
  | [] => []
  | tg :: rest =>
    if tg.name = groupName then { tg with count := count } :: rest
    else tg :: setGroupCount groupName count rest

/-- Whether the job's latest deployment blocks scaling: it is active and for this version of the
job. -/
def blocksScaling (deployment : Option Deployment) (job : Job) : Bool :=
  match deployment with
  | some d => d.active && d.jobCreateIndex == job.createIndex
  | none => false

/-- The job `Job.Scale` commits: the snapshot's job with the group's new count, stamped with the
submit time `now`. -/
def scaledJob (job : Job) (groupName : String) (count : ℤ) (now : ℤ) : Job :=
  { job with taskGroups := setGroupCount groupName count job.taskGroups, submitTime := now }

/-- `Job.Scale` from its argument checks to the `raftApply` of the job: the entry it commits, or
`none` for a scaling event without a count, which commits only the event. -/
def scale (snap : StateStore) (args : JobScaleRequest) (now : ℤ) :
    Except String (Option JobRegisterRequest) := do
  let ns := requestNamespace args.namespace
  args.validate
  let jobID := quoted args.jobID
  let some job := snap.jobs.lookup ⟨args.jobID, ns⟩
    | throw (newErrRPCCoded 404 s!"job {jobID} not found")
  Except.throwIf (job.type = jobTypeSystem)
    (newErrRPCCoded 400 "cannot scale jobs of type \"system\"")
  let groupName := GoMap.get args.target scalingTargetGroup ""
  let group := quoted groupName
  let some tg := job.taskGroups.find? (fun tg ↦ tg.name = groupName)
    | throw (newErrRPCCoded 400 s!"task group {group} specified for scaling does not exist in job")
  match args.count with
  | some count => do
    checkScalingBounds tg count
    let job := scaledJob job groupName count now
    Except.throwIf (blocksScaling (snap.latestDeploymentByJobID ns args.jobID) job = true)
      (newErrRPCCoded 400 "job scaling blocked due to active deployment")
    pure (some {
      job := job
      enforceIndex := true
      jobModifyIndex := job.modifyIndex
      «namespace» := args.namespace })
  | none => pure none

/-- What a scaling that commits hands to raft: the job of its snapshot with the new count and
submit time, under a check-and-set on the job's `ModifyIndex`. -/
theorem scale_ok {snap : StateStore} {args : JobScaleRequest} {now : ℤ} {req : JobRegisterRequest}
    (h : scale snap args now = .ok (some req)) :
    ∃ job count, snap.jobs.lookup ⟨args.jobID, requestNamespace args.namespace⟩ = some job ∧
      args.count = some count ∧
      req = {
        job := scaledJob job (GoMap.get args.target scalingTargetGroup "") count now
        enforceIndex := true
        jobModifyIndex := job.modifyIndex
        «namespace» := args.namespace } := by
  simp only [scale, Except.bind_eq_ok] at h
  obtain ⟨_, -, h⟩ := h
  cases hjob : snap.jobs.lookup ⟨args.jobID, requestNamespace args.namespace⟩ with
  | none => simp [hjob] at h
  | some job =>
    simp only [hjob, Except.bind_eq_ok, Except.throwIf_eq_ok] at h
    obtain ⟨_, -, h⟩ := h
    split at h
    · cases hcount : args.count with
      | none => simp [hcount] at h
      | some count =>
        simp only [hcount, Except.bind_eq_ok, Except.throwIf_eq_ok, Except.pure_eq_ok,
          Option.some.injEq] at h
        obtain ⟨_, -, _, -, rfl⟩ := h
        exact ⟨job, count, rfl, rfl, rfl⟩
    · simp at h

/-- The key `Job.Scale` reads its job under. -/
def JobScaleRequest.key (args : JobScaleRequest) : NamespacedID :=
  ⟨args.jobID, requestNamespace args.namespace⟩

@[simp] theorem scaledJob_fields (job : Job) (groupName : String) (count now : ℤ) :
    (scaledJob job groupName count now).namespacedID = job.namespacedID ∧
      (scaledJob job groupName count now).namespace = job.namespace ∧
      (scaledJob job groupName count now).nodePool = job.nodePool ∧
      (scaledJob job groupName count now).version = job.version ∧
      (scaledJob job groupName count now).createIndex = job.createIndex :=
  ⟨rfl, rfl, rfl, rfl, rfl⟩

/-- A scaling applied to the store it read changes the job only in the group's count and the
submit time, besides the modify indexes, the version and the status the upsert sets. -/
theorem scale_applyUpsertJob {snap s' : StateStore} {index index' : ℕ} {args : JobScaleRequest}
    {now : ℤ} {req : JobRegisterRequest} (hsnap : snap.Stored index)
    (h : scale snap args now = .ok (some req)) (happly : applyUpsertJob index' req snap = .ok s') :
    ∃ job count, snap.jobs.lookup args.key = some job ∧ args.count = some count ∧
      s'.jobs.lookup args.key = some
        { scaledJob job (GoMap.get args.target scalingTargetGroup "") count now with
          modifyIndex := index'
          jobModifyIndex := index'
          version := job.version + 1
          status := snap.getJobStatus job false } := by
  obtain ⟨job, count, hjob, hcount, rfl⟩ := scale_ok h
  replace hjob : snap.jobs.lookup args.key = some job := hjob
  have hj := hsnap _ _ hjob
  refine ⟨job, count, hjob, hcount, ?_⟩
  have hs := upsertJobImpl_ok happly
  -- the copy the handler scaled is already canonical and has its node pool, so the upsert
  -- stamps it under the key it was read from
  have hcanon : (scaledJob job (GoMap.get args.target scalingTargetGroup "") count now).canonicalize =
      scaledJob job (GoMap.get args.target scalingTargetGroup "") count now :=
    Job.canonicalize_of_ne hj.namespace_ne
  have hpool : withDefaultNodePool (scaledJob job (GoMap.get args.target scalingTargetGroup "")
      count now) = scaledJob job (GoMap.get args.target scalingTargetGroup "") count now :=
    withDefaultNodePool_of_ne hj.nodePool_ne
  have hkey : (scaledJob job (GoMap.get args.target scalingTargetGroup "") count now).namespacedID =
      args.key := hj.key
  rw [hcanon, hpool, hkey] at hs
  rw [hs, AList.lookup_insert]
  unfold upsertedJob
  rw [hkey, hjob]
  simp [setupIndexes, scaledJob, StateStore.getJobStatus, Job.isParameterized, Job.isPeriodic]

/-- A service job `web` with one group of one. -/
def webJob : Job :=
  { id := "web"
    «namespace» := defaultNamespace
    type := "service"
    priority := 50
    taskGroups := [{ name := "web", count := 1 }] }

/-- `webJob` as its registration as a new job at raft index 1 stores it. -/
def webStored : Job :=
  { webJob with
    nodePool := nodePoolDefault
    createIndex := 1
    modifyIndex := 1
    jobModifyIndex := 1 }

/-- A store in the default namespace and node pool holding `webStored` and nothing else. -/
def webStore : StateStore :=
  ⟨[defaultNamespace], [nodePoolDefault], (∅ : GoMap NamespacedID Job).insert webJob.namespacedID
    webStored, ∅, ∅, ∅, ∅, ∅⟩

/-- A scaling of the group of `web` to three. -/
def webScale : JobScaleRequest :=
  { jobID := "web"
    target := (∅ : GoMap String String).insert scalingTargetGroup "web"
    count := some 3
    «namespace» := defaultNamespace }

/-- The entry the scaling `webScale` commits at time 1 against `webStore`. -/
def webScaleEntry : JobRegisterRequest :=
  { job := scaledJob webStored "web" 3 1
    enforceIndex := true
    jobModifyIndex := 1
    «namespace» := defaultNamespace }

/-- `webStore` after the apply of `webScaleEntry` at raft index 2. -/
def webScaledStore : StateStore :=
  { webStore with
    jobs := webStore.jobs.insert webJob.namespacedID
      { scaledJob webStored "web" 3 1 with
        modifyIndex := 2
        jobModifyIndex := 2
        version := 1 } }

/-- `webScale` applied at raft index 2 to the store it read sets the count of `web` to three and
the submit time, and bumps the indexes and the version. -/
example :
    webStore.Stored 1 ∧ scale webStore webScale 1 = .ok (some webScaleEntry) ∧
      applyUpsertJob 2 webScaleEntry webStore = .ok webScaledStore ∧
      ∃ job count, webStore.jobs.lookup webScale.key = some job ∧ webScale.count = some count ∧
        webScaledStore.jobs.lookup webScale.key = some
          { scaledJob job (GoMap.get webScale.target scalingTargetGroup "") count 1 with
            modifyIndex := 2
            jobModifyIndex := 2
            version := job.version + 1
            status := webStore.getJobStatus job false } := by
  have hstored : webStore.Stored 1 := by
    intro k j hj
    by_cases hk : k = webJob.namespacedID
    · subst hk
      simp only [webStore, AList.lookup_insert, Option.some.injEq] at hj
      subst hj
      exact ⟨rfl, by decide, by decide, by decide, le_rfl, le_rfl⟩
    · change ((∅ : GoMap NamespacedID Job).insert webJob.namespacedID webStored).lookup k = some j
        at hj
      rw [AList.lookup_insert_ne hk] at hj
      simp at hj
  have hscale : scale webStore webScale 1 = .ok (some webScaleEntry) := by decide
  have happly : applyUpsertJob 2 webScaleEntry webStore = .ok webScaledStore := by decide
  exact ⟨hstored, hscale, happly, scale_applyUpsertJob hstored hscale happly⟩

end Wander.Nomad
