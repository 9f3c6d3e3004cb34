import Wander.State.StateStore
import Wander.Lib.Except

/-!
# Allocation writes of the state store

`UpsertAllocs` (`upsertAllocsImpl`), the scheduler's write of allocations, and
`UpdateAllocsFromClient` (`nestedUpdateAllocFromClient`), the clients' write of the fields they
are the authority on. Each allocation a call writes goes through `updateDeploymentWithAlloc`,
which moves the counters of the deployment state of its task group, and
`updateSummaryWithAlloc`, which moves the counters of its job summary, before it is stored.
`ReconcileJobSummaries` recounts a job's summary from its allocations (`reconcileJobSummary`).

A call is a loop over its allocations inside one transaction: it succeeds when every allocation
does, each against the state the ones before it left, and a failed call leaves the store as it
was. `upsertAllocsImpl_writes` and `updateAllocsFromClient_writes` cut a successful call into the
writes of its allocations.

Left out: the job statuses both calls set after their loop, the CSI plugin and volume updates,
the index table, the progress deadline of a deployment state, and the job stability a successful
deployment sets; none of them reads or writes the counters.
-/

set_option autoImplicit false
set_option relaxedAutoImplicit false

namespace Wander.Structs.TaskGroupSummary

/-- The bucket of a client status. -/
def count (t : TaskGroupSummary) : AllocClientStatus → ℕ
  | .pending => t.starting
  | .running => t.running
  | .complete => t.complete
  | .failed => t.failed
  | .lost => t.lost
  | .unknown => t.unknown

/-- One more allocation in the bucket of a client status, the switch `updateSummaryWithAlloc` and
`ReconcileJobSummaries` share. -/
def increment (t : TaskGroupSummary) : AllocClientStatus → TaskGroupSummary
  | .running => { t with running := t.running + 1 }
  | .failed => { t with failed := t.failed + 1 }
  | .pending => { t with starting := t.starting + 1 }
  | .complete => { t with complete := t.complete + 1 }
  | .lost => { t with lost := t.lost + 1 }
  | .unknown => { t with unknown := t.unknown + 1 }

/-- One allocation fewer in the bucket of the old client status, down to 0, in
`updateSummaryWithAlloc`; the buckets of failed and complete allocations are left as they are. -/
def decrement (t : TaskGroupSummary) : AllocClientStatus → TaskGroupSummary
  | .running => { t with running := if t.running > 0 then t.running - 1 else t.running }
  | .pending => { t with starting := if t.starting > 0 then t.starting - 1 else t.starting }
  | .lost => { t with lost := if t.lost > 0 then t.lost - 1 else t.lost }
  | .unknown => { t with unknown := if t.unknown > 0 then t.unknown - 1 else t.unknown }
  | .failed | .complete => t

/-- The client statuses whose bucket `decrement` moves. -/
def decrements : AllocClientStatus → Bool
  | .failed | .complete => false
  | .pending | .running | .lost | .unknown => true

@[simp] theorem count_zero (st : AllocClientStatus) : ({} : TaskGroupSummary).count st = 0 := by
  cases st <;> rfl

@[simp] theorem count_with_queued (t : TaskGroupSummary) (queued : ℕ) (st : AllocClientStatus) :
    ({ t with queued := queued } : TaskGroupSummary).count st = t.count st := by
  cases st <;> rfl

@[simp] theorem count_increment (t : TaskGroupSummary) (st st' : AllocClientStatus) :
    (t.increment st).count st' = t.count st' + if st = st' then 1 else 0 := by
  cases st <;> cases st' <;> simp [increment, count]

@[simp] theorem count_decrement (t : TaskGroupSummary) (st st' : AllocClientStatus) :
    (t.decrement st).count st' = if st = st' ∧ decrements st = true then t.count st' - 1
      else t.count st' := by
  cases st <;> cases st' <;> simp [decrement, count, decrements] <;> omega

end Wander.Structs.TaskGroupSummary

namespace Wander.State

open Wander.Lib Wander.Structs

/-- The health a deployment status holds, `none` when it has none. -/
def healthOf (ds : Option AllocDeploymentStatus) : Option Bool := ds.bind (·.healthy)

/-- Whether a deployment status marks its allocation a canary. -/
def canaryOf (ds : Option AllocDeploymentStatus) : Bool := ds.any (·.canary)

/-- The moves of the placed, healthy and unhealthy counters that `updateDeploymentWithAlloc`
derives from an allocation and the one it replaces: a placement when the allocation is new to the
deployment, else a health set for the first time, or a healthy allocation turned unhealthy. -/
def deploymentDeltas (alloc : Allocation) (existing : Option Allocation) : ℤ × ℤ × ℤ :=
  let existingHealthSet := existing.any fun e ↦ AllocDeploymentStatus.hasHealth e.deploymentStatus
  let allocHealthSet := AllocDeploymentStatus.hasHealth alloc.deploymentStatus
  if existing.all fun e ↦ e.deploymentID != alloc.deploymentID then (1, 0, 0)
  else if !existingHealthSet && allocHealthSet then
    if healthOf alloc.deploymentStatus = some true then (0, 1, 0) else (0, 0, 1)
  else if existingHealthSet && allocHealthSet then
    if (existing.bind fun e ↦ healthOf e.deploymentStatus) = some true ∧
        healthOf alloc.deploymentStatus = some false then (0, -1, 1)
    else (0, 0, 0)
  else (0, 0, 0)

namespace StateStore

/-- `StateStore.upsertDeploymentImpl`: the deployment keeps the create index of the one it
replaces. -/
def upsertDeploymentImpl (index : ℕ) (deployment : Deployment) (s : StateStore) : StateStore :=
  let createIndex := match s.deployments.lookup deployment.id with
    | some existing => existing.createIndex
    | none => index
  { s with
    deployments := s.deployments.insert deployment.id
      { deployment with
        createIndex := createIndex
        modifyIndex := index } }

/-- `StateStore.updateDeploymentWithAlloc`: the deployment state of the allocation's task group
counts the moves `deploymentDeltas` finds, and a canary's ID once. The allocation comes back with
the modify index of its deployment status set when its health moved a counter. -/
def updateDeploymentWithAlloc (index : ℕ) (alloc : Allocation) (existing : Option Allocation)
    (s : StateStore) : StateStore × Allocation :=
  if alloc.deploymentID = "" then (s, alloc)
  else
    match s.deployments.lookup alloc.deploymentID with
    | none => (s, alloc)
    | some deployment =>
      match deployment.taskGroups.lookup alloc.taskGroup with
      -- a task group outside the deployment was not part of a rolling update
      | none => (s, alloc)
      | some dstate =>
        let (placed, healthy, unhealthy) := deploymentDeltas alloc existing
        if placed = 0 ∧ healthy = 0 ∧ unhealthy = 0 then (s, alloc)
        else
          let alloc := if alloc.deploymentStatus.isSome ∧ healthy + unhealthy ≠ 0 then
              { alloc with
                deploymentStatus := alloc.deploymentStatus.map fun d ↦ { d with modifyIndex := index } }
            else alloc
          let placedCanaries :=
            if canaryOf alloc.deploymentStatus ∧ alloc.id ∉ dstate.placedCanaries then
              dstate.placedCanaries ++ [alloc.id]
            else dstate.placedCanaries
          let dstate :=
            { dstate with
              placedAllocs := dstate.placedAllocs + placed
              healthyAllocs := dstate.healthyAllocs + healthy
              unhealthyAllocs := dstate.unhealthyAllocs + unhealthy
              placedCanaries := placedCanaries }
          let deployment :=
            { deployment with
              modifyIndex := index
              taskGroups := deployment.taskGroups.insert alloc.taskGroup dstate }
          (s.upsertDeploymentImpl index deployment, alloc)

/-- The summary counters `updateSummaryWithAlloc` writes for a task group: a new allocation is
counted when it is pending, taking one off the queued; an existing one whose client status
changes moves from the bucket of the old status to that of the new. `none` when nothing
changes. -/
def summaryUpdate (tgSummary : TaskGroupSummary) (alloc : Allocation)
    (existing : Option Allocation) : Option TaskGroupSummary :=
  match existing with
  | none =>
    if alloc.clientStatus = .pending then
      some { tgSummary.increment .pending with
        queued := if tgSummary.queued > 0 then tgSummary.queued - 1 else tgSummary.queued }
    else none
  | some existingAlloc =>
    if existingAlloc.clientStatus ≠ alloc.clientStatus then
      some ((tgSummary.increment alloc.clientStatus).decrement existingAlloc.clientStatus)
    else none

/-- `StateStore.updateSummaryWithAlloc`: the summary of the allocation's job counts it, when the
allocation belongs to the job registered now. -/
def updateSummaryWithAlloc (index : ℕ) (alloc : Allocation) (existing : Option Allocation)
    (s : StateStore) : Except String StateStore :=
  let key : NamespacedID := ⟨alloc.jobID, alloc.namespace⟩
  match s.jobSummaries.lookup key with
  | none =>
    -- only a job that is not registered may lack a summary
    match s.jobByID alloc.namespace alloc.jobID with
    | none => .ok s
    | some _ =>
      let job := quoted alloc.jobID
      let ns := quoted alloc.namespace
      .error s!"job summary for job {job} in namespace {ns} is not present"
  | some jobSummary =>
    if jobSummary.createIndex ≠ alloc.jobCreateIndex then .ok s
    else
      match jobSummary.summary.lookup alloc.taskGroup with
      | none =>
        let tg := alloc.taskGroup
        .error s!"unable to find task group in the job summary: {tg}"
      | some tgSummary =>
        match summaryUpdate tgSummary alloc existing with
        | none => .ok s
        | some tgSummary =>
          .ok { s with
            jobSummaries := s.jobSummaries.insert key
              { jobSummary with
                summary := jobSummary.summary.insert alloc.taskGroup tgSummary
                modifyIndex := index } }

/-- The allocation `upsertAllocsImpl` stores for `alloc`: a new allocation takes the index as its
create and modify index; an existing one keeps its create index and its client status, unless the
scheduler marks it lost or unknown. -/
def upsertedAlloc (index : ℕ) (exist : Option Allocation) (alloc : Allocation) : Allocation :=
  match exist with
  | none =>
    { alloc with
      createIndex := index
      modifyIndex := index
      deploymentStatus := alloc.deploymentStatus.map fun d ↦ { d with modifyIndex := index } }
  | some exist =>
    { alloc with
      createIndex := exist.createIndex
      modifyIndex := index
      clientStatus :=
        if alloc.clientStatus ≠ .lost ∧ alloc.clientStatus ≠ .unknown then exist.clientStatus
        else alloc.clientStatus }

/-- The end of `upsertAllocsImpl`'s loop body: the previous allocation of the one stored names it
as its next. -/
def linkPrevious (index : ℕ) (alloc : Allocation) (s : StateStore) : StateStore :=
  if alloc.previousAllocation ≠ "" then
    match s.allocs.lookup alloc.previousAllocation with
    | some prev =>
      { s with
        allocs := s.allocs.insert prev.id
          { prev with
            nextAllocation := alloc.id
            modifyIndex := index } }
    | none => s
  else s

/-- One allocation of `upsertAllocsImpl`'s loop: the allocation is counted in its deployment and
its job summary, stored, and linked from its previous one. -/
def upsertAlloc (index : ℕ) (s : StateStore) (alloc : Allocation) : Except String StateStore := do
  let exist := s.allocs.lookup alloc.id
  let (s, alloc) := s.updateDeploymentWithAlloc index (upsertedAlloc index exist alloc) exist
  let s ← s.updateSummaryWithAlloc index alloc exist
  return linkPrevious index alloc { s with allocs := s.allocs.insert alloc.id alloc }

/-- `StateStore.upsertAllocsImpl`. -/
def upsertAllocsImpl (index : ℕ) (allocs : List Allocation) (s : StateStore) :
    Except String StateStore :=
  allocs.foldlM (upsertAlloc index) s

/-- The deployment status a client update leaves: the client's health, when it brings health the
allocation does not have yet, or the client's whole status, when the allocation has none. -/
def clientDeploymentStatus (index : ℕ) :
    Option AllocDeploymentStatus → Option AllocDeploymentStatus → Option AllocDeploymentStatus
  | some old, some new =>
    if AllocDeploymentStatus.hasHealth (some new) = true ∧
        (AllocDeploymentStatus.hasHealth (some old) = false ∨ old.healthy ≠ new.healthy) then
      some { old with
        healthy := new.healthy
        modifyIndex := index }
    else some old
  | none, some new => some { new with modifyIndex := index }
  | old, none => old

/-- The allocation a client update makes of the stored one: the client's status and deployment
health, and the index as its modify index. -/
def clientUpdatedAlloc (index : ℕ) (exist alloc : Allocation) : Allocation :=
  { exist with
    clientStatus := alloc.clientStatus
    deploymentStatus := clientDeploymentStatus index exist.deploymentStatus alloc.deploymentStatus
    modifyIndex := index }

/-- `StateStore.nestedUpdateAllocFromClient`: the updated allocation is counted in its deployment
and job summary, and stored. An update of an allocation that is not stored does nothing. -/
def nestedUpdateAllocFromClient (index : ℕ) (s : StateStore) (alloc : Allocation) :
    Except String StateStore := do
  match s.allocs.lookup alloc.id with
  | none => return s
  | some exist =>
    let (s, copyAlloc) :=
      s.updateDeploymentWithAlloc index (clientUpdatedAlloc index exist alloc) (some exist)
    let s ← s.updateSummaryWithAlloc index copyAlloc (some exist)
    return { s with allocs := s.allocs.insert copyAlloc.id copyAlloc }

/-- `StateStore.UpdateAllocsFromClient`, less the nodes' last update index. -/
def updateAllocsFromClient (index : ℕ) (allocs : List Allocation) (s : StateStore) :
    Except String StateStore :=
  allocs.foldlM (nestedUpdateAllocFromClient index) s

/-- One allocation of the loop of `ReconcileJobSummaries`: an allocation of the job registered
now is counted in the bucket of its client status. -/
def recountAlloc (job : Job) (m : GoMap String TaskGroupSummary) (a : Allocation) :
    GoMap String TaskGroupSummary :=
  if a.jobCreateIndex ≠ job.createIndex then m
  else m.insert a.taskGroup ((GoMap.get m a.taskGroup {}).increment a.clientStatus)

/-- The summary `ReconcileJobSummaries` computes for a job that is neither periodic nor
parameterized: a zero summary for each of its task groups, then the job's allocations
counted by `recountAlloc`. -/
def reconcileJobSummary (s : StateStore) (job : Job) : GoMap String TaskGroupSummary :=
  let summary := job.taskGroups.foldl (fun m tg ↦ m.insert tg.name {}) ∅
  (s.allocsByJob job.namespace job.id true).foldl (recountAlloc job) summary

/-! ### What each write changes -/

/-- `updateDeploymentWithAlloc` writes the deployments alone, and gives the allocation back as it
came or with the modify index of its deployment status set. -/
theorem updateDeploymentWithAlloc_frame (index : ℕ) (alloc : Allocation)
    (existing : Option Allocation) (s : StateStore) :
    let r := s.updateDeploymentWithAlloc index alloc existing
    r.1 = { s with deployments := r.1.deployments } ∧
      (r.2 = alloc ∨
        r.2 = { alloc with
          deploymentStatus := alloc.deploymentStatus.map fun d ↦ { d with modifyIndex := index } }) := by
  unfold updateDeploymentWithAlloc upsertDeploymentImpl
  repeat' split
  all_goals first
    | exact ⟨rfl, Or.inl rfl⟩
    | exact ⟨rfl, Or.inr rfl⟩

/-- The allocation `updateDeploymentWithAlloc` gives back is the one it was given, up to the modify
index of its deployment status. -/
theorem updateDeploymentWithAlloc_snd (index : ℕ) (alloc : Allocation)
    (existing : Option Allocation) (s : StateStore) :
    let a := (s.updateDeploymentWithAlloc index alloc existing).2
    a.id = alloc.id ∧ a.namespace = alloc.namespace ∧ a.jobID = alloc.jobID ∧
      a.jobCreateIndex = alloc.jobCreateIndex ∧ a.taskGroup = alloc.taskGroup ∧
      a.clientStatus = alloc.clientStatus ∧ a.deploymentID = alloc.deploymentID ∧
      healthOf a.deploymentStatus = healthOf alloc.deploymentStatus ∧
      canaryOf a.deploymentStatus = canaryOf alloc.deploymentStatus := by
  rcases (updateDeploymentWithAlloc_frame index alloc existing s).2 with h | h <;> rw [h]
  · exact ⟨rfl, rfl, rfl, rfl, rfl, rfl, rfl, rfl, rfl⟩
  · cases hds : alloc.deploymentStatus <;> simp [healthOf, canaryOf]

/-- `updateSummaryWithAlloc` writes the job summaries alone, and only that of the allocation's
job. -/
theorem updateSummaryWithAlloc_frame {index : ℕ} {alloc : Allocation}
    {existing : Option Allocation} {s s' : StateStore}
    (h : s.updateSummaryWithAlloc index alloc existing = .ok s') :
    s' = { s with jobSummaries := s'.jobSummaries } ∧
      ∀ k, k ≠ ⟨alloc.jobID, alloc.namespace⟩ → s'.jobSummaries.lookup k = s.jobSummaries.lookup k := by
  unfold updateSummaryWithAlloc at h
  dsimp only at h
  repeat' split at h
  -- the errors close; each success either leaves the store or writes the job's summary
  all_goals cases h
  all_goals first
    | exact ⟨rfl, fun k _ ↦ rfl⟩
    | exact ⟨rfl, fun k hk ↦ AList.lookup_insert_ne hk⟩

/-- The summary of an allocation's job, when it is of the job registered now: the allocation's
task group is in it, and it takes the counters `summaryUpdate` computes. -/
theorem updateSummaryWithAlloc_lookup {index : ℕ} {alloc : Allocation}
    {existing : Option Allocation} {s s' : StateStore} {sm : JobSummary}
    (h : s.updateSummaryWithAlloc index alloc existing = .ok s')
    (hsm : s.jobSummaries.lookup ⟨alloc.jobID, alloc.namespace⟩ = some sm)
    (hindex : sm.createIndex = alloc.jobCreateIndex) :
    ∃ t, sm.summary.lookup alloc.taskGroup = some t ∧
      s'.jobSummaries.lookup ⟨alloc.jobID, alloc.namespace⟩ =
        some (match summaryUpdate t alloc existing with
          | none => sm
          | some t' =>
            { sm with
              summary := sm.summary.insert alloc.taskGroup t'
              modifyIndex := index }) := by
  unfold updateSummaryWithAlloc at h
  simp only [hsm, hindex, ne_eq, not_true_eq_false, ↓reduceIte] at h
  split at h
  · cases h
  · rename_i t ht
    refine ⟨t, ht, ?_⟩
    split at h
    · injection h with h
      subst h
      exact hsm
    · injection h with h
      subst h
      -- the stored summary carries the create index `hindex` rewrote
      simp only [AList.lookup_insert, hindex]

/-- `updateSummaryWithAlloc` keeps every summary and every task group each one holds. -/
theorem updateSummaryWithAlloc_mem {index : ℕ} {alloc : Allocation}
    {existing : Option Allocation} {s s' : StateStore}
    (h : s.updateSummaryWithAlloc index alloc existing = .ok s') {k : NamespacedID}
    {sm : JobSummary} (hsm : s.jobSummaries.lookup k = some sm) :
    ∃ sm', s'.jobSummaries.lookup k = some sm' ∧ ∀ tg ∈ sm.summary, tg ∈ sm'.summary := by
  by_cases hk : k = ⟨alloc.jobID, alloc.namespace⟩
  · subst hk
    unfold updateSummaryWithAlloc at h
    simp only [hsm] at h
    split at h
    · cases h
      exact ⟨sm, hsm, fun _ h ↦ h⟩
    · split at h
      · cases h
      · split at h
        · cases h
          exact ⟨sm, hsm, fun _ h ↦ h⟩
        · -- the written summary: one task group's counters replaced
          cases h
          exact ⟨_, AList.lookup_insert _, fun tg htg ↦ (AList.mem_insert _).mpr (Or.inr htg)⟩
  · rw [← (updateSummaryWithAlloc_frame h).2 k hk] at hsm
    exact ⟨sm, hsm, fun _ h ↦ h⟩

/-- A summary of another registration of the job is left as it is. -/
theorem updateSummaryWithAlloc_of_createIndex_ne {index : ℕ} {alloc : Allocation}
    {existing : Option Allocation} {s : StateStore} {sm : JobSummary}
    (hsm : s.jobSummaries.lookup ⟨alloc.jobID, alloc.namespace⟩ = some sm)
    (hindex : sm.createIndex ≠ alloc.jobCreateIndex) :
    s.updateSummaryWithAlloc index alloc existing = .ok s := by
  simp [updateSummaryWithAlloc, hsm, hindex]

/-- A successful allocation of `upsertAllocsImpl`: the summary write succeeded on the state the
deployment write left, and the allocation was stored and linked. -/
theorem upsertAlloc_ok {index : ℕ} {s s' : StateStore} {alloc : Allocation}
    (h : s.upsertAlloc index alloc = .ok s') :
    let exist := s.allocs.lookup alloc.id
    let r := s.updateDeploymentWithAlloc index (upsertedAlloc index exist alloc) exist
    ∃ s2, r.1.updateSummaryWithAlloc index r.2 exist = .ok s2 ∧
      s' = linkPrevious index r.2 { s2 with allocs := s2.allocs.insert r.2.id r.2 } := by
  unfold upsertAlloc at h
  simp only [Except.bind_eq_ok, Except.pure_eq_ok] at h
  obtain ⟨s2, hsum, rfl⟩ := h
  exact ⟨s2, hsum, rfl⟩

/-- A successful client update: nothing for an allocation not stored, else the summary write
succeeded on the state the deployment write left, and the updated allocation was stored. -/
theorem nestedUpdateAllocFromClient_ok {index : ℕ} {s s' : StateStore} {alloc : Allocation}
    (h : s.nestedUpdateAllocFromClient index alloc = .ok s') :
    (s.allocs.lookup alloc.id = none ∧ s' = s) ∨
      ∃ exist, s.allocs.lookup alloc.id = some exist ∧
        let r := s.updateDeploymentWithAlloc index (clientUpdatedAlloc index exist alloc) (some exist)
        ∃ s2, r.1.updateSummaryWithAlloc index r.2 (some exist) = .ok s2 ∧
          s' = { s2 with allocs := s2.allocs.insert r.2.id r.2 } := by
  unfold nestedUpdateAllocFromClient at h
  cases hex : s.allocs.lookup alloc.id with
  | none =>
    simp only [hex, Except.pure_eq_ok] at h
    exact Or.inl ⟨rfl, h.symm⟩
  | some exist =>
    simp only [hex, Except.bind_eq_ok, Except.pure_eq_ok] at h
    obtain ⟨s2, hsum, rfl⟩ := h
    exact Or.inr ⟨exist, rfl, s2, hsum, rfl⟩

theorem upsertAllocsImpl_writes {index : ℕ} {allocs : List Allocation} {s s' : StateStore}
    (h : s.upsertAllocsImpl index allocs = .ok s') :
    Relation.ReflTransGen (fun t t' ↦ ∃ a ∈ allocs, t.upsertAlloc index a = .ok t') s s' :=
  Except.foldlM_ok_reflTransGen h

theorem updateAllocsFromClient_writes {index : ℕ} {allocs : List Allocation} {s s' : StateStore}
    (h : s.updateAllocsFromClient index allocs = .ok s') :
    Relation.ReflTransGen (fun t t' ↦ ∃ a ∈ allocs, t.nestedUpdateAllocFromClient index a = .ok t')
      s s' :=
  Except.foldlM_ok_reflTransGen h

end StateStore

end Wander.State
