import Wander.State.StateStore

/-!
# `nomad/core_sched.go`: garbage collection of evaluations, jobs and deployments

The core scheduler's `evalGC`, `jobGC` and `deploymentGC`, each a function of the snapshot it
reads, its thresholds and the GC time: it returns the identifiers it passes to `Eval.Reap` (and
the jobs it purges, the deployments it reaps). The threshold indexes are inputs; how
`getThreshold` derives them from the GC time and the server's configuration is not modelled. The
Go loops that append to result slices are the list functions that build the same lists.

`allocGCEligible` is what the claim asks of every reaped allocation (`allocGCEligible_iff`), and
`gcEval` checks it for every allocation it reaps except on one path: the evaluation of a batch
job that is still live, where `olderVersionTerminalAllocs` checks only the terminal status and
the indexes (`evalGC_reaps`). `evalGC_reaps_running_alloc` is an allocation still running on its
client that `evalGC` reaps there.
-/

set_option autoImplicit false
set_option relaxedAutoImplicit false

namespace Wander.Nomad

open Wander.Lib Wander.Structs Wander.State

/-! ## The model -/

/-- The reschedule-policy tail of `allocGCEligible`, for a failed allocation of a live job that
is not told to stop: collectable without a policy or with rescheduling disabled, once replaced,
and otherwise only with limited attempts and a last reschedule older than the interval. -/
def reschedulePolicyAllowsGC (a : Allocation) (reschedulePolicy : Option ReschedulePolicy)
    (gcTime : ℤ) : Bool :=
  match reschedulePolicy with
  | none => true
  | some reschedulePolicy =>
    if !reschedulePolicy.unlimited && reschedulePolicy.attempts = 0 then true
    else if a.nextAllocation ≠ "" then true
    else if reschedulePolicy.unlimited then false
    else match a.rescheduleTracker.bind List.getLast? with
      | none => false
      | some last => reschedulePolicy.interval < gcTime - last.rescheduleTime

/-- `allocGCEligible` at GC time `gcTime`. -/
def allocGCEligible (a : Allocation) (job : Option Job) (gcTime : ℤ) (thresholdIndex : ℕ) :
    Bool :=
  if !a.terminalStatus || thresholdIndex < a.modifyIndex then false
  else if a.clientStatus = .running then false
  else match job with
    | none => true
    | some job =>
      if job.stop || job.status = .dead then true
      else if a.desiredStatus = .stop then true
      else if a.clientStatus ≠ .failed then true
      else reschedulePolicyAllowsGC a ((job.lookupTaskGroup a.taskGroup).bind (·.reschedulePolicy))
        gcTime

/-- `olderVersionTerminalAllocs`. -/
def olderVersionTerminalAllocs (allocs : List Allocation) (job : Job) (thresholdIndex : ℕ) :
    List String :=
  (allocs.filter fun a ↦ a.createIndex < job.jobModifyIndex ∧ a.modifyIndex < thresholdIndex ∧
    a.terminalStatus).map (·.id)

/-- The job of a batch evaluation that `gcEval` cannot collect outright: it exists and is
neither dead and stopped nor, with `allowBatch`, dead. -/
def liveBatchJob (eval : Evaluation) (job : Option Job) (allowBatch : Bool) : Option Job :=
  match job with
  | some j => if eval.type = jobTypeBatch ∧ ¬(j.status = .dead ∧ (j.stop ∨ allowBatch)) then some j
      else none
  | none => none

/-- `CoreScheduler.gcEval` at GC time `now`: whether the evaluation is collected, and the
allocations collected with it. -/
def gcEval (snap : StateStore) (eval : Evaluation) (thresholdIndex : ℕ) (allowBatch : Bool)
    (now : ℤ) : Bool × List String :=
  if !eval.terminalStatus || thresholdIndex < eval.modifyIndex then (false, [])
  else
    let job := snap.jobByID eval.namespace eval.jobID
    let allocs := snap.allocsByEval eval.id
    match liveBatchJob eval job allowBatch with
    | some job =>
      -- a partial collection of the older versions' terminal allocations
      let oldAllocs := olderVersionTerminalAllocs allocs job thresholdIndex
      (oldAllocs.length = allocs.length, oldAllocs)
    | none =>
      (allocs.all fun a ↦ allocGCEligible a job now thresholdIndex,
        (allocs.filter fun a ↦ allocGCEligible a job now thresholdIndex).map (·.id))

/-- The threshold `evalGC` collects an evaluation at: the batch one for batch evaluations. -/
def evalGCThreshold (oldThreshold batchOldThreshold : ℕ) (eval : Evaluation) : ℕ :=
  if eval.type = jobTypeBatch then batchOldThreshold else oldThreshold

/-- `CoreScheduler.evalGC` at GC time `now`: the evaluations and the allocations it reaps. The
allocations of an evaluation are reaped whether or not the evaluation is. -/
def evalGC (snap : StateStore) (oldThreshold batchOldThreshold : ℕ) (now : ℤ) :
    List String × List String :=
  let evals := GoMap.values snap.evals
  let result := fun eval ↦ gcEval snap eval (evalGCThreshold oldThreshold batchOldThreshold eval)
    false now
  ((evals.filter fun e ↦ (result e).1).map (·.id), evals.flatMap fun e ↦ (result e).2)

/-- The evaluation loop of `jobGC` for one job: the evaluations and allocations to reap when
every evaluation of the job is collectable, and `none` from the first one that is not. -/
def jobEvalsGC (snap : StateStore) (thresholdIndex : ℕ) (now : ℤ) :
    List Evaluation → Option (List String × List String)
  | [] => some ([], [])
  | eval :: rest =>
    let result := gcEval snap eval thresholdIndex true now
    if result.1 then
      (jobEvalsGC snap thresholdIndex now rest).map fun r ↦ (eval.id :: r.1, result.2 ++ r.2)
    else none

/-- The jobs `jobGC` purges, each with the evaluations and allocations reaped with it. -/
def jobGCCollected (snap : StateStore) (oldThreshold : ℕ) (now : ℤ) :
    List (Job × List String × List String) :=
  snap.jobsByGC.filterMap fun job ↦
    if oldThreshold < job.createIndex then none
    else (jobEvalsGC snap oldThreshold now (snap.evalsByJob job.namespace job.id)).map (job, ·)

/-- `CoreScheduler.jobGC` at GC time `now`: the evaluations and allocations it reaps and the
jobs it purges. -/
def jobGC (snap : StateStore) (oldThreshold : ℕ) (now : ℤ) :
    List String × List String × List Job :=
  let collected := jobGCCollected snap oldThreshold now
  (collected.flatMap (·.2.1), collected.flatMap (·.2.2), collected.map (·.1))

/-- `CoreScheduler.deploymentGC`: the deployments it reaps. -/
def deploymentGC (snap : StateStore) (oldThreshold : ℕ) : List String :=
  ((GoMap.values snap.deployments).filter fun d ↦
    !d.active && d.modifyIndex ≤ oldThreshold &&
      (snap.allocsByDeployment d.id).all (·.terminalStatus)).map (·.id)

/-! ## What may be reaped -/

/-- A failed allocation that its group's reschedule policy may still replace: not told to stop,
not replaced yet, and with unlimited rescheduling, or with attempts and a last reschedule (if
any) within the policy's interval. -/
def AwaitsReschedule (job : Job) (now : ℤ) (a : Allocation) : Prop :=
  a.clientStatus = .failed ∧ a.desiredStatus ≠ .stop ∧ a.nextAllocation = "" ∧
    ∃ p, (job.lookupTaskGroup a.taskGroup).bind (·.reschedulePolicy) = some p ∧
      (p.unlimited = true ∨ p.attempts ≠ 0 ∧
        ∀ last, a.rescheduleTracker.bind List.getLast? = some last →
          now - last.rescheduleTime ≤ p.interval)

/-- What garbage collection may reap of an allocation whose job is `job`: it is terminal, not
modified after the threshold, no longer running on its client, and, while its job exists and is
neither stopped nor dead, not awaiting a reschedule. -/
structure Reapable (job : Option Job) (now : ℤ) (thresholdIndex : ℕ) (a : Allocation) : Prop where
  terminal : a.terminalStatus = true
  old : a.modifyIndex ≤ thresholdIndex
  notRunning : a.clientStatus ≠ .running
  notAwaiting : ∀ j, job = some j → j.stop = false → j.status ≠ .dead → ¬AwaitsReschedule j now a

/-- A failed allocation that is not told to stop is collectable under its group's policy
exactly when it does not await a reschedule. -/
theorem reschedulePolicyAllowsGC_iff {a : Allocation} {job : Job} {now : ℤ}
    (hfailed : a.clientStatus = .failed) (hdesired : a.desiredStatus ≠ .stop) :
    reschedulePolicyAllowsGC a ((job.lookupTaskGroup a.taskGroup).bind (·.reschedulePolicy)) now =
      true ↔ ¬AwaitsReschedule job now a := by
  unfold AwaitsReschedule reschedulePolicyAllowsGC
  cases (job.lookupTaskGroup a.taskGroup).bind (·.reschedulePolicy) with
  | none => simp
  | some p =>
    simp only [hfailed, hdesired, ne_eq, not_false_eq_true, true_and, Option.some.injEq,
      exists_eq_left']
    by_cases hnext : a.nextAllocation = ""
    · cases p.unlimited
      · by_cases hatt : p.attempts = 0
        · simp [hnext, hatt]
        · -- the last reschedule event, if any, decides
          cases a.rescheduleTracker.bind List.getLast? with
          | none => simp [hnext, hatt]
          | some last =>
            have hshift : p.interval < now - last.rescheduleTime ↔
                p.interval + last.rescheduleTime < now := by omega
            simp [hnext, hatt, hshift]
      · simp [hnext]
    · simp [hnext]

/-- `allocGCEligible` decides exactly `Reapable`. -/
theorem allocGCEligible_iff {a : Allocation} {job : Option Job} {now : ℤ} {thresholdIndex : ℕ} :
    allocGCEligible a job now thresholdIndex = true ↔ Reapable job now thresholdIndex a := by
  unfold allocGCEligible
  by_cases hterm : a.terminalStatus = true
  swap
  · simp only [hterm, Bool.not_false, Bool.true_or, if_true, Bool.false_eq_true, false_iff]
    exact fun h ↦ hterm h.terminal
  by_cases hold : thresholdIndex < a.modifyIndex
  · simp only [hold, decide_true, Bool.or_true, if_true, Bool.false_eq_true, false_iff]
    exact fun h ↦ absurd h.old (Nat.not_le.mpr hold)
  by_cases hrun : a.clientStatus = .running
  · simp only [hterm, hold, hrun, Bool.not_true, decide_false, Bool.or_false, if_true,
      Bool.false_eq_true, if_false, false_iff]
    exact fun h ↦ h.notRunning hrun
  simp only [hterm, hold, hrun, Bool.not_true, decide_false, Bool.or_false, Bool.false_eq_true,
    if_false]
  -- past the early returns the allocation is terminal, old and not running
  have hbase : ∀ P : Prop, (P ↔ ∀ j, job = some j → j.stop = false → j.status ≠ .dead →
      ¬AwaitsReschedule j now a) → (P ↔ Reapable job now thresholdIndex a) := fun P hP ↦
    hP.trans ⟨fun h ↦ ⟨hterm, Nat.not_lt.mp hold, hrun, h⟩, fun h ↦ h.notAwaiting⟩
  refine hbase _ ?_
  cases job with
  | none => simp
  | some job =>
    simp only [Option.some.injEq, forall_eq']
    by_cases hlive : job.stop = true ∨ job.status = .dead
    · have : (job.stop || decide (job.status = .dead)) = true := by simpa using hlive
      simp only [this, if_true, true_iff]
      intro hstop hdead
      rcases hlive with h | h
      · simp [hstop] at h
      · exact absurd h hdead
    · have hstop : job.stop = false := by simpa using (not_or.mp hlive).1
      have hdead : job.status ≠ .dead := (not_or.mp hlive).2
      simp only [hstop, hdead, Bool.false_or, decide_false, Bool.false_eq_true, if_false,
        true_implies, ne_eq, not_false_eq_true]
      by_cases hdesired : a.desiredStatus = .stop
      · simp only [hdesired, if_true, true_iff]
        exact fun h ↦ h.2.1 hdesired
      by_cases hfailed : a.clientStatus = .failed
      · simp only [hdesired, hfailed, if_false, not_true_eq_false]
        exact reschedulePolicyAllowsGC_iff hfailed hdesired
      · simp only [hdesired, hfailed, if_false, not_false_eq_true, if_true, true_iff]
        exact fun h ↦ hfailed h.1

/-- What `gcEval` checks of an allocation it reaps: all of `Reapable` outside the live batch
path, and on it, for the live job `j`, only that the allocation is terminal, modified before the
threshold and created before the job's last spec change. -/
def GCChecked (job live : Option Job) (now : ℤ) (thresholdIndex : ℕ) (a : Allocation) : Prop :=
  match live with
  | some j => a.terminalStatus = true ∧ a.modifyIndex < thresholdIndex ∧
      a.createIndex < j.jobModifyIndex
  | none => Reapable job now thresholdIndex a

/-! ## What each collector reaps -/

section GCEval

variable {snap : StateStore} {eval : Evaluation} {thresholdIndex : ℕ} {allowBatch : Bool}
  {now : ℤ}

/-- `gcEval` looks into an evaluation only when it is terminal and not modified after the
threshold. -/
theorem gcEval_pass (hev : ¬(!eval.terminalStatus || decide (thresholdIndex < eval.modifyIndex))) :
    eval.terminalStatus = true ∧ eval.modifyIndex ≤ thresholdIndex := by
  simp only [Bool.or_eq_true, Bool.not_eq_true', decide_eq_true_eq, not_or,
    Bool.not_eq_false] at hev
  exact ⟨hev.1, Nat.not_lt.mp hev.2⟩

/-- `gcEval` reaps allocations only of a terminal evaluation not modified after the threshold,
each one of the evaluation's and checked as `GCChecked` says. -/
theorem mem_gcEval_snd {id : String} (h : id ∈ (gcEval snap eval thresholdIndex allowBatch now).2) :
    eval.terminalStatus = true ∧ eval.modifyIndex ≤ thresholdIndex ∧
      ∃ a ∈ snap.allocsByEval eval.id, a.id = id ∧
        GCChecked (snap.jobByID eval.namespace eval.jobID)
          (liveBatchJob eval (snap.jobByID eval.namespace eval.jobID) allowBatch) now
          thresholdIndex a := by
  unfold gcEval at h
  split at h
  · simp at h
  · rename_i hev
    refine ⟨(gcEval_pass hev).1, (gcEval_pass hev).2, ?_⟩
    dsimp only at h
    cases hl : liveBatchJob eval (snap.jobByID eval.namespace eval.jobID) allowBatch with
    | none =>
      simp only [hl, List.mem_map, List.mem_filter] at h
      obtain ⟨a, ⟨ha, hel⟩, rfl⟩ := h
      exact ⟨a, ha, rfl, allocGCEligible_iff.mp hel⟩
    | some j =>
      simp only [hl, olderVersionTerminalAllocs, List.mem_map, List.mem_filter,
        decide_eq_true_eq] at h
      obtain ⟨a, ⟨ha, hcreate, hmod, hterm⟩, rfl⟩ := h
      exact ⟨a, ha, rfl, hterm, hmod, hcreate⟩

/-- An evaluation `gcEval` collects is terminal and old, and all its allocations are reaped
with it. -/
theorem gcEval_fst (h : (gcEval snap eval thresholdIndex allowBatch now).1 = true) :
    eval.terminalStatus = true ∧ eval.modifyIndex ≤ thresholdIndex ∧
      ∀ a ∈ snap.allocsByEval eval.id, a.id ∈ (gcEval snap eval thresholdIndex allowBatch now).2 := by
  unfold gcEval at h ⊢
  split at h
  · cases h
  rename_i hev
  refine ⟨(gcEval_pass hev).1, (gcEval_pass hev).2, fun a ha ↦ ?_⟩
  simp only [hev] at h ⊢
  cases hl : liveBatchJob eval (snap.jobByID eval.namespace eval.jobID) allowBatch with
  | none =>
    simp only [hl, List.all_eq_true] at h ⊢
    exact List.mem_map.mpr ⟨a, List.mem_filter.mpr ⟨ha, h a ha⟩, rfl⟩
  | some j =>
    -- all the evaluation's allocations passed the filter, since as many came out as went in
    simp only [hl, olderVersionTerminalAllocs, List.length_map, decide_eq_true_eq,
      List.length_filter_eq_length_iff] at h ⊢
    exact List.mem_map.mpr ⟨a, List.mem_filter.mpr ⟨ha, decide_eq_true (h a ha)⟩, rfl⟩

end GCEval

/-- Every allocation `evalGC` reaps is an allocation of a terminal evaluation not modified after
that evaluation's threshold, checked as `GCChecked` says. -/
theorem evalGC_reaps {snap : StateStore} {oldThreshold batchOldThreshold : ℕ} {now : ℤ}
    {id : String} (h : id ∈ (evalGC snap oldThreshold batchOldThreshold now).2) :
    ∃ e ∈ GoMap.values snap.evals, ∃ a ∈ snap.allocsByEval e.id, a.id = id ∧
      e.terminalStatus = true ∧ e.modifyIndex ≤ evalGCThreshold oldThreshold batchOldThreshold e ∧
      GCChecked (snap.jobByID e.namespace e.jobID)
        (liveBatchJob e (snap.jobByID e.namespace e.jobID) false) now
        (evalGCThreshold oldThreshold batchOldThreshold e) a := by
  obtain ⟨e, he, hid⟩ := List.mem_flatMap.mp h
  obtain ⟨hterm, hold, a, ha, rfl, hchecked⟩ := mem_gcEval_snd hid
  exact ⟨e, he, a, ha, rfl, hterm, hold, hchecked⟩

/-- Every evaluation `evalGC` reaps is terminal, not modified after its threshold, and reaped
together with all its allocations. -/
theorem evalGC_evals {snap : StateStore} {oldThreshold batchOldThreshold : ℕ} {now : ℤ}
    {id : String} (h : id ∈ (evalGC snap oldThreshold batchOldThreshold now).1) :
    ∃ e ∈ GoMap.values snap.evals, e.id = id ∧ e.terminalStatus = true ∧
      e.modifyIndex ≤ evalGCThreshold oldThreshold batchOldThreshold e ∧
      ∀ a ∈ snap.allocsByEval e.id, a.id ∈ (evalGC snap oldThreshold batchOldThreshold now).2 := by
  obtain ⟨e, he, rfl⟩ := List.mem_map.mp h
  obtain ⟨he, hgc⟩ := List.mem_filter.mp he
  obtain ⟨hterm, hold, hall⟩ := gcEval_fst hgc
  exact ⟨e, he, rfl, hterm, hold, fun a ha ↦ List.mem_flatMap.mpr ⟨e, he, hall a ha⟩⟩

/-- The evaluation loop of `jobGC` collects every evaluation it is given, and reaps each one's
allocations. -/
theorem jobEvalsGC_some {snap : StateStore} {thresholdIndex : ℕ} {now : ℤ} :
    ∀ {evals : List Evaluation} {r : List String × List String},
      jobEvalsGC snap thresholdIndex now evals = some r →
      ∀ e ∈ evals, e.id ∈ r.1 ∧ (gcEval snap e thresholdIndex true now).1 = true ∧
        ∀ id ∈ (gcEval snap e thresholdIndex true now).2, id ∈ r.2
  | [], _, _, _, he => by simp at he
  | eval :: rest, r, h, e, he => by
    simp only [jobEvalsGC] at h
    split at h
    · rename_i hgc
      obtain ⟨r', hr', rfl⟩ := Option.map_eq_some_iff.mp h
      rcases List.mem_cons.mp he with rfl | he
      · exact ⟨List.mem_cons_self, hgc, fun id hid ↦ List.mem_append_left _ hid⟩
      · obtain ⟨h1, h2, h3⟩ := jobEvalsGC_some hr' e he
        exact ⟨List.mem_cons_of_mem _ h1, h2, fun id hid ↦ List.mem_append_right _ (h3 id hid)⟩
    · cases h

/-- Every job `jobGC` purges is collectable and not created after the threshold, and all its
evaluations and all their allocations are reaped with it. -/
theorem jobGC_purges {snap : StateStore} {oldThreshold : ℕ} {now : ℤ} {job : Job}
    (h : job ∈ (jobGC snap oldThreshold now).2.2) :
    job ∈ snap.jobsByGC ∧ job.createIndex ≤ oldThreshold ∧
      ∀ e ∈ snap.evalsByJob job.namespace job.id, e.id ∈ (jobGC snap oldThreshold now).1 ∧
        ∀ a ∈ snap.allocsByEval e.id, a.id ∈ (jobGC snap oldThreshold now).2.1 := by
  obtain ⟨c, hc, rfl⟩ := List.mem_map.mp h
  have hc' := hc
  simp only [jobGCCollected, List.mem_filterMap] at hc'
  obtain ⟨j, hj, hf⟩ := hc'
  split at hf
  · cases hf
  · rename_i hcreate
    obtain ⟨r, hr, rfl⟩ := Option.map_eq_some_iff.mp hf
    refine ⟨hj, Nat.not_lt.mp hcreate, fun e he ↦ ?_⟩
    obtain ⟨hid, hgc, hallocs⟩ := jobEvalsGC_some hr e he
    refine ⟨List.mem_flatMap.mpr ⟨_, hc, hid⟩, fun a ha ↦ ?_⟩
    exact List.mem_flatMap.mpr ⟨_, hc, hallocs _ ((gcEval_fst hgc).2.2 a ha)⟩

/-- Every deployment `deploymentGC` reaps is inactive, not modified after the threshold, and
referenced by terminal allocations only. -/
theorem deploymentGC_reaps {snap : StateStore} {oldThreshold : ℕ} {id : String}
    (h : id ∈ deploymentGC snap oldThreshold) :
    ∃ d ∈ GoMap.values snap.deployments, d.id = id ∧ d.active = false ∧
      d.modifyIndex ≤ oldThreshold ∧ ∀ a ∈ snap.allocsByDeployment d.id, a.terminalStatus = true := by
  obtain ⟨d, hd, rfl⟩ := List.mem_map.mp h
  obtain ⟨hd, hok⟩ := List.mem_filter.mp hd
  simp only [Bool.and_eq_true, Bool.not_eq_true', decide_eq_true_eq, List.all_eq_true] at hok
  exact ⟨d, hd, rfl, hok.1.1, hok.1.2, hok.2⟩

/-! ## A batch allocation reaped while it runs -/

/-- A batch job still running, whose spec changed at index 20. -/
def gcBatchJob : Job :=
  { id := "batch1"
    «namespace» := defaultNamespace
    type := jobTypeBatch
    status := .running
    createIndex := 5
    modifyIndex := 20
    jobModifyIndex := 20 }

/-- A dead batch job. -/
def gcDeadJob : Job :=
  { id := "old1"
    «namespace» := defaultNamespace
    type := jobTypeBatch
    status := .dead
    createIndex := 2
    modifyIndex := 3
    jobModifyIndex := 3 }

/-- A complete evaluation of `gcBatchJob`. -/
def gcBatchEval : Evaluation :=
  { id := "e1"
    «namespace» := defaultNamespace
    type := jobTypeBatch
    jobID := "batch1"
    status := .complete
    modifyIndex := 10 }

/-- A complete evaluation of `gcDeadJob`. -/
def gcDeadEval : Evaluation :=
  { id := "e2"
    «namespace» := defaultNamespace
    type := jobTypeBatch
    jobID := "old1"
    status := .complete
    modifyIndex := 4 }

/-- An allocation of the older version of `gcBatchJob` that the server told to stop and that
its client still runs. -/
def gcRunningAlloc : Allocation :=
  { id := "a1"
    «namespace» := defaultNamespace
    evalID := "e1"
    jobID := "batch1"
    desiredStatus := .stop
    clientStatus := .running
    createIndex := 10
    modifyIndex := 15 }

/-- A complete allocation of `gcDeadJob`. -/
def gcDoneAlloc : Allocation :=
  { id := "a2"
    «namespace» := defaultNamespace
    evalID := "e2"
    jobID := "old1"
    clientStatus := .complete
    createIndex := 4
    modifyIndex := 4 }

/-- A finished deployment of `gcDeadJob` that no allocation references. -/
def gcDeployment : Deployment :=
  { id := "d1"
    «namespace» := defaultNamespace
    jobID := "old1"
    jobCreateIndex := 2
    status := .successful
    createIndex := 3
    modifyIndex := 4 }

/-- A snapshot holding the two jobs with their evaluations, allocations and deployment. -/
def gcSnap : StateStore :=
  { namespaces := [defaultNamespace]
    nodePools := [nodePoolDefault]
    jobs := ((∅ : GoMap NamespacedID Job).insert gcBatchJob.namespacedID gcBatchJob).insert
      gcDeadJob.namespacedID gcDeadJob
    evals := ((∅ : GoMap String Evaluation).insert "e1" gcBatchEval).insert "e2" gcDeadEval
    allocs := ((∅ : GoMap String Allocation).insert "a1" gcRunningAlloc).insert "a2" gcDoneAlloc
    deployments := (∅ : GoMap String Deployment).insert "d1" gcDeployment }

/-- At thresholds 100, `evalGC` reaps `gcRunningAlloc`, whose client still runs it, which
`allocGCEligible` itself refuses. -/
theorem evalGC_reaps_running_alloc :
    evalGC gcSnap 100 100 0 = (["e1"], ["a1"]) ∧ gcSnap.allocs.lookup "a1" = some gcRunningAlloc ∧
      gcRunningAlloc.clientStatus = .running ∧
      allocGCEligible gcRunningAlloc (gcSnap.jobByID defaultNamespace "batch1") 0 100 = false :=
  ⟨by decide, by decide, rfl, by decide⟩

/-- The allocation `evalGC` reaps in `gcSnap` is checked on the live batch path only. -/
example :
    "a1" ∈ (evalGC gcSnap 100 100 0).2 ∧
      ∃ e ∈ GoMap.values gcSnap.evals, ∃ a ∈ gcSnap.allocsByEval e.id, a.id = "a1" ∧
        e.terminalStatus = true ∧ e.modifyIndex ≤ evalGCThreshold 100 100 e ∧
        GCChecked (gcSnap.jobByID e.namespace e.jobID)
          (liveBatchJob e (gcSnap.jobByID e.namespace e.jobID) false) 0
          (evalGCThreshold 100 100 e) a := by
  have h : "a1" ∈ (evalGC gcSnap 100 100 0).2 := by decide
  exact ⟨h, evalGC_reaps h⟩

/-- The evaluation `evalGC` reaps in `gcSnap`. -/
example :
    "e1" ∈ (evalGC gcSnap 100 100 0).1 ∧
      ∃ e ∈ GoMap.values gcSnap.evals, e.id = "e1" ∧ e.terminalStatus = true ∧
        e.modifyIndex ≤ evalGCThreshold 100 100 e ∧
        ∀ a ∈ gcSnap.allocsByEval e.id, a.id ∈ (evalGC gcSnap 100 100 0).2 := by
  have h : "e1" ∈ (evalGC gcSnap 100 100 0).1 := by decide
  exact ⟨h, evalGC_evals h⟩

/-- At threshold 100, `jobGC` purges `gcDeadJob` with its evaluation and allocation. -/
example :
    gcDeadJob ∈ (jobGC gcSnap 100 0).2.2 ∧ gcDeadJob ∈ gcSnap.jobsByGC ∧
      gcDeadJob.createIndex ≤ 100 ∧
      ∀ e ∈ gcSnap.evalsByJob gcDeadJob.namespace gcDeadJob.id, e.id ∈ (jobGC gcSnap 100 0).1 ∧
        ∀ a ∈ gcSnap.allocsByEval e.id, a.id ∈ (jobGC gcSnap 100 0).2.1 := by
  have h : gcDeadJob ∈ (jobGC gcSnap 100 0).2.2 := by decide
  exact ⟨h, jobGC_purges h⟩

/-- At threshold 100, `deploymentGC` reaps `gcDeployment`. -/
example :
    "d1" ∈ deploymentGC gcSnap 100 ∧
      ∃ d ∈ GoMap.values gcSnap.deployments, d.id = "d1" ∧ d.active = false ∧
        d.modifyIndex ≤ 100 ∧ ∀ a ∈ gcSnap.allocsByDeployment d.id, a.terminalStatus = true := by
  have h : "d1" ∈ deploymentGC gcSnap 100 := by decide
  exact ⟨h, deploymentGC_reaps h⟩

end Wander.Nomad
