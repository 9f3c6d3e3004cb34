import Wander.State.AllocUpdates

/-!
# Job summaries against their recount

The state store keeps a job's summary up to date allocation by allocation
(`updateSummaryWithAlloc`), and `ReconcileJobSummaries` recounts it from the allocations table.
The two agree as long as no client update takes an allocation out of the failed or complete
status: `updateSummaryWithAlloc` never takes an allocation out of those two buckets.

`summary_count_eq_reconcile`: along every run of allocation writes from a job registered with a
fresh summary, made of `UpsertAllocs` of new pending allocations and of client updates that leave
failed and complete allocations in their status, the summary's counter of every task group and
client status is the recount's. The invariant is `SummaryAgrees`; `SummaryAgrees.upsertAlloc` and
`SummaryAgrees.nestedUpdateAllocFromClient` are one write each, and `count_reconcileJobSummary`
reads the recount as a count over the table.

`summary_counts_failed_after_running`: a client update that reports a failed allocation running
leaves it counted as failed, where the recount no longer does.
-/

set_option autoImplicit false
set_option relaxedAutoImplicit false

namespace Wander.State

open Wander.Lib Wander.Structs GoMap

namespace StateStore

/-- The task group and client status in which `ReconcileJobSummaries` counts an allocation for
`job`: none when the allocation is of another job or of an earlier registration of the job. -/
def countKey (job : Job) (a : Allocation) : Option (String × AllocClientStatus) :=
  if a.namespace = job.namespace ∧ a.jobID = job.id ∧ a.jobCreateIndex = job.createIndex then
    some (a.taskGroup, a.clientStatus)
  else none

/-- The allocations of the table counted for `job` in the task group `tg` with the client status
`st`. -/
def summaryCount (s : StateStore) (job : Job) (tg : String) (st : AllocClientStatus) : ℕ :=
  (values s.allocs).countP fun a ↦ decide (countKey job a = some (tg, st))

/-- One task group of the loop of `updateSummaryWithJob`: a task group the summary lacks gets zero
counters, and the summary is marked changed. -/
def addTaskGroupSummary (acc : JobSummary × Bool) (tg : TaskGroup) : JobSummary × Bool :=
  if tg.name ∈ acc.1.summary then acc
  else ({ acc.1 with summary := acc.1.summary.insert tg.name {} }, true)

/-- `StateStore.updateSummaryWithJob`, the summary write of `upsertJobImpl`: the job's summary,
created with the index as its create index when the job has none, gets zero counters for each of
the job's task groups it lacks, and is written with the index as its modify index when it
changed. -/
def updateSummaryWithJob (index : ℕ) (job : Job) (s : StateStore) : StateStore :=
  let start : JobSummary × Bool :=
    match s.jobSummaries.lookup job.namespacedID with
    | some summary => (summary, false)
    | none =>
      ({ jobID := job.id, «namespace» := job.namespace, summary := ∅, createIndex := index,
         modifyIndex := 0 }, true)
  let (summary, hasSummaryChanged) := job.taskGroups.foldl addTaskGroupSummary start
  if hasSummaryChanged then
    { s with
      jobSummaries := s.jobSummaries.insert job.namespacedID { summary with modifyIndex := index } }
  else s

/-! ### The recount -/

theorem count_recountAlloc (job : Job) (m : GoMap String TaskGroupSummary) (a : Allocation)
    (tg : String) (st : AllocClientStatus) :
    (GoMap.get (recountAlloc job m a) tg {}).count st = (GoMap.get m tg {}).count st +
      if a.jobCreateIndex = job.createIndex ∧ a.taskGroup = tg ∧ a.clientStatus = st then 1 else 0 := by
  unfold recountAlloc
  by_cases hidx : a.jobCreateIndex = job.createIndex
  · by_cases htg : a.taskGroup = tg
    · subst htg
      simp [hidx]
    · simp [hidx, htg, GoMap.get_insert_ne _ (Ne.symm htg)]
  · simp [hidx]

/-- The loop of the recount adds to every bucket the allocations it counts there. -/
theorem count_foldl_recountAlloc (job : Job) (tg : String) (st : AllocClientStatus)
    (l : List Allocation) (m : GoMap String TaskGroupSummary) :
    (GoMap.get (l.foldl (recountAlloc job) m) tg {}).count st = (GoMap.get m tg {}).count st +
      l.countP fun a ↦ a.jobCreateIndex == job.createIndex && a.taskGroup == tg &&
        a.clientStatus == st := by
  induction l generalizing m with
  | nil => simp
  | cons a l ih =>
    rw [List.foldl_cons, ih, count_recountAlloc, List.countP_cons]
    simp only [Bool.and_eq_true, beq_iff_eq, and_assoc]
    omega

/-- The zero summaries the recount starts from. -/
theorem get_foldl_zero (groups : List TaskGroup) (m : GoMap String TaskGroupSummary)
    (hm : ∀ tg, GoMap.get m tg {} = {}) (tg : String) :
    GoMap.get (groups.foldl (fun m g ↦ m.insert g.name {}) m) tg {} = {} := by
  induction groups generalizing m with
  | nil => exact hm tg
  | cons g groups ih =>
    refine ih _ fun tg' ↦ ?_
    by_cases h : tg' = g.name
    · subst h
      exact GoMap.get_insert _ _ _ _
    · rw [GoMap.get_insert_ne _ h]
      exact hm tg'

/-- The recount of a bucket is the count of the table. -/
theorem count_reconcileJobSummary (s : StateStore) (job : Job) (tg : String)
    (st : AllocClientStatus) :
    (GoMap.get (s.reconcileJobSummary job) tg {}).count st = s.summaryCount job tg st := by
  unfold reconcileJobSummary allocsByJob summaryCount
  dsimp only
  rw [count_foldl_recountAlloc, get_foldl_zero _ _ (fun _ ↦ GoMap.get_empty _ _), List.countP_filter]
  rw [TaskGroupSummary.count_zero, zero_add]
  congr 1
  funext a
  -- both sides test the same four fields
  unfold countKey
  by_cases hns : a.namespace = job.namespace <;> by_cases hid : a.jobID = job.id <;>
    by_cases hidx : a.jobCreateIndex = job.createIndex <;> simp [hns, hid, hidx, beq_eq_decide]

/-! ### The table's counts under a write -/

/-- Writing `v` under `k` moves every count by the allocation it replaces and by `v`. -/
theorem summaryCount_write (s : StateStore) (k : String) (v : Allocation) (job : Job) (tg : String)
    (st : AllocClientStatus) :
    summaryCount { s with allocs := s.allocs.insert k v } job tg st +
        (if (s.allocs.lookup k).bind (countKey job) = some (tg, st) then 1 else 0) =
      s.summaryCount job tg st + if countKey job v = some (tg, st) then 1 else 0 := by
  unfold summaryCount
  cases h : s.allocs.lookup k with
  | none =>
    rw [countP_values_insert_of_lookup_eq_none h]
    simp
  | some old =>
    have := countP_values_insert_of_lookup h v fun a ↦ decide (countKey job a = some (tg, st))
    simpa using this

/-- An allocation counted in a bucket makes it non-empty. -/
theorem summaryCount_pos {s : StateStore} {k : String} {a : Allocation} (h : s.allocs.lookup k = some a)
    {job : Job} {tg : String} {st : AllocClientStatus} (hkey : countKey job a = some (tg, st)) :
    0 < s.summaryCount job tg st :=
  List.countP_pos_iff.mpr ⟨a, mem_values_of_lookup h, by simpa using hkey⟩

theorem countKey_eq_some {job : Job} {a : Allocation} {g : String} {st : AllocClientStatus}
    (h : countKey job a = some (g, st)) :
    a.namespace = job.namespace ∧ a.jobID = job.id ∧ a.jobCreateIndex = job.createIndex ∧
      a.taskGroup = g ∧ a.clientStatus = st := by
  unfold countKey at h
  split at h
  · rename_i hjob
    cases h
    exact ⟨hjob.1, hjob.2.1, hjob.2.2, rfl, rfl⟩
  · cases h

theorem countKey_eq_none {job : Job} {a : Allocation} :
    countKey job a = none ↔
      ¬(a.namespace = job.namespace ∧ a.jobID = job.id ∧ a.jobCreateIndex = job.createIndex) := by
  unfold countKey
  split <;> simp_all

/-- Two allocations of one registration of a job and one task group. -/
def sameGroup (a b : Allocation) : Prop :=
  a.namespace = b.namespace ∧ a.jobID = b.jobID ∧ a.jobCreateIndex = b.jobCreateIndex ∧
    a.taskGroup = b.taskGroup

/-- Allocations that agree on the counted fields are counted alike. -/
theorem countKey_congr (job : Job) {a b : Allocation} (hns : a.namespace = b.namespace)
    (hid : a.jobID = b.jobID) (hidx : a.jobCreateIndex = b.jobCreateIndex)
    (htg : a.taskGroup = b.taskGroup) (hst : a.clientStatus = b.clientStatus) :
    countKey job a = countKey job b := by
  simp only [countKey, hns, hid, hidx, htg, hst]

/-! ### The invariant -/

/-- The summary `sm` of `job` agrees with the table of `s`: for every task group it holds, each
counter is the number of the job's allocations in the group with that client status, and it holds
the task group of every allocation of the job. -/
structure SummaryMatches (s : StateStore) (job : Job) (sm : JobSummary) : Prop where
  createIndex_eq : sm.createIndex = job.createIndex
  count_eq : ∀ tg t, sm.summary.lookup tg = some t → ∀ st, t.count st = s.summaryCount job tg st
  mem_summary : ∀ a ∈ values s.allocs, ∀ tg st, countKey job a = some (tg, st) → tg ∈ sm.summary

/-- Writing `v` under `k` keeps a summary in agreement once it becomes `sm'`, when `sm'` holds the
task groups of `sm` and that of `v`, and each of its buckets moves from the one of `sm` as the
count does. -/
theorem SummaryMatches.write {s : StateStore} {job : Job} {sm sm' : JobSummary}
    (hm : s.SummaryMatches job sm) {k : String} {v : Allocation}
    (hindex : sm'.createIndex = sm.createIndex) (hgroups : ∀ tg, tg ∈ sm.summary → tg ∈ sm'.summary)
    (hv : ∀ tg st, countKey job v = some (tg, st) → tg ∈ sm'.summary)
    (hcount : ∀ tg t', sm'.summary.lookup tg = some t' → ∃ t, sm.summary.lookup tg = some t ∧
      ∀ st, t'.count st + (if (s.allocs.lookup k).bind (countKey job) = some (tg, st) then 1 else 0) =
        t.count st + if countKey job v = some (tg, st) then 1 else 0) :
    SummaryMatches { s with allocs := s.allocs.insert k v } job sm' where
  createIndex_eq := hindex.trans hm.createIndex_eq
  count_eq tg t' ht' st := by
    obtain ⟨t, ht, hmove⟩ := hcount tg t' ht'
    have hwrite := summaryCount_write s k v job tg st
    have hold := hm.count_eq tg t ht st
    have := hmove st
    omega
  mem_summary a ha tg st hkey := by
    rcases mem_values_insert ha with rfl | ha
    · exact hv tg st hkey
    · exact hgroups tg (hm.mem_summary a ha tg st hkey)

/-- A write that the summary does not see: `v` is counted as the allocation it replaces. -/
theorem SummaryMatches.write_same {s : StateStore} {job : Job} {sm : JobSummary}
    (hm : s.SummaryMatches job sm) {k : String} {v : Allocation}
    (hsame : (s.allocs.lookup k).bind (countKey job) = countKey job v) :
    SummaryMatches { s with allocs := s.allocs.insert k v } job sm := by
  refine hm.write rfl (fun _ h ↦ h) (fun tg st hkey ↦ ?_) fun tg t ht ↦ ⟨t, ht, fun st ↦ by rw [hsame]⟩
  -- `v` is counted where the allocation it replaces was
  rw [← hsame] at hkey
  obtain ⟨old, hold, hkey⟩ := Option.bind_eq_some_iff.mp hkey
  exact hm.mem_summary old (mem_values_of_lookup hold) tg st hkey

theorem SummaryMatches.of_allocs {s s' : StateStore} (hall : s'.allocs = s.allocs) {job : Job}
    {sm : JobSummary} (hm : s.SummaryMatches job sm) : s'.SummaryMatches job sm where
  createIndex_eq := hm.createIndex_eq
  count_eq tg t ht st := by
    rw [hm.count_eq tg t ht st]
    unfold summaryCount
    rw [hall]
  mem_summary a ha := hm.mem_summary a (hall ▸ ha)

/-- A write counted in the task group `g`, replacing an allocation counted in `g` if counted at
all: the bucket of `g` becomes `t'`, which moves from `t` as the count does. -/
theorem SummaryMatches.write_group {s : StateStore} {job : Job} {sm : JobSummary}
    (hm : s.SummaryMatches job sm) {k : String} {v : Allocation} {g : String}
    {n : AllocClientStatus} {t t' : TaskGroupSummary} (hv : countKey job v = some (g, n))
    (hold : ∀ p, (s.allocs.lookup k).bind (countKey job) = some p → p.1 = g)
    (ht : sm.summary.lookup g = some t)
    (hmove : ∀ st, t'.count st + (if (s.allocs.lookup k).bind (countKey job) = some (g, st) then 1
      else 0) = t.count st + if n = st then 1 else 0) (index : ℕ) :
    SummaryMatches { s with allocs := s.allocs.insert k v } job
      { sm with
        summary := sm.summary.insert g t'
        modifyIndex := index } := by
  refine hm.write rfl (fun tg h ↦ (AList.mem_insert _).mpr (Or.inr h)) (fun tg st hkey ↦ ?_)
    fun tg t'' h'' ↦ ?_
  · rw [hv] at hkey
    cases hkey
    exact (AList.mem_insert _).mpr (Or.inl rfl)
  · by_cases htg : tg = g
    · -- the bucket that moved
      subst htg
      rw [AList.lookup_insert] at h''
      cases h''
      exact ⟨t, ht, fun st ↦ by simpa [hv] using hmove st⟩
    · -- every other bucket, where neither allocation is counted
      rw [AList.lookup_insert_ne htg] at h''
      refine ⟨t'', h'', fun st ↦ ?_⟩
      have hnot : (s.allocs.lookup k).bind (countKey job) ≠ some (tg, st) :=
        fun h ↦ htg (hold _ h)
      simp [hv, hnot, Ne.symm htg]

/-- Counting an allocation in its job's summary and storing it under its ID keeps the summary in
agreement, when the allocation is new and pending, or replaces one of its job and task group that
is failed or complete only if it keeps that status. -/
theorem SummaryMatches.store {s s' : StateStore} {job : Job} {sm : JobSummary}
    (hsm : s.jobSummaries.lookup job.namespacedID = some sm) (hm : s.SummaryMatches job sm)
    {index : ℕ} {alloc : Allocation}
    (hwrite : s.updateSummaryWithAlloc index alloc (s.allocs.lookup alloc.id) = .ok s')
    (hnew : s.allocs.lookup alloc.id = none → alloc.clientStatus = .pending)
    (hold : ∀ exist, s.allocs.lookup alloc.id = some exist → sameGroup exist alloc ∧
      (exist.clientStatus = .failed ∨ exist.clientStatus = .complete →
        alloc.clientStatus = exist.clientStatus)) :
    ∃ sm', s'.jobSummaries.lookup job.namespacedID = some sm' ∧
      SummaryMatches { s' with allocs := s'.allocs.insert alloc.id alloc } job sm' := by
  obtain ⟨hs', hne⟩ := updateSummaryWithAlloc_frame hwrite
  have hall : s'.allocs = s.allocs := by rw [hs']
  have hm' : s'.SummaryMatches job sm := hm.of_allocs hall
  have hlookup : s'.allocs.lookup alloc.id = s.allocs.lookup alloc.id := by rw [hall]
  cases hkey : countKey job alloc with
  | none =>
    -- an allocation of another job or registration: the job's summary is not written
    refine ⟨sm, ?_, hm'.write_same ?_⟩
    · by_cases hjk : (⟨alloc.jobID, alloc.namespace⟩ : NamespacedID) = job.namespacedID
      · simp only [Job.namespacedID, NamespacedID.mk.injEq] at hjk
        have hidx : sm.createIndex ≠ alloc.jobCreateIndex := by
          rw [hm.createIndex_eq]
          exact fun h ↦ countKey_eq_none.mp hkey ⟨hjk.2, hjk.1, h.symm⟩
        have hsm' : s.jobSummaries.lookup ⟨alloc.jobID, alloc.namespace⟩ = some sm := by
          rw [hjk.1, hjk.2]
          exact hsm
        rw [updateSummaryWithAlloc_of_createIndex_ne hsm' hidx] at hwrite
        cases hwrite
        exact hsm
      · rw [hne _ (Ne.symm hjk)]
        exact hsm
    · rw [hlookup, hkey]
      cases hex : s.allocs.lookup alloc.id with
      | none => rfl
      | some exist =>
        obtain ⟨⟨hns, hid, hidx, -⟩, -⟩ := hold exist hex
        show countKey job exist = none
        rw [countKey_eq_none, hns, hid, hidx]
        exact countKey_eq_none.mp hkey
  | some p =>
    obtain ⟨g, n⟩ := p
    obtain ⟨hns, hid, hidx, hg, hn⟩ := countKey_eq_some hkey
    subst hg hn
    have hjk : (⟨alloc.jobID, alloc.namespace⟩ : NamespacedID) = job.namespacedID := by
      simp [Job.namespacedID, hns, hid]
    obtain ⟨t, ht, hs'sm⟩ :=
      updateSummaryWithAlloc_lookup hwrite (hjk ▸ hsm) (hm.createIndex_eq.trans hidx.symm)
    rw [hjk] at hs'sm
    cases hex : s.allocs.lookup alloc.id with
    | none =>
      -- a new pending allocation: one more starting
      have hpending := hnew hex
      simp only [hex, summaryUpdate, hpending, ↓reduceIte] at hs'sm
      refine ⟨_, hs'sm, hm'.write_group hkey (by simp [hlookup, hex]) ht (fun st ↦ ?_) index⟩
      simp [hlookup, hex, hpending]
    | some exist =>
      obtain ⟨⟨hns', hid', hidx', htg'⟩, hfinal⟩ := hold exist hex
      have hold' : countKey job exist = some (alloc.taskGroup, exist.clientStatus) := by
        unfold countKey
        rw [if_pos ⟨hns'.trans hns, hid'.trans hid, hidx'.trans hidx⟩, htg']
      have holdKey : (s'.allocs.lookup alloc.id).bind (countKey job) =
          some (alloc.taskGroup, exist.clientStatus) := by
        rw [hlookup, hex]
        exact hold'
      by_cases hst : exist.clientStatus = alloc.clientStatus
      · -- the same status: nothing to count
        simp only [hex, summaryUpdate, hst, ne_eq, not_true_eq_false, ↓reduceIte] at hs'sm
        refine ⟨sm, hs'sm, hm'.write_same ?_⟩
        rw [holdKey, hkey, hst]
      · -- a move from the old status's bucket to the new one's
        simp only [hex, summaryUpdate, ne_eq, hst, not_false_eq_true, ↓reduceIte] at hs'sm
        have hdec : TaskGroupSummary.decrements exist.clientStatus = true := by
          -- a failed or complete allocation keeps its status, and this one changed
          cases hc : exist.clientStatus with
          | failed => exact absurd (hfinal (Or.inl hc)).symm hst
          | complete => exact absurd (hfinal (Or.inr hc)).symm hst
          | pending | running | lost | unknown => rfl
        have hpos : 0 < t.count exist.clientStatus := by
          rw [hm.count_eq _ t ht]
          exact summaryCount_pos hex hold'
        refine ⟨_, hs'sm, hm'.write_group hkey (by simp [holdKey]) ht (fun st ↦ ?_) index⟩
        rw [holdKey]
        by_cases ho : exist.clientStatus = st
        · subst ho
          simp [hdec, Ne.symm hst]
          omega
        · simp [ho]

/-! ### The registration -/

theorem mem_addTaskGroupSummary {acc : JobSummary × Bool} {tg : TaskGroup} {g : String} :
    g ∈ (addTaskGroupSummary acc tg).1.summary ↔ g = tg.name ∨ g ∈ acc.1.summary := by
  unfold addTaskGroupSummary
  split
  · rename_i h
    constructor
    · exact Or.inr
    · rintro (rfl | hg)
      · exact h
      · exact hg
  · exact AList.mem_insert _

/-- The loop of `updateSummaryWithJob` keeps the create index and the mark of a change, holds every
task group it started with and every one of the job's, and adds only zero counters. -/
theorem foldl_addTaskGroupSummary (groups : List TaskGroup) (acc : JobSummary × Bool) :
    let r := groups.foldl addTaskGroupSummary acc
    r.1.createIndex = acc.1.createIndex ∧ (acc.2 = true → r.2 = true) ∧
      (∀ g, g ∈ acc.1.summary ∨ (∃ tg ∈ groups, tg.name = g) → g ∈ r.1.summary) ∧
      ∀ g t, r.1.summary.lookup g = some t → acc.1.summary.lookup g = some t ∨ t = {} := by
  induction groups generalizing acc with
  | nil =>
    refine ⟨rfl, id, fun g hg ↦ ?_, fun g t h ↦ Or.inl h⟩
    simpa using hg
  | cons tg rest ih =>
    obtain ⟨hidx, hch, hmem, hzero⟩ := ih (addTaskGroupSummary acc tg)
    -- the turn of `tg`: it leaves `acc` or adds `tg` with zero counters
    have hstep : (addTaskGroupSummary acc tg).1.createIndex = acc.1.createIndex ∧
        (acc.2 = true → (addTaskGroupSummary acc tg).2 = true) ∧
        ∀ g t, (addTaskGroupSummary acc tg).1.summary.lookup g = some t →
          acc.1.summary.lookup g = some t ∨ t = {} := by
      unfold addTaskGroupSummary
      split
      · exact ⟨rfl, id, fun g t h ↦ Or.inl h⟩
      · refine ⟨rfl, fun _ ↦ rfl, fun g t h ↦ ?_⟩
        by_cases hg : g = tg.name
        · subst hg
          rw [AList.lookup_insert] at h
          exact Or.inr (Option.some.inj h).symm
        · rw [AList.lookup_insert_ne hg] at h
          exact Or.inl h
    refine ⟨hidx.trans hstep.1, fun h ↦ hch (hstep.2.1 h), fun g hg ↦ hmem g ?_, fun g t h ↦ ?_⟩
    · rcases hg with hg | ⟨tg', htg', rfl⟩
      · exact Or.inl (mem_addTaskGroupSummary.mpr (Or.inr hg))
      · rcases List.mem_cons.mp htg' with rfl | htg'
        · exact Or.inl (mem_addTaskGroupSummary.mpr (Or.inl rfl))
        · exact Or.inr ⟨tg', htg', rfl⟩
    · rcases hzero g t h with h | h
      · exact hstep.2.2 g t h
      · exact Or.inr h

/-- No allocation of the table counted for `job` leaves every count at zero. -/
theorem summaryCount_eq_zero {s : StateStore} {job : Job}
    (hnone : ∀ a ∈ values s.allocs, countKey job a = none) (tg : String) (st : AllocClientStatus) :
    s.summaryCount job tg st = 0 :=
  List.countP_eq_zero.mpr fun a ha ↦ by simp [hnone a ha]

/-! ### Runs -/

/-- What every state of a run keeps: the table holds each allocation under its ID, and the job has
a summary that agrees with the table. -/
structure SummaryAgrees (job : Job) (s : StateStore) : Prop where
  keys : ∀ k a, s.allocs.lookup k = some a → a.id = k
  summary : ∃ sm, s.jobSummaries.lookup job.namespacedID = some sm ∧ s.SummaryMatches job sm ∧
    ∀ tg ∈ job.taskGroups, tg.name ∈ sm.summary

theorem keys_insert {m : GoMap String Allocation} (hkeys : ∀ k a, m.lookup k = some a → a.id = k)
    (v : Allocation) : ∀ k a, (m.insert v.id v).lookup k = some a → a.id = k := by
  intro k a h
  by_cases hk : k = v.id
  · subst hk
    rw [AList.lookup_insert] at h
    cases h
    rfl
  · rw [AList.lookup_insert_ne hk] at h
    exact hkeys k a h

theorem SummaryAgrees.of_frame {job : Job} {s s' : StateStore} (h : SummaryAgrees job s)
    (hall : s'.allocs = s.allocs) (hsum : s'.jobSummaries = s.jobSummaries) : SummaryAgrees job s' where
  keys := by
    rw [hall]
    exact h.keys
  summary := by
    obtain ⟨sm, hsm, hm, hgroups⟩ := h.summary
    exact ⟨sm, by rw [hsum]; exact hsm, hm.of_allocs hall, hgroups⟩

/-- Linking the previous allocation changes no field the summary counts. -/
theorem SummaryAgrees.linkPrevious {job : Job} {s : StateStore} (h : SummaryAgrees job s)
    (index : ℕ) (alloc : Allocation) : SummaryAgrees job (StateStore.linkPrevious index alloc s) := by
  unfold StateStore.linkPrevious
  split
  · split
    · rename_i prev hprev
      obtain ⟨sm, hsm, hm, hgroups⟩ := h.summary
      have hid := h.keys _ prev hprev
      refine ⟨keys_insert h.keys { prev with nextAllocation := alloc.id, modifyIndex := index },
        sm, hsm, hm.write_same ?_, hgroups⟩
      rw [hid, hprev]
      rfl
    · exact h
  · exact h

/-- Counting an allocation in its job's summary and storing it under its ID, under the conditions of
`SummaryMatches.store`. -/
theorem SummaryAgrees.store {job : Job} {s s2 : StateStore} (h : SummaryAgrees job s) {index : ℕ}
    {v : Allocation} (hwrite : s.updateSummaryWithAlloc index v (s.allocs.lookup v.id) = .ok s2)
    (hnew : s.allocs.lookup v.id = none → v.clientStatus = .pending)
    (hold : ∀ exist, s.allocs.lookup v.id = some exist → sameGroup exist v ∧
      (exist.clientStatus = .failed ∨ exist.clientStatus = .complete →
        v.clientStatus = exist.clientStatus)) :
    SummaryAgrees job { s2 with allocs := s2.allocs.insert v.id v } := by
  obtain ⟨sm, hsm, hm, hgroups⟩ := h.summary
  obtain ⟨sm', hsm', hm'⟩ := hm.store hsm hwrite hnew hold
  -- the write keeps the task groups the summary held
  obtain ⟨sm'', hsm'', hkept⟩ := updateSummaryWithAlloc_mem hwrite hsm
  rw [hsm'] at hsm''
  cases hsm''
  have hall : s2.allocs = s.allocs := by rw [(updateSummaryWithAlloc_frame hwrite).1]
  refine ⟨keys_insert ?_ v, sm', hsm', hm', fun tg htg ↦ hkept _ (hgroups tg htg)⟩
  rw [hall]
  exact h.keys

/-- `UpsertAllocs` of one new pending allocation keeps the summary in agreement. -/
theorem SummaryAgrees.upsertAlloc {job : Job} {s s' : StateStore} {index : ℕ} {alloc : Allocation}
    (h : SummaryAgrees job s) (hnew : s.allocs.lookup alloc.id = none)
    (hpending : alloc.clientStatus = .pending) (hup : s.upsertAlloc index alloc = .ok s') :
    SummaryAgrees job s' := by
  obtain ⟨s2, hsum, rfl⟩ := upsertAlloc_ok hup
  obtain ⟨hid, -, -, -, -, hst, -⟩ := updateDeploymentWithAlloc_snd index
    (upsertedAlloc index (s.allocs.lookup alloc.id) alloc) (s.allocs.lookup alloc.id) s
  have hframe := (updateDeploymentWithAlloc_frame index
    (upsertedAlloc index (s.allocs.lookup alloc.id) alloc) (s.allocs.lookup alloc.id) s).1
  simp only [hnew, upsertedAlloc] at hid hst hframe hsum ⊢
  generalize s.updateDeploymentWithAlloc index _ none = r at hid hst hframe hsum ⊢
  have h1 : SummaryAgrees job r.1 := h.of_frame (by rw [hframe]) (by rw [hframe])
  have hlookup : r.1.allocs.lookup r.2.id = none := by
    rw [hframe, hid]
    exact hnew
  refine (h1.store (by rwa [hlookup]) (fun _ ↦ by rw [hst]; exact hpending)
    (fun exist hex ↦ ?_)).linkPrevious index r.2
  rw [hlookup] at hex
  cases hex

/-- A client update that leaves a failed or complete allocation in its status keeps the summary in
agreement. -/
theorem SummaryAgrees.nestedUpdateAllocFromClient {job : Job} {s s' : StateStore} {index : ℕ}
    {alloc : Allocation} (h : SummaryAgrees job s)
    (hfinal : ∀ exist, s.allocs.lookup alloc.id = some exist →
      exist.clientStatus = .failed ∨ exist.clientStatus = .complete →
        alloc.clientStatus = exist.clientStatus)
    (hup : s.nestedUpdateAllocFromClient index alloc = .ok s') : SummaryAgrees job s' := by
  rcases nestedUpdateAllocFromClient_ok hup with ⟨-, rfl⟩ | ⟨exist, hex, s2, hsum, rfl⟩
  · exact h
  · have hexid := h.keys _ _ hex
    obtain ⟨hid, hns, hjid, hidx, htg, hst, -⟩ :=
      updateDeploymentWithAlloc_snd index (clientUpdatedAlloc index exist alloc) (some exist) s
    have hframe := (updateDeploymentWithAlloc_frame index (clientUpdatedAlloc index exist alloc)
      (some exist) s).1
    generalize s.updateDeploymentWithAlloc index (clientUpdatedAlloc index exist alloc) (some exist) = r
      at hid hns hjid hidx htg hst hframe hsum ⊢
    have h1 : SummaryAgrees job r.1 := h.of_frame (by rw [hframe]) (by rw [hframe])
    have hlookup : r.1.allocs.lookup r.2.id = some exist := by
      rw [hframe, hid]
      show s.allocs.lookup exist.id = some exist
      rw [hexid]
      exact hex
    refine h1.store (by rwa [hlookup]) (fun hnone ↦ ?_) (fun e he ↦ ?_)
    · rw [hlookup] at hnone
      cases hnone
    · -- the stored allocation is the one updated: same job and group, the client's status
      rw [hlookup] at he
      cases he
      refine ⟨⟨hns.symm, hjid.symm, hidx.symm, htg.symm⟩, fun hfc ↦ ?_⟩
      rw [hst]
      exact hfinal _ hex hfc

/-- One allocation write of the runs of `summary_count_eq_reconcile`: an allocation of
`UpsertAllocs` that is new and pending, or one of `UpdateAllocsFromClient` that leaves a failed or
complete allocation in its status. A successful call is a chain of such writes
(`upsertAllocsImpl_writes`, `updateAllocsFromClient_writes`). -/
inductive SummaryWrite : StateStore → StateStore → Prop
  | upsert {s s' : StateStore} {index : ℕ} {alloc : Allocation}
      (hnew : s.allocs.lookup alloc.id = none) (hpending : alloc.clientStatus = .pending)
      (h : s.upsertAlloc index alloc = .ok s') : SummaryWrite s s'
  | client {s s' : StateStore} {index : ℕ} {alloc : Allocation}
      (hfinal : ∀ exist, s.allocs.lookup alloc.id = some exist →
        exist.clientStatus = .failed ∨ exist.clientStatus = .complete →
          alloc.clientStatus = exist.clientStatus)
      (h : s.nestedUpdateAllocFromClient index alloc = .ok s') : SummaryWrite s s'

theorem SummaryAgrees.run {job : Job} {s s' : StateStore} (h : SummaryAgrees job s)
    (hrun : Relation.ReflTransGen SummaryWrite s s') : SummaryAgrees job s' := by
  induction hrun with
  | refl => exact h
  | tail _ hstep ih =>
    cases hstep with
    | upsert hnew hpending hup => exact ih.upsertAlloc hnew hpending hup
    | client hfinal hup => exact ih.nestedUpdateAllocFromClient hfinal hup

/-- The registration of a job with no summary and no allocation of its registration in the table
starts a run in agreement: zero counters for every task group, and nothing to count. -/
theorem SummaryAgrees.updateSummaryWithJob {s : StateStore} {job : Job} {index : ℕ}
    (hkeys : ∀ k a, s.allocs.lookup k = some a → a.id = k)
    (hfresh : s.jobSummaries.lookup job.namespacedID = none) (hindex : job.createIndex = index)
    (hnone : ∀ a ∈ values s.allocs, countKey job a = none) :
    SummaryAgrees job (s.updateSummaryWithJob index job) := by
  unfold StateStore.updateSummaryWithJob
  simp only [hfresh]
  obtain ⟨hidx, hch, hmem, hzero⟩ := foldl_addTaskGroupSummary job.taskGroups
    ({ jobID := job.id, «namespace» := job.namespace, summary := ∅, createIndex := index,
       modifyIndex := 0 }, true)
  generalize job.taskGroups.foldl addTaskGroupSummary _ = r at hidx hch hmem hzero
  obtain ⟨sm, changed⟩ := r
  obtain rfl : changed = true := hch rfl
  refine ⟨hkeys, { sm with modifyIndex := index }, AList.lookup_insert _, ⟨?_, ?_, ?_⟩,
    fun tg htg ↦ hmem tg.name (Or.inr ⟨tg, htg, rfl⟩)⟩
  · exact hidx.trans hindex.symm
  · -- every counter is zero, and so is every count
    intro tg t ht st
    rcases hzero tg t ht with h | rfl
    · cases h
    · rw [TaskGroupSummary.count_zero]
      exact (summaryCount_eq_zero hnone tg st).symm
  · intro a ha tg st hkey
    rw [hnone a ha] at hkey
    cases hkey

/-- Along every run of allocation writes from the registration of a job with a fresh summary, made
of `UpsertAllocs` of new pending allocations and of client updates that leave failed and complete
allocations in their status, the job's summary holds each of its task groups, and each counter it
holds is the one `ReconcileJobSummaries` recounts. -/
theorem summary_count_eq_reconcile {s s' : StateStore} {job : Job} {index : ℕ}
    (hkeys : ∀ k a, s.allocs.lookup k = some a → a.id = k)
    (hfresh : s.jobSummaries.lookup job.namespacedID = none) (hindex : job.createIndex = index)
    (hnone : ∀ a ∈ values s.allocs, a.namespace = job.namespace → a.jobID = job.id →
      a.jobCreateIndex ≠ job.createIndex)
    (hrun : Relation.ReflTransGen SummaryWrite (s.updateSummaryWithJob index job) s') :
    ∃ sm, s'.jobSummaries.lookup job.namespacedID = some sm ∧
      (∀ tg ∈ job.taskGroups, tg.name ∈ sm.summary) ∧
      ∀ tg t, sm.summary.lookup tg = some t → ∀ st,
        t.count st = (GoMap.get (s'.reconcileJobSummary job) tg {}).count st := by
  have hstart := SummaryAgrees.updateSummaryWithJob hkeys hfresh hindex fun a ha ↦
    countKey_eq_none.mpr fun ⟨hns, hid, hidx⟩ ↦ hnone a ha hns hid hidx
  obtain ⟨sm, hsm, hm, hgroups⟩ := (hstart.run hrun).summary
  refine ⟨sm, hsm, hgroups, fun tg t ht st ↦ ?_⟩
  rw [count_reconcileJobSummary]
  exact hm.count_eq tg t ht st

/-! ### A registration and its allocation -/

/-- A job `web` with one task group, registered at index 1. -/
def summaryJob : Job :=
  { id := "web"
    «namespace» := defaultNamespace
    taskGroups := [{ name := "web", count := 1 }]
    createIndex := 1 }

/-- The store once `web` is stored, before its summary is written. -/
def summaryStore : StateStore :=
  ⟨[defaultNamespace], [nodePoolDefault],
    (∅ : GoMap NamespacedID Job).insert summaryJob.namespacedID summaryJob, ∅, ∅, ∅, ∅, ∅⟩

/-- The allocation the scheduler places for `web`. -/
def summaryAlloc : Allocation :=
  { id := "a0"
    «namespace» := defaultNamespace
    jobID := "web"
    jobCreateIndex := 1
    taskGroup := "web" }

theorem summary_count_eq_reconcile_placed :
    ∃ s', (summaryStore.updateSummaryWithJob 1 summaryJob).upsertAlloc 2 summaryAlloc = .ok s' ∧
      ∃ sm, s'.jobSummaries.lookup summaryJob.namespacedID = some sm ∧
        (∀ tg ∈ summaryJob.taskGroups, tg.name ∈ sm.summary) ∧
        ∀ tg t, sm.summary.lookup tg = some t → ∀ st,
          t.count st = (GoMap.get (s'.reconcileJobSummary summaryJob) tg {}).count st :=
  ⟨_, rfl, @summary_count_eq_reconcile summaryStore _ summaryJob 1 (fun _ _ h ↦ by cases h) rfl rfl
    (fun _ ha ↦ by cases ha) (.single (@SummaryWrite.upsert _ _ 2 summaryAlloc rfl rfl rfl))⟩

/-- A client update that reports a failed allocation running: `updateSummaryWithAlloc` counts it
as running without taking it out of the failed bucket, where the recount counts it only as
running. -/
theorem summary_counts_failed_after_running :
    ∃ s1 s2 s3,
      (summaryStore.updateSummaryWithJob 1 summaryJob).upsertAllocsImpl 2 [summaryAlloc] = .ok s1 ∧
      s1.updateAllocsFromClient 3 [{ summaryAlloc with clientStatus := .failed }] = .ok s2 ∧
      s2.updateAllocsFromClient 4 [{ summaryAlloc with clientStatus := .running }] = .ok s3 ∧
      (s3.jobSummaries.lookup summaryJob.namespacedID).map
        (fun sm ↦ (GoMap.get sm.summary "web" {}).failed) = some 1 ∧
      (GoMap.get (s3.reconcileJobSummary summaryJob) "web" {}).failed = 0 :=
  ⟨_, _, _, rfl, rfl, rfl, rfl, rfl⟩

end StateStore

end Wander.State
