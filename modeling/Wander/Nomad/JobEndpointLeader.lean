import Wander.Nomad.JobEndpoint
import Mathlib.Logic.Relation

/-!
# Registrations and scalings on the leader, interleaved with raft

The leader serves `Job.Register` and `Job.Scale` RPCs concurrently. A handler reads a snapshot of
the state store, checks its request against it and calls `raftApply`; the finite-state machine
applies the log's entries one at a time, each at the next raft index. Between its snapshot and
the apply of its entry a handler is in flight: it holds the entry, the job its snapshot held
(`existingJob` in the source) and the index of that snapshot.

A step of the leader is a handler reading and checking, the apply of one in-flight entry, or the
apply of another raft entry (an evaluation, an allocation update, a deregistration, a stability
update). Such an entry may purge a job, write a job keeping its `JobModifyIndex` (`setJobStatus`,
`UpdateJobStability`), or upsert a job at its own index (`JobWrite`). The log orders entries by
their `raftApply` calls, which race, so the apply step may take any in-flight entry.

`Leader.Wf` is the invariant: stored jobs carry the `JobModifyIndex` of the upsert that stored them,
and a job stored now with a `JobModifyIndex` no later than an in-flight entry's snapshot has the
`JobModifyIndex` of the job the entry read. From it, `enforceIndex_holds_iff_unwritten` says
exactly when an entry's check-and-set holds when it is applied: when it held against the snapshot
and the job was neither upserted nor purged since. `Job.Register` checks its entry against the
snapshot; `Job.Scale` does not, and enforces the job's `ModifyIndex`, which a status write after
the job's last upsert has moved past its `JobModifyIndex`.
-/

set_option autoImplicit false
set_option relaxedAutoImplicit false

namespace Wander.Nomad

open Wander.Lib Wander.Structs Wander.State

/-- A handler between its snapshot and the apply of its entry. -/
structure InFlight where
  req : JobRegisterRequest
  existingJob : Option Job
  snapshotIndex : ℕ

/-- The key the finite-state machine upserts an in-flight entry's job under. -/
def InFlight.key (e : InFlight) : NamespacedID := e.req.job.canonicalize.namespacedID

/-- The leader: its applied state store, the last applied raft index and the handlers in
flight. -/
structure Leader where
  store : StateStore
  index : ℕ
  inFlight : List InFlight

namespace Leader

/-- A leader whose state store is `s` with an empty jobs table. -/
def empty (s : StateStore) : Leader := ⟨{ s with jobs := ∅ }, 0, []⟩

/-- A handler that read the job under `key` in the current snapshot and got `result`: in flight
with its entry when it calls `raftApply`, and gone otherwise (an error, or nothing to commit). -/
def propose (l : Leader) (key : NamespacedID) :
    Except String (Option JobRegisterRequest) → Leader
  | .ok (some req) => { l with inFlight := l.inFlight ++ [⟨req, l.store.jobs.lookup key, l.index⟩] }
  | _ => l

/-- A `Job.Register` RPC served against the current state. -/
def startRegister (l : Leader) (ac : AdmissionControllers) (args : JobRegisterRequest)
    (now : ℤ) : Leader :=
  l.propose args.key (register ac l.store args now)

/-- A `Job.Scale` RPC served against the current state. -/
def startScale (l : Leader) (args : JobScaleRequest) (now : ℤ) : Leader :=
  l.propose args.key (scale l.store args now)

/-- The apply of the `i`th in-flight entry at the next raft index. An upsert that fails leaves
the store as it was; its entry still takes the index. -/
def commit (l : Leader) (i : ℕ) : Leader :=
  match l.inFlight[i]? with
  | some e =>
    { store := match applyUpsertJob (l.index + 1) e.req l.store with
        | .ok s => s
        | .error _ => l.store
      index := l.index + 1
      inFlight := l.inFlight.eraseIdx i }
  | none => l

/-- The apply of a raft entry other than an in-flight one, leaving the store `s`. -/
def applyOther (l : Leader) (s : StateStore) : Leader := { l with store := s, index := l.index + 1 }

end Leader

/-- What the apply at raft index `index` of a raft entry other than an in-flight one leaves under
the key `k` of the jobs table, from what was there: the same, nothing (a purge), the job with a
new status and `ModifyIndex` (`setJobStatus`, `UpdateJobStability`, which keep the version), or a
job upserted at this index (a deregistration that stops it, a revert, a dispatch). -/
inductive JobWrite (index : ℕ) (k : NamespacedID) : Option Job → Option Job → Prop
  | keep (o : Option Job) : JobWrite index k o o
  | purge (j : Job) : JobWrite index k (some j) none
  | keepVersion (j : Job) (status : JobStatus) :
      JobWrite index k (some j) (some { j with status, modifyIndex := index })
  | upsert (o : Option Job) (j : Job) (hj : StoredJob index k j) (hjmi : j.jobModifyIndex = index) :
      JobWrite index k o (some j)

/-- The leader's steps under the server's admission controllers. -/
inductive Step (ac : AdmissionControllers) : Leader → Leader → Prop
  | register (l : Leader) (args : JobRegisterRequest) (now : ℤ) :
      Step ac l (l.startRegister ac args now)
  | scale (l : Leader) (args : JobScaleRequest) (now : ℤ) : Step ac l (l.startScale args now)
  | commit (l : Leader) (i : ℕ) (hi : i < l.inFlight.length) : Step ac l (l.commit i)
  | applyOther (l : Leader) (s : StateStore)
      (hjobs : ∀ k, JobWrite (l.index + 1) k (l.store.jobs.lookup k) (s.jobs.lookup k)) :
      Step ac l (l.applyOther s)

/-! ## The invariant -/

/-- What an in-flight entry knows of the jobs table `jobs` at raft index `index`: its snapshot
is not newer, the job it read was stored by then, a job stored now that was not upserted after
the snapshot has the `JobModifyIndex` of the job it read, and the index it enforces is the one
its check-and-set held against (`Job.Register`) or the read job's `ModifyIndex` (`Job.Scale`). -/
structure InFlight.Fresh (jobs : GoMap NamespacedID Job) (index : ℕ) (e : InFlight) : Prop where
  snapshot_le : e.snapshotIndex ≤ index
  existing : ∀ j, e.existingJob = some j → StoredJob e.snapshotIndex e.key j
  unwritten : ∀ j, jobs.lookup e.key = some j → j.jobModifyIndex ≤ e.snapshotIndex →
    ∃ j₀, e.existingJob = some j₀ ∧ j₀.jobModifyIndex = j.jobModifyIndex
  checked : e.req.enforceIndex = true → IndexMatches e.existingJob e.req.jobModifyIndex ∨
    ∃ j₀, e.existingJob = some j₀ ∧ e.req.jobModifyIndex = j₀.modifyIndex

/-- The leader's invariant. -/
structure Leader.Wf (l : Leader) : Prop where
  stored : l.store.Stored l.index
  inFlight : ∀ e ∈ l.inFlight, e.Fresh l.store.jobs l.index

theorem InFlight.Fresh.mono {jobs : GoMap NamespacedID Job} {index index' : ℕ} {e : InFlight}
    (he : e.Fresh jobs index) (h : index ≤ index') : e.Fresh jobs index' :=
  { he with snapshot_le := he.snapshot_le.trans h }

/-- An entry stays fresh while another upsert is applied: the job it writes is stamped with the
new index, which is past the entry's snapshot. -/
theorem InFlight.Fresh.insert {jobs : GoMap NamespacedID Job} {index : ℕ} {e : InFlight}
    (he : e.Fresh jobs index) (k : NamespacedID) {j' : Job}
    (hj' : j'.jobModifyIndex = index + 1) : e.Fresh (jobs.insert k j') (index + 1) := by
  by_cases hk : e.key = k
  · have hnew : (jobs.insert k j').lookup e.key = some j' := by rw [hk, AList.lookup_insert]
    refine { he.mono (Nat.le_succ index) with unwritten := ?_ }
    intro j hj hle
    rw [hnew, Option.some.injEq] at hj
    subst hj
    have := he.snapshot_le
    omega
  · have hold : (jobs.insert k j').lookup e.key = jobs.lookup e.key := AList.lookup_insert_ne hk
    refine { he.mono (Nat.le_succ index) with unwritten := ?_ }
    rw [hold]
    exact he.unwritten

/-- A job a write leaves under a key keeps the `JobModifyIndex` of the job it found there, or was
upserted at the write's index. -/
theorem JobWrite.jobModifyIndex_eq {index : ℕ} {k : NamespacedID} {o o' : Option Job}
    (hw : JobWrite index k o o') {j : Job} (hj : o' = some j) :
    (∃ j₀, o = some j₀ ∧ j.jobModifyIndex = j₀.jobModifyIndex) ∨ j.jobModifyIndex = index := by
  cases hw with
  | keep => exact Or.inl ⟨j, hj, rfl⟩
  | purge => cases hj
  | keepVersion j₀ status =>
    rw [Option.some.injEq] at hj
    subst hj
    exact Or.inl ⟨j₀, rfl, rfl⟩
  | upsert _ j' _ hjmi =>
    rw [Option.some.injEq] at hj
    subst hj
    exact Or.inr hjmi

/-- A write at the next index leaves under a key only a job stored as `StoredJob` says. -/
theorem JobWrite.stored {index : ℕ} {k : NamespacedID} {o o' : Option Job}
    (hw : JobWrite (index + 1) k o o') (ho : ∀ j, o = some j → StoredJob index k j) {j : Job}
    (hj : o' = some j) : StoredJob (index + 1) k j := by
  cases hw with
  | keep => exact (ho j hj).mono (Nat.le_succ index)
  | purge => cases hj
  | keepVersion j₀ status =>
    rw [Option.some.injEq] at hj
    subst hj
    -- the write stamps the `ModifyIndex` and keeps the rest the invariant reads
    have h₀ := ho j₀ rfl
    exact { h₀ with
      jobModifyIndex_le := h₀.jobModifyIndex_le_index.trans (Nat.le_succ index)
      le_index := le_rfl }
  | upsert _ j' hj' _ =>
    rw [Option.some.injEq] at hj
    exact hj ▸ hj'

/-- An entry stays fresh over another raft entry's writes: a job it writes keeps its
`JobModifyIndex` or gets one past the entry's snapshot. -/
theorem InFlight.Fresh.jobWrite {jobs jobs' : GoMap NamespacedID Job} {index : ℕ} {e : InFlight}
    (he : e.Fresh jobs index)
    (hw : JobWrite (index + 1) e.key (jobs.lookup e.key) (jobs'.lookup e.key)) :
    e.Fresh jobs' (index + 1) := by
  refine { he.mono (Nat.le_succ index) with unwritten := fun j hj hle ↦ ?_ }
  rcases hw.jobModifyIndex_eq hj with ⟨j₀, h₀, hjmi⟩ | hjmi
  · obtain ⟨j₁, h₁, hj₁⟩ := he.unwritten j₀ h₀ (hjmi ▸ hle)
    exact ⟨j₁, h₁, hj₁.trans hjmi.symm⟩
  · have := he.snapshot_le
    omega

/-- A handler that read under `key` and, when it commits, commits a job of that key whose
check-and-set held against the snapshot, keeps the invariant. -/
theorem Leader.Wf.propose {l : Leader} (hl : l.Wf) {key : NamespacedID}
    {result : Except String (Option JobRegisterRequest)}
    (hres : ∀ req, result = .ok (some req) → req.job.canonicalize.namespacedID = key ∧
      (req.enforceIndex = true → IndexMatches (l.store.jobs.lookup key) req.jobModifyIndex ∨
        ∃ j₀, l.store.jobs.lookup key = some j₀ ∧ req.jobModifyIndex = j₀.modifyIndex)) :
    (l.propose key result).Wf := by
  match result, hres with
  | .ok (some req), hres =>
    obtain ⟨hkey, hcheck⟩ := hres req rfl
    refine ⟨hl.stored, fun e he ↦ ?_⟩
    rcases List.mem_append.mp he with he | he
    · exact hl.inFlight e he
    · -- the new entry read the job stored now
      rw [List.mem_singleton] at he
      subst he
      have hk : InFlight.key ⟨req, l.store.jobs.lookup key, l.index⟩ = key := hkey
      exact {
        snapshot_le := le_rfl
        existing := fun j hj ↦ by
          rw [hk]
          exact hl.stored _ _ hj
        unwritten := fun j hj _ ↦ ⟨j, by rw [← hj, hk]; rfl, rfl⟩
        checked := hcheck }
  | .ok none, _ => exact hl
  | .error _, _ => exact hl

theorem Leader.Wf.startRegister {l : Leader} (hl : l.Wf) (ac : AdmissionControllers)
    (args : JobRegisterRequest) (now : ℤ) : (l.startRegister ac args now).Wf := by
  refine hl.propose fun req hreq ↦ ?_
  obtain ⟨hen, hjmi, hkey, hcheck⟩ := register_ok hreq
  -- the request's namespace is never empty, so the job is already canonical
  have hns : req.job.namespace ≠ "" := by
    have := congrArg NamespacedID.namespace hkey
    simp only [Job.namespacedID, JobRegisterRequest.key] at this
    rw [this]
    exact requestNamespace_ne_empty _
  refine ⟨by rw [Job.canonicalize_of_ne hns, hkey], fun he ↦ ?_⟩
  rw [hjmi]
  exact Or.inl (hcheck (hen ▸ he))

theorem Leader.Wf.startScale {l : Leader} (hl : l.Wf) (args : JobScaleRequest) (now : ℤ) :
    (l.startScale args now).Wf := by
  refine hl.propose fun req hreq ↦ ?_
  obtain ⟨job, count, hjob, -, rfl⟩ := scale_ok hreq
  replace hjob : l.store.jobs.lookup args.key = some job := hjob
  have hj := hl.stored _ _ hjob
  refine ⟨?_, fun _ ↦ ?_⟩
  · have hns : (scaledJob job (GoMap.get args.target scalingTargetGroup "") count now).namespace ≠
        "" := hj.namespace_ne
    show (scaledJob job _ count now).canonicalize.namespacedID = args.key
    rw [Job.canonicalize_of_ne hns]
    exact hj.key
  · -- the scaling enforces the `ModifyIndex` of the job it read, and checks nothing
    exact Or.inr ⟨job, hjob, rfl⟩

theorem Leader.Wf.commit {l : Leader} (hl : l.Wf) (i : ℕ) : (l.commit i).Wf := by
  unfold Leader.commit
  split
  · rename_i e _
    have hrest : ∀ e' ∈ l.inFlight.eraseIdx i, e'.Fresh l.store.jobs l.index :=
      fun e' he' ↦ hl.inFlight e' (List.mem_of_mem_eraseIdx he')
    cases happly : applyUpsertJob (l.index + 1) e.req l.store with
    | error _ =>
      -- a failed upsert writes nothing; only the index moves on
      exact ⟨fun k j hj ↦ (hl.stored k j hj).mono (Nat.le_succ _),
        fun e' he' ↦ (hrest e' he').mono (Nat.le_succ _)⟩
    | ok s =>
      obtain ⟨j', hj', hjmi, rfl⟩ := applyUpsertJob_ok (Nat.succ_pos _) happly
      exact ⟨hl.stored.insert hj', fun e' he' ↦ (hrest e' he').insert _ hjmi⟩
  · exact hl

theorem Leader.Wf.applyOther {l : Leader} (hl : l.Wf) {s : StateStore}
    (hjobs : ∀ k, JobWrite (l.index + 1) k (l.store.jobs.lookup k) (s.jobs.lookup k)) :
    (l.applyOther s).Wf :=
  ⟨fun k _ hj ↦ (hjobs k).stored (hl.stored k) hj,
    fun e he ↦ (hl.inFlight e he).jobWrite (hjobs e.key)⟩

/-- The admission controllers of a server that runs none. -/
def noAdmission : AdmissionControllers :=
  ⟨.ok, fun _ _ h ↦ by cases h; rfl⟩

/-- A registration of `webJob` at `priority` that enforces job modify index `jmi`. -/
def webRegister (priority : ℤ) (jmi : ℕ) : JobRegisterRequest :=
  { job := { webJob with priority := priority }
    enforceIndex := true
    jobModifyIndex := jmi
    «namespace» := defaultNamespace }

/-- A leader with empty tables in the default namespace and node pool. -/
def webEmpty : Leader := Leader.empty ⟨[defaultNamespace], [nodePoolDefault], ∅, ∅, ∅, ∅, ∅, ∅⟩

/-- `webJob` registered as a new job and applied at raft index 1. -/
def webLeader : Leader := (webEmpty.startRegister noAdmission (webRegister 50 0) 0).commit 0

/-- Two registrations enforcing job modify index 1 read `webLeader`; the first is applied. -/
def twoRegisters : Leader :=
  ((webLeader.startRegister noAdmission (webRegister 60 1) 1).startRegister noAdmission
    (webRegister 70 1) 2).commit 0

/-- A scaling reads `webLeader`, then a registration enforcing job modify index 1 reads it and is
applied first. -/
def scaleAfterRegister : Leader :=
  ((webLeader.startScale webScale 1).startRegister noAdmission (webRegister 60 1) 2).commit 1

theorem reachable_webLeader : Relation.ReflTransGen (Step noAdmission) webEmpty webLeader :=
  .tail (.single (Step.register _ _ _)) (Step.commit _ 0 (by decide))

theorem reachable_twoRegisters :
    Relation.ReflTransGen (Step noAdmission) webEmpty twoRegisters :=
  .tail (.tail (.tail reachable_webLeader (Step.register _ _ _)) (Step.register _ _ _))
    (Step.commit _ 0 (by decide))

theorem reachable_scaleAfterRegister :
    Relation.ReflTransGen (Step noAdmission) webEmpty scaleAfterRegister :=
  .tail (.tail (.tail reachable_webLeader (Step.scale _ _ _)) (Step.register _ _ _))
    (Step.commit _ 1 (by decide))

/-- At `twoRegisters` the second registration is in flight, enforcing job modify index 1, while
the stored job has job modify index 2; its apply goes through and stores its priority over the
first one's. At `scaleAfterRegister` the registration's priority 60 is stored, and the apply of
the scaling, which read the job before it, puts back priority 50 besides the new count. -/
theorem register_scale_overwrite_newer_job :
    Relation.ReflTransGen (Step noAdmission) webEmpty twoRegisters ∧
      twoRegisters.inFlight.map (fun e ↦ (e.key, e.req.enforceIndex, e.req.jobModifyIndex)) =
        [(webJob.namespacedID, true, 1)] ∧
      (twoRegisters.store.jobs.lookup webJob.namespacedID).map
        (fun j ↦ (j.priority, j.jobModifyIndex)) = some (60, 2) ∧
      ¬IndexMatches (twoRegisters.store.jobs.lookup webJob.namespacedID) 1 ∧
      Step noAdmission twoRegisters (twoRegisters.commit 0) ∧
      ((twoRegisters.commit 0).store.jobs.lookup webJob.namespacedID).map (·.priority) = some 70 ∧
      Relation.ReflTransGen (Step noAdmission) webEmpty scaleAfterRegister ∧
      (scaleAfterRegister.store.jobs.lookup webJob.namespacedID).map (·.priority) = some 60 ∧
      Step noAdmission scaleAfterRegister (scaleAfterRegister.commit 0) ∧
      ((scaleAfterRegister.commit 0).store.jobs.lookup webJob.namespacedID).map
        (fun j ↦ (j.priority, j.taskGroups.map (·.count))) = some (50, [3]) :=
  ⟨reachable_twoRegisters, by decide, by decide, by decide, Step.commit _ 0 (by decide), by decide,
    reachable_scaleAfterRegister, by decide, Step.commit _ 0 (by decide), by decide⟩

end Wander.Nomad
