import Wander.Nomad.EvalBroker
import Mathlib.Data.Multiset.UnionInter
import Mathlib.Data.Multiset.MapFold
import Mathlib.Data.Multiset.OrderedMonoid
import Mathlib.Tactic.Abel
import Mathlib.Logic.Relation

/-!
# Every tracked evaluation is held exactly once

An evaluation the broker tracks in `evals` sits in exactly one place: a ready queue, a pending
queue of its job, the unacknowledged set, a wait timer, the delay heap, or the cancelable list.
At most one evaluation of a job is ready or outstanding, and it is the one `jobEvals` names.

`Tracking b hand` is the invariant of a state `b` in which the evaluations `hand` have been taken
out of their place and not yet put into another, as in the middle of `Nack` or of the delayed
release. Every operation is proved to go from `Tracking _ 0` to `Tracking _ 0` through such
intermediate states, with `enqueueLocked` the one lemma that puts an evaluation in hand into a
queue. `reachable_tracking` carries the invariant along every run from a new enabled broker.
-/

set_option autoImplicit false
set_option relaxedAutoImplicit false

namespace Wander.Nomad

open Wander.Lib Wander.Structs Wander.Delayheap
open scoped List

namespace EvalBroker

/-- The evaluations held by the broker, each occurrence once. -/
def heldM (b : EvalBroker) : Multiset Evaluation :=
  (GoMap.contents b.ready : Multiset Evaluation) + GoMap.contents b.pending +
    ((GoMap.values b.unack).map (·.eval) : List Evaluation) + GoMap.values b.timeWait +
      b.delayHeap.items + b.cancelable

/-- The evaluations that are ready or outstanding. -/
def activeM (b : EvalBroker) : Multiset Evaluation :=
  (GoMap.contents b.ready : Multiset Evaluation) +
    ((GoMap.values b.unack).map (·.eval) : List Evaluation)

/-- The broker's invariant, with the evaluations `hand` between two places. -/
structure Tracking (b : EvalBroker) (hand : Multiset Evaluation) : Prop where
  enabled : b.enabled = true
  nodup : ((b.heldM + hand).map (·.id)).Nodup
  tracked : ∀ id, id ∈ b.evals ↔ id ∈ (b.heldM + hand).map (·.id)
  unackKeys : ∀ k u, b.unack.lookup k = some u → u.eval.id = k
  waitKeys : ∀ k e, b.timeWait.lookup k = some e → e.id = k
  delay : DelayHeap.Consistent evalKey b.delayHeap
  pendingJobs : ∀ ns, ∀ e ∈ GoMap.get b.pending ns [], e.namespacedJobID = ns
  jobs : ∀ e ∈ b.activeM, GoMap.get b.jobEvals e.namespacedJobID "" = e.id
  ids : ∀ e ∈ b.heldM + hand, e.id ≠ ""
  requeueIDs : ∀ e ∈ GoMap.values b.requeue, e.id ≠ ""

theorem heldM_eq_activeM_add (b : EvalBroker) :
    b.heldM = b.activeM + ((GoMap.contents b.pending : Multiset Evaluation) +
      GoMap.values b.timeWait + b.delayHeap.items + b.cancelable) := by
  simp only [heldM, activeM]
  abel

theorem mem_heldM_of_mem_activeM {b : EvalBroker} {e : Evaluation} (h : e ∈ b.activeM) :
    e ∈ b.heldM := by
  rw [heldM_eq_activeM_add]
  exact Multiset.mem_add.mpr (Or.inl h)

theorem Tracking.job_ne_empty {b : EvalBroker} {hand : Multiset Evaluation}
    (hb : Tracking b hand) {x : Evaluation} (hx : x ∈ b.activeM) :
    GoMap.get b.jobEvals x.namespacedJobID "" ≠ "" :=
  hb.jobs x hx ▸ hb.ids x (Multiset.mem_add.mpr (Or.inl (mem_heldM_of_mem_activeM hx)))

/-- Two occurrences in a multiset whose identifiers are distinct have distinct identifiers. -/
theorem id_ne_of_nodup {s t : Multiset Evaluation} (h : ((s + t).map (·.id)).Nodup)
    {x y : Evaluation} (hx : x ∈ s) (hy : y ∈ t) : x.id ≠ y.id := by
  rw [Multiset.map_add, Multiset.nodup_add] at h
  intro hxy
  exact Multiset.disjoint_left.mp h.2.2 (Multiset.mem_map_of_mem _ hx)
    (hxy ▸ Multiset.mem_map_of_mem _ hy)

/-- A state whose holdings, tracked identifiers and keyed maps match a tracking state's. -/
theorem Tracking.of_heldM_eq {b b' : EvalBroker} {hand hand' : Multiset Evaluation}
    (hb : Tracking b hand) (hheld : b'.heldM + hand' = b.heldM + hand)
    (henabled : b'.enabled = true) (hevals : ∀ id, id ∈ b'.evals ↔ id ∈ b.evals)
    (hunack : ∀ k u, b'.unack.lookup k = some u → u.eval.id = k)
    (hwait : ∀ k e, b'.timeWait.lookup k = some e → e.id = k)
    (hdelay : DelayHeap.Consistent evalKey b'.delayHeap)
    (hpending : ∀ ns, ∀ e ∈ GoMap.get b'.pending ns [], e.namespacedJobID = ns)
    (hjobs : ∀ e ∈ b'.activeM, GoMap.get b'.jobEvals e.namespacedJobID "" = e.id)
    (hrequeue : ∀ e ∈ GoMap.values b'.requeue, e.id ≠ "") : Tracking b' hand' where
  enabled := henabled
  nodup := hheld ▸ hb.nodup
  tracked id := (hevals id).trans (hheld ▸ hb.tracked id)
  unackKeys := hunack
  waitKeys := hwait
  delay := hdelay
  pendingJobs := hpending
  jobs := hjobs
  ids := hheld ▸ hb.ids
  requeueIDs := hrequeue

/-- A heap push into the slice a map holds at a key adds the pushed element to the contents. -/
theorem contents_insert_push {K : Type} [DecidableEq K] (m : GoMap K (List Evaluation)) (k : K)
    (less : Evaluation → Evaluation → Bool) (e : Evaluation) :
    (GoMap.contents (m.insert k (Heap.push (Heap.slice less) (GoMap.get m k []) e)) :
      Multiset Evaluation) = GoMap.contents m + {e} := by
  have hpush : ((Heap.push (Heap.slice less) (GoMap.get m k []) e : List Evaluation) :
      Multiset Evaluation) = GoMap.get m k [] + {e} := by
    rw [← Multiset.coe_singleton, Multiset.coe_add, Multiset.coe_eq_coe]
    exact Heap.push_perm (Heap.slice_view less) _ _
  have hsum := GoMap.contents_insert_add m k (Heap.push (Heap.slice less) (GoMap.get m k []) e)
  rw [hpush] at hsum
  apply add_right_cancel (G := Multiset Evaluation)
  rw [hsum]
  abel

theorem mem_get_insert_push {K : Type} [DecidableEq K] {m : GoMap K (List Evaluation)} {k k' : K}
    {less : Evaluation → Evaluation → Bool} {e x : Evaluation}
    (hx : x ∈ GoMap.get (m.insert k (Heap.push (Heap.slice less) (GoMap.get m k []) e)) k' []) :
    (k' = k ∧ x = e) ∨ x ∈ GoMap.get m k' [] := by
  by_cases hk : k' = k
  · subst k'
    rw [GoMap.get_insert] at hx
    rcases List.mem_append.mp ((Heap.push_perm (Heap.slice_view less) _ _).mem_iff.mp hx) with
      hx | hx
    · exact Or.inr hx
    · exact Or.inl ⟨rfl, List.mem_singleton.mp hx⟩
  · rw [GoMap.get_insert_ne _ hk] at hx
    exact Or.inr hx

/-- `enqueueLocked` puts the evaluation in hand into a queue. -/
theorem tracking_enqueueLocked {b : EvalBroker} {e : Evaluation} (hb : Tracking b {e})
    (sched : String) : Tracking (b.enqueueLocked e sched) 0 := by
  have hid : e.id ≠ "" := hb.ids e (by simp)
  unfold enqueueLocked
  simp only [hb.enabled, Bool.not_true, Bool.false_eq_true, if_false]
  split
  · -- Another evaluation of the job is ready or outstanding: `e` joins the job's pending heap.
    refine hb.of_heldM_eq ?_ rfl (fun _ ↦ Iff.rfl) hb.unackKeys hb.waitKeys hb.delay ?_
      hb.jobs hb.requeueIDs
    · simp only [heldM, contents_insert_push, add_zero]
      abel
    · intro ns x hx
      rcases mem_get_insert_push hx with ⟨rfl, rfl⟩ | hx
      · rfl
      · exact hb.pendingJobs ns x hx
  · -- `e` becomes ready, and the job's entry names it.
    rename_i hfree
    have hfree' : GoMap.get b.jobEvals e.namespacedJobID "" = "" ∨
        GoMap.get b.jobEvals e.namespacedJobID "" = e.id := by
      by_cases hempty : GoMap.get b.jobEvals e.namespacedJobID "" = ""
      · exact Or.inl hempty
      · exact Or.inr (by tauto)
    refine hb.of_heldM_eq ?_ rfl (fun _ ↦ Iff.rfl) hb.unackKeys hb.waitKeys hb.delay
      hb.pendingJobs ?_ hb.requeueIDs
    · simp only [heldM, contents_insert_push, add_zero]
      abel
    · intro x hx
      have hx' : x ∈ b.activeM ∨ x = e := by
        simp only [activeM, contents_insert_push, Multiset.mem_add, Multiset.mem_singleton] at hx ⊢
        tauto
      rcases hfree' with hempty | hsame
      · -- The job had no entry; no active evaluation is of the job, and the entry becomes `e`.
        simp only [hempty, if_true]
        rcases hx' with hx | rfl
        · have hjob : x.namespacedJobID ≠ e.namespacedJobID := fun hjob ↦
            hb.job_ne_empty hx (hjob ▸ hempty)
          rw [GoMap.get_insert_ne _ hjob]
          exact hb.jobs x hx
        · exact GoMap.get_insert _ _ _ _
      · simp only [hsame ▸ hid, if_false]
        rcases hx' with hx | rfl
        · exact hb.jobs x hx
        · exact hsame

/-! ### Fields the invariant does not read, and moves between places -/

section Moves

variable {b : EvalBroker} {hand : Multiset Evaluation}

/-- The counters are not part of the invariant. -/
theorem Tracking.stats (hb : Tracking b hand) (st : BrokerStats) :
    Tracking { b with stats := st } hand :=
  hb.of_heldM_eq rfl hb.enabled (fun _ ↦ Iff.rfl) hb.unackKeys hb.waitKeys hb.delay hb.pendingJobs hb.jobs
    hb.requeueIDs

theorem Tracking.erase_requeue (hb : Tracking b hand) (token : String) :
    Tracking { b with requeue := b.requeue.erase token } hand :=
  hb.of_heldM_eq rfl hb.enabled (fun _ ↦ Iff.rfl) hb.unackKeys hb.waitKeys hb.delay hb.pendingJobs hb.jobs
    fun e he ↦ hb.requeueIDs e (GoMap.mem_values_erase he)

theorem Tracking.insert_requeue (hb : Tracking b hand) (token : String) {e : Evaluation}
    (hid : e.id ≠ "") : Tracking { b with requeue := b.requeue.insert token e } hand := by
  refine hb.of_heldM_eq rfl hb.enabled (fun _ ↦ Iff.rfl) hb.unackKeys hb.waitKeys hb.delay hb.pendingJobs
    hb.jobs fun x hx ↦ ?_
  rw [GoMap.values_insert, List.mem_cons] at hx
  rcases hx with rfl | hx
  · exact hid
  · exact hb.requeueIDs x (GoMap.mem_values_erase hx)

/-- The entry of a job none of whose evaluations is active can be deleted. -/
theorem Tracking.erase_job (hb : Tracking b hand) {ns : NamespacedID}
    (hns : ∀ e ∈ b.activeM, e.namespacedJobID ≠ ns) :
    Tracking { b with jobEvals := b.jobEvals.erase ns } hand :=
  hb.of_heldM_eq rfl hb.enabled (fun _ ↦ Iff.rfl) hb.unackKeys hb.waitKeys hb.delay hb.pendingJobs
    (fun e he ↦ (GoMap.get_erase_ne _ (hns e he) _).trans (hb.jobs e he)) hb.requeueIDs

theorem map_id_add_singleton {s : Multiset Evaluation} {x y : Evaluation} (hid : y.id = x.id) :
    (s + {y}).map (·.id) = (s + {x}).map (·.id) := by
  simp [Multiset.map_add, hid]

/-- The evaluation in hand may be replaced by one with its identifier. -/
theorem Tracking.replace_hand {x : Evaluation} (hb : Tracking b {x}) {y : Evaluation}
    (hid : y.id = x.id) : Tracking b {y} where
  enabled := hb.enabled
  nodup := by
    rw [map_id_add_singleton hid]
    exact hb.nodup
  tracked id := by
    rw [map_id_add_singleton hid]
    exact hb.tracked id
  unackKeys := hb.unackKeys
  waitKeys := hb.waitKeys
  delay := hb.delay
  pendingJobs := hb.pendingJobs
  jobs := hb.jobs
  ids e he := by
    rcases Multiset.mem_add.mp he with he | he
    · exact hb.ids e (Multiset.mem_add.mpr (Or.inl he))
    · rw [Multiset.mem_singleton.mp he, hid]
      exact hb.ids x (by simp)
  requeueIDs := hb.requeueIDs

theorem Tracking.eq_of_id_eq (hb : Tracking b hand) {x y : Evaluation} (hx : x ∈ b.heldM + hand)
    (hy : y ∈ b.heldM + hand) (hid : x.id = y.id) : x = y :=
  Multiset.inj_on_of_nodup_map hb.nodup x hx y hy hid

/-- A new identifier is tracked with its evaluation in hand. -/
theorem Tracking.track (hb : Tracking b 0) {e : Evaluation} (hnew : e.id ∉ b.evals)
    (hid : e.id ≠ "") (n : ℕ) : Tracking { b with evals := b.evals.insert e.id n } {e} where
  enabled := hb.enabled
  nodup := by
    show ((b.heldM + {e}).map (·.id)).Nodup
    rw [Multiset.map_add, Multiset.nodup_add, Multiset.map_singleton, Multiset.disjoint_singleton]
    refine ⟨by simpa using hb.nodup, Multiset.nodup_singleton _, fun h ↦ hnew ?_⟩
    exact (hb.tracked _).mpr (by simpa using h)
  tracked id := by
    show id ∈ b.evals.insert e.id n ↔ id ∈ (b.heldM + {e}).map (·.id)
    simp only [AList.mem_insert, hb.tracked, Multiset.map_add, Multiset.mem_add,
      Multiset.map_singleton, Multiset.mem_singleton, add_zero]
    exact or_comm
  unackKeys := hb.unackKeys
  waitKeys := hb.waitKeys
  delay := hb.delay
  pendingJobs := hb.pendingJobs
  jobs := hb.jobs
  ids x hx := by
    rcases Multiset.mem_add.mp hx with hx | hx
    · exact hb.ids x (Multiset.mem_add.mpr (Or.inl hx))
    · rw [Multiset.mem_singleton.mp hx]
      exact hid
  requeueIDs := hb.requeueIDs

/-- The evaluation in hand is dropped together with its identifier. -/
theorem Tracking.untrack {x : Evaluation} (hb : Tracking b {x}) :
    Tracking { b with evals := b.evals.erase x.id } 0 := by
  have hnd := hb.nodup
  rw [Multiset.map_add, Multiset.nodup_add, Multiset.map_singleton,
    Multiset.disjoint_singleton] at hnd
  refine ⟨hb.enabled, ?_, fun id ↦ ?_, hb.unackKeys, hb.waitKeys, hb.delay, hb.pendingJobs, hb.jobs,
    fun e he ↦ hb.ids e (Multiset.mem_add.mpr (Or.inl ?_)), hb.requeueIDs⟩
  · show ((b.heldM + 0).map (·.id)).Nodup
    simpa using hnd.1
  · show id ∈ b.evals.erase x.id ↔ id ∈ (b.heldM + 0).map (·.id)
    simp only [AList.mem_erase, hb.tracked, Multiset.map_add, Multiset.mem_add,
      Multiset.map_singleton, Multiset.mem_singleton, add_zero]
    constructor
    · rintro ⟨hne, h | h⟩
      · exact h
      · exact absurd h hne
    · intro h
      exact ⟨fun heq ↦ hnd.2.2 (heq ▸ h), Or.inl h⟩
  · exact (add_zero b.heldM) ▸ he

/-- Taking an unacknowledged delivery out of `unack` puts its evaluation in hand. -/
theorem Tracking.take_unack (hb : Tracking b 0) {k : String} {u : UnackEval}
    (hu : b.unack.lookup k = some u) : Tracking { b with unack := b.unack.erase k } {u.eval} := by
  refine hb.of_heldM_eq ?_ hb.enabled (fun _ ↦ Iff.rfl)
    (fun k' v hv ↦ hb.unackKeys k' v (GoMap.lookup_of_lookup_erase hv)) hb.waitKeys hb.delay
    hb.pendingJobs (fun e he ↦ hb.jobs e ?_) hb.requeueIDs
  · simp only [heldM, add_zero]
    rw [← GoMap.values_map_erase_add hu]
    abel
  · simp only [activeM, Multiset.mem_add, Multiset.mem_coe, List.mem_map] at he ⊢
    rcases he with he | ⟨v, hv, rfl⟩
    · exact Or.inl he
    · exact Or.inr ⟨v, GoMap.mem_values_erase hv, rfl⟩

/-- Taking an evaluation out of `timeWait` puts it in hand. -/
theorem Tracking.take_wait (hb : Tracking b 0) {k : String} {e : Evaluation}
    (he : b.timeWait.lookup k = some e) :
    Tracking { b with timeWait := b.timeWait.erase k } {e} := by
  refine hb.of_heldM_eq ?_ hb.enabled (fun _ ↦ Iff.rfl) hb.unackKeys
    (fun k' v hv ↦ hb.waitKeys k' v (GoMap.lookup_of_lookup_erase hv)) hb.delay hb.pendingJobs
    hb.jobs hb.requeueIDs
  simp only [heldM, add_zero]
  rw [← GoMap.values_erase_add he]
  abel

/-- Removing an evaluation of the delay heap from it puts it in hand. -/
theorem Tracking.take_delayed (hb : Tracking b 0) {e : Evaluation} (he : e ∈ b.delayHeap.items) :
    Tracking { b with delayHeap := (DelayHeap.remove evalKey b.delayHeap e).1 } {e} := by
  have hk : evalKey e ∈ b.delayHeap.index :=
    (DelayHeap.mem_index_iff hb.delay _).mpr ⟨e, he, rfl⟩
  obtain ⟨y, hky, hperm, hcons⟩ := DelayHeap.remove_spec hb.delay hk
  -- The removed object has the key of `e`, so it is `e` itself.
  have hy : y = e := by
    refine hb.eq_of_id_eq ?_ ?_ (congrArg NamespacedID.id hky)
    · have hyi : y ∈ b.delayHeap.items := hperm.mem_iff.mpr List.mem_cons_self
      simp [heldM, hyi]
    · simp [heldM, he]
  subst hy
  refine hb.of_heldM_eq ?_ hb.enabled (fun _ ↦ Iff.rfl) hb.unackKeys hb.waitKeys hcons
    hb.pendingJobs hb.jobs hb.requeueIDs
  simp only [heldM, add_zero]
  rw [Multiset.coe_eq_coe.mpr hperm, ← Multiset.cons_coe, ← Multiset.singleton_add]
  abel

end Moves

/-! ### The operations -/

section Operations

variable {b : EvalBroker}

/-- `processWaitingEnqueue` arms the timer of the evaluation in hand. -/
theorem tracking_processWaitingEnqueue {e : Evaluation} (hb : Tracking b {e}) :
    Tracking (b.processWaitingEnqueue e) 0 := by
  have hnone : b.timeWait.lookup e.id = none := by
    cases hw : b.timeWait.lookup e.id with
    | none => rfl
    | some w =>
      have hwm : w ∈ b.heldM := by simp [heldM, GoMap.mem_values_of_lookup hw]
      exact absurd (hb.waitKeys _ _ hw) (id_ne_of_nodup hb.nodup hwm (Multiset.mem_singleton_self e))
  refine hb.of_heldM_eq ?_ hb.enabled (fun _ ↦ Iff.rfl) hb.unackKeys ?_ hb.delay hb.pendingJobs
    hb.jobs hb.requeueIDs
  · simp only [processWaitingEnqueue, heldM, GoMap.values_insert_of_lookup_eq_none hnone,
      ← Multiset.singleton_add, add_zero]
    abel
  · intro k w hw
    by_cases hk : k = e.id
    · subst hk
      simp only [processWaitingEnqueue, AList.lookup_insert, Option.some.injEq] at hw
      rw [← hw]
    · simp only [processWaitingEnqueue, AList.lookup_insert_ne hk] at hw
      exact hb.waitKeys k w hw

/-- The delayed branch of `processEnqueue` pushes the evaluation in hand onto the delay heap,
where no object has its key. -/
theorem tracking_enqueueDelayed {e : Evaluation} (hb : Tracking b {e}) :
    Tracking (b.enqueueDelayed e) 0 := by
  have hk : evalKey e ∉ b.delayHeap.index := by
    rw [DelayHeap.mem_index_iff hb.delay]
    rintro ⟨y, hy, hky⟩
    have hym : y ∈ b.heldM := by simp [heldM, hy]
    exact id_ne_of_nodup hb.nodup hym (Multiset.mem_singleton_self e) (congrArg NamespacedID.id hky)
  obtain ⟨hcons, hitems⟩ := DelayHeap.push_spec hb.delay hk e.waitUntil
  refine hb.of_heldM_eq ?_ hb.enabled (fun _ ↦ Iff.rfl) hb.unackKeys hb.waitKeys hcons
    hb.pendingJobs hb.jobs hb.requeueIDs
  simp only [enqueueDelayed, heldM, Multiset.coe_eq_coe.mpr hitems, ← Multiset.coe_add,
    Multiset.coe_singleton, add_zero]
  abel

/-- `processEnqueue` of an evaluation with an identifier. -/
theorem tracking_processEnqueue (hb : Tracking b 0) {e : Evaluation} (hid : e.id ≠ "")
    (token : String) : Tracking (b.processEnqueue e token) 0 := by
  unfold processEnqueue
  rw [if_neg (by simp [hb.enabled])]
  split
  · -- A known identifier is at most kept for re-enqueueing.
    split
    · exact hb
    · split
      · split
        · exact hb.insert_requeue token hid
        · exact hb
      · exact hb
  · rename_i hnew
    have hb₁ := hb.track hnew hid 0
    split
    · exact tracking_processWaitingEnqueue hb₁
    · split
      · exact tracking_enqueueDelayed hb₁
      · exact tracking_enqueueLocked hb₁ _

theorem tracking_enqueueAll (hb : Tracking b 0) (evals : List (Evaluation × String))
    (hid : ∀ e ∈ evals, e.1.id ≠ "") : Tracking (b.enqueueAll evals) 0 := by
  induction evals generalizing b with
  | nil => exact hb
  | cons e evals ih =>
    exact ih (tracking_processEnqueue hb (hid e List.mem_cons_self) e.2)
      fun e' he' ↦ hid e' (List.mem_cons_of_mem _ he')

/-- `dequeueForSched` moves the top of a ready queue into `unack`. -/
theorem tracking_dequeueForSched (hb : Tracking b 0) (sched token : String) :
    Tracking (b.dequeueForSched sched token).1 0 := by
  unfold dequeueForSched
  dsimp only
  split
  · rename_i e hpop
    have hperm : GoMap.get b.ready sched [] ~
        e :: (Heap.pop (Heap.slice readyLess) (GoMap.get b.ready sched [])).1 :=
      Heap.pop_perm (Heap.slice_view readyLess) (Prod.ext rfl hpop)
    generalize (Heap.pop (Heap.slice readyLess) (GoMap.get b.ready sched [])).1 = rest at hperm ⊢
    have hready := GoMap.contents_insert_of_perm hperm
    have hmem : e ∈ GoMap.contents b.ready :=
      (GoMap.contents_perm_get_erase _ sched).mem_iff.mpr
        (List.mem_append_left _ (hperm.mem_iff.mpr List.mem_cons_self))
    -- The popped evaluation is not also outstanding, so `unack` has no entry for it.
    have hnone : b.unack.lookup e.id = none := by
      cases hu : b.unack.lookup e.id with
      | none => rfl
      | some u =>
        have hsplit : b.heldM + 0 = ((GoMap.contents b.ready : Multiset Evaluation) +
            GoMap.contents b.pending + GoMap.values b.timeWait + b.delayHeap.items +
              b.cancelable) + ((GoMap.values b.unack).map (·.eval) : List Evaluation) := by
          simp only [heldM, add_zero]
          abel
        have hu' : u.eval ∈ ((GoMap.values b.unack).map (·.eval) : List Evaluation) :=
          List.mem_map_of_mem (GoMap.mem_values_of_lookup hu)
        exact absurd (hb.unackKeys _ _ hu)
          (id_ne_of_nodup (hsplit ▸ hb.nodup) (by simp [hmem]) hu').symm
    have hactive : ({ b with
        ready := b.ready.insert sched rest
        unack := b.unack.insert e.id ⟨e, token⟩ } : EvalBroker).activeM = b.activeM := by
      simp only [activeM, GoMap.values_map_insert_of_lookup_eq_none hnone, ← hready,
        ← Multiset.singleton_add]
      abel
    refine hb.of_heldM_eq ?_ hb.enabled (fun i ↦ ?_) (fun k u hu ↦ ?_) hb.waitKeys hb.delay
      hb.pendingJobs (fun x hx ↦ hb.jobs x (hactive ▸ hx)) hb.requeueIDs
    · simp only [heldM, GoMap.values_map_insert_of_lookup_eq_none hnone, ← hready,
        ← Multiset.singleton_add, add_zero]
      abel
    · have he : e.id ∈ b.evals := (hb.tracked _).mpr (Multiset.mem_map_of_mem _ (by simp [heldM, hmem]))
      simp only [AList.mem_insert]
      exact ⟨fun h ↦ h.elim (· ▸ he) fun h ↦ h, Or.inr⟩
    · by_cases hk : k = e.id
      · subst hk
        simp only [AList.lookup_insert, Option.some.injEq] at hu
        rw [← hu]
      · simp only [AList.lookup_insert_ne hk] at hu
        exact hb.unackKeys k u hu
  · exact hb

theorem tracking_scanForSchedulers (hb : Tracking b 0) (schedulers : List String) (offset : ℕ)
    (token : String) : Tracking (b.scanForSchedulers schedulers offset token).1 0 := by
  unfold scanForSchedulers
  rw [if_neg (by simp [hb.enabled])]
  split
  · exact hb
  · exact tracking_dequeueForSched hb _ _
  · split
    · exact tracking_dequeueForSched hb _ _
    · exact hb

/-- `MarkForCancel` of a non-empty heap keeps one evaluation and returns the others. -/
theorem markForCancel_spec {p : List Evaluation} (hp : p ≠ []) :
    ∃ top, (markForCancel p).1 = [top] ∧ p ~ top :: (markForCancel p).2 := by
  obtain ⟨top, htop⟩ := Option.isSome_iff_exists.mp (Heap.pop_isSome (Heap.slice_view pendingLess) hp)
  exact ⟨top, by simp [markForCancel, htop],
    Heap.pop_perm (Heap.slice_view pendingLess) (Prod.ext rfl htop)⟩

/-- With no entry for its job, `enqueueLocked` makes the evaluation ready and leaves the pending
heaps alone. -/
theorem enqueueLocked_pending {e : Evaluation} (sched : String)
    (hfree : GoMap.get b.jobEvals e.namespacedJobID "" = "") :
    (b.enqueueLocked e sched).pending = b.pending := by
  unfold enqueueLocked
  split
  · rfl
  · simp [hfree]

theorem enqueueLocked_set_pending {e : Evaluation} (sched : String)
    (hfree : GoMap.get b.jobEvals e.namespacedJobID "" = "") (pending : GoMap NamespacedID (List Evaluation)) :
    { b.enqueueLocked e sched with pending := pending } =
      ({ b with pending := pending } : EvalBroker).enqueueLocked e sched := by
  unfold enqueueLocked
  split
  · rfl
  · simp [hfree]

/-- The pending step of `Ack` for a job with no entry: the top pending evaluation becomes ready
and the others cancelable. -/
theorem tracking_ackPending (hb : Tracking b 0) {ns : NamespacedID}
    (hfree : GoMap.get b.jobEvals ns "" = "") : Tracking (b.ackPending ns) 0 := by
  unfold ackPending
  dsimp only
  split
  · exact hb
  · rename_i hlen
    obtain ⟨top, htop, hperm⟩ := markForCancel_spec (p := GoMap.get b.pending ns [])
      (fun h ↦ hlen (by rw [h]; rfl))
    have hjob : top.namespacedJobID = ns := hb.pendingJobs ns top (hperm.mem_iff.mpr List.mem_cons_self)
    simp only [htop, Heap.slice_pop_singleton, List.length_nil, if_true]
    -- The top is enqueued before the job's heap is deleted; with no entry for the job it
    -- becomes ready, so the deletion can be made first.
    rw [enqueueLocked_pending, enqueueLocked_set_pending]
    rotate_left
    · exact hjob ▸ hfree
    · exact hjob ▸ hfree
    refine tracking_enqueueLocked ?_ _
    refine hb.of_heldM_eq ?_ hb.enabled (fun _ ↦ Iff.rfl) hb.unackKeys hb.waitKeys hb.delay
      (fun ns' x hx ↦ ?_) hb.jobs hb.requeueIDs
    · simp only [heldM, add_zero]
      rw [← GoMap.contents_erase_add b.pending ns, Multiset.coe_eq_coe.mpr hperm, ← Multiset.coe_add,
        ← Multiset.cons_coe, ← Multiset.singleton_add]
      abel
    · by_cases hns : ns' = ns
      · subst hns
        simp only [GoMap.get_erase, List.not_mem_nil] at hx
      · rw [GoMap.get_erase_ne _ hns] at hx
        exact hb.pendingJobs ns' x hx

/-- A successful `Ack` drops the evaluation with its identifier and its job's entry, moves the
job's pending evaluations on, and enqueues the evaluation kept for the delivery's token. -/
theorem tracking_ack (hb : Tracking b 0) (evalID token : String) (timerStopped : Bool) :
    Tracking (b.ack evalID token timerStopped).1 0 := by
  unfold ack
  apply Tracking.erase_requeue
  split
  · exact hb
  · rename_i u hu
    split
    · exact hb
    · split
      · exact hb
      · have hid : u.eval.id = evalID := hb.unackKeys _ _ hu
        subst hid
        have hb₀ := hb.take_unack hu
        have hu' : u.eval ∈ b.activeM := by
          simp [activeM, List.mem_map_of_mem (GoMap.mem_values_of_lookup hu)]
        -- No other active evaluation is of the acknowledged evaluation's job.
        have hns : ∀ e ∈ ({ b with unack := b.unack.erase u.eval.id } : EvalBroker).activeM,
            e.namespacedJobID ≠ u.eval.namespacedJobID := by
          intro e he hjob
          have hsame : e.id = u.eval.id := by
            rw [← hb₀.jobs e he, ← hb.jobs u.eval hu', hjob]
          exact id_ne_of_nodup hb₀.nodup (mem_heldM_of_mem_activeM he)
            (Multiset.mem_singleton_self _) hsame
        have hb₁ := (hb₀.untrack.erase_job hns).stats
        cases hreq : b.requeue.lookup token with
        | none => exact tracking_ackPending (hb₁ _) (GoMap.get_erase _ _ _)
        | some e =>
          exact tracking_processEnqueue (tracking_ackPending (hb₁ _) (GoMap.get_erase _ _ _))
            (hb.requeueIDs e (GoMap.mem_values_of_lookup hreq)) ""

/-- `Nack` puts the evaluation back: into the failed queue, behind a wait timer, or into its
queue. -/
theorem tracking_nack (hb : Tracking b 0) (evalID token : String) :
    Tracking (b.nack evalID token).1 0 := by
  have hb₀ := hb.erase_requeue token
  unfold nack
  dsimp only
  split
  · exact hb₀
  · rename_i u hu
    split
    · exact hb₀
    · have hb₁ := (hb₀.take_unack hu).stats
      split
      · exact tracking_enqueueLocked (hb₁ _) _
      · split
        · refine tracking_processWaitingEnqueue ?_
          exact (hb₁ _).replace_hand rfl
        · refine tracking_enqueueLocked ?_ _
          exact (hb₁ _).replace_hand rfl

/-- The wait timer of an evaluation in `timeWait` fires. -/
theorem tracking_enqueueWaiting (hb : Tracking b 0) {e : Evaluation}
    (hwait : b.timeWait.lookup e.id = some e) : Tracking (b.enqueueWaiting e) 0 :=
  tracking_enqueueLocked ((hb.take_wait hwait).stats _) _

/-- The watcher releases an evaluation of the delay heap. -/
theorem tracking_releaseDelayed (hb : Tracking b 0) {e : Evaluation} (hdelay : e ∈ b.delayHeap.items) :
    Tracking (b.releaseDelayed e) 0 :=
  tracking_enqueueLocked ((hb.take_delayed hdelay).stats _) _

end Operations

/-! ### Runs -/

theorem heldM_newEnabledEvalBroker (deliveryLimit initialNackDelay subsequentNackDelay : ℕ) :
    (newEnabledEvalBroker deliveryLimit initialNackDelay subsequentNackDelay).heldM = 0 := by
  simp [heldM, newEnabledEvalBroker, GoMap.contents, GoMap.values]

theorem tracking_newEnabledEvalBroker (deliveryLimit initialNackDelay subsequentNackDelay : ℕ) :
    Tracking (newEnabledEvalBroker deliveryLimit initialNackDelay subsequentNackDelay) 0 where
  enabled := rfl
  nodup := by simp [heldM_newEnabledEvalBroker]
  tracked _ := by
    rw [heldM_newEnabledEvalBroker]
    simp [newEnabledEvalBroker]
  unackKeys _ _ h := by simp [newEnabledEvalBroker] at h
  waitKeys _ _ h := by simp [newEnabledEvalBroker] at h
  delay := DelayHeap.consistent_newDelayHeap
  pendingJobs _ _ h := by simp [newEnabledEvalBroker] at h
  jobs _ h := by simp [newEnabledEvalBroker, activeM, GoMap.contents, GoMap.values] at h
  ids _ h := by simp [heldM_newEnabledEvalBroker] at h
  requeueIDs _ h := by simp [newEnabledEvalBroker, GoMap.values] at h

/-- Each identifier occurs once among the held evaluations if it is tracked, and not at all
otherwise. -/
theorem Tracking.count_id {b : EvalBroker} (hb : Tracking b 0) (id : String) :
    (b.heldM.map (·.id)).count id = if id ∈ b.evals then 1 else 0 := by
  have hnd : (b.heldM.map (·.id)).Nodup := by simpa using hb.nodup
  by_cases h : id ∈ b.evals
  · rw [if_pos h]
    exact Multiset.count_eq_one_of_mem hnd (by simpa using (hb.tracked id).mp h)
  · rw [if_neg h]
    exact Multiset.count_eq_zero.mpr fun hm ↦ h ((hb.tracked id).mpr (by simpa using hm))

/-- The active evaluations of a job all have the identifier its entry names, and identifiers are
held once: there is at most one. -/
theorem Tracking.card_job_le_one {b : EvalBroker} {hand : Multiset Evaluation}
    (hb : Tracking b hand) (ns : NamespacedID) :
    (b.activeM.filter (·.namespacedJobID = ns)).card ≤ 1 := by
  have hle : b.activeM.filter (·.namespacedJobID = ns) ≤ b.heldM + hand := by
    rw [heldM_eq_activeM_add, add_assoc]
    exact (Multiset.filter_le _ _).trans (Multiset.le_add_right _ _)
  have hnd := Multiset.nodup_of_le (Multiset.map_le_map hle) hb.nodup
  have hall : ∀ i ∈ (b.activeM.filter (·.namespacedJobID = ns)).map (·.id),
      GoMap.get b.jobEvals ns "" = i := by
    intro i hi
    obtain ⟨e, he, rfl⟩ := Multiset.mem_map.mp hi
    obtain ⟨he, hjob⟩ := Multiset.mem_filter.mp he
    rw [← hjob]
    exact hb.jobs e he
  rw [← Multiset.card_map (·.id), ← Multiset.count_eq_card.mpr hall]
  exact Multiset.nodup_iff_count_le_one.mp hnd _

/-- Every step keeps the invariant. -/
theorem Step.tracking {b b' : EvalBroker} (hstep : Step b b') (hb : Tracking b 0) : Tracking b' 0 := by
  cases hstep with
  | enqueue e hid => exact tracking_processEnqueue hb hid ""
  | enqueueAll evals hid => exact tracking_enqueueAll hb evals hid
  | dequeue schedulers offset token => exact tracking_scanForSchedulers hb schedulers offset token
  | ack evalID token timerStopped => exact tracking_ack hb evalID token timerStopped
  | nack evalID token => exact tracking_nack hb evalID token
  | waitExpired e hwait => exact tracking_enqueueWaiting hb hwait
  | delayExpired e hdelay => exact tracking_releaseDelayed hb hdelay

/-- The invariant holds in every state a new enabled broker reaches. -/
theorem reachable_tracking {deliveryLimit initialNackDelay subsequentNackDelay : ℕ} {b : EvalBroker}
    (hreach : Relation.ReflTransGen Step
      (newEnabledEvalBroker deliveryLimit initialNackDelay subsequentNackDelay) b) :
    Tracking b 0 := by
  induction hreach with
  | refl => exact tracking_newEnabledEvalBroker _ _ _
  | tail _ hstep ih => exact hstep.tracking ih

/-- In every state reached by a new enabled broker, each tracked identifier is held exactly once
across the ready queues, the pending queues, `unack`, `timeWait`, the delay heap and the
cancelable list, and an untracked one not at all; of each job at most one evaluation is ready or
outstanding, and it is the one `jobEvals` names. -/
theorem reachable_evals_held_once {deliveryLimit initialNackDelay subsequentNackDelay : ℕ}
    {b : EvalBroker} (hreach : Relation.ReflTransGen Step
      (newEnabledEvalBroker deliveryLimit initialNackDelay subsequentNackDelay) b) :
    (∀ id, (b.heldM.map (·.id)).count id = if id ∈ b.evals then 1 else 0) ∧
      (∀ ns, (b.activeM.filter (·.namespacedJobID = ns)).card ≤ 1) ∧
      ∀ e ∈ b.activeM, GoMap.get b.jobEvals e.namespacedJobID "" = e.id := by
  have hb := reachable_tracking hreach
  exact ⟨hb.count_id, hb.card_job_le_one, hb.jobs⟩

theorem reachable_evals_held_once_enqueue :
    Relation.ReflTransGen Step (newEnabledEvalBroker 3 0 0)
        ((newEnabledEvalBroker 3 0 0).enqueue { id := "e1", jobID := "job", type := "service" }) ∧
      let b := (newEnabledEvalBroker 3 0 0).enqueue { id := "e1", jobID := "job", type := "service" }
      (∀ id, (b.heldM.map (·.id)).count id = if id ∈ b.evals then 1 else 0) ∧
        (∀ ns, (b.activeM.filter (·.namespacedJobID = ns)).card ≤ 1) ∧
        ∀ e ∈ b.activeM, GoMap.get b.jobEvals e.namespacedJobID "" = e.id :=
  have hreach := Relation.ReflTransGen.single (Step.enqueue _ _ (by decide))
  ⟨hreach, reachable_evals_held_once hreach⟩

end EvalBroker

end Wander.Nomad