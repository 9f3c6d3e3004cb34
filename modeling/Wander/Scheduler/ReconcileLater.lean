import Wander.Scheduler.ReconcileUtil
import Wander.Structs.Evaluation
import Wander.Lib.Windows
import Mathlib.Data.List.Chain
import Mathlib.Algebra.Order.Group.Nat

/-!
# Follow-up evaluations for allocations rescheduled later

`allocReconciler.createLostLaterEvals` and `allocReconciler.createTimeoutLaterEvals` of
reconcile.go sort the allocations to reschedule later by time and batch them: a batch starts at
the first time not within `batchedFailedAllocWindowSize` of the current batch's start, and each
batch gets one follow-up evaluation whose `WaitUntil` is its start. The two functions differ in
where the times come from (the reschedule policy, or `delayByMaxClientDisconnect`) and in the
trigger of the evaluations; the loop is `batchLaterEvals` for both.

`batchLaterEvals_spec`: over infos sorted by time with distinct allocations, the loop assigns each
allocation one of the evaluations it makes, whose window holds the allocation's time; the
evaluations have distinct identifiers and start a window apart; and no set of fewer windows covers
the times (`BatchSpec`). The loop's invariant is `LoopInv`, kept by each turn (`LoopInv.step`);
the bound is `Windows.isLeast_card_covers`. `later_evals_batched` states this for both functions.

Only the fields the batching sets are kept: the status description and the job's modify index of
the evaluations, the metrics of `emitRescheduleInfo`, and the allocation updates of
`createTimeoutLaterEvals` are left out. `uuid.Generate()` is `ids k` for the `k`-th evaluation
made, times are nanoseconds, and `sort.Slice` is an insertion sort by time (the batches do not
depend on the order of equal times).
-/

set_option autoImplicit false
set_option relaxedAutoImplicit false

namespace Wander.Scheduler

open Wander.Lib Wander.Structs GoMap

/-- `batchedFailedAllocWindowSize`: five seconds. -/
def batchedFailedAllocWindowSize : ℕ := 5 * 1000000000

/-- `delayedRescheduleInfo`, less the allocation itself, which only the metrics read. -/
structure DelayedRescheduleInfo where
  allocID : String
  rescheduleTime : ℕ
deriving DecidableEq, Repr

/-- The follow-up evaluation of a batch, made with the identifier `id`. -/
def followupEval (job : Job) (evalPriority : ℤ) (triggeredBy id : String) (waitUntil : ℕ) :
    Evaluation :=
  { id, «namespace» := job.namespace, priority := evalPriority, type := job.type, triggeredBy,
    jobID := job.id, status := .pending, waitUntil }

/-- The variables of the batching loop. -/
structure LaterEvals where
  evals : List Evaluation
  eval : Evaluation
  nextReschedTime : ℕ
  allocIDToFollowupEvalID : GoMap String String

/-- One turn of the batching loop; `newEval k t` is the `k`-th evaluation made, for a batch that
starts at `t`. -/
def batchStep (newEval : ℕ → ℕ → Evaluation) (s : LaterEvals)
    (info : DelayedRescheduleInfo) : LaterEvals :=
  if (info.rescheduleTime : ℤ) - s.nextReschedTime < batchedFailedAllocWindowSize then
    { s with allocIDToFollowupEvalID := s.allocIDToFollowupEvalID.insert info.allocID s.eval.id }
  else
    -- start a new batch
    let eval := newEval s.evals.length info.rescheduleTime
    { evals := s.evals ++ [eval], eval, nextReschedTime := info.rescheduleTime
      allocIDToFollowupEvalID := s.allocIDToFollowupEvalID.insert info.allocID eval.id }

/-- The batching of both functions over the sorted infos: an evaluation for the first batch, then
the loop over all the infos. -/
def batchLaterEvals (newEval : ℕ → ℕ → Evaluation) (sorted : List DelayedRescheduleInfo) :
    List Evaluation × GoMap String String :=
  match sorted with
  | [] => ([], ∅)
  | first :: _ =>
    let eval := newEval 0 first.rescheduleTime
    let s := sorted.foldl (batchStep newEval) ⟨[eval], eval, first.rescheduleTime, ∅⟩
    (s.evals, s.allocIDToFollowupEvalID)

/-- `sort.Slice` by `rescheduleTime.Before`. -/
def sortByRescheduleTime (infos : List DelayedRescheduleInfo) : List DelayedRescheduleInfo :=
  infos.insertionSort fun a b ↦ a.rescheduleTime ≤ b.rescheduleTime

/-- `allocReconciler.createLostLaterEvals`: the follow-up evaluations, in the order they are
appended, and the follow-up evaluation of each allocation. -/
def createLostLaterEvals (job : Job) (evalPriority : ℤ) (ids : ℕ → String)
    (rescheduleLater : List DelayedRescheduleInfo) : List Evaluation × GoMap String String :=
  batchLaterEvals (fun k ↦ followupEval job evalPriority evalTriggerRetryFailedAlloc (ids k))
    (sortByRescheduleTime rescheduleLater)

/-- `allocSet.delayByMaxClientDisconnect`; `disconnectTimeout` is `Allocation.DisconnectTimeout`
at `now`. -/
def delayByMaxClientDisconnect (a : AllocSet) (now : ℕ) (disconnectTimeout : Allocation → ℕ) :
    Except String (List DelayedRescheduleInfo) :=
  (values a).mapM fun alloc ↦
    if now < disconnectTimeout alloc then .ok ⟨alloc.id, disconnectTimeout alloc⟩
    else .error "unable to computing disconnecting timeouts"

/-- `allocReconciler.createTimeoutLaterEvals`. -/
def createTimeoutLaterEvals (job : Job) (evalPriority : ℤ) (ids : ℕ → String)
    (disconnecting : AllocSet) (now : ℕ) (disconnectTimeout : Allocation → ℕ) :
    List Evaluation × GoMap String String :=
  if disconnecting.entries.length = 0 then ([], ∅)
  else
    match delayByMaxClientDisconnect disconnecting now disconnectTimeout with
    -- the error is logged
    | .error _ => ([], ∅)
    | .ok timeoutDelays =>
      batchLaterEvals
        (fun k ↦ followupEval job evalPriority evalTriggerMaxDisconnectTimeout (ids k))
        (sortByRescheduleTime timeoutDelays)

/-! ### What the batching gives -/

/-- The follow-up evaluations `result.1` and the assignment `result.2` batch `infos`: each
allocation has one of the evaluations, whose window holds its time; the evaluations have distinct
identifiers and start a window apart; and no fewer windows cover the times. -/
structure BatchSpec (infos : List DelayedRescheduleInfo)
    (result : List Evaluation × GoMap String String) : Prop where
  assigned : ∀ info ∈ infos, ∃ e ∈ result.1, result.2.lookup info.allocID = some e.id ∧
    e.waitUntil ≤ info.rescheduleTime ∧
    info.rescheduleTime < e.waitUntil + batchedFailedAllocWindowSize
  ids : (result.1.map (·.id)).Nodup
  keys : ∀ id ∈ result.2, ∃ info ∈ infos, info.allocID = id
  spaced : (result.1.map (·.waitUntil)).IsChain fun a b ↦ a + batchedFailedAllocWindowSize ≤ b
  least : IsLeast {n | ∃ cs : Finset ℕ, cs.card = n ∧
    Windows.Covers batchedFailedAllocWindowSize cs (infos.map (·.rescheduleTime))}
    result.1.length

theorem batchSpec_nil : BatchSpec [] ([], ∅) where
  assigned := by simp
  ids := by simp
  keys := by simp
  spaced := by simp
  least := ⟨⟨∅, rfl, by simp [Windows.Covers]⟩, fun _ _ ↦ Nat.zero_le _⟩

/-- The batching promises nothing about the order of the infos. -/
theorem BatchSpec.perm {infos infos' : List DelayedRescheduleInfo}
    {result : List Evaluation × GoMap String String} (h : BatchSpec infos result)
    (hperm : infos.Perm infos') : BatchSpec infos' result where
  assigned info hinfo := h.assigned info (hperm.mem_iff.mpr hinfo)
  ids := h.ids
  keys id hid := by
    obtain ⟨info, hinfo, hkey⟩ := h.keys id hid
    exact ⟨info, hperm.mem_iff.mp hinfo, hkey⟩
  spaced := h.spaced
  least := by
    have htimes : ∀ t,
        t ∈ infos.map (·.rescheduleTime) ↔ t ∈ infos'.map (·.rescheduleTime) :=
      fun t ↦ (hperm.map _).mem_iff
    refine ⟨?_, fun n ⟨cs, hcard, hcov⟩ ↦
      h.least.2 ⟨cs, hcard, hcov.mono fun t ↦ (htimes t).mp⟩⟩
    obtain ⟨cs, hcard, hcov⟩ := h.least.1
    exact ⟨cs, hcard, hcov.mono fun t ↦ (htimes t).mpr⟩

/-! ### The loop -/

section Loop

variable {newEval : ℕ → ℕ → Evaluation}

/-- What the loop has built after the infos `done`, its first batch starting at `first`: the
evaluations made so far, in order, the last being the current one; their starts, a window apart
and each a time seen; and the follow-up evaluation of each allocation seen, whose window holds
the allocation's time. -/
structure LoopInv (newEval : ℕ → ℕ → Evaluation) (first : ℕ)
    (done : List DelayedRescheduleInfo) (s : LaterEvals) : Prop where
  made : ∀ e ∈ s.evals, ∃ k < s.evals.length, e = newEval k e.waitUntil
  ids : (s.evals.map (·.id)).Nodup
  current : s.eval ∈ s.evals
  current_start : s.eval.waitUntil = s.nextReschedTime
  last : (s.evals.map (·.waitUntil)).getLast? = some s.nextReschedTime
  spaced : (s.evals.map (·.waitUntil)).IsChain fun a b ↦ a + batchedFailedAllocWindowSize ≤ b
  starts : ∀ e ∈ s.evals,
    e.waitUntil = first ∨ ∃ info ∈ done, info.rescheduleTime = e.waitUntil
  assigned : ∀ info ∈ done, ∃ e ∈ s.evals,
    s.allocIDToFollowupEvalID.lookup info.allocID = some e.id ∧
      e.waitUntil ≤ info.rescheduleTime ∧
      info.rescheduleTime < e.waitUntil + batchedFailedAllocWindowSize
  keys : ∀ id ∈ s.allocIDToFollowupEvalID, ∃ info ∈ done, info.allocID = id

/-- The allocations assigned after one more turn are those seen. -/
theorem keys_insert {done : List DelayedRescheduleInfo} {m : GoMap String String}
    {info : DelayedRescheduleInfo} {v : String} (h : ∀ id ∈ m, ∃ d ∈ done, d.allocID = id) :
    ∀ id ∈ m.insert info.allocID v, ∃ d ∈ done ++ [info], d.allocID = id := by
  intro id hid
  rcases (AList.mem_insert _).mp hid with rfl | hid
  · exact ⟨info, by simp, rfl⟩
  · obtain ⟨d, hd, hkey⟩ := h id hid
    exact ⟨d, List.mem_append_left _ hd, hkey⟩

variable (hwait : ∀ k t, (newEval k t).waitUntil = t)
  (hid : ∀ k k' t t', (newEval k t).id = (newEval k' t').id → k = k')
include hwait

/-- Before the loop, the first batch's evaluation is made and no allocation is assigned. -/
theorem loopInv_init (first : ℕ) :
    LoopInv newEval first [] ⟨[newEval 0 first], newEval 0 first, first, ∅⟩ where
  made e he := ⟨0, by simp, by simp only [List.mem_singleton] at he; subst he; rw [hwait]⟩
  ids := by simp
  current := by simp
  current_start := hwait 0 first
  last := by simp [hwait]
  spaced := by simp
  starts e he := by simp only [List.mem_singleton] at he; subst he; exact .inl (hwait 0 first)
  assigned := by simp
  keys := by simp

include hid in
/-- One turn keeps the invariant, for an info at or after the current batch's start whose
allocation was not seen before. -/
theorem LoopInv.step {first : ℕ} {done : List DelayedRescheduleInfo} {s : LaterEvals}
    {info : DelayedRescheduleInfo} (h : LoopInv newEval first done s)
    (hnext : s.nextReschedTime ≤ info.rescheduleTime)
    (hfresh : ∀ d ∈ done, d.allocID ≠ info.allocID) :
    LoopInv newEval first (done ++ [info]) (batchStep newEval s info) := by
  unfold batchStep
  split_ifs with hwin
  · -- the info joins the current batch
    have hwin' : info.rescheduleTime < s.nextReschedTime + batchedFailedAllocWindowSize := by
      omega
    refine ⟨h.made, h.ids, h.current, h.current_start, h.last, h.spaced, fun e he ↦ ?_,
      fun d hd ↦ ?_, fun id hid' ↦ ?_⟩
    · rcases h.starts e he with hfirst | ⟨d, hd, hdt⟩
      · exact .inl hfirst
      · exact .inr ⟨d, List.mem_append_left _ hd, hdt⟩
    · rcases List.mem_append.mp hd with hd | hd
      · obtain ⟨e, he, hlookup, hle, hlt⟩ := h.assigned d hd
        exact ⟨e, he, by rw [AList.lookup_insert_ne (hfresh d hd)]; exact hlookup, hle, hlt⟩
      · rw [List.mem_singleton] at hd
        subst hd
        exact ⟨s.eval, h.current, AList.lookup_insert _, h.current_start ▸ hnext,
          h.current_start ▸ hwin'⟩
    · exact keys_insert h.keys id hid'
  · -- a new batch starts at the info's time, a window after the current one
    have hgap : s.nextReschedTime + batchedFailedAllocWindowSize ≤ info.rescheduleTime := by
      omega
    set E := newEval s.evals.length info.rescheduleTime with hEdef
    have hE : E.waitUntil = info.rescheduleTime := hwait _ _
    -- no evaluation made before has the new one's identifier
    have hnew : ∀ e ∈ s.evals, e.id ≠ E.id := by
      intro e he heq
      obtain ⟨k, hk, hke⟩ := h.made e he
      rw [hke] at heq
      exact absurd (hid _ _ _ _ heq) (Nat.ne_of_lt hk)
    refine ⟨fun e he ↦ ?_, ?_, by simp, hE, by simp [hE], ?_, fun e he ↦ ?_, fun d hd ↦ ?_,
      keys_insert h.keys⟩
    · rcases List.mem_append.mp he with he | he
      · obtain ⟨k, hk, hke⟩ := h.made e he
        exact ⟨k, by simp; omega, hke⟩
      · rw [List.mem_singleton] at he
        subst he
        exact ⟨s.evals.length, by simp, by rw [hE]⟩
    · rw [List.map_append, List.map_singleton]
      exact List.nodup_append.mpr ⟨h.ids, List.nodup_singleton _, by
        simp only [List.mem_map, List.mem_singleton]
        rintro _ ⟨e, he, rfl⟩ _ rfl
        exact hnew e he⟩
    · rw [List.map_append, List.map_singleton]
      refine h.spaced.append (by simp) fun x hx y hy ↦ ?_
      rw [h.last, Option.mem_some_iff] at hx
      simp only [List.head?_cons, Option.mem_some_iff] at hy
      rw [← hx, ← hy, hE]
      exact hgap
    · rcases List.mem_append.mp he with he | he
      · rcases h.starts e he with hfirst | ⟨d, hd, hdt⟩
        · exact .inl hfirst
        · exact .inr ⟨d, List.mem_append_left _ hd, hdt⟩
      · rw [List.mem_singleton] at he
        subst he
        exact .inr ⟨info, by simp, hE.symm⟩
    · rcases List.mem_append.mp hd with hd | hd
      · obtain ⟨e, he, hlookup, hle, hlt⟩ := h.assigned d hd
        exact ⟨e, List.mem_append_left _ he,
          by rw [AList.lookup_insert_ne (hfresh d hd)]; exact hlookup, hle, hlt⟩
      · rw [List.mem_singleton] at hd
        subst hd
        refine ⟨E, by simp, AList.lookup_insert _, hE.le, ?_⟩
        rw [hE]
        exact Nat.lt_add_of_pos_right (by decide)

omit hwait in
/-- After all the infos, with the first batch's start among their times, the invariant is what the
batching promises; the bound on the windows is that of separated starts covering the times. -/
theorem LoopInv.batchSpec {first : ℕ} {done : List DelayedRescheduleInfo} {s : LaterEvals}
    (h : LoopInv newEval first done s) (hfirst : first ∈ done.map (·.rescheduleTime)) :
    BatchSpec done (s.evals, s.allocIDToFollowupEvalID) where
  assigned := h.assigned
  ids := h.ids
  keys := h.keys
  spaced := h.spaced
  least := by
    have hsub : ∀ x ∈ s.evals.map (·.waitUntil), x ∈ done.map (·.rescheduleTime) := by
      simp only [List.mem_map]
      rintro _ ⟨e, he, rfl⟩
      rcases h.starts e he with hstart | ⟨d, hd, hdt⟩
      · rw [hstart]
        simpa using hfirst
      · exact ⟨d, hd, hdt⟩
    have hcov : Windows.Covers batchedFailedAllocWindowSize (s.evals.map (·.waitUntil)).toFinset
        (done.map (·.rescheduleTime)) := by
      intro t ht
      obtain ⟨d, hd, rfl⟩ := List.mem_map.mp ht
      obtain ⟨e, he, -, hle, hlt⟩ := h.assigned d hd
      exact ⟨e.waitUntil, List.mem_toFinset.mpr (List.mem_map_of_mem he), hle, hlt⟩
    have hleast := Windows.isLeast_card_covers (by decide)
      (Windows.separated_of_isChain (Nat.zero_le _) h.spaced) hsub hcov
    rwa [List.length_map] at hleast

include hid in
/-- The loop keeps the invariant over infos sorted by time, all at or after the first batch's
start, with distinct allocations. -/
theorem LoopInv.foldl {first : ℕ} {rest : List DelayedRescheduleInfo} :
    ∀ {done : List DelayedRescheduleInfo} {s : LaterEvals}, LoopInv newEval first done s →
      (done ++ rest).Pairwise (fun a b ↦ a.rescheduleTime ≤ b.rescheduleTime) →
      (∀ info ∈ rest, first ≤ info.rescheduleTime) →
      ((done ++ rest).map (·.allocID)).Nodup →
      LoopInv newEval first (done ++ rest) (rest.foldl (batchStep newEval) s) := by
  induction rest with
  | nil =>
    intro done s h _ _ _
    simpa using h
  | cons info rest ih =>
    intro done s h hsorted hfirst hnodup
    -- the current batch starts at `first` or at a time seen, so not after `info`
    have hnext : s.nextReschedTime ≤ info.rescheduleTime := by
      rw [← h.current_start]
      rcases h.starts s.eval h.current with hstart | ⟨d, hd, hdt⟩
      · rw [hstart]
        exact hfirst info (by simp)
      · rw [← hdt]
        exact (List.pairwise_append.mp hsorted).2.2 d hd info (by simp)
    have hfresh : ∀ d ∈ done, d.allocID ≠ info.allocID := by
      rw [List.map_append] at hnodup
      exact fun d hd ↦ (List.nodup_append.mp hnodup).2.2 _ (List.mem_map_of_mem hd) _ (by simp)
    have hrest := ih (h.step hwait hid hnext hfresh) (by simpa using hsorted)
      (fun i hi ↦ hfirst i (by simp [hi])) (by simpa using hnodup)
    rw [List.append_assoc, List.singleton_append] at hrest
    exact hrest

include hid in
/-- Over infos sorted by time with distinct allocations, the batching keeps its promises. -/
theorem batchLaterEvals_spec {sorted : List DelayedRescheduleInfo}
    (hsorted : sorted.Pairwise fun a b ↦ a.rescheduleTime ≤ b.rescheduleTime)
    (hnodup : (sorted.map (·.allocID)).Nodup) :
    BatchSpec sorted (batchLaterEvals newEval sorted) := by
  cases sorted with
  | nil => exact batchSpec_nil
  | cons first rest =>
    have hfirst : ∀ info ∈ first :: rest, first.rescheduleTime ≤ info.rescheduleTime := by
      intro info hinfo
      rcases List.mem_cons.mp hinfo with rfl | hinfo
      · exact le_rfl
      · exact List.rel_of_pairwise_cons hsorted hinfo
    have h := (loopInv_init hwait first.rescheduleTime).foldl hwait hid
      (by simpa using hsorted) hfirst (by simpa using hnodup)
    rw [List.nil_append] at h
    exact h.batchSpec (by simp)

end Loop

/-! ### The two functions -/

theorem sortByRescheduleTime_sorted (infos : List DelayedRescheduleInfo) :
    (sortByRescheduleTime infos).Pairwise fun a b ↦ a.rescheduleTime ≤ b.rescheduleTime := by
  have : Std.Total fun a b : DelayedRescheduleInfo ↦ a.rescheduleTime ≤ b.rescheduleTime :=
    ⟨fun a b ↦ le_total a.rescheduleTime b.rescheduleTime⟩
  have : IsTrans DelayedRescheduleInfo fun a b ↦ a.rescheduleTime ≤ b.rescheduleTime :=
    ⟨fun _ _ _ hab hbc ↦ hab.trans hbc⟩
  exact List.pairwise_insertionSort _ infos

theorem sortByRescheduleTime_perm (infos : List DelayedRescheduleInfo) :
    (sortByRescheduleTime infos).Perm infos :=
  List.perm_insertionSort _ _

/-- Sorting and batching keeps the promises for the infos as given, whatever the trigger. -/
theorem batchLaterEvals_sortByRescheduleTime (job : Job) (evalPriority : ℤ) (triggeredBy : String)
    {ids : ℕ → String} (hids : Function.Injective ids) {infos : List DelayedRescheduleInfo}
    (hnodup : (infos.map (·.allocID)).Nodup) :
    BatchSpec infos (batchLaterEvals (fun k ↦ followupEval job evalPriority triggeredBy (ids k))
      (sortByRescheduleTime infos)) :=
  (batchLaterEvals_spec (fun _ _ ↦ rfl) (fun _ _ _ _ h ↦ hids h)
    (sortByRescheduleTime_sorted infos)
    (((sortByRescheduleTime_perm infos).map _).nodup_iff.mpr hnodup)).perm
    (sortByRescheduleTime_perm infos)

/-- Both functions batch their infos: each allocation has one follow-up evaluation among those
appended, whose window of five seconds from its `WaitUntil` holds the allocation's time; the
evaluations start at least five seconds apart, in increasing order; and no fewer windows of five
seconds cover the times. -/
theorem later_evals_batched (job : Job) (evalPriority : ℤ) (ids : ℕ → String)
    (hids : Function.Injective ids) (infos : List DelayedRescheduleInfo)
    (hnodup : (infos.map (·.allocID)).Nodup) :
    BatchSpec infos (createLostLaterEvals job evalPriority ids infos) ∧
      ∀ (disconnecting : AllocSet) (now : ℕ) (disconnectTimeout : Allocation → ℕ),
        delayByMaxClientDisconnect disconnecting now disconnectTimeout = .ok infos →
        BatchSpec infos
          (createTimeoutLaterEvals job evalPriority ids disconnecting now disconnectTimeout) := by
  refine ⟨batchLaterEvals_sortByRescheduleTime job evalPriority _ hids hnodup, ?_⟩
  intro disconnecting now disconnectTimeout hdelays
  unfold createTimeoutLaterEvals
  split_ifs with hempty
  · -- no allocation, so no delay
    have hnil : disconnecting.entries = [] := List.eq_nil_of_length_eq_zero hempty
    simp only [delayByMaxClientDisconnect, values, hnil, List.map_nil, List.mapM_nil] at hdelays
    cases hdelays
    exact batchSpec_nil
  · rw [hdelays]
    exact batchLaterEvals_sortByRescheduleTime job evalPriority _ hids hnodup

/-- Distinct identifiers: the `k`-th is `k + 1` letters long. -/
def letterIDs (k : ℕ) : String := String.ofList (List.replicate (k + 1) 'e')

theorem letterIDs_injective : Function.Injective letterIDs := by
  intro a b h
  have hlen := congrArg String.length h
  simpa [letterIDs] using hlen

/-- Three allocations to reschedule: two within five seconds of each other, and one later. -/
def threeInfos : List DelayedRescheduleInfo :=
  [⟨"a3", 9000000000⟩, ⟨"a1", 1000000000⟩, ⟨"a2", 4000000000⟩]

theorem later_evals_batched_threeInfos :
    (threeInfos.map (·.allocID)).Nodup ∧
      BatchSpec threeInfos (createLostLaterEvals {} 50 letterIDs threeInfos) :=
  ⟨by decide +kernel,
    (later_evals_batched {} 50 letterIDs letterIDs_injective threeInfos (by decide +kernel)).1⟩

example : (createLostLaterEvals {} 50 letterIDs threeInfos).1.map (·.waitUntil) =
    [1000000000, 9000000000] := by
  decide +kernel

end Wander.Scheduler
