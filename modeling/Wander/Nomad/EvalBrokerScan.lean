import Mathlib.Data.List.Induction
import Mathlib.Logic.Relation
import Wander.Nomad.EvalBroker

/-!
# What a dequeue delivers

`scanForSchedulers` compares the listed schedulers by the priority of their ready queues'
`Peek` and dequeues one whose `Peek` has the highest priority. `Peek` reads the last element of
the slice, while `heap.Pop` returns the root at position 0, so the scan compares the last
elements and delivers a root.

`eligibleSchedulers_inv` is the invariant of the scan's loop, with one lemma per branch of its
body, and `scanForSchedulers_delivers_root` says what a scan that delivers has done. A queue whose
root has a high priority and whose last element a low one is passed over for a queue of middle
priority (`scanForSchedulers_passes_higher_priority`).
-/

set_option autoImplicit false
set_option relaxedAutoImplicit false

namespace Wander.Nomad

open Wander.Lib Wander.Structs

namespace EvalBroker

variable {b : EvalBroker}

variable (b) in
/-- What the scan keeps after the schedulers `pre`: each eligible scheduler was listed and its
`Peek` has the kept priority, and every listed scheduler with a `Peek` has made the list
non-empty with a priority no higher. -/
def ScanInv (pre : List String) (acc : List String × ℤ) : Prop :=
  (∀ s ∈ acc.1, s ∈ pre ∧ ∃ r, (b.ready.lookup s).bind readyPeek = some r ∧ r.priority = acc.2) ∧
    ∀ s ∈ pre, ∀ r, (b.ready.lookup s).bind readyPeek = some r → acc.1 ≠ [] ∧ r.priority ≤ acc.2

namespace ScanInv

variable {pre : List String} {acc : List String × ℤ} {sched : String}

/-- A scheduler without a ready queue or with an empty one is passed over. -/
theorem skip (h : b.ScanInv pre acc) (hpeek : (b.ready.lookup sched).bind readyPeek = none) :
    b.ScanInv (pre ++ [sched]) acc := by
  refine ⟨fun s hs ↦ ?_, fun s hs r hr ↦ ?_⟩
  · obtain ⟨hpre, hr⟩ := h.1 s hs
    exact ⟨List.mem_append_left _ hpre, hr⟩
  · rcases List.mem_append.mp hs with hs | hs
    · exact h.2 s hs r hr
    · rw [List.mem_singleton.mp hs, hpeek] at hr
      cases hr

/-- A scheduler whose `Peek` has a lower priority than one seen is passed over. -/
theorem lower {r : Evaluation} (h : b.ScanInv pre acc)
    (hpeek : (b.ready.lookup sched).bind readyPeek = some r) (hne : acc.1 ≠ [])
    (hle : r.priority ≤ acc.2) : b.ScanInv (pre ++ [sched]) acc := by
  refine ⟨fun s hs ↦ ?_, fun s hs r' hr' ↦ ?_⟩
  · obtain ⟨hpre, hr⟩ := h.1 s hs
    exact ⟨List.mem_append_left _ hpre, hr⟩
  · rcases List.mem_append.mp hs with hs | hs
    · exact h.2 s hs r' hr'
    · rw [List.mem_singleton.mp hs, hpeek] at hr'
      cases hr'
      exact ⟨hne, hle⟩

/-- A scheduler whose `Peek` has a higher priority than every one seen, or the first one with a
`Peek`, becomes the only eligible one. -/
theorem replace {r : Evaluation} (h : b.ScanInv pre acc)
    (hpeek : (b.ready.lookup sched).bind readyPeek = some r)
    (hgt : acc.1.length = 0 ∨ acc.2 < r.priority) :
    b.ScanInv (pre ++ [sched]) ([sched], r.priority) := by
  refine ⟨fun s hs ↦ ?_, fun s hs r' hr' ↦ ⟨List.cons_ne_nil _ _, ?_⟩⟩
  · rw [List.mem_singleton.mp hs]
    exact ⟨List.mem_append_right _ (List.mem_singleton_self _), r, hpeek, rfl⟩
  · rcases List.mem_append.mp hs with hs | hs
    · -- a scheduler seen before made the list non-empty, so the priority rose
      obtain ⟨hne, hle⟩ := h.2 s hs r' hr'
      rcases hgt with hzero | hlt
      · exact absurd (List.length_eq_zero_iff.mp hzero) hne
      · exact le_of_lt (lt_of_le_of_lt hle hlt)
    · rw [List.mem_singleton.mp hs, hpeek] at hr'
      cases hr'
      exact le_refl _

/-- A scheduler whose `Peek` ties the priority seen joins the eligible ones. -/
theorem tie {r : Evaluation} (h : b.ScanInv pre acc)
    (hpeek : (b.ready.lookup sched).bind readyPeek = some r) (hne : acc.1 ≠ [])
    (heq : r.priority = acc.2) : b.ScanInv (pre ++ [sched]) (acc.1 ++ [sched], acc.2) := by
  refine ⟨fun s hs ↦ ?_, fun s hs r' hr' ↦ ⟨fun hnil ↦ hne (List.append_eq_nil_iff.mp hnil).1, ?_⟩⟩
  · rcases List.mem_append.mp hs with hs | hs
    · obtain ⟨hpre, hr⟩ := h.1 s hs
      exact ⟨List.mem_append_left _ hpre, hr⟩
    · rw [List.mem_singleton.mp hs]
      exact ⟨List.mem_append_right _ (List.mem_singleton_self _), r, hpeek, heq⟩
  · rcases List.mem_append.mp hs with hs | hs
    · exact (h.2 s hs r' hr').2
    · rw [List.mem_singleton.mp hs, hpeek] at hr'
      cases hr'
      exact le_of_eq heq

end ScanInv

variable (b) in
/-- The scan keeps its invariant over the whole list of schedulers. -/
theorem eligibleSchedulers_inv (schedulers : List String) :
    b.ScanInv schedulers (b.eligibleSchedulers schedulers) := by
  induction schedulers using List.reverseRecOn with
  | nil => exact ⟨fun _ h ↦ absurd h List.not_mem_nil, fun _ h ↦ absurd h List.not_mem_nil⟩
  | append_singleton pre sched ih =>
    unfold eligibleSchedulers at ih ⊢
    rw [List.foldl_append, List.foldl_cons, List.foldl_nil]
    generalize pre.foldl _ (([], 0) : List String × ℤ) = acc at ih ⊢
    -- the four branches of the loop body
    split
    next hpeek => exact ih.skip hpeek
    next r hpeek =>
      by_cases hgt : acc.1.length = 0 ∨ acc.2 < r.priority
      · rw [if_pos hgt]
        exact ih.replace hpeek hgt
      · have hne : acc.1 ≠ [] := fun hnil ↦ hgt (Or.inl (List.length_eq_zero_iff.mpr hnil))
        rw [if_neg hgt]
        by_cases hlt : r.priority < acc.2
        · rw [if_pos hlt]
          exact ih.lower hpeek hne (le_of_lt hlt)
        · rw [if_neg hlt]
          exact ih.tie hpeek hne (by omega)

variable (b) in
/-- `dequeueForSched` delivers the root of the queue, where `container/heap` keeps the element
least under `ReadyEvaluations.Less`. -/
theorem dequeueForSched_snd (sched token : String) :
    (b.dequeueForSched sched token).2 = (GoMap.get b.ready sched []).head? := by
  have hpop := Heap.pop_snd (Heap.slice_view readyLess) (GoMap.get b.ready sched [])
  unfold dequeueForSched
  dsimp only
  split <;> next heq => rw [← heq]; exact hpop

/-- A scan that delivers dequeues one of the schedulers it found eligible. -/
theorem scanForSchedulers_picks {schedulers : List String} {offset : ℕ} {token : String}
    {b' : EvalBroker} {e : Evaluation}
    (h : b.scanForSchedulers schedulers offset token = (b', .ok (some e))) :
    ∃ sched ∈ (b.eligibleSchedulers schedulers).1, b.dequeueForSched sched token = (b', some e) := by
  unfold scanForSchedulers at h
  split at h
  · cases h
  split at h
  · cases h
  next sched heq =>
    simp only [Prod.mk.injEq, Except.ok.injEq] at h
    exact ⟨sched, by rw [heq]; exact List.mem_singleton_self _, Prod.ext h.1 h.2⟩
  next eligible _ _ =>
    split at h
    next sched hget =>
      simp only [Prod.mk.injEq, Except.ok.injEq] at h
      exact ⟨sched, List.mem_of_getElem? hget, Prod.ext h.1 h.2⟩
    next => cases h

/-- `scanForSchedulers` delivers the root of the ready queue of a listed scheduler, and that
queue's `Peek` has the highest priority of the listed queues' `Peek`s. `Peek` reads the last
element of the slice, not the root, so this bounds the priorities of the last elements only. -/
theorem scanForSchedulers_delivers_root {schedulers : List String} {offset : ℕ} {token : String}
    {b' : EvalBroker} {e : Evaluation}
    (h : b.scanForSchedulers schedulers offset token = (b', .ok (some e))) :
    ∃ sched ∈ schedulers, ∃ top, (b.ready.lookup sched).bind readyPeek = some top ∧
      (GoMap.get b.ready sched []).head? = some e ∧ b' = (b.dequeueForSched sched token).1 ∧
      ∀ s ∈ schedulers, ∀ r, (b.ready.lookup s).bind readyPeek = some r →
        r.priority ≤ top.priority := by
  obtain ⟨sched, helig, hdeq⟩ := scanForSchedulers_picks h
  obtain ⟨hkept, hseen⟩ := b.eligibleSchedulers_inv schedulers
  obtain ⟨hmem, top, htop, hprio⟩ := hkept sched helig
  refine ⟨sched, hmem, top, htop, ?_, by rw [hdeq], fun s hs r hr ↦ ?_⟩
  · rw [← dequeueForSched_snd, hdeq]
  · rw [hprio]
    exact (hseen s hs r hr).2

/-- Three evaluations of different jobs: two for the service scheduler, the first of the higher
priority, and one of a middle priority for the batch scheduler. -/
def serviceHigh : Evaluation :=
  { id := "e1", jobID := "j1", type := "service", priority := 50, createIndex := 1 }

def serviceLow : Evaluation :=
  { id := "e2", jobID := "j2", type := "service", priority := 10, createIndex := 2 }

def batchMid : Evaluation :=
  { id := "e3", jobID := "j3", type := "batch", priority := 30, createIndex := 3 }

/-- The broker after the three are enqueued: the service queue is the slice
`[serviceHigh, serviceLow]`, whose root is the first and whose `Peek` is the second. -/
def threeReadyBroker : EvalBroker :=
  (((newEnabledEvalBroker 3 0 0).enqueue serviceHigh).enqueue serviceLow).enqueue batchMid

theorem scanForSchedulers_passes_higher_priority :
    Relation.ReflTransGen Step (newEnabledEvalBroker 3 0 0) threeReadyBroker ∧
      (threeReadyBroker.scanForSchedulers ["service", "batch"] 0 "t").2 = .ok (some batchMid) ∧
      serviceHigh ∈ GoMap.get threeReadyBroker.ready "service" [] ∧
      batchMid.priority < serviceHigh.priority :=
  ⟨.tail (.tail (.single (Step.enqueue _ _ (by decide))) (Step.enqueue _ _ (by decide)))
    (Step.enqueue _ _ (by decide)), rfl, by decide, by decide⟩

theorem scanForSchedulers_delivers_root_threeReady :
    ∃ sched ∈ ["service", "batch"],
      (GoMap.get threeReadyBroker.ready sched []).head? = some batchMid := by
  obtain ⟨sched, hmem, -, -, hroot, -⟩ := @scanForSchedulers_delivers_root threeReadyBroker
    ["service", "batch"] 0 "t" _ batchMid (Prod.ext rfl rfl)
  exact ⟨sched, hmem, hroot⟩

end EvalBroker

end Wander.Nomad
