import Wander.Nomad.BlockedEvals
import Mathlib.Logic.Relation

/-!
# No lost wake-up between `Block` and `Unblock`

An evaluation blocked at snapshot index `s` and a class unblock at a later index meet in one of
two orders. Blocked first, the evaluation waits in `captured` or `escaped` until `watchCapacity`
takes the unblock's update off the channel; unblocked first, `missedUnblock` finds the recorded
index at the block and hands the evaluation back at once. `wakeup_blockFirst` and
`wakeup_unblockFirst` prove that either way the evaluation is handed to the broker and is no longer
blocked once the update has been consumed, for any number of other updates consumed in between.

The evaluation must not be superseded (`NotSuperseded`): a block of an evaluation whose job has a
blocked evaluation with a newer index makes the new one a duplicate (`processBlock_superseded`), and
no broker hand-over is due then (`blocked_eval_superseded_not_woken`). An older blocked evaluation
of the job is displaced instead, and the block goes on as if the job had none. The class must not
be empty: an unblock of the empty class, which only a quota update queues, passes over escaped
evaluations.

The proofs rest on what one `watchCapacityStep` does to each entry (`unblockLocked_captured`,
`unblockLocked_escaped`, `unblockLocked_snd`): an entry is kept, or deleted and handed over, and no
entry is added. The reachable states keep every escaped evaluation out of `captured`
(`CapturedNotEscaped`).
-/

set_option autoImplicit false
set_option relaxedAutoImplicit false

namespace Wander.Nomad

open Wander.Lib Wander.Structs

namespace BlockedEvals

/-- Whether an evaluation is held in `captured` or `escaped`. -/
def isBlocked (b : BlockedEvals) (e : Evaluation) : Bool :=
  (GoMap.values b.captured ++ GoMap.values b.escaped).any fun w ↦ decide (w.eval = e)

theorem isBlocked_eq_false {b : BlockedEvals} {e : Evaluation}
    (hcap : ∀ k w, b.captured.lookup k = some w → w.eval ≠ e)
    (hesc : ∀ k w, b.escaped.lookup k = some w → w.eval ≠ e) : b.isBlocked e = false := by
  rw [isBlocked, List.any_eq_false]
  intro w hw
  rcases List.mem_append.mp hw with hw | hw
  · obtain ⟨k, hk⟩ := GoMap.mem_values_iff.mp hw
    simpa using hcap k w hk
  · obtain ⟨k, hk⟩ := GoMap.mem_values_iff.mp hw
    simpa using hesc k w hk

/-- `w` is held under the key `k`, captured or escaped. -/
def HasEntry (b : BlockedEvals) (k : String) (w : WrappedEval) : Prop :=
  b.captured.lookup k = some w ∨ b.escaped.lookup k = some w

theorem isBlocked_of_lookup {b : BlockedEvals} {k : String} {w : WrappedEval}
    (hk : HasEntry b k w) : b.isBlocked w.eval = true := by
  rw [isBlocked, List.any_eq_true]
  refine ⟨w, ?_, by simp⟩
  rcases hk with hk | hk
  · exact List.mem_append_left _ (GoMap.mem_values_iff.mpr ⟨k, hk⟩)
  · exact List.mem_append_right _ (GoMap.mem_values_iff.mpr ⟨k, hk⟩)

/-! ### The unblocking loops -/

section Release

theorem foldl_release_snd (l : List WrappedEval)
    (acc : GoMap NamespacedID String × List (Evaluation × String)) :
    (l.foldl release acc).2 = acc.2 ++ l.map fun w ↦ (w.eval, w.token) := by
  induction l generalizing acc with
  | nil => simp
  | cons w t ih =>
    rw [List.foldl_cons, ih]
    simp [release]

theorem lookup_foldl_release (l : List WrappedEval)
    (acc : GoMap NamespacedID String × List (Evaluation × String)) {k : NamespacedID} {v : String}
    (h : (l.foldl release acc).1.lookup k = some v) : acc.1.lookup k = some v := by
  induction l generalizing acc with
  | nil => exact h
  | cons w t ih => exact GoMap.lookup_of_lookup_erase (ih _ h)

end Release

section UnblockLocked

variable {b : BlockedEvals} {computedClass quota : String} {index : ℕ}

@[simp] theorem unblockLocked_enabled :
    (b.unblockLocked computedClass quota index).1.enabled = b.enabled := by
  unfold unblockLocked
  split <;> rfl

@[simp] theorem unblockLocked_unblockIndexes :
    (b.unblockLocked computedClass quota index).1.unblockIndexes = b.unblockIndexes := by
  unfold unblockLocked
  split <;> rfl

@[simp] theorem unblockLocked_capacityChangeCh :
    (b.unblockLocked computedClass quota index).1.capacityChangeCh = b.capacityChangeCh := by
  unfold unblockLocked
  split <;> rfl

/-- `unblock` keeps exactly the captured evaluations `capturedUnblocked` passes over. -/
theorem unblockLocked_captured (hb : b.enabled = true) (k : String) :
    (b.unblockLocked computedClass quota index).1.captured.lookup k =
      (b.captured.lookup k).filter fun w ↦ !capturedUnblocked computedClass quota w := by
  simp only [unblockLocked, hb, Bool.not_true, Bool.false_eq_true, if_false]
  exact GoMap.rangeDelete_lookup _ _ _ _ _

/-- A class unblock empties `escaped`; a quota unblock leaves it. -/
theorem unblockLocked_escaped (hb : b.enabled = true) (k : String) :
    (b.unblockLocked computedClass quota index).1.escaped.lookup k =
      if b.escaped.entries.length ≠ 0 ∧ computedClass ≠ "" then none else b.escaped.lookup k := by
  simp only [unblockLocked, hb, Bool.not_true, Bool.false_eq_true, if_false]
  split
  · rw [GoMap.rangeDelete_lookup]
    cases b.escaped.lookup k <;> rfl
  · rfl

/-- What `unblock` hands over: the escaped evaluations of a class unblock, then the captured
evaluations `capturedUnblocked` admits. -/
theorem unblockLocked_snd (hb : b.enabled = true) :
    (b.unblockLocked computedClass quota index).2 =
      (if b.escaped.entries.length ≠ 0 ∧ computedClass ≠ "" then
          (GoMap.released (fun _ ↦ true) b.escaped).map fun w ↦ (w.eval, w.token)
        else []) ++
        (GoMap.released (capturedUnblocked computedClass quota) b.captured).map
          fun w ↦ (w.eval, w.token) := by
  simp only [unblockLocked, hb, Bool.not_true, Bool.false_eq_true, if_false]
  rw [GoMap.rangeDelete_snd, foldl_release_snd]
  split
  · rw [GoMap.rangeDelete_snd, foldl_release_snd]
    simp
  · simp

theorem unblockLocked_jobs (hb : b.enabled = true) {k : NamespacedID} {v : String}
    (h : (b.unblockLocked computedClass quota index).1.jobs.lookup k = some v) :
    b.jobs.lookup k = some v := by
  simp only [unblockLocked, hb, Bool.not_true, Bool.false_eq_true, if_false] at h
  rw [GoMap.rangeDelete_snd] at h
  have h' := lookup_foldl_release _ _ h
  split at h'
  · rw [GoMap.rangeDelete_snd] at h'
    exact lookup_foldl_release _ _ h'
  · exact h'

/-- An entry of `captured` is kept by `unblock`, or deleted and handed over. -/
theorem unblockLocked_captured_or (hb : b.enabled = true) {k : String} {w : WrappedEval}
    (hk : b.captured.lookup k = some w) :
    (b.unblockLocked computedClass quota index).1.captured.lookup k = some w ∨
      (w.eval, w.token) ∈ (b.unblockLocked computedClass quota index).2 := by
  cases hw : capturedUnblocked computedClass quota w
  · left
    rw [unblockLocked_captured hb, hk]
    simp [Option.filter, hw]
  · right
    rw [unblockLocked_snd hb]
    refine List.mem_append_right _ (List.mem_map_of_mem (GoMap.mem_released.mpr ⟨k, hk, hw⟩))

/-- An entry of `escaped` is kept by `unblock`, or deleted and handed over. -/
theorem unblockLocked_escaped_or (hb : b.enabled = true) {k : String} {w : WrappedEval}
    (hk : b.escaped.lookup k = some w) :
    (b.unblockLocked computedClass quota index).1.escaped.lookup k = some w ∨
      (w.eval, w.token) ∈ (b.unblockLocked computedClass quota index).2 := by
  by_cases hrun : b.escaped.entries.length ≠ 0 ∧ computedClass ≠ ""
  · right
    rw [unblockLocked_snd hb, if_pos hrun]
    exact List.mem_append_left _ (List.mem_map_of_mem (GoMap.mem_released.mpr ⟨k, hk, rfl⟩))
  · left
    rw [unblockLocked_escaped hb, if_neg hrun, hk]

end UnblockLocked

/-! ### Runs of `watchCapacity` -/

section Watch

variable {b : BlockedEvals}

/-- What one iteration of `watchCapacity` leaves of the tracker, as a relation: the channel loses
its head, nothing else but `captured`, `escaped` and `jobs` changes, and those only lose entries. -/
structure Shrinks (b b' : BlockedEvals) : Prop where
  enabled : b'.enabled = b.enabled
  unblockIndexes : b'.unblockIndexes = b.unblockIndexes
  captured : ∀ k w, b'.captured.lookup k = some w → b.captured.lookup k = some w
  escaped : ∀ k w, b'.escaped.lookup k = some w → b.escaped.lookup k = some w
  jobs : ∀ k v, b'.jobs.lookup k = some v → b.jobs.lookup k = some v

theorem Shrinks.refl (b : BlockedEvals) : Shrinks b b :=
  ⟨rfl, rfl, fun _ _ h ↦ h, fun _ _ h ↦ h, fun _ _ h ↦ h⟩

theorem Shrinks.trans {b₁ b₂ b₃ : BlockedEvals} (h₁ : Shrinks b₁ b₂) (h₂ : Shrinks b₂ b₃) :
    Shrinks b₁ b₃ :=
  ⟨h₂.enabled.trans h₁.enabled, h₂.unblockIndexes.trans h₁.unblockIndexes,
    fun k w h ↦ h₁.captured k w (h₂.captured k w h), fun k w h ↦ h₁.escaped k w (h₂.escaped k w h),
    fun k v h ↦ h₁.jobs k v (h₂.jobs k v h)⟩

theorem watchCapacityStep_cons {update : CapacityUpdate} {rest : List CapacityUpdate}
    (h : b.capacityChangeCh = update :: rest) :
    b.watchCapacityStep = ({ b with capacityChangeCh := rest }).unblockLocked update.computedClass
      update.quotaChange update.index := by
  simp [watchCapacityStep, h]

@[simp] theorem watchCapacityStep_capacityChangeCh :
    b.watchCapacityStep.1.capacityChangeCh = b.capacityChangeCh.tail := by
  unfold watchCapacityStep
  split
  · rename_i h
    simp [h]
  · rename_i update rest h
    simp [h]

theorem watchCapacityStep_shrinks (b : BlockedEvals) : Shrinks b b.watchCapacityStep.1 := by
  unfold watchCapacityStep
  split
  · exact Shrinks.refl b
  · rename_i update rest _
    by_cases hb : b.enabled = true
    · have hb' : ({ b with capacityChangeCh := rest } : BlockedEvals).enabled = true := hb
      refine ⟨by simp, by simp, fun k w h ↦ ?_, fun k w h ↦ ?_, fun k v h ↦ unblockLocked_jobs hb' h⟩
      · rw [unblockLocked_captured hb'] at h
        exact Option.eq_some_of_filter_eq_some h
      · rw [unblockLocked_escaped hb'] at h
        split at h
        · exact absurd h (by simp)
        · exact h
    · have hoff : ({ b with capacityChangeCh := rest } : BlockedEvals).unblockLocked
          update.computedClass update.quotaChange update.index =
          ({ b with capacityChangeCh := rest }, []) := by
        simp [unblockLocked, hb]
      rw [hoff]
      exact ⟨rfl, rfl, fun _ _ h ↦ h, fun _ _ h ↦ h, fun _ _ h ↦ h⟩

theorem watchCapacity_shrinks (n : ℕ) (b : BlockedEvals) : Shrinks b (watchCapacity n b).1 := by
  induction n generalizing b with
  | zero => exact Shrinks.refl b
  | succ n ih => exact (watchCapacityStep_shrinks b).trans (ih _)

@[simp] theorem watchCapacity_capacityChangeCh (n : ℕ) (b : BlockedEvals) :
    (watchCapacity n b).1.capacityChangeCh = b.capacityChangeCh.drop n := by
  induction n generalizing b with
  | zero => rfl
  | succ n ih =>
    rw [watchCapacity, ih, watchCapacityStep_capacityChangeCh, List.drop_tail]

theorem watchCapacity_add (k n : ℕ) (b : BlockedEvals) :
    (watchCapacity n (watchCapacity k b).1).1 = (watchCapacity (k + n) b).1 := by
  induction k generalizing b with
  | zero => simp [watchCapacity]
  | succ k ih =>
    rw [Nat.succ_add]
    exact ih _

/-- An entry of `captured` is kept along a run of `watchCapacity`, or handed over in it. -/
theorem watchCapacity_captured_or (hb : b.enabled = true) (n : ℕ) {k : String} {w : WrappedEval}
    (hk : b.captured.lookup k = some w) :
    (watchCapacity n b).1.captured.lookup k = some w ∨ (w.eval, w.token) ∈ (watchCapacity n b).2 := by
  induction n generalizing b with
  | zero => exact Or.inl hk
  | succ n ih =>
    have hstep : b.watchCapacityStep.1.captured.lookup k = some w ∨
        (w.eval, w.token) ∈ b.watchCapacityStep.2 := by
      unfold watchCapacityStep
      split
      · exact Or.inl hk
      · refine unblockLocked_captured_or ?_ ?_
        · exact hb
        · exact hk
    rcases hstep with hstep | hstep
    · rcases ih ((watchCapacityStep_shrinks b).enabled.trans hb) hstep with h | h
      · exact Or.inl h
      · exact Or.inr (List.mem_append_right _ h)
    · exact Or.inr (List.mem_append_left _ hstep)

/-- An entry of `escaped` is kept along a run of `watchCapacity`, or handed over in it. -/
theorem watchCapacity_escaped_or (hb : b.enabled = true) (n : ℕ) {k : String} {w : WrappedEval}
    (hk : b.escaped.lookup k = some w) :
    (watchCapacity n b).1.escaped.lookup k = some w ∨ (w.eval, w.token) ∈ (watchCapacity n b).2 := by
  induction n generalizing b with
  | zero => exact Or.inl hk
  | succ n ih =>
    have hstep : b.watchCapacityStep.1.escaped.lookup k = some w ∨
        (w.eval, w.token) ∈ b.watchCapacityStep.2 := by
      unfold watchCapacityStep
      split
      · exact Or.inl hk
      · refine unblockLocked_escaped_or ?_ ?_
        · exact hb
        · exact hk
    rcases hstep with hstep | hstep
    · rcases ih ((watchCapacityStep_shrinks b).enabled.trans hb) hstep with h | h
      · exact Or.inl h
      · exact Or.inr (List.mem_append_right _ h)
    · exact Or.inr (List.mem_append_left _ hstep)

theorem watchCapacity_entry_or (hb : b.enabled = true) (n : ℕ) {k : String} {w : WrappedEval}
    (hk : HasEntry b k w) :
    HasEntry (watchCapacity n b).1 k w ∨ (w.eval, w.token) ∈ (watchCapacity n b).2 := by
  rcases hk with hk | hk
  · exact (watchCapacity_captured_or hb n hk).imp_left Or.inl
  · exact (watchCapacity_escaped_or hb n hk).imp_left Or.inr

/-- Once `watchCapacity` has consumed a class update, `escaped` is empty and every captured
evaluation left is one `capturedUnblocked` passes over for that update. -/
theorem watchCapacity_class (hb : b.enabled = true) {pre post : List CapacityUpdate}
    {computedClass quota : String} {index : ℕ}
    (hch : b.capacityChangeCh = pre ++ ⟨computedClass, quota, index⟩ :: post)
    (hclass : computedClass ≠ "") {n : ℕ} (hn : pre.length < n) :
    (∀ k, (watchCapacity n b).1.escaped.lookup k = none) ∧
      ∀ k w, (watchCapacity n b).1.captured.lookup k = some w →
        capturedUnblocked computedClass quota w = false := by
  -- The induction is on the updates ahead of this one.
  induction pre generalizing b n with
  | nil =>
    obtain ⟨m, rfl⟩ : ∃ m, n = m + 1 := ⟨n - 1, by simp at hn; omega⟩
    have hstep := watchCapacityStep_cons hch
    have hb' : ({ b with capacityChangeCh := post } : BlockedEvals).enabled = true := hb
    have hrun := watchCapacity_shrinks m b.watchCapacityStep.1
    change (∀ k, (watchCapacity m b.watchCapacityStep.1).1.escaped.lookup k = none) ∧
      ∀ k w, (watchCapacity m b.watchCapacityStep.1).1.captured.lookup k = some w →
        capturedUnblocked computedClass quota w = false
    refine ⟨fun k ↦ ?_, fun k w h ↦ ?_⟩
    · cases h : (watchCapacity m b.watchCapacityStep.1).1.escaped.lookup k with
      | none => rfl
      | some w =>
        have h' := hrun.escaped k w h
        rw [hstep, unblockLocked_escaped hb'] at h'
        split at h'
        · exact absurd h' (by simp)
        · rename_i hrun'
          -- With a non-empty `escaped` the class update would have emptied it.
          have hne : b.escaped.entries.length ≠ 0 := by
            intro hzero
            rw [List.length_eq_zero_iff] at hzero
            have hmem := AList.mem_lookup_iff.mp h'
            simp [hzero] at hmem
          exact absurd ⟨hne, hclass⟩ hrun'
    · have h' := hrun.captured k w h
      rw [hstep, unblockLocked_captured hb'] at h'
      cases hw : capturedUnblocked computedClass quota w
      · rfl
      · rw [Option.filter_eq_some_iff] at h'
        simp [hw] at h'
  | cons u pre ih =>
    obtain ⟨m, rfl⟩ : ∃ m, n = m + 1 := ⟨n - 1, by simp at hn; omega⟩
    have hch' : b.watchCapacityStep.1.capacityChangeCh = pre ++ ⟨computedClass, quota, index⟩ :: post := by
      simp [hch]
    exact ih ((watchCapacityStep_shrinks b).enabled.trans hb) hch' (by simp at hn; omega)

end Watch

/-! ### Blocking and recording an unblock -/

section Block

variable {b : BlockedEvals} {e : Evaluation} {token : String}

theorem processBlockJobDuplicate_shrinks (b : BlockedEvals) (e : Evaluation) :
    Shrinks b (b.processBlockJobDuplicate e).1 := by
  unfold processBlockJobDuplicate
  split
  · exact Shrinks.refl b
  · split
    · split
      · exact ⟨rfl, rfl, fun _ _ h ↦ GoMap.lookup_of_lookup_erase h, fun _ _ h ↦ h, fun _ _ h ↦ h⟩
      · exact ⟨rfl, rfl, fun _ _ h ↦ h, fun _ _ h ↦ h, fun _ _ h ↦ h⟩
    · split
      · exact ⟨rfl, rfl, fun _ _ h ↦ h, fun _ _ h ↦ h, fun _ _ h ↦ GoMap.lookup_of_lookup_erase h⟩
      · split
        · exact ⟨rfl, rfl, fun _ _ h ↦ h, fun _ _ h ↦ GoMap.lookup_of_lookup_erase h, fun _ _ h ↦ h⟩
        · exact ⟨rfl, rfl, fun _ _ h ↦ h, fun _ _ h ↦ h, fun _ _ h ↦ h⟩

/-- No blocked evaluation of `e`'s job has a newer index than `e`. -/
def NotSuperseded (b : BlockedEvals) (e : Evaluation) : Prop :=
  ∀ existingID w, b.jobs.lookup e.namespacedJobID = some existingID → HasEntry b existingID w →
    latestEvalIndex w.eval ≤ latestEvalIndex e

theorem NotSuperseded.of_shrinks {b' : BlockedEvals} (h : NotSuperseded b e) (hs : Shrinks b b') :
    NotSuperseded b' e := by
  intro existingID w hjob hw
  refine h existingID w (hs.jobs _ _ hjob) ?_
  rcases hw with hw | hw
  · exact Or.inl (hs.captured _ _ hw)
  · exact Or.inr (hs.escaped _ _ hw)

/-- A block that nothing supersedes is not the duplicate: it displaces an older blocked evaluation
of its job, or forgets a stale entry of the job, or finds none. -/
theorem processBlockJobDuplicate_snd (h : NotSuperseded b e) :
    (b.processBlockJobDuplicate e).2 = false := by
  unfold processBlockJobDuplicate
  split
  · rfl
  · rename_i existingID hjob
    split
    · rename_i w hw
      rw [if_pos (h existingID w hjob (Or.inl hw))]
    · split
      · rfl
      · rename_i w hw
        rw [if_pos (h existingID w hjob (Or.inr hw))]

theorem missedUnblock_of_shrinks {b' : BlockedEvals} (hs : Shrinks b b') :
    b'.missedUnblock e = b.missedUnblock e := by
  rw [missedUnblock, missedUnblock, hs.unblockIndexes]

theorem processBlockJobDuplicate_capacityChangeCh (b : BlockedEvals) (e : Evaluation) :
    (b.processBlockJobDuplicate e).1.capacityChangeCh = b.capacityChangeCh := by
  unfold processBlockJobDuplicate
  repeat' split
  all_goals rfl

/-- A block changes neither the enabled flag, nor the unblock indexes, nor the channel. -/
theorem processBlock_fields (b : BlockedEvals) (e : Evaluation) (token : String) :
    (b.processBlock e token).1.enabled = b.enabled ∧
      (b.processBlock e token).1.unblockIndexes = b.unblockIndexes ∧
      (b.processBlock e token).1.capacityChangeCh = b.capacityChangeCh := by
  have hdup := processBlockJobDuplicate_shrinks b e
  have hch := processBlockJobDuplicate_capacityChangeCh b e
  unfold processBlock
  dsimp only
  split
  · exact ⟨rfl, rfl, rfl⟩
  · split
    · exact ⟨hdup.enabled, hdup.unblockIndexes, hch⟩
    · split
      · exact ⟨hdup.enabled, hdup.unblockIndexes, hch⟩
      · split
        · exact ⟨hdup.enabled, hdup.unblockIndexes, hch⟩
        · split <;> exact ⟨hdup.enabled, hdup.unblockIndexes, hch⟩

/-- A block adds to `captured` only the evaluation it blocks, and only when it is not escaped. -/
theorem processBlock_captured {k : String} {w : WrappedEval}
    (h : (b.processBlock e token).1.captured.lookup k = some w) :
    b.captured.lookup k = some w ∨ (w = ⟨e, token⟩ ∧ e.escapedComputedClass = false) := by
  have hdup := processBlockJobDuplicate_shrinks b e
  unfold processBlock at h
  dsimp only at h
  split at h
  · exact Or.inl h
  · split at h
    · exact Or.inl (hdup.captured k w h)
    · split at h
      · exact Or.inl (hdup.captured k w h)
      · split at h
        · exact Or.inl (hdup.captured k w h)
        · rename_i hesc
          by_cases hk : k = e.id
          · subst hk
            rw [AList.lookup_insert, Option.some.injEq] at h
            exact Or.inr ⟨h.symm, by simpa using hesc⟩
          · -- The system index does not touch `captured`.
            rw [AList.lookup_insert_ne hk] at h
            split at h <;> exact Or.inl (hdup.captured k w h)

/-- A block that finds a missed unblock hands the evaluation back at once, once an older blocked
evaluation of its job is displaced. -/
theorem processBlock_of_missed (hb : b.enabled = true) (hsup : NotSuperseded b e)
    (hmiss : b.missedUnblock e = true) :
    b.processBlock e token = ((b.processBlockJobDuplicate e).1, [(e, token)]) := by
  have hmiss' : (b.processBlockJobDuplicate e).1.missedUnblock e = true := by
    rw [missedUnblock_of_shrinks (processBlockJobDuplicate_shrinks b e), hmiss]
  simp [processBlock, hb, processBlockJobDuplicate_snd hsup, hmiss']

/-- A block that finds no missed unblock holds the evaluation under its ID and hands nothing over. -/
theorem processBlock_of_not_missed (hb : b.enabled = true) (hsup : NotSuperseded b e)
    (hmiss : b.missedUnblock e = false) :
    (b.processBlock e token).2 = [] ∧
      ((b.processBlock e token).1.captured.lookup e.id = some ⟨e, token⟩ ∨
        (b.processBlock e token).1.escaped.lookup e.id = some ⟨e, token⟩) := by
  have hmiss' : (b.processBlockJobDuplicate e).1.missedUnblock e = false := by
    rw [missedUnblock_of_shrinks (processBlockJobDuplicate_shrinks b e), hmiss]
  simp only [processBlock, hb, Bool.not_true, Bool.false_eq_true, if_false,
    processBlockJobDuplicate_snd hsup, hmiss']
  split
  · exact ⟨rfl, Or.inr (AList.lookup_insert _)⟩
  · split <;> exact ⟨rfl, Or.inl (AList.lookup_insert _)⟩

/-- An evaluation whose job has a blocked evaluation with a newer index is a duplicate: it is
neither held nor handed over. -/
theorem processBlock_superseded (hb : b.enabled = true) {existingID : String} {existing : WrappedEval}
    (hjob : b.jobs.lookup e.namespacedJobID = some existingID)
    (hexisting : b.captured.lookup existingID = some existing)
    (hnewer : latestEvalIndex e < latestEvalIndex existing.eval) :
    b.processBlock e token = ({ b with duplicates := b.duplicates ++ [e] }, []) := by
  simp [processBlock, processBlockJobDuplicate, hb, hjob, hexisting, Nat.not_le.mpr hnewer]

theorem recordUnblock_eq (hb : b.enabled = true) (keys : List String) (update : CapacityUpdate) :
    b.recordUnblock keys update = { b with
      unblockIndexes := keys.foldl (fun m k ↦ m.insert k update.index) b.unblockIndexes
      capacityChangeCh := b.capacityChangeCh ++ [update] } := by
  simp [recordUnblock, hb]

/-! ### `missedUnblock` -/

/-- An escaped evaluation older than an index already seen missed an unblock. -/
theorem missedUnblockScan_of_escaped (hquota : e.quotaLimitReached = "")
    (hesc : e.escapedComputedClass = true) (l : List (Σ _ : String, ℕ)) {max : ℕ}
    (hlt : e.snapshotIndex < max) : missedUnblockScan e max l = true := by
  induction l generalizing max with
  | nil => simp [missedUnblockScan, hesc, hlt]
  | cons entry rest ih =>
    obtain ⟨id, index⟩ := entry
    simp only [missedUnblockScan, hquota, ne_eq, not_true_eq_false, if_false]
    split
    · rfl
    · split
      · rfl
      · exact ih (by split <;> omega)

/-- An evaluation without a quota limit misses an unblock of a class it could use, or of a class
it never saw, recorded after its snapshot. -/
theorem missedUnblockScan_of_mem (hquota : e.quotaLimitReached = "") {computedClass : String}
    {index : ℕ} {l : List (Σ _ : String, ℕ)} (hmem : ⟨computedClass, index⟩ ∈ l)
    (hsnap : e.snapshotIndex < index)
    (helig : e.escapedComputedClass = true ∨ e.classEligibility.lookup computedClass ≠ some false)
    (max : ℕ) : missedUnblockScan e max l = true := by
  induction l generalizing max with
  | nil => simp at hmem
  | cons entry rest ih =>
    obtain ⟨id, index'⟩ := entry
    simp only [missedUnblockScan, hquota, ne_eq, not_true_eq_false, if_false]
    rcases List.mem_cons.mp hmem with heq | hmem
    · -- This entry is the unblock of the class.
      obtain ⟨rfl, rfl⟩ : computedClass = id ∧ index = index' := by
        simpa using heq
      split
      · rfl
      · split
        · rfl
        · rename_i hnone hsome
          have hfalse : e.classEligibility.lookup computedClass = some false := by
            cases h : e.classEligibility.lookup computedClass with
            | none => exact absurd ⟨h, hsnap⟩ hnone
            | some v => cases v <;> simp_all
          have hesc : e.escapedComputedClass = true := by simpa [hfalse] using helig
          exact missedUnblockScan_of_escaped hquota hesc rest (by split <;> omega)
    · split
      · rfl
      · split
        · rfl
        · exact ih hmem _

theorem missedUnblock_of_lookup (hquota : e.quotaLimitReached = "") {computedClass : String}
    {index : ℕ} (hk : b.unblockIndexes.lookup computedClass = some index)
    (hsnap : e.snapshotIndex < index)
    (helig : e.escapedComputedClass = true ∨ e.classEligibility.lookup computedClass ≠ some false) :
    b.missedUnblock e = true :=
  missedUnblockScan_of_mem hquota (AList.mem_lookup_iff.mp hk) hsnap helig 0

end Block

/-! ### The invariant of reachable states -/

/-- No escaped evaluation is held in `captured`. -/
def CapturedNotEscaped (b : BlockedEvals) : Prop :=
  ∀ k w, b.captured.lookup k = some w → w.eval.escapedComputedClass = false

theorem CapturedNotEscaped.of_captured {b b' : BlockedEvals} (hb : CapturedNotEscaped b)
    (hsub : ∀ k w, b'.captured.lookup k = some w → b.captured.lookup k = some w) :
    CapturedNotEscaped b' :=
  fun k w h ↦ hb k w (hsub k w h)

theorem untrack_captured (b : BlockedEvals) (jobID «namespace» : String) {k : String}
    {w : WrappedEval} (h : (b.untrack jobID «namespace»).captured.lookup k = some w) :
    b.captured.lookup k = some w := by
  unfold untrack at h
  dsimp only at h
  repeat' split at h
  all_goals first
    | exact h
    | exact GoMap.lookup_of_lookup_erase h

theorem unblockFailed_captured (b : BlockedEvals) {k : String} {w : WrappedEval}
    (h : b.unblockFailed.1.captured.lookup k = some w) : b.captured.lookup k = some w := by
  unfold unblockFailed at h
  split at h
  · exact h
  · rw [GoMap.rangeDelete_lookup] at h
    exact Option.eq_some_of_filter_eq_some h

/-- Every operation keeps the tracker enabled. -/
theorem enabled_of_step {b b' : BlockedEvals} (hstep : Step b b') : b'.enabled = b.enabled := by
  cases hstep with
  | block eval token => exact (processBlock_fields b eval token).1
  | untrack jobID «namespace» =>
    unfold untrack
    dsimp only
    repeat' split
    all_goals rfl
  | unblock | unblockQuota | unblockClassAndQuota =>
    simp only [unblock, unblockQuota, unblockClassAndQuota, recordUnblock]
    repeat' split
    all_goals rfl
  | unblockNode nodeID index =>
    unfold unblockNode
    dsimp only
    split <;> rfl
  | watchCapacity => exact (watchCapacityStep_shrinks b).enabled
  | unblockFailed =>
    unfold unblockFailed
    split <;> rfl
  | takeDuplicates => rfl
  | prune oldThreshold =>
    unfold pruneUnblockIndexes
    split <;> rfl

/-- Every operation keeps escaped evaluations out of `captured`. -/
theorem capturedNotEscaped_of_step {b b' : BlockedEvals} (hstep : Step b b') (hb : CapturedNotEscaped b) :
    CapturedNotEscaped b' := by
  cases hstep with
  | block eval token =>
    intro k w h
    rcases processBlock_captured h with h | ⟨rfl, hesc⟩
    · exact hb k w h
    · exact hesc
  | untrack jobID «namespace» => exact hb.of_captured fun k w h ↦ untrack_captured b jobID «namespace» h
  | unblock | unblockQuota | unblockClassAndQuota =>
    refine hb.of_captured fun k w h ↦ ?_
    simp only [unblock, unblockQuota, unblockClassAndQuota, recordUnblock] at h
    repeat' split at h
    all_goals exact h
  | unblockNode nodeID index =>
    refine hb.of_captured fun k w h ↦ ?_
    unfold unblockNode at h
    dsimp only at h
    split at h <;> exact h
  | watchCapacity => exact hb.of_captured (watchCapacityStep_shrinks b).captured
  | unblockFailed => exact hb.of_captured fun k w h ↦ unblockFailed_captured b h
  | takeDuplicates => exact hb
  | prune oldThreshold =>
    refine hb.of_captured fun k w h ↦ ?_
    unfold pruneUnblockIndexes at h
    split at h <;> exact h

theorem reachable_enabled {b : BlockedEvals}
    (hreach : Relation.ReflTransGen Step newEnabledBlockedEvals b) :
    b.enabled = true ∧ CapturedNotEscaped b := by
  induction hreach with
  | refl => exact ⟨rfl, fun k w h ↦ by simp [newEnabledBlockedEvals, newBlockedEvals, setEnabled] at h⟩
  | tail _ hstep ih => exact ⟨(enabled_of_step hstep).trans ih.1, capturedNotEscaped_of_step hstep ih.2⟩

/-! ### No lost wake-up -/

section Wakeup

variable {e : Evaluation} {token computedClass : String} {index : ℕ}

@[simp] theorem unblock_enabled (b : BlockedEvals) :
    (b.unblock computedClass index).enabled = b.enabled := by
  simp only [unblock, recordUnblock]
  split <;> rfl

@[simp] theorem unblock_captured (b : BlockedEvals) :
    (b.unblock computedClass index).captured = b.captured := by
  simp only [unblock, recordUnblock]
  split <;> rfl

@[simp] theorem unblock_escaped (b : BlockedEvals) :
    (b.unblock computedClass index).escaped = b.escaped := by
  simp only [unblock, recordUnblock]
  split <;> rfl

@[simp] theorem unblock_jobs (b : BlockedEvals) : (b.unblock computedClass index).jobs = b.jobs := by
  simp only [unblock, recordUnblock]
  split <;> rfl

theorem unblock_capacityChangeCh {b : BlockedEvals} (hb : b.enabled = true) :
    (b.unblock computedClass index).capacityChangeCh =
      b.capacityChangeCh ++ [⟨computedClass, "", index⟩] := by
  simp [unblock, recordUnblock, hb]

theorem unblock_lookup_index {b : BlockedEvals} (hb : b.enabled = true) :
    (b.unblock computedClass index).unblockIndexes.lookup computedClass = some index := by
  simp [unblock, recordUnblock, hb]

/-- A tracker that only loses entries blocks no evaluation it did not block before. -/
theorem isBlocked_eq_false_of_shrinks {b b' : BlockedEvals} (hs : Shrinks b b')
    (h : b.isBlocked e = false) : b'.isBlocked e = false := by
  have hnot : ∀ k w, HasEntry b k w → w.eval ≠ e := fun k w hk hwe ↦ by
    have := isBlocked_of_lookup hk
    rw [hwe, h] at this
    exact Bool.false_ne_true this
  exact isBlocked_eq_false (fun k w hk ↦ hnot k w (Or.inl (hs.captured k w hk)))
    (fun k w hk ↦ hnot k w (Or.inr (hs.escaped k w hk)))

/-- Once the class update queued after the updates `pre` has been consumed, an evaluation without a
quota limit that is escaped or may use the class is not blocked. -/
theorem not_blocked_after_update {u : BlockedEvals} (hu : u.enabled = true)
    (hinv : CapturedNotEscaped u) {pre : List CapacityUpdate}
    (hch : u.capacityChangeCh = pre ++ [⟨computedClass, "", index⟩]) (hclass : computedClass ≠ "")
    {m : ℕ} (hm : pre.length < m) (hquota : e.quotaLimitReached = "")
    (helig : e.escapedComputedClass = true ∨ e.classEligibility.lookup computedClass ≠ some false) :
    (watchCapacity m u).1.isBlocked e = false := by
  obtain ⟨hesc, hcap⟩ := watchCapacity_class hu hch hclass hm
  apply isBlocked_eq_false
  · intro k w hk hwe
    have hpassed := hcap k w hk
    have hnotesc := hinv k w ((watchCapacity_shrinks m u).captured k w hk)
    subst hwe
    -- With no quota, `capturedUnblocked` passes over only an explicitly ineligible class.
    have hfalse : w.eval.classEligibility.lookup computedClass = some false := by
      simpa [capturedUnblocked] using hpassed
    rcases helig with h | h
    · rw [h] at hnotesc
      exact absurd hnotesc (by simp)
    · exact h hfalse
  · intro k w hk
    rw [hesc k] at hk
    exact absurd hk (by simp)

/-- The same with a step between the deliveries that only loses entries and leaves the channel: the
class update is consumed before that step or after it. -/
theorem not_blocked_across_shrinks {u v : BlockedEvals} (hu : u.enabled = true)
    (hinv : CapturedNotEscaped u) {pre : List CapacityUpdate}
    (hch : u.capacityChangeCh = pre ++ [⟨computedClass, "", index⟩]) (hclass : computedClass ≠ "")
    {k m : ℕ} (hkm : pre.length < k + m) (hquota : e.quotaLimitReached = "")
    (helig : e.escapedComputedClass = true ∨ e.classEligibility.lookup computedClass ≠ some false)
    (hv : Shrinks (watchCapacity k u).1 v)
    (hchv : v.capacityChangeCh = (watchCapacity k u).1.capacityChangeCh) :
    (watchCapacity m v).1.isBlocked e = false := by
  by_cases hk : pre.length < k
  · have hbefore := not_blocked_after_update hu hinv hch hclass hk hquota helig
    exact isBlocked_eq_false_of_shrinks (hv.trans (watchCapacity_shrinks m v)) hbefore
  · -- the class update is still queued behind what is left of `pre`
    have hshrinks := (watchCapacity_shrinks k u).trans hv
    have hchv' : v.capacityChangeCh = pre.drop k ++ [⟨computedClass, "", index⟩] := by
      rw [hchv, watchCapacity_capacityChangeCh, hch, List.drop_append_of_le_length (by omega)]
    exact not_blocked_after_update (hshrinks.enabled.trans hu) (hinv.of_captured hshrinks.captured)
      hchv' hclass (by simp; omega) hquota helig

/-- Blocked first: the evaluation is handed over at the block, or is held until an update hands it
over, at the latest the class update. -/
theorem wakeup_blockFirst {b : BlockedEvals} (hb : b.enabled = true) (hinv : CapturedNotEscaped b)
    (hquota : e.quotaLimitReached = "")
    (helig : e.escapedComputedClass = true ∨ e.classEligibility.lookup computedClass ≠ some false)
    (hclass : computedClass ≠ "") (hsup : NotSuperseded b e) (k m : ℕ)
    (hm : ((watchCapacity k (b.processBlock e token).1).1.unblock computedClass
      index).capacityChangeCh.length ≤ m) :
    (e, token) ∈ (b.processBlock e token).2 ++ (watchCapacity k (b.processBlock e token).1).2 ++
        (watchCapacity m ((watchCapacity k (b.processBlock e token).1).1.unblock computedClass
          index)).2 ∧
      (watchCapacity m ((watchCapacity k (b.processBlock e token).1).1.unblock computedClass
        index)).1.isBlocked e = false := by
  -- After the block the evaluation is handed over or held under its ID.
  obtain ⟨hen₁, -, -⟩ := processBlock_fields b e token
  have hinv₁ := capturedNotEscaped_of_step (Step.block b e token) hinv
  have hentry₁ : (e, token) ∈ (b.processBlock e token).2 ∨
      HasEntry (b.processBlock e token).1 e.id ⟨e, token⟩ := by
    cases hmiss : b.missedUnblock e
    · exact Or.inr (processBlock_of_not_missed hb hsup hmiss).2
    · rw [processBlock_of_missed hb hsup hmiss]
      exact Or.inl List.mem_cons_self
  generalize b.processBlock e token = r₁ at hen₁ hinv₁ hentry₁ hm ⊢
  -- The updates consumed before the unblock keep it held or hand it over.
  have hrun := watchCapacity_shrinks k r₁.1
  have hen₂ : (watchCapacity k r₁.1).1.enabled = true := hrun.enabled.trans (hen₁.trans hb)
  have hinv₂ := hinv₁.of_captured hrun.captured
  have hentry₂ : (e, token) ∈ r₁.2 ++ (watchCapacity k r₁.1).2 ∨
      HasEntry (watchCapacity k r₁.1).1 e.id ⟨e, token⟩ := by
    rcases hentry₁ with h | h
    · exact Or.inl (List.mem_append_left _ h)
    · rcases watchCapacity_entry_or (hen₁.trans hb) k h with h | h
      · exact Or.inr h
      · exact Or.inl (List.mem_append_right _ h)
  generalize watchCapacity k r₁.1 = r₂ at hen₂ hinv₂ hentry₂ hm ⊢
  -- The unblock queues its update behind the ones still on the channel.
  obtain ⟨u, hu⟩ : ∃ u, u = r₂.1.unblock computedClass index := ⟨_, rfl⟩
  rw [← hu] at hm ⊢
  have hen₃ : u.enabled = true := by rw [hu, unblock_enabled]; exact hen₂
  have hinv₃ : CapturedNotEscaped u := by
    intro k' w h
    rw [hu, unblock_captured] at h
    exact hinv₂ k' w h
  have hch₃ : u.capacityChangeCh = r₂.1.capacityChangeCh ++ [⟨computedClass, "", index⟩] := by
    rw [hu, unblock_capacityChangeCh hen₂]
  have hlt : r₂.1.capacityChangeCh.length < m := by
    rw [hch₃] at hm
    simp at hm
    omega
  have hfinal := not_blocked_after_update hen₃ hinv₃ hch₃ hclass hlt hquota helig
  refine ⟨?_, hfinal⟩
  rcases hentry₂ with h | h
  · exact List.mem_append_left _ h
  · have h₃ : HasEntry u e.id ⟨e, token⟩ := by
      rw [hu, HasEntry, unblock_captured, unblock_escaped]
      exact h
    rcases watchCapacity_entry_or hen₃ m h₃ with h | h
    · exact absurd (isBlocked_of_lookup h) (by simp [hfinal])
    · exact List.mem_append_right _ h

/-- Unblocked first: the block finds the recorded index and hands the evaluation over at once, and
the class update, consumed before or after, releases any other copy of it. -/
theorem wakeup_unblockFirst {b : BlockedEvals} (hb : b.enabled = true) (hinv : CapturedNotEscaped b)
    (hquota : e.quotaLimitReached = "") (hsnap : e.snapshotIndex < index)
    (helig : e.escapedComputedClass = true ∨ e.classEligibility.lookup computedClass ≠ some false)
    (hclass : computedClass ≠ "") (hsup : NotSuperseded b e) (k m : ℕ)
    (hkm : (b.unblock computedClass index).capacityChangeCh.length ≤ k + m) :
    (e, token) ∈ (watchCapacity k (b.unblock computedClass index)).2 ++
        ((watchCapacity k (b.unblock computedClass index)).1.processBlock e token).2 ++
        (watchCapacity m ((watchCapacity k (b.unblock computedClass index)).1.processBlock e
          token).1).2 ∧
      (watchCapacity m ((watchCapacity k (b.unblock computedClass index)).1.processBlock e
        token).1).1.isBlocked e = false := by
  obtain ⟨u, hu⟩ : ∃ u, u = b.unblock computedClass index := ⟨_, rfl⟩
  rw [← hu] at hkm ⊢
  have hen : u.enabled = true := by rw [hu, unblock_enabled]; exact hb
  have hinvu : CapturedNotEscaped u := by
    intro k' w h
    rw [hu, unblock_captured] at h
    exact hinv k' w h
  have hch : u.capacityChangeCh = b.capacityChangeCh ++ [⟨computedClass, "", index⟩] := by
    rw [hu, unblock_capacityChangeCh hb]
  have hrun := watchCapacity_shrinks k u
  -- The deliveries before the block leave the index and bring back no newer evaluation of the job.
  have hmiss : (watchCapacity k u).1.missedUnblock e = true := by
    refine missedUnblock_of_lookup hquota ?_ hsnap helig
    rw [hrun.unblockIndexes, hu]
    exact unblock_lookup_index hb
  have hsupu : NotSuperseded u e := by
    rw [hu]
    simpa only [NotSuperseded, HasEntry, unblock_jobs, unblock_captured, unblock_escaped] using hsup
  rw [processBlock_of_missed (hrun.enabled.trans hen) (hsupu.of_shrinks hrun) hmiss]
  refine ⟨by simp, ?_⟩
  have hlt : b.capacityChangeCh.length < k + m := by
    rw [hch] at hkm
    simp at hkm
    omega
  exact not_blocked_across_shrinks hen hinvu hch hclass hlt hquota helig
    (processBlockJobDuplicate_shrinks _ e) (processBlockJobDuplicate_capacityChangeCh _ e)

/-- In every state a new enabled tracker reaches: an evaluation without a quota limit, that no blocked
evaluation of its job supersedes, and a class unblock at an index past its snapshot, for a non-empty
class that the evaluation may use or that it escaped, meet in either order, with any number of
other updates consumed in between. Once the class update has been consumed, the evaluation has
been handed to `EvalBroker.EnqueueAll` with its token and is neither captured nor escaped. -/
theorem blocked_eval_woken {b : BlockedEvals}
    (hreach : Relation.ReflTransGen Step newEnabledBlockedEvals b) {e : Evaluation}
    {token computedClass : String} {index : ℕ} (hquota : e.quotaLimitReached = "")
    (hsnap : e.snapshotIndex < index)
    (helig : e.escapedComputedClass = true ∨ e.classEligibility.lookup computedClass ≠ some false)
    (hclass : computedClass ≠ "") (hsup : NotSuperseded b e) :
    (∀ k m,
      let blocked := b.processBlock e token
      let before := watchCapacity k blocked.1
      let after := watchCapacity m (before.1.unblock computedClass index)
      (before.1.unblock computedClass index).capacityChangeCh.length ≤ m →
        (e, token) ∈ blocked.2 ++ before.2 ++ after.2 ∧ after.1.isBlocked e = false) ∧
    (∀ k m,
      let before := watchCapacity k (b.unblock computedClass index)
      let blocked := before.1.processBlock e token
      let after := watchCapacity m blocked.1
      (b.unblock computedClass index).capacityChangeCh.length ≤ k + m →
        (e, token) ∈ before.2 ++ blocked.2 ++ after.2 ∧ after.1.isBlocked e = false) := by
  obtain ⟨hb, hinv⟩ := reachable_enabled hreach
  exact ⟨fun k m ↦ wakeup_blockFirst hb hinv hquota helig hclass hsup k m,
    fun k m ↦ wakeup_unblockFirst hb hinv hquota hsnap helig hclass hsup k m⟩

/-- `e1` is blocked while `e0`, an older evaluation of its job, is: `e1` displaces it. -/
theorem blocked_eval_woken_displaces :
    let e0 : Evaluation := { id := "e0", jobID := "job", createIndex := 1, snapshotIndex := 1 }
    let e1 : Evaluation := { id := "e1", jobID := "job", createIndex := 3, snapshotIndex := 3 }
    let b := (newEnabledBlockedEvals.processBlock e0 "").1
    (∀ k m,
      let blocked := b.processBlock e1 "t1"
      let before := watchCapacity k blocked.1
      let after := watchCapacity m (before.1.unblock "c" 5)
      (before.1.unblock "c" 5).capacityChangeCh.length ≤ m →
        (e1, "t1") ∈ blocked.2 ++ before.2 ++ after.2 ∧ after.1.isBlocked e1 = false) ∧
    (∀ k m,
      let before := watchCapacity k (b.unblock "c" 5)
      let blocked := before.1.processBlock e1 "t1"
      let after := watchCapacity m blocked.1
      (b.unblock "c" 5).capacityChangeCh.length ≤ k + m →
        (e1, "t1") ∈ before.2 ++ blocked.2 ++ after.2 ∧ after.1.isBlocked e1 = false) := by
  intro e0 e1 b
  -- `b` tracks `e0` for the job, captured and not escaped.
  have hjob : b.jobs.lookup e1.namespacedJobID = some "e0" := by decide +kernel
  have hcap : b.captured.lookup "e0" = some ⟨e0, ""⟩ := by decide +kernel
  have hesc : b.escaped.lookup "e0" = none := by decide +kernel
  have hsup : NotSuperseded b e1 := by
    intro existingID w hj hw
    rw [hjob, Option.some.injEq] at hj
    subst hj
    rcases hw with hw | hw
    · rw [hcap, Option.some.injEq] at hw
      subst hw
      decide
    · rw [hesc] at hw
      cases hw
  exact blocked_eval_woken (Relation.ReflTransGen.single (Step.block _ e0 "")) rfl (by decide)
    (Or.inr (by decide)) (by decide) hsup

/-- `e2` is blocked, then `e1`, an older evaluation of the same job, is reblocked, and an unblock of
class `c` past `e1`'s snapshot follows and its update is consumed. `e1` has no quota limit and may
use `c`, but `e2` supersedes it: `e1` is cancelled as a duplicate and never handed to the broker,
while `e2` is. -/
theorem blocked_eval_superseded_not_woken :
    let e2 : Evaluation := { id := "e2", jobID := "job", createIndex := 10, snapshotIndex := 10 }
    let e1 : Evaluation := { id := "e1", jobID := "job", createIndex := 3, snapshotIndex := 5 }
    let b := (newEnabledBlockedEvals.processBlock e2 "").1
    let blocked := b.processBlock e1 "t1"
    let after := watchCapacity 1 (blocked.1.unblock "c" 20)
    Relation.ReflTransGen Step newEnabledBlockedEvals b ∧
      e1.quotaLimitReached = "" ∧ e1.snapshotIndex < 20 ∧
      e1.classEligibility.lookup "c" ≠ some false ∧
      (blocked.1.unblock "c" 20).capacityChangeCh.length ≤ 1 ∧
      (e1, "t1") ∉ blocked.2 ++ after.2 ∧ e1 ∈ after.1.duplicates ∧ (e2, "") ∈ after.2 := by
  intro e2 e1 b blocked after
  exact ⟨Relation.ReflTransGen.single (Step.block _ e2 ""), by decide +kernel⟩

end Wakeup

/-! ### The job index -/

/-- `e1` is blocked, an unblock of class `c` at index 10 is recorded, and then `e2`, a newer
evaluation of the same job that the scheduler ran on the snapshot at index 5, is blocked. `e2`
displaces `e1` as a duplicate and, having missed the unblock, goes back to the broker at once. The
job's entry in `jobs` still names `e1`, which is neither captured nor escaped: the state the source
calls a programming error, and every step of the way is an operation of the tracker. -/
theorem processBlock_missed_keeps_stale_job :
    let e1 : Evaluation := { id := "e1", jobID := "job", snapshotIndex := 1, createIndex := 1 }
    let e2 : Evaluation := { id := "e2", jobID := "job", snapshotIndex := 5, createIndex := 5 }
    let b := ((newEnabledBlockedEvals.processBlock e1 "").1.unblock "c" 10).processBlock e2 ""
    Relation.ReflTransGen Step newEnabledBlockedEvals b.1 ∧
      b.1.jobs.lookup e1.namespacedJobID = some "e1" ∧ b.1.captured.lookup "e1" = none ∧
      b.1.escaped.lookup "e1" = none ∧ (e2, "") ∈ b.2 := by
  intro e1 e2 b
  refine ⟨?_, by decide +kernel⟩
  -- the three operations, one step each
  exact ((Relation.ReflTransGen.single (Step.block _ e1 "")).tail (Step.unblock _ "c" 10)).tail
    (Step.block _ e2 "")

end BlockedEvals

end Wander.Nomad
