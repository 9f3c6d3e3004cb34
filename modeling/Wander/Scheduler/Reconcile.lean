import Wander.Scheduler.ReconcileUtil

/-!
# Reconnecting allocations

`allocReconciler.reconcileReconnecting` of reconcile.go: when the node of an allocation comes back
after a disconnect, the reconciler keeps either the allocation or its replacements. It stops a
reconnecting allocation that failed, or that the server or a newer job no longer wants; for each
other one it compares the allocation with each replacement that is not server-terminal
(`pickReconnectingAlloc`), and stops the allocation or the replacement. Every reconnecting
allocation left unstopped is reconnected.

`reconcileReconnecting_spec`: for every set of reconnecting allocations within the group's
allocations, each reconnecting allocation ends in exactly one of the two sets, the reconnect set
holds only reconnecting allocations, a reconnected allocation has each of its replacements that is
neither server-terminal nor failed stopped, and every allocation stopped outside the reconnecting
set is the replacement of one that was compared with it (`ReconnectSpec`). The stop set grows
along both loops (`StopInv`), and an allocation compared with its replacements leaves itself or
each of them stopped.

`reconcileReconnecting_keeps_failed_replacement`: a failed replacement of a reconnected allocation
is not stopped: the branch that keeps the reconnecting allocation skips failed replacements.
-/

set_option autoImplicit false
set_option relaxedAutoImplicit false

namespace Wander.Scheduler

open Wander.Lib Wander.Structs GoMap

/-- `allocNotNeeded`. -/
def allocNotNeeded : String := "alloc not needed due to job update"

/-- `allocReconnected`. -/
def allocReconnected : String := "alloc not needed due to disconnected client reconnect"

/-- `allocRescheduled`. -/
def allocRescheduled : String := "alloc was rescheduled because it failed"

/-- `allocStopResult`, less the follow-up evaluation, which the reconnect path leaves empty;
`clientStatus` is `none` for the empty string. -/
structure AllocStopResult where
  alloc : Allocation
  clientStatus : Option AllocClientStatus := none
  statusDescription : String
deriving DecidableEq

/-- `pickReconnectingAlloc`: the replacement when it runs a newer job, or when its placement score
is better and it does not replace a running allocation with one that is not; the original
otherwise. -/
def pickReconnectingAlloc (original replacement : Allocation) : Allocation :=
  let replacementIsNewer := replacement.jobVersion > original.jobVersion ∨
    replacement.jobCreateIndex > original.jobCreateIndex
  if replacementIsNewer then replacement
  else
    let replacementHasBetterScore : Bool :=
      match original.maxNormScore, replacement.maxNormScore with
      | none, some _ => true
      | some o, some r => decide (r > o)
      | _, none => false
    let replacementIsRunning := replacement.clientStatus = .running
    let originalNotRunning := original.clientStatus ≠ .running
    if replacementHasBetterScore = true ∧ (replacementIsRunning ∨ originalNotRunning) then
      replacement
    else original

/-- The `reconnectFailed` test: a failed allocation the server has not stopped. -/
def reconnectFailed (a : Allocation) : Bool :=
  !a.serverTerminalStatus && a.clientStatus == .failed

/-- The `stopReconnecting` test: the server, an operator transition or a newer job of `job` no
longer wants the allocation. -/
def stopReconnecting (job : Job) (a : Allocation) : Bool :=
  a.desiredStatus != .run || a.desiredTransition.shouldMigrate ||
    a.desiredTransition.shouldReschedule || a.desiredTransition.shouldForceReschedule ||
    decide (a.jobVersion < job.version) || decide (a.jobCreateIndex < job.createIndex)

/-- One turn of the loop over the group's allocations for `reconnectingAlloc`: a replacement that is
not server-terminal is compared with it, and the one not kept is stopped, unless the reconnecting
allocation is stopped already or the replacement failed. -/
def stopReplacement (reconnectingAlloc : Allocation) (acc : AllocSet × List AllocStopResult)
    (replacementAlloc : Allocation) : AllocSet × List AllocStopResult :=
  let (stop, result) := acc
  let isReplacement := replacementAlloc.id = reconnectingAlloc.nextAllocation
  if ¬isReplacement ∨ replacementAlloc.serverTerminalStatus = true then acc
  else
    let keepAlloc := pickReconnectingAlloc reconnectingAlloc replacementAlloc
    if keepAlloc = replacementAlloc then
      if reconnectingAlloc.id ∉ stop then
        (stop.insert reconnectingAlloc.id reconnectingAlloc,
          result ++ [{ alloc := reconnectingAlloc, statusDescription := allocNotNeeded }])
      else acc
    else if replacementAlloc.clientStatus ≠ .failed then
      (stop.insert replacementAlloc.id replacementAlloc,
        result ++ [{ alloc := replacementAlloc, statusDescription := allocReconnected }])
    else acc

/-- One turn of the loop over the reconnecting allocations. -/
def reconcileOne (job : Job) (all : AllocSet) (acc : AllocSet × List AllocStopResult)
    (reconnectingAlloc : Allocation) : AllocSet × List AllocStopResult :=
  let (stop, result) := acc
  if reconnectFailed reconnectingAlloc then
    (stop.insert reconnectingAlloc.id reconnectingAlloc,
      result ++ [{ alloc := reconnectingAlloc
                   clientStatus := some AllocClientStatus.failed
                   statusDescription := allocRescheduled }])
  else if stopReconnecting job reconnectingAlloc then
    (stop.insert reconnectingAlloc.id reconnectingAlloc,
      result ++ [{ alloc := reconnectingAlloc, statusDescription := allocNotNeeded }])
  else (values all).foldl (stopReplacement reconnectingAlloc) acc

/-- The last loop: the reconnecting allocations left unstopped. -/
def reconnectUnstopped (stop : AllocSet) (reconnect : AllocSet) (alloc : Allocation) : AllocSet :=
  if alloc.id ∉ stop then reconnect.insert alloc.id alloc else reconnect

/-- `allocReconciler.reconcileReconnecting` for the reconciler's job, with the stops the reconciler
has collected so far: the reconnect set, the stop set and the stops with this call's appended. -/
def reconcileReconnecting (job : Job) (result : List AllocStopResult) (reconnecting all : AllocSet) :
    AllocSet × AllocSet × List AllocStopResult :=
  let (stop, result) := (values reconnecting).foldl (reconcileOne job all) (∅, result)
  ((values reconnecting).foldl (reconnectUnstopped stop) ∅, stop, result)

/-! ### The stop set along the loops -/

/-- What one turn of the replacement loop does to the stop set: nothing, or it stops the
reconnecting allocation, or the replacement. -/
theorem stopReplacement_eq (r x : Allocation) (stop : AllocSet) (result : List AllocStopResult) :
    (stopReplacement r (stop, result) x).1 = stop ∨
      (stopReplacement r (stop, result) x).1 = stop.insert r.id r ∨
      ((stopReplacement r (stop, result) x).1 = stop.insert x.id x ∧ x.id = r.nextAllocation) := by
  unfold stopReplacement
  dsimp only
  by_cases hskip : ¬x.id = r.nextAllocation ∨ x.serverTerminalStatus = true
  · rw [if_pos hskip]
    exact Or.inl rfl
  · rw [if_neg hskip]
    have hnext : x.id = r.nextAllocation := not_not.mp (not_or.mp hskip).1
    by_cases hkeep : pickReconnectingAlloc r x = x
    · -- the replacement is kept: the reconnecting allocation is stopped, once
      rw [if_pos hkeep]
      by_cases hnew : r.id ∉ stop
      · rw [if_pos hnew]
        exact Or.inr (Or.inl rfl)
      · rw [if_neg hnew]
        exact Or.inl rfl
    · -- the reconnecting allocation is kept: the replacement is stopped unless it failed
      rw [if_neg hkeep]
      by_cases hf : x.clientStatus ≠ .failed
      · rw [if_pos hf]
        exact Or.inr (Or.inr ⟨rfl, hnext⟩)
      · rw [if_neg hf]
        exact Or.inl rfl

/-- A replacement that is neither server-terminal nor failed leaves the reconnecting allocation or
itself stopped. -/
theorem stopReplacement_handles (r x : Allocation) (stop : AllocSet)
    (result : List AllocStopResult) (hx : x.id = r.nextAllocation)
    (hserver : x.serverTerminalStatus = false) (hfailed : x.clientStatus ≠ .failed) :
    r.id ∈ (stopReplacement r (stop, result) x).1 ∨ x.id ∈ (stopReplacement r (stop, result) x).1 := by
  unfold stopReplacement
  dsimp only
  rw [if_neg (by simp [hx, hserver])]
  by_cases hkeep : pickReconnectingAlloc r x = x
  · rw [if_pos hkeep]
    by_cases hnew : r.id ∉ stop
    · rw [if_pos hnew]
      exact Or.inl ((AList.mem_insert _).mpr (Or.inl rfl))
    · rw [if_neg hnew]
      exact Or.inl (not_not.mp hnew)
  · rw [if_neg hkeep, if_pos hfailed]
    exact Or.inr ((AList.mem_insert _).mpr (Or.inl rfl))

/-- Every allocation of the stop set is the group's allocation under its ID, and is reconnecting or
the replacement of a reconnecting allocation compared with its replacements. -/
structure StopInv (job : Job) (reconnecting all stop : AllocSet) : Prop where
  sub_all : ∀ k x, stop.lookup k = some x → all.lookup k = some x
  source : ∀ k x, stop.lookup k = some x → x ∈ values reconnecting ∨
    ∃ r ∈ values reconnecting, reconnectFailed r = false ∧ stopReconnecting job r = false ∧
      r.nextAllocation = x.id

section Loops

variable {job : Job} {reconnecting all : AllocSet}

theorem StopInv.empty : StopInv job reconnecting all ∅ :=
  ⟨(fun _ _ h ↦ by cases h), (fun _ _ h ↦ by cases h)⟩

/-- Stopping an allocation of the group that is reconnecting, or the replacement of one compared
with its replacements, keeps the invariant. -/
theorem StopInv.insert {stop : AllocSet} (h : StopInv job reconnecting all stop) {x : Allocation}
    (hall : all.lookup x.id = some x)
    (hsrc : x ∈ values reconnecting ∨ ∃ r ∈ values reconnecting, reconnectFailed r = false ∧
      stopReconnecting job r = false ∧ r.nextAllocation = x.id) :
    StopInv job reconnecting all (stop.insert x.id x) := by
  constructor
  · intro k y hy
    by_cases hk : k = x.id
    · subst hk
      rw [AList.lookup_insert] at hy
      cases hy
      exact hall
    · rw [AList.lookup_insert_ne hk] at hy
      exact h.sub_all k y hy
  · intro k y hy
    by_cases hk : k = x.id
    · subst hk
      rw [AList.lookup_insert] at hy
      cases hy
      exact hsrc
    · rw [AList.lookup_insert_ne hk] at hy
      exact h.source k y hy

theorem mem_insert_of_mem {stop : AllocSet} {k : String} (x : Allocation) (hk : k ∈ stop) :
    k ∈ stop.insert x.id x :=
  (AList.mem_insert _).mpr (Or.inr hk)

/-- The replacement loop of a reconnecting allocation compared with its replacements: the stop set
keeps the invariant and grows, and holds the reconnecting allocation or each replacement of it that
is neither server-terminal nor failed. -/
theorem foldl_stopReplacement {r : Allocation} (hr : r ∈ values reconnecting)
    (hrall : all.lookup r.id = some r) (hfailed : reconnectFailed r = false)
    (hstop : stopReconnecting job r = false)
    (hkeys : ∀ k a, all.lookup k = some a → a.id = k) (l : List Allocation)
    (hl : ∀ x ∈ l, x ∈ values all) (acc : AllocSet × List AllocStopResult)
    (hinv : StopInv job reconnecting all acc.1) :
    let stop := (l.foldl (stopReplacement r) acc).1
    StopInv job reconnecting all stop ∧ (∀ k ∈ acc.1, k ∈ stop) ∧
      (r.id ∈ stop ∨ ∀ x ∈ l, x.id = r.nextAllocation → x.serverTerminalStatus = false →
        x.clientStatus ≠ .failed → x.id ∈ stop) := by
  induction l generalizing acc with
  | nil => exact ⟨hinv, fun _ h ↦ h, Or.inr fun _ h ↦ by cases h⟩
  | cons x l ih =>
    obtain ⟨stop, result⟩ := acc
    have hxall : all.lookup x.id = some x := lookup_key_of_mem_values hkeys (hl x (by simp))
    -- the turn of `x`: the invariant and the stop set it leaves
    have hstep : StopInv job reconnecting all (stopReplacement r (stop, result) x).1 ∧
        ∀ k ∈ stop, k ∈ (stopReplacement r (stop, result) x).1 := by
      rcases stopReplacement_eq r x stop result with h | h | ⟨h, hnext⟩ <;> rw [h]
      · exact ⟨hinv, fun _ hk ↦ hk⟩
      · exact ⟨hinv.insert hrall (Or.inl hr), fun _ hk ↦ mem_insert_of_mem r hk⟩
      · exact ⟨hinv.insert hxall (Or.inr ⟨r, hr, hfailed, hstop, hnext.symm⟩),
          fun _ hk ↦ mem_insert_of_mem x hk⟩
    obtain ⟨hinv', hmono', hhandled'⟩ :=
      ih (fun y hy ↦ hl y (List.mem_cons_of_mem x hy)) _ hstep.1
    refine ⟨hinv', fun k hk ↦ hmono' k (hstep.2 k hk), ?_⟩
    by_cases hrid : r.id ∈ (l.foldl (stopReplacement r) (stopReplacement r (stop, result) x)).1
    · exact Or.inl hrid
    · refine Or.inr fun y hy hnext hserver hfail ↦ ?_
      rcases List.mem_cons.mp hy with rfl | hy
      · -- the turn of `y` stopped the reconnecting allocation, which is not stopped at the end
        rcases stopReplacement_handles r y stop result hnext hserver hfail with h | h
        · exact absurd (hmono' _ h) hrid
        · exact hmono' _ h
      · exact hhandled'.resolve_left hrid y hy hnext hserver hfail

/-- One reconnecting allocation: the stop set keeps the invariant and grows, and holds the
allocation or each of its replacements that is neither server-terminal nor failed. -/
theorem reconcileOne_step (hkeys : ∀ k a, all.lookup k = some a → a.id = k) {r : Allocation}
    (hr : r ∈ values reconnecting) (hrall : all.lookup r.id = some r)
    (acc : AllocSet × List AllocStopResult) (hinv : StopInv job reconnecting all acc.1) :
    let stop := (reconcileOne job all acc r).1
    StopInv job reconnecting all stop ∧ (∀ k ∈ acc.1, k ∈ stop) ∧
      (r.id ∈ stop ∨ ∀ x ∈ values all, x.id = r.nextAllocation → x.serverTerminalStatus = false →
        x.clientStatus ≠ .failed → x.id ∈ stop) := by
  obtain ⟨stop, result⟩ := acc
  unfold reconcileOne
  dsimp only
  -- an allocation stopped before its replacements are looked at
  have hearly : StopInv job reconnecting all (stop.insert r.id r) ∧
      (∀ k ∈ stop, k ∈ stop.insert r.id r) ∧ r.id ∈ stop.insert r.id r :=
    ⟨hinv.insert hrall (Or.inl hr), fun _ hk ↦ mem_insert_of_mem r hk,
      (AList.mem_insert _).mpr (Or.inl rfl)⟩
  by_cases hfailed : reconnectFailed r = true
  · rw [if_pos hfailed]
    exact ⟨hearly.1, hearly.2.1, Or.inl hearly.2.2⟩
  · rw [if_neg hfailed]
    by_cases hstop : stopReconnecting job r = true
    · rw [if_pos hstop]
      exact ⟨hearly.1, hearly.2.1, Or.inl hearly.2.2⟩
    · rw [if_neg hstop]
      exact foldl_stopReplacement hr hrall (Bool.eq_false_iff.mpr hfailed)
        (Bool.eq_false_iff.mpr hstop) hkeys (values all) (fun _ h ↦ h) _ hinv

/-- The loop over the reconnecting allocations: the stop set keeps the invariant and grows, and
holds each reconnecting allocation walked or each of its replacements that is neither
server-terminal nor failed. -/
theorem foldl_reconcileOne (hkeys : ∀ k a, all.lookup k = some a → a.id = k)
    (hRkeys : ∀ k a, reconnecting.lookup k = some a → a.id = k)
    (hsub : ∀ k a, reconnecting.lookup k = some a → all.lookup k = some a) (l : List Allocation)
    (hl : ∀ r ∈ l, r ∈ values reconnecting) (acc : AllocSet × List AllocStopResult)
    (hinv : StopInv job reconnecting all acc.1) :
    let stop := (l.foldl (reconcileOne job all) acc).1
    StopInv job reconnecting all stop ∧ (∀ k ∈ acc.1, k ∈ stop) ∧
      ∀ r ∈ l, r.id ∈ stop ∨ ∀ x ∈ values all, x.id = r.nextAllocation →
        x.serverTerminalStatus = false → x.clientStatus ≠ .failed → x.id ∈ stop := by
  induction l generalizing acc with
  | nil => exact ⟨hinv, fun _ h ↦ h, fun _ h ↦ by cases h⟩
  | cons r l ih =>
    have hr := hl r List.mem_cons_self
    have hrall : all.lookup r.id = some r := hsub _ _ (lookup_key_of_mem_values hRkeys hr)
    obtain ⟨hinv1, hmono1, hhandled1⟩ := reconcileOne_step hkeys hr hrall acc hinv
    obtain ⟨hinv', hmono', hhandled'⟩ :=
      ih (fun r' h ↦ hl r' (List.mem_cons_of_mem r h)) _ hinv1
    refine ⟨hinv', fun k hk ↦ hmono' k (hmono1 k hk), fun r' hr' ↦ ?_⟩
    rcases List.mem_cons.mp hr' with rfl | hr'
    · -- what the turn of `r'` stopped stays stopped
      rcases hhandled1 with h | h
      · exact Or.inl (hmono' _ h)
      · exact Or.inr fun x hx hnext hserver hfail ↦ hmono' _ (h x hx hnext hserver hfail)
    · exact hhandled' r' hr'

end Loops

/-! ### The reconnect set -/

theorem mem_foldl_reconnectUnstopped_of_mem (stop : AllocSet) (l : List Allocation)
    {m : AllocSet} {k : String} (hk : k ∈ m) : k ∈ l.foldl (reconnectUnstopped stop) m := by
  induction l generalizing m with
  | nil => exact hk
  | cons a l ih =>
    refine ih ?_
    unfold reconnectUnstopped
    split
    · exact mem_insert_of_mem a hk
    · exact hk

/-- The last loop reconnects each reconnecting allocation walked that is not stopped. -/
theorem mem_foldl_reconnectUnstopped (stop : AllocSet) (l : List Allocation) (m : AllocSet)
    {a : Allocation} (ha : a ∈ l) (hstop : a.id ∉ stop) :
    a.id ∈ l.foldl (reconnectUnstopped stop) m := by
  induction l generalizing m with
  | nil => cases ha
  | cons b l ih =>
    rcases List.mem_cons.mp ha with rfl | ha
    · refine mem_foldl_reconnectUnstopped_of_mem stop l ?_
      unfold reconnectUnstopped
      rw [if_pos hstop]
      exact (AList.mem_insert _).mpr (Or.inl rfl)
    · exact ih _ ha

/-- What the last loop reconnects is a reconnecting allocation walked that is not stopped, under
its ID. -/
theorem lookup_foldl_reconnectUnstopped (stop : AllocSet) (l : List Allocation) (m : AllocSet)
    {k : String} {a : Allocation} (h : (l.foldl (reconnectUnstopped stop) m).lookup k = some a) :
    (a ∈ l ∧ a.id = k ∧ k ∉ stop) ∨ m.lookup k = some a := by
  induction l generalizing m with
  | nil => exact Or.inr h
  | cons b l ih =>
    rcases ih _ h with ⟨ha, hid, hk⟩ | h
    · exact Or.inl ⟨List.mem_cons_of_mem b ha, hid, hk⟩
    · unfold reconnectUnstopped at h
      split at h
      · rename_i hb
        by_cases hkb : k = b.id
        · subst hkb
          rw [AList.lookup_insert] at h
          cases h
          exact Or.inl ⟨List.mem_cons_self, rfl, hb⟩
        · rw [AList.lookup_insert_ne hkb] at h
          exact Or.inr h
      · exact Or.inr h


/-! ### The contract -/

/-- What `reconcileReconnecting` returns for the reconnecting allocations of a group: each
reconnecting allocation is in exactly one of the two sets, the reconnect set holds only
reconnecting allocations, each replacement of a reconnected allocation that is neither
server-terminal nor failed is stopped, and an allocation stopped outside the reconnecting set is
the replacement of a reconnecting allocation that was compared with its replacements, so one
stopped for failing or for its job or transition brings none of its own. -/
structure ReconnectSpec (job : Job) (reconnecting all reconnect stop : AllocSet) : Prop where
  exactly_one : ∀ r ∈ values reconnecting,
    (reconnect.lookup r.id = some r ∧ r.id ∉ stop) ∨ (stop.lookup r.id = some r ∧ r.id ∉ reconnect)
  reconnect_sub : ∀ k a, reconnect.lookup k = some a → reconnecting.lookup k = some a
  replacements_stopped : ∀ r ∈ values reconnect, ∀ x ∈ values all, x.id = r.nextAllocation →
    x.serverTerminalStatus = false → x.clientStatus ≠ .failed → stop.lookup x.id = some x
  stopped_source : ∀ x ∈ values stop, x ∈ values reconnecting ∨
    ∃ r ∈ values reconnecting, reconnectFailed r = false ∧ stopReconnecting job r = false ∧
      r.nextAllocation = x.id

/-- For every reconnecting set within the group's allocations, both keyed by ID,
`reconcileReconnecting` meets `ReconnectSpec`, whatever the order of its loops. -/
theorem reconcileReconnecting_spec (job : Job) (result : List AllocStopResult)
    {reconnecting all : AllocSet} (hRkeys : ∀ k a, reconnecting.lookup k = some a → a.id = k)
    (hkeys : ∀ k a, all.lookup k = some a → a.id = k)
    (hsub : ∀ k a, reconnecting.lookup k = some a → all.lookup k = some a) :
    let out := reconcileReconnecting job result reconnecting all
    ReconnectSpec job reconnecting all out.1 out.2.1 := by
  obtain ⟨hinv, -, hhandled⟩ := foldl_reconcileOne hkeys hRkeys hsub (values reconnecting)
    (fun _ h ↦ h) (∅, result) StopInv.empty
  unfold reconcileReconnecting
  generalize (values reconnecting).foldl (reconcileOne job all) (∅, result) = acc at hinv hhandled ⊢
  obtain ⟨stop, result'⟩ := acc
  dsimp only at hinv hhandled ⊢
  -- a stopped allocation of the group is found under its ID
  have hstopped : ∀ x ∈ values all, x.id ∈ stop → stop.lookup x.id = some x := by
    intro x hx hmem
    obtain ⟨y, hy⟩ := Option.isSome_iff_exists.mp (AList.lookup_isSome.mpr hmem)
    have hyall := hinv.sub_all _ _ hy
    rw [lookup_key_of_mem_values hkeys hx] at hyall
    rw [hy, hyall]
  have hRall : ∀ r ∈ values reconnecting, r ∈ values all := fun r hr ↦
    mem_values_of_lookup (hsub _ _ (lookup_key_of_mem_values hRkeys hr))
  -- what is reconnected is a reconnecting allocation left unstopped, under its ID
  have hreconnect : ∀ k a, ((values reconnecting).foldl (reconnectUnstopped stop) ∅).lookup k =
      some a → a ∈ values reconnecting ∧ a.id = k ∧ k ∉ stop := fun k a h ↦
    (lookup_foldl_reconnectUnstopped stop _ ∅ h).resolve_right (by simp)
  refine ⟨fun r hr ↦ ?_, fun k a h ↦ ?_, fun r hr x hx hnext hserver hfail ↦ ?_, fun x hx ↦ ?_⟩
  · by_cases hs : r.id ∈ stop
    · refine Or.inr ⟨hstopped r (hRall r hr) hs, fun hmem ↦ ?_⟩
      obtain ⟨b, hb⟩ := Option.isSome_iff_exists.mp (AList.lookup_isSome.mpr hmem)
      exact (hreconnect _ _ hb).2.2 hs
    · refine Or.inl ⟨?_, hs⟩
      obtain ⟨b, hb⟩ := Option.isSome_iff_exists.mp
        (AList.lookup_isSome.mpr (mem_foldl_reconnectUnstopped stop _ ∅ hr hs))
      -- the allocation reconnected under `r`'s ID is `r`, the set being keyed by ID
      obtain ⟨hbR, hbid, -⟩ := hreconnect _ _ hb
      have hb' := lookup_key_of_mem_values hRkeys hbR
      rw [hbid, lookup_key_of_mem_values hRkeys hr] at hb'
      rw [hb, ← Option.some.inj hb']
  · obtain ⟨ha, hid, -⟩ := hreconnect k a h
    rw [← hid]
    exact lookup_key_of_mem_values hRkeys ha
  · obtain ⟨k, hk⟩ := mem_values_iff.mp hr
    obtain ⟨hrR, rfl, hks⟩ := hreconnect k r hk
    rcases hhandled r hrR with hrs | hall
    · exact absurd hrs hks
    · exact hstopped x hx (hall x hx hnext hserver hfail)
  · obtain ⟨k, hk⟩ := mem_values_iff.mp hx
    exact hinv.source k x hk

/-! ### A failed replacement -/

/-- A reconnecting allocation `r` of `web`, running, replaced by `x` while its node was away. -/
def reconnectingAlloc : Allocation :=
  { id := "r"
    jobID := "web"
    taskGroup := "web"
    clientStatus := .running
    nextAllocation := "x" }

/-- Its replacement, which failed. -/
def failedReplacement : Allocation :=
  { id := "x"
    jobID := "web"
    taskGroup := "web"
    clientStatus := .failed
    previousAllocation := "r" }

/-- The reconnecting set: `r`. -/
def reconnectingSet : AllocSet := (∅ : AllocSet).insert "r" reconnectingAlloc

/-- The group's allocations: `r` and `x`. -/
def groupSet : AllocSet := reconnectingSet.insert "x" failedReplacement

theorem reconcileReconnecting_spec_groupSet :
    ReconnectSpec {} reconnectingSet groupSet
      (reconcileReconnecting {} [] reconnectingSet groupSet).1
      (reconcileReconnecting {} [] reconnectingSet groupSet).2.1 := by
  have hRkeys : ∀ k a, reconnectingSet.lookup k = some a → a.id = k :=
    @keyed_insert String Allocation _ Allocation.id ∅ (fun _ _ h ↦ by cases h) reconnectingAlloc
  refine reconcileReconnecting_spec {} [] hRkeys
    (@keyed_insert String Allocation _ Allocation.id reconnectingSet hRkeys failedReplacement)
    fun k a h ↦ ?_
  -- `x` is not reconnecting; every other key is found in the group as in the reconnecting set
  by_cases hk : k = "x"
  · subst hk
    cases h
  · exact (AList.lookup_insert_ne hk).trans h

/-- The failed replacement `x` of the reconnected `r` is neither server-terminal nor stopped. -/
theorem reconcileReconnecting_keeps_failed_replacement :
    let out := reconcileReconnecting {} [] reconnectingSet groupSet
    out.1.lookup "r" = some reconnectingAlloc ∧ failedReplacement ∈ values groupSet ∧
      failedReplacement.id = reconnectingAlloc.nextAllocation ∧
      failedReplacement.serverTerminalStatus = false ∧ out.2.1.lookup "x" = none := by
  decide

end Wander.Scheduler
