import Wander.State.AllocUpdates

/-!
# Deployment counters against the allocations table

`updateDeploymentWithAlloc` keeps the counters of each task group of a deployment up to date
allocation by allocation: the allocations placed, those healthy and those unhealthy, and the IDs
of the canaries placed. It moves them on a placement, on a first health and on a healthy
allocation turned unhealthy, and on nothing else. The counters follow the table as long as an
allocation joins the deployment without health and, once in it, stays in it and in its task
group, keeps its canary flag, and changes its health only from none, or from healthy to
unhealthy.

`deployment_counts_eq`: along every run of such allocation writes of `UpsertAllocs` and
`UpdateAllocsFromClient` from a deployment with zero counters and no allocation, each task group's
counters are the counts of the table and its canaries are the group's canaries, each once
(`StateMatches`). The invariant is `DeploymentAgrees`; `DeploymentAgrees.write` is one call of
`updateDeploymentWithAlloc` with the store of its allocation.

`deployment_placed_with_health_uncounted`: an allocation placed with its health already set is
counted as placed and never as healthy.
-/

set_option autoImplicit false
set_option relaxedAutoImplicit false

namespace Wander.State

open Wander.Lib Wander.Structs GoMap

namespace StateStore

/-- What the deployment `did` records of an allocation of its task group `g`: the allocation's
health and canary flag; none for an allocation outside the group. -/
def groupKey (did g : String) (a : Allocation) : Option (Option Bool × Bool) :=
  if a.deploymentID = did ∧ a.taskGroup = g then
    some (healthOf a.deploymentStatus, canaryOf a.deploymentStatus)
  else none

/-- The test of a record that counts it in the health counter of `b`. -/
def recordHealth (b : Bool) (r : Option (Option Bool × Bool)) : Bool :=
  r.any fun k ↦ k.1 == some b

/-- The allocations of the table in the deployment `did` and its task group `g`. -/
def placedCount (s : StateStore) (did g : String) : ℕ :=
  (values s.allocs).countP fun a ↦ (groupKey did g a).isSome

/-- The allocations of the group with the health `b`. -/
def healthCount (s : StateStore) (did g : String) (b : Bool) : ℕ :=
  (values s.allocs).countP fun a ↦ recordHealth b (groupKey did g a)

/-- The allocation stored under `id` is a canary of the deployment `did` in its task group `g`. -/
def isCanary (s : StateStore) (did g id : String) : Bool :=
  ((s.allocs.lookup id).bind (groupKey did g)).any Prod.snd

/-- The move of a counter that tests the record with `f`: one for the new allocation, less one for
the one it replaces. -/
def recordDelta (f : Option (Option Bool × Bool) → Bool) (old new : Option (Option Bool × Bool)) :
    ℤ :=
  (if f new then 1 else 0) - if f old then 1 else 0

/-- The health moves of an allocation in a deployment: once set, its health stays, or turns from
healthy to unhealthy. -/
def healthMoves : Option Bool → Option Bool → Bool
  | none, _ => true
  | some b, some b' => b' == b || (b && !b')
  | some _, none => false

/-- A write of `v` over `e`, the allocation stored under its ID, that the counters of the
deployment `did` can follow: an allocation joins the deployment without health, and one in it
stays in it and in its task group, keeps its canary flag, and moves its health as `healthMoves`
allows. -/
def DeploymentMove (did : String) (e : Option Allocation) (v : Allocation) : Prop :=
  match e with
  | some ex =>
    if ex.deploymentID = did then
      v.deploymentID = did ∧ v.taskGroup = ex.taskGroup ∧
        canaryOf v.deploymentStatus = canaryOf ex.deploymentStatus ∧
        healthMoves (healthOf ex.deploymentStatus) (healthOf v.deploymentStatus) = true
    else v.deploymentID = did → healthOf v.deploymentStatus = none
  | none => v.deploymentID = did → healthOf v.deploymentStatus = none

/-! ### The table's counts under a write -/

@[simp] theorem recordDelta_self (f : Option (Option Bool × Bool) → Bool)
    (r : Option (Option Bool × Bool)) : recordDelta f r r = 0 :=
  Int.sub_self _

/-- One write moves every count of the records by the allocation it replaces and by the new one. -/
theorem countP_groupKey_write (s : StateStore) (k : String) (v : Allocation) (did g : String)
    (f : Option (Option Bool × Bool) → Bool) (hf : f none = false) :
    ((values (s.allocs.insert k v)).countP (fun a ↦ f (groupKey did g a)) : ℤ) =
      (values s.allocs).countP (fun a ↦ f (groupKey did g a)) +
        recordDelta f ((s.allocs.lookup k).bind (groupKey did g)) (groupKey did g v) := by
  have hwrite := countP_values_insert s.allocs k v fun a ↦ f (groupKey did g a)
  have hany : (s.allocs.lookup k).any (fun a ↦ f (groupKey did g a)) =
      f ((s.allocs.lookup k).bind (groupKey did g)) := by
    cases s.allocs.lookup k with
    | none => exact hf.symm
    | some old => rfl
  rw [hany] at hwrite
  unfold recordDelta
  split_ifs at hwrite ⊢ <;> omega

theorem isCanary_write (s : StateStore) (k : String) (v : Allocation) (did g id : String) :
    isCanary { s with allocs := s.allocs.insert k v } did g id =
      if id = k then (groupKey did g v).any Prod.snd else isCanary s did g id := by
  unfold isCanary
  split
  · rename_i hk
    subst hk
    rw [AList.lookup_insert]
    rfl
  · rw [AList.lookup_insert_ne ‹_›]

/-! ### The invariant -/

/-- The deployment state `st` of the task group `g` of the deployment `did` agrees with the table:
its counters are the counts, and its canaries are the group's canaries, each once. -/
structure StateMatches (s : StateStore) (did g : String) (st : DeploymentState) : Prop where
  placed_eq : st.placedAllocs = placedCount s did g
  healthy_eq : st.healthyAllocs = healthCount s did g true
  unhealthy_eq : st.unhealthyAllocs = healthCount s did g false
  canaries_nodup : st.placedCanaries.Nodup
  mem_canaries : ∀ id, id ∈ st.placedCanaries ↔ s.isCanary did g id = true

theorem StateMatches.of_allocs {s s' : StateStore} (hall : s'.allocs = s.allocs) {did g : String}
    {st : DeploymentState} (hm : s.StateMatches did g st) : s'.StateMatches did g st where
  placed_eq := by rw [hm.placed_eq, placedCount, placedCount, hall]
  healthy_eq := by rw [hm.healthy_eq, healthCount, healthCount, hall]
  unhealthy_eq := by rw [hm.unhealthy_eq, healthCount, healthCount, hall]
  canaries_nodup := hm.canaries_nodup
  mem_canaries id := by rw [hm.mem_canaries id, isCanary, isCanary, hall]

/-- A write the group does not see: the new allocation is recorded as the one it replaces. -/
theorem StateMatches.write_same {s : StateStore} {did g : String} {st : DeploymentState}
    (hm : s.StateMatches did g st) {k : String} {v : Allocation}
    (hsame : (s.allocs.lookup k).bind (groupKey did g) = groupKey did g v) :
    StateMatches { s with allocs := s.allocs.insert k v } did g st where
  placed_eq := by
    rw [hm.placed_eq, placedCount, placedCount, countP_groupKey_write s k v did g _ rfl, hsame,
      recordDelta_self, Int.add_zero]
  healthy_eq := by
    rw [hm.healthy_eq, healthCount, healthCount, countP_groupKey_write s k v did g _ rfl, hsame,
      recordDelta_self, Int.add_zero]
  unhealthy_eq := by
    rw [hm.unhealthy_eq, healthCount, healthCount, countP_groupKey_write s k v did g _ rfl, hsame,
      recordDelta_self, Int.add_zero]
  canaries_nodup := hm.canaries_nodup
  mem_canaries id := by
    rw [hm.mem_canaries id, isCanary_write]
    split
    · rename_i hk
      subst hk
      rw [← hsame]
      rfl
    · rfl

/-- A write the group counts, of an allocation `v` of the group whose canary flag is kept if it
replaces a canary: the counters move by the deltas, and the ID of a new canary is appended. -/
theorem StateMatches.write_counted {s : StateStore} {did g : String} {st : DeploymentState}
    (hm : s.StateMatches did g st) {v : Allocation}
    (hv : groupKey did g v = some (healthOf v.deploymentStatus, canaryOf v.deploymentStatus))
    (hcanary : ((s.allocs.lookup v.id).bind (groupKey did g)).any Prod.snd = true →
      canaryOf v.deploymentStatus = true)
    {placed healthy unhealthy : ℤ}
    (hdeltas : let old := (s.allocs.lookup v.id).bind (groupKey did g)
      (placed, healthy, unhealthy) = (recordDelta Option.isSome old (groupKey did g v),
        recordDelta (recordHealth true) old (groupKey did g v),
        recordDelta (recordHealth false) old (groupKey did g v))) :
    StateMatches { s with allocs := s.allocs.insert v.id v } did g
      { st with
        placedAllocs := st.placedAllocs + placed
        healthyAllocs := st.healthyAllocs + healthy
        unhealthyAllocs := st.unhealthyAllocs + unhealthy
        placedCanaries :=
          if canaryOf v.deploymentStatus ∧ v.id ∉ st.placedCanaries then
            st.placedCanaries ++ [v.id]
          else st.placedCanaries } := by
  simp only [Prod.mk.injEq] at hdeltas
  obtain ⟨rfl, rfl, rfl⟩ := hdeltas
  refine ⟨?_, ?_, ?_, ?_, fun id ↦ ?_⟩
  · rw [hm.placed_eq, placedCount, placedCount, countP_groupKey_write s v.id v did g _ rfl]
  · rw [hm.healthy_eq, healthCount, healthCount, countP_groupKey_write s v.id v did g _ rfl]
  · rw [hm.unhealthy_eq, healthCount, healthCount, countP_groupKey_write s v.id v did g _ rfl]
  · dsimp only
    split
    · rename_i hnew
      exact List.nodup_append.mpr ⟨hm.canaries_nodup, List.nodup_singleton _,
        fun a ha b hb ↦ by rw [List.mem_singleton] at hb; subst hb; rintro rfl; exact hnew.2 ha⟩
    · exact hm.canaries_nodup
  · dsimp only
    rw [isCanary_write, hv]
    by_cases hid : id = v.id
    · -- the written allocation: a canary exactly when its flag is set
      subst hid
      simp only [if_true, Option.any_some]
      split
      · rename_i hnew
        simp [hnew.1]
      · rename_i hkept
        rw [hm.mem_canaries]
        cases hc : canaryOf v.deploymentStatus
        · exact ⟨fun h ↦ absurd (hcanary h) (by rw [hc]; decide), fun h ↦ by cases h⟩
        · exact ⟨fun _ ↦ rfl, fun _ ↦ by
            by_contra hnot
            exact hkept ⟨hc, fun hmem ↦ hnot ((hm.mem_canaries _).mp hmem)⟩⟩
    · -- every other allocation keeps its place in the list
      rw [if_neg hid, ← hm.mem_canaries]
      split
      · simp [hid]
      · rfl

/-! ### The deltas -/

/-- An allocation of the deployment stays in it and in its task group, keeps its canary flag and
moves its health as `healthMoves` allows. -/
theorem DeploymentMove.stays {did : String} {ex v : Allocation}
    (hmove : DeploymentMove did (some ex) v) (hex : ex.deploymentID = did) :
    v.deploymentID = did ∧ v.taskGroup = ex.taskGroup ∧
      canaryOf v.deploymentStatus = canaryOf ex.deploymentStatus ∧
      healthMoves (healthOf ex.deploymentStatus) (healthOf v.deploymentStatus) = true := by
  dsimp only [DeploymentMove] at hmove
  rwa [if_pos hex] at hmove

/-- An allocation joins the deployment without health. -/
theorem DeploymentMove.joins {did : String} {e : Option Allocation} {v : Allocation}
    (hmove : DeploymentMove did e v) (hout : ∀ ex, e = some ex → ex.deploymentID ≠ did)
    (hv : v.deploymentID = did) : healthOf v.deploymentStatus = none := by
  unfold DeploymentMove at hmove
  cases e with
  | none => exact hmove hv
  | some ex =>
    dsimp only at hmove
    rw [if_neg (hout ex rfl)] at hmove
    exact hmove hv

theorem hasHealth_eq_isSome (ds : Option AllocDeploymentStatus) :
    AllocDeploymentStatus.hasHealth ds = (healthOf ds).isSome := by
  cases ds <;> rfl

theorem groupKey_of_mem {did g : String} {a : Allocation} (hdep : a.deploymentID = did)
    (htg : a.taskGroup = g) :
    groupKey did g a = some (healthOf a.deploymentStatus, canaryOf a.deploymentStatus) := by
  simp [groupKey, hdep, htg]

theorem groupKey_eq_none {did g : String} {a : Allocation}
    (h : a.deploymentID ≠ did ∨ a.taskGroup ≠ g) : groupKey did g a = none := by
  unfold groupKey
  rw [if_neg]
  rintro ⟨hdep, htg⟩
  rcases h with h | h
  · exact h hdep
  · exact h htg

theorem DeploymentMove.of_stays {did : String} {ex v : Allocation} (hex : ex.deploymentID = did)
    (h : v.deploymentID = did ∧ v.taskGroup = ex.taskGroup ∧
      canaryOf v.deploymentStatus = canaryOf ex.deploymentStatus ∧
      healthMoves (healthOf ex.deploymentStatus) (healthOf v.deploymentStatus) = true) :
    DeploymentMove did (some ex) v := by
  dsimp only [DeploymentMove]
  rwa [if_pos hex]

/-- Under a move the deployment follows, the allocation replaced by one outside the group `g` of
`did` was outside it too. -/
theorem old_eq_none_of_move {did g : String} {e : Option Allocation} {v : Allocation}
    (hmove : DeploymentMove did e v) (hout : v.deploymentID ≠ did ∨ v.taskGroup ≠ g) :
    e.bind (groupKey did g) = none := by
  cases e with
  | none => rfl
  | some ex =>
    show groupKey did g ex = none
    by_cases hex : ex.deploymentID = did
    · -- an allocation of the deployment stays in it and in its group
      obtain ⟨hdep, htg, -⟩ := hmove.stays hex
      refine groupKey_eq_none (Or.inr fun hg ↦ ?_)
      rcases hout with h | h
      · exact h hdep
      · exact h (htg.trans hg)
    · exact groupKey_eq_none (Or.inl hex)

/-- Under a move the deployment follows, the allocation an allocation of the group replaces was
outside it, or in it with the same canary flag. -/
theorem old_of_move {did : String} {e : Option Allocation} {v : Allocation}
    (hmove : DeploymentMove did e v) :
    e.bind (groupKey did v.taskGroup) = none ∨
      ∃ h, e.bind (groupKey did v.taskGroup) = some (h, canaryOf v.deploymentStatus) := by
  cases e with
  | none => exact Or.inl rfl
  | some ex =>
    by_cases hex : ex.deploymentID = did
    · obtain ⟨-, htg, hc, -⟩ := hmove.stays hex
      refine Or.inr ⟨healthOf ex.deploymentStatus, ?_⟩
      show groupKey did v.taskGroup ex = _
      rw [groupKey_of_mem hex htg.symm, hc]
    · exact Or.inl (groupKey_eq_none (Or.inl hex))

/-- The deltas `updateDeploymentWithAlloc` finds for an allocation of the deployment are the moves
of its three counters between the record of the allocation replaced and the new one. -/
theorem deploymentDeltas_eq {did : String} {e : Option Allocation} {v : Allocation}
    (hmove : DeploymentMove did e v) (hv : v.deploymentID = did) :
    let old := e.bind (groupKey did v.taskGroup)
    let new := groupKey did v.taskGroup v
    deploymentDeltas v e = (recordDelta Option.isSome old new,
      recordDelta (recordHealth true) old new, recordDelta (recordHealth false) old new) := by
  dsimp only
  rw [groupKey_of_mem hv rfl]
  cases e with
  | none =>
    -- a placement, without health
    have hh : healthOf v.deploymentStatus = none := hmove.joins (fun _ h ↦ by cases h) hv
    simp [deploymentDeltas, recordDelta, recordHealth, hh]
  | some ex =>
    by_cases hex : ex.deploymentID = did
    · -- the allocation was in the deployment: its health moves
      obtain ⟨-, htg, -, hmoves⟩ := hmove.stays hex
      have hold : (some ex).bind (groupKey did v.taskGroup) =
          some (healthOf ex.deploymentStatus, canaryOf ex.deploymentStatus) :=
        groupKey_of_mem hex htg.symm
      obtain ⟨h0, hh0⟩ : ∃ h0, healthOf ex.deploymentStatus = h0 := ⟨_, rfl⟩
      obtain ⟨h1, hh1⟩ : ∃ h1, healthOf v.deploymentStatus = h1 := ⟨_, rfl⟩
      rw [hold]
      simp only [deploymentDeltas, Option.all_some, Option.any_some, Option.bind_some,
        hasHealth_eq_isSome, hex, hv, bne_self_eq_false, hh0, hh1] at hmoves ⊢
      clear hh0 hh1
      -- the nine pairs of healths, less the moves `healthMoves` rules out
      rcases h0 with _ | _ | _ <;> rcases h1 with _ | _ | _ <;>
        simp_all [recordDelta, recordHealth, healthMoves]
    · -- the allocation joins the deployment, without health
      have hh : healthOf v.deploymentStatus = none :=
        hmove.joins (fun _ h ↦ by cases h; exact hex) hv
      have hold : (some ex).bind (groupKey did v.taskGroup) = none :=
        groupKey_eq_none (Or.inl hex)
      rw [hold]
      have hne : (ex.deploymentID != v.deploymentID) = true := by
        rw [hv]
        simpa using hex
      simp [deploymentDeltas, recordDelta, recordHealth, hh, hne]

/-- Deltas of zero under a move the deployment follows: the allocation replaced was recorded as
the new one. -/
theorem record_eq_of_deltas_zero {did : String} {e : Option Allocation} {v : Allocation}
    (hmove : DeploymentMove did e v) (hv : v.deploymentID = did)
    (hzero : deploymentDeltas v e = (0, 0, 0)) :
    e.bind (groupKey did v.taskGroup) = groupKey did v.taskGroup v := by
  rw [deploymentDeltas_eq hmove hv] at hzero
  obtain ⟨h1, hh1⟩ : ∃ h1, healthOf v.deploymentStatus = h1 := ⟨_, rfl⟩
  rw [groupKey_of_mem hv rfl, hh1] at hzero ⊢
  rcases old_of_move hmove with hold | ⟨h0, hold⟩ <;> rw [hold] at hzero ⊢
  · -- a placement moves the placed counter
    simp [recordDelta] at hzero
  · rcases h0 with _ | _ | _ <;> rcases h1 with _ | _ | _ <;>
      simp_all [recordDelta, recordHealth]

/-! ### The deployment write -/

/-- What `updateDeploymentWithAlloc` writes: nothing, when the allocation names no deployment,
an unknown one, a task group outside it, or moves no counter; else the deployment with the state
of the allocation's task group moved by the deltas and the allocation's ID among the canaries when
it is a new canary. -/
theorem updateDeploymentWithAlloc_cases (index : ℕ) (alloc : Allocation)
    (existing : Option Allocation) (s : StateStore) :
    let r := s.updateDeploymentWithAlloc index alloc existing
    (r = (s, alloc) ∧
        (alloc.deploymentID = "" ∨ s.deployments.lookup alloc.deploymentID = none ∨
          ∃ deployment, s.deployments.lookup alloc.deploymentID = some deployment ∧
            (deployment.taskGroups.lookup alloc.taskGroup = none ∨
              deploymentDeltas alloc existing = (0, 0, 0)))) ∨
      ∃ deployment dstate, s.deployments.lookup alloc.deploymentID = some deployment ∧
        deployment.taskGroups.lookup alloc.taskGroup = some dstate ∧
        r.1 = s.upsertDeploymentImpl index
          { deployment with
            modifyIndex := index
            taskGroups := deployment.taskGroups.insert alloc.taskGroup
              { dstate with
                placedAllocs := dstate.placedAllocs + (deploymentDeltas alloc existing).1
                healthyAllocs := dstate.healthyAllocs + (deploymentDeltas alloc existing).2.1
                unhealthyAllocs := dstate.unhealthyAllocs + (deploymentDeltas alloc existing).2.2
                placedCanaries :=
                  if canaryOf r.2.deploymentStatus ∧ r.2.id ∉ dstate.placedCanaries then
                    dstate.placedCanaries ++ [r.2.id]
                  else dstate.placedCanaries } } := by
  unfold updateDeploymentWithAlloc
  split
  · exact Or.inl ⟨rfl, Or.inl ‹_›⟩
  · split
    · exact Or.inl ⟨rfl, Or.inr (Or.inl ‹_›)⟩
    · rename_i deployment hdep
      split
      · exact Or.inl ⟨rfl, Or.inr (Or.inr ⟨deployment, hdep, Or.inl ‹_›⟩)⟩
      · rename_i dstate hst
        split
        · rename_i placed healthy unhealthy hdeltas
          split
          · rename_i hzero
            obtain ⟨rfl, rfl, rfl⟩ := hzero
            exact Or.inl ⟨rfl, Or.inr (Or.inr ⟨deployment, hdep, Or.inr hdeltas⟩)⟩
          · refine Or.inr ⟨deployment, dstate, hdep, hst, ?_⟩
            -- the stamped allocation is in the task group of the one given
            simp only [hdeltas]
            split_ifs <;> rfl

theorem upsertDeploymentImpl_lookup_ne (index : ℕ) (deployment : Deployment) (s : StateStore)
    {k : String} (hk : k ≠ deployment.id) :
    (s.upsertDeploymentImpl index deployment).deployments.lookup k = s.deployments.lookup k :=
  AList.lookup_insert_ne hk

theorem upsertDeploymentImpl_lookup_self (index : ℕ) (deployment : Deployment) (s : StateStore) :
    ∃ createIndex, (s.upsertDeploymentImpl index deployment).deployments.lookup deployment.id =
      some { deployment with createIndex := createIndex, modifyIndex := index } :=
  ⟨_, AList.lookup_insert _⟩

theorem upsertDeploymentImpl_keys {index : ℕ} {deployment : Deployment} {s : StateStore}
    (hkeys : ∀ k d, s.deployments.lookup k = some d → d.id = k) :
    ∀ k d, (s.upsertDeploymentImpl index deployment).deployments.lookup k = some d → d.id = k := by
  unfold upsertDeploymentImpl
  exact keyed_insert hkeys { deployment with createIndex := _, modifyIndex := index }

/-! ### Runs -/

/-- What every state of a run keeps: the tables hold each allocation and each deployment under its
ID, and the deployment `did` exists with the task groups of `d0`, each in agreement with the
table. -/
structure DeploymentAgrees (did : String) (d0 : Deployment) (s : StateStore) : Prop where
  keys : ∀ k a, s.allocs.lookup k = some a → a.id = k
  deploymentKeys : ∀ k d, s.deployments.lookup k = some d → d.id = k
  counters : ∃ d, s.deployments.lookup did = some d ∧
    (∀ g, g ∈ d.taskGroups ↔ g ∈ d0.taskGroups) ∧
    ∀ g st, d.taskGroups.lookup g = some st → s.StateMatches did g st

theorem DeploymentAgrees.of_frame {did : String} {d0 : Deployment} {s s' : StateStore}
    (h : DeploymentAgrees did d0 s) (hall : s'.allocs = s.allocs)
    (hdep : s'.deployments = s.deployments) : DeploymentAgrees did d0 s' where
  keys := by
    rw [hall]
    exact h.keys
  deploymentKeys := by
    rw [hdep]
    exact h.deploymentKeys
  counters := by
    obtain ⟨d, hd, hgroups, hm⟩ := h.counters
    exact ⟨d, by rw [hdep]; exact hd, hgroups, fun g st hst ↦ (hm g st hst).of_allocs hall⟩

/-- Storing `w` under its ID, with the deployment `did` left as it is, keeps the agreement when
every group of the deployment records `w` as the allocation it replaces. -/
theorem DeploymentAgrees.store_same {did : String} {d0 : Deployment} {s t : StateStore}
    (h : DeploymentAgrees did d0 s) {w : Allocation} (hall : t.allocs = s.allocs.insert w.id w)
    (hdkeys : ∀ k d, t.deployments.lookup k = some d → d.id = k)
    (hdid : t.deployments.lookup did = s.deployments.lookup did)
    (hsame : ∀ d, s.deployments.lookup did = some d → ∀ g st, d.taskGroups.lookup g = some st →
      (s.allocs.lookup w.id).bind (groupKey did g) = groupKey did g w) :
    DeploymentAgrees did d0 t where
  keys := by
    rw [hall]
    exact keyed_insert h.keys w
  deploymentKeys := hdkeys
  counters := by
    obtain ⟨d, hd, hgroups, hm⟩ := h.counters
    exact ⟨d, hdid.trans hd, hgroups, fun g st hst ↦
      ((hm g st hst).write_same (hsame d hd g st hst)).of_allocs hall⟩

/-- One call of `updateDeploymentWithAlloc` on an allocation whose write the deployment `did`
follows, and the store of the allocation it gives back, keep the agreement. -/
theorem DeploymentAgrees.write {did : String} {d0 : Deployment} {s : StateStore}
    (h : DeploymentAgrees did d0 s) (hid : did ≠ "") (index : ℕ) {v : Allocation}
    (hmove : DeploymentMove did (s.allocs.lookup v.id) v) :
    let r := s.updateDeploymentWithAlloc index v (s.allocs.lookup v.id)
    DeploymentAgrees did d0 { r.1 with allocs := r.1.allocs.insert r.2.id r.2 } := by
  have hsnd := updateDeploymentWithAlloc_snd index v (s.allocs.lookup v.id) s
  have hframe := (updateDeploymentWithAlloc_frame index v (s.allocs.lookup v.id) s).1
  have hcases := updateDeploymentWithAlloc_cases index v (s.allocs.lookup v.id) s
  dsimp only at hsnd hframe hcases ⊢
  generalize s.updateDeploymentWithAlloc index v (s.allocs.lookup v.id) = r at hsnd hframe hcases ⊢
  obtain ⟨hwid, -, -, -, hwtg, -, hwdep, hwh, hwc⟩ := hsnd
  -- the allocation stored is `v`, up to the index of its deployment status
  have hwkey : ∀ g, groupKey did g r.2 = groupKey did g v := fun g ↦ by
    simp only [groupKey, hwdep, hwtg, hwh, hwc]
  have hall : r.1.allocs = s.allocs := by rw [hframe]
  have hall' : ({ r.1 with allocs := r.1.allocs.insert r.2.id r.2 } : StateStore).allocs =
      s.allocs.insert r.2.id r.2 := by
    rw [← hall]
  -- a group `v` is outside records the replaced allocation as `v`: outside
  have hout : ∀ g, (v.deploymentID ≠ did ∨ v.taskGroup ≠ g) →
      (s.allocs.lookup r.2.id).bind (groupKey did g) = groupKey did g r.2 := fun g hg ↦ by
    rw [hwkey, hwid, old_eq_none_of_move hmove hg, groupKey_eq_none hg]
  obtain ⟨d, hd, hgroups, hm⟩ := h.counters
  have hdid : d.id = did := h.deploymentKeys did d hd
  rcases hcases with ⟨hr, hwhy⟩ | ⟨dep, dstate, hdep, hst, hr1⟩
  · -- nothing is written to the deployments
    have hr1 : r.1 = s := congrArg Prod.fst hr
    refine h.store_same hall' (by rw [hr1]; exact h.deploymentKeys) (by rw [hr1]) ?_
    intro d' hd' g st hst
    rw [hd] at hd'
    cases hd'
    by_cases hv : v.deploymentID = did
    · by_cases hg : v.taskGroup = g
      · -- the group of `v`: its deltas were zero
        subst hg
        rcases hwhy with hempty | hnone | ⟨dep, hdep, htg | hzero⟩
        · exact absurd (hv ▸ hempty) hid
        · rw [hv, hd] at hnone
          cases hnone
        · rw [hv, hd] at hdep
          cases hdep
          rw [htg] at hst
          cases hst
        · rw [hwkey, hwid]
          exact record_eq_of_deltas_zero hmove hv hzero
      · exact hout g (Or.inr hg)
    · exact hout g (Or.inl hv)
  · by_cases hv : v.deploymentID = did
    · -- the deployment `did` itself: the group of `v` moves, the others stay
      rw [hv, hd] at hdep
      cases hdep
      have hw : groupKey did v.taskGroup r.2 =
          some (healthOf r.2.deploymentStatus, canaryOf r.2.deploymentStatus) :=
        groupKey_of_mem (hwdep.trans hv) hwtg
      have hcanary : ((s.allocs.lookup r.2.id).bind (groupKey did v.taskGroup)).any Prod.snd = true →
          canaryOf r.2.deploymentStatus = true := by
        rw [hwid, hwc]
        rcases old_of_move hmove with hold | ⟨_, hold⟩ <;> rw [hold]
        · intro h
          cases h
        · exact id
      -- the group of `v` moves by the deltas, which are those `write_counted` expects
      have hmoved := (hm v.taskGroup dstate hst).write_counted hw hcanary
        (show ((deploymentDeltas v (s.allocs.lookup v.id)).1,
            (deploymentDeltas v (s.allocs.lookup v.id)).2.1,
            (deploymentDeltas v (s.allocs.lookup v.id)).2.2) = _ by
          rw [hwkey, hwid]
          exact deploymentDeltas_eq hmove hv)
      obtain ⟨ci, hci⟩ := upsertDeploymentImpl_lookup_self index
        { d with
          modifyIndex := index
          taskGroups := d.taskGroups.insert v.taskGroup
            { dstate with
              placedAllocs := dstate.placedAllocs + (deploymentDeltas v (s.allocs.lookup v.id)).1
              healthyAllocs := dstate.healthyAllocs + (deploymentDeltas v (s.allocs.lookup v.id)).2.1
              unhealthyAllocs :=
                dstate.unhealthyAllocs + (deploymentDeltas v (s.allocs.lookup v.id)).2.2
              placedCanaries :=
                if canaryOf r.2.deploymentStatus ∧ r.2.id ∉ dstate.placedCanaries then
                  dstate.placedCanaries ++ [r.2.id]
                else dstate.placedCanaries } } s
      refine ⟨by rw [hall']; exact keyed_insert h.keys r.2,
        by rw [hr1]; exact upsertDeploymentImpl_keys h.deploymentKeys, _,
        by rw [hr1, ← hdid]; exact hci, fun g ↦ ?_, fun g st hst' ↦ ?_⟩
      · -- the task groups stay those of the deployment
        rw [← hgroups g, AList.mem_insert]
        exact ⟨fun h ↦ h.elim (fun hg ↦ hg ▸ AList.lookup_isSome.mp (by rw [hst]; rfl)) id, Or.inr⟩
      · by_cases hg : g = v.taskGroup
        · subst hg
          rw [AList.lookup_insert] at hst'
          cases hst'
          exact hmoved.of_allocs hall'
        · rw [AList.lookup_insert_ne hg] at hst'
          exact ((hm g st hst').write_same (hout g (Or.inr (Ne.symm hg)))).of_allocs hall'
    · -- another deployment is written
      have hdk : (dep.id : String) = v.deploymentID := h.deploymentKeys _ dep hdep
      refine h.store_same hall' (by rw [hr1]; exact upsertDeploymentImpl_keys h.deploymentKeys)
        (by rw [hr1]; exact upsertDeploymentImpl_lookup_ne _ _ _ (by rw [hdk]; exact Ne.symm hv))
        fun _ _ g _ _ ↦ hout g (Or.inl hv)

/-- Linking the previous allocation changes nothing the deployment records. -/
theorem DeploymentAgrees.linkPrevious {did : String} {d0 : Deployment} {s : StateStore}
    (h : DeploymentAgrees did d0 s) (index : ℕ) (alloc : Allocation) :
    DeploymentAgrees did d0 (StateStore.linkPrevious index alloc s) := by
  unfold StateStore.linkPrevious
  split
  · split
    · rename_i prev hprev
      have hid := h.keys _ prev hprev
      refine h.store_same (w := { prev with nextAllocation := alloc.id, modifyIndex := index })
        rfl h.deploymentKeys rfl fun _ _ g _ _ ↦ ?_
      show (s.allocs.lookup prev.id).bind (groupKey did g) = groupKey did g prev
      rw [hid, hprev]
      rfl
    · exact h
  · exact h

@[simp] theorem id_upsertedAlloc (index : ℕ) (exist : Option Allocation) (alloc : Allocation) :
    (upsertedAlloc index exist alloc).id = alloc.id := by
  cases exist <;> rfl

/-- One allocation of `UpsertAllocs` whose write the deployment follows keeps the agreement. -/
theorem DeploymentAgrees.upsertAlloc {did : String} {d0 : Deployment} {s s' : StateStore}
    {index : ℕ} {alloc : Allocation} (h : DeploymentAgrees did d0 s) (hid : did ≠ "")
    (hmove : DeploymentMove did (s.allocs.lookup alloc.id)
      (upsertedAlloc index (s.allocs.lookup alloc.id) alloc))
    (hup : s.upsertAlloc index alloc = .ok s') : DeploymentAgrees did d0 s' := by
  obtain ⟨s2, hsum, rfl⟩ := upsertAlloc_ok hup
  have hw := h.write hid index (v := upsertedAlloc index (s.allocs.lookup alloc.id) alloc)
    (by rw [id_upsertedAlloc]; exact hmove)
  rw [id_upsertedAlloc] at hw
  dsimp only at hsum hw ⊢
  generalize s.updateDeploymentWithAlloc index _ _ = r at hsum hw ⊢
  -- the summary write in between touches neither table
  have hframe := (updateSummaryWithAlloc_frame hsum).1
  exact (hw.of_frame (by rw [hframe]) (by rw [hframe])).linkPrevious index r.2

@[simp] theorem id_clientUpdatedAlloc (index : ℕ) (exist alloc : Allocation) :
    (clientUpdatedAlloc index exist alloc).id = exist.id := rfl

/-- A client update whose write the deployment follows keeps the agreement. -/
theorem DeploymentAgrees.nestedUpdateAllocFromClient {did : String} {d0 : Deployment}
    {s s' : StateStore} {index : ℕ} {alloc : Allocation} (h : DeploymentAgrees did d0 s)
    (hid : did ≠ "")
    (hmove : ∀ exist, s.allocs.lookup alloc.id = some exist →
      DeploymentMove did (some exist) (clientUpdatedAlloc index exist alloc))
    (hup : s.nestedUpdateAllocFromClient index alloc = .ok s') : DeploymentAgrees did d0 s' := by
  rcases nestedUpdateAllocFromClient_ok hup with ⟨-, rfl⟩ | ⟨exist, hex, s2, hsum, rfl⟩
  · exact h
  · -- the stored allocation is the one updated, under its own ID
    have hlookup : s.allocs.lookup (clientUpdatedAlloc index exist alloc).id = some exist := by
      rw [id_clientUpdatedAlloc, h.keys _ _ hex]
      exact hex
    have hw := h.write hid index (v := clientUpdatedAlloc index exist alloc)
      (by rw [hlookup]; exact hmove exist hex)
    rw [hlookup] at hw
    dsimp only at hsum hw ⊢
    generalize s.updateDeploymentWithAlloc index _ _ = r at hsum hw ⊢
    have hframe := (updateSummaryWithAlloc_frame hsum).1
    exact hw.of_frame (by rw [hframe]) (by rw [hframe])

/-- One allocation write of the runs of `deployment_counts_eq`: an allocation of `UpsertAllocs` or
of `UpdateAllocsFromClient` whose write, as the call makes it, the deployment `did` follows
(`DeploymentMove`). A successful call is a chain of such writes (`upsertAllocsImpl_writes`,
`updateAllocsFromClient_writes`). -/
inductive DeploymentWrite (did : String) : StateStore → StateStore → Prop
  | upsert {s s' : StateStore} {index : ℕ} {alloc : Allocation}
      (hmove : DeploymentMove did (s.allocs.lookup alloc.id)
        (upsertedAlloc index (s.allocs.lookup alloc.id) alloc))
      (h : s.upsertAlloc index alloc = .ok s') : DeploymentWrite did s s'
  | client {s s' : StateStore} {index : ℕ} {alloc : Allocation}
      (hmove : ∀ exist, s.allocs.lookup alloc.id = some exist →
        DeploymentMove did (some exist) (clientUpdatedAlloc index exist alloc))
      (h : s.nestedUpdateAllocFromClient index alloc = .ok s') : DeploymentWrite did s s'

theorem DeploymentAgrees.run {did : String} {d0 : Deployment} {s s' : StateStore}
    (h : DeploymentAgrees did d0 s) (hid : did ≠ "")
    (hrun : Relation.ReflTransGen (DeploymentWrite did) s s') : DeploymentAgrees did d0 s' := by
  induction hrun with
  | refl => exact h
  | tail _ hstep ih =>
    cases hstep with
    | upsert hmove hup => exact ih.upsertAlloc hid hmove hup
    | client hmove hup => exact ih.nestedUpdateAllocFromClient hid hmove hup

/-- A group of a deployment with no allocation in the table agrees with zero counters. -/
theorem StateMatches.empty {s : StateStore} {did : String}
    (hnone : ∀ a ∈ values s.allocs, a.deploymentID ≠ did) (g : String) :
    s.StateMatches did g {} := by
  have hout : ∀ a ∈ values s.allocs, groupKey did g a = none := fun a ha ↦
    groupKey_eq_none (Or.inl (hnone a ha))
  refine ⟨?_, ?_, ?_, List.nodup_nil, fun id ↦ ?_⟩
  · show (0 : ℤ) = ((values s.allocs).countP _ : ℕ)
    rw [List.countP_eq_zero.mpr fun a ha ↦ by simp [hout a ha]]
    rfl
  · show (0 : ℤ) = ((values s.allocs).countP _ : ℕ)
    rw [List.countP_eq_zero.mpr fun a ha ↦ by simp [hout a ha, recordHealth]]
    rfl
  · show (0 : ℤ) = ((values s.allocs).countP _ : ℕ)
    rw [List.countP_eq_zero.mpr fun a ha ↦ by simp [hout a ha, recordHealth]]
    rfl
  · -- no allocation of the table is a canary of the deployment
    unfold isCanary
    cases hid : s.allocs.lookup id with
    | none => simp
    | some a => simp [hout a (mem_values_of_lookup hid)]

/-- Along every run of allocation writes the deployment follows, from a deployment with zero
counters and no allocation in the table, the deployment keeps its task groups, and each one's
counters are the numbers of its allocations in the table, of those healthy and of those
unhealthy, and its canaries are the IDs of its canaries, each once. -/
theorem deployment_counts_eq {s s' : StateStore} {d : Deployment}
    (hkeys : ∀ k a, s.allocs.lookup k = some a → a.id = k)
    (hdkeys : ∀ k d, s.deployments.lookup k = some d → d.id = k) (hid : d.id ≠ "")
    (hd : s.deployments.lookup d.id = some d)
    (hzero : ∀ g st, d.taskGroups.lookup g = some st → st = {})
    (hnone : ∀ a ∈ values s.allocs, a.deploymentID ≠ d.id)
    (hrun : Relation.ReflTransGen (DeploymentWrite d.id) s s') :
    ∃ d', s'.deployments.lookup d.id = some d' ∧ (∀ g, g ∈ d'.taskGroups ↔ g ∈ d.taskGroups) ∧
      ∀ g st, d'.taskGroups.lookup g = some st → s'.StateMatches d.id g st := by
  have hstart : DeploymentAgrees d.id d s :=
    ⟨hkeys, hdkeys, d, hd, fun _ ↦ Iff.rfl, fun g st hst ↦ by
      rw [hzero g st hst]
      exact StateMatches.empty hnone g⟩
  exact (hstart.run hid hrun).counters

/-! ### A deployment and its canary -/

/-- The deployment `d1` of `web`, with zero counters for its task group. -/
def webDeployment : Deployment :=
  { id := "d1"
    «namespace» := defaultNamespace
    jobID := "web"
    jobCreateIndex := 1
    status := .running
    createIndex := 1
    modifyIndex := 1
    taskGroups := (∅ : GoMap String DeploymentState).insert "web" {} }

/-- The store holding `d1` and no allocation. -/
def deploymentStore : StateStore :=
  ⟨[defaultNamespace], [nodePoolDefault], ∅, ∅, ∅,
    (∅ : GoMap String Deployment).insert "d1" webDeployment, ∅, ∅⟩

/-- A canary of `d1`, placed without health. -/
def canaryAlloc : Allocation :=
  { id := "a0"
    «namespace» := defaultNamespace
    jobID := "web"
    jobCreateIndex := 1
    taskGroup := "web"
    deploymentID := "d1"
    deploymentStatus := some { canary := true } }

theorem deployment_counts_eq_canaryHealthy :
    ∃ s1 s2, deploymentStore.upsertAlloc 2 canaryAlloc = .ok s1 ∧
      s1.nestedUpdateAllocFromClient 3
          { canaryAlloc with
            clientStatus := .running
            deploymentStatus := some { healthy := some true } } = .ok s2 ∧
      ∃ d', s2.deployments.lookup webDeployment.id = some d' ∧
        (∀ g, g ∈ d'.taskGroups ↔ g ∈ webDeployment.taskGroups) ∧
        ∀ g st, d'.taskGroups.lookup g = some st → s2.StateMatches webDeployment.id g st := by
  refine ⟨_, _, rfl, rfl, deployment_counts_eq (fun _ _ h ↦ by cases h)
    (@keyed_insert String Deployment _ Deployment.id ∅ (fun _ _ h ↦ by cases h) webDeployment)
    (by decide) rfl (fun g st h ↦ ?_) (fun _ ha ↦ by cases ha)
    (.tail (.single (@DeploymentWrite.upsert _ deploymentStore _ 2 canaryAlloc (fun _ ↦ rfl) rfl))
      (@DeploymentWrite.client _ _ _ 3
        { canaryAlloc with
          clientStatus := .running
          deploymentStatus := some { healthy := some true } } (fun exist hex ↦ ?_) rfl))⟩
  · -- the one task group of `d1` starts at zero
    by_cases hg : g = "web"
    · subst hg
      exact (Option.some.inj h).symm
    · change ((∅ : GoMap String DeploymentState).insert "web" {}).lookup g = some st at h
      rw [AList.lookup_insert_ne hg] at h
      cases h
  · -- the client brings the canary's first health
    obtain rfl := Option.some.inj ((rfl : _ = some _).trans hex)
    exact DeploymentMove.of_stays rfl ⟨rfl, rfl, rfl, rfl⟩

/-- An allocation of `d1` placed with its health already set: the placement branch of
`updateDeploymentWithAlloc` counts it as placed and leaves the healthy counter at zero, while the
group has one healthy allocation. -/
theorem deployment_placed_with_health_uncounted :
    ∃ s', deploymentStore.upsertAllocsImpl 2
        [{ canaryAlloc with deploymentStatus := some { healthy := some true } }] = .ok s' ∧
      (s'.deployments.lookup "d1").map (fun d ↦
        ((GoMap.get d.taskGroups "web" {}).placedAllocs,
          (GoMap.get d.taskGroups "web" {}).healthyAllocs)) = some (1, 0) ∧
      s'.healthCount "d1" "web" true = 1 :=
  ⟨_, rfl, rfl, rfl⟩

end StateStore

end Wander.State
