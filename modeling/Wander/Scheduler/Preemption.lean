import Mathlib.Data.Finset.Basic
import Mathlib.Data.List.Dedup
import Mathlib.Data.List.Sort
import Wander.Lib.Heap
import Wander.Structs.Alloc

/-!
# `scheduler/preemption.go`: preemption for a task group

`Preemptor.PreemptForTaskGroup` looks for allocations to preempt on a node so that a task group
fits its CPU, cores, memory and disk. It subtracts every candidate from the node's remaining
resources, groups the candidates of jobs at least 10 below in priority by priority, and takes
from the lowest group up the closest allocation by `scoreForTaskGroup` until the freed resources
cover the ask. `filterSuperset` then sorts the chosen allocations by distance, largest first, and
keeps them until the ask is covered.

The scores are float64s in Go; `scoreForTaskGroup` and `basicResourceDistance` are parameters
here, into any linear order, and the results hold for every scoring. `Allocation.ComparableResources`
and the node's comparable resources are inputs too: the preemptor reads allocations' resources
only through them.

`preemptForTaskGroup_sound` says what a non-nil result is: distinct candidates of lower jobs,
whose resources with the node's remaining ones cover the ask, and without the last of which they
do not when more than one is preempted. A single preemption is made even when the remaining
resources alone cover the ask (`preemptForTaskGroup_preempts_unneeded`): the loop takes one
allocation before it checks.
-/

set_option autoImplicit false
set_option relaxedAutoImplicit false

namespace Wander.Scheduler

open Wander.Lib Wander.Structs
open scoped List

/-- The fields of `structs.ComparableResources` that preemption for a task group reads: CPU
shares and reserved cores, memory and its maximum, and disk. -/
@[ext]
structure ComparableResources where
  cpuShares : ℤ := 0
  reservedCores : Finset ℕ := ∅
  memoryMB : ℤ := 0
  memoryMaxMB : ℤ := 0
  diskMB : ℤ := 0
deriving DecidableEq

namespace ComparableResources

/-- `ComparableResources.Add`. -/
def add (c delta : ComparableResources) : ComparableResources where
  cpuShares := c.cpuShares + delta.cpuShares
  reservedCores := c.reservedCores ∪ delta.reservedCores
  memoryMB := c.memoryMB + delta.memoryMB
  memoryMaxMB := c.memoryMaxMB + if delta.memoryMaxMB ≠ 0 then delta.memoryMaxMB else delta.memoryMB
  diskMB := c.diskMB + delta.diskMB

/-- `ComparableResources.Subtract`. -/
def subtract (c delta : ComparableResources) : ComparableResources where
  cpuShares := c.cpuShares - delta.cpuShares
  reservedCores := c.reservedCores \ delta.reservedCores
  memoryMB := c.memoryMB - delta.memoryMB
  memoryMaxMB := c.memoryMaxMB - if delta.memoryMaxMB ≠ 0 then delta.memoryMaxMB else delta.memoryMB
  diskMB := c.diskMB - delta.diskMB

/-- `ComparableResources.Superset`, with the dimension that fails. Reserved cores are compared
only when `c` has some. -/
def superset (c other : ComparableResources) : Bool × String :=
  if c.cpuShares < other.cpuShares then (false, "cpu")
  else if c.reservedCores.Nonempty ∧ ¬other.reservedCores ⊆ c.reservedCores then (false, "cores")
  else if c.memoryMB < other.memoryMB then (false, "memory")
  else if c.diskMB < other.diskMB then (false, "disk")
  else (true, "")

/-- Adding two deltas in either order gives the same resources. -/
theorem add_right_comm (c d₁ d₂ : ComparableResources) :
    (c.add d₁).add d₂ = (c.add d₂).add d₁ := by
  apply ComparableResources.ext
  · exact Int.add_right_comm _ _ _
  · exact Finset.union_right_comm _ _ _
  · exact Int.add_right_comm _ _ _
  · exact Int.add_right_comm _ _ _
  · exact Int.add_right_comm _ _ _

end ComparableResources

/-- `allocInfo`. -/
structure AllocInfo where
  maxParallel : ℤ
  resources : ComparableResources
deriving DecidableEq

/-- `Preemptor`, less its context. -/
structure Preemptor where
  currentPreemptions : GoMap NamespacedID (GoMap String ℕ)
  allocDetails : GoMap String AllocInfo
  jobPriority : ℤ
  jobID : NamespacedID
  nodeRemainingResources : ComparableResources
  currentAllocs : List Allocation

namespace Preemptor

/-- `NewPreemptor`. -/
def newPreemptor (jobPriority : ℤ) (jobID : NamespacedID) : Preemptor where
  currentPreemptions := ∅
  allocDetails := ∅
  jobPriority := jobPriority
  jobID := jobID
  nodeRemainingResources := {}
  currentAllocs := []

variable (p : Preemptor)

/-- `SetNode`, given `node.ComparableResources()` and `node.ComparableReservedResources()`. -/
def setNode (nodeResources : ComparableResources) (reserved : Option ComparableResources) :
    Preemptor :=
  { p with
    nodeRemainingResources := match reserved with
      | some c => nodeResources.subtract c
      | none => nodeResources }

/-- The migrate `MaxParallel` of the allocation's group in its job, 0 without one. Go
dereferences a nil job here; `filterAndGroupPreemptibleAllocs` skips such allocations. -/
def allocMaxParallel (alloc : Allocation) : ℤ :=
  match alloc.job.bind (·.lookupTaskGroup alloc.taskGroup) with
  | some tg => match tg.migrate with
    | some migrate => migrate.maxParallel
    | none => 0
  | none => 0

/-- One pass of the loop of `SetCandidates`; `allocResources` is
`Allocation.ComparableResources`. Allocations of the job being placed are no candidates. -/
def addCandidate (allocResources : Allocation → ComparableResources) (alloc : Allocation) :
    Preemptor :=
  if alloc.jobID = p.jobID.id ∧ alloc.namespace = p.jobID.namespace then p
  else
    { p with
      allocDetails := p.allocDetails.insert alloc.id ⟨allocMaxParallel alloc, allocResources alloc⟩
      currentAllocs := p.currentAllocs ++ [alloc] }

/-- `SetCandidates`. -/
def setCandidates (allocResources : Allocation → ComparableResources)
    (allocs : List Allocation) : Preemptor :=
  allocs.foldl (fun p alloc ↦ p.addCandidate allocResources alloc) { p with currentAllocs := [] }

/-- `SetPreemptions`: the allocations already preempted, counted by job and group. -/
def setPreemptions (allocs : List Allocation) : Preemptor :=
  { p with
    currentPreemptions := allocs.foldl (fun m alloc ↦
      let id : NamespacedID := ⟨alloc.jobID, alloc.namespace⟩
      let countMap := GoMap.get m id ∅
      m.insert id (countMap.insert alloc.taskGroup (GoMap.get countMap alloc.taskGroup 0 + 1))) ∅ }

/-- `getNumPreemptions`. -/
def getNumPreemptions (alloc : Allocation) : ℕ :=
  GoMap.get (GoMap.get p.currentPreemptions ⟨alloc.jobID, alloc.namespace⟩ ∅) alloc.taskGroup 0

/-- `p.allocDetails[alloc.ID].resources`; every candidate has details, and a missing entry,
where Go would dereference nil, reads as no resources. -/
def resourcesOf (alloc : Allocation) : ComparableResources :=
  (GoMap.get p.allocDetails alloc.id ⟨0, {}⟩).resources

end Preemptor

/-- `filterAndGroupPreemptibleAllocs`: the allocations with a job at least 10 below `jobPriority`,
grouped by priority, the groups in increasing priority and each in the order of `current`. -/
def filterAndGroupPreemptibleAllocs (jobPriority : ℤ) (current : List Allocation) :
    List (ℤ × List Allocation) :=
  let eligible := current.filter fun alloc ↦ match alloc.job with
    | none => false
    | some job => !decide (jobPriority - job.priority < 10)
  -- the keys of the Go map, sorted by `sort.Slice` on the priority
  let priorities := ((eligible.filterMap fun alloc ↦ alloc.job.map (·.priority)).dedup).insertionSort
    (· ≤ ·)
  priorities.map fun priority ↦
    (priority, eligible.filter fun alloc ↦ alloc.job.map (·.priority) == some priority)

/-- The variables of the greedy loop of `PreemptForTaskGroup`. -/
structure GreedyState where
  bestAllocs : List Allocation := []
  allRequirementsMet : Bool := false
  availableResources : ComparableResources
  resourcesNeeded : ComparableResources

section Greedy

/- The scores are float64s in Go. `scoreForTaskGroup` and `basicResourceDistance` are parameters
here, with values in any linear order and `maxFloat64` the start of the search for the closest
allocation: the results below hold for every scoring. -/
variable {D : Type} [LinearOrder D]
  (scoreForTaskGroup : ComparableResources → ComparableResources → ℤ → ℕ → D)
  (basicResourceDistance : ComparableResources → ComparableResources → D) (maxFloat64 : D)

namespace Preemptor

variable (p : Preemptor)

/-- The search for the closest allocation of a group: the first index of least score below
`maxFloat64`. -/
def closestAllocIndex (resourcesNeeded : ComparableResources) (allocs : List Allocation) :
    Option ℕ :=
  (allocs.zipIdx.foldl (fun (acc : Option ℕ × D) (alloc, index) ↦
    let details := GoMap.get p.allocDetails alloc.id ⟨0, {}⟩
    let distance := scoreForTaskGroup resourcesNeeded details.resources details.maxParallel
      (p.getNumPreemptions alloc)
    if distance < acc.2 then (some index, distance) else acc) (none, maxFloat64)).1

/-- The inner loop of `PreemptForTaskGroup` over one priority group, `fuel` passes at most:
take the closest allocation until the requirements are met or the group is empty. `none` is
Go's panic on the index -1 when no score is below `maxFloat64`. -/
def preemptGroup (resourcesAsked : ComparableResources) :
    ℕ → GreedyState → List Allocation → Option GreedyState
  | 0, st, _ => some st
  | fuel + 1, st, allocs =>
    if 0 < allocs.length ∧ st.allRequirementsMet = false then
      match closestAllocIndex scoreForTaskGroup maxFloat64 p st.resourcesNeeded allocs with
      | none => none
      | some index =>
        match allocs[index]? with
        | none => none
        | some closestAlloc =>
          let closestResources := p.resourcesOf closestAlloc
          let availableResources := st.availableResources.add closestResources
          preemptGroup resourcesAsked fuel
            { bestAllocs := st.bestAllocs ++ [closestAlloc]
              allRequirementsMet := (availableResources.superset resourcesAsked).1
              availableResources
              resourcesNeeded := st.resourcesNeeded.subtract closestResources }
            ((allocs.set index (allocs.getLastD closestAlloc)).dropLast)
    else some st

/-- The outer loop of `PreemptForTaskGroup` over the priority groups, lowest priority first. -/
def preemptGroups (resourcesAsked : ComparableResources) (st : GreedyState) :
    List (ℤ × List Allocation) → Option GreedyState
  | [] => some st
  | (_, allocs) :: groups =>
    match preemptGroup scoreForTaskGroup maxFloat64 p resourcesAsked allocs.length st allocs with
    | none => none
    | some st =>
      if st.allRequirementsMet then some st
      else preemptGroups resourcesAsked st groups

/-- The loop of `filterSuperset` over the sorted allocations: add each until the requirements
are met. -/
def supersetPrefix (resourceAsk : ComparableResources) :
    ComparableResources → List Allocation → List Allocation
  | _, [] => []
  | availableResources, alloc :: rest =>
    let availableResources := availableResources.add (p.resourcesOf alloc)
    if (availableResources.superset resourceAsk).1 then [alloc]
    else alloc :: supersetPrefix resourceAsk availableResources rest

/-- `filterSuperset` with the base preemption resource: sort by distance to the ask, largest
first, and keep the allocations until the requirements are met. -/
def filterSuperset (bestAllocs : List Allocation) (nodeRemainingResources : ComparableResources)
    (resourceAsk : ComparableResources) : List Allocation :=
  let sorted := bestAllocs.insertionSort fun a₁ a₂ ↦
    basicResourceDistance resourceAsk (p.resourcesOf a₂) <
      basicResourceDistance resourceAsk (p.resourcesOf a₁)
  p.supersetPrefix resourceAsk nodeRemainingResources sorted

/-- `PreemptForTaskGroup`, given `resourceAsk.Comparable()`; it subtracts the candidates from the
node's remaining resources in place. `[]` is Go's nil. -/
def preemptForTaskGroup (resourceAsk : ComparableResources) : Preemptor × List Allocation :=
  let p := { p with
    nodeRemainingResources := p.currentAllocs.foldl (fun r alloc ↦ r.subtract (p.resourcesOf alloc))
      p.nodeRemainingResources }
  let allocsByPriority := filterAndGroupPreemptibleAllocs p.jobPriority p.currentAllocs
  match preemptGroups scoreForTaskGroup maxFloat64 p resourceAsk
      { availableResources := p.nodeRemainingResources, resourcesNeeded := resourceAsk }
      allocsByPriority with
  | none => (p, [])
  | some st =>
    if st.allRequirementsMet then
      (p, filterSuperset basicResourceDistance p st.bestAllocs p.nodeRemainingResources resourceAsk)
    else (p, [])

end Preemptor

end Greedy

namespace Preemptor

variable (p : Preemptor)

/-- Resources `r` with those of `allocs` added, in order, as the loops of `PreemptForTaskGroup`
and `filterSuperset` add them. -/
def withPreempted (r : ComparableResources) (allocs : List Allocation) : ComparableResources :=
  allocs.foldl (fun r alloc ↦ r.add (p.resourcesOf alloc)) r

variable {p}

@[simp] theorem withPreempted_nil (r : ComparableResources) : p.withPreempted r [] = r := rfl

@[simp] theorem withPreempted_cons (r : ComparableResources) (alloc : Allocation)
    (allocs : List Allocation) :
    p.withPreempted r (alloc :: allocs) = p.withPreempted (r.add (p.resourcesOf alloc)) allocs :=
  rfl

theorem withPreempted_append (r : ComparableResources) (l₁ l₂ : List Allocation) :
    p.withPreempted r (l₁ ++ l₂) = p.withPreempted (p.withPreempted r l₁) l₂ :=
  List.foldl_append

/-- The resources added do not depend on the order they are added in. -/
theorem withPreempted_perm {l₁ l₂ : List Allocation} (h : l₁.Perm l₂) (r : ComparableResources) :
    p.withPreempted r l₁ = p.withPreempted r l₂ :=
  h.foldl_eq' (fun _ _ _ _ _ ↦ ComparableResources.add_right_comm _ _ _) r

section Prefix

variable {resourceAsk : ComparableResources}

theorem isPrefix_supersetPrefix (r : ComparableResources) (l : List Allocation) :
    p.supersetPrefix resourceAsk r l <+: l := by
  induction l generalizing r with
  | nil => exact List.prefix_refl _
  | cons alloc rest ih =>
    simp only [supersetPrefix]
    split
    · exact List.prefix_cons_inj _ |>.mpr (List.nil_prefix)
    · exact (List.prefix_cons_inj _).mpr (ih _)

/-- When all of `l` meets the ask, so does the prefix `filterSuperset` keeps. -/
theorem superset_supersetPrefix {r : ComparableResources} {l : List Allocation}
    (h : ((p.withPreempted r l).superset resourceAsk).1 = true) :
    ((p.withPreempted r (p.supersetPrefix resourceAsk r l)).superset resourceAsk).1 = true := by
  induction l generalizing r with
  | nil => exact h
  | cons alloc rest ih =>
    simp only [supersetPrefix]
    split
    next hmet => exact hmet
    next => exact ih h

/-- The prefix without its last element does not meet the ask, unless it is empty. -/
theorem not_superset_dropLast_supersetPrefix {r : ComparableResources} {l : List Allocation}
    (hne : (p.supersetPrefix resourceAsk r l).dropLast ≠ []) :
    ((p.withPreempted r (p.supersetPrefix resourceAsk r l).dropLast).superset
      resourceAsk).1 = false := by
  induction l generalizing r with
  | nil => exact absurd rfl hne
  | cons alloc rest ih =>
    simp only [supersetPrefix] at hne ⊢
    split at hne
    · exact absurd rfl hne
    next hmiss =>
      rw [Bool.not_eq_true] at hmiss
      -- the kept prefix is `alloc` followed by the prefix of the rest
      cases hrest : p.supersetPrefix resourceAsk (r.add (p.resourcesOf alloc)) rest with
      | nil => rw [hrest] at hne; exact absurd rfl hne
      | cons b bs =>
        rw [if_neg (by rw [hmiss]; decide), List.dropLast_cons_cons, withPreempted_cons, ← hrest]
        by_cases hlast : (p.supersetPrefix resourceAsk (r.add (p.resourcesOf alloc)) rest).dropLast = []
        · rw [hlast, withPreempted_nil]
          exact hmiss
        · exact ih hlast

end Prefix

end Preemptor

/-- What the greedy loop of `PreemptForTaskGroup` keeps: the available resources are `r₀` with
the chosen allocations added, and the requirements are met only when these cover the ask. -/
structure GreedyInv (p : Preemptor) (r₀ resourcesAsked : ComparableResources) (st : GreedyState) :
    Prop where
  available_eq : st.availableResources = p.withPreempted r₀ st.bestAllocs
  superset_of_met : st.allRequirementsMet = true →
    (st.availableResources.superset resourcesAsked).1 = true

section Greedy

variable {D : Type} [LinearOrder D]
  {scoreForTaskGroup : ComparableResources → ComparableResources → ℤ → ℕ → D} {maxFloat64 : D}
  {p : Preemptor} {r₀ resourcesAsked : ComparableResources}

namespace Preemptor

/-- The inner loop keeps the invariant, and chooses allocations of the group, each once. -/
theorem preemptGroup_spec {fuel : ℕ} {st st' : GreedyState} {allocs : List Allocation}
    (h : p.preemptGroup scoreForTaskGroup maxFloat64 resourcesAsked fuel st allocs = some st')
    (hinv : GreedyInv p r₀ resourcesAsked st) :
    GreedyInv p r₀ resourcesAsked st' ∧
      ∃ rest, (st'.bestAllocs ++ rest).Perm (st.bestAllocs ++ allocs) := by
  induction fuel generalizing st allocs with
  | zero =>
    simp only [preemptGroup, Option.some.injEq] at h
    subst h
    exact ⟨hinv, allocs, List.Perm.refl _⟩
  | succ fuel ih =>
    simp only [preemptGroup] at h
    split at h
    · split at h
      · cases h
      next index _ =>
        split at h
        · cases h
        next closest hclosest =>
          -- the closest allocation joins the chosen ones and leaves the group
          have hinv₁ : GreedyInv p r₀ resourcesAsked
              { bestAllocs := st.bestAllocs ++ [closest]
                allRequirementsMet :=
                  ((st.availableResources.add (p.resourcesOf closest)).superset resourcesAsked).1
                availableResources := st.availableResources.add (p.resourcesOf closest)
                resourcesNeeded := st.resourcesNeeded.subtract (p.resourcesOf closest) } :=
            ⟨by rw [hinv.available_eq, withPreempted_append]; rfl, id⟩
          obtain ⟨hinv', rest, hperm⟩ := ih h hinv₁
          refine ⟨hinv', rest, hperm.trans ?_⟩
          obtain ⟨hlt, rfl⟩ := List.getElem?_eq_some_iff.mp hclosest
          have hne : allocs ≠ [] := List.ne_nil_of_length_pos (by omega)
          rw [List.getLastD_eq_getLast?, List.getLast?_eq_some_getLast hne, Option.getD_some,
            List.append_assoc, List.singleton_append]
          exact (Heap.perm_set_getLast_dropLast hlt).symm.append_left _
    · simp only [Option.some.injEq] at h
      subst h
      exact ⟨hinv, allocs, List.Perm.refl _⟩

/-- The outer loop keeps the invariant, and chooses allocations of the groups, each once. -/
theorem preemptGroups_spec {groups : List (ℤ × List Allocation)} {st st' : GreedyState}
    (h : p.preemptGroups scoreForTaskGroup maxFloat64 resourcesAsked st groups = some st')
    (hinv : GreedyInv p r₀ resourcesAsked st) :
    GreedyInv p r₀ resourcesAsked st' ∧
      ∃ rest, (st'.bestAllocs ++ rest).Perm (st.bestAllocs ++ (groups.map Prod.snd).flatten) := by
  induction groups generalizing st with
  | nil =>
    simp only [preemptGroups, Option.some.injEq] at h
    subst h
    exact ⟨hinv, [], by simp⟩
  | cons group groups ih =>
    simp only [preemptGroups] at h
    split at h
    · cases h
    next st₁ hgroup =>
      obtain ⟨hinv₁, rest₁, hperm₁⟩ := preemptGroup_spec hgroup hinv
      simp only [List.map_cons, List.flatten_cons]
      split at h
      · -- met: the groups after this one are left whole
        simp only [Option.some.injEq] at h
        subst h
        refine ⟨hinv₁, rest₁ ++ (groups.map Prod.snd).flatten, ?_⟩
        rw [← List.append_assoc, ← List.append_assoc]
        exact hperm₁.append_right _
      · obtain ⟨hinv', rest₂, hperm₂⟩ := ih h hinv₁
        refine ⟨hinv', rest₂ ++ rest₁, ?_⟩
        calc st'.bestAllocs ++ (rest₂ ++ rest₁)
            _ = (st'.bestAllocs ++ rest₂) ++ rest₁ := (List.append_assoc _ _ _).symm
            _ ~ (st₁.bestAllocs ++ (groups.map Prod.snd).flatten) ++ rest₁ := hperm₂.append_right _
            _ ~ (st₁.bestAllocs ++ rest₁) ++ (groups.map Prod.snd).flatten := by
              rw [List.append_assoc, List.append_assoc]
              exact List.perm_append_comm.append_left _
            _ ~ (st.bestAllocs ++ group.2) ++ (groups.map Prod.snd).flatten :=
              hperm₁.append_right _
            _ = st.bestAllocs ++ (group.2 ++ (groups.map Prod.snd).flatten) := List.append_assoc _ _ _

end Preemptor

end Greedy

section Groups

variable {jobPriority : ℤ} {current : List Allocation}

/-- Every allocation of a group is a candidate whose job's priority is at least 10 below. -/
theorem mem_filterAndGroupPreemptibleAllocs {alloc : Allocation}
    (h : alloc ∈ ((filterAndGroupPreemptibleAllocs jobPriority current).map Prod.snd).flatten) :
    alloc ∈ current ∧ ∃ job, alloc.job = some job ∧ job.priority + 10 ≤ jobPriority := by
  simp only [filterAndGroupPreemptibleAllocs, List.map_map, List.mem_flatten, List.mem_map,
    Function.comp_apply] at h
  obtain ⟨_, ⟨priority, -, rfl⟩, hmem⟩ := h
  obtain ⟨heligible, -⟩ := List.mem_filter.mp hmem
  obtain ⟨hcur, hjob⟩ := List.mem_filter.mp heligible
  refine ⟨hcur, ?_⟩
  -- the filter keeps only allocations with a job far enough below
  match hj : alloc.job, hjob with
  | some job, hjob =>
    refine ⟨job, rfl, ?_⟩
    simp only [Bool.not_eq_true', decide_eq_false_iff_not, not_lt] at hjob
    omega

/-- The groups hold distinct allocations when the candidates do: each group is a filter of the
candidates by a priority, and the priorities are distinct. -/
theorem nodup_filterAndGroupPreemptibleAllocs (h : current.Nodup) :
    ((filterAndGroupPreemptibleAllocs jobPriority current).map Prod.snd).flatten.Nodup := by
  simp only [filterAndGroupPreemptibleAllocs, List.map_map]
  rw [List.nodup_flatten]
  refine ⟨?_, ?_⟩
  · simp only [List.mem_map, Function.comp_apply]
    rintro _ ⟨priority, -, rfl⟩
    exact (h.filter _).filter _
  · rw [List.pairwise_map]
    refine List.Pairwise.imp (R := (· ≠ ·)) (fun {k₁ k₂} hne ↦ ?_)
      ((List.perm_insertionSort _ _).nodup_iff.mpr (List.nodup_dedup _))
    -- an allocation in both groups would have both priorities
    simp only [Function.comp_apply]
    rw [List.disjoint_left]
    intro alloc h₁ h₂
    have e₁ := (List.mem_filter.mp h₁).2
    have e₂ := (List.mem_filter.mp h₂).2
    simp only [beq_iff_eq] at e₁ e₂
    exact hne (Option.some.inj (e₁.symm.trans e₂))

end Groups

section Candidates

namespace Preemptor

variable {allocResources : Allocation → ComparableResources}

/-- A candidate: an allocation not of the job being placed. -/
def IsCandidate (jobID : NamespacedID) (alloc : Allocation) : Prop :=
  ¬(alloc.jobID = jobID.id ∧ alloc.namespace = jobID.namespace)

instance (jobID : NamespacedID) (alloc : Allocation) : Decidable (IsCandidate jobID alloc) :=
  inferInstanceAs (Decidable (¬_))

/-- The loop of `SetCandidates` changes only the details and the candidates. -/
theorem foldl_addCandidate_frame (q : Preemptor) (allocs : List Allocation) :
    let q' := allocs.foldl (fun p alloc ↦ p.addCandidate allocResources alloc) q
    q'.jobPriority = q.jobPriority ∧ q'.jobID = q.jobID ∧
      q'.nodeRemainingResources = q.nodeRemainingResources := by
  induction allocs generalizing q with
  | nil => exact ⟨rfl, rfl, rfl⟩
  | cons alloc allocs ih =>
    obtain ⟨h₁, h₂, h₃⟩ := ih (q.addCandidate allocResources alloc)
    simp only [List.foldl_cons]
    refine ⟨h₁.trans ?_, h₂.trans ?_, h₃.trans ?_⟩ <;> unfold addCandidate <;> split <;> rfl

/-- The loop of `SetCandidates` appends the candidates in order, with their own details when
the allocations' IDs are distinct, and leaves the details of other IDs alone. -/
theorem foldl_addCandidate_candidates (q : Preemptor) {allocs : List Allocation}
    (hids : (allocs.map (·.id)).Nodup) :
    let q' := allocs.foldl (fun p alloc ↦ p.addCandidate allocResources alloc) q
    q'.currentAllocs = q.currentAllocs ++ allocs.filter (IsCandidate q.jobID ·) ∧
      (∀ alloc ∈ allocs, IsCandidate q.jobID alloc → q'.resourcesOf alloc = allocResources alloc) ∧
      ∀ id ∉ allocs.map (·.id), q'.allocDetails.lookup id = q.allocDetails.lookup id := by
  induction allocs generalizing q with
  | nil => exact ⟨by simp, fun _ h ↦ absurd h List.not_mem_nil, fun _ _ ↦ rfl⟩
  | cons alloc allocs ih =>
    obtain ⟨hnotin, hids'⟩ := List.nodup_cons.mp hids
    have hjob : (q.addCandidate allocResources alloc).jobID = q.jobID := by
      unfold addCandidate; split <;> rfl
    obtain ⟨hcur, hres, hother⟩ := ih (q.addCandidate allocResources alloc) hids'
    rw [hjob] at hcur hres
    simp only [List.foldl_cons]
    refine ⟨?_, ?_, ?_⟩
    · rw [hcur, List.filter_cons]
      unfold addCandidate
      by_cases hc : IsCandidate q.jobID alloc
      · rw [if_neg hc, decide_eq_true hc]
        simp
      · rw [if_pos (not_not.mp hc), decide_eq_false hc]
        rfl
    · intro a ha hc
      rcases List.mem_cons.mp ha with rfl | ha
      · -- no later allocation has its ID, so its own details stay
        have hstay := hother a.id hnotin
        unfold resourcesOf GoMap.get
        rw [hstay]
        unfold addCandidate
        rw [if_neg hc, AList.lookup_insert]
        rfl
      · exact hres a ha hc
    · intro id hid
      simp only [List.map_cons, List.mem_cons, not_or] at hid
      rw [hother id hid.2]
      unfold addCandidate
      split
      · rfl
      · exact AList.lookup_insert_ne hid.1

/-- `SetCandidates` keeps the candidates in order, each with its own details when the
allocations' IDs are distinct. -/
theorem setCandidates_spec (p : Preemptor) {allocs : List Allocation}
    (hids : (allocs.map (·.id)).Nodup) :
    let p' := p.setCandidates allocResources allocs
    p'.jobPriority = p.jobPriority ∧ p'.jobID = p.jobID ∧
      p'.nodeRemainingResources = p.nodeRemainingResources ∧
      p'.currentAllocs = allocs.filter (IsCandidate p.jobID ·) ∧
      ∀ alloc ∈ p'.currentAllocs, p'.resourcesOf alloc = allocResources alloc := by
  obtain ⟨h₁, h₂, h₃⟩ :=
    @foldl_addCandidate_frame allocResources { p with currentAllocs := [] } allocs
  obtain ⟨hcur, hres, -⟩ :=
    @foldl_addCandidate_candidates allocResources { p with currentAllocs := [] } allocs hids
  refine ⟨h₁, h₂, h₃, hcur, fun alloc halloc ↦ ?_⟩
  rw [setCandidates, hcur] at halloc
  obtain ⟨hmem, hc⟩ := List.mem_filter.mp halloc
  exact hres alloc hmem (of_decide_eq_true hc)

end Preemptor

end Candidates

section Sound

namespace Preemptor

variable {D : Type} [LinearOrder D]
  (scoreForTaskGroup : ComparableResources → ComparableResources → ℤ → ℕ → D)
  (basicResourceDistance : ComparableResources → ComparableResources → D) (maxFloat64 : D)

/-- A non-nil result of `PreemptForTaskGroup` after `SetNode` and `SetCandidates`, for
allocations of distinct IDs: its allocations are distinct candidates of jobs at least 10 below in
priority; the node's remaining resources (less the reserved ones and every candidate) with theirs
added cover the ask; and without the last of them they do not, unless that one is alone. -/
theorem preemptForTaskGroup_sound (p : Preemptor) (nodeResources : ComparableResources)
    (reserved : Option ComparableResources) (allocResources : Allocation → ComparableResources)
    {allocs : List Allocation} (hids : (allocs.map (·.id)).Nodup)
    (resourceAsk : ComparableResources) :
    let p' := (p.setNode nodeResources reserved).setCandidates allocResources allocs
    let candidates := allocs.filter (IsCandidate p.jobID ·)
    let remaining := candidates.foldl (fun r alloc ↦ r.subtract (allocResources alloc))
      (p.setNode nodeResources reserved).nodeRemainingResources
    let preempted :=
      (p'.preemptForTaskGroup scoreForTaskGroup basicResourceDistance maxFloat64 resourceAsk).2
    preempted ≠ [] →
      preempted.Nodup ∧
      (∀ alloc ∈ preempted, alloc ∈ candidates ∧
        ∃ job, alloc.job = some job ∧ job.priority + 10 ≤ p.jobPriority) ∧
      ((preempted.foldl (fun r alloc ↦ r.add (allocResources alloc)) remaining).superset
        resourceAsk).1 = true ∧
      (preempted.dropLast ≠ [] →
        ((preempted.dropLast.foldl (fun r alloc ↦ r.add (allocResources alloc)) remaining).superset
          resourceAsk).1 = false) := by
  intro p' candidates remaining preempted hne
  obtain ⟨hprio, hjobID, hrem, hcur, hres⟩ :=
    @setCandidates_spec allocResources (p.setNode nodeResources reserved) allocs hids
  -- the run of the greedy loop that met the requirements, and the filter after it
  obtain ⟨st, hst, hmet, hfilter⟩ : ∃ st,
      preemptGroups scoreForTaskGroup maxFloat64
        { p' with nodeRemainingResources := (p'.currentAllocs.foldl
            (fun r alloc ↦ r.subtract (p'.resourcesOf alloc)) p'.nodeRemainingResources) }
        resourceAsk
        { availableResources := (p'.currentAllocs.foldl
            (fun r alloc ↦ r.subtract (p'.resourcesOf alloc)) p'.nodeRemainingResources)
          resourcesNeeded := resourceAsk }
        (filterAndGroupPreemptibleAllocs p'.jobPriority p'.currentAllocs) = some st ∧
      st.allRequirementsMet = true ∧
      preempted = filterSuperset basicResourceDistance
        { p' with nodeRemainingResources := (p'.currentAllocs.foldl
            (fun r alloc ↦ r.subtract (p'.resourcesOf alloc)) p'.nodeRemainingResources) }
        st.bestAllocs (p'.currentAllocs.foldl (fun r alloc ↦ r.subtract (p'.resourcesOf alloc))
          p'.nodeRemainingResources) resourceAsk := by
    simp only [preempted, preemptForTaskGroup] at hne ⊢
    split at hne
    · exact absurd rfl hne
    next st hst =>
      split at hne
      next hmet => exact ⟨st, hst, hmet, by rw [if_pos hmet]⟩
      · exact absurd rfl hne
  have hcur : p'.currentAllocs = candidates := hcur
  -- the node's remaining resources once the candidates are subtracted
  generalize hR : p'.currentAllocs.foldl (fun r alloc ↦ r.subtract (p'.resourcesOf alloc))
    p'.nodeRemainingResources = R at hst hfilter
  have hres' : ∀ alloc ∈ candidates, p'.resourcesOf alloc = allocResources alloc :=
    fun alloc halloc ↦ hres alloc (hcur ▸ halloc)
  have hremaining : R = remaining := by
    rw [← hR, hcur, hrem]
    exact List.foldl_ext _ _ _ fun r alloc halloc ↦ by rw [hres' alloc halloc]
  -- the greedy loop chose candidates, each once, whose resources cover the ask
  obtain ⟨hinv, rest, hperm⟩ := preemptGroups_spec hst
    (⟨rfl, fun h ↦ absurd h Bool.false_ne_true⟩ :
      GreedyInv { p' with nodeRemainingResources := R } R resourceAsk
        { availableResources := R, resourcesNeeded := resourceAsk })
  have hcover := hinv.available_eq ▸ hinv.superset_of_met hmet
  have hgroups : (((filterAndGroupPreemptibleAllocs p'.jobPriority p'.currentAllocs).map
      Prod.snd).flatten).Nodup :=
    nodup_filterAndGroupPreemptibleAllocs (hcur ▸ (hids.of_map _).filter _)
  have hbest : st.bestAllocs.Nodup := (hperm.nodup_iff.mpr (by simpa using hgroups)).of_append_left
  have hmem : ∀ alloc ∈ st.bestAllocs, alloc ∈ candidates ∧
      ∃ job, alloc.job = some job ∧ job.priority + 10 ≤ p.jobPriority := by
    intro alloc halloc
    have hin := hperm.subset (List.mem_append_left rest halloc)
    rw [List.nil_append] at hin
    obtain ⟨hcand, hjob⟩ := mem_filterAndGroupPreemptibleAllocs hin
    rw [hcur] at hcand
    exact ⟨hcand, hprio ▸ hjob⟩
  -- `filterSuperset` keeps a prefix of a reordering of them
  unfold filterSuperset at hfilter
  rw [hfilter]
  set q : Preemptor := { p' with nodeRemainingResources := R }
  set sorted := st.bestAllocs.insertionSort fun a₁ a₂ ↦
    basicResourceDistance resourceAsk (q.resourcesOf a₂) <
      basicResourceDistance resourceAsk (q.resourcesOf a₁)
  have hsorted : sorted.Perm st.bestAllocs := List.perm_insertionSort _ _
  have hpre := @isPrefix_supersetPrefix q resourceAsk R sorted
  have hkept : ∀ alloc ∈ q.supersetPrefix resourceAsk R sorted, alloc ∈ st.bestAllocs :=
    fun alloc halloc ↦ hsorted.subset (hpre.subset halloc)
  -- on candidates the details hold the resources `allocResources` gives
  have hfold : ∀ l : List Allocation, (∀ alloc ∈ l, alloc ∈ candidates) →
      l.foldl (fun r alloc ↦ r.add (allocResources alloc)) remaining = q.withPreempted R l := by
    intro l hl
    rw [← hremaining]
    exact List.foldl_ext _ _ _ fun r alloc halloc ↦ by
      rw [show q.resourcesOf alloc = allocResources alloc from hres' alloc (hl alloc halloc)]
  refine ⟨hpre.sublist.nodup (hsorted.nodup_iff.mpr hbest),
    fun alloc halloc ↦ hmem alloc (hkept alloc halloc), ?_, fun hne' ↦ ?_⟩
  · rw [hfold _ fun alloc halloc ↦ (hmem alloc (hkept alloc halloc)).1]
    exact superset_supersetPrefix (by rwa [withPreempted_perm hsorted])
  · rw [hfold _ fun alloc halloc ↦
      (hmem alloc (hkept alloc (List.dropLast_subset _ halloc))).1]
    exact not_superset_dropLast_supersetPrefix hne'

/-- A candidate of a job 40 below in priority. -/
def lowAlloc : Allocation :=
  { id := "a1", jobID := "batch", «namespace» := "default",
    job := some { id := "batch", «namespace» := "default", priority := 10 } }

/-- A node of 1000 CPU shares running `lowAlloc`, of 100 shares, asked for 200 shares by a job of
priority 50. There is a single candidate, so the real distances, all below `MaxFloat64`, choose
it like the constant scores here. -/
def lowAllocPreemptor : Preemptor :=
  ((newPreemptor 50 ⟨"web", "default"⟩).setNode { cpuShares := 1000 } none).setCandidates
    (fun _ ↦ { cpuShares := 100 }) [lowAlloc]

theorem preemptForTaskGroup_sound_lowAlloc :
    ([lowAlloc].map (·.id)).Nodup ∧
      let candidates := [lowAlloc].filter (IsCandidate ⟨"web", "default"⟩ ·)
      let remaining := candidates.foldl
        (fun (r : ComparableResources) _ ↦ r.subtract { cpuShares := 100 }) { cpuShares := 1000 }
      let preempted := (lowAllocPreemptor.preemptForTaskGroup (fun _ _ _ _ ↦ (0 : ℤ))
        (fun _ _ ↦ (0 : ℤ)) 1 { cpuShares := 200 }).2
      preempted ≠ [] ∧ preempted.Nodup ∧
        (∀ alloc ∈ preempted, alloc ∈ candidates ∧
          ∃ job, alloc.job = some job ∧ job.priority + 10 ≤ 50) ∧
        ((preempted.foldl (fun (r : ComparableResources) _ ↦ r.add { cpuShares := 100 })
          remaining).superset { cpuShares := 200 }).1 = true ∧
        (preempted.dropLast ≠ [] →
          ((preempted.dropLast.foldl (fun (r : ComparableResources) _ ↦ r.add { cpuShares := 100 })
            remaining).superset { cpuShares := 200 }).1 = false) :=
  have hids : ([lowAlloc].map (·.id)).Nodup := by decide
  have hne : (lowAllocPreemptor.preemptForTaskGroup (fun _ _ _ _ ↦ (0 : ℤ)) (fun _ _ ↦ (0 : ℤ)) 1
      { cpuShares := 200 }).2 ≠ [] := by decide
  ⟨hids, hne, preemptForTaskGroup_sound (fun _ _ _ _ ↦ (0 : ℤ)) (fun _ _ ↦ (0 : ℤ)) 1
    (newPreemptor 50 ⟨"web", "default"⟩) { cpuShares := 1000 } none (fun _ ↦ { cpuShares := 100 })
    hids { cpuShares := 200 } hne⟩

/-- The node's remaining resources, 900 shares, already cover the ask: `PreemptForTaskGroup`
still preempts `lowAlloc`, and the set without it still covers the ask. -/
theorem preemptForTaskGroup_preempts_unneeded :
    (lowAllocPreemptor.preemptForTaskGroup (fun _ _ _ _ ↦ (0 : ℤ)) (fun _ _ ↦ (0 : ℤ)) 1
        { cpuShares := 200 }).2 = [lowAlloc] ∧
      ((({ cpuShares := 1000 } : ComparableResources).subtract { cpuShares := 100 }).superset
        { cpuShares := 200 }).1 = true := by
  decide

end Preemptor

end Sound

end Wander.Scheduler
