import Mathlib.Algebra.Order.Ring.Rat
import Wander.Scheduler.PropertySet

/-!
# `scheduler/spread.go`: the spread iterator

The spread iterator scores a node by how far each spread of the job and of the task group is from
its desired distribution. For each group it keeps one property set per spread (the job's spreads
first) and the spread information of `computeSpreadInfo`: for each spread attribute its weight and
the desired count of each target value, the remainder of the group's count under
`implicitTarget`. A spread's share of the score is its weight divided by `sumSpreadWeights`.

The iterator keeps state across `SetJob` and `SetTaskGroup`. `SetJob` drops the group
information and property sets, but replaces the job's spreads only when the new job has some, and
`computeSpreadInfo` adds the weights it sees to `sumSpreadWeights`, which nothing resets
(`sumSpreadWeights_setTaskGroup`). `Next` keeps the lowest boost it has given in
`lowestSpreadBoost`, which only falls (`lowestSpreadBoost_next_le`).

The source's `float64` scores and desired counts are rationals here, so sums and quotients are
exact, and a quotient by a zero sum of weights is zero where the source has an infinity or NaN.
The log lines and metrics of `Next` are left out.
-/

set_option autoImplicit false
set_option relaxedAutoImplicit false

namespace Wander.Scheduler

open Wander.Lib Wander.Structs GoMap

/-- `implicitTarget`: the values no target of a spread names. -/
def implicitTarget : String := "*"

/-- `spreadInfo`. -/
structure SpreadInfo where
  weight : ℤ
  desiredCounts : GoMap String ℚ
deriving DecidableEq

/-- `SpreadIterator`, less its context and source. -/
structure SpreadIterator where
  job : Job := {}
  tg : TaskGroup := { name := "", count := 0 }
  jobSpreads : List Spread := []
  tgSpreadInfo : GoMap String (GoMap String SpreadInfo) := ∅
  sumSpreadWeights : ℤ := 0
  lowestSpreadBoost : ℚ := -1
  hasSpread : Bool := false
  groupPropertySets : GoMap String (List PropertySet) := ∅
deriving DecidableEq

/-- `NewSpreadIterator`. -/
def newSpreadIterator : SpreadIterator := {}

namespace SpreadIterator

/-- `SpreadIterator.SetJob`: the job's spreads replace the kept ones only when the job has some;
the groups' spread information and property sets are dropped. -/
def setJob (it : SpreadIterator) (job : Job) : SpreadIterator :=
  { it with
    job := job
    jobSpreads := if job.spreads ≠ [] then job.spreads else it.jobSpreads
    tgSpreadInfo := ∅
    groupPropertySets := ∅ }

/-- The property set of one spread of group `tg`: the spread's attribute with no limit, and the
values its targets name. -/
def spreadPropertySet (ctx : EvalContext) (job : Job) (tg : TaskGroup) (spread : Spread) :
    PropertySet :=
  ((newPropertySet job).setTargetAttribute ctx spread.attribute tg.name).setTargetValues
    (spread.spreadTarget.map (·.value))

/-- The desired count of one target of a spread, for a group of `totalCount` allocations. -/
def targetCount (totalCount : ℤ) (st : SpreadTarget) : ℚ :=
  (st.percent : ℚ) / 100 * totalCount

/-- The desired counts `computeSpreadInfo` gives one spread: each target's share of the count,
and what the targets leave of it under `implicitTarget` when they name some but not all. -/
def desiredCounts (totalCount : ℤ) (spread : Spread) : GoMap String ℚ :=
  let desired := spread.spreadTarget.foldl
    (fun desired st ↦ desired.insert st.value (targetCount totalCount st)) ∅
  let sumDesiredCounts := (spread.spreadTarget.map (targetCount totalCount)).sum
  if sumDesiredCounts > 0 ∧ sumDesiredCounts < totalCount then
    desired.insert implicitTarget (totalCount - sumDesiredCounts)
  else desired

/-- `SpreadIterator.computeSpreadInfo`: the spread information of the group's and the job's
spreads, keyed by attribute, the later spread of an attribute winning; their weights are added
to the running sum. -/
def computeSpreadInfo (it : SpreadIterator) (tg : TaskGroup) : SpreadIterator :=
  let combinedSpreads := tg.spreads ++ it.jobSpreads
  let spreadInfos := combinedSpreads.foldl (fun spreadInfos spread ↦
    spreadInfos.insert spread.attribute ⟨spread.weight, desiredCounts tg.count spread⟩) ∅
  { it with
    tgSpreadInfo := it.tgSpreadInfo.insert tg.name spreadInfos
    sumSpreadWeights :=
      combinedSpreads.foldl (fun sum spread ↦ sum + spread.weight) it.sumSpreadWeights }

/-- The property sets `SpreadIterator.SetTaskGroup` keeps: the group's, one for each spread with
the job's first, are built the first time the group is set after `SetJob`. -/
def buildPropertySets (it : SpreadIterator) (ctx : EvalContext) (tg : TaskGroup) :
    GoMap String (List PropertySet) :=
  if (it.groupPropertySets.lookup tg.name).isNone then
    let sets := (it.jobSpreads ++ tg.spreads).map (spreadPropertySet ctx it.job tg)
    -- the source appends to the group's entry once per spread, so none creates no entry
    if sets = [] then it.groupPropertySets else it.groupPropertySets.insert tg.name sets
  else it.groupPropertySets

/-- `SpreadIterator.SetTaskGroup`: the group's spread information is computed the first time the
group is set after `SetJob`. -/
def setTaskGroup (it : SpreadIterator) (ctx : EvalContext) (tg : TaskGroup) : SpreadIterator :=
  let groupPropertySets := it.buildPropertySets ctx tg
  let it := { it with
    tg := tg
    groupPropertySets := groupPropertySets
    hasSpread := (get groupPropertySets tg.name []).length ≠ 0 }
  if (it.tgSpreadInfo.lookup tg.name).isNone then it.computeSpreadInfo tg else it

/-- `SpreadIterator.Reset`: every property set recounts the plan. -/
def reset (it : SpreadIterator) (ctx : EvalContext) : SpreadIterator :=
  { it with
    groupPropertySets := mapValues (List.map (·.populateProposed ctx)) it.groupPropertySets }

/-- The loop of `evenSpreadScoreBoost` over the counts of a property set: the smallest and the
largest count, where a zero found so far gives way to the next count. -/
def minMaxCount (counts : List ℕ) : ℕ × ℕ :=
  counts.foldl (fun acc value ↦
    (if acc.1 = 0 ∨ value < acc.1 then value else acc.1,
      if acc.2 = 0 ∨ value > acc.2 then value else acc.2)) (0, 0)

/-- `evenSpreadScoreBoost`: the boost of a node for a spread that names no targets, from how far
its value's count is from the least and the most used values. -/
def evenSpreadScoreBoost (pset : PropertySet) (option : Node) : ℚ :=
  let combinedUseMap := pset.getCombinedUseMap
  if combinedUseMap.entries.isEmpty then 0
  else match getProperty (some option) pset.targetAttribute with
    | none => -1
    | some nValue =>
      let currentAttributeCount := get combinedUseMap nValue 0
      let (minCount, maxCount) := minMaxCount (values combinedUseMap)
      let deltaBoost : ℚ :=
        if minCount = 0 then -1 else ((minCount : ℤ) - currentAttributeCount : ℤ) / minCount
      if currentAttributeCount ≠ minCount then deltaBoost
      else if minCount = maxCount then -1
      else if minCount = 0 then 1
      else ((maxCount : ℤ) - minCount : ℤ) / minCount

/-- What one property set adds to the score in `SpreadIterator.Next`, and the lowest boost given
so far after it. -/
def scorePropertySet (it : SpreadIterator) (option : Node) (lowestSpreadBoost : ℚ)
    (pset : PropertySet) : ℚ × ℚ :=
  match pset.usedCount option with
  | (nValue, errorMsg, usedCount) =>
    -- the placement on this node is counted too
    let usedCount := usedCount + 1
    if errorMsg ≠ "" then (-1, lowestSpreadBoost)
    else match (get it.tgSpreadInfo it.tg.name ∅).lookup pset.targetAttribute with
      | none => (0, lowestSpreadBoost)
      | some spreadDetails =>
        if spreadDetails.desiredCounts.entries.isEmpty then
          (evenSpreadScoreBoost pset option, lowestSpreadBoost)
        else
          match spreadDetails.desiredCounts.lookup nValue <|>
              spreadDetails.desiredCounts.lookup implicitTarget with
          | none => (-1, lowestSpreadBoost)
          | some desiredCount =>
            let spreadWeight : ℚ := spreadDetails.weight / it.sumSpreadWeights
            if desiredCount = 0 then (lowestSpreadBoost, lowestSpreadBoost)
            else
              let scoreBoost := (desiredCount - usedCount) / desiredCount * spreadWeight
              (scoreBoost, if scoreBoost < lowestSpreadBoost then scoreBoost else lowestSpreadBoost)

/-- The loop of `SpreadIterator.Next` over the group's property sets: the total score and the
lowest boost given so far. -/
def scoreLoop (it : SpreadIterator) (option : Node) (acc : ℚ × ℚ) (pset : PropertySet) :
    ℚ × ℚ :=
  let r := it.scorePropertySet option acc.2 pset
  (acc.1 + r.1, r.2)

/-- `SpreadIterator.Next` on one option: the iterator with its lowest boost updated, and the score
appended to the option, none when the group has no spread or the total is zero. -/
def next (it : SpreadIterator) (option : Node) : SpreadIterator × Option ℚ :=
  if !it.hasSpread then (it, none)
  else
    let r := (get it.groupPropertySets it.tg.name []).foldl (it.scoreLoop option)
      (0, it.lowestSpreadBoost)
    ({ it with lowestSpreadBoost := r.2 }, if r.1 ≠ 0 then some r.1 else none)

/-! ### What the iterator keeps from one call to the next -/

@[simp] theorem setJob_jobSpreads (it : SpreadIterator) (job : Job) :
    (it.setJob job).jobSpreads = if job.spreads ≠ [] then job.spreads else it.jobSpreads := rfl

@[simp] theorem setJob_sumSpreadWeights (it : SpreadIterator) (job : Job) :
    (it.setJob job).sumSpreadWeights = it.sumSpreadWeights := rfl

@[simp] theorem setJob_tgSpreadInfo (it : SpreadIterator) (job : Job) :
    (it.setJob job).tgSpreadInfo = ∅ := rfl

@[simp] theorem reset_sumSpreadWeights (it : SpreadIterator) (ctx : EvalContext) :
    (it.reset ctx).sumSpreadWeights = it.sumSpreadWeights := rfl

@[simp] theorem reset_tgSpreadInfo (it : SpreadIterator) (ctx : EvalContext) :
    (it.reset ctx).tgSpreadInfo = it.tgSpreadInfo := rfl

@[simp] theorem reset_jobSpreads (it : SpreadIterator) (ctx : EvalContext) :
    (it.reset ctx).jobSpreads = it.jobSpreads := rfl

/-- The running sum after a loop over spreads: the start plus their weights. -/
theorem foldl_add_weight (spreads : List Spread) (sum : ℤ) :
    spreads.foldl (fun sum spread ↦ sum + spread.weight) sum =
      sum + (spreads.map (·.weight)).sum := by
  induction spreads generalizing sum with
  | nil => simp
  | cons spread spreads ih =>
    rw [List.foldl_cons, ih, List.map_cons, List.sum_cons, Int.add_assoc]

theorem sumSpreadWeights_computeSpreadInfo (it : SpreadIterator) (tg : TaskGroup) :
    (it.computeSpreadInfo tg).sumSpreadWeights =
      it.sumSpreadWeights + ((tg.spreads ++ it.jobSpreads).map (·.weight)).sum :=
  foldl_add_weight _ _

/-- `SetTaskGroup` adds the weights of the group's and the job's spreads to the running sum when
the group's spread information is not yet built, and leaves the sum alone otherwise. -/
theorem sumSpreadWeights_setTaskGroup (it : SpreadIterator) (ctx : EvalContext) (tg : TaskGroup) :
    (it.setTaskGroup ctx tg).sumSpreadWeights =
      if (it.tgSpreadInfo.lookup tg.name).isNone then
        it.sumSpreadWeights + ((tg.spreads ++ it.jobSpreads).map (·.weight)).sum
      else it.sumSpreadWeights := by
  by_cases hbuilt : (it.tgSpreadInfo.lookup tg.name).isNone
  · simp only [setTaskGroup, hbuilt, if_true, sumSpreadWeights_computeSpreadInfo]
  · simp only [setTaskGroup, hbuilt, Bool.false_eq_true, if_false]

/-- One property set never raises the lowest boost. -/
theorem scorePropertySet_lowest_le (it : SpreadIterator) (option : Node) (lowest : ℚ)
    (pset : PropertySet) : (it.scorePropertySet option lowest pset).2 ≤ lowest := by
  unfold scorePropertySet
  split
  split_ifs
  · exact le_rfl
  · split
    · exact le_rfl
    · split_ifs
      · exact le_rfl
      · split
        · exact le_rfl
        · split_ifs with hzero
          · exact le_rfl
          · dsimp only
            split_ifs with hlt
            · exact le_of_lt hlt
            · exact le_rfl

theorem foldl_scoreLoop_lowest_le (it : SpreadIterator) (option : Node)
    (sets : List PropertySet) (acc : ℚ × ℚ) :
    (sets.foldl (it.scoreLoop option) acc).2 ≤ acc.2 := by
  induction sets generalizing acc with
  | nil => exact le_rfl
  | cons pset sets ih =>
    exact (ih _).trans (scorePropertySet_lowest_le it option acc.2 pset)

/-- `Next` never raises the lowest boost it keeps. -/
theorem lowestSpreadBoost_next_le (it : SpreadIterator) (option : Node) :
    (it.next option).1.lowestSpreadBoost ≤ it.lowestSpreadBoost := by
  unfold next
  split
  · exact le_rfl
  · exact foldl_scoreLoop_lowest_le it option _ _

end SpreadIterator

end Wander.Scheduler
