import Wander.Scheduler.Context
import Wander.Lib.Strings

/-!
# `scheduler/propertyset.go`: counting the values of a node property

A property set counts, for one distinct_property constraint of a job or of one of its groups, how
many of the job's allocations sit on nodes with each value of the constrained attribute: those
already placed and not terminal (`existingValues`), those the plan places (`proposedValues`) and
those the plan stops (`clearedValues`). A node passes while the combined count of its value is
below the constraint's limit. Constraint targets are resolved against a node by `resolveTarget`
of `scheduler/feasible.go`. Go's `(value, ok)` results are `Option` here: every failed lookup of
the source returns the empty string with `false`.
-/

set_option autoImplicit false
set_option relaxedAutoImplicit false

namespace Wander.Scheduler

open Wander.Lib Wander.Structs Wander.State GoMap

/-- `resolveTarget`: a target that is not an interpolation is its own value; an interpolation
reads a field of the node, or one of its attributes or meta entries. -/
def resolveTarget (target : String) (node : Node) : Option String :=
  if !hasPrefix target "$\x7b" then some target
  else if target = "$\x7bnode.unique.id\x7d" then some node.id
  else if target = "$\x7bnode.datacenter\x7d" then some node.datacenter
  else if target = "$\x7bnode.unique.name\x7d" then some node.name
  else if target = "$\x7bnode.class\x7d" then some node.nodeClass
  else if target = "$\x7bnode.pool\x7d" then some node.nodePool
  else if hasPrefix target "$\x7battr." then
    node.attributes.lookup (trimSuffix (trimPrefix target "$\x7battr.") "\x7d")
  else if hasPrefix target "$\x7bmeta." then
    node.meta.lookup (trimSuffix (trimPrefix target "$\x7bmeta.") "\x7d")
  else none

/-- `getProperty`; `none` stands for a nil node. -/
def getProperty (n : Option Node) (property : String) : Option String :=
  match n with
  | none => none
  | some n => if property = "" then none else resolveTarget property n

/-- `propertySet`, less its context and logger. `targetValues` is the set of explicitly expected
values, empty for a distinct_property constraint. -/
structure PropertySet where
  jobID : String
  «namespace» : String
  taskGroup : String := ""
  targetAttribute : String := ""
  targetValues : List String := []
  allowedCount : ℕ := 0
  errorBuilding : Option String := none
  existingValues : GoMap String ℕ := ∅
  proposedValues : GoMap String ℕ := ∅
  clearedValues : GoMap String ℕ := ∅
deriving DecidableEq

/-- `NewPropertySet`. -/
def newPropertySet (job : Job) : PropertySet :=
  { jobID := job.id
    «namespace» := job.namespace }

namespace PropertySet

/-- `propertySet.targetedPropertyValue`: values outside the expected ones count as one
wildcard. -/
def targetedPropertyValue (p : PropertySet) (propertyValue : String) : String :=
  if p.targetValues.isEmpty || p.targetValues.contains propertyValue then propertyValue else "*"

/-- `propertySet.filterAllocs`, up to the order of the result: the source removes an allocation
by moving the last one into its place. -/
def filterAllocs (p : PropertySet) (allocs : List Allocation) (filterTerminal : Bool) :
    List Allocation :=
  allocs.filter fun a ↦
    !((filterTerminal && a.terminalStatus) || (p.taskGroup != "" && a.taskGroup != p.taskGroup))

/-- `propertySet.buildNodeMap`: the nodes of the allocations, `none` for a node the state does not
hold. The store's read cannot fail here. -/
def buildNodeMap (state : StateStore) (allocs : List Allocation) : GoMap String (Option Node) :=
  allocs.foldl (fun nodes a ↦
    if a.nodeID ∈ nodes then nodes else nodes.insert a.nodeID (state.nodeByID a.nodeID)) ∅

/-- `propertySet.populateProperties`: one count for each allocation whose node has the
property. -/
def populateProperties (p : PropertySet) (allocs : List Allocation)
    (nodes : GoMap String (Option Node)) (properties : GoMap String ℕ) : GoMap String ℕ :=
  allocs.foldl (fun props a ↦
    match getProperty (get nodes a.nodeID none) p.targetAttribute with
    | none => props
    | some nProperty =>
      let v := p.targetedPropertyValue nProperty
      props.insert v (get props v 0 + 1)) properties

/-- `propertySet.populateExisting`: the job's allocations of the current job version that are
not terminal. -/
def populateExisting (p : PropertySet) (state : StateStore) : PropertySet :=
  let allocs := state.allocsByJob p.namespace p.jobID false
  let allocs := p.filterAllocs allocs true
  let nodes := buildNodeMap state allocs
  { p with existingValues := p.populateProperties allocs nodes p.existingValues }

/-- The loop of `PopulateProposed` that takes back a cleared value a placement uses again: a
count of zero is deleted and a count above one decremented, while a count of one is kept. -/
def unclear (cleared : GoMap String ℕ) (value : String) : GoMap String ℕ :=
  match cleared.lookup value with
  | none => cleared
  | some current =>
    if current = 0 then cleared.erase value
    else if current > 1 then cleared.insert value (current - 1)
    else cleared

/-- `propertySet.PopulateProposed`. The stops of the plan are counted whatever their status; the
placements only while they are not terminal. -/
def populateProposed (p : PropertySet) (ctx : EvalContext) : PropertySet :=
  let stopping := p.filterAllocs (contents ctx.plan.nodeUpdate) false
  let proposed := p.filterAllocs (contents ctx.plan.nodeAllocation) true
  let nodes := buildNodeMap ctx.state (stopping ++ proposed)
  let cleared := p.populateProperties stopping nodes ∅
  let proposedValues := p.populateProperties proposed nodes ∅
  { p with
    proposedValues := proposedValues
    clearedValues := proposedValues.keys.foldl unclear cleared }

/-- `propertySet.setTargetAttributeWithCount`. -/
def setTargetAttributeWithCount (p : PropertySet) (ctx : EvalContext) (targetAttribute : String)
    (allowedCount : ℕ) (taskGroup : String) : PropertySet :=
  let p := if taskGroup ≠ "" then { p with taskGroup := taskGroup } else p
  let p := { p with targetAttribute := targetAttribute, allowedCount := allowedCount }
  -- the proposed values are populated at once: an in-place update stages its eviction first
  (p.populateExisting ctx.state).populateProposed ctx

/-- `propertySet.SetTargetAttribute`: the property set of a spread, with no limit. -/
def setTargetAttribute (p : PropertySet) (ctx : EvalContext) (targetAttribute taskGroup : String) :
    PropertySet :=
  p.setTargetAttributeWithCount ctx targetAttribute 0 taskGroup

/-- `propertySet.SetTargetValues`: the values a spread names; the source keeps them as a set. -/
def setTargetValues (p : PropertySet) (values : List String) : PropertySet :=
  { p with targetValues := values }

/-- `propertySet.setConstraint`: the limit is the constraint's `RTarget`, one when it is empty. -/
def setConstraint (p : PropertySet) (ctx : EvalContext) (constraint : Constraint)
    (taskGroup : String) : PropertySet :=
  if constraint.rTarget ≠ "" then
    let v := constraint.rTarget
    match parseUint v with
    | .error err =>
      let q := quoted v
      { p with errorBuilding := some s!"failed to convert RTarget {q} to uint64: {err}" }
    | .ok c => p.setTargetAttributeWithCount ctx constraint.lTarget c taskGroup
  else p.setTargetAttributeWithCount ctx constraint.lTarget 1 taskGroup

/-- `propertySet.SetJobConstraint`. -/
def setJobConstraint (p : PropertySet) (ctx : EvalContext) (constraint : Constraint) :
    PropertySet :=
  p.setConstraint ctx constraint ""

/-- `propertySet.SetTGConstraint`. -/
def setTGConstraint (p : PropertySet) (ctx : EvalContext) (constraint : Constraint)
    (taskGroup : String) : PropertySet :=
  p.setConstraint ctx constraint taskGroup

/-- `propertySet.GetCombinedUseMap`: existing and proposed counts added per targeted value, less
the cleared counts, never below zero; a cleared value no allocation uses is left out. -/
def getCombinedUseMap (p : PropertySet) : GoMap String ℕ :=
  let combinedUse := (p.existingValues.entries ++ p.proposedValues.entries).foldl
    (fun combined e ↦
      let v := p.targetedPropertyValue e.1
      combined.insert v (get combined v 0 + e.2)) ∅
  p.clearedValues.entries.foldl (fun combined e ↦
    let v := p.targetedPropertyValue e.1
    match combined.lookup v with
    | none => combined
    | some c => combined.insert v (if c ≥ e.2 then c - e.2 else 0)) combinedUse

/-- `propertySet.UsedCount`: the node's targeted value, an error text (empty when there is
none) and the combined count of the value. -/
def usedCount (p : PropertySet) (option : Node) : String × String × ℕ :=
  match p.errorBuilding with
  | some err => ("", err, 0)
  | none =>
    match getProperty (some option) p.targetAttribute with
    | none =>
      let q := quoted p.targetAttribute
      ("", s!"missing property {q}", 0)
    | some nValue =>
      let v := p.targetedPropertyValue nValue
      (v, "", get p.getCombinedUseMap v 0)

/-- `propertySet.SatisfiesDistinctProperties`. -/
def satisfiesDistinctProperties (p : PropertySet) (option : Node) : Bool × String :=
  let (nValue, errorMsg, used) := p.usedCount option
  if errorMsg ≠ "" then (false, errorMsg)
  else if used < p.allowedCount then (true, "")
  else
    let attr := p.targetAttribute
    (false, s!"distinct_property: {attr}={nValue} used by {used} allocs")

end PropertySet

end Wander.Scheduler
