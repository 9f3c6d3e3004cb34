import Wander.Scheduler.PropertySet

/-!
# `scheduler/feasible.go`: the distinct_hosts, distinct_property and network checks

Two feasibility iterators of the scheduler's stack, and its network checker.
`DistinctHostsIterator` rejects a node that already runs, in the plan's view of it
(`proposedAllocs`), an allocation of the job (of the same group, for a group constraint).
`DistinctPropertyIterator` keeps one property set for each distinct_property constraint of the
job and of the task group, and rejects a node whose value of the constrained attribute has
reached the constraint's limit. `next` is the iterator's `Next` over the options its source
yields: the first that passes. `NetworkChecker` accepts a node that has a network of the group's
mode and the host networks its ports name.

What applying the plan means for these checks is the allocations table after
`Plan.applyTo`. For distinct_hosts the check is sound: `next_no_job_alloc_on_node` says that no
live allocation of the job is on the chosen node once the plan is applied. For
distinct_property the plan's stops are counted against a value even when the allocation stopped
was already terminal, and so not among the existing values: `PropertySet.populateProposed`
filters the stops with `filterTerminal` false. A failed allocation that the plan stops then
frees a slot that nothing occupied, and `distinct_property_over_limit` shows the iterator
accepting a node that puts the value over its limit.
-/

set_option autoImplicit false
set_option relaxedAutoImplicit false

namespace Wander.Scheduler

open Wander.Lib Wander.Structs Wander.State GoMap

/-! ## distinct_hosts -/

/-- `DistinctHostsIterator`, less its context and source. -/
structure DistinctHostsIterator where
  tg : TaskGroup := { name := "", count := 0 }
  job : Job := {}
  jobDistinctHosts : Bool := false
  tgDistinctHosts : Bool := false
deriving DecidableEq

/-- `DistinctHostsIterator.hasDistinctHostsConstraint`: the first distinct_hosts constraint
decides; an empty `RTarget` enables it, and so does one that does not parse as a boolean. -/
def hasDistinctHostsConstraint (constraints : List Constraint) : Bool :=
  match constraints.find? (·.operand = constraintDistinctHosts) with
  | none => false
  | some con =>
    if con.rTarget = "" then true
    else match parseBool con.rTarget with
      | .error _ => true
      | .ok enabled => enabled

namespace DistinctHostsIterator

/-- `DistinctHostsIterator.SetTaskGroup`. -/
def setTaskGroup (it : DistinctHostsIterator) (tg : TaskGroup) : DistinctHostsIterator :=
  { it with tg := tg, tgDistinctHosts := hasDistinctHostsConstraint tg.constraints }

/-- `DistinctHostsIterator.SetJob`. -/
def setJob (it : DistinctHostsIterator) (job : Job) : DistinctHostsIterator :=
  { it with job := job, jobDistinctHosts := hasDistinctHostsConstraint job.constraints }

/-- The test `satisfiesDistinctHosts` makes of one proposed allocation: a job level constraint
rejects any allocation of the job, a group level one those of the same group. -/
def collides (it : DistinctHostsIterator) (alloc : Allocation) : Bool :=
  let jobCollision := alloc.jobID == it.job.id && alloc.namespace == it.job.namespace
  let taskCollision := alloc.taskGroup == it.tg.name
  it.jobDistinctHosts && jobCollision || jobCollision && taskCollision

/-- `DistinctHostsIterator.satisfiesDistinctHosts`. -/
def satisfiesDistinctHosts (it : DistinctHostsIterator) (ctx : EvalContext) (option : Node) :
    Bool :=
  if !(it.jobDistinctHosts || it.tgDistinctHosts) then true
  else (ctx.proposedAllocs option.id).all fun alloc ↦ !it.collides alloc

/-- `DistinctHostsIterator.Next` over the options of its source. -/
def next (it : DistinctHostsIterator) (ctx : EvalContext) (source : List Node) : Option Node :=
  source.find? fun option ↦
    !(it.jobDistinctHosts || it.tgDistinctHosts) || it.satisfiesDistinctHosts ctx option

/-- A node `next` returns collides with none of its proposed allocations, when a constraint is
set. -/
theorem not_collides_of_next {it : DistinctHostsIterator} {ctx : EvalContext}
    {source : List Node} {option : Node}
    (hhosts : it.jobDistinctHosts = true ∨ it.tgDistinctHosts = true)
    (hnext : it.next ctx source = some option) {alloc : Allocation}
    (halloc : alloc ∈ ctx.proposedAllocs option.id) : it.collides alloc = false := by
  have hpass := List.find?_some hnext
  have hon : (it.jobDistinctHosts || it.tgDistinctHosts) = true := by
    rcases hhosts with h | h <;> simp [h]
  simp only [hon, Bool.not_true, Bool.false_or, satisfiesDistinctHosts, Bool.false_eq_true,
    ↓reduceIte, List.all_eq_true] at hpass
  simpa using hpass alloc halloc

/-- distinct_hosts holds of the node `next` chooses: once the plan is applied, no live
allocation of the job (of the same group, unless the job itself has the constraint) is on it.
The allocations table is keyed by ID, and the plan places each allocation once, under its own
node. -/
theorem next_no_job_alloc_on_node {it : DistinctHostsIterator} {ctx : EvalContext}
    {source : List Node} {option : Node}
    (hkeys : ∀ k a, ctx.state.allocs.lookup k = some a → a.id = k)
    (hplan : ctx.plan.PlacementsWf)
    (hhosts : it.jobDistinctHosts = true ∨ it.tgDistinctHosts = true)
    (hnext : it.next ctx source = some option) {a : Allocation}
    (ha : a ∈ values (ctx.plan.applyTo ctx.state.allocs)) (hnode : a.nodeID = option.id)
    (hlive : a.terminalStatus = false) (hjob : a.jobID = it.job.id)
    (hns : a.namespace = it.job.namespace) :
    it.jobDistinctHosts = false ∧ a.taskGroup ≠ it.tg.name := by
  have hprop : a ∈ ctx.proposedAllocs option.id :=
    hnode ▸ EvalContext.mem_proposedAllocs_of_applied hkeys hplan ha hlive
  have hfree := not_collides_of_next hhosts hnext hprop
  simp only [collides, hjob, hns, beq_self_eq_true, Bool.and_true, Bool.true_and,
    Bool.or_eq_false_iff, beq_eq_false_iff_ne] at hfree
  exact ⟨hfree.1, fun h ↦ by simp [h] at hfree⟩

end DistinctHostsIterator

/-! ### Nodes of one rack

The nodes and allocations of the examples below: nodes of rack `r1` and allocations of the job
`web`, created with it, of its group `web` unless another is named. -/

/-- A node in rack `r1`. -/
def rackNode (id : String) : Node :=
  { id := id
    «meta» := (∅ : GoMap String String).insert "rack" "r1" }

/-- An allocation of the job `web` on a node, of its group `web`. -/
def rackAlloc (id nodeID : String) (clientStatus : AllocClientStatus) : Allocation :=
  { id := id
    «namespace» := defaultNamespace
    nodeID := nodeID
    jobID := "web"
    jobCreateIndex := 1
    taskGroup := "web"
    clientStatus := clientStatus }

/-- A group `web` that asks for distinct hosts. -/
def hostsGroup : TaskGroup :=
  { name := "web"
    count := 2
    constraints := [{ operand := constraintDistinctHosts }] }

/-- A job of the group `web`, with distinct hosts, and a group `db`. -/
def hostsJob : Job :=
  { id := "web"
    «namespace» := defaultNamespace
    type := jobTypeService
    taskGroups := [hostsGroup, { name := "db", count := 1 }]
    createIndex := 1 }

/-- The job's `web` allocation on `n1` and its `db` allocation on `n2`, and an empty plan. -/
def hostsCtx : EvalContext :=
  ⟨{ namespaces := [defaultNamespace]
     nodePools := [nodePoolDefault]
     jobs := (∅ : GoMap NamespacedID Job).insert hostsJob.namespacedID hostsJob
     evals := ∅
     allocs := ((∅ : GoMap String Allocation).insert "a1" (rackAlloc "a1" "n1" .running)).insert
       "a3" { rackAlloc "a3" "n2" .running with taskGroup := "db" }
     deployments := ∅ }, {}⟩

/-- The iterator for the group `web`. -/
def hostsIterator : DistinctHostsIterator :=
  (({} : DistinctHostsIterator).setJob hostsJob).setTaskGroup hostsGroup

/-- `n1` runs a `web` allocation and is passed over; `n2` runs only the `db` allocation, which a
group constraint allows. -/
theorem next_no_job_alloc_on_node_hostsCtx :
    hostsIterator.next hostsCtx [rackNode "n1", rackNode "n2"] = some (rackNode "n2") ∧
      hostsIterator.jobDistinctHosts = false ∧
      ({ rackAlloc "a3" "n2" .running with taskGroup := "db" } : Allocation).taskGroup ≠
        hostsIterator.tg.name := by
  have hnext : hostsIterator.next hostsCtx [rackNode "n1", rackNode "n2"] = some (rackNode "n2") :=
    by decide
  have hplan : hostsCtx.plan.PlacementsWf :=
    ⟨fun k a ha ↦ by simp [hostsCtx] at ha, by decide⟩
  exact ⟨hnext, DistinctHostsIterator.next_no_job_alloc_on_node
    (fun _ _ h ↦ key_of_lookup (by decide) h) hplan (Or.inr (by decide)) hnext
    (by decide) (by decide) (by decide) (by decide) (by decide)⟩

/-! ## distinct_property -/

/-- `DistinctPropertyIterator`, less its context and source. -/
structure DistinctPropertyIterator where
  tg : TaskGroup := { name := "", count := 0 }
  job : Job := {}
  hasDistinctPropertyConstraints : Bool := false
  jobPropertySets : List PropertySet := []
  groupPropertySets : GoMap String (List PropertySet) := ∅

namespace DistinctPropertyIterator

/-- The property sets of the distinct_property constraints among `constraints`, each set up by
`setup`. -/
def propertySets (constraints : List Constraint) (setup : Constraint → PropertySet) :
    List PropertySet :=
  (constraints.filter (·.operand = constraintDistinctProperty)).map setup

/-- `DistinctPropertyIterator.SetTaskGroup`: the group's property sets are built the first time
the group is set. -/
def setTaskGroup (it : DistinctPropertyIterator) (ctx : EvalContext) (tg : TaskGroup) :
    DistinctPropertyIterator :=
  let it := { it with tg := tg }
  let it :=
    if it.groupPropertySets.lookup tg.name = none then
      let sets := propertySets tg.constraints fun c ↦
        (newPropertySet it.job).setTGConstraint ctx c tg.name
      -- the source appends to the group's entry once per constraint, so none creates no entry
      if sets = [] then it
      else { it with groupPropertySets := it.groupPropertySets.insert tg.name sets }
    else it
  { it with
    hasDistinctPropertyConstraints :=
      it.jobPropertySets.length ≠ 0 || (get it.groupPropertySets tg.name []).length ≠ 0 }

/-- `DistinctPropertyIterator.SetJob`. -/
def setJob (it : DistinctPropertyIterator) (ctx : EvalContext) (job : Job) :
    DistinctPropertyIterator :=
  { it with
    job := job
    jobPropertySets := it.jobPropertySets ++
      propertySets job.constraints fun c ↦ (newPropertySet job).setJobConstraint ctx c }

/-- `DistinctPropertyIterator.satisfiesProperties`. -/
def satisfiesProperties (option : Node) (sets : List PropertySet) : Bool :=
  sets.all fun ps ↦ (ps.satisfiesDistinctProperties option).1

/-- The test `Next` makes of an option. -/
def accepts (it : DistinctPropertyIterator) (option : Node) : Bool :=
  !it.hasDistinctPropertyConstraints ||
    satisfiesProperties option it.jobPropertySets &&
      satisfiesProperties option (get it.groupPropertySets it.tg.name [])

/-- `DistinctPropertyIterator.Next` over the options of its source. -/
def next (it : DistinctPropertyIterator) (source : List Node) : Option Node :=
  source.find? it.accepts

/-- `DistinctPropertyIterator.Reset`: every property set recounts the plan. -/
def reset (it : DistinctPropertyIterator) (ctx : EvalContext) : DistinctPropertyIterator :=
  { it with
    jobPropertySets := it.jobPropertySets.map (·.populateProposed ctx)
    groupPropertySets := mapValues (List.map (·.populateProposed ctx)) it.groupPropertySets }

@[simp] theorem jobPropertySets_setJob (it : DistinctPropertyIterator) (ctx : EvalContext)
    (job : Job) :
    (it.setJob ctx job).jobPropertySets = it.jobPropertySets ++
      propertySets job.constraints fun c ↦ (newPropertySet job).setJobConstraint ctx c := rfl

@[simp] theorem jobPropertySets_reset (it : DistinctPropertyIterator) (ctx : EvalContext) :
    (it.reset ctx).jobPropertySets = it.jobPropertySets.map (·.populateProposed ctx) := rfl

end DistinctPropertyIterator

/-- The job's allocations, of group `tg` unless `tg` is empty, that are not terminal and sit on a
node whose value of the target `attr` is `v`: what a distinct_property constraint bounds. -/
def propertyUse (allocs : GoMap String Allocation) (nodes : GoMap String Node) (job : Job)
    (tg attr v : String) : ℕ :=
  ((values allocs).filter fun a ↦
    a.namespace = job.namespace ∧ a.jobID = job.id ∧ (tg = "" ∨ a.taskGroup = tg) ∧
      a.terminalStatus = false ∧ getProperty (nodes.lookup a.nodeID) attr = some v).length

/-! ### A stop of a failed allocation frees a slot nothing held

Three nodes in one rack and a job limited to one allocation per rack. The job's allocation on
`n0` has failed, and one on `n1` runs. The plan stops the failed one. Its stop is cleared
against the rack's count, so `n2` is accepted, and the rack ends with two live allocations. -/

/-- The constrained attribute. -/
def rackAttr : String := "$\x7bmeta.rack\x7d"

/-- The job's group. -/
def rackGroup : TaskGroup := { name := "web", count := 2 }

/-- A service job allowed one allocation per rack. -/
def rackJob : Job :=
  { id := "web"
    «namespace» := defaultNamespace
    type := jobTypeService
    constraints := [{ lTarget := rackAttr, operand := constraintDistinctProperty }]
    taskGroups := [rackGroup]
    status := .running
    createIndex := 1 }

/-- The state: the job, its failed allocation on `n0` and its running one on `n1`. -/
def rackState : StateStore :=
  { namespaces := [defaultNamespace]
    nodePools := [nodePoolDefault]
    jobs := (∅ : GoMap NamespacedID Job).insert rackJob.namespacedID rackJob
    evals := ∅
    allocs := ((∅ : GoMap String Allocation).insert "a0" (rackAlloc "a0" "n0" .failed)).insert
      "a1" (rackAlloc "a1" "n1" .running)
    deployments := ∅
    nodes := (((∅ : GoMap String Node).insert "n0" (rackNode "n0")).insert "n1"
      (rackNode "n1")).insert "n2" (rackNode "n2") }

/-- The plan so far stops the failed allocation, as a reschedule does. -/
def rackPlan : Plan :=
  { nodeUpdate := (∅ : GoMap String (List Allocation)).insert "n0"
      [{ rackAlloc "a0" "n0" .failed with desiredStatus := .stop }] }

/-- The state and the plan. -/
def rackCtx : EvalContext := ⟨rackState, rackPlan⟩

/-- The iterator once the job and its group are set. -/
def rackIterator : DistinctPropertyIterator :=
  (({} : DistinctPropertyIterator).setJob rackCtx rackJob).setTaskGroup rackCtx rackGroup

/-- The allocation placed on the node the iterator accepts. -/
def rackPlaced : Allocation := rackAlloc "a2" "n2" .pending

/-- The iterator accepts `n2` under a limit of one, and once the plan is applied and the
allocation placed there, two live allocations of the job sit in the rack. -/
theorem distinct_property_over_limit :
    rackIterator.next [rackNode "n2"] = some (rackNode "n2") ∧
      rackIterator.jobPropertySets.map PropertySet.allowedCount = [1] ∧
      propertyUse ((rackCtx.plan.applyTo rackCtx.state.allocs).insert rackPlaced.id rackPlaced)
        rackCtx.state.nodes rackJob "" rackAttr "r1" = 2 := by
  decide

/-! ## Networks -/

/-- `NetworkChecker`, less its context. `ports` is `none` until a network is set: the source's
nil slice. -/
structure NetworkChecker where
  networkMode : String := "host"
  ports : Option (List Port) := none
deriving DecidableEq

namespace NetworkChecker

/-- `NetworkChecker.SetNetwork`. The source makes the slice with one zero port for each port of
the network and appends the ports after them. -/
def setNetwork (c : NetworkChecker) (network : NetworkResource) : NetworkChecker :=
  { c with
    networkMode := if network.mode = "" then "host" else network.mode
    ports := some (List.replicate (network.dynamicPorts.length + network.reservedPorts.length) {} ++
      network.dynamicPorts ++ network.reservedPorts) }

/-- `NetworkChecker.hasNetwork`: the node has a network of the checker's mode, an empty mode
being host. -/
def hasNetwork (c : NetworkChecker) (option : Node) : Bool :=
  match option.nodeResources with
  | none => false
  | some resources =>
    resources.networks.any fun nw ↦ (if nw.mode = "" then "host" else nw.mode) == c.networkMode

/-- `NetworkChecker.hasHostNetworks`: each port that names a host network finds it among the
node's networks. -/
def hasHostNetworks (c : NetworkChecker) (option : Node) : Bool :=
  (c.ports.getD []).all fun port ↦
    port.hostNetwork == "" ||
      match resolveTarget port.hostNetwork option with
      | none => false
      | some hostNetworkValue =>
        ((option.nodeResources.map (·.nodeNetworks)).getD []).any (·.hasAlias hostNetworkValue)

/-- `NetworkChecker.Feasible`. Whether a node's version predates the bridge fingerprint is a
semantic version constraint on its `nomad.version` attribute, `predatesBridgeFingerprint`. -/
def feasible (c : NetworkChecker) (predatesBridgeFingerprint : String → Bool) (option : Node) :
    Bool :=
  if c.networkMode = "none" then true
  else if !c.hasNetwork option then
    -- a client older than 0.12 does not fingerprint its bridge network
    c.networkMode == "bridge" &&
      predatesBridgeFingerprint (get option.attributes "nomad.version" "")
  else if c.ports.isSome then c.hasHostNetworks option
  else true

end NetworkChecker

end Wander.Scheduler
