import Mathlib
import Wander.Nomad.PlanApply
import Wander.Lib.Except

/-!
# The system scheduler's diff

`diffSystemAllocsForNode` of system_util.go sorts, for one node, what a system or sysbatch job has
and wants there into the eight lists of a `diffResult`: the job's allocations on the node go to
the stops, migrations, ignores, lost, disconnecting, reconnecting or updated allocations, and the
task groups the job requires (`materializeSystemTaskGroups`: one name `job.group[i]` per instance)
that have no allocation on the node are placed, unless a terminal sysbatch allocation of the name
is there. `diffSystemAllocs` groups the job's allocations by node, adds every ready node, and
appends the diffs of all nodes.

Scope. Times are nanoseconds on a scale whose 0 is Go's zero Time, and `now` stands for each
`time.Now()` of one call. The job's `Name` and a task group's `MaxClientDisconnect`, which the
model's records do not carry, are parameters. An allocation whose `Job` is nil, which the state
store never holds (`upsertAllocsImpl` refuses one), is dereferenced by the diff in some branches:
the diff is `none` there, for the panic.
-/

set_option autoImplicit false
set_option relaxedAutoImplicit false

namespace Wander.Nomad

/-- `Node.TerminalStatus`: a node that is down. -/
def PlanNode.terminalStatus (n : PlanNode) : Bool :=
  match n.status with
  | .down => true
  | .initializing | .ready | .disconnected => false

end Wander.Nomad

namespace Wander.Scheduler

open Wander.Lib Wander.Structs Wander.Nomad GoMap

/-- `structs.AllocStateFieldClientStatus`. -/
def allocStateFieldClientStatus : ℕ := 0

/-- `structs.AllocState`: a change of one field of an allocation, the value it took and when. -/
structure AllocState where
  field : ℕ
  value : AllocClientStatus
  time : ℤ
deriving DecidableEq, Repr

/-- An allocation as the system diff reads it: the fields of the model's `Allocation`, with its
`ClientDescription`, its `AllocStates` and its `TaskStates`. -/
structure SysAlloc extends Allocation where
  clientDescription : String := ""
  allocStates : List AllocState := []
  taskStates : GoMap String TaskState := ∅
deriving DecidableEq, Repr

/-- `allocUnknown` of generic_sched.go. -/
def allocUnknown : String := "alloc is unknown since its node is disconnected"

section Methods

variable (maxClientDisconnect : TaskGroup → Option ℤ)

namespace SysAlloc

/-- `Allocation.SupportsDisconnectedClients`: the server allows it and the allocation's group sets
a `MaxClientDisconnect`. -/
def supportsDisconnectedClients (a : SysAlloc) (serverSupportsDisconnectedClients : Bool) : Bool :=
  if !serverSupportsDisconnectedClients then false
  else
    match a.job with
    | some job =>
      match job.lookupTaskGroup a.taskGroup with
      | some tg => (maxClientDisconnect tg).isSome
      | none => false
    | none => false

/-- `Allocation.NeedsToReconnect`: the latest recorded client status is unknown. -/
def needsToReconnect (a : SysAlloc) : Bool :=
  match a.allocStates.reverse.find? (·.field = allocStateFieldClientStatus) with
  | some s => s.value = .unknown
  | none => false

/-- `Allocation.LastUnknown`: the latest time the client status became unknown, the zero Time if
it never did. -/
def lastUnknown (a : SysAlloc) : ℤ :=
  a.allocStates.foldl (fun lastUnknown s ↦
    if s.field = allocStateFieldClientStatus ∧ s.value = .unknown then
      if lastUnknown = 0 ∨ lastUnknown < s.time then s.time else lastUnknown
    else lastUnknown) 0

/-- `Allocation.Expired`: an unknown allocation whose `MaxClientDisconnect` has run out since it
became unknown. -/
def expired (a : SysAlloc) (now : ℤ) : Bool :=
  match a.job with
  | none => false
  | some job =>
    if a.clientStatus ≠ .unknown then false
    else
      let lastUnknown := a.lastUnknown
      if lastUnknown = 0 then false
      else
        match job.lookupTaskGroup a.taskGroup with
        | none => false
        | some tg =>
          match maxClientDisconnect tg with
          | none => false
          | some timeout => decide (lastUnknown + timeout - now ≤ 0)

/-- `Allocation.RanSuccessfully`: the client ran every task, and each finished successfully. -/
def ranSuccessfully (a : SysAlloc) : Bool :=
  if (values a.taskStates).length = 0 then false
  else (values a.taskStates).all TaskState.successful

/-- `Allocation.AppendState` of the client status `value`, at `now`. -/
def appendState (a : SysAlloc) (value : AllocClientStatus) (now : ℤ) : SysAlloc :=
  { a with allocStates := a.allocStates ++ [⟨allocStateFieldClientStatus, value, now⟩] }

/-- The copy of an allocation the diff makes for a disconnected node: its client status unknown,
the change recorded, and described by `allocUnknown`. -/
def disconnect (a : SysAlloc) (now : ℤ) : SysAlloc :=
  { ({ a with clientStatus := .unknown } : SysAlloc).appendState .unknown now with
    clientDescription := allocUnknown }

@[simp] theorem appendState_id (a : SysAlloc) (value : AllocClientStatus) (now : ℤ) :
    (a.appendState value now).id = a.id := rfl

@[simp] theorem appendState_nodeID (a : SysAlloc) (value : AllocClientStatus) (now : ℤ) :
    (a.appendState value now).nodeID = a.nodeID := rfl

@[simp] theorem disconnect_id (a : SysAlloc) (now : ℤ) : (a.disconnect now).id = a.id := rfl

@[simp] theorem disconnect_nodeID (a : SysAlloc) (now : ℤ) :
    (a.disconnect now).nodeID = a.nodeID := rfl

end SysAlloc

end Methods

/-- `allocTuple`; `taskGroup` is `none` for a nil group. -/
structure AllocTuple where
  name : String
  taskGroup : Option TaskGroup
  alloc : SysAlloc
deriving DecidableEq, Repr

/-- The eight lists of a `diffResult`. -/
inductive DiffBucket
  | place
  | update
  | migrate
  | stop
  | ignore
  | lost
  | disconnecting
  | reconnecting
deriving DecidableEq, Repr

/-- `diffResult`. -/
structure DiffResult where
  place : List AllocTuple := []
  update : List AllocTuple := []
  migrate : List AllocTuple := []
  stop : List AllocTuple := []
  ignore : List AllocTuple := []
  lost : List AllocTuple := []
  disconnecting : List AllocTuple := []
  reconnecting : List AllocTuple := []
deriving DecidableEq, Repr

namespace DiffResult

/-- The list of a bucket. -/
def get (d : DiffResult) : DiffBucket → List AllocTuple
  | .place => d.place
  | .update => d.update
  | .migrate => d.migrate
  | .stop => d.stop
  | .ignore => d.ignore
  | .lost => d.lost
  | .disconnecting => d.disconnecting
  | .reconnecting => d.reconnecting

/-- `result.b = append(result.b, t)`. -/
def push (d : DiffResult) : DiffBucket × AllocTuple → DiffResult
  | (.place, t) => { d with place := d.place ++ [t] }
  | (.update, t) => { d with update := d.update ++ [t] }
  | (.migrate, t) => { d with migrate := d.migrate ++ [t] }
  | (.stop, t) => { d with stop := d.stop ++ [t] }
  | (.ignore, t) => { d with ignore := d.ignore ++ [t] }
  | (.lost, t) => { d with lost := d.lost ++ [t] }
  | (.disconnecting, t) => { d with disconnecting := d.disconnecting ++ [t] }
  | (.reconnecting, t) => { d with reconnecting := d.reconnecting ++ [t] }

/-- `diffResult.Append`. -/
def append (d other : DiffResult) : DiffResult where
  place := d.place ++ other.place
  update := d.update ++ other.update
  migrate := d.migrate ++ other.migrate
  stop := d.stop ++ other.stop
  ignore := d.ignore ++ other.ignore
  lost := d.lost ++ other.lost
  disconnecting := d.disconnecting ++ other.disconnecting
  reconnecting := d.reconnecting ++ other.reconnecting

@[simp] theorem get_empty (b : DiffBucket) : ({} : DiffResult).get b = [] := by
  cases b <;> rfl

@[simp] theorem get_push (d : DiffResult) (p : DiffBucket × AllocTuple) (b : DiffBucket) :
    (d.push p).get b = d.get b ++ if p.1 = b then [p.2] else [] := by
  obtain ⟨b', t⟩ := p
  cases b' <;> cases b <;> simp [push, get]

@[simp] theorem get_append (d other : DiffResult) (b : DiffBucket) :
    (d.append other).get b = d.get b ++ other.get b := by
  cases b <;> rfl

/-- Appending tuples one by one: each list gets the tuples tagged with it, in order. -/
theorem get_foldl_push (l : List (DiffBucket × AllocTuple)) (d : DiffResult) (b : DiffBucket) :
    (l.foldl push d).get b = d.get b ++ (l.filter (·.1 = b)).map (·.2) := by
  induction l generalizing d with
  | nil => simp
  | cons p l ih =>
    rw [List.foldl_cons, ih, get_push, List.filter_cons]
    by_cases hp : p.1 = b <;> simp [hp]

/-- Appending diffs one by one: each list is the concatenation of theirs. -/
theorem get_foldl_append (l : List DiffResult) (d : DiffResult) (b : DiffBucket) :
    (l.foldl append d).get b = d.get b ++ l.flatMap (·.get b) := by
  induction l generalizing d with
  | nil => simp
  | cons e l ih => simp [ih]

end DiffResult

/-- `structs.TerminalByNodeByName`: the latest terminal allocation of each name on each node. -/
abbrev TerminalByNodeByName := GoMap String (GoMap String SysAlloc)

/-- `TerminalByNodeByName.Get`. -/
def TerminalByNodeByName.get (t : TerminalByNodeByName) (nodeID name : String) :
    Option SysAlloc :=
  (t.lookup nodeID).bind (·.lookup name)

section Diff

variable (maxClientDisconnect : TaskGroup → Option ℤ)

/-- `materializeSystemTaskGroups`, for a job named `jobName`: each group's instances
`jobName.group[i]`, none for a stopped job. -/
def materializeSystemTaskGroups (jobName : String) (job : Job) : GoMap String TaskGroup :=
  if job.stop then ∅
  else
    job.taskGroups.foldl (fun out tg ↦
      (List.range tg.count.toNat).foldl (fun out i ↦ out.insert (allocName jobName tg.name i) tg)
        out) ∅

/-- The branch of the loop over the existing allocations for an allocation on a tainted node
(`node` is the tainted node, `none` for nil): the list and the allocation it appends; `none` for
the nil dereference of the allocation's `Job`. -/
def diffOnTaintedNode (exist : SysAlloc) (node : Option PlanNode)
    (supportsDisconnectedClients : Bool) (now : ℤ) : Option (DiffBucket × SysAlloc) :=
  match exist.job with
  | none => none
  | some existJob =>
    -- a sysbatch allocation that finished its work is neither migrated nor lost
    if existJob.type = jobTypeSysBatch && exist.ranSuccessfully then some (.ignore, exist)
    else if (node.any fun n ↦ n.status = .disconnected) && supportsDisconnectedClients &&
        exist.clientStatus == .running then
      some (.disconnecting, exist.disconnect now)
    else if !exist.terminalStatus && node.all PlanNode.terminalStatus then some (.lost, exist)
    else some (.ignore, exist)

/-- The last branches of the loop over the existing allocations, for an allocation whose node is
not tainted: the list and the allocation it appends; `none` for the nil dereference of the
allocation's `Job`. -/
def diffOnUntaintedNode (job : Job) (nodeID : String) (eligibleNodes : GoMap String PlanNode)
    (notReadyNodes : List String) (exist : SysAlloc) (supportsDisconnectedClients reconnect : Bool)
    (now : ℤ) : Option (DiffBucket × SysAlloc) :=
  if supportsDisconnectedClients && reconnect then
    some (.reconnecting, exist.appendState exist.clientStatus now)
  else if nodeID ∈ notReadyNodes then some (.ignore, exist)
  else if nodeID ∉ eligibleNodes then some (.stop, exist)
  else
    match exist.job with
    | none => none
    | some existJob =>
      if job.jobModifyIndex ≠ existJob.jobModifyIndex then some (.update, exist)
      else some (.ignore, exist)

/-- The body of the loop over the existing allocations of `diffSystemAllocsForNode`: the list
`exist` goes to, with its tuple; `none` where the code dereferences a nil `Job`. Every tuple of a
required allocation carries its name and group. -/
def diffExisting (job : Job) (nodeID : String) (eligibleNodes : GoMap String PlanNode)
    (notReadyNodes : List String) (taintedNodes : GoMap String (Option PlanNode))
    (required : GoMap String TaskGroup) (serverSupportsDisconnectedClients : Bool) (now : ℤ)
    (exist : SysAlloc) : Option (DiffBucket × AllocTuple) :=
  let name := exist.name
  match required.lookup name with
  | none => some (.stop, ⟨name, none, exist⟩)
  | some tg =>
    let supportsDisconnectedClients :=
      exist.supportsDisconnectedClients maxClientDisconnect serverSupportsDisconnectedClients
    -- reconnect and expired are computed for unknown and running allocations only
    let reconnect := supportsDisconnectedClients &&
      (exist.clientStatus == .unknown || exist.clientStatus == .running) && exist.needsToReconnect
    let expired := reconnect && exist.expired maxClientDisconnect now
    let appended : Option (DiffBucket × SysAlloc) :=
      if !exist.terminalStatus && exist.desiredTransition.shouldMigrate then some (.migrate, exist)
      else if job.type = jobTypeSysBatch && exist.terminalStatus then some (.ignore, exist)
      else if supportsDisconnectedClients && expired then some (.lost, exist)
      else if supportsDisconnectedClients && exist.clientStatus == .unknown &&
          exist.desiredStatus == .run then
        some (.ignore, exist)
      else
        match taintedNodes.lookup exist.nodeID with
        | none =>
          diffOnUntaintedNode job nodeID eligibleNodes notReadyNodes exist
            supportsDisconnectedClients reconnect now
        | some node => diffOnTaintedNode exist node supportsDisconnectedClients now
    appended.map fun (b, alloc) ↦ (b, ⟨name, some tg, alloc⟩)

/-- The allocation a placement on `nodeID` is annotated with: the terminal allocation of the name
on the node, or a new allocation on the node. -/
def placeAlloc (terminal : TerminalByNodeByName) (nodeID name : String) : SysAlloc :=
  match TerminalByNodeByName.get terminal nodeID name with
  | some termOnNode => if termOnNode.nodeID = nodeID then termOnNode else { nodeID := nodeID }
  | none => { nodeID := nodeID }

/-- The body of the loop over the required groups of `diffSystemAllocsForNode`: `some none` where
the loop continues without a tuple; `none` where the code dereferences a nil `Job`. -/
def diffRequired (job : Job) (nodeID : String) (eligibleNodes : GoMap String PlanNode)
    (taintedNodes : GoMap String (Option PlanNode)) (existing : List String)
    (terminal : TerminalByNodeByName) (name : String) (tg : TaskGroup) :
    Option (Option (DiffBucket × AllocTuple)) :=
  if name ∈ existing then some none
  else
    -- a terminal sysbatch allocation is placed again only for a newer job
    match (if job.type = jobTypeSysBatch then TerminalByNodeByName.get terminal nodeID name
      else none) with
    | some alloc =>
      match alloc.job with
      | none => none
      | some allocJob =>
        if job.jobModifyIndex ≠ allocJob.jobModifyIndex then some (some (.update, ⟨name, some tg, alloc⟩))
        else some (some (.ignore, ⟨name, some tg, alloc⟩))
    | none =>
      if nodeID ∈ taintedNodes then some none
      else if nodeID ∉ eligibleNodes then some none
      else some (some (.place, ⟨name, some tg, placeAlloc terminal nodeID name⟩))

/-- `diffSystemAllocsForNode`. The required groups are visited in the map's entry order. -/
def diffSystemAllocsForNode (job : Job) (nodeID : String) (eligibleNodes : GoMap String PlanNode)
    (notReadyNodes : List String) (taintedNodes : GoMap String (Option PlanNode))
    (required : GoMap String TaskGroup) (allocs : List SysAlloc) (terminal : TerminalByNodeByName)
    (serverSupportsDisconnectedClients : Bool) (now : ℤ) : Option DiffResult := do
  let result ← allocs.foldlM (fun result exist ↦
    (diffExisting maxClientDisconnect job nodeID eligibleNodes notReadyNodes taintedNodes required
      serverSupportsDisconnectedClients now exist).map result.push) {}
  let existing := allocs.map (·.name)
  required.entries.foldlM (fun result e ↦
    (diffRequired job nodeID eligibleNodes taintedNodes existing terminal e.1 e.2).map
      fun tuple ↦ tuple.elim result result.push) result

/-- `nodeAllocs` of `diffSystemAllocs`: the allocations of each node, then an empty list for each
ready node without allocations. -/
def nodeAllocsOf (allocs : List SysAlloc) (readyNodes : List PlanNode) :
    GoMap String (List SysAlloc) :=
  let nodeAllocs := allocs.foldl (fun nodeAllocs alloc ↦
    nodeAllocs.insert alloc.nodeID (get nodeAllocs alloc.nodeID [] ++ [alloc])) ∅
  readyNodes.foldl (fun nodeAllocs node ↦
    if node.id ∈ nodeAllocs then nodeAllocs else nodeAllocs.insert node.id []) nodeAllocs

/-- `eligibleNodes` of `diffSystemAllocs`: the ready nodes by ID. -/
def eligibleNodesOf (readyNodes : List PlanNode) : GoMap String PlanNode :=
  readyNodes.foldl (fun eligibleNodes node ↦ eligibleNodes.insert node.id node) ∅

/-- `diffSystemAllocs` for a job named `jobName`. The nodes are visited in the map's entry order. -/
def diffSystemAllocs (jobName : String) (job : Job) (readyNodes : List PlanNode)
    (notReadyNodes : List String) (taintedNodes : GoMap String (Option PlanNode))
    (allocs : List SysAlloc) (terminal : TerminalByNodeByName)
    (serverSupportsDisconnectedClients : Bool) (now : ℤ) : Option DiffResult :=
  let required := materializeSystemTaskGroups jobName job
  (nodeAllocsOf allocs readyNodes).entries.foldlM (fun result e ↦
    (diffSystemAllocsForNode maxClientDisconnect job e.1 (eligibleNodesOf readyNodes) notReadyNodes
      taintedNodes required e.2 terminal serverSupportsDisconnectedClients now).map result.append)
    {}

end Diff

section Proofs

variable (maxClientDisconnect : TaskGroup → Option ℤ)
variable {job : Job} {nodeID : String} {eligibleNodes : GoMap String PlanNode}
  {notReadyNodes : List String} {taintedNodes : GoMap String (Option PlanNode)}
  {required : GoMap String TaskGroup} {serverSupportsDisconnectedClients : Bool} {now : ℤ}

/-! ### One existing allocation -/

section Existing

variable {exist : SysAlloc} {b : DiffBucket} {alloc : SysAlloc}

theorem diffOnTaintedNode_isSome {node : Option PlanNode} {supportsDisconnectedClients : Bool}
    (h : exist.job.isSome) :
    (diffOnTaintedNode exist node supportsDisconnectedClients now).isSome := by
  obtain ⟨j, hj⟩ := Option.isSome_iff_exists.mp h
  unfold diffOnTaintedNode
  simp only [hj]
  split_ifs <;> rfl

/-- On a tainted node an allocation is ignored, disconnected or lost, as itself or its
disconnected copy. -/
theorem diffOnTaintedNode_alloc {node : Option PlanNode} {supportsDisconnectedClients : Bool}
    (h : diffOnTaintedNode exist node supportsDisconnectedClients now = some (b, alloc)) :
    alloc.id = exist.id ∧ alloc.nodeID = exist.nodeID ∧ b ≠ .place ∧ b ≠ .stop ∧ b ≠ .update := by
  unfold diffOnTaintedNode at h
  split at h
  · cases h
  · split_ifs at h <;> cases h <;> simp

theorem diffOnUntaintedNode_isSome {supportsDisconnectedClients reconnect : Bool}
    (h : exist.job.isSome) :
    (diffOnUntaintedNode job nodeID eligibleNodes notReadyNodes exist supportsDisconnectedClients
      reconnect now).isSome := by
  obtain ⟨j, hj⟩ := Option.isSome_iff_exists.mp h
  unfold diffOnUntaintedNode
  simp only [hj]
  split_ifs <;> rfl

/-- Off the tainted nodes an allocation is stopped only on a node the job does not target, and
updated only when its job is not the job's definition. -/
theorem diffOnUntaintedNode_alloc {supportsDisconnectedClients reconnect : Bool}
    (h : diffOnUntaintedNode job nodeID eligibleNodes notReadyNodes exist
      supportsDisconnectedClients reconnect now = some (b, alloc)) :
    alloc.id = exist.id ∧ alloc.nodeID = exist.nodeID ∧ b ≠ .place ∧
      (b = .stop → nodeID ∉ eligibleNodes) ∧
      (b = .update → ∃ existJob, exist.job = some existJob ∧
        job.jobModifyIndex ≠ existJob.jobModifyIndex) := by
  unfold diffOnUntaintedNode at h
  split at h
  · cases h
    simp
  split at h
  · cases h
    simp
  split at h
  · cases h
    simp [‹nodeID ∉ eligibleNodes›]
  split at h
  · cases h
  · rename_i existJob hjob
    split at h <;> cases h
    · simp [hjob, ‹job.jobModifyIndex ≠ existJob.jobModifyIndex›]
    · simp

/-- Only the nil dereferences of the allocation's `Job` stop the loop over the existing
allocations. -/
theorem diffExisting_isSome (h : exist.job.isSome) :
    (diffExisting maxClientDisconnect job nodeID eligibleNodes notReadyNodes taintedNodes
      required serverSupportsDisconnectedClients now exist).isSome := by
  unfold diffExisting
  dsimp only
  split
  · rfl
  · rw [Option.isSome_map]
    split_ifs
    any_goals rfl
    split
    · exact diffOnUntaintedNode_isSome h
    · exact diffOnTaintedNode_isSome h

/-- What the loop over the existing allocations appends for one: a tuple of its name, holding
itself or the copy the code makes of it, which keep its ID and node, in a list other than the
placements; a stop is of an allocation the job no longer requires or on a node it does not
target, an update of one whose job is not the job's definition. -/
theorem diffExisting_tuple {t : AllocTuple}
    (h : diffExisting maxClientDisconnect job nodeID eligibleNodes notReadyNodes taintedNodes
      required serverSupportsDisconnectedClients now exist = some (b, t)) :
    t.name = exist.name ∧ t.alloc.id = exist.id ∧ t.alloc.nodeID = exist.nodeID ∧ b ≠ .place ∧
      (b = .stop → required.lookup exist.name = none ∨ nodeID ∉ eligibleNodes) ∧
      (b = .update → ∃ existJob, exist.job = some existJob ∧
        job.jobModifyIndex ≠ existJob.jobModifyIndex) := by
  unfold diffExisting at h
  dsimp only at h
  split at h
  · cases h
    simp_all
  · obtain ⟨⟨b', alloc'⟩, happ, heq⟩ := Option.map_eq_some_iff.mp h
    cases heq
    -- the branches before the node's taint is read append the allocation itself
    split_ifs at happ
    any_goals (cases happ; simp)
    split at happ
    · obtain ⟨hid, hnode, hplace, hstop, hupdate⟩ := diffOnUntaintedNode_alloc happ
      exact ⟨rfl, hid, hnode, hplace, fun hb ↦ .inr (hstop hb), hupdate⟩
    · obtain ⟨hid, hnode, hplace, hstop, hupdate⟩ := diffOnTaintedNode_alloc happ
      exact ⟨rfl, hid, hnode, hplace, fun hb ↦ absurd hb hstop, fun hb ↦ absurd hb hupdate⟩

end Existing

/-! ### One required group -/

/-- Only the nil dereference of a terminal sysbatch allocation's `Job` stops the loop over the
required groups. -/
theorem diffRequired_isSome {existing : List String} {terminal : TerminalByNodeByName}
    {name : String} {tg : TaskGroup}
    (h : ∀ a, TerminalByNodeByName.get terminal nodeID name = some a → a.job.isSome) :
    (diffRequired job nodeID eligibleNodes taintedNodes existing terminal name tg).isSome := by
  unfold diffRequired
  repeat' split
  all_goals simp_all

/-- The allocation of a placement is the terminal allocation of the name on the node, or a new
one, whose ID is empty. -/
theorem placeAlloc_cases (terminal : TerminalByNodeByName) (nodeID name : String) :
    TerminalByNodeByName.get terminal nodeID name = some (placeAlloc terminal nodeID name) ∨
      (placeAlloc terminal nodeID name).id = "" := by
  unfold placeAlloc
  split
  · split
    · exact .inl ‹_›
    · exact .inr rfl
  · exact .inr rfl

@[simp] theorem placeAlloc_nodeID (terminal : TerminalByNodeByName) (nodeID name : String) :
    (placeAlloc terminal nodeID name).nodeID = nodeID := by
  unfold placeAlloc
  split
  · split
    · assumption
    · rfl
  · rfl

/-- A required group yields a tuple of its name, holding a terminal allocation of the name on the
node or a new one. -/
theorem diffRequired_tuple {existing : List String} {terminal : TerminalByNodeByName}
    {name : String} {tg : TaskGroup} {b : DiffBucket} {t : AllocTuple}
    (h : diffRequired job nodeID eligibleNodes taintedNodes existing terminal name tg =
      some (some (b, t))) :
    t.name = name ∧
      (TerminalByNodeByName.get terminal nodeID name = some t.alloc ∨ t.alloc.id = "") := by
  unfold diffRequired at h
  split at h
  · cases h
  · split at h
    · -- a terminal sysbatch allocation of the name, updated or ignored
      rename_i alloc hterm
      have hget : TerminalByNodeByName.get terminal nodeID name = some alloc := by
        split at hterm
        · exact hterm
        · cases hterm
      split at h
      · cases h
      · split at h <;> cases h <;> exact ⟨rfl, .inl hget⟩
    · split at h
      · cases h
      · split at h
        · cases h
        · cases h
          exact ⟨rfl, placeAlloc_cases terminal nodeID name⟩

/-- A required group is placed exactly when it has no allocation on the node, no terminal sysbatch
allocation is there, and the node is targeted and not tainted. -/
theorem diffRequired_eq_place {existing : List String} {terminal : TerminalByNodeByName}
    {name : String} {tg : TaskGroup} {t : AllocTuple} :
    diffRequired job nodeID eligibleNodes taintedNodes existing terminal name tg =
        some (some (.place, t)) ↔
      name ∉ existing ∧
        ¬(job.type = jobTypeSysBatch ∧ (TerminalByNodeByName.get terminal nodeID name).isSome) ∧
        nodeID ∉ taintedNodes ∧ nodeID ∈ eligibleNodes ∧
        t = ⟨name, some tg, placeAlloc terminal nodeID name⟩ := by
  unfold diffRequired
  by_cases hex : name ∈ existing
  · simp [hex]
  -- where no terminal sysbatch allocation is read, the node decides
  have hplace : (if nodeID ∈ taintedNodes then some none
        else if nodeID ∉ eligibleNodes then some none
        else some (some (DiffBucket.place, (⟨name, some tg, placeAlloc terminal nodeID name⟩ :
          AllocTuple)))) = some (some (.place, t)) ↔
      nodeID ∉ taintedNodes ∧ nodeID ∈ eligibleNodes ∧
        t = ⟨name, some tg, placeAlloc terminal nodeID name⟩ := by
    by_cases ht : nodeID ∈ taintedNodes
    · simp [ht]
    by_cases he : nodeID ∈ eligibleNodes
    · rw [if_neg ht, if_neg (not_not.mpr he)]
      simp [ht, he, eq_comm]
    · rw [if_neg ht, if_pos he]
      simp [he]
  by_cases hsys : job.type = jobTypeSysBatch
  · rw [if_neg hex, if_pos hsys]
    cases hget : TerminalByNodeByName.get terminal nodeID name with
    | some alloc =>
      -- a terminal sysbatch allocation is updated or ignored, never placed
      cases hjob : alloc.job with
      | none => simp [hjob, hsys]
      | some allocJob =>
        simp only [hjob]
        split_ifs <;> simp [hsys]
    | none => simpa [hex] using hplace
  · rw [if_neg hex, if_neg hsys]
    simpa [hex, hsys] using hplace

/-! ### One node -/

/-- The tuples the two loops of `diffSystemAllocsForNode` append, in order, when no nil `Job` is
dereferenced. -/
def nodeTuples (job : Job) (nodeID : String) (eligibleNodes : GoMap String PlanNode)
    (notReadyNodes : List String) (taintedNodes : GoMap String (Option PlanNode))
    (required : GoMap String TaskGroup) (allocs : List SysAlloc) (terminal : TerminalByNodeByName)
    (serverSupportsDisconnectedClients : Bool) (now : ℤ) : List (DiffBucket × AllocTuple) :=
  allocs.filterMap (diffExisting maxClientDisconnect job nodeID eligibleNodes notReadyNodes
      taintedNodes required serverSupportsDisconnectedClients now) ++
    required.entries.filterMap fun e ↦
      (diffRequired job nodeID eligibleNodes taintedNodes (allocs.map (·.name)) terminal e.1 e.2).join

/-- Every terminal allocation the diff may read embeds its job. -/
def TerminalJobsAttached (terminal : TerminalByNodeByName) : Prop :=
  ∀ nodeID name a, TerminalByNodeByName.get terminal nodeID name = some a → a.job.isSome

/-- The diff of a node whose allocations embed their jobs appends the node's tuples in order. -/
theorem diffSystemAllocsForNode_eq {allocs : List SysAlloc} {terminal : TerminalByNodeByName}
    (hallocs : ∀ a ∈ allocs, a.job.isSome) (hterm : TerminalJobsAttached terminal) :
    diffSystemAllocsForNode maxClientDisconnect job nodeID eligibleNodes notReadyNodes taintedNodes
        required allocs terminal serverSupportsDisconnectedClients now =
      some ((nodeTuples maxClientDisconnect job nodeID eligibleNodes notReadyNodes taintedNodes
        required allocs terminal serverSupportsDisconnectedClients now).foldl DiffResult.push {}) := by
  unfold diffSystemAllocsForNode nodeTuples
  rw [foldlM_map_of_isSome _ _ (fun a ha ↦ diffExisting_isSome maxClientDisconnect (hallocs a ha))]
  simp only [Option.bind_eq_bind, Option.bind_some]
  rw [foldlM_map_of_isSome _ _ (fun e _ ↦ diffRequired_isSome (hterm nodeID e.1)),
    foldl_elim_eq_foldl_filterMap, List.filterMap_filterMap, List.foldl_append]
  rfl

/-- The placements of a node are the required groups the node lacks, by `diffRequired_eq_place`;
the existing allocations are never placed. -/
theorem place_mem_nodeTuples {allocs : List SysAlloc} {terminal : TerminalByNodeByName}
    {t : AllocTuple} :
    (.place, t) ∈ nodeTuples maxClientDisconnect job nodeID eligibleNodes notReadyNodes
        taintedNodes required allocs terminal serverSupportsDisconnectedClients now ↔
      ∃ tg, required.lookup t.name = some tg ∧ t.name ∉ allocs.map (·.name) ∧
        ¬(job.type = jobTypeSysBatch ∧ (TerminalByNodeByName.get terminal nodeID t.name).isSome) ∧
        nodeID ∉ taintedNodes ∧ nodeID ∈ eligibleNodes ∧
        t = ⟨t.name, some tg, placeAlloc terminal nodeID t.name⟩ := by
  unfold nodeTuples
  rw [List.mem_append, List.mem_filterMap, List.mem_filterMap]
  have hexisting : ¬∃ a ∈ allocs, diffExisting maxClientDisconnect job nodeID eligibleNodes
      notReadyNodes taintedNodes required serverSupportsDisconnectedClients now a =
        some (.place, t) := by
    rintro ⟨a, -, ha⟩
    exact (diffExisting_tuple maxClientDisconnect ha).2.2.2.1 rfl
  simp only [hexisting, false_or, Option.join_eq_some_iff, diffRequired_eq_place]
  constructor
  · rintro ⟨e, he, hex, hsys, ht, hel, rfl⟩
    exact ⟨e.2, AList.mem_lookup_iff.mpr he, hex, hsys, ht, hel, rfl⟩
  · rintro ⟨tg, hlookup, hex, hsys, ht, hel, htup⟩
    exact ⟨⟨t.name, tg⟩, AList.mem_lookup_iff.mp hlookup, hex, hsys, ht, hel, htup⟩

/-- A loop that yields for each element at most one value, which carries the element's key,
yields keys that are a sublist of the elements'. -/
private theorem map_filterMap_sublist {α β γ : Type} {g : α → Option β} {h : β → γ} {k : α → γ}
    (hg : ∀ x y, g x = some y → h y = k x) (l : List α) :
    ((l.filterMap g).map h).Sublist (l.map k) := by
  induction l with
  | nil => exact List.Sublist.slnil
  | cons x l ih =>
    cases hx : g x with
    | none =>
      rw [List.filterMap_cons_none hx, List.map_cons]
      exact ih.cons _
    | some y =>
      rw [List.filterMap_cons_some hx, List.map_cons, List.map_cons, hg x y hx]
      exact ih.cons_cons _

/-- A node places each required name at most once: its placements come from the required map,
whose keys are distinct. -/
theorem nodup_place_nodeTuples {allocs : List SysAlloc} {terminal : TerminalByNodeByName} :
    ((((nodeTuples maxClientDisconnect job nodeID eligibleNodes notReadyNodes taintedNodes
      required allocs terminal serverSupportsDisconnectedClients now).filter
        (·.1 = .place)).map (·.2)).map (·.name)).Nodup := by
  unfold nodeTuples
  -- the existing allocations contribute no placement
  have hexisting : (allocs.filterMap (diffExisting maxClientDisconnect job nodeID eligibleNodes
      notReadyNodes taintedNodes required serverSupportsDisconnectedClients now)).filter
        (·.1 = .place) = [] := by
    refine List.filter_eq_nil_iff.mpr fun q hq ↦ ?_
    obtain ⟨a, -, ha⟩ := List.mem_filterMap.mp hq
    simpa using (diffExisting_tuple maxClientDisconnect ha).2.2.2.1
  rw [List.filter_append, hexisting, List.nil_append, List.map_map]
  -- each required entry yields at most one tuple, of its name
  have hnames : ((required.entries.filterMap fun e ↦ (diffRequired job nodeID eligibleNodes
      taintedNodes (allocs.map (·.name)) terminal e.1 e.2).join).map (·.2.name)).Sublist
        required.keys := by
    refine map_filterMap_sublist (fun e q hq ↦ ?_) _
    obtain ⟨b, t⟩ := q
    exact (diffRequired_tuple (Option.join_eq_some_iff.mp hq)).1
  exact (hnames.nodup required.nodupKeys).sublist ((List.filter_sublist).map _)

/-- The tuples of a node that carry the ID of an allocation, where no terminal allocation has the
ID and it is not empty: those the node's allocations with the ID yield. -/
theorem filter_id_nodeTuples {allocs : List SysAlloc} {terminal : TerminalByNodeByName}
    {i : String} (hi : i ≠ "")
    (hterm : ∀ n x a, TerminalByNodeByName.get terminal n x = some a → a.id ≠ i) :
    (nodeTuples maxClientDisconnect job nodeID eligibleNodes notReadyNodes taintedNodes required
        allocs terminal serverSupportsDisconnectedClients now).filter (·.2.alloc.id = i) =
      (allocs.filter (·.id = i)).filterMap (diffExisting maxClientDisconnect job nodeID
        eligibleNodes notReadyNodes taintedNodes required serverSupportsDisconnectedClients now) := by
  unfold nodeTuples
  -- a required group's tuple holds a terminal allocation or a new one, never one with the ID
  have hrequired : (required.entries.filterMap fun e ↦ (diffRequired job nodeID eligibleNodes
      taintedNodes (allocs.map (·.name)) terminal e.1 e.2).join).filter (·.2.alloc.id = i) = [] := by
    refine List.filter_eq_nil_iff.mpr fun q hq ↦ ?_
    obtain ⟨e, -, he⟩ := List.mem_filterMap.mp hq
    obtain ⟨b, t⟩ := q
    rcases (diffRequired_tuple (Option.join_eq_some_iff.mp he)).2 with hget | hnew
    · simpa using hterm _ _ _ hget
    · simpa [hnew] using hi.symm
  rw [List.filter_append, hrequired, List.append_nil, List.filter_filterMap, List.filterMap_filter]
  refine List.filterMap_congr fun a _ ↦ ?_
  cases hq : diffExisting maxClientDisconnect job nodeID eligibleNodes notReadyNodes taintedNodes
      required serverSupportsDisconnectedClients now a with
  | none => simp
  | some q =>
    have hid := (diffExisting_tuple maxClientDisconnect hq).2.1
    by_cases ha : a.id = i <;> simp [Option.filter, hid, ha]

/-! ### The required groups -/

/-- The names a job requires: each instance `jobName.group[i]` of its groups, unless it is
stopped. -/
theorem mem_materializeSystemTaskGroups (jobName : String) (job : Job) (name : String) :
    name ∈ materializeSystemTaskGroups jobName job ↔
      job.stop = false ∧ ∃ tg ∈ job.taskGroups, ∃ i < tg.count.toNat,
        allocName jobName tg.name i = name := by
  unfold materializeSystemTaskGroups
  cases hstop : job.stop
  · simp only [Bool.false_eq_true, if_false, true_and]
    -- the outer loop over the groups, each adding its instances
    suffices h : ∀ (groups : List TaskGroup) (out : GoMap String TaskGroup),
        name ∈ groups.foldl (fun out tg ↦ (List.range tg.count.toNat).foldl
          (fun out i ↦ out.insert (allocName jobName tg.name i) tg) out) out ↔
        name ∈ out ∨ ∃ tg ∈ groups, ∃ i < tg.count.toNat, allocName jobName tg.name i = name by
      simpa using h job.taskGroups ∅
    intro groups
    induction groups with
    | nil => simp
    | cons tg groups ih =>
      intro out
      rw [List.foldl_cons, ih, mem_foldl_insert_iff (allocName jobName tg.name)
        (fun (_ : GoMap String TaskGroup) (_ : ℕ) ↦ tg)]
      simp only [List.mem_map, List.mem_range, List.mem_cons]
      constructor
      · rintro ((hout | ⟨i, hi, rfl⟩) | ⟨tg', htg', i, hi, rfl⟩)
        · exact .inl hout
        · exact .inr ⟨tg, .inl rfl, i, hi, rfl⟩
        · exact .inr ⟨tg', .inr htg', i, hi, rfl⟩
      · rintro (hout | ⟨tg', rfl | htg', i, hi, rfl⟩)
        · exact .inl (.inl hout)
        · exact .inl (.inr ⟨i, hi, rfl⟩)
        · exact .inr ⟨tg', htg', i, hi, rfl⟩
  · simp

/-! ### All nodes -/

/-- Adding the ready nodes without allocations to `nodeAllocs`: an empty slice where there was
none. -/
private theorem foldl_addReady (l : List PlanNode) (m : GoMap String (List SysAlloc)) (n : String) :
    get (l.foldl (fun m node ↦ if node.id ∈ m then m else m.insert node.id []) m) n [] =
        get m n [] ∧
      (n ∈ l.foldl (fun m node ↦ if node.id ∈ m then m else m.insert node.id []) m ↔
        n ∈ m ∨ n ∈ l.map (·.id)) := by
  induction l generalizing m with
  | nil => simp
  | cons node l ih =>
    rw [List.foldl_cons, (ih _).1, (ih _).2, List.map_cons, List.mem_cons]
    split
    · rename_i hin
      refine ⟨rfl, ?_⟩
      constructor
      · rintro (h | h)
        · exact .inl h
        · exact .inr (.inr h)
      · rintro (h | rfl | h)
        · exact .inl h
        · exact .inl hin
        · exact .inr h
    · rename_i hnotin
      by_cases hn : n = node.id
      · subst hn
        simp [GoMap.get, AList.lookup_eq_none.mpr hnotin]
      · rw [get_insert_ne _ hn, AList.mem_insert]
        simp [hn]

/-- The slice of a node in `nodeAllocs`: the allocations on it, in order. -/
theorem get_nodeAllocsOf (allocs : List SysAlloc) (readyNodes : List PlanNode) (n : String) :
    get (nodeAllocsOf allocs readyNodes) n [] = allocs.filter (·.nodeID = n) := by
  unfold nodeAllocsOf
  rw [(foldl_addReady readyNodes _ n).1, get_foldl_append (fun a : SysAlloc ↦ a.nodeID)]
  simp

/-- The nodes of `nodeAllocs`: those with allocations, and the ready nodes. -/
theorem mem_nodeAllocsOf (allocs : List SysAlloc) (readyNodes : List PlanNode) (n : String) :
    n ∈ nodeAllocsOf allocs readyNodes ↔
      n ∈ allocs.map (·.nodeID) ∨ n ∈ readyNodes.map (·.id) := by
  unfold nodeAllocsOf
  rw [(foldl_addReady readyNodes _ n).2, mem_foldl_append (fun a : SysAlloc ↦ a.nodeID)]
  simp

/-- An entry of `nodeAllocs` holds the allocations on its node. -/
theorem eq_filter_of_mem_nodeAllocsOf {allocs : List SysAlloc} {readyNodes : List PlanNode}
    {e : Σ _ : String, List SysAlloc} (he : e ∈ (nodeAllocsOf allocs readyNodes).entries) :
    e.2 = allocs.filter (·.nodeID = e.1) := by
  rw [← get_nodeAllocsOf allocs readyNodes e.1, GoMap.get, AList.mem_lookup_iff.mpr he]
  rfl

theorem mem_eligibleNodesOf (readyNodes : List PlanNode) (n : String) :
    n ∈ eligibleNodesOf readyNodes ↔ n ∈ readyNodes.map (·.id) := by
  unfold eligibleNodesOf
  rw [mem_foldl_insert_iff (fun node : PlanNode ↦ node.id) (fun _ node ↦ node)]
  simp

/-- The allocations of a system job and the terminal allocations it reads embed their jobs, as
every allocation of the state store does. -/
def JobsAttached (allocs : List SysAlloc) (terminal : TerminalByNodeByName) : Prop :=
  (∀ a ∈ allocs, a.job.isSome) ∧ TerminalJobsAttached terminal

variable {jobName : String} {readyNodes : List PlanNode} {allocs : List SysAlloc}
  {terminal : TerminalByNodeByName}

/-- The diff of a job whose allocations embed their jobs: each list holds the tuples of that list
of every node of `nodeAllocs`, node after node. -/
theorem diffSystemAllocs_get (hjobs : JobsAttached allocs terminal) :
    ∃ d, diffSystemAllocs maxClientDisconnect jobName job readyNodes notReadyNodes taintedNodes
        allocs terminal serverSupportsDisconnectedClients now = some d ∧
      ∀ b, d.get b = (nodeAllocsOf allocs readyNodes).entries.flatMap fun e ↦
        ((nodeTuples maxClientDisconnect job e.1 (eligibleNodesOf readyNodes) notReadyNodes
          taintedNodes (materializeSystemTaskGroups jobName job) e.2 terminal
          serverSupportsDisconnectedClients now).filter (·.1 = b)).map (·.2) := by
  -- the allocations of a node are among the job's, so they embed their jobs
  have hnode : ∀ e ∈ (nodeAllocsOf allocs readyNodes).entries, ∀ a ∈ e.2, a.job.isSome := by
    intro e he a ha
    rw [eq_filter_of_mem_nodeAllocsOf he] at ha
    exact hjobs.1 a (List.mem_filter.mp ha).1
  unfold diffSystemAllocs
  dsimp only
  rw [foldlM_map_of_isSome _ _ (fun e he ↦ by
    rw [diffSystemAllocsForNode_eq maxClientDisconnect (hnode e he) hjobs.2]; rfl)]
  refine ⟨_, rfl, fun b ↦ ?_⟩
  rw [List.filterMap_eq_map_iff_forall_eq_some.mpr
      (fun e he ↦ diffSystemAllocsForNode_eq maxClientDisconnect (hnode e he) hjobs.2),
    DiffResult.get_foldl_append, DiffResult.get_empty, List.nil_append, List.flatMap_map]
  simp [DiffResult.get_foldl_push]

/-- Every ready node that is not tainted gets, once, each name the job requires that no
allocation on it has, except a name with a terminal sysbatch allocation there; no other node and
no other name gets a placement. -/
theorem diffSystemAllocs_place (hjobs : JobsAttached allocs terminal) :
    ∃ d, diffSystemAllocs maxClientDisconnect jobName job readyNodes notReadyNodes taintedNodes
        allocs terminal serverSupportsDisconnectedClients now = some d ∧
      (∀ n x, (n, x) ∈ d.place.map (fun t ↦ (t.alloc.nodeID, t.name)) ↔
        n ∈ readyNodes.map (·.id) ∧ n ∉ taintedNodes ∧
          x ∈ materializeSystemTaskGroups jobName job ∧ (∀ a ∈ allocs, a.nodeID = n → a.name ≠ x) ∧
          ¬(job.type = jobTypeSysBatch ∧ (TerminalByNodeByName.get terminal n x).isSome)) ∧
      (d.place.map fun t ↦ (t.alloc.nodeID, t.name)).Nodup := by
  refine (diffSystemAllocs_get maxClientDisconnect hjobs).imp fun d ⟨hd, hget⟩ ↦ ⟨hd, ?_⟩
  have hplace : d.place = _ := hget .place
  refine ⟨fun n x ↦ ?_, ?_⟩
  · rw [hplace]
    simp only [List.mem_map, List.mem_flatMap, List.mem_filter, decide_eq_true_eq, Prod.mk.injEq]
    constructor
    · rintro ⟨t, ⟨e, he, ⟨b, t'⟩, ⟨hmem, rfl⟩, rfl⟩, rfl, rfl⟩
      obtain ⟨tg, hlookup, hex, hsys, ht, hel, htup⟩ :=
        (place_mem_nodeTuples maxClientDisconnect).mp hmem
      rw [htup, placeAlloc_nodeID]
      rw [eq_filter_of_mem_nodeAllocsOf he] at hex
      refine ⟨List.mem_map.mp ((mem_eligibleNodesOf _ _).mp hel), ht,
        AList.lookup_isSome.mp (Option.isSome_iff_exists.mpr ⟨tg, hlookup⟩), ?_, hsys⟩
      intro a ha hnode hname
      exact hex (List.mem_map.mpr ⟨a, List.mem_filter.mpr ⟨ha, by simpa using hnode⟩, hname⟩)
    · rintro ⟨⟨node, hnode, rfl⟩, ht, hx, hall, hsys⟩
      -- the node's entry in nodeAllocs, and the required group of the name
      obtain ⟨v, hv⟩ := Option.isSome_iff_exists.mp (AList.lookup_isSome.mpr
        ((mem_nodeAllocsOf allocs readyNodes node.id).mpr (.inr (List.mem_map_of_mem hnode))))
      obtain ⟨tg, htg⟩ := Option.isSome_iff_exists.mp (AList.lookup_isSome.mpr hx)
      have he : (⟨node.id, v⟩ : Σ _ : String, List SysAlloc) ∈
          (nodeAllocsOf allocs readyNodes).entries := AList.mem_lookup_iff.mp hv
      have hex : x ∉ v.map (·.name) := by
        have hv : v = _ := eq_filter_of_mem_nodeAllocsOf he
        rw [hv]
        simp only [List.mem_map, List.mem_filter, decide_eq_true_eq, not_exists, not_and]
        exact fun a ha hn ↦ hall a ha.1 ha.2 hn
      have hmem : (.place, ⟨x, some tg, placeAlloc terminal node.id x⟩) ∈
          nodeTuples maxClientDisconnect job node.id (eligibleNodesOf readyNodes) notReadyNodes
            taintedNodes (materializeSystemTaskGroups jobName job) v terminal
            serverSupportsDisconnectedClients now :=
        (place_mem_nodeTuples maxClientDisconnect).mpr ⟨tg, htg, hex, hsys, ht,
          (mem_eligibleNodesOf _ _).mpr (List.mem_map_of_mem hnode), rfl⟩
      exact ⟨_, ⟨_, he, _, ⟨hmem, rfl⟩, rfl⟩, placeAlloc_nodeID _ _ _, rfl⟩
  · -- the nodes' placements are apart, and each node's are distinct names
    rw [hplace, List.map_flatMap, List.nodup_flatMap]
    have hnode : ∀ e ∈ (nodeAllocsOf allocs readyNodes).entries, ∀ t ∈
        ((nodeTuples maxClientDisconnect job e.1 (eligibleNodesOf readyNodes) notReadyNodes
          taintedNodes (materializeSystemTaskGroups jobName job) e.2 terminal
          serverSupportsDisconnectedClients now).filter (·.1 = .place)).map (·.2),
        t.alloc.nodeID = e.1 := by
      intro e _ t ht
      obtain ⟨⟨b, t'⟩, hq, rfl⟩ := List.mem_map.mp ht
      obtain ⟨hmem, hb⟩ := List.mem_filter.mp hq
      obtain rfl : b = .place := by simpa using hb
      obtain ⟨tg, -, -, -, -, -, htup⟩ := (place_mem_nodeTuples maxClientDisconnect).mp hmem
      rw [htup, placeAlloc_nodeID]
    refine ⟨fun e _ ↦ ?_, ?_⟩
    · refine List.Nodup.of_map Prod.snd ?_
      rw [List.map_map]
      exact nodup_place_nodeTuples maxClientDisconnect
    · refine (nodeAllocsOf allocs readyNodes).nodupKeys.pairwise_ne.imp_of_mem
        fun {e e'} he he' hne ↦ ?_
      intro z hz hz'
      obtain ⟨t, ht, rfl⟩ := List.mem_map.mp hz
      obtain ⟨t', ht', htt'⟩ := List.mem_map.mp hz'
      have hfst := congrArg Prod.fst htt'
      simp only at hfst
      exact hne (by rw [← hnode e he t ht, ← hnode e' he' t' ht', hfst])

/-- A system job `web` of one group of two instances, at modify index 5. -/
def webJob : Job where
  id := "web"
  type := "system"
  taskGroups := [{ name := "web", count := 2 }]
  jobModifyIndex := 5

/-- A ready, eligible node. -/
def readyNode (id : String) : PlanNode where
  id := id
  status := .ready
  schedulingEligibility := .eligible

/-- The instance `web.web[0]` on `n1`, and an instance `web.web[7]` of an older version on `n2`. -/
def webAllocs : List SysAlloc :=
  [{ id := "a1", name := "web.web[0]", nodeID := "n1", job := some webJob },
    { id := "a3", name := "web.web[7]", nodeID := "n2", job := some { webJob with jobModifyIndex := 3 } }]

theorem webAllocs_jobsAttached : JobsAttached webAllocs ∅ :=
  ⟨by decide, fun _ _ _ h ↦ by simp [TerminalByNodeByName.get] at h⟩

theorem diffSystemAllocs_place_web :
    JobsAttached webAllocs ∅ ∧
      ∃ d, diffSystemAllocs (fun _ ↦ none) "web" webJob [readyNode "n1", readyNode "n2"] []
          ∅ webAllocs ∅ false 0 = some d ∧
        (∀ n x, (n, x) ∈ d.place.map (fun t ↦ (t.alloc.nodeID, t.name)) ↔
          n ∈ [readyNode "n1", readyNode "n2"].map (·.id) ∧ n ∉ (∅ : GoMap String (Option PlanNode)) ∧
            x ∈ materializeSystemTaskGroups "web" webJob ∧
            (∀ a ∈ webAllocs, a.nodeID = n → a.name ≠ x) ∧
            ¬(webJob.type = jobTypeSysBatch ∧ (TerminalByNodeByName.get ∅ n x).isSome)) ∧
        (d.place.map fun t ↦ (t.alloc.nodeID, t.name)).Nodup :=
  ⟨webAllocs_jobsAttached, diffSystemAllocs_place (fun _ ↦ none) webAllocs_jobsAttached⟩

/-- `n1` lacks `web.web[1]`, `n2` lacks both instances, and the instance of index 7 is stopped. -/
example : (diffSystemAllocs (fun _ ↦ none) "web" webJob [readyNode "n1", readyNode "n2"] [] ∅
    webAllocs ∅ false 0).map (fun d ↦ (d.place.map fun t ↦ (t.alloc.nodeID, t.name),
      d.stop.map (·.name))) =
    some ([("n2", "web.web[1]"), ("n2", "web.web[0]"), ("n1", "web.web[1]")], ["web.web[7]"]) := by
  decide

/-- Among allocations of distinct IDs, those of a node with the ID of one of them: that one, if it
is on the node. -/
private theorem filter_nodeID_id {l : List SysAlloc} (hids : (l.map (·.id)).Nodup) {a : SysAlloc}
    (ha : a ∈ l) (n : String) :
    (l.filter (·.nodeID = n)).filter (·.id = a.id) = if a.nodeID = n then [a] else [] := by
  induction l with
  | nil => cases ha
  | cons y l ih =>
    rw [List.map_cons, List.nodup_cons] at hids
    by_cases hy : y = a
    · subst hy
      -- no later allocation has the ID
      have hrest : (l.filter (·.nodeID = n)).filter (·.id = y.id) = [] := by
        refine List.filter_eq_nil_iff.mpr fun x hx hid ↦ hids.1 ?_
        have hx' := (List.mem_filter.mp hx).1
        exact (by simpa using hid : x.id = y.id) ▸ List.mem_map_of_mem hx'
      rw [List.filter_cons]
      by_cases hn : y.nodeID = n <;> simp [hn, hrest]
    · have ha' : a ∈ l := (List.mem_cons.mp ha).resolve_left (Ne.symm hy)
      have hid : y.id ≠ a.id := fun h ↦ hids.1 (h ▸ List.mem_map_of_mem ha')
      rw [List.filter_cons]
      split <;> simp [hid, ih hids.2 ha']

/-- Every allocation of the job goes to exactly one list of the diff, in one tuple: the list and
the tuple `diffExisting` gives it on its node. Allocations have distinct IDs that are not empty
and that no terminal allocation has, as the state store's do. -/
theorem diffSystemAllocs_classifies_once (hjobs : JobsAttached allocs terminal)
    (hids : (allocs.map (·.id)).Nodup) (hnew : "" ∉ allocs.map (·.id))
    (hterminal : ∀ n x a, TerminalByNodeByName.get terminal n x = some a →
      a.id ∉ allocs.map (·.id)) :
    ∃ d, diffSystemAllocs maxClientDisconnect jobName job readyNodes notReadyNodes taintedNodes
        allocs terminal serverSupportsDisconnectedClients now = some d ∧
      ∀ a ∈ allocs, ∃ p, diffExisting maxClientDisconnect job a.nodeID (eligibleNodesOf readyNodes)
          notReadyNodes taintedNodes (materializeSystemTaskGroups jobName job)
          serverSupportsDisconnectedClients now a = some p ∧
        ∀ b, (d.get b).filter (·.alloc.id = a.id) = if p.1 = b then [p.2] else [] := by
  refine (diffSystemAllocs_get maxClientDisconnect hjobs).imp fun d ⟨hd, hget⟩ ↦
    ⟨hd, fun a ha ↦ ?_⟩
  obtain ⟨p, hp⟩ := Option.isSome_iff_exists.mp
    (diffExisting_isSome maxClientDisconnect (hjobs.1 a ha))
  refine ⟨p, hp, fun b ↦ ?_⟩
  have hi : a.id ≠ "" := fun h ↦ hnew (h ▸ List.mem_map_of_mem ha)
  have hterm : ∀ n x t, TerminalByNodeByName.get terminal n x = some t → t.id ≠ a.id :=
    fun n x t h hid ↦ hterminal n x t h (hid ▸ List.mem_map_of_mem ha)
  -- filtering a node's list by the ID filters its tuples by the ID first
  have hnode : ∀ e ∈ (nodeAllocsOf allocs readyNodes).entries,
      ((((nodeTuples maxClientDisconnect job e.1 (eligibleNodesOf readyNodes) notReadyNodes
        taintedNodes (materializeSystemTaskGroups jobName job) e.2 terminal
        serverSupportsDisconnectedClients now).filter (·.1 = b)).map (·.2)).filter
          (·.alloc.id = a.id)) =
        ((((allocs.filter (·.nodeID = e.1)).filter (·.id = a.id)).filterMap
          (diffExisting maxClientDisconnect job e.1 (eligibleNodesOf readyNodes) notReadyNodes
            taintedNodes (materializeSystemTaskGroups jobName job)
            serverSupportsDisconnectedClients now)).filter (·.1 = b)).map (·.2) := by
    intro e he
    rw [← eq_filter_of_mem_nodeAllocsOf he, ← filter_id_nodeTuples maxClientDisconnect hi hterm,
      List.filter_map, List.filter_filter, List.filter_filter]
    simp only [Function.comp_def, Bool.and_comm]
  have hv : (nodeAllocsOf allocs readyNodes).lookup a.nodeID =
      some (allocs.filter (·.nodeID = a.nodeID)) := by
    have hmem : a.nodeID ∈ nodeAllocsOf allocs readyNodes :=
      (mem_nodeAllocsOf _ _ _).mpr (.inl (List.mem_map_of_mem ha))
    obtain ⟨v, hv⟩ := Option.isSome_iff_exists.mp (AList.lookup_isSome.mpr hmem)
    have hfilter : v = _ := eq_filter_of_mem_nodeAllocsOf (AList.mem_lookup_iff.mp hv)
    rw [hv, hfilter]
  rw [hget b, List.filter_flatMap, flatMap_entries_of_lookup hv]
  · -- the allocation's node: its one tuple
    rw [hnode _ (AList.mem_lookup_iff.mp hv), filter_nodeID_id hids ha, if_pos rfl,
      List.filterMap_cons_some hp, List.filterMap_nil]
    by_cases hb : p.1 = b <;> simp [hb]
  · -- any other node: none
    intro e he hne
    rw [hnode e he, filter_nodeID_id hids ha, if_neg (Ne.symm hne)]
    rfl

theorem diffSystemAllocs_classifies_once_web :
    JobsAttached webAllocs ∅ ∧ (webAllocs.map (·.id)).Nodup ∧ "" ∉ webAllocs.map (·.id) ∧
      (∀ n x a, TerminalByNodeByName.get ∅ n x = some a → a.id ∉ webAllocs.map (·.id)) ∧
      ∃ d, diffSystemAllocs (fun _ ↦ none) "web" webJob [readyNode "n1", readyNode "n2"] []
          ∅ webAllocs ∅ false 0 = some d ∧
        ∀ a ∈ webAllocs, ∃ p, diffExisting (fun _ ↦ none) webJob a.nodeID
            (eligibleNodesOf [readyNode "n1", readyNode "n2"]) [] ∅
            (materializeSystemTaskGroups "web" webJob) false 0 a = some p ∧
          ∀ b, (d.get b).filter (·.alloc.id = a.id) = if p.1 = b then [p.2] else [] := by
  have hterm : ∀ n x a, TerminalByNodeByName.get ∅ n x = some a →
      a.id ∉ webAllocs.map (·.id) := fun _ _ _ h ↦ by simp [TerminalByNodeByName.get] at h
  exact ⟨webAllocs_jobsAttached, by decide, by decide, hterm,
    diffSystemAllocs_classifies_once (fun _ ↦ none) webAllocs_jobsAttached (by decide) (by decide)
      hterm⟩

end Proofs

end Wander.Scheduler
