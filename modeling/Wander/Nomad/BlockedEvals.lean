import Wander.Structs.Evaluation

/-!
# `nomad/blocked_evals.go`: the blocked-evaluation tracker

The tracker's state and its operations, each as a function of the state taken under the
tracker's lock. An operation that hands evaluations to `EvalBroker.EnqueueAll` returns them, with
their tokens, in the order the source fills its map.

`Unblock`, `UnblockQuota` and `UnblockClassAndQuota` record the unblock index under the lock and
then send a `capacityUpdate` on the buffered channel, which is a queue here. The
`watchCapacity` goroutine takes one update off the queue per step and runs `unblock` on it
(`unblockLocked`). Go map iteration visits every entry once, in an order the source does not fix;
the model visits the entries in their list order, and every statement proved of a loop holds for
every order of the entries.
-/

set_option autoImplicit false
set_option relaxedAutoImplicit false

namespace Wander.Nomad

open Wander.Lib Wander.Structs

/-- `wrappedEval`. -/
structure WrappedEval where
  eval : Evaluation
  token : String
deriving DecidableEq

/-- `capacityUpdate`. -/
structure CapacityUpdate where
  computedClass : String
  quotaChange : String
  index : ℕ
deriving DecidableEq

/-- `systemEvals`: blocked system evaluations by job and node, and by ID. -/
structure SystemEvals where
  byJob : GoMap NamespacedID (GoMap String String)
  byNode : GoMap String (GoMap String Bool)
  evals : GoMap String WrappedEval

/-- `newSystemEvals`. -/
def newSystemEvals : SystemEvals := ⟨∅, ∅, ∅⟩

namespace SystemEvals

/-- `systemEvals.Get`. -/
def get (s : SystemEvals) (evalID : String) : Option WrappedEval := s.evals.lookup evalID

/-- `systemEvals.Remove`. A node's set is deleted when it becomes empty. -/
def remove (s : SystemEvals) (eval : Evaluation) : SystemEvals :=
  let jobID := eval.namespacedJobID
  let byJob := match (GoMap.get s.byJob jobID ∅).lookup eval.nodeID with
    | some e =>
      if e = eval.id then s.byJob.insert jobID ((GoMap.get s.byJob jobID ∅).erase eval.nodeID)
      else s.byJob
    | none => s.byJob
  let node := (GoMap.get s.byNode eval.nodeID ∅).erase eval.id
  let byNode := if node.entries.length = 0 then s.byNode.erase eval.nodeID
    else s.byNode.insert eval.nodeID node
  { byJob := byJob, byNode := byNode, evals := s.evals.erase eval.id }

/-- `systemEvals.Add`: the evaluation displaces the one blocked for its job on its node. The
source dereferences the displaced evaluation's entry; when it is missing (a panic there) nothing
is removed here. -/
def add (s : SystemEvals) (eval : Evaluation) (token : String) : SystemEvals :=
  let s := { s with
    byNode := s.byNode.insert eval.nodeID ((GoMap.get s.byNode eval.nodeID ∅).insert eval.id true)
    evals := s.evals.insert eval.id ⟨eval, token⟩ }
  let jobID := eval.namespacedJobID
  let s := if jobID ∈ s.byJob then s else { s with byJob := s.byJob.insert jobID ∅ }
  let s := match (GoMap.get s.byJob jobID ∅).lookup eval.nodeID with
    | some prevID =>
      match s.get prevID with
      | some prev => s.remove prev.eval
      | none => s
    | none => s
  { s with byJob := s.byJob.insert jobID ((GoMap.get s.byJob jobID ∅).insert eval.nodeID eval.id) }

/-- `systemEvals.NodeEvals`: the evaluations blocked on a node, with their tokens. -/
def nodeEvals (s : SystemEvals) (nodeID : String) : List (Evaluation × String) × Bool :=
  let out := (GoMap.get s.byNode nodeID ∅).entries.filterMap fun e ↦
    (s.get e.1).map fun w ↦ (w.eval, w.token)
  (out, 0 < out.length)

/-- `systemEvals.JobEvals`: the evaluations blocked for a job, and whether the job is indexed. -/
def jobEvals (s : SystemEvals) (jobID : NamespacedID) : List Evaluation × Bool :=
  let out := (GoMap.values (GoMap.get s.byJob jobID ∅)).filterMap fun eID ↦ (s.get eID).map (·.eval)
  (out, jobID ∈ s.byJob)

end SystemEvals

/-- `BlockedEvals`, less its logger, broker pointer, statistics, timetable, stop and duplicate
channels and lock. -/
structure BlockedEvals where
  enabled : Bool
  captured : GoMap String WrappedEval
  escaped : GoMap String WrappedEval
  system : SystemEvals
  capacityChangeCh : List CapacityUpdate
  jobs : GoMap NamespacedID String
  unblockIndexes : GoMap String ℕ
  duplicates : List Evaluation

/-- `NewBlockedEvals`. -/
def newBlockedEvals : BlockedEvals :=
  ⟨false, ∅, ∅, newSystemEvals, [], ∅, ∅, []⟩

/-- `latestEvalIndex`: the larger of the create and snapshot indexes. -/
def latestEvalIndex (eval : Evaluation) : ℕ := max eval.createIndex eval.snapshotIndex

/-- The loop of `missedUnblock` over the entries of `unblockIndexes`, carrying the largest index
seen. A quota-limited evaluation is decided by its quota's entry alone; any other evaluation
missed an unblock of a class it could use or never saw; an escaped one also missed any newer
unblock. -/
def missedUnblockScan (eval : Evaluation) : ℕ → List (Σ _ : String, ℕ) → Bool
  | max, [] => eval.escapedComputedClass && decide (eval.snapshotIndex < max)
  | max, ⟨id, index⟩ :: rest =>
    let max := if max < index then index else max
    if eval.quotaLimitReached ≠ "" then
      if eval.quotaLimitReached ≠ id then missedUnblockScan eval max rest
      else decide (eval.snapshotIndex < index)
    else
      let elig := eval.classEligibility.lookup id
      if elig = none ∧ eval.snapshotIndex < index then true
      else if elig = some true ∧ eval.snapshotIndex < index then true
      else missedUnblockScan eval max rest

/-- The body of the unblocking loops for a released evaluation: it joins `unblocked` and its
job's entry is deleted. -/
def release (acc : GoMap NamespacedID String × List (Evaluation × String)) (wrapped : WrappedEval) :
    GoMap NamespacedID String × List (Evaluation × String) :=
  (acc.1.erase wrapped.eval.namespacedJobID, acc.2 ++ [(wrapped.eval, wrapped.token)])

/-- The test of `unblock`'s loop over captured evaluations: a quota unblock passes over evaluations
limited by another quota, and a class explicitly marked ineligible is passed over. -/
def capturedUnblocked (computedClass quota : String) (wrapped : WrappedEval) : Bool :=
  !(quota ≠ "" ∧ wrapped.eval.quotaLimitReached ≠ "" ∧ wrapped.eval.quotaLimitReached ≠ quota) &&
    decide (wrapped.eval.classEligibility.lookup computedClass ≠ some false)

/-- The test of `UnblockFailed`'s loops. -/
def failedUnblocked (wrapped : WrappedEval) : Bool :=
  decide (wrapped.eval.triggeredBy = evalTriggerMaxPlans)

namespace BlockedEvals

variable (b : BlockedEvals)

/-- `Flush`. -/
def flush : BlockedEvals :=
  { b with
    captured := ∅
    escaped := ∅
    jobs := ∅
    unblockIndexes := ∅
    duplicates := []
    capacityChangeCh := []
    system := newSystemEvals }

/-- `SetEnabled`. -/
def setEnabled (enabled : Bool) : BlockedEvals :=
  if b.enabled = enabled then b
  else if enabled then { b with enabled := true }
  else ({ b with enabled := false }).flush

/-- `processBlockJobDuplicate`: of two blocked evaluations of one job, the one with the older
latest index becomes a duplicate. The flag says that the new one did. -/
def processBlockJobDuplicate (eval : Evaluation) : BlockedEvals × Bool :=
  match b.jobs.lookup eval.namespacedJobID with
  | none => (b, false)
  | some existingID =>
    match b.captured.lookup existingID with
    | some existingW =>
      if latestEvalIndex existingW.eval ≤ latestEvalIndex eval then
        ({ b with
          captured := b.captured.erase existingID
          duplicates := b.duplicates ++ [existingW.eval] }, false)
      else ({ b with duplicates := b.duplicates ++ [eval] }, true)
    | none =>
      match b.escaped.lookup existingID with
      -- The source logs a programming error and forgets the job's entry.
      | none => ({ b with jobs := b.jobs.erase eval.namespacedJobID }, false)
      | some existingW =>
        if latestEvalIndex existingW.eval ≤ latestEvalIndex eval then
          ({ b with
            escaped := b.escaped.erase existingID
            duplicates := b.duplicates ++ [existingW.eval] }, false)
        else ({ b with duplicates := b.duplicates ++ [eval] }, true)

/-- `missedUnblock`. -/
def missedUnblock (eval : Evaluation) : Bool := missedUnblockScan eval 0 b.unblockIndexes.entries

/-- `processBlock`: block an evaluation, or hand it back to the broker at once when it missed an
unblock while in the scheduler. -/
def processBlock (eval : Evaluation) (token : String) : BlockedEvals × List (Evaluation × String) :=
  if !b.enabled then (b, [])
  else
    let dup := b.processBlockJobDuplicate eval
    let b := dup.1
    if dup.2 then (b, [])
    else if b.missedUnblock eval then (b, [(eval, token)])
    else
      let b := { b with jobs := b.jobs.insert eval.namespacedJobID eval.id }
      let wrapped : WrappedEval := ⟨eval, token⟩
      if eval.escapedComputedClass then ({ b with escaped := b.escaped.insert eval.id wrapped }, [])
      else
        let b := if eval.type = jobTypeSystem then { b with system := b.system.add eval token } else b
        ({ b with captured := b.captured.insert eval.id wrapped }, [])

/-- `Block`. -/
def block (eval : Evaluation) : BlockedEvals × List (Evaluation × String) := b.processBlock eval ""

/-- `Reblock`. -/
def reblock (eval : Evaluation) (token : String) : BlockedEvals × List (Evaluation × String) :=
  b.processBlock eval token

/-- `Untrack`: forget the blocked evaluations of a job. -/
def untrack (jobID «namespace» : String) : BlockedEvals :=
  if !b.enabled then b
  else
    let nsID : NamespacedID := ⟨jobID, «namespace»⟩
    let system := b.system.jobEvals nsID
    if system.2 then { b with system := system.1.foldl SystemEvals.remove b.system }
    else
      match b.jobs.lookup nsID with
      | none => b
      | some evalID =>
        let b := if evalID ∈ b.captured then
            { b with jobs := b.jobs.erase nsID, captured := b.captured.erase evalID }
          else b
        if evalID ∈ b.escaped then
          { b with jobs := b.jobs.erase nsID, escaped := b.escaped.erase evalID }
        else b

/-- The locked part of the three unblock calls and their send: record the index under each key,
then queue the update. -/
def recordUnblock (keys : List String) (update : CapacityUpdate) : BlockedEvals :=
  if !b.enabled then b
  else
    { b with
      unblockIndexes := keys.foldl (fun m k ↦ m.insert k update.index) b.unblockIndexes
      capacityChangeCh := b.capacityChangeCh ++ [update] }

/-- `Unblock`. -/
def unblock (computedClass : String) (index : ℕ) : BlockedEvals :=
  b.recordUnblock [computedClass] ⟨computedClass, "", index⟩

/-- `UnblockQuota`. -/
def unblockQuota (quota : String) (index : ℕ) : BlockedEvals :=
  if quota = "" then b else b.recordUnblock [quota] ⟨"", quota, index⟩

/-- `UnblockClassAndQuota`. -/
def unblockClassAndQuota («class» quota : String) (index : ℕ) : BlockedEvals :=
  b.recordUnblock ((if quota ≠ "" then [quota] else []) ++ [«class»]) ⟨«class», quota, index⟩

/-- `UnblockNode`: hand over the system evaluations blocked on a node. They stay captured. -/
def unblockNode (nodeID : String) (_index : ℕ) : BlockedEvals × List (Evaluation × String) :=
  let evals := b.system.nodeEvals nodeID
  if !b.enabled ∨ !evals.2 ∨ evals.1.length = 0 then (b, [])
  else ({ b with system := evals.1.foldl (fun s e ↦ s.remove e.1) b.system }, evals.1)

/-- `unblock`, which `watchCapacity` runs for each update: a class unblock releases every escaped
evaluation, and each unblock releases the captured evaluations `capturedUnblocked` admits. The
index is not read. -/
def unblockLocked (computedClass quota : String) (_index : ℕ) :
    BlockedEvals × List (Evaluation × String) :=
  if !b.enabled then (b, [])
  else
    let esc := if b.escaped.entries.length ≠ 0 ∧ computedClass ≠ "" then
        GoMap.rangeDelete (fun _ ↦ true) release b.escaped (b.jobs, [])
      else (b.escaped, (b.jobs, []))
    let cap := GoMap.rangeDelete (capturedUnblocked computedClass quota) release b.captured esc.2
    ({ b with escaped := esc.1, captured := cap.1, jobs := cap.2.1 }, cap.2.2)

/-- One iteration of `watchCapacity`: take the next update off the channel and run `unblock`. -/
def watchCapacityStep : BlockedEvals × List (Evaluation × String) :=
  match b.capacityChangeCh with
  | [] => (b, [])
  | update :: rest =>
    ({ b with capacityChangeCh := rest }).unblockLocked update.computedClass update.quotaChange
      update.index

/-- `n` iterations of `watchCapacity`, with everything they hand over. -/
def watchCapacity : ℕ → BlockedEvals → BlockedEvals × List (Evaluation × String)
  | 0, b => (b, [])
  | n + 1, b =>
    let first := b.watchCapacityStep
    let rest := watchCapacity n first.1
    (rest.1, first.2 ++ rest.2)

/-- `UnblockFailed`: release the evaluations that hit the plan-attempt limit. -/
def unblockFailed : BlockedEvals × List (Evaluation × String) :=
  if !b.enabled then (b, [])
  else
    let cap := GoMap.rangeDelete failedUnblocked release b.captured (b.jobs, [])
    let esc := GoMap.rangeDelete failedUnblocked release b.escaped cap.2
    ({ b with captured := cap.1, escaped := esc.1, jobs := esc.2.1 }, esc.2.2)

/-- The non-blocking part of `GetDuplicates`: take the duplicates. -/
def takeDuplicates : BlockedEvals × List Evaluation :=
  ({ b with duplicates := [] }, b.duplicates)

/-- `pruneUnblockIndexes`, with the timetable's index for the cutoff (none without a timetable). -/
def pruneUnblockIndexes (oldThreshold : Option ℕ) : BlockedEvals :=
  match oldThreshold with
  | none => b
  | some threshold =>
    { b with
      unblockIndexes := (GoMap.rangeDelete (fun index ↦ decide (index < threshold))
        (fun _ _ ↦ ()) b.unblockIndexes ()).1 }

/-- The tracker of a leader: `NewBlockedEvals` followed by `SetEnabled(true)`. -/
def newEnabledBlockedEvals : BlockedEvals := newBlockedEvals.setEnabled true

/-- One critical section of an enabled tracker or one iteration of its goroutines. -/
inductive Step : BlockedEvals → BlockedEvals → Prop
  | block (b : BlockedEvals) (eval : Evaluation) (token : String) :
      Step b (b.processBlock eval token).1
  | untrack (b : BlockedEvals) (jobID «namespace» : String) : Step b (b.untrack jobID «namespace»)
  | unblock (b : BlockedEvals) (computedClass : String) (index : ℕ) :
      Step b (b.unblock computedClass index)
  | unblockQuota (b : BlockedEvals) (quota : String) (index : ℕ) :
      Step b (b.unblockQuota quota index)
  | unblockClassAndQuota (b : BlockedEvals) («class» quota : String) (index : ℕ) :
      Step b (b.unblockClassAndQuota «class» quota index)
  | unblockNode (b : BlockedEvals) (nodeID : String) (index : ℕ) :
      Step b (b.unblockNode nodeID index).1
  | watchCapacity (b : BlockedEvals) : Step b b.watchCapacityStep.1
  | unblockFailed (b : BlockedEvals) : Step b b.unblockFailed.1
  | takeDuplicates (b : BlockedEvals) : Step b b.takeDuplicates.1
  | prune (b : BlockedEvals) (oldThreshold : Option ℕ) : Step b (b.pruneUnblockIndexes oldThreshold)

end BlockedEvals

end Wander.Nomad
