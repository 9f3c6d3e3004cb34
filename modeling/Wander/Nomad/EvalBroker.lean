import Wander.Delayheap.DelayHeap

/-!
# `nomad/eval_broker.go`: the evaluation broker

The broker's state and its operations, each as a function of the state taken under the broker's
lock. The timers of the source become inputs: a Nack timer that fires is a call of `nack` with
the token of its dequeue, a wait timer that fires is `enqueueWaiting` of the evaluation it was
armed with, and the delayed-evaluation watcher's release is `releaseDelayed` of an evaluation it
found in the delay heap. `uuid.Generate()` for a dequeue token and `rand.Intn` for the choice
among equally urgent schedulers are arguments. Whether `NackTimer.Stop()` found the timer
pending is an argument of `ack`.

The ready and pending queues are slices ordered by `container/heap` with
`ReadyEvaluations.Less` and `PendingEvaluations.Less`; the delay heap is `lib/delayheap` with the
`evalWrapper` key `(ID, Namespace)`.
-/

set_option autoImplicit false
set_option relaxedAutoImplicit false

namespace Wander.Nomad

open Wander.Lib Wander.Structs Wander.Delayheap

/-- `failedQueue`. -/
def failedQueue : String := "_failed"

/-- `unackEval`; its Nack timer is the `nack` step with the same token. -/
structure UnackEval where
  eval : Evaluation
  token : String
deriving DecidableEq

/-- `SchedulerStats`. -/
structure SchedulerStats where
  ready : ℤ := 0
  unacked : ℤ := 0
deriving DecidableEq

/-- `BrokerStats`. -/
structure BrokerStats where
  totalReady : ℤ := 0
  totalUnacked : ℤ := 0
  totalPending : ℤ := 0
  totalWaiting : ℤ := 0
  totalCancelable : ℤ := 0
  delayedEvals : GoMap String Evaluation := ∅
  byScheduler : GoMap String SchedulerStats := ∅

/-- `EvalBroker`, less its channels, timers and lock. -/
structure EvalBroker where
  deliveryLimit : ℕ
  enabled : Bool
  stats : BrokerStats
  evals : GoMap String ℕ
  jobEvals : GoMap NamespacedID String
  pending : GoMap NamespacedID (List Evaluation)
  cancelable : List Evaluation
  ready : GoMap String (List Evaluation)
  unack : GoMap String UnackEval
  requeue : GoMap String Evaluation
  timeWait : GoMap String Evaluation
  delayHeap : DelayHeap Evaluation
  initialNackDelay : ℕ
  subsequentNackDelay : ℕ

/-- `NewEvalBroker`, followed by `SetEnabled(true)`. -/
def newEnabledEvalBroker (deliveryLimit initialNackDelay subsequentNackDelay : ℕ) : EvalBroker where
  deliveryLimit := deliveryLimit
  enabled := true
  stats := {}
  evals := ∅
  jobEvals := ∅
  pending := ∅
  cancelable := []
  ready := ∅
  unack := ∅
  requeue := ∅
  timeWait := ∅
  delayHeap := newDelayHeap
  initialNackDelay := initialNackDelay
  subsequentNackDelay := subsequentNackDelay

/-- `evalWrapper.ID()` and `evalWrapper.Namespace()`: the delay heap's key of an evaluation. -/
def evalKey (e : Evaluation) : NamespacedID := ⟨e.id, e.namespace⟩

/-- `ReadyEvaluations.Less`: higher priority first across jobs, then lower create index. -/
def readyLess (a b : Evaluation) : Bool :=
  if a.jobID ≠ b.jobID ∧ a.priority ≠ b.priority then !(a.priority < b.priority)
  else a.createIndex < b.createIndex

/-- `PendingEvaluations.Less`: higher priority first, then higher modify index. -/
def pendingLess (a b : Evaluation) : Bool :=
  if a.priority ≠ b.priority then !(a.priority < b.priority) else !(a.modifyIndex < b.modifyIndex)

/-- `ReadyEvaluations.Peek`: the last element of the slice. -/
def readyPeek (r : List Evaluation) : Option Evaluation := r.getLast?

/-- `PendingEvaluations.MarkForCancel`: keep the popped top, return the rest as cancelable. -/
def markForCancel (p : List Evaluation) : List Evaluation × List Evaluation :=
  let popped := Heap.pop (Heap.slice pendingLess) p
  (popped.2.toList, popped.1)

namespace BrokerStats

/-- Apply `f` to the counters of a scheduler, as the source does through the map's pointer. -/
def updateSched (st : BrokerStats) (sched : String) (f : SchedulerStats → SchedulerStats) :
    BrokerStats :=
  { st with byScheduler := st.byScheduler.insert sched (f (GoMap.get st.byScheduler sched {})) }

end BrokerStats

namespace EvalBroker

variable (b : EvalBroker)

/-- `enqueueLocked`: an evaluation of a job with a different ready or unacknowledged evaluation
waits in the job's pending heap; otherwise it becomes ready in the queue `sched`. -/
def enqueueLocked (eval : Evaluation) (sched : String) : EvalBroker :=
  if !b.enabled then b
  else
    let ns := eval.namespacedJobID
    let readyEval := GoMap.get b.jobEvals ns ""
    if readyEval ≠ "" ∧ readyEval ≠ eval.id then
      { b with
        pending := b.pending.insert ns (Heap.push (Heap.slice pendingLess) (GoMap.get b.pending ns []) eval)
        stats := { b.stats with totalPending := b.stats.totalPending + 1 } }
    else
      let jobEvals := if readyEval = "" then b.jobEvals.insert ns eval.id else b.jobEvals
      { b with
        jobEvals := jobEvals
        ready := b.ready.insert sched (Heap.push (Heap.slice readyLess) (GoMap.get b.ready sched []) eval)
        stats := ({ b.stats with totalReady := b.stats.totalReady + 1 }).updateSched sched
          fun s ↦ { s with ready := s.ready + 1 } }

/-- `processWaitingEnqueue`: arm the wait timer of the evaluation. -/
def processWaitingEnqueue (eval : Evaluation) : EvalBroker :=
  { b with
    timeWait := b.timeWait.insert eval.id eval
    stats := { b.stats with totalWaiting := b.stats.totalWaiting + 1 } }

/-- `enqueueWaiting`: the wait timer of `eval` fired. -/
def enqueueWaiting (eval : Evaluation) : EvalBroker :=
  enqueueLocked
    { b with
      timeWait := b.timeWait.erase eval.id
      stats := { b.stats with totalWaiting := b.stats.totalWaiting - 1 } } eval eval.type

/-- The delayed branch of `processEnqueue`: push onto the delay heap (whose error is ignored). -/
def enqueueDelayed (eval : Evaluation) : EvalBroker :=
  { b with
    delayHeap := (DelayHeap.push evalKey b.delayHeap eval eval.waitUntil).1
    stats := { b.stats with
      totalWaiting := b.stats.totalWaiting + 1
      delayedEvals := b.stats.delayedEvals.insert eval.id eval } }

/-- `processEnqueue`: de-duplicate by ID; a known ID with the token of its outstanding delivery
is kept for re-enqueueing at its Ack. A new ID waits, is delayed, or is enqueued. -/
def processEnqueue (eval : Evaluation) (token : String) : EvalBroker :=
  if !b.enabled then b
  else if eval.id ∈ b.evals then
    if token = "" then b
    else
      match b.unack.lookup eval.id with
      | some u => if u.token = token then { b with requeue := b.requeue.insert token eval } else b
      | none => b
  else
    let b₁ := { b with evals := b.evals.insert eval.id 0 }
    if 0 < eval.wait then b₁.processWaitingEnqueue eval
    else if eval.waitUntil ≠ 0 then b₁.enqueueDelayed eval
    else b₁.enqueueLocked eval eval.type

/-- `Enqueue`. -/
def enqueue (eval : Evaluation) : EvalBroker := b.processEnqueue eval ""

/-- `EnqueueAll`, over the map's entries in the order Go iterates them. -/
def enqueueAll (evals : List (Evaluation × String)) : EvalBroker :=
  evals.foldl (fun b e ↦ b.processEnqueue e.1 e.2) b

/-- `dequeueForSched`: pop the ready queue of `sched` and deliver with `token`. -/
def dequeueForSched (sched : String) (token : String) : EvalBroker × Option Evaluation :=
  let popped := Heap.pop (Heap.slice readyLess) (GoMap.get b.ready sched [])
  match popped.2 with
  | some eval =>
    ({ b with
      ready := b.ready.insert sched popped.1
      unack := b.unack.insert eval.id ⟨eval, token⟩
      evals := b.evals.insert eval.id (GoMap.get b.evals eval.id 0 + 1)
      stats := ({ b.stats with
        totalReady := b.stats.totalReady - 1
        totalUnacked := b.stats.totalUnacked + 1 }).updateSched sched
          fun s ↦ { s with ready := s.ready - 1, unacked := s.unacked + 1 } }, some eval)
  -- `heap.Pop` of an empty queue; `scanForSchedulers` only dequeues a queue it peeked.
  | none => (b, none)

/-- The scan of `scanForSchedulers`: the schedulers whose ready queue's `Peek` has the highest
priority seen, and that priority. -/
def eligibleSchedulers (schedulers : List String) : List String × ℤ :=
  schedulers.foldl (fun acc sched ↦
    match (b.ready.lookup sched).bind readyPeek with
    | none => acc
    | some ready =>
      if acc.1.length = 0 ∨ acc.2 < ready.priority then ([sched], ready.priority)
      else if ready.priority < acc.2 then acc
      else (acc.1 ++ [sched], acc.2)) ([], 0)

/-- `scanForSchedulers`; `offset` is `rand.Intn(n)` for `n` eligible schedulers. -/
def scanForSchedulers (schedulers : List String) (offset : ℕ) (token : String) :
    EvalBroker × Except String (Option Evaluation) :=
  if !b.enabled then (b, .error "eval broker disabled")
  else
    match (b.eligibleSchedulers schedulers).1 with
    | [] => (b, .ok none)
    | [sched] => let r := b.dequeueForSched sched token; (r.1, .ok r.2)
    | eligible =>
      match eligible[offset]? with
      | some sched => let r := b.dequeueForSched sched token; (r.1, .ok r.2)
      | none => (b, .ok none)

/-- `nackReenqueueDelay`. -/
def nackReenqueueDelay (prevDequeues : ℕ) : ℕ :=
  if prevDequeues = 0 then 0
  else if prevDequeues = 1 then b.initialNackDelay
  else (prevDequeues - 1) * b.subsequentNackDelay

/-- The pending step of a successful `Ack` of an evaluation of job `ns`: all pending
evaluations but the top become cancelable, and the top is enqueued. -/
def ackPending (ns : NamespacedID) : EvalBroker :=
  let pending := GoMap.get b.pending ns []
  if pending.length = 0 then b
  else
    let marked := markForCancel pending
    let cancelable := b.cancelable ++ marked.2
    let b₁ := { b with
      cancelable := cancelable
      stats := { b.stats with
        totalCancelable := cancelable.length
        totalPending := b.stats.totalPending - marked.2.length } }
    let popped := Heap.pop (Heap.slice pendingLess) marked.1
    let b₂ := match popped.2 with
      | some eval =>
        (({ b₁ with stats := { b₁.stats with totalPending := b₁.stats.totalPending - 1 } }).enqueueLocked
          eval eval.type)
      | none => b₁
    if popped.1.length = 0 then { b₂ with pending := b₂.pending.erase ns }
    else { b₂ with pending := b₂.pending.insert ns popped.1 }

/-- `Ack`. The requeued evaluation of `token` is always dropped from `requeue` at the end. -/
def ack (evalID token : String) (timerStopped : Bool) : EvalBroker × Option String :=
  let result : EvalBroker × Option String :=
    match b.unack.lookup evalID with
    | none => (b, some "Evaluation ID not found")
    | some unack =>
      if unack.token ≠ token then (b, some "Token does not match for Evaluation ID")
      else if !timerStopped then (b, some "Evaluation ID Ack'd after Nack timer expiration")
      else
        let queue := if b.deliveryLimit < GoMap.get b.evals evalID 0 then failedQueue
          else unack.eval.type
        let ns := unack.eval.namespacedJobID
        let b₁ := { b with
          stats := ({ b.stats with totalUnacked := b.stats.totalUnacked - 1 }).updateSched queue
            fun s ↦ { s with unacked := s.unacked - 1 }
          unack := b.unack.erase evalID
          evals := b.evals.erase evalID
          jobEvals := b.jobEvals.erase ns }
        let b₂ := b₁.ackPending ns
        match b.requeue.lookup token with
        | some eval => (b₂.processEnqueue eval "", none)
        | none => (b₂, none)
  ({ result.1 with requeue := result.1.requeue.erase token }, result.2)

/-- `Nack`: re-enqueue, after the nack delay, or into the failed queue at the delivery limit. -/
def nack (evalID token : String) : EvalBroker × Option String :=
  let b₀ := { b with requeue := b.requeue.erase token }
  match b₀.unack.lookup evalID with
  | none => (b₀, some "Evaluation ID not found")
  | some unack =>
    if unack.token ≠ token then (b₀, some "Token does not match for Evaluation ID")
    else
      let b₁ := { b₀ with
        unack := b₀.unack.erase evalID
        stats := ({ b₀.stats with totalUnacked := b₀.stats.totalUnacked - 1 }).updateSched
          unack.eval.type fun s ↦ { s with unacked := s.unacked - 1 } }
      let dequeues := GoMap.get b₀.evals evalID 0
      if b₀.deliveryLimit ≤ dequeues then (b₁.enqueueLocked unack.eval failedQueue, none)
      else
        let e := { unack.eval with wait := b₀.nackReenqueueDelay dequeues }
        if 0 < e.wait then (b₁.processWaitingEnqueue e, none)
        else (b₁.enqueueLocked e e.type, none)

/-- The watcher's release of a delayed evaluation whose time has come. -/
def releaseDelayed (eval : Evaluation) : EvalBroker :=
  enqueueLocked
    { b with
      delayHeap := (DelayHeap.remove evalKey b.delayHeap eval).1
      stats := { b.stats with
        totalWaiting := b.stats.totalWaiting - 1
        delayedEvals := b.stats.delayedEvals.erase eval.id } } eval eval.type

/-- One critical section of an enabled broker. Enqueued evaluations carry the non-empty
identifiers `uuid.Generate()` gives them; a wait timer fires for the evaluation it was armed
with, which is still in `timeWait`; the watcher releases an evaluation it peeked, which nothing
else removes from the delay heap. A Nack timer that fires is a `nack`. -/
inductive Step : EvalBroker → EvalBroker → Prop
  | enqueue (b : EvalBroker) (eval : Evaluation) (hid : eval.id ≠ "") : Step b (b.enqueue eval)
  | enqueueAll (b : EvalBroker) (evals : List (Evaluation × String))
      (hid : ∀ e ∈ evals, e.1.id ≠ "") : Step b (b.enqueueAll evals)
  | dequeue (b : EvalBroker) (schedulers : List String) (offset : ℕ) (token : String) :
      Step b (b.scanForSchedulers schedulers offset token).1
  | ack (b : EvalBroker) (evalID token : String) (timerStopped : Bool) :
      Step b (b.ack evalID token timerStopped).1
  | nack (b : EvalBroker) (evalID token : String) : Step b (b.nack evalID token).1
  | waitExpired (b : EvalBroker) (eval : Evaluation) (hwait : b.timeWait.lookup eval.id = some eval) :
      Step b (b.enqueueWaiting eval)
  | delayExpired (b : EvalBroker) (eval : Evaluation) (hdelay : eval ∈ b.delayHeap.items) :
      Step b (b.releaseDelayed eval)

end EvalBroker

end Wander.Nomad
