import Wander.Nomad.EvalBroker
import Mathlib.Logic.Relation

/-!
# The broker's statistics against its queues

`EvalBroker.stats` is kept beside the queues by hand: `enqueueLocked` and `dequeueForSched` count
in the queue they use, `Ack` counts the unacknowledged evaluation out of the failed queue when its
delivery count is past the limit and out of its own type's queue otherwise, and `Nack` counts it
out of its own type's queue always.

An evaluation that reaches the failed queue is dequeued from it, and its Nack timer fires: the
failed queue keeps an unacknowledged evaluation that no longer exists, and the evaluation's own
queue counts one less than none (`nack_failed_eval_skews_scheduler_stats`).
-/

set_option autoImplicit false
set_option relaxedAutoImplicit false

namespace Wander.Nomad

open Wander.Lib Wander.Structs

namespace EvalBroker

/-- An evaluation of the service scheduler. -/
def failingEval : Evaluation := { id := "e1", jobID := "j1", type := "service" }

/-- With a delivery limit of one, `failingEval` is delivered, its Nack timer fires and it moves
to the failed queue; the failed-evaluation reaper dequeues it, and its Nack timer fires again. -/
def failedTwiceBroker : EvalBroker :=
  let b := (newEnabledEvalBroker 1 0 0).enqueue failingEval
  let b := (b.scanForSchedulers ["service"] 0 "t1").1
  let b := (b.nack "e1" "t1").1
  let b := (b.scanForSchedulers [failedQueue] 0 "t2").1
  (b.nack "e1" "t2").1

/-- No evaluation is unacknowledged, yet the failed queue counts one and the service queue minus
one. -/
theorem nack_failed_eval_skews_scheduler_stats :
    Relation.ReflTransGen Step (newEnabledEvalBroker 1 0 0) failedTwiceBroker ∧
      failedTwiceBroker.unack.entries = [] ∧
      failedTwiceBroker.stats.totalUnacked = 0 ∧
      (GoMap.get failedTwiceBroker.stats.byScheduler failedQueue {}).unacked = 1 ∧
      (GoMap.get failedTwiceBroker.stats.byScheduler "service" {}).unacked = -1 :=
  ⟨.tail (.tail (.tail (.tail (.single (Step.enqueue _ _ (by decide))) (Step.dequeue _ _ _ _))
    (Step.nack _ _ _)) (Step.dequeue _ _ _ _)) (Step.nack _ _ _),
    by decide +kernel, by decide +kernel, by decide +kernel, by decide +kernel⟩

end EvalBroker

end Wander.Nomad
