import Wander.Lib.GoMap

/-!
# Evaluations

The fields of `structs.Evaluation` that the evaluation broker, the blocked-evaluation tracker and
the core scheduler read, and the `structs.NamespacedID` that keys jobs by ID and namespace.
Durations and times are nanosecond counts; a zero `waitUntil` is Go's zero `time.Time`.
-/

set_option autoImplicit false
set_option relaxedAutoImplicit false

namespace Wander.Structs

open Wander.Lib

/-- `structs.NamespacedID`. -/
structure NamespacedID where
  id : String
  «namespace» : String
deriving DecidableEq, Repr

/-- The values of `Evaluation.Status`. -/
inductive EvalStatus
  | blocked
  | pending
  | complete
  | failed
  | canceled
deriving DecidableEq, Repr

/-- `structs.JobTypeSystem`. -/
def jobTypeSystem : String := "system"

/-- `structs.EvalTriggerMaxPlans`. -/
def evalTriggerMaxPlans : String := "max-plan-attempts"

/-- `structs.EvalTriggerRetryFailedAlloc`. -/
def evalTriggerRetryFailedAlloc : String := "alloc-failure"

/-- `structs.EvalTriggerMaxDisconnectTimeout`. -/
def evalTriggerMaxDisconnectTimeout : String := "max-disconnect-timeout"

/-- `structs.Evaluation`, restricted to the fields the modelled code reads. -/
structure Evaluation where
  id : String := ""
  «namespace» : String := ""
  priority : ℤ := 0
  type : String := ""
  triggeredBy : String := ""
  jobID : String := ""
  nodeID : String := ""
  status : EvalStatus := .pending
  wait : ℕ := 0
  waitUntil : ℕ := 0
  classEligibility : GoMap String Bool := ∅
  escapedComputedClass : Bool := false
  quotaLimitReached : String := ""
  snapshotIndex : ℕ := 0
  createIndex : ℕ := 0
  modifyIndex : ℕ := 0
deriving DecidableEq

namespace Evaluation

/-- The job an evaluation is for, as the broker and the blocked tracker key it. -/
def namespacedJobID (e : Evaluation) : NamespacedID := ⟨e.jobID, e.namespace⟩

/-- `Evaluation.TerminalStatus`. -/
def terminalStatus (e : Evaluation) : Bool :=
  match e.status with
  | .complete | .failed | .canceled => true
  | .blocked | .pending => false

end Evaluation

end Wander.Structs
