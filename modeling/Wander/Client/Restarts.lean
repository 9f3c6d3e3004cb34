import Wander.Structs.Job
import Wander.Lib.GoInt
import Wander.Lib.Float64

/-!
# `client/allocrunner/taskrunner/restarts`: the restart tracker

The task runner records what happened to a task (`SetStartError`, `SetExitResult`,
`SetRestartTriggered`, `SetKilled`) and asks `GetState` whether to restart it and after what
delay. Within the task's restart policy the delay is `Delay` plus a random jitter of up to a
quarter of it; past the policy's attempts in its interval, the task is not restarted (mode
`fail`) or waits for the interval's end (mode `delay`).

The jitter adds `int64(float64(rand.Int63n(d)) * 0.25)` to `d` in `int64`. For the largest
`Delay` the sum wraps, and a restart within the policy gets a negative delay
(`getState_jitter_wraps`).

`time.Now()` is an argument of `GetState` for each of its two readings, `rand.Int63n(d)` is the
draw `draw < d`, and a start error stands for whether `structs.IsRecoverable` holds of it. The
reason of the mode `fail` is the attempts and interval its message formats.
-/

set_option autoImplicit false
set_option relaxedAutoImplicit false

namespace Wander.Client

open Wander.Lib GoInt Wander.Structs

/-- `structs.TaskTerminated`. -/
def taskTerminated : String := "Terminated"

/-- `structs.TaskKilled`. -/
def taskKilled : String := "Killed"

/-- `structs.TaskRestarting`. -/
def taskRestarting : String := "Restarting"

/-- `structs.TaskNotRestarting`. -/
def taskNotRestarting : String := "Not Restarting"

/-- The reasons `GetState` records. -/
inductive RestartReason
  /-- "" -/
  | none
  /-- `ReasonNoRestartsAllowed`: "Policy allows no restarts" -/
  | noRestartsAllowed
  /-- `ReasonUnrecoverableError`: "Error was unrecoverable" -/
  | unrecoverableError
  /-- "Restart unnecessary as task terminated successfully" -/
  | terminatedSuccessfully
  /-- "Exceeded allowed attempts .. in interval .. and mode is "fail"" -/
  | exceededAttempts (attempts interval : ℤ)
  /-- `ReasonDelay`: "Exceeded allowed attempts, applying a delay" -/
  | delay
  /-- `ReasonWithinPolicy`: "Restart within policy" -/
  | withinPolicy
deriving DecidableEq, Repr

/-- The fields of `drivers.ExitResult` that `Successful` reads; `err` is whether `Err` is set. -/
structure ExitResult where
  exitCode : ℤ := 0
  signal : ℤ := 0
  err : Bool := false
deriving DecidableEq, Repr

/-- `ExitResult.Successful`. -/
def ExitResult.successful (r : ExitResult) : Bool := r.exitCode = 0 && r.signal = 0 && !r.err

/-- A start error, by whether `structs.IsRecoverable` holds of it. -/
structure StartError where
  recoverable : Bool
deriving DecidableEq, Repr

/-- `RestartTracker`, less its lock and random source. -/
structure RestartTracker where
  exitRes : Option ExitResult := none
  startErr : Option StartError := none
  killed : Bool := false
  restartTriggered : Bool := false
  failure : Bool := false
  count : ℤ := 0
  onSuccess : Bool
  startTime : ℤ
  reason : RestartReason := .none
  policy : RestartPolicy
deriving DecidableEq, Repr

namespace RestartTracker

/-- `SetStartError`. -/
def setStartError (r : RestartTracker) (err : Option StartError) : RestartTracker :=
  { r with startErr := err, failure := true }

/-- `SetExitResult`. -/
def setExitResult (r : RestartTracker) (res : Option ExitResult) : RestartTracker :=
  { r with exitRes := res, failure := true }

/-- `SetRestartTriggered`: a restart by failure counts against the policy, any other does not. -/
def setRestartTriggered (r : RestartTracker) (failure : Bool) : RestartTracker :=
  if failure then { r with failure := true } else { r with restartTriggered := true }

/-- `SetKilled`. -/
def setKilled (r : RestartTracker) : RestartTracker := { r with killed := true }

/-- `RestartTracker.getDelay`: the time left in the interval at `now`. -/
def getDelay (r : RestartTracker) (now : ℤ) : ℤ := r.startTime + r.policy.interval - now

/-- `RestartTracker.jitter`, with `draw` the value of `rand.Int63n(d)`. -/
def jitter (r : RestartTracker) (draw : ℕ) : ℤ :=
  -- get the delay and ensure it is valid
  let d := if r.policy.delay = 0 then 1 else r.policy.delay
  -- `float64(draw) * 0.25` is exact, and `int64` truncates it
  int64 (d + (Float64.ofNat draw / 4 : ℕ))

/-- The state `GetState` leaves: what was set is cleared. -/
def clear (r : RestartTracker) : RestartTracker :=
  { r with
    startErr := none
    exitRes := none
    restartTriggered := false
    failure := false
    killed := false }

/-- The end of `GetState`, once a failure is counted: past the attempts of the interval, by the
policy's mode; otherwise a restart after the jittered delay. -/
def restartByPolicy (r : RestartTracker) (now' : ℤ) (draw : ℕ) :
    RestartTracker × String × ℤ :=
  if r.policy.attempts < r.count then
    if r.policy.mode = restartPolicyModeFail then
      ({ r with reason := .exceededAttempts r.policy.attempts r.policy.interval }.clear,
        taskNotRestarting, 0)
    else ({ r with reason := .delay }.clear, taskRestarting, r.getDelay now')
  else ({ r with reason := .withinPolicy }.clear, taskRestarting, r.jitter draw)

/-- `RestartTracker.GetState` at `now`, with `now'` the reading of `getDelay` and `draw` that of
`jitter`: the tracker after, the task state and the delay. -/
def getState (r : RestartTracker) (now now' : ℤ) (draw : ℕ) : RestartTracker × String × ℤ :=
  if r.killed then ({ r with reason := .none }.clear, taskKilled, 0)
  else if r.restartTriggered then ({ r with reason := .none }.clear, taskRestarting, 0)
  else if r.policy.attempts = 0 then
    let r := { r with reason := .noRestartsAllowed }
    -- a task that does not restart on success and exited successfully terminates
    if !r.onSuccess && r.exitRes.any ExitResult.successful then (r.clear, taskTerminated, 0)
    else (r.clear, taskNotRestarting, 0)
  else
    -- a new interval starts after the end of the current one
    let r := if r.startTime + r.policy.interval < now then { r with count := 0, startTime := now }
      else r
    let r := { r with count := r.count + 1 }
    if !r.failure then (r.clear, "", 0)
    else
      match r.startErr, r.exitRes with
      | some err, _ =>
        if !err.recoverable then ({ r with reason := .unrecoverableError }.clear, taskNotRestarting, 0)
        else r.restartByPolicy now' draw
      | none, some res =>
        if res.successful && !r.onSuccess then
          ({ r with reason := .terminatedSuccessfully }.clear, taskTerminated, 0)
        else r.restartByPolicy now' draw
      | none, none => r.restartByPolicy now' draw

/-- A tracker of a service task, made at time zero, under one attempt per nanosecond with the
largest delay. -/
def largestDelayTracker : RestartTracker :=
  { onSuccess := true, startTime := 0,
    policy := { attempts := 1, interval := 1, delay := 2 ^ 63 - 1, mode := restartPolicyModeDelay } }

/-- The task exits with code one and the tracker is asked at once; `rand.Int63n` draws four, one
of its values below the delay. The restart is within the policy, and its delay, the largest
duration plus one, wraps to the smallest. -/
theorem getState_jitter_wraps :
    ((largestDelayTracker.setExitResult (some { exitCode := 1 })).getState 0 0 4).2 =
        (taskRestarting, -2 ^ 63) ∧
      ((largestDelayTracker.setExitResult (some { exitCode := 1 })).getState 0 0 4).1.reason =
        .withinPolicy ∧
      4 < largestDelayTracker.policy.delay := by
  decide +kernel

end RestartTracker

end Wander.Client
