import Wander.Structs.Alloc
import Wander.Lib.GoInt

/-!
# `nomad/structs/structs.go`: reschedule delays

`ReschedulePolicy.Validate` checks a policy, and cross-checks its delays against its interval with
`viableAttempts`: that the delays of `Attempts` reschedules fit in `Interval`. `Allocation.NextDelay`
gives the delay before the next reschedule of an allocation from the delays of the reschedules
before it. Durations are `int64` nanoseconds and their arithmetic wraps (`GoInt.int64`).

Neither function guards its arithmetic. `viableAttempts` doubles the delay once per attempt
before capping it, so from the 32nd attempt of five seconds the product wraps: the delay it
considers is negative and its running interval drops below zero, and `Validate` accepts a policy
whose interval is too short (`viableAttempts_wraps`). `NextDelay` doubles or adds the last delays
before capping them, so under a policy whose `MaxDelay` is more than half the range of a
duration, the delay after 31 doublings is negative (`nextDelay_wraps`). With a ceiling of at most
half that range, `NextDelay` after successive reschedules stays between `Delay` and `MaxDelay`
(`nextDelay_mem`): each recorded delay is in range by induction along the tracker
(`Successive.delays_mem`), and so is the next.

The messages of `Validate` are left out: an error is the check that failed, with the values its
message prints.
-/

set_option autoImplicit false
set_option relaxedAutoImplicit false

namespace Wander.Structs

open Wander.Lib GoInt

/-- `ReschedulePolicyMinInterval`. -/
def reschedulePolicyMinInterval : ℤ := 15 * 1000000000

/-- `ReschedulePolicyMinDelay`. -/
def reschedulePolicyMinDelay : ℤ := 5 * 1000000000

/-- `RescheduleDelayFunctions`. -/
def rescheduleDelayFunctions : List String := ["constant", "exponential", "fibonacci"]

/-- The errors `ReschedulePolicy.Validate` gathers, with the values their messages print. -/
inductive RescheduleError
  /-- "Interval must be a non zero value if Attempts > 0" -/
  | intervalZero
  /-- "Reschedule Policy with Attempts = .., Interval = .., and Unlimited = .. is ambiguous" -/
  | ambiguous (attempts interval : ℤ) (unlimited : Bool)
  /-- "If Attempts >0, Unlimited cannot also be set to true" -/
  | unlimitedWithAttempts
  /-- "Delay cannot be less than .. (got ..)" -/
  | delayBelowMin (got : ℤ)
  /-- "Invalid delay function .., must be one of .." -/
  | invalidDelayFunction (delayFunction : String)
  /-- "Max Delay cannot be less than .. (got ..)"; the source prints `Delay` as what it got. -/
  | maxDelayBelowMin (got : ℤ)
  /-- "Max Delay cannot be less than Delay .. (got ..)" -/
  | maxDelayBelowDelay (delay maxDelay : ℤ)
  /-- "Interval cannot be less than .. (got ..)" -/
  | intervalBelowMin (got : ℤ)
  /-- The two messages of `validateDelayParams`: how many attempts fit, and the interval to set. -/
  | notViable (possibleAttempts recommendedInterval : ℤ)
deriving DecidableEq, Repr

/-- `time.Duration(math.Pow(2, float64(i)))`: exact below `2^63`. Above, the float does not fit in
an `int64`; Go leaves that conversion to the implementation, and this is what amd64 gives. -/
def powTwoDuration (i : ℕ) : ℤ := if i < 63 then 2 ^ i else -2 ^ 63

namespace ReschedulePolicy

/-- `ReschedulePolicy.Enabled`, of a policy that is there. -/
def enabled (r : ReschedulePolicy) : Bool := 0 < r.attempts || r.unlimited

/-- `isValidDelayFunction`. -/
def isValidDelayFunction (delayFunc : String) : Bool := rescheduleDelayFunctions.contains delayFunc

/-- One turn of the exponential loop of `viableAttempts`, from the possible attempts and the
recommended interval so far. -/
def exponentialStep (r : ReschedulePolicy) (acc : ℤ × ℤ) (i : ℕ) : ℤ × ℤ :=
  let nextDelay := int64 (powTwoDuration i * r.delay)
  let recommendedInterval :=
    if nextDelay > r.maxDelay then int64 (acc.2 + r.maxDelay) else nextDelay
  (if recommendedInterval < r.interval then acc.1 + 1 else acc.1, recommendedInterval)

/-- One turn of the fibonacci loop of `viableAttempts`, on the slots so far, the newest first, and
whether the ceiling was reached. -/
def fibonacciStep (r : ReschedulePolicy) (acc : List ℤ × Bool) (_ : ℕ) : List ℤ × Bool :=
  match acc with
  | (s₁ :: s₂ :: rest, reachedCeiling) =>
    if reachedCeiling then
      -- switch to linear
      (int64 (s₁ + r.maxDelay) :: s₁ :: s₂ :: rest, true)
    else
      let nextDelay := int64 (s₁ + s₂)
      if nextDelay > r.maxDelay then (r.maxDelay :: s₁ :: s₂ :: rest, true)
      else (nextDelay :: s₁ :: s₂ :: rest, false)
  -- the loop starts from two slots
  | acc => acc

/-- `ReschedulePolicy.viableAttempts`: whether `Attempts` reschedules fit in `Interval`, how many
do, and the interval they need. A duration divided by a zero `Delay` panics in Go; the prechecks
of `Validate` rule that out. -/
def viableAttempts (r : ReschedulePolicy) : Bool × ℤ × ℤ :=
  let result : Bool × ℤ × ℤ :=
    if r.delayFunction = "constant" then
      let recommendedInterval := int64 (r.attempts * r.delay)
      if r.interval < recommendedInterval then (false, r.interval.tdiv r.delay, recommendedInterval)
      else (true, 0, recommendedInterval)
    else if r.delayFunction = "exponential" then
      let acc := (List.range r.attempts.toNat).foldl r.exponentialStep (0, 0)
      (decide (r.attempts ≤ acc.1), acc.1, acc.2)
    else if r.delayFunction = "fibonacci" then
      let slots :=
        ((List.range (r.attempts - 2).toNat).foldl r.fibonacciStep ([r.delay, r.delay], false)).1
      let recommendedInterval := slots.headD 0
      if r.interval < recommendedInterval then
        -- the first slot past the interval
        (false, ((slots.reverse.findIdx? (· > r.interval)).getD 0 : ℤ), recommendedInterval)
      else (true, 0, recommendedInterval)
    else (false, 0, 0)
  -- can happen if delay is bigger than interval
  (result.1, max result.2.1 0, result.2.2)

/-- `ReschedulePolicy.validateDelayParams`. -/
def validateDelayParams (r : ReschedulePolicy) : List RescheduleError :=
  let (ok, possibleAttempts, recommendedInterval) := r.viableAttempts
  if ok then [] else [.notViable possibleAttempts recommendedInterval]

/-- `ReschedulePolicy.Validate`: the errors it gathers, none for a valid policy. -/
def validate (r : ReschedulePolicy) : List RescheduleError :=
  if !r.enabled then []
  else
    -- check for ambiguous or confusing settings
    let ambiguity :=
      if 0 < r.attempts then
        (if r.interval ≤ 0 then [RescheduleError.intervalZero] else []) ++
          (if r.unlimited then [.ambiguous r.attempts r.interval r.unlimited, .unlimitedWithAttempts]
            else [])
      else []
    let delay := if r.delay < reschedulePolicyMinDelay then [.delayBelowMin r.delay] else []
    let delayFunction :=
      if !isValidDelayFunction r.delayFunction then [.invalidDelayFunction r.delayFunction] else []
    let maxDelay :=
      if r.delayFunction ≠ "constant" then
        (if r.maxDelay < reschedulePolicyMinDelay then [.maxDelayBelowMin r.delay] else []) ++
          (if r.maxDelay < r.delay then [.maxDelayBelowDelay r.delay r.maxDelay] else [])
      else []
    let delayPreCheck := decide (reschedulePolicyMinDelay ≤ r.delay) &&
      isValidDelayFunction r.delayFunction &&
      (r.delayFunction = "constant" ||
        decide (reschedulePolicyMinDelay ≤ r.maxDelay) && decide (r.delay ≤ r.maxDelay))
    -- validate the interval and the other delay parameters if attempts are limited
    let interval :=
      if !r.unlimited then
        (if r.interval < reschedulePolicyMinInterval then [.intervalBelowMin r.interval]
          else []) ++
          (if delayPreCheck then r.validateDelayParams else [])
      else []
    ambiguity ++ delay ++ delayFunction ++ maxDelay ++ interval

/-- The body of `Allocation.NextDelay` once the allocation has a tracker: the delay after the
reschedules `events`, for an allocation whose last event was at `lastEventTime`. -/
def nextDelayAfter (policy : ReschedulePolicy) (events : List RescheduleEvent)
    (lastEventTime : ℤ) : ℤ :=
  match events.getLast? with
  | none => policy.delay
  | some last =>
    let delayDur? : Option ℤ :=
      if policy.delayFunction = "exponential" then some (int64 (last.delay * 2))
      else if policy.delayFunction = "fibonacci" then
        some <| match events.dropLast.getLast? with
          | some prev =>
            -- the reset of the delay ceiling starts a new series
            if prev.delay = policy.maxDelay ∧ last.delay = policy.delay then last.delay
            else int64 (last.delay + prev.delay)
          | none => policy.delay
      else none
    match delayDur? with
    | none => policy.delay
    | some delayDur =>
      if 0 < policy.maxDelay ∧ policy.maxDelay < delayDur then
        -- the delay is reset after a quiet spell longer than the ceiling
        if policy.maxDelay < int64 (lastEventTime - last.rescheduleTime) then policy.delay
        else policy.maxDelay
      else delayDur

/-- Thirty-two attempts within five minutes and five seconds, five seconds doubling up to ten. -/
def tightPolicy : ReschedulePolicy :=
  { attempts := 32, interval := 305 * 1000000000, unlimited := false,
    delay := 5 * 1000000000, delayFunction := "exponential", maxDelay := 10 * 1000000000 }

/-- The 32nd delay the exponential loop considers wraps to a negative duration, and the running
interval, five minutes after 31 attempts, drops below zero with it. The loop then counts the
attempt as fitting, and `Validate` accepts the policy, although the delays of the 32 attempts,
each at most ten seconds, take longer than its interval. -/
theorem viableAttempts_wraps :
    int64 (powTwoDuration 31 * tightPolicy.delay) < 0 ∧
      ((List.range 31).foldl tightPolicy.exponentialStep (0, 0)).2 = 300 * 1000000000 ∧
      ((List.range 32).foldl tightPolicy.exponentialStep (0, 0)).2 < 0 ∧
      tightPolicy.viableAttempts.1 = true ∧ tightPolicy.validate = [] ∧
      tightPolicy.interval <
        ((List.range 32).map fun i ↦ min (2 ^ i * tightPolicy.delay) tightPolicy.maxDelay).sum := by
  decide +kernel

/-- The events of a tracker filled by successive reschedules under `policy`: each event's delay
is what `NextDelay` gave for the events before it, at some time of failure. -/
def Successive (policy : ReschedulePolicy) (events : List RescheduleEvent) : Prop :=
  ∀ k (hk : k < events.length), ∃ t,
    (events.get ⟨k, hk⟩).delay = policy.nextDelayAfter (events.take k) t

/-- The events of `n` reschedules under `policy`, each at time zero of an allocation that failed
at time zero, with the delay `NextDelay` gave. -/
def rescheduleEvents (policy : ReschedulePolicy) (n : ℕ) : List RescheduleEvent :=
  (List.range n).foldl
    (fun events _ ↦ events ++ [{ rescheduleTime := 0, delay := policy.nextDelayAfter events 0 }]) []

theorem rescheduleEvents_succ (policy : ReschedulePolicy) (n : ℕ) :
    rescheduleEvents policy (n + 1) = rescheduleEvents policy n ++
      [{ rescheduleTime := 0, delay := policy.nextDelayAfter (rescheduleEvents policy n) 0 }] := by
  simp only [rescheduleEvents, List.range_succ, List.foldl_append, List.foldl_cons,
    List.foldl_nil]

theorem length_rescheduleEvents (policy : ReschedulePolicy) (n : ℕ) :
    (rescheduleEvents policy n).length = n := by
  induction n with
  | zero => rfl
  | succ n ih => simp [rescheduleEvents_succ, ih]

/-- Each event's delay is the one `NextDelay` gave for the events before it. -/
theorem successive_rescheduleEvents (policy : ReschedulePolicy) (n : ℕ) :
    Successive policy (rescheduleEvents policy n) := by
  induction n with
  | zero => exact fun k hk ↦ absurd hk (by simp [rescheduleEvents])
  | succ n ih =>
    intro k hk
    have hlen := length_rescheduleEvents policy n
    simp only [rescheduleEvents_succ, List.length_append, List.length_singleton, hlen] at hk
    rcases Nat.lt_succ_iff_lt_or_eq.mp hk with hk | rfl
    · -- an earlier event keeps its delay and the events before it
      have hk' : k < (rescheduleEvents policy n).length := by omega
      obtain ⟨t, ht⟩ := ih k hk'
      refine ⟨t, ?_⟩
      simp only [rescheduleEvents_succ, List.get_eq_getElem, List.getElem_append_left hk',
        List.take_append_of_le_length hk'.le]
      simpa using ht
    · -- the new event's delay is that of all the events before it
      refine ⟨0, ?_⟩
      simp [rescheduleEvents_succ, hlen]

/-! ### Delays in range -/

section Bounds

variable {policy : ReschedulePolicy}

/-- The cap of `NextDelay` brings a delay between `Delay` and twice `MaxDelay` into range. -/
theorem cap_mem (hdelay : 0 ≤ policy.delay) (hmax : policy.delay ≤ policy.maxDelay) {d x : ℤ}
    (hlo : policy.delay ≤ d) (hhi : d ≤ 2 * policy.maxDelay) :
    (if 0 < policy.maxDelay ∧ policy.maxDelay < d then
        if policy.maxDelay < x then policy.delay else policy.maxDelay
      else d) ∈ Set.Icc policy.delay policy.maxDelay := by
  by_cases hcap : 0 < policy.maxDelay ∧ policy.maxDelay < d
  · by_cases hreset : policy.maxDelay < x
    · rw [if_pos hcap, if_pos hreset]
      exact ⟨le_rfl, hmax⟩
    · rw [if_pos hcap, if_neg hreset]
      exact ⟨hmax, le_rfl⟩
  · rw [if_neg hcap]
    exact ⟨hlo, by omega⟩

/-- Without wrapping, the delay after events whose delays are in range is in range: doubled or
added, a delay in range is between `Delay` and twice `MaxDelay`, and the cap does the rest. -/
theorem nextDelayAfter_mem (hdelay : 0 ≤ policy.delay) (hmax : policy.delay ≤ policy.maxDelay)
    (hbound : 2 * policy.maxDelay < 2 ^ 63) {events : List RescheduleEvent}
    (hevents : ∀ e ∈ events, e.delay ∈ Set.Icc policy.delay policy.maxDelay) (t : ℤ) :
    policy.nextDelayAfter events t ∈ Set.Icc policy.delay policy.maxDelay := by
  unfold nextDelayAfter
  rcases hlast : events.getLast? with _ | last
  · exact ⟨le_rfl, hmax⟩
  have hl := hevents last (List.mem_of_getLast? hlast)
  -- a sum of two delays in range does not wrap
  have hsum : ∀ d ∈ events, int64 (last.delay + d.delay) = last.delay + d.delay := fun d hd ↦
    have := hevents d hd
    wrap_of_mem (by simp only [Set.mem_Icc] at *; omega) (by simp only [Set.mem_Icc] at *; omega)
  dsimp only
  split
  · exact ⟨le_rfl, hmax⟩
  next d hd =>
    -- the doubled or added delay, before the cap
    have hrange : policy.delay ≤ d ∧ d ≤ 2 * policy.maxDelay := by
      simp only [Set.mem_Icc] at hl
      split_ifs at hd with hexp hfib
      · cases hd
        rw [show last.delay * 2 = last.delay + last.delay by ring,
          hsum last (List.mem_of_getLast? hlast)]
        omega
      · cases hd
        rcases hprev : events.dropLast.getLast? with _ | prev
        · dsimp only
          omega
        · have hmem := (List.dropLast_sublist events).subset (List.mem_of_getLast? hprev)
          have hp := hevents prev hmem
          simp only [Set.mem_Icc] at hp
          dsimp only
          split_ifs
          · omega
          · rw [hsum prev hmem]
            omega
    exact cap_mem hdelay hmax hrange.1 hrange.2

/-- Along successive reschedules, every recorded delay is in range: by strong induction on the
position, each is `NextDelay` of the events before it, all in range. -/
theorem Successive.delays_mem (hdelay : 0 ≤ policy.delay) (hmax : policy.delay ≤ policy.maxDelay)
    (hbound : 2 * policy.maxDelay < 2 ^ 63) {events : List RescheduleEvent}
    (h : Successive policy events) :
    ∀ e ∈ events, e.delay ∈ Set.Icc policy.delay policy.maxDelay := by
  suffices hpos : ∀ k (hk : k < events.length),
      (events.get ⟨k, hk⟩).delay ∈ Set.Icc policy.delay policy.maxDelay by
    intro e he
    obtain ⟨k, hk, rfl⟩ := List.mem_iff_getElem.mp he
    exact hpos k hk
  intro k
  induction k using Nat.strong_induction_on with
  | _ k ih =>
    intro hk
    obtain ⟨t, ht⟩ := h k hk
    rw [ht]
    refine nextDelayAfter_mem hdelay hmax hbound (fun e he ↦ ?_) t
    obtain ⟨j, hj, rfl⟩ := List.mem_iff_getElem.mp he
    have hjk : j < k := by
      rw [List.length_take] at hj
      omega
    rw [List.getElem_take]
    exact ih j hjk (by omega)

/-- `Validate` accepts an enabled policy only with a delay of at least the minimum, and, unless the
function is constant, a ceiling of at least the delay. -/
theorem delay_mem_of_validate (hvalid : policy.validate = []) (henabled : policy.enabled) :
    reschedulePolicyMinDelay ≤ policy.delay ∧
      (policy.delayFunction ≠ "constant" → policy.delay ≤ policy.maxDelay) := by
  -- a failed check leaves its error in the list
  refine ⟨?_, fun hfn ↦ ?_⟩
  · by_contra hlt
    simp [validate, henabled, lt_of_not_ge hlt] at hvalid
  · by_contra hlt
    simp [validate, henabled, hfn, lt_of_not_ge hlt] at hvalid

/-- A constant policy's delay is its `Delay`. -/
theorem nextDelayAfter_constant (hfn : policy.delayFunction = "constant")
    (events : List RescheduleEvent) (t : ℤ) : policy.nextDelayAfter events t = policy.delay := by
  unfold nextDelayAfter
  rcases events.getLast? with _ | last
  · rfl
  · simp [hfn]

end Bounds

/-- Thirty-one attempts in the largest interval, five seconds doubling up to the largest
duration. -/
def longCeilingPolicy : ReschedulePolicy :=
  { attempts := 31, interval := 2 ^ 63 - 1, unlimited := false, delay := 5 * 1000000000,
    delayFunction := "exponential", maxDelay := 2 ^ 63 - 1 }

end ReschedulePolicy

namespace Allocation

/-- `Allocation.ReschedulePolicy`: the policy of the allocation's group. A nil `Job` panics in Go;
every allocation the scheduler reads has one. -/
def reschedulePolicy (a : Allocation) : Option ReschedulePolicy :=
  (a.job.bind (·.lookupTaskGroup a.taskGroup)).bind (·.reschedulePolicy)

/-- `Allocation.NextDelay`; `lastEventTime` is `a.LastEventTime()` in nanoseconds. -/
def nextDelay (a : Allocation) (lastEventTime : ℤ) : ℤ :=
  match a.reschedulePolicy, a.rescheduleTracker with
  -- the group's reschedule policy was removed
  | none, _ => 0
  | some policy, none => policy.delay
  | some policy, some events => policy.nextDelayAfter events lastEventTime

/-- A group under `policy`. -/
def groupUnder (policy : ReschedulePolicy) : TaskGroup :=
  { name := "web", count := 1, reschedulePolicy := some policy }

/-- An allocation of `groupUnder policy`, rescheduled `n` times. -/
def rescheduledAlloc (policy : ReschedulePolicy) (n : ℕ) : Allocation :=
  { taskGroup := "web", job := some { taskGroups := [groupUnder policy] },
    rescheduleTracker := some (ReschedulePolicy.rescheduleEvents policy n) }

/-- `Validate` accepts the policy and the 31 reschedules double the delay each time, from five
seconds to 5·2^30 seconds; the next delay, twice that, wraps to a negative duration. -/
theorem nextDelay_wraps :
    ReschedulePolicy.longCeilingPolicy.validate = [] ∧
      ReschedulePolicy.Successive ReschedulePolicy.longCeilingPolicy
        (ReschedulePolicy.rescheduleEvents ReschedulePolicy.longCeilingPolicy 31) ∧
      (rescheduledAlloc ReschedulePolicy.longCeilingPolicy 31).nextDelay 0 <
        ReschedulePolicy.longCeilingPolicy.delay :=
  ⟨by decide +kernel, ReschedulePolicy.successive_rescheduleEvents _ 31, by decide +kernel⟩

/-- For an enabled policy that `Validate` accepts, with a ceiling of at most half the largest
duration so that doubling or adding two delays does not wrap, `NextDelay` after successive
reschedules is between `Delay` and `MaxDelay`, and it is `Delay` for the constant function. -/
theorem nextDelay_mem (a : Allocation) {policy : ReschedulePolicy}
    (hpolicy : a.reschedulePolicy = some policy) (hvalid : policy.validate = [])
    (henabled : policy.enabled) (hbound : 2 * policy.maxDelay < 2 ^ 63)
    (hsucc : ∀ events ∈ a.rescheduleTracker, ReschedulePolicy.Successive policy events)
    (t : ℤ) :
    (policy.delayFunction ≠ "constant" →
        a.nextDelay t ∈ Set.Icc policy.delay policy.maxDelay) ∧
      (policy.delayFunction = "constant" → a.nextDelay t = policy.delay) := by
  obtain ⟨hmin, hmax⟩ := ReschedulePolicy.delay_mem_of_validate hvalid henabled
  have hdelay : 0 ≤ policy.delay := le_trans (by decide) hmin
  unfold nextDelay
  rw [hpolicy]
  rcases htracker : a.rescheduleTracker with _ | events
  · exact ⟨fun hfn ↦ ⟨le_rfl, hmax hfn⟩, fun _ ↦ rfl⟩
  · have hevents := (hsucc events htracker).delays_mem hdelay
    refine ⟨fun hfn ↦ ?_, fun hfn ↦ ReschedulePolicy.nextDelayAfter_constant hfn events t⟩
    exact ReschedulePolicy.nextDelayAfter_mem hdelay (hmax hfn) hbound
      (hevents (hmax hfn) hbound) t

theorem nextDelay_mem_tightPolicy :
    (rescheduledAlloc ReschedulePolicy.tightPolicy 5).nextDelay 0 ∈
      Set.Icc ReschedulePolicy.tightPolicy.delay ReschedulePolicy.tightPolicy.maxDelay :=
  (nextDelay_mem (rescheduledAlloc ReschedulePolicy.tightPolicy 5) (by decide +kernel)
    (by decide +kernel) rfl (by decide)
    (fun _ h ↦ Option.mem_some_iff.mp h ▸ ReschedulePolicy.successive_rescheduleEvents _ 5)
    0).1 (by decide)

end Allocation

end Wander.Structs
