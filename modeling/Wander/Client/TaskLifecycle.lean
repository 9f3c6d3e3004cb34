import Wander.Structs.Alloc
import Mathlib.Data.List.Chain
import Mathlib.Logic.Relation

/-!
# `client/allocrunner/tasklifecycle`: the task coordinator

The coordinator of an allocation's tasks is a state machine over
`init → prestart → main → poststart → wait_alloc → poststop`. Each task waits on the gate of its
lifecycle stage; entering a state opens the gates of the stages that may run in it and closes the
others (`enterStateLocked`). `TaskStateUpdated` enters the next state as long as the task states
allow it, possibly several in one call on one snapshot; any state goes to `poststop` once every
task outside it is dead.

`updateLoop_spec`: one call goes only forward, through states each of a later rank, and ends in
a state it cannot leave on the same snapshot (`updateLoop_stable`); it enters `main` only when the
prestart tasks are done (`PrestartDone`), `poststart` only when no main task is pending
(`MainDone`), and `poststop` only when every task outside it is dead (`AllocDone`). In every
state reachable from `NewCoordinator` by calls, restarts and `Restore`, each gate is open exactly
when its stage has tasks and may run in the current state (`Reachable.gatesInv`), so the
ephemeral prestart gate is closed from `main` on and the poststop gate opens only on a call that
enters `poststop` (`startOrder_of_reachable`).

A gate is the state of its `run` loop, which `Open` and `Close` set through an unbuffered channel
before they return; the shutdown channel is left out. A task whose state is missing from the
snapshot makes the source dereference nil; here it fails the check that reads it. The loop of
`TaskStateUpdated` runs on fuel, and six turns always reach a stable state.
-/

set_option autoImplicit false
set_option relaxedAutoImplicit false

namespace Wander.Client

open Wander.Lib Wander.Structs

/-- `coordinatorState`. -/
inductive CoordinatorState
  | init
  | prestart
  | main
  | poststart
  | waitAlloc
  | poststop
deriving DecidableEq, Repr

/-- The place of a state in the order the coordinator goes through them. -/
def CoordinatorState.rank : CoordinatorState → ℕ
  | .init => 0
  | .prestart => 1
  | .main => 2
  | .poststart => 3
  | .waitAlloc => 4
  | .poststop => 5

/-- `lifecycleStage`. -/
inductive LifecycleStage
  | prestartEphemeral
  | prestartSidecar
  | main
  | poststartEphemeral
  | poststartSidecar
  | poststop
deriving DecidableEq, Repr

/-- `taskLifecycleStage`. -/
def taskLifecycleStage (task : Task) : LifecycleStage :=
  if task.isPrestart then
    if task.lifecycle.any (·.sidecar) then .prestartSidecar else .prestartEphemeral
  else if task.isPoststart then
    if task.lifecycle.any (·.sidecar) then .poststartSidecar else .poststartEphemeral
  else if task.isPoststop then .poststop
  -- a task is main by default
  else .main

/-- `indexTasksByLifecycle`: the names of the tasks of each stage, in order. A stage without tasks
has no entry in the source's map; here it has none. -/
def indexTasksByLifecycle (tasks : List Task) (stage : LifecycleStage) : List String :=
  (tasks.filter (taskLifecycleStage · = stage)).map (·.name)

/-- `Coordinator`, less its logger and lock. A stage has a gate when it has tasks, and `gates`
says which gates are open. -/
structure Coordinator where
  tasksByLifecycle : LifecycleStage → List String
  currentState : CoordinatorState
  gates : LifecycleStage → Bool

namespace Coordinator

/-- `block` (`isOpen` false) and `allow` (true) of a stage: a stage without tasks has no gate. -/
def setGate (c : Coordinator) (stage : LifecycleStage) (isOpen : Bool) : Coordinator :=
  if c.tasksByLifecycle stage = [] then c
  else { c with gates := Function.update c.gates stage isOpen }

/-- The calls of `block` and `allow` that `enterStateLocked` makes for each state, in order. -/
def gateActions : CoordinatorState → List (LifecycleStage × Bool)
  | .init =>
    [(.prestartEphemeral, false), (.prestartSidecar, false), (.main, false),
      (.poststartEphemeral, false), (.poststartSidecar, false), (.poststop, false)]
  | .prestart =>
    [(.main, false), (.poststartEphemeral, false), (.poststartSidecar, false), (.poststop, false),
      (.prestartEphemeral, true), (.prestartSidecar, true)]
  | .main =>
    [(.prestartEphemeral, false), (.poststartEphemeral, false), (.poststartSidecar, false),
      (.poststop, false), (.prestartSidecar, true), (.main, true)]
  | .poststart =>
    [(.prestartEphemeral, false), (.poststop, false), (.prestartSidecar, true), (.main, true),
      (.poststartEphemeral, true), (.poststartSidecar, true)]
  | .waitAlloc =>
    [(.prestartEphemeral, false), (.poststartEphemeral, false), (.poststop, false),
      (.prestartSidecar, true), (.main, true), (.poststartSidecar, true)]
  | .poststop =>
    [(.prestartEphemeral, false), (.prestartSidecar, false), (.main, false),
      (.poststartEphemeral, false), (.poststartSidecar, false), (.poststop, true)]

/-- `enterStateLocked`. -/
def enterStateLocked (c : Coordinator) (state : CoordinatorState) : Coordinator :=
  { (gateActions state).foldl (fun c a ↦ c.setGate a.1 a.2) c with currentState := state }

/-- `NewCoordinator`: every gate starts closed, and the coordinator enters `init`. -/
def newCoordinator (tasks : List Task) : Coordinator :=
  enterStateLocked ⟨indexTasksByLifecycle tasks, .init, fun _ ↦ false⟩ .init

/-- `isInitDone`: every task is pending. -/
def isInitDone (states : GoMap String TaskState) : Bool :=
  (GoMap.values states).all (·.state = taskStatePending)

/-- `hasPrestart`. -/
def hasPrestart (c : Coordinator) : Bool :=
  0 < (c.tasksByLifecycle .prestartEphemeral).length + (c.tasksByLifecycle .prestartSidecar).length

/-- `hasMain`. -/
def hasMain (c : Coordinator) : Bool := 0 < (c.tasksByLifecycle .main).length

/-- `hasPoststart`. -/
def hasPoststart (c : Coordinator) : Bool :=
  0 < (c.tasksByLifecycle .poststartEphemeral).length +
    (c.tasksByLifecycle .poststartSidecar).length

/-- Whether the state of task `t` is there and satisfies `p`. -/
def stateIs (states : GoMap String TaskState) (p : TaskState → Bool) (t : String) : Bool :=
  (states.lookup t).any p

/-- `isPrestartDone`: the ephemeral prestart tasks succeeded and the prestart sidecars run. -/
def isPrestartDone (c : Coordinator) (states : GoMap String TaskState) : Bool :=
  if !c.hasPrestart then true
  else
    (c.tasksByLifecycle .prestartEphemeral).all (stateIs states TaskState.successful) &&
      (c.tasksByLifecycle .prestartSidecar).all (stateIs states (·.state = taskStateRunning))

/-- `isMainDone`: no main task is pending. -/
def isMainDone (c : Coordinator) (states : GoMap String TaskState) : Bool :=
  if !c.hasMain then true
  else (c.tasksByLifecycle .main).all (stateIs states (·.state ≠ taskStatePending))

/-- `isPoststartDone`: the ephemeral poststart tasks are dead. -/
def isPoststartDone (c : Coordinator) (states : GoMap String TaskState) : Bool :=
  if !c.hasPoststart then true
  else (c.tasksByLifecycle .poststartEphemeral).all (stateIs states (·.state = taskStateDead))

/-- `isAllocDone`: every task outside `poststop` is dead. -/
def isAllocDone (c : Coordinator) (states : GoMap String TaskState) : Bool :=
  [LifecycleStage.prestartEphemeral, .prestartSidecar, .main, .poststartEphemeral,
    .poststartSidecar].all fun stage ↦
      (c.tasksByLifecycle stage).all (stateIs states (·.state = taskStateDead))

/-- `nextStateLocked`. -/
def nextStateLocked (c : Coordinator) (states : GoMap String TaskState) : CoordinatorState :=
  -- `poststop` is the terminal state, and can be reached at any time
  if c.isAllocDone states then .poststop
  else
    match c.currentState with
    | .init => if !isInitDone states then .init else .prestart
    | .prestart => if !c.isPrestartDone states then .prestart else .main
    | .main => if !c.isMainDone states then .main else .poststart
    | .poststart => if !c.isPoststartDone states then .poststart else .waitAlloc
    | .waitAlloc => if !c.isAllocDone states then .waitAlloc else .poststop
    | .poststop => .poststop

/-- The loop of `TaskStateUpdated` with `fuel` turns: enter the next state until it is the
current one. -/
def updateLoop (states : GoMap String TaskState) : ℕ → Coordinator → Coordinator
  | 0, c => c
  | fuel + 1, c =>
    let next := c.nextStateLocked states
    if next = c.currentState then c else updateLoop states fuel (c.enterStateLocked next)

/-- `TaskStateUpdated`; six turns reach a stable state (`updateLoop_stable`). -/
def taskStateUpdated (c : Coordinator) (states : GoMap String TaskState) : Coordinator :=
  updateLoop states 6 c

/-- `Restart`. -/
def restart (c : Coordinator) : Coordinator := c.enterStateLocked .init

/-- `Restore`: skip `init`, then take the task states. -/
def restore (c : Coordinator) (states : GoMap String TaskState) : Coordinator :=
  (c.enterStateLocked .prestart).taskStateUpdated states

/-! ### The gates -/

/-- The stages whose tasks may run in each state: the gates `enterStateLocked` leaves open. -/
def gateOpen : CoordinatorState → LifecycleStage → Bool
  | .prestart, .prestartEphemeral => true
  | .prestart, .prestartSidecar => true
  | .main, .prestartSidecar => true
  | .main, .main => true
  | .poststart, .prestartSidecar => true
  | .poststart, .main => true
  | .poststart, .poststartEphemeral => true
  | .poststart, .poststartSidecar => true
  | .waitAlloc, .prestartSidecar => true
  | .waitAlloc, .main => true
  | .waitAlloc, .poststartSidecar => true
  | .poststop, .poststop => true
  | _, _ => false

/-- Each gate that exists is open exactly when its stage may run in the current state. -/
def GatesMatch (c : Coordinator) : Prop :=
  ∀ stage, c.tasksByLifecycle stage ≠ [] → c.gates stage = gateOpen c.currentState stage

@[simp] theorem tasksByLifecycle_setGate (c : Coordinator) (stage : LifecycleStage) (o : Bool) :
    (c.setGate stage o).tasksByLifecycle = c.tasksByLifecycle := by
  unfold setGate
  split_ifs <;> rfl

theorem gates_setGate (c : Coordinator) (stage : LifecycleStage) (o : Bool) :
    (c.setGate stage o).gates =
      if c.tasksByLifecycle stage = [] then c.gates else Function.update c.gates stage o := by
  unfold setGate
  split_ifs <;> rfl

/-- Setting the gates of distinct stages leaves each gate that exists as the list says. -/
theorem gates_foldl_setGate (actions : List (LifecycleStage × Bool))
    (hnodup : (actions.map Prod.fst).Nodup) (c : Coordinator) (stage : LifecycleStage) :
    (actions.foldl (fun c a ↦ c.setGate a.1 a.2) c).gates stage =
      if c.tasksByLifecycle stage = [] then c.gates stage
      else (actions.lookup stage).getD (c.gates stage) := by
  induction actions generalizing c with
  | nil => split_ifs <;> rfl
  | cons a rest ih =>
    obtain ⟨st, o⟩ := a
    simp only [List.map_cons, List.nodup_cons] at hnodup
    rw [List.foldl_cons, ih hnodup.2, tasksByLifecycle_setGate, gates_setGate]
    by_cases hst : stage = st
    · subst hst
      -- the later actions do not set this stage again
      have hrest : rest.lookup stage = none := by
        rw [List.lookup_eq_none_iff]
        intro p hp
        rw [bne_iff_ne]
        intro h
        exact hnodup.1 (by rw [h]; exact List.mem_map_of_mem hp)
      split_ifs <;> simp [hrest]
    · have hlookup : ((st, o) :: rest).lookup stage = rest.lookup stage := by
        simp [List.lookup_cons, beq_false_of_ne hst]
      rw [hlookup]
      split_ifs <;> simp [Function.update_of_ne hst]

theorem lookup_gateActions (state : CoordinatorState) (stage : LifecycleStage) :
    (gateActions state).lookup stage = some (gateOpen state stage) := by
  cases state <;> cases stage <;> rfl

theorem nodup_gateActions (state : CoordinatorState) :
    ((gateActions state).map Prod.fst).Nodup := by
  cases state <;> decide

@[simp] theorem tasksByLifecycle_enterStateLocked (c : Coordinator) (state : CoordinatorState) :
    (c.enterStateLocked state).tasksByLifecycle = c.tasksByLifecycle := by
  unfold enterStateLocked
  dsimp only
  generalize gateActions state = actions
  induction actions generalizing c with
  | nil => rfl
  | cons a rest ih => rw [List.foldl_cons, ih, tasksByLifecycle_setGate]

@[simp] theorem currentState_enterStateLocked (c : Coordinator) (state : CoordinatorState) :
    (c.enterStateLocked state).currentState = state := rfl

/-- Entering a state sets every gate that exists, so they all match the new state. -/
theorem gatesMatch_enterStateLocked (c : Coordinator) (state : CoordinatorState) :
    (c.enterStateLocked state).GatesMatch := by
  intro stage hstage
  rw [tasksByLifecycle_enterStateLocked] at hstage
  have hgates := gates_foldl_setGate (gateActions state) (nodup_gateActions state) c stage
  rw [if_neg hstage, lookup_gateActions, Option.getD_some] at hgates
  exact hgates

/-! ### One call -/

theorem rank_le_five (state : CoordinatorState) : state.rank ≤ 5 := by
  cases state <;> decide

/-- A transition goes to a state of a later rank, and enters `main`, `poststart` and `poststop`
only on the checks that guard them. -/
theorem nextStateLocked_enters {c : Coordinator} {states : GoMap String TaskState}
    (h : c.nextStateLocked states ≠ c.currentState) :
    c.currentState.rank < (c.nextStateLocked states).rank ∧
      (c.nextStateLocked states = .main → c.isPrestartDone states) ∧
      (c.nextStateLocked states = .poststart → c.isMainDone states) ∧
      (c.nextStateLocked states = .poststop → c.isAllocDone states) := by
  unfold nextStateLocked at h ⊢
  by_cases hdone : c.isAllocDone states
  · -- the terminal state, from any other
    rw [if_pos hdone] at h ⊢
    refine ⟨?_, by simp, by simp, fun _ ↦ hdone⟩
    cases hc : c.currentState <;> simp_all [CoordinatorState.rank]
  · rw [if_neg hdone] at h ⊢
    cases hc : c.currentState <;> rw [hc] at h <;> dsimp only at h ⊢
    case poststop => exact absurd rfl h
    -- each other state either stays or enters the next one on its check
    all_goals split_ifs at h ⊢ <;> simp_all [CoordinatorState.rank]

/-- The states the loop of `TaskStateUpdated` enters, in order. -/
def enteredStates (states : GoMap String TaskState) : ℕ → Coordinator → List CoordinatorState
  | 0, _ => []
  | fuel + 1, c =>
    let next := c.nextStateLocked states
    if next = c.currentState then [] else next :: enteredStates states fuel (c.enterStateLocked next)

theorem isPrestartDone_congr {c c' : Coordinator} (h : c'.tasksByLifecycle = c.tasksByLifecycle) :
    c'.isPrestartDone = c.isPrestartDone := by
  unfold isPrestartDone hasPrestart
  rw [h]

theorem isMainDone_congr {c c' : Coordinator} (h : c'.tasksByLifecycle = c.tasksByLifecycle) :
    c'.isMainDone = c.isMainDone := by
  unfold isMainDone hasMain
  rw [h]

theorem isAllocDone_congr {c c' : Coordinator} (h : c'.tasksByLifecycle = c.tasksByLifecycle) :
    c'.isAllocDone = c.isAllocDone := by
  unfold isAllocDone
  rw [h]

@[simp] theorem tasksByLifecycle_updateLoop (states : GoMap String TaskState) (fuel : ℕ)
    (c : Coordinator) : (updateLoop states fuel c).tasksByLifecycle = c.tasksByLifecycle := by
  induction fuel generalizing c with
  | zero => rfl
  | succ fuel ih =>
    unfold updateLoop
    dsimp only
    split_ifs
    · rfl
    · rw [ih, tasksByLifecycle_enterStateLocked]

/-- What one run of the loop does: the states it enters go up in rank from the current one, each
entered on its guard, and the loop ends in the last of them. -/
theorem updateLoop_spec (states : GoMap String TaskState) (fuel : ℕ) (c : Coordinator) :
    (enteredStates states fuel c).IsChain (fun s t ↦ s.rank < t.rank) ∧
      (∀ s ∈ enteredStates states fuel c, c.currentState.rank < s.rank ∧
        (s = .main → c.isPrestartDone states) ∧ (s = .poststart → c.isMainDone states) ∧
        (s = .poststop → c.isAllocDone states)) ∧
      (updateLoop states fuel c).currentState =
        (enteredStates states fuel c).getLast?.getD c.currentState := by
  induction fuel generalizing c with
  | zero => exact ⟨by simp [enteredStates], by simp [enteredStates], rfl⟩
  | succ fuel ih =>
    unfold enteredStates updateLoop
    dsimp only
    split_ifs with hstay
    · exact ⟨by simp, by simp, rfl⟩
    -- one transition, then the rest of the loop from the state it entered
    obtain ⟨hrank, hmain, hpost, hstop⟩ := nextStateLocked_enters hstay
    obtain ⟨hchain, hlater, hlast⟩ := ih (c.enterStateLocked (c.nextStateLocked states))
    have htasks := tasksByLifecycle_enterStateLocked c (c.nextStateLocked states)
    rw [isPrestartDone_congr htasks, isMainDone_congr htasks, isAllocDone_congr htasks,
      currentState_enterStateLocked] at hlater
    refine ⟨hchain.cons fun t ht ↦ (hlater t (List.mem_of_mem_head? ht)).1, ?_, ?_⟩
    · intro s hs
      rcases List.mem_cons.mp hs with rfl | hs
      · exact ⟨hrank, hmain, hpost, hstop⟩
      · obtain ⟨hr, hm, hp, ha⟩ := hlater s hs
        exact ⟨hrank.trans hr, hm, hp, ha⟩
    · rw [hlast, List.getLast?_cons]
      rfl

/-- The loop reaches a state it cannot leave on the same snapshot when it has a turn for each
rank above the current one. -/
theorem updateLoop_stable (states : GoMap String TaskState) :
    ∀ fuel (c : Coordinator), 5 - c.currentState.rank < fuel →
      (updateLoop states fuel c).nextStateLocked states = (updateLoop states fuel c).currentState
  | 0, _, h => absurd h (Nat.not_lt_zero _)
  | fuel + 1, c, h => by
    unfold updateLoop
    dsimp only
    split_ifs with hstay
    · exact hstay
    · have hrank := (nextStateLocked_enters hstay).1
      have hle := rank_le_five (c.nextStateLocked states)
      exact updateLoop_stable states fuel _ (by rw [currentState_enterStateLocked]; omega)

/-- A state the loop ends in other than the one it started from is one it entered. -/
theorem mem_enteredStates {states : GoMap String TaskState} {fuel : ℕ} {c : Coordinator}
    (h : (updateLoop states fuel c).currentState ≠ c.currentState) :
    (updateLoop states fuel c).currentState ∈ enteredStates states fuel c := by
  have hlast := (updateLoop_spec states fuel c).2.2
  cases hl : (enteredStates states fuel c).getLast? with
  | none => rw [hlast, hl] at h; exact absurd rfl h
  | some s =>
    rw [hlast, hl]
    exact List.mem_of_getLast? hl

/-! ### What the checks say -/

/-- The prestart tasks are done: each ephemeral one is dead and did not fail, and each sidecar
runs. With no prestart task this holds as it stands. -/
def PrestartDone (c : Coordinator) (states : GoMap String TaskState) : Prop :=
  (∀ t ∈ c.tasksByLifecycle .prestartEphemeral,
    ∃ ts, states.lookup t = some ts ∧ ts.state = taskStateDead ∧ ts.failed = false) ∧
  ∀ t ∈ c.tasksByLifecycle .prestartSidecar,
    ∃ ts, states.lookup t = some ts ∧ ts.state = taskStateRunning

/-- No main task is pending. -/
def MainDone (c : Coordinator) (states : GoMap String TaskState) : Prop :=
  ∀ t ∈ c.tasksByLifecycle .main, ∃ ts, states.lookup t = some ts ∧ ts.state ≠ taskStatePending

/-- Every task outside `poststop` is dead. -/
def AllocDone (c : Coordinator) (states : GoMap String TaskState) : Prop :=
  ∀ stage, stage ≠ .poststop →
    ∀ t ∈ c.tasksByLifecycle stage, ∃ ts, states.lookup t = some ts ∧ ts.state = taskStateDead

theorem all_stateIs_iff (states : GoMap String TaskState) (p : TaskState → Bool)
    (tasks : List String) :
    tasks.all (stateIs states p) = true ↔
      ∀ t ∈ tasks, ∃ ts, states.lookup t = some ts ∧ p ts = true := by
  rw [List.all_eq_true]
  refine forall₂_congr fun t _ ↦ ?_
  unfold stateIs
  cases states.lookup t <;> simp

theorem isPrestartDone_iff (c : Coordinator) (states : GoMap String TaskState) :
    c.isPrestartDone states = true ↔ PrestartDone c states := by
  unfold isPrestartDone PrestartDone
  by_cases hpre : c.hasPrestart
  · simp only [hpre, Bool.not_true, Bool.false_eq_true, if_false, Bool.and_eq_true,
      all_stateIs_iff, TaskState.successful, decide_eq_true_eq]
    simp
  · -- without prestart tasks both conditions are empty
    simp only [hasPrestart, decide_eq_true_eq, Nat.pos_iff_ne_zero, ne_eq, Nat.add_eq_zero_iff,
      List.length_eq_zero_iff, not_not] at hpre
    simp [hasPrestart, hpre]

theorem isMainDone_iff (c : Coordinator) (states : GoMap String TaskState) :
    c.isMainDone states = true ↔ MainDone c states := by
  unfold isMainDone MainDone
  by_cases hmain : c.hasMain
  · simp only [hmain, Bool.not_true, Bool.false_eq_true, if_false, all_stateIs_iff,
      decide_eq_true_eq]
  · simp only [hasMain, decide_eq_true_eq, Nat.pos_iff_ne_zero, ne_eq,
      List.length_eq_zero_iff, not_not] at hmain
    simp [hasMain, hmain]

theorem isAllocDone_iff (c : Coordinator) (states : GoMap String TaskState) :
    c.isAllocDone states = true ↔ AllocDone c states := by
  unfold isAllocDone AllocDone
  rw [List.all_eq_true]
  simp only [all_stateIs_iff, decide_eq_true_eq]
  refine ⟨fun h stage hstage ↦ h stage ?_, fun h stage hstage ↦ h stage ?_⟩
  · cases stage <;> simp_all
  · cases stage <;> simp_all

/-! ### Every reachable state -/

/-- Every gate is open exactly when its stage has tasks and may run in the current state. -/
structure GatesInv (c : Coordinator) : Prop where
  gatesMatch : c.GatesMatch
  absent_closed : ∀ stage, c.tasksByLifecycle stage = [] → c.gates stage = false

theorem gates_enterStateLocked_of_nil (c : Coordinator) (state : CoordinatorState)
    {stage : LifecycleStage} (h : c.tasksByLifecycle stage = []) :
    (c.enterStateLocked state).gates stage = c.gates stage := by
  have hgates := gates_foldl_setGate (gateActions state) (nodup_gateActions state) c stage
  rw [if_pos h] at hgates
  exact hgates

theorem GatesInv.enterStateLocked {c : Coordinator} (h : c.GatesInv) (state : CoordinatorState) :
    (c.enterStateLocked state).GatesInv where
  gatesMatch := gatesMatch_enterStateLocked c state
  absent_closed stage hstage := by
    rw [tasksByLifecycle_enterStateLocked] at hstage
    rw [gates_enterStateLocked_of_nil c state hstage, h.absent_closed stage hstage]

theorem GatesInv.updateLoop {c : Coordinator} (h : c.GatesInv) (states : GoMap String TaskState)
    (fuel : ℕ) : (updateLoop states fuel c).GatesInv := by
  induction fuel generalizing c with
  | zero => exact h
  | succ fuel ih =>
    unfold Coordinator.updateLoop
    dsimp only
    split_ifs
    · exact h
    · exact ih (h.enterStateLocked _)

theorem GatesInv.gates_eq_true {c : Coordinator} (h : c.GatesInv) (stage : LifecycleStage) :
    c.gates stage = true ↔ c.tasksByLifecycle stage ≠ [] ∧ gateOpen c.currentState stage = true := by
  by_cases hstage : c.tasksByLifecycle stage = []
  · simp [hstage, h.absent_closed stage hstage]
  · simp [hstage, h.gatesMatch stage hstage]

theorem gatesInv_newCoordinator (tasks : List Task) : (newCoordinator tasks).GatesInv := by
  -- every gate starts closed, as every gate is in `init`
  refine GatesInv.enterStateLocked ⟨fun stage _ ↦ ?_, fun _ _ ↦ rfl⟩ .init
  cases stage <;> rfl

/-- The coordinators of an allocation with tasks `tasks`: `NewCoordinator`, then any
calls. `Restore` is called on a coordinator in `init`: it enters `prestart` and then takes the
task states as a call of `TaskStateUpdated` does (`reachable_restore`). -/
inductive Reachable (tasks : List Task) : Coordinator → Prop
  | new : Reachable tasks (newCoordinator tasks)
  | taskStateUpdated {c : Coordinator} (states : GoMap String TaskState) :
      Reachable tasks c → Reachable tasks (c.taskStateUpdated states)
  | restart {c : Coordinator} : Reachable tasks c → Reachable tasks c.restart
  | skipInit {c : Coordinator} : Reachable tasks c → c.currentState = .init →
      Reachable tasks (c.enterStateLocked .prestart)

theorem reachable_restore (tasks : List Task) (states : GoMap String TaskState) :
    Reachable tasks ((newCoordinator tasks).restore states) :=
  .taskStateUpdated states (.skipInit .new rfl)

/-- The run lemma: the gates agree with the state in every reachable coordinator. -/
theorem Reachable.gatesInv {tasks : List Task} {c : Coordinator} (h : Reachable tasks c) :
    c.GatesInv := by
  induction h with
  | new => exact gatesInv_newCoordinator tasks
  | taskStateUpdated states _ ih => exact ih.updateLoop states 6
  | restart _ ih => exact ih.enterStateLocked .init
  | skipInit _ _ ih => exact ih.enterStateLocked .prestart

theorem gateOpen_prestartEphemeral (state : CoordinatorState) :
    gateOpen state .prestartEphemeral = true ↔ state = .prestart := by
  cases state <;> simp [gateOpen]

theorem gateOpen_poststop (state : CoordinatorState) :
    gateOpen state .poststop = true ↔ state = .poststop := by
  cases state <;> simp [gateOpen]

/-- Each gate of a reachable coordinator is open exactly when its stage has tasks and may run in
the current state. -/
theorem reachable_gates_open_iff {tasks : List Task} {c : Coordinator} (hc : Reachable tasks c)
    (stage : LifecycleStage) :
    c.gates stage = true ↔ c.tasksByLifecycle stage ≠ [] ∧ gateOpen c.currentState stage = true :=
  hc.gatesInv.gates_eq_true stage

/-- What a call of `TaskStateUpdated` on `c` with `states` keeps of the start order: the states
it enters go up in rank from the current one and it ends in the last of them, which the same
snapshot cannot move; it enters `main` only when the prestart tasks are done, `poststart` only
when no main task is pending, and `poststop`, opening its gate, only when every other task is
dead. The ephemeral prestart gate of `c` is closed from `main` on. -/
structure StartOrder (c : Coordinator) (states : GoMap String TaskState) : Prop where
  chain : (enteredStates states 6 c).IsChain (fun s t ↦ s.rank < t.rank)
  forward : ∀ s ∈ enteredStates states 6 c, c.currentState.rank < s.rank
  ends : (c.taskStateUpdated states).currentState =
    (enteredStates states 6 c).getLast?.getD c.currentState
  stable : (c.taskStateUpdated states).nextStateLocked states =
    (c.taskStateUpdated states).currentState
  main : .main ∈ enteredStates states 6 c → PrestartDone c states
  poststart : .poststart ∈ enteredStates states 6 c → MainDone c states
  poststop : .poststop ∈ enteredStates states 6 c → AllocDone c states
  poststopGate : c.gates .poststop = false → (c.taskStateUpdated states).gates .poststop = true →
    AllocDone c states
  prestartGate : 2 ≤ c.currentState.rank → c.gates .prestartEphemeral = false

theorem startOrder_of_reachable {tasks : List Task} {c : Coordinator} (hc : Reachable tasks c)
    (states : GoMap String TaskState) : StartOrder c states := by
  obtain ⟨hchain, hlater, hlast⟩ := updateLoop_spec states 6 c
  have hinv := hc.gatesInv
  have hstop : .poststop ∈ enteredStates states 6 c → AllocDone c states := fun hs ↦
    (isAllocDone_iff c states).mp ((hlater _ hs).2.2.2 rfl)
  refine
    { chain := hchain
      forward := fun s hs ↦ (hlater s hs).1
      ends := hlast
      stable := updateLoop_stable states 6 c (by have := rank_le_five c.currentState; omega)
      main := fun hs ↦ (isPrestartDone_iff c states).mp ((hlater _ hs).2.1 rfl)
      poststart := fun hs ↦ (isMainDone_iff c states).mp ((hlater _ hs).2.2.1 rfl)
      poststop := hstop
      poststopGate := fun hclosed hopen ↦ ?_
      prestartGate := fun hrank ↦ ?_ }
  · -- the gate is open after the call, so the call ends in `poststop`, where it did not start
    obtain ⟨htasks, hend⟩ := ((hinv.updateLoop states 6).gates_eq_true .poststop).mp hopen
    rw [tasksByLifecycle_updateLoop] at htasks
    have hend : (updateLoop states 6 c).currentState = .poststop := (gateOpen_poststop _).mp hend
    have hstart : c.currentState ≠ .poststop := by
      intro h
      have hwas := (hinv.gates_eq_true .poststop).mpr ⟨htasks, (gateOpen_poststop _).mpr h⟩
      rw [hclosed] at hwas
      exact Bool.false_ne_true hwas
    apply hstop
    rw [← hend]
    exact mem_enteredStates (by rw [hend]; exact hstart.symm)
  · -- the gate is open only in `prestart`, of rank one
    cases hgate : c.gates .prestartEphemeral with
    | false => rfl
    | true =>
      have hprestart := (gateOpen_prestartEphemeral _).mp ((hinv.gates_eq_true _).mp hgate).2
      rw [hprestart] at hrank
      exact absurd hrank (by decide)

/-- An allocation with one ephemeral prestart task and one main task. -/
def migrateThenWeb : List Task :=
  [{ name := "migrate", driver := "docker",
     lifecycle := some { hook := taskLifecycleHookPrestart, sidecar := false } },
   { name := "web", driver := "docker" }]

theorem startOrder_migrateThenWeb :
    let c := (newCoordinator migrateThenWeb).restore ∅
    Reachable migrateThenWeb c ∧ StartOrder c ∅ :=
  ⟨reachable_restore _ _, startOrder_of_reachable (reachable_restore _ _) ∅⟩

theorem reachable_gates_open_iff_migrateThenWeb :
    Reachable migrateThenWeb (newCoordinator migrateThenWeb) ∧
      ((newCoordinator migrateThenWeb).gates .main = true ↔
        (newCoordinator migrateThenWeb).tasksByLifecycle .main ≠ [] ∧
          gateOpen (newCoordinator migrateThenWeb).currentState .main = true) :=
  ⟨.new, reachable_gates_open_iff .new .main⟩

end Coordinator

end Wander.Client
