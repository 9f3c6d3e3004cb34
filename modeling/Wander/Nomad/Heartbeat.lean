import Wander.Lib.GoMap
import Mathlib.Logic.Relation

/-!
# `nomad/heartbeat.go`: the heartbeat timers of the leader

The leader keeps a timer for each node that heartbeats. `resetHeartbeatTimer` renews the node's
timer, or creates one. When a timer fires, `time.AfterFunc` starts its callback in a goroutine of
its own; the callback, `invalidateHeartbeat`, takes the lock, stops and deletes the node's timer,
and a leader then sends the node's status update. The model is a state machine with one step for
each thing that can happen (`exec`): a reset, the clock advancing, a timer firing, and a waiting
callback taking the lock. Its state holds, besides the timers, the callbacks that have started and
not yet taken the lock, and a log of the resets that completed and of the updates sent.

Every update is sent after the deadline of some completed reset of the node has passed
(`reachable_update_after_deadline`). It need not be the last reset: a reset that takes the lock
after the timer has fired and before its callback does renews the timer, and the callback then
deletes the renewed timer and sends the update at once (`heartbeat_race_marks_fresh_node_down`).

`initializeHeartbeatTimers`, which a new leader runs, and what the update request holds (the
status `down` or `disconnected`) are left out.
-/

set_option autoImplicit false
set_option relaxedAutoImplicit false

namespace Wander.Nomad

open Wander.Lib

/-- `heartbeatNotLeader`. -/
def heartbeatNotLeader : String := "failed to reset heartbeat since server is not leader"

/-- A timer of `time.AfterFunc`: its deadline, and whether it will still fire. -/
structure Timer where
  deadline : ℕ
  active : Bool
deriving DecidableEq, Repr

/-- A callback goroutine that a firing timer started, waiting for the lock: the node, and the
deadline the timer had reached. -/
structure Callback where
  id : String
  deadline : ℕ
deriving DecidableEq, Repr

/-- A call of `resetHeartbeatTimer` that completed: the node, the time it held the lock and the
TTL it installed. -/
structure ResetRecord where
  id : String
  time : ℕ
  ttl : ℕ
deriving DecidableEq, Repr

/-- `nodeHeartbeater`, with the clock, the callbacks waiting for the lock, and the log of the
resets that completed and of the status updates sent (each with the time its callback took the
lock), the latest first. -/
structure NodeHeartbeater where
  isLeader : Bool
  heartbeatGrace : ℕ
  now : ℕ := 0
  heartbeatTimers : GoMap String Timer := ∅
  callbacks : List Callback := []
  resets : List ResetRecord := []
  updates : List (String × ℕ) := []
deriving DecidableEq

/-- `newNodeHeartbeater`: no timers yet. -/
def newNodeHeartbeater (isLeader : Bool) (heartbeatGrace : ℕ) : NodeHeartbeater :=
  { isLeader := isLeader, heartbeatGrace := heartbeatGrace }

namespace NodeHeartbeater

/-- `resetHeartbeatTimerLocked`: the node's timer fires `ttl` from now, renewed by `Reset` if the
map has one, which makes a fired or stopped timer fire again, and new otherwise. -/
def resetHeartbeatTimerLocked (h : NodeHeartbeater) (id : String) (ttl : ℕ) : NodeHeartbeater :=
  match h.heartbeatTimers.lookup id with
  | some timer =>
    { h with
      heartbeatTimers :=
        h.heartbeatTimers.insert id { timer with deadline := h.now + ttl, active := true } }
  | none => { h with heartbeatTimers := h.heartbeatTimers.insert id ⟨h.now + ttl, true⟩ }

/-- `resetHeartbeatTimer`; `ttl` is the TTL it computes from the heartbeat rate and the random
stagger, to which the grace is added. -/
def resetHeartbeatTimer (h : NodeHeartbeater) (id : String) (ttl : ℕ) :
    Except String NodeHeartbeater :=
  -- no timer is made on a server that is not the leader
  if !h.isLeader then .error heartbeatNotLeader
  else
    let h' := h.resetHeartbeatTimerLocked id (ttl + h.heartbeatGrace)
    .ok { h' with resets := ⟨id, h.now, ttl + h.heartbeatGrace⟩ :: h.resets }

/-- A node's timer fires once it is active and due: it becomes inactive and starts its callback
goroutine. -/
def fire (h : NodeHeartbeater) (id : String) : Option NodeHeartbeater :=
  match h.heartbeatTimers.lookup id with
  | none => none
  | some timer =>
    if timer.active ∧ timer.deadline ≤ h.now then
      some { h with
        heartbeatTimers := h.heartbeatTimers.insert id { timer with active := false }
        callbacks := h.callbacks ++ [⟨id, timer.deadline⟩] }
    else none

/-- `invalidateHeartbeat`, from the moment a waiting callback of the node takes the lock: the
node's timer, if the map still has one, is stopped and deleted, and a leader sends the node's
status update. -/
def invalidateHeartbeat (h : NodeHeartbeater) (id : String) : Option NodeHeartbeater :=
  match h.callbacks.find? (·.id = id) with
  | none => none
  | some c =>
    let h :=
      { h with callbacks := h.callbacks.erase c, heartbeatTimers := h.heartbeatTimers.erase id }
    -- a server that is not the leader does not invalidate the node
    if !h.isLeader then some h
    else some { h with updates := (id, h.now) :: h.updates }

end NodeHeartbeater

/-- What can happen next to the heartbeater. -/
inductive Event
  | resetHeartbeatTimer (id : String) (ttl : ℕ)
  | advance (d : ℕ)
  | fire (id : String)
  | invalidateHeartbeat (id : String)
deriving DecidableEq, Repr

namespace NodeHeartbeater

/-- One event; none when it cannot happen. A reset refused to a server that is not the leader
changes nothing. -/
def exec (h : NodeHeartbeater) : Event → Option NodeHeartbeater
  | .resetHeartbeatTimer id ttl =>
    match h.resetHeartbeatTimer id ttl with
    | .ok h' => some h'
    | .error _ => some h
  | .advance d => some { h with now := h.now + d }
  | .fire id => h.fire id
  | .invalidateHeartbeat id => h.invalidateHeartbeat id

/-- A step of the heartbeater. -/
def Step (h h' : NodeHeartbeater) : Prop := ∃ e, h.exec e = some h'

/-- The events in turn; none when one of them cannot happen. -/
def run (h : NodeHeartbeater) (events : List Event) : Option NodeHeartbeater :=
  events.foldlM exec h

/-- The last completed reset of a node. -/
def lastReset (h : NodeHeartbeater) (id : String) : Option ResetRecord :=
  h.resets.find? (·.id = id)

/-! ### What each event does -/

variable {h h' : NodeHeartbeater}

theorem resetHeartbeatTimer_cases {id : String} {ttl : ℕ}
    (hreset : h.resetHeartbeatTimer id ttl = .ok h') :
    h' = { h with
      heartbeatTimers := h.heartbeatTimers.insert id ⟨h.now + (ttl + h.heartbeatGrace), true⟩
      resets := ⟨id, h.now, ttl + h.heartbeatGrace⟩ :: h.resets } := by
  unfold resetHeartbeatTimer at hreset
  by_cases hleader : h.isLeader = true
  · simp only [hleader, Bool.not_true, Bool.false_eq_true, if_false, Except.ok.injEq] at hreset
    subst hreset
    -- a renewed timer and a new one are due at the same time
    unfold resetHeartbeatTimerLocked
    split <;> rfl
  · simp [hleader] at hreset

theorem fire_cases {id : String} (hfire : h.fire id = some h') :
    ∃ timer, h.heartbeatTimers.lookup id = some timer ∧ timer.active = true ∧
      timer.deadline ≤ h.now ∧
      h' = { h with
        heartbeatTimers := h.heartbeatTimers.insert id { timer with active := false }
        callbacks := h.callbacks ++ [⟨id, timer.deadline⟩] } := by
  unfold fire at hfire
  split at hfire
  · cases hfire
  · next timer hlookup =>
    split_ifs at hfire with hdue
    exact ⟨timer, hlookup, hdue.1, hdue.2, (Option.some_inj.mp hfire).symm⟩

theorem invalidateHeartbeat_cases {id : String} (hinv : h.invalidateHeartbeat id = some h') :
    ∃ c ∈ h.callbacks, c.id = id ∧
      h' = if h.isLeader then
          { h with
            callbacks := h.callbacks.erase c
            heartbeatTimers := h.heartbeatTimers.erase id
            updates := (id, h.now) :: h.updates }
        else
          { h with callbacks := h.callbacks.erase c, heartbeatTimers := h.heartbeatTimers.erase id } := by
  unfold invalidateHeartbeat at hinv
  split at hinv
  · cases hinv
  · next c hfind =>
    refine ⟨c, List.mem_of_find?_eq_some hfind, by simpa using List.find?_some hfind, ?_⟩
    cases hleader : h.isLeader <;> simp only [hleader] at hinv ⊢ <;>
      exact (Option.some_inj.mp hinv).symm

/-! ### The deadlines of timers, callbacks and updates -/

/-- The deadlines the heartbeater holds, each the end of the TTL of a completed reset of the
node: that of an active timer, and that of a waiting callback, which has passed. Every update was
sent after such a deadline. -/
structure Deadlines (h : NodeHeartbeater) : Prop where
  timer : ∀ id timer, h.heartbeatTimers.lookup id = some timer → timer.active = true →
    ∃ r ∈ h.resets, r.id = id ∧ r.time + r.ttl = timer.deadline
  callback : ∀ c ∈ h.callbacks, c.deadline ≤ h.now ∧
    ∃ r ∈ h.resets, r.id = c.id ∧ r.time + r.ttl = c.deadline
  update : ∀ u ∈ h.updates, ∃ r ∈ h.resets, r.id = u.1 ∧ r.time + r.ttl ≤ u.2

theorem deadlines_newNodeHeartbeater (isLeader : Bool) (heartbeatGrace : ℕ) :
    Deadlines (newNodeHeartbeater isLeader heartbeatGrace) where
  timer := by simp [newNodeHeartbeater]
  callback := by simp [newNodeHeartbeater]
  update := by simp [newNodeHeartbeater]

namespace Deadlines

/-- A reset logs the record that the node's new deadline is the end of. -/
theorem resetHeartbeatTimer (hd : Deadlines h) {id : String} {ttl : ℕ}
    (hreset : h.resetHeartbeatTimer id ttl = .ok h') : Deadlines h' := by
  rw [resetHeartbeatTimer_cases hreset]
  have hold : ∀ r ∈ h.resets, r ∈ (⟨id, h.now, ttl + h.heartbeatGrace⟩ :: h.resets : List _) :=
    fun r hr ↦ List.mem_cons_of_mem _ hr
  constructor
  · intro id' timer hlookup hactive
    by_cases hid : id' = id
    · subst hid
      rw [AList.lookup_insert, Option.some_inj] at hlookup
      exact ⟨_, List.mem_cons_self, rfl, by rw [← hlookup]⟩
    · rw [AList.lookup_insert_ne hid] at hlookup
      obtain ⟨r, hr, hrid, hrd⟩ := hd.timer id' timer hlookup hactive
      exact ⟨r, hold r hr, hrid, hrd⟩
  · intro c hc
    obtain ⟨hdue, r, hr, hrid, hrd⟩ := hd.callback c hc
    exact ⟨hdue, r, hold r hr, hrid, hrd⟩
  · intro u hu
    obtain ⟨r, hr, hrid, hrd⟩ := hd.update u hu
    exact ⟨r, hold r hr, hrid, hrd⟩

/-- The clock only moves forward, so a deadline passed stays passed. -/
theorem advance (hd : Deadlines h) (d : ℕ) : Deadlines { h with now := h.now + d } where
  timer := hd.timer
  callback c hc :=
    have ⟨hdue, hr⟩ := hd.callback c hc
    ⟨Nat.le_trans hdue (Nat.le_add_right _ _), hr⟩
  update := hd.update

/-- A timer fires at its deadline, which its callback keeps. -/
theorem fire (hd : Deadlines h) {id : String} (hfire : h.fire id = some h') : Deadlines h' := by
  obtain ⟨timer, hlookup, hactive, hdue, rfl⟩ := fire_cases hfire
  constructor
  · intro id' timer' hlookup' hactive'
    by_cases hid : id' = id
    · -- the fired timer is inactive
      subst hid
      rw [AList.lookup_insert, Option.some_inj] at hlookup'
      rw [← hlookup'] at hactive'
      cases hactive'
    · rw [AList.lookup_insert_ne hid] at hlookup'
      exact hd.timer id' timer' hlookup' hactive'
  · intro c hc
    rcases List.mem_append.mp hc with hc | hc
    · exact hd.callback c hc
    · rw [List.mem_singleton] at hc
      subst hc
      exact ⟨hdue, hd.timer id timer hlookup hactive⟩
  · exact hd.update

/-- A callback that takes the lock sends its update after the deadline it waited for. -/
theorem invalidateHeartbeat (hd : Deadlines h) {id : String}
    (hinv : h.invalidateHeartbeat id = some h') : Deadlines h' := by
  obtain ⟨c, hc, hcid, rfl⟩ := invalidateHeartbeat_cases hinv
  have htimer : ∀ id' timer, (h.heartbeatTimers.erase id).lookup id' = some timer →
      timer.active = true → ∃ r ∈ h.resets, r.id = id' ∧ r.time + r.ttl = timer.deadline := by
    intro id' timer hlookup hactive
    by_cases hid : id' = id
    · subst hid
      rw [AList.lookup_erase] at hlookup
      cases hlookup
    · rw [AList.lookup_erase_ne hid] at hlookup
      exact hd.timer id' timer hlookup hactive
  have hcallback : ∀ c' ∈ h.callbacks.erase c, c'.deadline ≤ h.now ∧
      ∃ r ∈ h.resets, r.id = c'.id ∧ r.time + r.ttl = c'.deadline :=
    fun c' hc' ↦ hd.callback c' (List.mem_of_mem_erase hc')
  cases hleader : h.isLeader
  · exact ⟨htimer, hcallback, hd.update⟩
  · refine ⟨htimer, hcallback, ?_⟩
    intro u hu
    rcases List.mem_cons.mp hu with rfl | hu
    · -- the new update: the callback's deadline had passed
      obtain ⟨hdue, r, hr, hrid, hrd⟩ := hd.callback c hc
      exact ⟨r, hr, hrid.trans hcid, hrd ▸ hdue⟩
    · exact hd.update u hu

theorem exec (hd : Deadlines h) {e : Event} (he : h.exec e = some h') : Deadlines h' := by
  cases e with
  | resetHeartbeatTimer id ttl =>
    simp only [NodeHeartbeater.exec] at he
    split at he
    · next h'' hreset =>
      cases he
      exact hd.resetHeartbeatTimer hreset
    · cases he
      exact hd
  | advance d =>
    cases he
    exact hd.advance d
  | fire id => exact hd.fire he
  | invalidateHeartbeat id => exact hd.invalidateHeartbeat he

end Deadlines

/-- A run of events is a chain of steps. -/
theorem run_reflTransGen {events : List Event} (hrun : h.run events = some h') :
    Relation.ReflTransGen Step h h' := by
  induction events generalizing h with
  | nil =>
    cases hrun
    exact Relation.ReflTransGen.refl
  | cons e events ih =>
    simp only [run, List.foldlM_cons, Option.bind_eq_bind, Option.bind_eq_some_iff] at hrun
    obtain ⟨h'', he, hrest⟩ := hrun
    exact Relation.ReflTransGen.head ⟨e, he⟩ (ih hrest)

/-- The deadlines hold in every state a new heartbeater reaches. -/
theorem reachable_deadlines {isLeader : Bool} {heartbeatGrace : ℕ}
    (hreach : Relation.ReflTransGen Step (newNodeHeartbeater isLeader heartbeatGrace) h) :
    Deadlines h := by
  induction hreach with
  | refl => exact deadlines_newNodeHeartbeater isLeader heartbeatGrace
  | tail _ hstep ih =>
    obtain ⟨e, he⟩ := hstep
    exact ih.exec he

/-- In every state a new heartbeater reaches, each status update was sent when the deadline of a
completed reset of its node had passed. -/
theorem reachable_update_after_deadline {isLeader : Bool} {heartbeatGrace : ℕ}
    (hreach : Relation.ReflTransGen Step (newNodeHeartbeater isLeader heartbeatGrace) h) :
    ∀ u ∈ h.updates, ∃ r ∈ h.resets, r.id = u.1 ∧ r.time + r.ttl ≤ u.2 :=
  (reachable_deadlines hreach).update

end NodeHeartbeater

/-! ### A callback that outlives a reset -/

/-- A reset of ten seconds with a grace of five; the timer fires at its deadline; then a
heartbeat's reset takes the lock before the timer's callback does. -/
def raceEvents : List Event :=
  [.resetHeartbeatTimer "n1" 10, .advance 15, .fire "n1", .resetHeartbeatTimer "n1" 10]

namespace NodeHeartbeater

theorem reachable_update_after_deadline_race :
    let h := ((newNodeHeartbeater true 5).run (raceEvents ++ [.invalidateHeartbeat "n1"])).getD
      (newNodeHeartbeater true 5)
    Relation.ReflTransGen Step (newNodeHeartbeater true 5) h ∧
      ∀ u ∈ h.updates, ∃ r ∈ h.resets, r.id = u.1 ∧ r.time + r.ttl ≤ u.2 :=
  have hreach := run_reflTransGen (by decide +kernel :
    (newNodeHeartbeater true 5).run (raceEvents ++ [.invalidateHeartbeat "n1"]) =
      some (((newNodeHeartbeater true 5).run (raceEvents ++ [.invalidateHeartbeat "n1"])).getD
        (newNodeHeartbeater true 5)))
  ⟨hreach, reachable_update_after_deadline hreach⟩

/-- After the race, the callback takes the lock at 15 seconds, when the node's last reset was
made, with a TTL of 15 seconds, and it sends the node's status update: none of that TTL has
elapsed. -/
theorem heartbeat_race_marks_fresh_node_down :
    ((newNodeHeartbeater true 5).run raceEvents).map (fun h ↦
        (h.now, h.lastReset "n1", (h.invalidateHeartbeat "n1").map (·.updates))) =
      some (15, some ⟨"n1", 15, 15⟩, some [("n1", 15)]) := by
  decide +kernel

end NodeHeartbeater

end Wander.Nomad
