import Wander.Scheduler.DeviceChecker
import Wander.Structs.DeviceAccounter

/-!
# `scheduler/device.go`: the device allocator

`AssignDevice` picks a device group of the node for one device request and names the instances
the task gets. It visits the accountant's groups; a group qualifies when it has at least the
request's count of free instances and matches the request (`nodeDeviceMatches`), and the
qualifying group with the best affinity score, the last visited among equal scores, makes the
offer. The offer's instances are then picked by a second loop over the group's instances, which
keeps the free ones that meet the request's constraints on `${device.ids}`, up to the count.

What holds: an offer is made exactly when some group qualifies (`assignDevice_ok_iff`), and it
names distinct free instances of one qualifying group that meet the constraints on
`${device.ids}`, as many as there are up to the count (`assignDevice_offer_spec`,
`assignDevice_deviceIDs`). What does not: the two loops count different instances. A group
qualifies on all its free instances, and the constraints on `${device.ids}` are only applied
when the instances are picked, so an offer can name fewer instances than requested
(`assignDevice_offers_fewer_than_count`).

The affinity scores, `float64` in the source, are exact rationals; the attribute layer is the
parameter `AttributeOps` of the device checker.
-/

set_option autoImplicit false
set_option relaxedAutoImplicit false

namespace Wander.Scheduler

open Wander.Lib Wander.Structs GoMap

/-- What `checkAttributeConstraint` returns for a target that did not resolve but is passed as
found, as `deviceIDMatchesConstraint` passes it: a nil attribute compares with nothing, and it is
set. The operands that read the nil attribute's string, on which Go would panic, are not reached,
since `nodeDeviceMatches` has already rejected a constraint with such an operand and a side that
does not resolve. -/
def checkUnresolvedTarget (operand : String) : Bool :=
  operand == constraintDistinctHosts || operand == constraintDistinctProperty ||
    operand == "is_set"

/-- `deviceAllocator.deviceIDMatchesConstraint`: the instance meets every constraint that has
`${device.ids}` on one side, the other side resolved against the group. -/
def deviceIDMatchesConstraint (ops : AttributeOps) (id : String) (constraints : List Constraint)
    (device : NodeDeviceResource) : Bool :=
  -- there are no constraints to consider
  if constraints.length = 0 then true
  else
    let deviceID := newStringAttribute id
    constraints.all fun c ↦
      let target :=
        if c.lTarget = "$\x7bdevice.ids\x7d" then some (resolveDeviceTarget ops c.rTarget device)
        else if c.rTarget = "$\x7bdevice.ids\x7d" then
          some (resolveDeviceTarget ops c.lTarget device)
        else none
      match target with
      -- a constraint on anything else is skipped
      | none => true
      | some none => checkUnresolvedTarget c.operand
      | some (some t) => checkAttributeConstraint ops c.operand (some t) (some deviceID)

/-- The affinity score of a group for a request and the sum of the weights it matches: the score
is that sum over the sum of the weights' magnitudes, and both are zero without affinities. -/
def affinityScore (ops : AttributeOps) (ask : RequestedDevice) (device : NodeDeviceResource) :
    ℚ × ℚ :=
  if ask.affinities.length = 0 then (0, 0)
  else
    let (totalWeight, sumMatchedWeights) := ask.affinities.foldl (fun (total, matched) a ↦
      let total := total + (a.weight.natAbs : ℚ)
      if checkAttributeConstraint ops a.operand (resolveDeviceTarget ops a.lTarget device)
          (resolveDeviceTarget ops a.rTarget device) then (total, matched + a.weight)
      else (total, matched)) (0, 0)
    (sumMatchedWeights / totalWeight, sumMatchedWeights)

/-- The loop of `AssignDevice` that picks the offer's instances: the free ones that meet the
constraints on `${device.ids}`, until `assigned` reaches the request's count. -/
def assignInstances (ops : AttributeOps) (ask : RequestedDevice) (device : NodeDeviceResource)
    (assigned : ℕ) : List (Σ _ : String, ℕ) → List String
  | [] => []
  | ⟨id, v⟩ :: rest =>
    if v = 0 ∧ assigned < ask.count ∧ deviceIDMatchesConstraint ops id ask.constraints device then
      if assigned + 1 = ask.count then [id]
      else id :: assignInstances ops ask device (assigned + 1) rest
    else assignInstances ops ask device assigned rest

/-- The offer `AssignDevice` holds: the device group and instances, its score and the sum of the
affinity weights it matched. -/
structure Offer where
  offer : AllocatedDeviceResource
  score : ℚ
  matchedWeights : ℚ
deriving DecidableEq

/-- The offer a group makes: its identifier, and the instances the second loop picks. -/
def choice (ops : AttributeOps) (ask : RequestedDevice)
    (e : Σ _ : DeviceIdTuple, DeviceAccounterInstance) : Offer :=
  let (choiceScore, sumMatchedWeights) := affinityScore ops ask e.2.device
  { offer :=
      { vendor := e.1.vendor
        type := e.1.type
        name := e.1.name
        deviceIDs := assignInstances ops ask e.2.device 0 e.2.instances.entries }
    score := choiceScore
    matchedWeights := sumMatchedWeights }

/-- One turn of the loop of `AssignDevice` over the groups: a group with enough free instances
that matches the request makes the offer, unless the offer so far scores higher. -/
def considerDevice (ops : AttributeOps) (ask : RequestedDevice) (best : Option Offer)
    (e : Σ _ : DeviceIdTuple, DeviceAccounterInstance) : Option Offer :=
  -- this group does not have enough instances
  if e.2.freeCount < ask.count then best
  else if !nodeDeviceMatches ops e.2.device ask then best
  else if best.any (fun b ↦ (choice ops ask e).score < b.score) then best
  else some (choice ops ask e)

/-- `deviceAllocator`, less its context. -/
structure DeviceAllocator where
  deviceAccounter : DeviceAccounter

/-- `newDeviceAllocator`. -/
def newDeviceAllocator (n : Node) : DeviceAllocator := ⟨newDeviceAccounter n⟩

namespace DeviceAllocator

/-- `deviceAllocator.AssignDevice`: the offer and its matched affinity weights. -/
def assignDevice (ops : AttributeOps) (d : DeviceAllocator) (ask : RequestedDevice) :
    Except String (AllocatedDeviceResource × ℚ) :=
  if d.deviceAccounter.devices.entries.length = 0 then .error "no devices available"
  else if ask.count = 0 then .error "invalid request of zero devices"
  else
    match d.deviceAccounter.devices.entries.foldl (considerDevice ops ask) none with
    | none => .error "no devices match request"
    | some best => .ok (best.offer, best.matchedWeights)

end DeviceAllocator

/-! ### The loops of `AssignDevice` -/

section Loops

variable (ops : AttributeOps) (ask : RequestedDevice)

/-- A group `AssignDevice` can make its offer from: it has at least the request's count of free
instances and matches the request. -/
def qualifies (devInst : DeviceAccounterInstance) : Bool :=
  ask.count ≤ devInst.freeCount && nodeDeviceMatches ops devInst.device ask

/-- The free instances of a group that meet the request's constraints on `${device.ids}`, in the
order the map is visited. -/
def matchingFree (devInst : DeviceAccounterInstance) : List String :=
  (devInst.instances.entries.filter fun e ↦
    e.2 == 0 && deviceIDMatchesConstraint ops e.1 ask.constraints devInst.device).map (·.1)

/-- The second loop picks the first instances that are free and meet the constraints, as many
as are still wanted. -/
theorem assignInstances_eq_take (device : NodeDeviceResource) (assigned : ℕ)
    (l : List (Σ _ : String, ℕ)) :
    assignInstances ops ask device assigned l =
      ((l.filter fun e ↦ e.2 == 0 && deviceIDMatchesConstraint ops e.1 ask.constraints
        device).map (·.1)).take (ask.count - assigned) := by
  -- induction on the instances, with the count assigned so far generalized
  induction l generalizing assigned with
  | nil => simp [assignInstances]
  | cons e rest ih =>
    obtain ⟨id, v⟩ := e
    by_cases hpick : v = 0 ∧ deviceIDMatchesConstraint ops id ask.constraints device = true
    · have hkeep : (v == 0 && deviceIDMatchesConstraint ops id ask.constraints device) = true := by
        simp [hpick.1, hpick.2]
      simp only [List.filter_cons, hkeep, if_true, List.map_cons]
      by_cases hlt : assigned < ask.count
      · by_cases hlast : assigned + 1 = ask.count
        · simp [assignInstances, hpick, hlt, hlast, show ask.count - assigned = 1 by omega]
        · have hrest : ask.count - assigned = ask.count - (assigned + 1) + 1 := by omega
          simp [assignInstances, hpick, hlt, hlast, ih, hrest]
      · have hdone : ask.count - assigned = 0 := by omega
        simp [assignInstances, hpick, hlt, ih, hdone]
    · have hskip : (v == 0 && deviceIDMatchesConstraint ops id ask.constraints device) = false := by
        simpa using hpick
      simp only [List.filter_cons, hskip, Bool.false_eq_true, if_false, assignInstances]
      rw [if_neg (fun h ↦ hpick ⟨h.1, h.2.2⟩), ih]

/-- A turn of the loop keeps the offer, or makes the group's when the group qualifies. -/
theorem considerDevice_cases (best : Option Offer)
    (e : Σ _ : DeviceIdTuple, DeviceAccounterInstance) :
    considerDevice ops ask best e = best ∨
      qualifies ops ask e.2 = true ∧ considerDevice ops ask best e = some (choice ops ask e) := by
  unfold considerDevice
  split_ifs with hfree hmatch hscore
  · exact .inl rfl
  · exact .inl rfl
  · exact .inl rfl
  · refine .inr ⟨?_, rfl⟩
    simpa [qualifies, Nat.not_lt.mp hfree] using hmatch

/-- A turn of the loop on a qualifying group leaves an offer. -/
theorem isSome_considerDevice_of_qualifies (best : Option Offer)
    {e : Σ _ : DeviceIdTuple, DeviceAccounterInstance} (h : qualifies ops ask e.2 = true) :
    (considerDevice ops ask best e).isSome := by
  simp only [qualifies, Bool.and_eq_true, decide_eq_true_eq] at h
  unfold considerDevice
  rw [if_neg (Nat.not_lt.mpr h.1), if_neg (by simp [h.2])]
  split_ifs with hscore
  · exact Option.isSome_of_any hscore
  · rfl

/-- A turn of the loop never drops the offer. -/
theorem isSome_considerDevice (best : Option Offer) (hbest : best.isSome)
    (e : Σ _ : DeviceIdTuple, DeviceAccounterInstance) :
    (considerDevice ops ask best e).isSome := by
  rcases considerDevice_cases ops ask best e with h | ⟨-, h⟩ <;> simp [h, hbest]

/-- The loop's offer is the one it started with, or the offer of a qualifying group it
visited. -/
theorem foldl_considerDevice_cases (l : List (Σ _ : DeviceIdTuple, DeviceAccounterInstance))
    (best : Option Offer) :
    l.foldl (considerDevice ops ask) best = best ∨
      ∃ e ∈ l, qualifies ops ask e.2 = true ∧
        l.foldl (considerDevice ops ask) best = some (choice ops ask e) := by
  -- induction on the groups, the offer so far generalized
  induction l generalizing best with
  | nil => exact .inl rfl
  | cons e rest ih =>
    rw [List.foldl_cons]
    rcases ih (considerDevice ops ask best e) with hrest | ⟨e', he', hq, hoffer⟩
    · rw [hrest]
      rcases considerDevice_cases ops ask best e with hkeep | ⟨hq, hoffer⟩
      · exact .inl hkeep
      · exact .inr ⟨e, List.mem_cons_self, hq, hoffer⟩
    · exact .inr ⟨e', List.mem_cons_of_mem _ he', hq, hoffer⟩

/-- The loop ends with an offer once it started with one. -/
theorem isSome_foldl_considerDevice (l : List (Σ _ : DeviceIdTuple, DeviceAccounterInstance))
    (best : Option Offer) (hbest : best.isSome) :
    (l.foldl (considerDevice ops ask) best).isSome := by
  induction l generalizing best with
  | nil => exact hbest
  | cons e rest ih => exact ih _ (isSome_considerDevice ops ask best hbest e)

/-- The loop ends with an offer when it visits a qualifying group. -/
theorem isSome_foldl_considerDevice_of_mem
    {l : List (Σ _ : DeviceIdTuple, DeviceAccounterInstance)} {e} (he : e ∈ l)
    (hq : qualifies ops ask e.2 = true) (best : Option Offer) :
    (l.foldl (considerDevice ops ask) best).isSome := by
  induction l generalizing best with
  | nil => cases he
  | cons e' rest ih =>
    rw [List.foldl_cons]
    rcases List.mem_cons.mp he with rfl | he
    · exact isSome_foldl_considerDevice ops ask rest _
        (isSome_considerDevice_of_qualifies ops ask best hq)
    · exact ih he _

end Loops

/-! ### The node and request of the examples

A group of two A100s, and a request for both whose constraint on `${device.ids}` holds for the
group and for `gpu0` alone. -/

/-- A group of two healthy A100s. -/
def a100Pair : NodeDeviceResource :=
  { vendor := "nvidia", type := "gpu", name := "a100"
    instances := [{ id := "gpu0", healthy := true }, { id := "gpu1", healthy := true }] }

/-- A request for two A100s whose `${device.ids}` contain `gpu0`. -/
def pinnedAsk : RequestedDevice :=
  { name := "nvidia/gpu/a100"
    count := 2
    constraints :=
      [{ lTarget := "$\x7bdevice.ids\x7d", rTarget := "gpu0", operand := "set_contains_any" }] }

/-- A node with the pair. -/
def pairNode : Node := { id := "n1", nodeResources := some { devices := [a100Pair] } }

namespace DeviceAllocator

section Assign

variable (ops : AttributeOps) (d : DeviceAllocator) (ask : RequestedDevice)

/-- What `AssignDevice` returns without error is the loop's offer. -/
theorem assignDevice_ok {offer : AllocatedDeviceResource} {score : ℚ}
    (h : d.assignDevice ops ask = .ok (offer, score)) :
    ask.count ≠ 0 ∧ ∃ best, d.deviceAccounter.devices.entries.foldl (considerDevice ops ask)
      none = some best ∧ best.offer = offer ∧ best.matchedWeights = score := by
  unfold assignDevice at h
  split_ifs at h with hempty hzero
  split at h
  case h_1 => cases h
  case h_2 best hbest =>
    cases h
    exact ⟨hzero, best, hbest, rfl, rfl⟩

/-- For a request of at least one instance, `AssignDevice` makes an offer exactly when some group
has at least the request's count of free instances and matches the request. -/
theorem assignDevice_ok_iff (hcount : 0 < ask.count) :
    (∃ offer score, d.assignDevice ops ask = .ok (offer, score)) ↔
      ∃ e ∈ d.deviceAccounter.devices.entries, qualifies ops ask e.2 = true := by
  constructor
  · rintro ⟨offer, score, h⟩
    obtain ⟨-, best, hbest, -, -⟩ := assignDevice_ok ops d ask h
    rcases foldl_considerDevice_cases ops ask _ none with hnone | ⟨e, he, hq, -⟩
    · rw [hnone] at hbest
      cases hbest
    · exact ⟨e, he, hq⟩
  · rintro ⟨e, he, hq⟩
    obtain ⟨best, hbest⟩ :=
      Option.isSome_iff_exists.mp (isSome_foldl_considerDevice_of_mem ops ask he hq none)
    have hentries : d.deviceAccounter.devices.entries.length ≠ 0 :=
      List.length_pos_of_mem he |>.ne'
    refine ⟨best.offer, best.matchedWeights, ?_⟩
    unfold assignDevice
    rw [if_neg hentries, if_neg (Nat.pos_iff_ne_zero.mp hcount), hbest]

theorem assignDevice_ok_iff_pairNode :
    0 < pinnedAsk.count ∧
      ((∃ offer score, (newDeviceAllocator pairNode).assignDevice literalOps pinnedAsk =
          .ok (offer, score)) ↔
        ∃ e ∈ (newDeviceAllocator pairNode).deviceAccounter.devices.entries,
          qualifies literalOps pinnedAsk e.2 = true) :=
  have hcount : 0 < pinnedAsk.count := by decide
  ⟨hcount, assignDevice_ok_iff literalOps _ pinnedAsk hcount⟩

/-- An offer names the identifier of a qualifying group of the accountant, and the first of the
group's free instances that meet the constraints on `${device.ids}`, up to the request's
count. -/
theorem assignDevice_offer_spec {offer : AllocatedDeviceResource} {score : ℚ}
    (h : d.assignDevice ops ask = .ok (offer, score)) :
    ∃ devInst, d.deviceAccounter.devices.lookup offer.id = some devInst ∧
      qualifies ops ask devInst = true ∧
      offer.deviceIDs = (matchingFree ops ask devInst).take ask.count := by
  obtain ⟨-, best, hbest, rfl, -⟩ := assignDevice_ok ops d ask h
  rcases foldl_considerDevice_cases ops ask _ none with hnone | ⟨e, he, hq, hchoice⟩
  · rw [hnone] at hbest
    cases hbest
  · rw [hbest, Option.some_inj] at hchoice
    subst hchoice
    refine ⟨e.2, AList.mem_lookup_iff.mpr he, hq, ?_⟩
    simp only [choice, matchingFree]
    rw [assignInstances_eq_take, Nat.sub_zero]

/-- The instances of an offer are distinct, free and meet the constraints on `${device.ids}`, and
there are as many as the request's count exactly when the group has that many such
instances. -/
theorem assignDevice_deviceIDs {offer : AllocatedDeviceResource} {score : ℚ}
    (h : d.assignDevice ops ask = .ok (offer, score)) :
    ∃ devInst, d.deviceAccounter.devices.lookup offer.id = some devInst ∧
      offer.deviceIDs.Nodup ∧
      (∀ id ∈ offer.deviceIDs, devInst.instances.lookup id = some 0 ∧
        deviceIDMatchesConstraint ops id ask.constraints devInst.device = true) ∧
      (offer.deviceIDs.length = ask.count ↔ ask.count ≤ (matchingFree ops ask devInst).length) := by
  obtain ⟨devInst, hlookup, -, hids⟩ := assignDevice_offer_spec ops d ask h
  refine ⟨devInst, hlookup, ?_, ?_, ?_⟩
  · -- the instances are keys of the instance map, taken in order
    rw [hids]
    exact ((List.take_sublist _ _).trans (List.filter_sublist.map _)).nodup
      devInst.instances.nodupKeys
  · intro id hid
    rw [hids] at hid
    obtain ⟨e, he, rfl⟩ := List.mem_map.mp (List.mem_of_mem_take hid)
    rw [List.mem_filter, Bool.and_eq_true, beq_iff_eq] at he
    exact ⟨AList.mem_lookup_iff.mpr (he.2.1 ▸ he.1), he.2.2⟩
  · rw [hids, List.length_take]
    omega

theorem assignDevice_deviceIDs_pairNode :
    (newDeviceAllocator pairNode).assignDevice literalOps pinnedAsk =
        .ok ({ vendor := "nvidia", type := "gpu", name := "a100", deviceIDs := ["gpu0"] }, 0) ∧
      ∃ devInst, (newDeviceAllocator pairNode).deviceAccounter.devices.lookup
          ({ vendor := "nvidia", type := "gpu", name := "a100" } : DeviceIdTuple) = some devInst ∧
        ["gpu0"].Nodup ∧
        (∀ id ∈ ["gpu0"], devInst.instances.lookup id = some 0 ∧
          deviceIDMatchesConstraint literalOps id pinnedAsk.constraints devInst.device = true) ∧
        (["gpu0"].length = pinnedAsk.count ↔
          pinnedAsk.count ≤ (matchingFree literalOps pinnedAsk devInst).length) :=
  have h : (newDeviceAllocator pairNode).assignDevice literalOps pinnedAsk =
      .ok ({ vendor := "nvidia", type := "gpu", name := "a100", deviceIDs := ["gpu0"] }, 0) := by
    decide +kernel
  ⟨h, assignDevice_deviceIDs literalOps _ pinnedAsk h⟩

end Assign

end DeviceAllocator

/-- The group qualifies on its two free instances, but only `gpu0` meets the constraint on
`${device.ids}`, so the offer names one instance for a request of two, and no error is returned.
This holds for every attribute layer that reads `gpu0` as a string, as `ParseAttribute` does. -/
theorem assignDevice_offers_fewer_than_count (ops : AttributeOps)
    (hparse : ops.parseAttribute "gpu0" = newStringAttribute "gpu0") :
    (newDeviceAllocator pairNode).assignDevice ops pinnedAsk =
        .ok ({ vendor := "nvidia", type := "gpu", name := "a100", deviceIDs := ["gpu0"] }, 0) ∧
      deviceIDMatchesConstraint ops "gpu1" pinnedAsk.constraints a100Pair = false := by
  have hresolve : resolveDeviceTarget ops "gpu0" a100Pair = some (newStringAttribute "gpu0") := by
    rw [resolveDeviceTarget, if_pos (by decide +kernel), hparse]
  -- with the literal read as a string, the checks no longer depend on the attribute layer
  have hids : ∀ id, deviceIDMatchesConstraint ops id pinnedAsk.constraints a100Pair =
      checkSetContainsAny "gpu0" id := by
    intro id
    simp only [deviceIDMatchesConstraint, pinnedAsk, List.all_cons, List.all_nil, hresolve,
      Bool.and_true, if_true]
    rfl
  have hmatch : nodeDeviceMatches ops a100Pair pinnedAsk = true := by
    simp only [nodeDeviceMatches, pinnedAsk, List.all_cons, List.all_nil, hresolve]
    rfl
  have hentries : (newDeviceAllocator pairNode).deviceAccounter.devices.entries =
      [⟨a100Pair.id,
        { device := a100Pair
          instances := ⟨[⟨"gpu1", 0⟩, ⟨"gpu0", 0⟩], by simp [List.NodupKeys]⟩ }⟩] := by
    decide +kernel
  refine ⟨?_, by rw [hids]; decide +kernel⟩
  unfold DeviceAllocator.assignDevice
  rw [hentries]
  simp only [List.foldl_cons, List.foldl_nil, considerDevice, choice, assignInstances, hmatch,
    hids]
  rfl

theorem assignDevice_offers_fewer_than_count_literalOps :
    literalOps.parseAttribute "gpu0" = newStringAttribute "gpu0" ∧
      ((newDeviceAllocator pairNode).assignDevice literalOps pinnedAsk =
          .ok ({ vendor := "nvidia", type := "gpu", name := "a100", deviceIDs := ["gpu0"] }, 0) ∧
        deviceIDMatchesConstraint literalOps "gpu1" pinnedAsk.constraints a100Pair = false) :=
  ⟨rfl, assignDevice_offers_fewer_than_count literalOps rfl⟩

end Wander.Scheduler
