import Wander.Structs.Alloc
import Wander.Structs.Node

/-!
# `nomad/structs/devices.go`: the device accounter

The accounter keeps, for each device group of a node, a use count for each healthy instance.
`NewDeviceAccounter` starts every healthy instance at zero; `AddAllocs` and `AddReserved` add one
for each allocation or reservation that holds an instance, and report a collision when the
instance was already in use. An instance is free when its count is zero. Instances that the node
does not report healthy are not in the map, and a use of one is ignored.

Both `AddAllocs` and `AddReserved` are a run of one step, `markUsed`, over the instances they
visit. `usage_foldl_markUsed` says what a run of it does to every count, and from it
`usage_addAllocs` and `usage_addReserved` give the accounter's counts as the counts of
`NewDeviceAccounter` plus the number of times the allocations or the reservation hold each
instance. `usage_newDeviceAccounter` says that an instance the new accounter knows is a healthy
instance of the node and is free.

The map of groups and the map of instances are `GoMap`s, whose iteration order stands for Go's.
-/

set_option autoImplicit false
set_option relaxedAutoImplicit false

namespace Wander.Structs

open Wander.Lib GoMap

/-- `structs.DeviceAccounterInstance`: a device group and the use count of each of its healthy
instances. -/
structure DeviceAccounterInstance where
  device : NodeDeviceResource
  instances : GoMap String ℕ := ∅
deriving DecidableEq

/-- `DeviceAccounterInstance.FreeCount`. -/
def DeviceAccounterInstance.freeCount (i : DeviceAccounterInstance) : ℕ :=
  (values i.instances).countP (· == 0)

/-- `structs.DeviceAccounter`. -/
structure DeviceAccounter where
  devices : GoMap DeviceIdTuple DeviceAccounterInstance := ∅
deriving DecidableEq

/-- `NewDeviceAccounter`: every healthy instance of every device group of the node, unused. A
group identifier that the node lists twice keeps its last group. -/
def newDeviceAccounter (n : Node) : DeviceAccounter :=
  let devices := match n.nodeResources with
    | none => []
    | some resources => resources.devices
  { devices := devices.foldl (fun m dev ↦
      m.insert dev.id
        { device := dev
          -- unhealthy instances are skipped, as they are not allocatable
          instances := dev.instances.foldl
            (fun is inst ↦ if !inst.healthy then is else is.insert inst.id 0) ∅ }) ∅ }

namespace DeviceAccounter

/-- The use count of an instance of a group; none when the accounter does not know either. -/
def usage (d : DeviceAccounter) (devID : DeviceIdTuple) (instanceID : String) : Option ℕ :=
  (d.devices.lookup devID).bind (·.instances.lookup instanceID)

/-- One use of an instance, as `AddAllocs` and `AddReserved` count it: a group or an instance the
accounter does not know is skipped, and the flag is raised when the instance was in use. -/
def markUsed (d : DeviceAccounter) (collision : Bool) (devID : DeviceIdTuple)
    (instanceID : String) : DeviceAccounter × Bool :=
  match d.devices.lookup devID with
  | none => (d, collision)
  | some devInst =>
    match devInst.instances.lookup instanceID with
    | none => (d, collision)
    | some i =>
      ({ devices := d.devices.insert devID
          { devInst with instances := devInst.instances.insert instanceID (i + 1) } },
        collision || i != 0)

/-- `DeviceAccounter.AddAllocs`. -/
def addAllocs (d : DeviceAccounter) (allocs : List Allocation) : DeviceAccounter × Bool :=
  allocs.foldl (fun acc a ↦
    -- a terminal allocation, or one without the new resources, holds no devices
    if a.clientTerminalStatus then acc
    else
      match a.allocatedResources with
      | none => acc
      | some resources =>
        (values resources.tasks).foldl (fun acc tr ↦
          tr.devices.foldl (fun acc device ↦
            device.deviceIDs.foldl (fun acc instanceID ↦
              markUsed acc.1 acc.2 device.id instanceID) acc) acc) acc)
    (d, false)

/-- `DeviceAccounter.AddReserved`. -/
def addReserved (d : DeviceAccounter) (res : AllocatedDeviceResource) : DeviceAccounter × Bool :=
  match d.devices.lookup res.id with
  | none => (d, false)
  | some _ => res.deviceIDs.foldl (fun acc id ↦ markUsed acc.1 acc.2 res.id id) (d, false)

end DeviceAccounter

/-- The instances an allocation holds, each with its group, in the order `AddAllocs` visits
them. -/
def allocDeviceMarks (a : Allocation) : List (DeviceIdTuple × String) :=
  if a.clientTerminalStatus then []
  else
    match a.allocatedResources with
    | none => []
    | some resources =>
      (values resources.tasks).flatMap fun tr ↦
        tr.devices.flatMap fun device ↦ device.deviceIDs.map (device.id, ·)

namespace DeviceAccounter

/-! ### What a run of `markUsed` does to the counts -/

section Usage

variable (d : DeviceAccounter) (collision : Bool)

/-- The step: the marked instance's count goes up by one, if the accounter knows it; no other
count changes. -/
theorem usage_markUsed (devID devID' : DeviceIdTuple) (instanceID instanceID' : String) :
    (d.markUsed collision devID instanceID).1.usage devID' instanceID' =
      if (devID, instanceID) = (devID', instanceID') then (d.usage devID' instanceID').map (· + 1)
      else d.usage devID' instanceID' := by
  unfold markUsed
  split
  case h_1 hdev =>
    split_ifs with hmark
    · obtain ⟨rfl, rfl⟩ := Prod.mk.inj hmark
      simp [usage, hdev]
    · rfl
  case h_2 devInst hdev =>
    split
    case h_1 hinst =>
      split_ifs with hmark
      · obtain ⟨rfl, rfl⟩ := Prod.mk.inj hmark
        simp [usage, hdev, hinst]
      · rfl
    case h_2 i hinst =>
      by_cases hgroup : devID' = devID
      · subst hgroup
        by_cases hid : instanceID' = instanceID
        · subst hid
          simp [usage, hdev, hinst]
        · have hne : (devID', instanceID) ≠ (devID', instanceID') := by simp [Ne.symm hid]
          simp [usage, hdev, hne, AList.lookup_insert_ne hid]
      · have hne : (devID, instanceID) ≠ (devID', instanceID') := by simp [Ne.symm hgroup]
        simp [usage, hne, AList.lookup_insert_ne hgroup]

/-- The run: every count goes up by the number of times the run marks its instance. -/
theorem usage_foldl_markUsed (marks : List (DeviceIdTuple × String)) (devID : DeviceIdTuple)
    (instanceID : String) :
    (marks.foldl (fun acc m ↦ markUsed acc.1 acc.2 m.1 m.2) (d, collision)).1.usage devID
        instanceID =
      (d.usage devID instanceID).map (· + marks.count (devID, instanceID)) := by
  -- induction on the marks, the accounter and the flag generalized
  induction marks generalizing d collision with
  | nil => simp
  | cons m rest ih =>
    rw [List.foldl_cons, ih, usage_markUsed, List.count_cons]
    by_cases hm : (m.1, m.2) = (devID, instanceID)
    · have hbeq : (m == (devID, instanceID)) = true := by simpa using hm
      simp only [hm, if_true, hbeq, Option.map_map]
      congr 1
      funext k
      simp only [Function.comp_apply]
      omega
    · have hbeq : (m == (devID, instanceID)) = false := by simpa using hm
      simp [hm, hbeq]

end Usage

/-- `AddAllocs` marks the instances the non-terminal allocations hold, in order. -/
theorem addAllocs_eq_foldl (d : DeviceAccounter) (allocs : List Allocation) :
    d.addAllocs allocs =
      (allocs.flatMap allocDeviceMarks).foldl (fun acc m ↦ markUsed acc.1 acc.2 m.1 m.2)
        (d, false) := by
  unfold addAllocs
  rw [List.foldl_flatMap]
  congr 1
  funext acc a
  unfold allocDeviceMarks
  split_ifs
  · rfl
  · split
    · rfl
    · simp only [List.foldl_flatMap, List.foldl_map]

/-- After `AddAllocs`, each count is the one before plus the number of times the non-terminal
allocations hold the instance. -/
theorem usage_addAllocs (d : DeviceAccounter) (allocs : List Allocation)
    (devID : DeviceIdTuple) (instanceID : String) :
    (d.addAllocs allocs).1.usage devID instanceID =
      (d.usage devID instanceID).map
        (· + (allocs.flatMap allocDeviceMarks).count (devID, instanceID)) := by
  rw [addAllocs_eq_foldl, usage_foldl_markUsed]

/-- After `AddReserved`, each count of the reservation's group is the one before plus the number
of times the reservation names the instance; the other groups are unchanged. -/
theorem usage_addReserved (d : DeviceAccounter) (res : AllocatedDeviceResource)
    (devID : DeviceIdTuple) (instanceID : String) :
    (d.addReserved res).1.usage devID instanceID =
      if devID = res.id then (d.usage devID instanceID).map (· + res.deviceIDs.count instanceID)
      else d.usage devID instanceID := by
  unfold addReserved
  split
  case h_1 hres =>
    split_ifs with hdev
    · subst hdev
      simp [usage, hres]
    · rfl
  case h_2 =>
    have hmarks : res.deviceIDs.foldl (fun acc id ↦ markUsed acc.1 acc.2 res.id id) (d, false) =
        (res.deviceIDs.map (res.id, ·)).foldl (fun acc m ↦ markUsed acc.1 acc.2 m.1 m.2)
          (d, false) := by
      rw [List.foldl_map]
    rw [hmarks, usage_foldl_markUsed]
    split_ifs with hdev
    · subst hdev
      simp [List.count_map_of_injective _ _ (Prod.mk_right_injective _)]
    · have hzero : (res.deviceIDs.map (res.id, ·)).count (devID, instanceID) = 0 := by
        simp [List.count_eq_zero, Ne.symm hdev]
      simp [hzero]

end DeviceAccounter

/-! ### The new accounter -/

/-- The instance map `NewDeviceAccounter` builds for a group: the healthy instances, each
unused. -/
theorem foldl_healthy_eq (l : List NodeDevice) (is : GoMap String ℕ) :
    l.foldl (fun is inst ↦ if !inst.healthy then is else is.insert inst.id 0) is =
      (l.filter (·.healthy)).foldl (fun is inst ↦ is.insert inst.id 0) is := by
  rw [List.foldl_filter]
  congr 1
  funext is inst
  cases inst.healthy <;> rfl

/-- An instance that the new accounter knows is a healthy instance of a group of the node with
the same identifier, and is free. -/
theorem usage_newDeviceAccounter (n : Node) (devID : DeviceIdTuple) (instanceID : String)
    (k : ℕ) (h : (newDeviceAccounter n).usage devID instanceID = some k) :
    k = 0 ∧ ∃ resources, n.nodeResources = some resources ∧
      ∃ dev ∈ resources.devices, dev.id = devID ∧
        ∃ inst ∈ dev.instances, inst.id = instanceID ∧ inst.healthy = true := by
  obtain ⟨devInst, hdev, hinst⟩ := Option.bind_eq_some_iff.mp h
  simp only [newDeviceAccounter] at hdev
  split at hdev
  case h_1 => simp at hdev
  case h_2 resources hresources =>
    -- the group is the one made from the last device listed under its identifier
    rcases lookup_foldl_insert_eq_some NodeDeviceResource.id _ hdev with hempty | ⟨dev, hmem, hid, rfl⟩
    · simp at hempty
    rw [foldl_healthy_eq] at hinst
    rcases lookup_foldl_insert_eq_some NodeDevice.id (fun _ ↦ 0) hinst with hempty | ⟨inst, hhealthy, hinstID, rfl⟩
    · simp at hempty
    rw [List.mem_filter] at hhealthy
    exact ⟨rfl, resources, hresources, dev, hmem, hid, inst, hhealthy.1, hinstID, hhealthy.2⟩

end Wander.Structs
