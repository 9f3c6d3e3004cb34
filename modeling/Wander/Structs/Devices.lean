import Mathlib.Data.Rat.Init
import Wander.Lib.GoMap
import Wander.Lib.Strings
import Wander.Structs.Constraint

/-!
# Devices

The device structures of `nomad/structs` that a node fingerprints, a task requests and an
allocation holds. A device group of a node is identified by its vendor, type and name
(`DeviceIdTuple`); a request names a type, a vendor and type, or all three, and `matches` says
which groups it selects. Device attributes are `psstructs.Attribute`s; the numbers of an
attribute are kept as exact values, the source's `float64` as a rational.
-/

set_option autoImplicit false
set_option relaxedAutoImplicit false

namespace Wander.Structs

open Wander.Lib

/-- `psstructs.Attribute`: a float, an integer, a string or a boolean, with the unit of a
number. -/
structure Attribute where
  float : Option ℚ := none
  int : Option ℤ := none
  string : Option String := none
  bool : Option Bool := none
  unit : String := ""
deriving DecidableEq, Repr

/-- `psstructs.NewStringAttribute`. -/
def newStringAttribute (s : String) : Attribute := { string := some s }

/-- `Attribute.GetString`. -/
def Attribute.getString (a : Attribute) : Option String := a.string

/-- The fields of `structs.NodeDevice` that the scheduler reads. -/
structure NodeDevice where
  id : String := ""
  healthy : Bool := false
deriving DecidableEq, Repr

/-- `structs.NodeDeviceResource`: one device group of a node. -/
structure NodeDeviceResource where
  vendor : String := ""
  type : String := ""
  name : String := ""
  instances : List NodeDevice := []
  attributes : GoMap String Attribute := ∅
deriving DecidableEq, Repr

/-- `structs.DeviceIdTuple`. -/
structure DeviceIdTuple where
  vendor : String := ""
  type : String := ""
  name : String := ""
deriving DecidableEq, Repr

/-- `NodeDeviceResource.ID`. -/
def NodeDeviceResource.id (n : NodeDeviceResource) : DeviceIdTuple := ⟨n.vendor, n.type, n.name⟩

/-- `DeviceIdTuple.Matches`: each part the other tuple names is this one's. -/
def DeviceIdTuple.matches (id : DeviceIdTuple) (other : Option DeviceIdTuple) : Bool :=
  match other with
  | none => false
  | some other =>
    (other.name == "" || other.name == id.name) &&
      (other.vendor == "" || other.vendor == id.vendor) &&
      (other.type == "" || other.type == id.type)

/-- `structs.RequestedDevice`: a device name, such as `nvidia/gpu`, and how many instances. -/
structure RequestedDevice where
  name : String := ""
  count : ℕ := 0
  constraints : List Constraint := []
  affinities : List Affinity := []
deriving DecidableEq, Repr

/-- `RequestedDevice.Equal`. -/
def RequestedDevice.equal (r o : RequestedDevice) : Bool :=
  r.name == o.name && r.count == o.count && constraintsEqual r.constraints o.constraints &&
    affinitiesEqual r.affinities o.affinities

@[simp] theorem RequestedDevice.equal_self (r : RequestedDevice) : r.equal r = true := by
  simp [RequestedDevice.equal, constraintsEqual, affinitiesEqual]

/-- `ResourceDevices.Equal`: lists of devices compared as sets keyed by name, the last device of
a name in the first list standing for that name. -/
def resourceDevicesEqual (d o : List RequestedDevice) : Bool :=
  let m := d.foldl (fun m e ↦ m.insert e.name e) (∅ : GoMap String RequestedDevice)
  d.length == o.length && o.all fun oe ↦
    match m.lookup oe.name with
    | none => false
    | some de => de.equal oe

/-- A list of devices of distinct names equals itself. -/
theorem resourceDevicesEqual_self (d : List RequestedDevice) (hd : (d.map (·.name)).Nodup) :
    resourceDevicesEqual d d = true := by
  simp only [resourceDevicesEqual, beq_self_eq_true, Bool.true_and, List.all_eq_true]
  intro e he
  rw [GoMap.lookup_foldl_insert_of_nodup (·.name) d hd ∅ he]
  exact RequestedDevice.equal_self e

/-- `RequestedDevice.ID`: the name split at its first two slashes into a type, a vendor and type,
or a vendor, type and name; none for an empty name. -/
def RequestedDevice.id (r : RequestedDevice) : Option DeviceIdTuple :=
  if r.name = "" then none
  else
    match split r.name '/' with
    | [] => none
    | [type] => some { type := type }
    | [vendor, type] => some { vendor := vendor, type := type }
    | vendor :: type :: rest => some { vendor := vendor, type := type, name := "/".intercalate rest }

/-- `structs.AllocatedDeviceResource`: the instances of one device group given to a task. -/
structure AllocatedDeviceResource where
  vendor : String := ""
  type : String := ""
  name : String := ""
  deviceIDs : List String := []
deriving DecidableEq, Repr

/-- `AllocatedDeviceResource.ID`. -/
def AllocatedDeviceResource.id (a : AllocatedDeviceResource) : DeviceIdTuple :=
  ⟨a.vendor, a.type, a.name⟩

end Wander.Structs
