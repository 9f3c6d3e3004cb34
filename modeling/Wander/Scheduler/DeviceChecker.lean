import Wander.Structs.Node

/-!
# `scheduler/feasible.go`: the device checker

A task group that requests devices is feasible on a node only if every request can be given
instances of one device group of the node: `DeviceChecker.hasDevices`. The checker keeps, for
each group with healthy instances, how many are still unused, and takes the requests in turn;
each goes to the first group, in the order the map is visited for it, that has enough unused
instances and matches the request (`nodeDeviceMatches`: the group's identifier and the request's
constraints), and uses them up.

The choice is greedy. It is sound: when the checker accepts a node, the groups it chose are an
assignment in which every request matches its group and no group is given more instances than it
has healthy (`Fits`, `hasDevices_sound`), whatever the orders the map is visited in. It is not
complete, and it depends on those orders: a request that two groups can serve may take the group a
later request needs (`hasDevices_depends_on_order`).

Go's `range` visits a map in an order it picks anew for each loop. The model takes that choice as
a parameter, `VisitOrder`: for each request, a rearrangement of the map's entries. The attribute layer
the constraint checks rest on (`psstructs.ParseAttribute`, `Attribute.Compare` and the version
and regular expression matchers) is a parameter, `AttributeOps`; the checks themselves are
modelled.
-/

set_option autoImplicit false
set_option relaxedAutoImplicit false

namespace Wander.Scheduler

open Wander.Lib Wander.Structs GoMap

/-- The operations of `plugins/shared/structs` and of the version and regular expression
libraries that the constraint checks call. `compare` is `Attribute.Compare`, none when the two
attributes are not comparable. -/
structure AttributeOps where
  parseAttribute : String → Attribute
  compare : Attribute → Attribute → Option ℤ
  versionMatch : Attribute → Attribute → Bool
  semverMatch : Attribute → Attribute → Bool
  regexpMatch : String → String → Bool

/-- `checkSetContainsAll`: every trimmed element of the right list is one of the left list's. -/
def checkSetContainsAll (lStr rStr : String) : Bool :=
  let lookup := (split lStr ',').map trimSpace
  (split rStr ',').all fun r ↦ trimSpace r ∈ lookup

/-- `checkSetContainsAny`: some trimmed element of the right list is one of the left list's. -/
def checkSetContainsAny (lStr rStr : String) : Bool :=
  let lookup := (split lStr ',').map trimSpace
  (split rStr ',').any fun r ↦ trimSpace r ∈ lookup

/-- `checkAttributeConstraint`: a target that did not resolve is `none`. -/
def checkAttributeConstraint (ops : AttributeOps) (operand : String)
    (lVal rVal : Option Attribute) : Bool :=
  if operand = constraintDistinctHosts ∨ operand = constraintDistinctProperty then true
  else if operand = "!=" ∨ operand = "not" then
    match lVal, rVal with
    | none, none => false
    | some _, none | none, some _ => true
    | some l, some r => (ops.compare l r).any (· ≠ 0)
  else if operand ∈ ["<", "<=", ">", ">=", "=", "==", "is"] then
    match lVal, rVal with
    | some l, some r =>
      match ops.compare l r with
      | none => false
      | some v =>
        if operand = "is" ∨ operand = "==" ∨ operand = "=" then v = 0
        else if operand = "<" then v = -1
        else if operand = "<=" then v ≠ 1
        else if operand = ">" then v = 1
        else v ≠ -1
    | _, _ => false
  else if operand = "version" ∨ operand = "semver" ∨ operand = "regexp" ∨
      operand = "set_contains" ∨ operand = "set_contains_all" ∨ operand = "set_contains_any" then
    match lVal, rVal with
    | some l, some r =>
      if operand = "version" then ops.versionMatch l r
      else if operand = "semver" then ops.semverMatch l r
      else
        match l.getString, r.getString with
        | some ls, some rs =>
          if operand = "regexp" then ops.regexpMatch ls rs
          else if operand = "set_contains_any" then checkSetContainsAny ls rs
          else checkSetContainsAll ls rs
        | _, _ => false
    | _, _ => false
  else if operand = "is_set" then lVal.isSome
  else if operand = "is_not_set" then lVal.isNone
  else false

/-- `resolveDeviceTarget`: a literal is parsed as an attribute; an interpolation reads the
group's instance identifiers, model, vendor, type or one of its attributes. -/
def resolveDeviceTarget (ops : AttributeOps) (target : String) (d : NodeDeviceResource) :
    Option Attribute :=
  if !hasPrefix target "$\x7b" then some (ops.parseAttribute target)
  else if target = "$\x7bdevice.ids\x7d" then
    some (newStringAttribute (",".intercalate (d.instances.map (·.id))))
  else if target = "$\x7bdevice.model\x7d" then some (newStringAttribute d.name)
  else if target = "$\x7bdevice.vendor\x7d" then some (newStringAttribute d.vendor)
  else if target = "$\x7bdevice.type\x7d" then some (newStringAttribute d.type)
  else if hasPrefix target "$\x7bdevice.attr." then
    d.attributes.lookup (trimSuffix (trimPrefix target "$\x7bdevice.attr.") "\x7d")
  else none

/-- `nodeDeviceMatches`: the group is one the request names, and meets its constraints. The
count is not checked. -/
def nodeDeviceMatches (ops : AttributeOps) (d : NodeDeviceResource) (req : RequestedDevice) :
    Bool :=
  d.id.matches req.id &&
    req.constraints.all fun c ↦
      checkAttributeConstraint ops c.operand (resolveDeviceTarget ops c.lTarget d)
        (resolveDeviceTarget ops c.rTarget d)

/-- `DeviceChecker`, less its context. -/
structure DeviceChecker where
  required : List RequestedDevice := []
  requiresDevices : Bool := false
deriving DecidableEq, Repr

namespace DeviceChecker

/-- `DeviceChecker.SetTaskGroup`: the devices every task of the group requests. -/
def setTaskGroup (_c : DeviceChecker) (tg : TaskGroup) : DeviceChecker :=
  let required := tg.tasks.flatMap (·.resources.devices)
  { required := required, requiresDevices := required.length ≠ 0 }

end DeviceChecker

/-- The healthy instances of a device group. -/
def healthyCount (d : NodeDeviceResource) : ℕ := d.instances.countP (·.healthy)

/-- An entry of the map `hasDevices` keeps: a device group of the node, keyed by its position in
the node's list, and how many of its healthy instances are unused. -/
structure Available where
  index : ℕ
  device : NodeDeviceResource
  unused : ℕ
deriving DecidableEq, Repr

/-- The map `hasDevices` starts from: the groups with a healthy instance, in the node's order. -/
def availableDevices (nodeDevs : List NodeDeviceResource) : List Available :=
  (nodeDevs.zipIdx.map fun (d, i) ↦ ⟨i, d, healthyCount d⟩).filter (·.unused ≠ 0)

/-- One turn of the loop of `hasDevices`: the first group with enough unused instances that
matches the request gives up the request's count; none when no group can. -/
def consume (ops : AttributeOps) (req : RequestedDevice) : List Available → Option (List Available)
  | [] => none
  | a :: rest =>
    if a.unused ≠ 0 ∧ req.count ≤ a.unused ∧ nodeDeviceMatches ops a.device req then
      some ({ a with unused := a.unused - req.count } :: rest)
    else (consume ops req rest).map (a :: ·)

/-- The orders in which `range` visits the map `available` in the loops of `hasDevices`: for the
`i`th request, a rearrangement of the map's entries. -/
structure VisitOrder where
  arrange : ℕ → List Available → List Available
  perm : ∀ i available, (arrange i available).Perm available

/-- Every loop visits the entries as they are listed. -/
def VisitOrder.listed : VisitOrder := ⟨fun _ available ↦ available, fun _ _ ↦ List.Perm.refl _⟩

/-- Every loop visits the entries in the reverse of their listed order. -/
def VisitOrder.reversed : VisitOrder :=
  ⟨fun _ available ↦ available.reverse, fun _ available ↦ List.reverse_perm available⟩

/-- The loop of `hasDevices` over the requests from the `i`th on: each is served by `consume`
over the map in the order `order` picks for it. -/
def consumeAll (ops : AttributeOps) (order : VisitOrder) :
    ℕ → List RequestedDevice → List Available → Option (List Available)
  | _, [], available => some available
  | i, req :: reqs, available =>
    (consume ops req (order.arrange i available)).bind (consumeAll ops order (i + 1) reqs)

namespace DeviceChecker

/-- `DeviceChecker.hasDevices`, with the orders its loops visit the map in. -/
def hasDevices (ops : AttributeOps) (c : DeviceChecker) (order : VisitOrder) (option : Node) :
    Bool :=
  if !c.requiresDevices then true
  else
    match option.nodeResources with
    -- a node without the new resources object has no devices
    | none => false
    | some resources =>
      if resources.devices.length = 0 then false
      else (consumeAll ops order 0 c.required (availableDevices resources.devices)).isSome

end DeviceChecker

/-! ### Assignments of requests to device groups -/

/-- The instances an assignment of requests to groups, by their positions, gives group `i`. -/
def load (reqs : List RequestedDevice) (assign : List ℕ) (i : ℕ) : ℕ :=
  (((reqs.zip assign).filter fun p ↦ p.2 = i).map (·.1.count)).sum

/-- An assignment of each request to a device group of the node, by its position, that the
request matches, such that no group is given more instances than it has healthy. -/
def Fits (ops : AttributeOps) (nodeDevs : List NodeDeviceResource) (reqs : List RequestedDevice)
    (assign : List ℕ) : Prop :=
  List.Forall₂ (fun req i ↦ ∃ d, nodeDevs[i]? = some d ∧ nodeDeviceMatches ops d req = true)
      reqs assign ∧
    ∀ i < nodeDevs.length, load reqs assign i ≤ (nodeDevs[i]?.map healthyCount).getD 0

/-- How many instances the entries of group `i` hold unused. -/
def unusedAt (available : List Available) (i : ℕ) : ℕ :=
  ((available.filter fun a ↦ a.index = i).map (·.unused)).sum

@[simp] theorem unusedAt_nil (i : ℕ) : unusedAt [] i = 0 := rfl

theorem unusedAt_cons (a : Available) (available : List Available) (i : ℕ) :
    unusedAt (a :: available) i = (if a.index = i then a.unused else 0) + unusedAt available i := by
  unfold unusedAt
  by_cases h : a.index = i <;> simp [h]

@[simp] theorem load_nil (i : ℕ) : load [] [] i = 0 := rfl

theorem load_cons (req : RequestedDevice) (reqs : List RequestedDevice) (j : ℕ) (assign : List ℕ)
    (i : ℕ) : load (req :: reqs) (j :: assign) i = (if j = i then req.count else 0) + load reqs assign i := by
  unfold load
  by_cases h : j = i <;> simp [h]

/-- What one turn of the loop does: it gives the request instances of a group of the list that
the request matches and that has enough of them unused, and changes nothing else. -/
theorem consume_spec {ops : AttributeOps} {req : RequestedDevice} {available available' : List Available}
    (h : consume ops req available = some available') :
    ∃ a ∈ available, nodeDeviceMatches ops a.device req = true ∧
      (∀ i, unusedAt available' i + (if a.index = i then req.count else 0) = unusedAt available i) ∧
      ∀ b ∈ available', ∃ b₀ ∈ available, b.index = b₀.index ∧ b.device = b₀.device := by
  induction available generalizing available' with
  | nil => cases h
  | cons a rest ih =>
    unfold consume at h
    split_ifs at h with hfit
    · -- the first group serves the request
      obtain ⟨-, hcount, hmatch⟩ := hfit
      cases h
      refine ⟨a, List.mem_cons_self, hmatch, fun i ↦ ?_, fun b hb ↦ ?_⟩
      · rw [unusedAt_cons, unusedAt_cons]
        dsimp only
        split_ifs <;> omega
      · rcases List.mem_cons.mp hb with rfl | hb
        · exact ⟨a, List.mem_cons_self, rfl, rfl⟩
        · exact ⟨b, List.mem_cons_of_mem a hb, rfl, rfl⟩
    · -- a later group does
      obtain ⟨rest', hrest, rfl⟩ := Option.map_eq_some_iff.mp h
      obtain ⟨a', ha', hmatch, hunused, hkeys⟩ := ih hrest
      refine ⟨a', List.mem_cons_of_mem a ha', hmatch, fun i ↦ ?_, fun b hb ↦ ?_⟩
      · rw [unusedAt_cons, unusedAt_cons, ← hunused i]
        omega
      · rcases List.mem_cons.mp hb with rfl | hb
        · exact ⟨b, List.mem_cons_self, rfl, rfl⟩
        · obtain ⟨b₀, hb₀, hindex, hdevice⟩ := hkeys b hb
          exact ⟨b₀, List.mem_cons_of_mem a hb₀, hindex, hdevice⟩

/-- The unused instances of a group do not depend on the order of the entries. -/
theorem unusedAt_perm {available available' : List Available} (h : available.Perm available')
    (i : ℕ) : unusedAt available i = unusedAt available' i :=
  ((h.filter _).map _).sum_eq

/-- A run of the loop that serves every request is an assignment of the requests to the
positions of matching groups, whose loads are the instances the run used up, whatever the
orders the map is visited in. -/
theorem consumeAll_spec {ops : AttributeOps} {nodeDevs : List NodeDeviceResource}
    (order : VisitOrder) (reqs : List RequestedDevice) {n : ℕ}
    {available availableF : List Available}
    (hdevices : ∀ a ∈ available, nodeDevs[a.index]? = some a.device)
    (h : consumeAll ops order n reqs available = some availableF) :
    ∃ assign, List.Forall₂ (fun req i ↦ ∃ d, nodeDevs[i]? = some d ∧
        nodeDeviceMatches ops d req = true) reqs assign ∧
      ∀ i, unusedAt availableF i + load reqs assign i = unusedAt available i := by
  induction reqs generalizing n available with
  | nil =>
    cases h
    exact ⟨[], .nil, fun i ↦ by simp⟩
  | cons req reqs ih =>
    obtain ⟨available', hconsume, hrest⟩ := Option.bind_eq_some_iff.mp h
    -- the loop for this request visits the same entries, rearranged
    have hperm := order.perm n available
    obtain ⟨a, ha, hmatch, hunused, hkeys⟩ := consume_spec hconsume
    have hdevices' : ∀ b ∈ available', nodeDevs[b.index]? = some b.device := by
      intro b hb
      obtain ⟨b₀, hb₀, hindex, hdevice⟩ := hkeys b hb
      rw [hindex, hdevice]
      exact hdevices b₀ (hperm.mem_iff.mp hb₀)
    obtain ⟨assign, hforall, hload⟩ := ih hdevices' hrest
    refine ⟨a.index :: assign,
      .cons ⟨a.device, hdevices a (hperm.mem_iff.mp ha), hmatch⟩ hforall, fun i ↦ ?_⟩
    rw [load_cons, ← unusedAt_perm hperm, ← hunused i, ← hload i]
    omega

/-- The groups of a list numbered from `n`, with their healthy instances. -/
theorem unusedAt_zipIdx (nodeDevs : List NodeDeviceResource) (n i : ℕ) :
    unusedAt ((nodeDevs.zipIdx n).map fun (d, i) ↦ (⟨i, d, healthyCount d⟩ : Available)) i =
      if n ≤ i then (nodeDevs[i - n]?.map healthyCount).getD 0 else 0 := by
  induction nodeDevs generalizing n with
  | nil => simp
  | cons d nodeDevs ih =>
    rw [List.zipIdx_cons, List.map_cons, unusedAt_cons, ih]
    dsimp only
    rcases Nat.lt_trichotomy i n with hlt | rfl | hgt
    · simp [show ¬ n = i by omega, show ¬ n ≤ i by omega, show ¬ n + 1 ≤ i by omega]
    · simp
    · have hsub : i - n = (i - (n + 1)) + 1 := by omega
      simp [show ¬ n = i by omega, show n ≤ i by omega, show n + 1 ≤ i by omega, hsub]

/-- The map `hasDevices` starts from holds each group's healthy instances. -/
theorem unusedAt_availableDevices (nodeDevs : List NodeDeviceResource) (i : ℕ) :
    unusedAt (availableDevices nodeDevs) i = (nodeDevs[i]?.map healthyCount).getD 0 := by
  -- the groups left out have no unused instance to count
  have hfilter : ∀ l : List Available,
      unusedAt (l.filter (·.unused ≠ 0)) i = unusedAt l i := by
    intro l
    induction l with
    | nil => rfl
    | cons a l ih =>
      by_cases ha : a.unused = 0
      · have hp : decide (a.unused ≠ 0) = false := by simp [ha]
        rw [List.filter_cons, hp, if_neg Bool.false_ne_true, ih, unusedAt_cons, ha]
        simp
      · have hp : decide (a.unused ≠ 0) = true := by simp [ha]
        rw [List.filter_cons, hp, if_pos rfl, unusedAt_cons, unusedAt_cons, ih]
  rw [availableDevices, hfilter, unusedAt_zipIdx]
  simp

theorem device_availableDevices (nodeDevs : List NodeDeviceResource) :
    ∀ a ∈ availableDevices nodeDevs, nodeDevs[a.index]? = some a.device := by
  intro a ha
  obtain ⟨hmem, -⟩ := List.mem_filter.mp ha
  obtain ⟨⟨d, i⟩, hdi, rfl⟩ := List.mem_map.mp hmem
  exact List.mem_zipIdx_iff_getElem?.mp hdi

/-! ### The nodes and groups of the examples

Two NVIDIA device groups, two A100s and one T4, and a task group whose first task asks for any
NVIDIA GPU and whose second asks for two A100s. -/

/-- An attribute layer for the examples: a literal is a string attribute, which is what
`ParseAttribute` makes of a text that is neither a number nor a boolean; no two attributes
compare, and no version or pattern matches. -/
def literalOps : AttributeOps :=
  { parseAttribute := newStringAttribute
    compare := fun _ _ ↦ none
    versionMatch := fun _ _ ↦ false
    semverMatch := fun _ _ ↦ false
    regexpMatch := fun _ _ ↦ false }

/-- Two healthy A100s. -/
def a100Group : NodeDeviceResource :=
  { vendor := "nvidia", type := "gpu", name := "a100"
    instances := [{ id := "a100-0", healthy := true }, { id := "a100-1", healthy := true }] }

/-- One healthy T4. -/
def t4Group : NodeDeviceResource :=
  { vendor := "nvidia", type := "gpu", name := "t4"
    instances := [{ id := "t4-0", healthy := true }] }

/-- A task with one device request. -/
def gpuTask (name : String) (device : RequestedDevice) : Structs.Task :=
  { name := name, driver := "docker", resources := { devices := [device] } }

/-- Any NVIDIA GPU for the first task, two A100s for the second. -/
def gpuGroup : TaskGroup :=
  { name := "train"
    count := 1
    tasks := [gpuTask "any" { name := "nvidia/gpu", count := 1 },
      gpuTask "a100" { name := "nvidia/gpu/a100", count := 2 }] }

/-- A node with the given device groups, in that order. -/
def gpuNode (devices : List NodeDeviceResource) : Node :=
  { id := "n1", nodeResources := some { devices := devices } }

/-- The checker set up for the group. -/
def gpuChecker : DeviceChecker := ({} : DeviceChecker).setTaskGroup gpuGroup

namespace DeviceChecker

/-- When the checker accepts a node, its choices are an assignment of the requests to the node's
device groups that they match, within the groups' healthy instances. -/
theorem hasDevices_sound (ops : AttributeOps) (c : DeviceChecker) (order : VisitOrder)
    (option : Node) (h : c.hasDevices ops order option = true) :
    c.requiresDevices = false ∨
      ∃ resources, option.nodeResources = some resources ∧
        ∃ assign, Fits ops resources.devices c.required assign := by
  unfold hasDevices at h
  cases hreq : c.requiresDevices
  · exact Or.inl rfl
  · right
    rw [hreq] at h
    cases hres : option.nodeResources with
    | none => simp [hres] at h
    | some resources =>
      refine ⟨resources, rfl, ?_⟩
      simp only [hres, Bool.not_true, Bool.false_eq_true, if_false] at h
      split_ifs at h
      obtain ⟨availableF, hrun⟩ := Option.isSome_iff_exists.mp h
      obtain ⟨assign, hforall, hload⟩ :=
        consumeAll_spec order c.required (device_availableDevices resources.devices) hrun
      refine ⟨assign, hforall, fun i _ ↦ ?_⟩
      rw [← unusedAt_availableDevices, ← hload i]
      omega

theorem hasDevices_sound_gpuNode :
    gpuChecker.hasDevices literalOps .reversed (gpuNode [a100Group, t4Group]) = true ∧
      (gpuChecker.requiresDevices = false ∨
        ∃ resources, (gpuNode [a100Group, t4Group]).nodeResources = some resources ∧
          ∃ assign, Fits literalOps resources.devices gpuChecker.required assign) :=
  have h : gpuChecker.hasDevices literalOps .reversed (gpuNode [a100Group, t4Group]) = true := by
    decide
  ⟨h, hasDevices_sound literalOps gpuChecker _ _ h⟩

/-- On a node listing the A100s before the T4: when the loops visit the A100s first, the request
for any GPU takes one of them and the request for two finds one left, although the T4 could serve
the first request and leave both A100s to the second. When they visit the T4 first, the same
requests fit. This holds whatever the attribute layer, since no request has a constraint. -/
theorem hasDevices_depends_on_order (ops : AttributeOps) :
    gpuChecker.hasDevices ops .listed (gpuNode [a100Group, t4Group]) = false ∧
      Fits ops [a100Group, t4Group] gpuChecker.required [1, 0] ∧
      gpuChecker.hasDevices ops .reversed (gpuNode [a100Group, t4Group]) = true :=
  ⟨rfl, ⟨.cons ⟨t4Group, rfl, rfl⟩ (.cons ⟨a100Group, rfl, rfl⟩ .nil), by decide⟩, rfl⟩

end DeviceChecker

end Wander.Scheduler
