import Mathlib.Data.Stream.Defs
import Wander.Structs.Bitmap
import Wander.Structs.Node
import Wander.Structs.Alloc

/-!
# The network index

`structs.NetworkIndex` (`nomad/structs/network.go`): the addresses of a node by host network and
the ports used at each address, which the scheduler builds for a node with `SetNode` and
`AddAllocs` and asks for ports with `AssignPorts`.

The fields kept are those the three read: `TaskNetworks`, `GroupNetworks` and the bandwidth maps
serve the deprecated `task.resources.network` asks and are left out. Go's bitmaps are slices, so
a port set in the bitmap `getUsedPortsFor` returns is set in the index; here the changed bitmap
is stored back. `AssignPorts` draws dynamic ports with `rand.Intn`, which reads the next number
of a stream of draws here: a result that holds for every stream holds for every run of the
randomness. A call that fails drops the clear bitmaps `getUsedPortsFor` stored on the way, which
read as absent ones.

`assignPorts_offerMeets` is the contract of `AssignPorts`: its offer has the reserved ports of
the ask at an address of their host network where they are free, and dynamic ports inside the
dynamic range, free at their address, distinct from one another and from every reserved port.
The range is the node's as `SetNode` sets it, and `SetNode` does not check that its ends are in
order: a node whose minimum is above its maximum gets dynamic ports above the maximum
(`assignPorts_above_maxDynamicPort`). Nor does `ParsePortRanges` keep the reserved ports below the
bitmaps' size (`parsePortRanges_accepts_maxValidPort`): Go's `Set` panics on such a port, and
here it changes nothing.
-/

set_option autoImplicit false
set_option relaxedAutoImplicit false

namespace Wander.Structs

open Wander.Lib

/-- `structs.DefaultMinDynamicPort`. -/
def defaultMinDynamicPort : ℤ := 20000

/-- `structs.DefaultMaxDynamicPort`. -/
def defaultMaxDynamicPort : ℤ := 32000

/-- `structs.maxRandPortAttempts`. -/
def maxRandPortAttempts : ℕ := 20

/-- The fields of `structs.NetworkIndex` that `SetNode`, `AddAllocs` and `AssignPorts` read. -/
structure NetworkIndex where
  hostNetworks : GoMap String (List NodeNetworkAddress) := ∅
  usedPorts : GoMap String Bitmap := ∅
  minDynamicPort : ℤ := defaultMinDynamicPort
  maxDynamicPort : ℤ := defaultMaxDynamicPort
deriving DecidableEq

/-- `structs.NewNetworkIndex`. -/
def newNetworkIndex : NetworkIndex := {}

/-- A bitmap of `MaxValidPort` clear bits: what `NewBitmap(MaxValidPort)` builds, and what a
bitmap from the pool is once cleared, the pool holding only bitmaps of that size. -/
def clearPortBitmap : Bitmap where
  bits := List.replicate maxValidPort false
  size_pos := by rw [List.length_replicate]; decide
  byte_aligned := by rw [List.length_replicate]; decide

/-- `rand.Intn(n)` on the draws `r`: the first draw modulo `n`, and the draws after it. -/
def intn (n : ℕ) (r : Stream' ℕ) : ℕ × Stream' ℕ := (r.head % n, r.tail)

namespace NetworkIndex

/-- `NetworkIndex.getUsedPortsFor`: the bitmap of `ip`, created clear and stored when there is
none. -/
def getUsedPortsFor (idx : NetworkIndex) (ip : String) : Bitmap × NetworkIndex :=
  match idx.usedPorts.lookup ip with
  | some used => (used, idx)
  | none => (clearPortBitmap, { idx with usedPorts := idx.usedPorts.insert ip clearPortBitmap })

/-- The bitmap of `ip` after the code changed the one `getUsedPortsFor` returned. -/
def storeUsedPorts (idx : NetworkIndex) (ip : String) (used : Bitmap) : NetworkIndex :=
  { idx with usedPorts := idx.usedPorts.insert ip used }

/-- Whether the bitmap of `ip` has bit `n`; an address without a bitmap has none. -/
def usedAt (idx : NetworkIndex) (ip : String) (n : ℕ) : Bool :=
  match idx.usedPorts.lookup ip with
  | some used => used.check n
  | none => false

/-- The ports `ports` marked used at `ip`, through `getUsedPortsFor`, as the loops of `SetNode`
mark them. -/
def setPortsFor (idx : NetworkIndex) (ip : String) (ports : List ℕ) : NetworkIndex :=
  let (used, idx) := idx.getUsedPortsFor ip
  idx.storeUsedPorts ip (ports.foldl Bitmap.set used)

/-! ### SetNode -/

/-- The networks `SetNode` takes for the deprecated task networks: those of `NodeResources` when
it has some, else those of the deprecated `Resources`. -/
def taskNetworks (node : Node) : List NetworkResource :=
  let resourcesNetworks := (node.resources.map Resources.networks).getD []
  match node.nodeResources with
  | some nr => if nr.networks.length ≠ 0 then nr.networks else resourcesNetworks
  | none => resourcesNetworks

/-- The ports of one network of the deprecated `Node.Reserved`: each is checked, added to the
global reserved ports and set in the bitmap `used`. -/
def reserveCompatPorts : Bitmap → List ℕ → List Port → Except String (Bitmap × List ℕ)
  | used, globalResPorts, [] => .ok (used, globalResPorts)
  | used, globalResPorts, p :: ps =>
    let value := p.value
    if value > maxValidPort ∨ value < 0 then .error s!"invalid port {value} for reserved_ports"
    else reserveCompatPorts (used.set (uintOfInt value)) (globalResPorts ++ [uintOfInt value]) ps

/-- The networks of the deprecated `Node.Reserved`, each at the bitmap of its IP. -/
def reserveCompatNetworks :
    NetworkIndex → List ℕ → List NetworkResource → Except String (List ℕ × NetworkIndex)
  | idx, globalResPorts, [] => .ok (globalResPorts, idx)
  | idx, globalResPorts, n :: ns =>
    let (used, idx) := idx.getUsedPortsFor n.ip
    match reserveCompatPorts used globalResPorts (n.reservedPorts ++ n.dynamicPorts) with
    | .error e => .error e
    | .ok (used, globalResPorts) => reserveCompatNetworks (idx.storeUsedPorts n.ip used) globalResPorts ns

/-- The global reserved ports of a node without `reserved_ports`: those of the deprecated
`Node.Reserved`, whose networks get them set in their bitmaps on the way. -/
def compatReservedPorts (idx : NetworkIndex) (node : Node) :
    Except String (List ℕ × NetworkIndex) :=
  match node.reserved with
  | some r => reserveCompatNetworks idx [] r.networks
  | none => .ok ([], idx)

/-- The first part of `SetNode`: the ports reserved on every address, from the node's
`reserved_ports`, or else from the deprecated `Node.Reserved`. -/
def globalReservedPorts (idx : NetworkIndex) (node : Node) :
    Except String (List ℕ × NetworkIndex) :=
  match node.reservedResources with
  | some rr =>
    if rr.reservedHostPorts ≠ "" then
      match parsePortRanges rr.reservedHostPorts with
      | .error err => .error s!"error parsing reserved_ports: {err}"
      | .ok resPorts => .ok (resPorts, idx)
    else idx.compatReservedPorts node
  | none => idx.compatReservedPorts node

/-- One address of the node networks in `SetNode`: indexed under its alias, with the global
reserved ports and its own reserved ports marked used. -/
def indexAddress (globalResPorts : List ℕ) (idx : NetworkIndex) (a : NodeNetworkAddress) :
    Except String NetworkIndex :=
  let idx := { idx with
    hostNetworks := idx.hostNetworks.insert a.alias (idx.hostNetworks.get a.alias [] ++ [a]) }
  let idx := idx.setPortsFor a.address globalResPorts
  if a.reservedPorts ≠ "" then
    match parsePortRanges a.reservedPorts with
    | .error err =>
      let q := quoted a.alias
      .error s!"error parsing reserved_ports for network {q}: {err}"
    | .ok rp => .ok (idx.setPortsFor a.address rp)
  else .ok idx

/-- The last part of `SetNode`: the node's dynamic port range, where it reports a positive end. -/
def setDynamicPortRange (idx : NetworkIndex) (node : Node) : NetworkIndex :=
  match node.nodeResources with
  | some nr =>
    { idx with
      minDynamicPort := if nr.minDynamicPort > 0 then nr.minDynamicPort else idx.minDynamicPort
      maxDynamicPort := if nr.maxDynamicPort > 0 then nr.maxDynamicPort else idx.maxDynamicPort }
  | none => idx

/-- `NetworkIndex.SetNode`. -/
def setNode (idx : NetworkIndex) (node : Node) : Except String NetworkIndex := do
  let (globalResPorts, idx) ← idx.globalReservedPorts node
  -- task networks without a device, such as a bridge, cannot fulfil asks
  let idx := (taskNetworks node).foldl
    (fun idx n ↦ if n.device ≠ "" then idx.setPortsFor n.ip globalResPorts else idx) idx
  let nodeNetworks := match node.nodeResources with
    | some nr => nr.nodeNetworks
    | none => []
  let idx ← (nodeNetworks.flatMap NodeNetworkResource.addresses).foldlM
    (indexAddress globalResPorts) idx
  pure (idx.setDynamicPortRange node)

/-! ### AddAllocs -/

/-- The port loop of `AddReserved` on the bitmap `used`: a used port is a collision, a free one
is set, and an invalid one ends the loop with only its own reason. -/
def reservePortList : Bitmap → Bool × List String → List Port → Bitmap × Bool × List String
  | used, (collide, reasons), [] => (used, collide, reasons)
  | used, (collide, reasons), port :: ports =>
    let value := port.value
    if value < 0 ∨ value ≥ maxValidPort then (used, true, [s!"invalid port {value}"])
    else if used.check (uintOfInt value) then
      reservePortList used (true, reasons ++ [s!"port {value} already in use"]) ports
    else reservePortList (used.set (uintOfInt value)) (collide, reasons) ports

/-- `NetworkIndex.AddReserved`. -/
def addReserved (idx : NetworkIndex) (n : NetworkResource) : NetworkIndex × Bool × List String :=
  let (used, idx) := idx.getUsedPortsFor n.ip
  let (used, collide, reasons) := reservePortList used (false, []) (n.reservedPorts ++ n.dynamicPorts)
  (idx.storeUsedPorts n.ip used, collide, reasons)

/-- The loop of `AddReservedPorts`, each port at the bitmap of its host IP. -/
def addReservedPortsFrom :
    NetworkIndex → Bool × List String → List AllocatedPortMapping → NetworkIndex × Bool × List String
  | idx, (collide, reasons), [] => (idx, collide, reasons)
  | idx, (collide, reasons), port :: ports =>
    let (used, idx) := idx.getUsedPortsFor port.hostIP
    let value := port.value
    if value < 0 ∨ value ≥ maxValidPort then (idx, true, [s!"invalid port {value}"])
    else if used.check (uintOfInt value) then
      addReservedPortsFrom idx (true, reasons ++ [s!"port {value} already in use"]) ports
    else
      addReservedPortsFrom (idx.storeUsedPorts port.hostIP (used.set (uintOfInt value)))
        (collide, reasons) ports

/-- `NetworkIndex.AddReservedPorts`. -/
def addReservedPorts (idx : NetworkIndex) (ports : List AllocatedPortMapping) :
    NetworkIndex × Bool × List String :=
  addReservedPortsFrom idx (false, []) ports

/-- `AddReserved` of one network inside `AddAllocs`: a collision sets `collide` and the reason
`why` gives for the reasons `AddReserved` returns. -/
def addReservedNoting (why : List String → String) (acc : NetworkIndex × Bool × String)
    (n : NetworkResource) : NetworkIndex × Bool × String :=
  let (idx, collide, reason) := acc
  let (idx, c, r) := idx.addReserved n
  if c then (idx, true, why r) else (idx, collide, reason)

/-- The first network of each task's resources, reserved by `AddAllocs`; `deprecated` is the
prefix of the reason for the resources of allocations from before 0.9. -/
def addTaskNetworks {R : Type} (networks : R → List NetworkResource) (deprecated allocID : String)
    (acc : NetworkIndex × Bool × String) (tasks : GoMap String R) : NetworkIndex × Bool × String :=
  tasks.entries.foldl (fun acc e ↦
    match networks e.2 with
    | [] => acc
    | n :: _ =>
      let task := e.1
      let ip := n.ip
      addReservedNoting (fun r ↦
        let rs := formatStrings r
        s!"{deprecated}collision when reserving port for network {ip} in task {task} of alloc {allocID}: {rs}")
        acc n) acc

/-- One allocation of `AddAllocs`. -/
def addAlloc (acc : NetworkIndex × Bool × String) (alloc : Allocation) :
    NetworkIndex × Bool × String :=
  let allocID := alloc.id
  -- terminal allocations use no ports
  if alloc.clientTerminalStatus then acc
  else match alloc.allocatedResources with
    | some ar =>
      if ar.shared.ports.length > 0 then
        let (idx, collide, reason) := acc
        let (idx, c, r) := idx.addReservedPorts ar.shared.ports
        let rs := formatStrings r
        if c then (idx, true, s!"collision when reserving port for alloc {allocID}: {rs}")
        else (idx, collide, reason)
      else
        let acc := ar.shared.networks.foldl (fun acc network ↦
          let ip := network.ip
          addReservedNoting (fun r ↦
            let rs := formatStrings r
            s!"collision when reserving port for network {ip} in alloc {allocID}: {rs}")
            acc network) acc
        addTaskNetworks AllocatedTaskResources.networks "" allocID acc ar.tasks
    | none => addTaskNetworks Resources.networks "(deprecated) " allocID acc alloc.taskResources

/-- `NetworkIndex.AddAllocs`: the index, whether some port collided, and the reason of the last
collision. -/
def addAllocs (idx : NetworkIndex) (allocs : List Allocation) : NetworkIndex × Bool × String :=
  allocs.foldl addAlloc (idx, false, "")

end NetworkIndex

/-! ### Dynamic ports -/

/-- `isPortReserved`: whether `needle` is in `haystack`. -/
def isPortReserved (haystack : List ℤ) (needle : ℤ) : Bool := haystack.any (· == needle)

/-- The port one attempt of `getDynamicPortsStochastic` probes: the minimum plus a draw below the
width of the range, or the minimum when the range has no width. -/
def probePort (minDynamicPort maxDynamicPort : ℤ) (r : Stream' ℕ) : ℤ × Stream' ℕ :=
  if maxDynamicPort - minDynamicPort > 0 then
    let (d, r) := intn (maxDynamicPort - minDynamicPort).toNat r
    (minDynamicPort + d, r)
  else (minDynamicPort, r)

/-- The label `PICK` of `getDynamicPortsStochastic` with `attempts` probes left: a random port of
the range, taken when it is free in `nodeUsed` and in none of `reserved`, `dynamic` and
`portsInOffer`. -/
def pickStochastic (nodeUsed : Option Bitmap) (portsInOffer : List ℤ)
    (minDynamicPort maxDynamicPort : ℤ) (reserved dynamic : List ℤ) :
    ℕ → Stream' ℕ → Option ℤ × Stream' ℕ
  | 0, r => (none, r)
  | attempts + 1, r =>
    let (randPort, r) := probePort minDynamicPort maxDynamicPort r
    if (nodeUsed.any fun used ↦ used.check (uintOfInt randPort)) ||
        isPortReserved reserved randPort || isPortReserved dynamic randPort ||
        portsInOffer.contains randPort then
      pickStochastic nodeUsed portsInOffer minDynamicPort maxDynamicPort reserved dynamic attempts r
    else (some randPort, r)

/-- The port loop of `getDynamicPortsStochastic`, with `count` ports still to pick. -/
def stochasticPorts (nodeUsed : Option Bitmap) (portsInOffer : List ℤ)
    (minDynamicPort maxDynamicPort : ℤ) (reserved : List ℤ) :
    ℕ → List ℤ → Stream' ℕ → Except String (List ℤ) × Stream' ℕ
  | 0, dynamic, r => (.ok dynamic, r)
  | count + 1, dynamic, r =>
    match pickStochastic nodeUsed portsInOffer minDynamicPort maxDynamicPort reserved dynamic
        maxRandPortAttempts r with
    | (some randPort, r) =>
      stochasticPorts nodeUsed portsInOffer minDynamicPort maxDynamicPort reserved count
        (dynamic ++ [randPort]) r
    | (none, r) => (.error "stochastic dynamic port selection failed", r)

/-- `getDynamicPortsStochastic`. -/
def getDynamicPortsStochastic (nodeUsed : Option Bitmap) (portsInOffer : List ℤ)
    (minDynamicPort maxDynamicPort : ℤ) (reservedPorts : List Port) (count : ℕ)
    (r : Stream' ℕ) : Except String (List ℤ) × Stream' ℕ :=
  stochasticPorts nodeUsed portsInOffer minDynamicPort maxDynamicPort
    (reservedPorts.map Port.value) count [] r

/-- The shuffle of `getDynamicPortsPrecise`: entry `i` and the `n` after it each swapped with a
random entry among the first `numAvailable`. -/
def swapPrefix (numAvailable : ℕ) : ℕ → ℕ → List ℤ → Stream' ℕ → List ℤ × Stream' ℕ
  | _, 0, ports, r => (ports, r)
  | i, n + 1, ports, r =>
    let (j, r) := intn numAvailable r
    let portI := ports.getD i 0
    let portJ := ports.getD j 0
    swapPrefix numAvailable (i + 1) n ((ports.set i portJ).set j portI) r

/-- `getDynamicPortsPrecise`. Copying a bitmap fails only for a nil one. -/
def getDynamicPortsPrecise (nodeUsed : Option Bitmap) (portsInOffer : List ℤ)
    (minDynamicPort maxDynamicPort : ℤ) (reserved : List Port) (numDyn : ℕ) (r : Stream' ℕ) :
    Except String (List ℤ) × Stream' ℕ :=
  let usedSet : Except String Bitmap := match nodeUsed with
    | some used => .ok used
    | none => Bitmap.newBitmap maxValidPort
  match usedSet with
  | .error e => (.error e, r)
  | .ok usedSet =>
    let usedSet := reserved.foldl (fun b port ↦ b.set (uintOfInt port.value)) usedSet
    let availablePorts := (usedSet.indexesInRangeFiltered false (uintOfInt minDynamicPort)
      (uintOfInt maxDynamicPort) portsInOffer).map Int.ofNat
    if availablePorts.length < numDyn then (.error "dynamic port selection failed", r)
    else
      let (ports, r) := swapPrefix availablePorts.length 0 numDyn availablePorts r
      (.ok (ports.take numDyn), r)

/-! ### AssignPorts -/

/-- The variables `AssignPorts` carries through its loops: the offer, the port values in it,
and the reserved ports of the ask by host network. -/
structure PortOffer where
  offer : List AllocatedPortMapping := []
  portsInOffer : List ℤ := []
  reservedIdx : GoMap String (List Port) := ∅

namespace NetworkIndex

/-- A reserved port of `AssignPorts`, at the first address of its host network. -/
def reservePort (idx : NetworkIndex) (port : Port) : Except String AllocatedPortMapping × NetworkIndex :=
  let hostNetwork := port.hostNetwork
  match idx.hostNetworks.get port.hostNetwork [] with
  | [] => (.error s!"no addresses available for {hostNetwork} network", idx)
  | addr :: _ =>
    let (used, idx) := idx.getUsedPortsFor addr.address
    let value := port.value
    let label := port.label
    if value < 0 ∨ value ≥ maxValidPort then (.error s!"invalid port {value} (out of range)", idx)
    else if used.check (uintOfInt value) then
      (.error s!"reserved port collision {label}={value}", idx)
    else (.ok { label, value, «to» := port.to, hostIP := addr.address }, idx)

/-- The reserved-port loop of `AssignPorts`. -/
def assignReservedPorts : NetworkIndex → PortOffer → List Port → Except String (PortOffer × NetworkIndex)
  | idx, o, [] => .ok (o, idx)
  | idx, o, port :: ports =>
    let reservedIdx := o.reservedIdx.insert port.hostNetwork
      (o.reservedIdx.get port.hostNetwork [] ++ [port])
    match idx.reservePort port with
    | (.ok m, idx) =>
      assignReservedPorts idx
        { offer := o.offer ++ [m], portsInOffer := o.portsInOffer ++ [m.value], reservedIdx } ports
    | (.error e, _) => .error e

/-- The mapping `AssignPorts` offers for the dynamic port `port` at `hostIP` with the value
`value`: a `To` of -1 means the value itself. -/
def dynamicPortMapping (port : Port) (hostIP : String) (value : ℤ) : AllocatedPortMapping :=
  { label := port.label, value, «to» := if port.to = -1 then value else port.to, hostIP }

/-- A dynamic port of `AssignPorts`, tried at the addresses `addrs` of its host network in turn:
at each, the stochastic pick, and the precise search when that fails; `addrErr` is the error of
the last address tried. -/
def dynamicPortAt (portsInOffer : List ℤ) (reserved : List Port) (port : Port) :
    NetworkIndex → Option String → List NodeNetworkAddress → Stream' ℕ →
      Except String AllocatedPortMapping × NetworkIndex × Stream' ℕ
  | idx, addrErr, [], r =>
    let hostNetwork := port.hostNetwork
    (.error (addrErr.getD s!"no addresses available for {hostNetwork} network"), idx, r)
  | idx, _, addr :: addrs, r =>
    let (used, idx) := idx.getUsedPortsFor addr.address
    match getDynamicPortsStochastic (some used) portsInOffer idx.minDynamicPort
        idx.maxDynamicPort reserved 1 r with
    | (.ok dynPorts, r) => (.ok (dynamicPortMapping port addr.address (dynPorts.getD 0 0)), idx, r)
    | (.error _, r) =>
      match getDynamicPortsPrecise (some used) portsInOffer idx.minDynamicPort
          idx.maxDynamicPort reserved 1 r with
      | (.ok dynPorts, r) =>
        (.ok (dynamicPortMapping port addr.address (dynPorts.getD 0 0)), idx, r)
      | (.error e, r) => dynamicPortAt portsInOffer reserved port idx (some e) addrs r

/-- The dynamic-port loop of `AssignPorts`. -/
def assignDynamicPorts : NetworkIndex → PortOffer → List Port → Stream' ℕ →
    Except String (PortOffer × NetworkIndex) × Stream' ℕ
  | idx, o, [], r => (.ok (o, idx), r)
  | idx, o, port :: ports, r =>
    match dynamicPortAt o.portsInOffer (o.reservedIdx.get port.hostNetwork []) port idx none
        (idx.hostNetworks.get port.hostNetwork []) r with
    | (.ok m, idx, r) =>
      assignDynamicPorts idx { o with offer := o.offer ++ [m], portsInOffer := o.portsInOffer ++ [m.value] }
        ports r
    | (.error e, _, r) => (.error e, r)

/-- `NetworkIndex.AssignPorts`: the offer and the index, whose `getUsedPortsFor` calls may have
stored clear bitmaps. -/
def assignPorts (idx : NetworkIndex) (ask : NetworkResource) (r : Stream' ℕ) :
    Except String (List AllocatedPortMapping × NetworkIndex) × Stream' ℕ :=
  match idx.assignReservedPorts {} ask.reservedPorts with
  | .error e => (.error e, r)
  | .ok (o, idx) =>
    match idx.assignDynamicPorts o ask.dynamicPorts r with
    | (.ok (o, idx), r) => (.ok (o.offer, idx), r)
    | (.error e, r) => (.error e, r)

/-! ### What the calls leave of the index -/

theorem check_clearPortBitmap (n : ℕ) : clearPortBitmap.check n = false := by
  simp only [clearPortBitmap, Bitmap.check, List.getD_eq_getElem?_getD, List.getElem?_replicate]
  split <;> rfl

/-- `ParsePortRanges` bounds its ports with `port > MaxValidPort`, so it accepts `MaxValidPort`
itself, one past the last bit of the bitmaps `SetNode` sets its result in. -/
theorem parsePortRanges_accepts_maxValidPort :
    parsePortRanges "65536" = .ok [maxValidPort] ∧ clearPortBitmap.size ≤ maxValidPort := by
  refine ⟨by decide, ?_⟩
  show (List.replicate maxValidPort false).length ≤ maxValidPort
  rw [List.length_replicate]

/-- `idx'` has the host networks and the dynamic range of `idx`: what a call that changes used
ports only leaves. -/
structure UsedPortsOnly (idx idx' : NetworkIndex) : Prop where
  hostNetworks_eq : idx'.hostNetworks = idx.hostNetworks
  minDynamicPort_eq : idx'.minDynamicPort = idx.minDynamicPort
  maxDynamicPort_eq : idx'.maxDynamicPort = idx.maxDynamicPort

theorem UsedPortsOnly.refl (idx : NetworkIndex) : UsedPortsOnly idx idx := ⟨rfl, rfl, rfl⟩

theorem UsedPortsOnly.trans {idx₁ idx₂ idx₃ : NetworkIndex} (h₁ : UsedPortsOnly idx₁ idx₂)
    (h₂ : UsedPortsOnly idx₂ idx₃) : UsedPortsOnly idx₁ idx₃ :=
  ⟨h₂.hostNetworks_eq.trans h₁.hostNetworks_eq, h₂.minDynamicPort_eq.trans h₁.minDynamicPort_eq,
    h₂.maxDynamicPort_eq.trans h₁.maxDynamicPort_eq⟩

/-- `idx'` reads as `idx` for `AssignPorts`: besides the host networks and the dynamic range, the
same ports are used at every address, whatever clear bitmaps were stored. -/
structure ReadsAs (idx idx' : NetworkIndex) : Prop extends UsedPortsOnly idx idx' where
  usedAt_eq : ∀ ip n, idx'.usedAt ip n = idx.usedAt ip n

theorem ReadsAs.refl (idx : NetworkIndex) : ReadsAs idx idx := ⟨UsedPortsOnly.refl idx, fun _ _ ↦ rfl⟩

theorem ReadsAs.trans {idx₁ idx₂ idx₃ : NetworkIndex} (h₁ : ReadsAs idx₁ idx₂)
    (h₂ : ReadsAs idx₂ idx₃) : ReadsAs idx₁ idx₃ :=
  ⟨h₁.toUsedPortsOnly.trans h₂.toUsedPortsOnly, fun ip n ↦ (h₂.usedAt_eq ip n).trans (h₁.usedAt_eq ip n)⟩

theorem usedPortsOnly_storeUsedPorts (idx : NetworkIndex) (ip : String) (used : Bitmap) :
    UsedPortsOnly idx (idx.storeUsedPorts ip used) := ⟨rfl, rfl, rfl⟩

theorem check_getUsedPortsFor (idx : NetworkIndex) (ip : String) (n : ℕ) :
    (idx.getUsedPortsFor ip).1.check n = idx.usedAt ip n := by
  unfold getUsedPortsFor usedAt
  split <;> simp_all [check_clearPortBitmap]

/-- `getUsedPortsFor` stores at most a clear bitmap, which reads as none. -/
theorem readsAs_getUsedPortsFor (idx : NetworkIndex) (ip : String) :
    ReadsAs idx (idx.getUsedPortsFor ip).2 := by
  unfold getUsedPortsFor
  split
  · exact ReadsAs.refl idx
  · rename_i hnone
    refine ⟨⟨rfl, rfl, rfl⟩, fun ip' n ↦ ?_⟩
    by_cases hip : ip' = ip
    · subst hip
      simp [usedAt, hnone, check_clearPortBitmap]
    · simp [usedAt, AList.lookup_insert_ne hip]

theorem usedPortsOnly_setPortsFor (idx : NetworkIndex) (ip : String) (ports : List ℕ) :
    UsedPortsOnly idx (idx.setPortsFor ip ports) :=
  (readsAs_getUsedPortsFor idx ip).toUsedPortsOnly.trans (usedPortsOnly_storeUsedPorts _ _ _)

/-! ### Reserved ports -/

/-- What `AssignPorts` offers for a reserved port of the ask: the port itself, at an address of
its host network whose bitmap does not have it. -/
structure ReservedOffered (idx : NetworkIndex) (port : Port) (m : AllocatedPortMapping) :
    Prop where
  label_eq : m.label = port.label
  value_eq : m.value = port.value
  to_eq : m.to = port.to
  hostIP_mem : ∃ a ∈ idx.hostNetworks.get port.hostNetwork [], m.hostIP = a.address
  unused : idx.usedAt m.hostIP (uintOfInt m.value) = false

theorem ReservedOffered.of_readsAs {idx idx' : NetworkIndex} {port : Port}
    {m : AllocatedPortMapping} (hr : ReadsAs idx idx') (h : ReservedOffered idx' port m) :
    ReservedOffered idx port m where
  label_eq := h.label_eq
  value_eq := h.value_eq
  to_eq := h.to_eq
  hostIP_mem := by rw [← hr.hostNetworks_eq]; exact h.hostIP_mem
  unused := by rw [← hr.usedAt_eq]; exact h.unused

theorem reservePort_ok {idx idx' : NetworkIndex} {port : Port} {m : AllocatedPortMapping}
    (h : idx.reservePort port = (.ok m, idx')) : ReadsAs idx idx' ∧ ReservedOffered idx port m := by
  unfold reservePort at h
  split at h
  · simp at h
  · rename_i addr addrs haddrs
    obtain ⟨⟨used, idx₁⟩, hget⟩ : ∃ p, idx.getUsedPortsFor addr.address = p := ⟨_, rfl⟩
    have hreads : ReadsAs idx idx₁ := by simpa [hget] using readsAs_getUsedPortsFor idx addr.address
    have hused : ∀ n, used.check n = idx.usedAt addr.address n := fun n ↦ by
      rw [← check_getUsedPortsFor, hget]
    rw [hget] at h
    simp only at h
    by_cases hinvalid : port.value < 0 ∨ port.value ≥ maxValidPort
    · rw [if_pos hinvalid] at h
      simp at h
    by_cases hcollide : used.check (uintOfInt port.value) = true
    · rw [if_neg hinvalid, if_pos hcollide] at h
      simp at h
    rw [if_neg hinvalid, if_neg hcollide] at h
    simp only [Prod.mk.injEq, Except.ok.injEq] at h
    obtain ⟨rfl, rfl⟩ := h
    refine ⟨hreads, rfl, rfl, rfl, ⟨addr, by simp [haddrs], rfl⟩, ?_⟩
    simpa [hused] using hcollide

/-- The reserved-port loop offers each reserved port in turn, and adds its value to the values
in the offer. -/
theorem assignReservedPorts_ok {idx idx' : NetworkIndex} {o o' : PortOffer} {ports : List Port}
    (h : idx.assignReservedPorts o ports = .ok (o', idx')) :
    ReadsAs idx idx' ∧ ∃ res, o'.offer = o.offer ++ res ∧
      o'.portsInOffer = o.portsInOffer ++ res.map AllocatedPortMapping.value ∧
      List.Forall₂ (ReservedOffered idx) ports res := by
  induction ports generalizing idx o with
  | nil =>
    simp only [assignReservedPorts, Except.ok.injEq, Prod.mk.injEq] at h
    obtain ⟨rfl, rfl⟩ := h
    exact ⟨ReadsAs.refl idx, [], by simp, by simp, .nil⟩
  | cons port ports ih =>
    simp only [assignReservedPorts] at h
    obtain ⟨⟨result, idx₁⟩, hres⟩ : ∃ p, idx.reservePort port = p := ⟨_, rfl⟩
    rw [hres] at h
    cases result with
    | error e => simp at h
    | ok m =>
      simp only at h
      obtain ⟨hreads₁, hoffered⟩ := reservePort_ok hres
      obtain ⟨hreads, res, hoffer, hports, hall⟩ := ih h
      refine ⟨hreads₁.trans hreads, m :: res, by simp [hoffer], by simp [hports], ?_⟩
      exact .cons hoffered (hall.imp fun _ _ ↦ ReservedOffered.of_readsAs hreads₁)

end NetworkIndex

/-! ### Dynamic ports -/

/-- A port `getDynamicPortsStochastic` or `getDynamicPortsPrecise` may return: inside the range,
free in the node's bitmap `used`, and not yet in the offer. -/
structure FreeDynamicPort (used : Bitmap) (portsInOffer : List ℤ)
    (minDynamicPort maxDynamicPort : ℤ) (p : ℤ) : Prop where
  min_le : minDynamicPort ≤ p
  le_max : p ≤ maxDynamicPort
  unused : used.check (uintOfInt p) = false
  not_mem : p ∉ portsInOffer

/-- A probe lies in the range, below its maximum when it has a width. -/
theorem probePort_bounds (minDynamicPort maxDynamicPort : ℤ) (r : Stream' ℕ) :
    minDynamicPort ≤ (probePort minDynamicPort maxDynamicPort r).1 ∧
      ((probePort minDynamicPort maxDynamicPort r).1 < maxDynamicPort ∨
        (probePort minDynamicPort maxDynamicPort r).1 = minDynamicPort) := by
  unfold probePort intn
  split
  · rename_i hwidth
    -- a draw modulo the width is below the width
    have hlt : r.head % (maxDynamicPort - minDynamicPort).toNat <
        (maxDynamicPort - minDynamicPort).toNat := Nat.mod_lt _ (by omega)
    generalize r.head % (maxDynamicPort - minDynamicPort).toNat = d at hlt ⊢
    simp only
    omega
  · simp

/-- A pick of the stochastic search passed every check on its probe. -/
theorem pickStochastic_some {nodeUsed : Option Bitmap} {portsInOffer : List ℤ}
    {minDynamicPort maxDynamicPort : ℤ} {reserved dynamic : List ℤ} {attempts : ℕ}
    {r r' : Stream' ℕ} {p : ℤ}
    (h : pickStochastic nodeUsed portsInOffer minDynamicPort maxDynamicPort reserved dynamic
      attempts r = (some p, r')) :
    minDynamicPort ≤ p ∧ (p < maxDynamicPort ∨ p = minDynamicPort) ∧
      (nodeUsed.any fun used ↦ used.check (uintOfInt p)) = false ∧ p ∉ portsInOffer := by
  induction attempts generalizing r with
  | zero => simp [pickStochastic] at h
  | succ attempts ih =>
    simp only [pickStochastic] at h
    obtain ⟨⟨q, r₁⟩, hq⟩ : ∃ x, probePort minDynamicPort maxDynamicPort r = x := ⟨_, rfl⟩
    have hbounds := probePort_bounds minDynamicPort maxDynamicPort r
    rw [hq] at h hbounds
    simp only at h
    split at h
    · exact ih h
    · rename_i hfree
      simp only [Prod.mk.injEq, Option.some.injEq] at h
      obtain ⟨rfl, -⟩ := h
      simp only [Bool.or_eq_true, not_or, Bool.not_eq_true, List.contains_iff_mem] at hfree
      exact ⟨hbounds.1, hbounds.2, hfree.1.1.1, hfree.2⟩

/-- The stochastic loop appends `count` picks, each passing the checks on its probe. -/
theorem stochasticPorts_ok {nodeUsed : Option Bitmap} {portsInOffer : List ℤ}
    {minDynamicPort maxDynamicPort : ℤ} {reserved : List ℤ} {count : ℕ} {dynamic ports : List ℤ}
    {r r' : Stream' ℕ}
    (h : stochasticPorts nodeUsed portsInOffer minDynamicPort maxDynamicPort reserved count
      dynamic r = (.ok ports, r')) :
    ∃ picks, ports = dynamic ++ picks ∧ picks.length = count ∧ ∀ p ∈ picks,
      minDynamicPort ≤ p ∧ (p < maxDynamicPort ∨ p = minDynamicPort) ∧
        (nodeUsed.any fun used ↦ used.check (uintOfInt p)) = false ∧ p ∉ portsInOffer := by
  induction count generalizing dynamic r with
  | zero =>
    simp only [stochasticPorts, Prod.mk.injEq, Except.ok.injEq] at h
    exact ⟨[], by simp [h.1], rfl, by simp⟩
  | succ count ih =>
    simp only [stochasticPorts] at h
    obtain ⟨⟨pick, r₁⟩, hpick⟩ : ∃ x, pickStochastic nodeUsed portsInOffer minDynamicPort
        maxDynamicPort reserved dynamic maxRandPortAttempts r = x := ⟨_, rfl⟩
    rw [hpick] at h
    cases pick with
    | none => simp at h
    | some p =>
      simp only at h
      obtain ⟨picks, rfl, hlen, hall⟩ := ih h
      refine ⟨p :: picks, by simp, by simp [hlen], ?_⟩
      intro q hq
      rcases List.mem_cons.mp hq with rfl | hq
      · exact pickStochastic_some hpick
      · exact hall q hq

theorem getDynamicPortsStochastic_ok {used : Bitmap} {portsInOffer : List ℤ}
    {minDynamicPort maxDynamicPort : ℤ} {reserved : List Port} {count : ℕ} {ports : List ℤ}
    {r r' : Stream' ℕ} (hle : minDynamicPort ≤ maxDynamicPort)
    (h : getDynamicPortsStochastic (some used) portsInOffer minDynamicPort maxDynamicPort reserved
      count r = (.ok ports, r')) :
    ports.length = count ∧ ∀ p ∈ ports, FreeDynamicPort used portsInOffer minDynamicPort maxDynamicPort p := by
  obtain ⟨picks, rfl, hlen, hall⟩ := stochasticPorts_ok h
  refine ⟨by simpa using hlen, fun p hp ↦ ?_⟩
  obtain ⟨hmin, hmax, hunused, hnot⟩ := hall p (by simpa using hp)
  exact ⟨hmin, by omega, by simpa using hunused, hnot⟩

theorem length_swapPrefix (numAvailable : ℕ) :
    ∀ (i n : ℕ) (ports : List ℤ) (r : Stream' ℕ),
      (swapPrefix numAvailable i n ports r).1.length = ports.length
  | _, 0, _, _ => rfl
  | i, n + 1, ports, r => by
    simp only [swapPrefix, intn]
    rw [length_swapPrefix]
    simp

/-- An entry of a list is one of its members. -/
theorem getD_mem {ports : List ℤ} {i : ℕ} (h : i < ports.length) : ports.getD i 0 ∈ ports := by
  rw [List.getD_eq_getElem?_getD, List.getElem?_eq_getElem h]
  exact List.getElem_mem h

/-- The shuffle swaps entries only: every entry after it is one of the list it shuffles. -/
theorem mem_swapPrefix {avail : List ℤ} :
    ∀ {i n : ℕ} {ports : List ℤ} {r : Stream' ℕ}, ports.length = avail.length →
      i + n ≤ avail.length → (∀ x ∈ ports, x ∈ avail) →
      ∀ x ∈ (swapPrefix avail.length i n ports r).1, x ∈ avail
  | _, 0, _, _, _, _, hall => hall
  | i, n + 1, ports, r, hlen, hin, hall => by
    simp only [swapPrefix, intn]
    -- the random entry is below the length, which the entry `i` makes positive
    have hj : r.head % avail.length < ports.length := hlen ▸ Nat.mod_lt _ (by omega)
    have hi : i < ports.length := by omega
    refine mem_swapPrefix (by simp [hlen]) (by omega) fun x hx ↦ hall x ?_
    rcases List.mem_or_eq_of_mem_set hx with hx | rfl
    · rcases List.mem_or_eq_of_mem_set hx with hx | rfl
      · exact hx
      · exact getD_mem hj
    · exact getD_mem hi

/-- A port of the precise search is a free index of the bitmap inside the range; the ends of the
range convert to uints unchanged, being Go ints in order with the minimum not negative. -/
theorem freeDynamicPort_of_mem_indexes {used : Bitmap} {portsInOffer : List ℤ}
    {minDynamicPort maxDynamicPort : ℤ} {reserved : List Port} {i : ℕ}
    (hmin : 0 ≤ minDynamicPort) (hle : minDynamicPort ≤ maxDynamicPort)
    (hmax : maxDynamicPort < 2 ^ 63)
    (hi : i ∈ (reserved.foldl (fun b port ↦ b.set (uintOfInt port.value)) used).indexesInRangeFiltered
      false (uintOfInt minDynamicPort) (uintOfInt maxDynamicPort) portsInOffer) :
    FreeDynamicPort used portsInOffer minDynamicPort maxDynamicPort i := by
  rw [Bitmap.mem_indexesInRangeFiltered] at hi
  obtain ⟨hlo, hhi, -, hfree, hnot⟩ := hi
  have hminCast := natCast_uintOfInt hmin (by omega)
  have hmaxCast := natCast_uintOfInt (hmin.trans hle) (by omega)
  have hi64 : i < 2 ^ 64 := lt_of_le_of_lt hhi (uintOfInt_lt _)
  refine ⟨by omega, by omega, ?_, hnot⟩
  rw [uintOfInt_natCast hi64]
  -- a bit still clear once the reserved ports are set was clear before
  cases hc : used.check i with
  | false => rfl
  | true =>
    have hset := Bitmap.check_foldl_set_of_check (fun port : Port ↦ uintOfInt port.value) hc reserved
    simp [hset] at hfree

theorem getDynamicPortsPrecise_ok {used : Bitmap} {portsInOffer : List ℤ}
    {minDynamicPort maxDynamicPort : ℤ} {reserved : List Port} {numDyn : ℕ} {ports : List ℤ}
    {r r' : Stream' ℕ} (hmin : 0 ≤ minDynamicPort) (hle : minDynamicPort ≤ maxDynamicPort)
    (hmax : maxDynamicPort < 2 ^ 63)
    (h : getDynamicPortsPrecise (some used) portsInOffer minDynamicPort maxDynamicPort reserved
      numDyn r = (.ok ports, r')) :
    ports.length = numDyn ∧ ∀ p ∈ ports, FreeDynamicPort used portsInOffer minDynamicPort maxDynamicPort p := by
  simp only [getDynamicPortsPrecise] at h
  generalize hindexes : (reserved.foldl (fun b port ↦ b.set (uintOfInt port.value)) used).indexesInRangeFiltered
    false (uintOfInt minDynamicPort) (uintOfInt maxDynamicPort) portsInOffer = indexes at h
  split at h
  · simp at h
  · rename_i henough
    obtain ⟨⟨shuffled, r₁⟩, hswap⟩ : ∃ x, swapPrefix (indexes.map Int.ofNat).length 0 numDyn
        (indexes.map Int.ofNat) r = x := ⟨_, rfl⟩
    have hlen := length_swapPrefix (indexes.map Int.ofNat).length 0 numDyn (indexes.map Int.ofNat) r
    rw [hswap] at h hlen
    simp only [Prod.mk.injEq, Except.ok.injEq] at h hlen
    obtain ⟨rfl, -⟩ := h
    refine ⟨by simp only [List.length_take]; omega, fun p hp ↦ ?_⟩
    have hbound : 0 + numDyn ≤ (indexes.map Int.ofNat).length := by omega
    have hmem := mem_swapPrefix rfl hbound (fun x hx ↦ hx) p
      (by rw [hswap]; exact List.mem_of_mem_take hp)
    obtain ⟨i, hi, rfl⟩ := List.mem_map.mp hmem
    exact freeDynamicPort_of_mem_indexes hmin hle hmax (hindexes ▸ hi)

/-! ### The contract of AssignPorts -/

namespace NetworkIndex

/-- The dynamic range of an index whose ends are Go ints in order, the minimum not negative:
`SetNode` keeps the minimum positive, and the order is the node's to keep. -/
structure OrderedRange (idx : NetworkIndex) : Prop where
  min_nonneg : 0 ≤ idx.minDynamicPort
  min_le_max : idx.minDynamicPort ≤ idx.maxDynamicPort
  max_lt : idx.maxDynamicPort < 2 ^ 63

theorem OrderedRange.of_usedPortsOnly {idx idx' : NetworkIndex} (h : UsedPortsOnly idx idx')
    (hr : OrderedRange idx) : OrderedRange idx' := by
  obtain ⟨h0, hle, hlt⟩ := hr
  exact ⟨h.minDynamicPort_eq ▸ h0, h.minDynamicPort_eq ▸ h.maxDynamicPort_eq ▸ hle,
    h.maxDynamicPort_eq ▸ hlt⟩

/-- What `AssignPorts` offers for a dynamic port of the ask: a port of the dynamic range at an
address of its host network whose bitmap does not have it. -/
structure DynamicOffered (idx : NetworkIndex) (port : Port) (m : AllocatedPortMapping) :
    Prop where
  label_eq : m.label = port.label
  to_eq : m.to = if port.to = -1 then m.value else port.to
  hostIP_mem : ∃ a ∈ idx.hostNetworks.get port.hostNetwork [], m.hostIP = a.address
  unused : idx.usedAt m.hostIP (uintOfInt m.value) = false
  min_le : idx.minDynamicPort ≤ m.value
  le_max : m.value ≤ idx.maxDynamicPort

theorem DynamicOffered.of_readsAs {idx idx' : NetworkIndex} {port : Port}
    {m : AllocatedPortMapping} (hr : ReadsAs idx idx') (h : DynamicOffered idx' port m) :
    DynamicOffered idx port m where
  label_eq := h.label_eq
  to_eq := h.to_eq
  hostIP_mem := by rw [← hr.hostNetworks_eq]; exact h.hostIP_mem
  unused := by rw [← hr.usedAt_eq]; exact h.unused
  min_le := by rw [← hr.minDynamicPort_eq]; exact h.min_le
  le_max := by rw [← hr.maxDynamicPort_eq]; exact h.le_max

/-- A port free in the bitmap of an address of the port's host network makes a dynamic offer
there. -/
theorem dynamicOffered_of_free {idx : NetworkIndex} {port : Port} {addr : NodeNetworkAddress}
    {used : Bitmap} {portsInOffer : List ℤ} {p : ℤ}
    (haddr : addr ∈ idx.hostNetworks.get port.hostNetwork [])
    (hused : ∀ n, used.check n = idx.usedAt addr.address n)
    (hp : FreeDynamicPort used portsInOffer idx.minDynamicPort idx.maxDynamicPort p) :
    DynamicOffered idx port (dynamicPortMapping port addr.address p) where
  label_eq := rfl
  to_eq := rfl
  hostIP_mem := ⟨addr, haddr, rfl⟩
  unused := by
    show idx.usedAt addr.address (uintOfInt p) = false
    rw [← hused]
    exact hp.unused
  min_le := hp.min_le
  le_max := hp.le_max

/-- The address loop of a dynamic port: the offer comes from the first address where the
stochastic pick or the precise search finds a port, and is a dynamic offer not yet in the
offer. -/
theorem dynamicPortAt_ok {portsInOffer : List ℤ} {reserved : List Port} {port : Port}
    {m : AllocatedPortMapping} {idx' : NetworkIndex} {r' : Stream' ℕ} :
    ∀ {addrs : List NodeNetworkAddress} {idx : NetworkIndex} {addrErr : Option String}
      {r : Stream' ℕ}, OrderedRange idx →
      (∀ a ∈ addrs, a ∈ idx.hostNetworks.get port.hostNetwork []) →
      dynamicPortAt portsInOffer reserved port idx addrErr addrs r = (.ok m, idx', r') →
      ReadsAs idx idx' ∧ DynamicOffered idx port m ∧ m.value ∉ portsInOffer
  | [], _, _, _, _, _, h => by simp [dynamicPortAt] at h
  | addr :: addrs, idx, _, r, hrange, haddrs, h => by
    simp only [dynamicPortAt] at h
    obtain ⟨⟨used, idx₁⟩, hget⟩ : ∃ p, idx.getUsedPortsFor addr.address = p := ⟨_, rfl⟩
    have hreads : ReadsAs idx idx₁ := by simpa [hget] using readsAs_getUsedPortsFor idx addr.address
    have hused : ∀ n, used.check n = idx.usedAt addr.address n := fun n ↦ by
      rw [← check_getUsedPortsFor, hget]
    have haddr : addr ∈ idx.hostNetworks.get port.hostNetwork [] := haddrs addr (by simp)
    rw [hget] at h
    simp only [hreads.minDynamicPort_eq, hreads.maxDynamicPort_eq] at h
    -- the offer at `addr` of the single port a search returned
    have hoffer : ∀ dynPorts : List ℤ, dynPorts.length = 1 →
        (∀ p ∈ dynPorts, FreeDynamicPort used portsInOffer idx.minDynamicPort idx.maxDynamicPort p) →
        DynamicOffered idx port (dynamicPortMapping port addr.address (dynPorts.getD 0 0)) ∧
          dynPorts.getD 0 0 ∉ portsInOffer := by
      intro dynPorts hlen hfree
      obtain ⟨p, rfl⟩ := List.length_eq_one_iff.mp hlen
      have hp := hfree p (by simp)
      exact ⟨dynamicOffered_of_free haddr hused hp, hp.not_mem⟩
    obtain ⟨⟨stochastic, r₁⟩, hstochastic⟩ : ∃ x, getDynamicPortsStochastic (some used)
        portsInOffer idx.minDynamicPort idx.maxDynamicPort reserved 1 r = x := ⟨_, rfl⟩
    rw [hstochastic] at h
    cases stochastic with
    | ok dynPorts =>
      simp only [Prod.mk.injEq, Except.ok.injEq] at h
      obtain ⟨rfl, rfl, -⟩ := h
      obtain ⟨hlen, hfree⟩ := getDynamicPortsStochastic_ok hrange.min_le_max hstochastic
      exact ⟨hreads, hoffer dynPorts hlen hfree⟩
    | error _ =>
      simp only at h
      obtain ⟨⟨precise, r₂⟩, hprecise⟩ : ∃ x, getDynamicPortsPrecise (some used)
          portsInOffer idx.minDynamicPort idx.maxDynamicPort reserved 1 r₁ = x := ⟨_, rfl⟩
      rw [hprecise] at h
      cases precise with
      | ok dynPorts =>
        simp only [Prod.mk.injEq, Except.ok.injEq] at h
        obtain ⟨rfl, rfl, -⟩ := h
        obtain ⟨hlen, hfree⟩ := getDynamicPortsPrecise_ok hrange.min_nonneg hrange.min_le_max
          hrange.max_lt hprecise
        exact ⟨hreads, hoffer dynPorts hlen hfree⟩
      | error e =>
        -- the next address, on the index with the clear bitmap stored
        simp only at h
        have haddrs₁ : ∀ a ∈ addrs, a ∈ idx₁.hostNetworks.get port.hostNetwork [] := fun a ha ↦ by
          rw [hreads.hostNetworks_eq]; exact haddrs a (by simp [ha])
        obtain ⟨hreads', hoffered, hnot⟩ :=
          dynamicPortAt_ok (hrange.of_usedPortsOnly hreads.toUsedPortsOnly) haddrs₁ h
        exact ⟨hreads.trans hreads', hoffered.of_readsAs hreads, hnot⟩

/-- The dynamic-port loop offers each dynamic port in turn: distinct ports, none of them among
the values the offer held before the loop. -/
theorem assignDynamicPorts_ok {o' : PortOffer} {idx' : NetworkIndex} {r' : Stream' ℕ}
    {ports : List Port} {idx : NetworkIndex} {o : PortOffer} {r : Stream' ℕ}
    (hrange : OrderedRange idx) (h : idx.assignDynamicPorts o ports r = (.ok (o', idx'), r')) :
    ReadsAs idx idx' ∧ ∃ dyn, o'.offer = o.offer ++ dyn ∧
      List.Forall₂ (DynamicOffered idx) ports dyn ∧
      (dyn.map AllocatedPortMapping.value).Nodup ∧ ∀ m ∈ dyn, m.value ∉ o.portsInOffer := by
  induction ports generalizing idx o r with
  | nil =>
    simp only [assignDynamicPorts, Prod.mk.injEq, Except.ok.injEq] at h
    obtain ⟨⟨rfl, rfl⟩, -⟩ := h
    exact ⟨ReadsAs.refl idx, [], by simp, .nil, .nil, by simp⟩
  | cons port ports ih =>
    simp only [assignDynamicPorts] at h
    obtain ⟨⟨result, idx₁, r₁⟩, hport⟩ : ∃ x, dynamicPortAt o.portsInOffer
        (o.reservedIdx.get port.hostNetwork []) port idx none
        (idx.hostNetworks.get port.hostNetwork []) r = x := ⟨_, rfl⟩
    rw [hport] at h
    cases result with
    | error e => simp at h
    | ok m =>
      simp only at h
      obtain ⟨hreads₁, hoffered, hnew⟩ := dynamicPortAt_ok hrange (fun _ ha ↦ ha) hport
      obtain ⟨hreads, dyn, hoffer, hall, hnodup, hfresh⟩ :=
        ih (hrange.of_usedPortsOnly hreads₁.toUsedPortsOnly) h
      -- each later port avoids the values before it, this one's among them
      have hfresh' : ∀ m' ∈ dyn, m'.value ∉ o.portsInOffer ∧ m'.value ≠ m.value := fun m' hm' ↦ by
        simpa [not_or] using hfresh m' hm'
      refine ⟨hreads₁.trans hreads, m :: dyn, by simp [hoffer], ?_, ?_, ?_⟩
      · exact .cons hoffered (hall.imp fun _ _ ↦ DynamicOffered.of_readsAs hreads₁)
      · refine List.nodup_cons.mpr ⟨fun hmem ↦ ?_, hnodup⟩
        obtain ⟨m', hm', hval⟩ := List.mem_map.mp hmem
        exact (hfresh' m' hm').2 hval
      · intro m' hm'
        rcases List.mem_cons.mp hm' with rfl | hm'
        · exact hnew
        · exact (hfresh' m' hm').1

/-- The values of the offers of reserved ports are the ports' values. -/
theorem map_value_of_reservedOffered {idx : NetworkIndex} {ports : List Port}
    {res : List AllocatedPortMapping} (h : List.Forall₂ (ReservedOffered idx) ports res) :
    res.map AllocatedPortMapping.value = ports.map Port.value := by
  induction h with
  | nil => rfl
  | cons hoffered _ ih => simp [hoffered.value_eq, ih]

/-- What an offer of `AssignPorts` holds, split into the offers of the ask's reserved ports and
those of its dynamic ports: each reserved port at an address of its host network where it is
free, and each dynamic port in the dynamic range at an address of its host network where it is
free, the dynamic ports distinct from one another and from every reserved port of the ask. -/
structure OfferMeets (idx : NetworkIndex) (ask : NetworkResource)
    (reserved dynamic : List AllocatedPortMapping) : Prop where
  reserved_offered : List.Forall₂ (ReservedOffered idx) ask.reservedPorts reserved
  dynamic_offered : List.Forall₂ (DynamicOffered idx) ask.dynamicPorts dynamic
  dynamic_nodup : (dynamic.map AllocatedPortMapping.value).Nodup
  dynamic_not_reserved : ∀ m ∈ dynamic, m.value ∉ ask.reservedPorts.map Port.value

/-- The contract of `AssignPorts` on an index whose dynamic range is in order. -/
theorem assignPorts_offerMeets {idx idx' : NetworkIndex} {ask : NetworkResource}
    {r r' : Stream' ℕ} {offer : List AllocatedPortMapping} (hrange : OrderedRange idx)
    (h : idx.assignPorts ask r = (.ok (offer, idx'), r')) :
    ∃ reserved dynamic, offer = reserved ++ dynamic ∧ OfferMeets idx ask reserved dynamic := by
  unfold assignPorts at h
  obtain ⟨resResult, hres⟩ : ∃ x, idx.assignReservedPorts {} ask.reservedPorts = x := ⟨_, rfl⟩
  rw [hres] at h
  cases resResult with
  | error e => simp at h
  | ok result =>
    obtain ⟨o, idx₁⟩ := result
    simp only at h
    obtain ⟨hreads₁, res, hoffer₁, hvalues₁, hreserved⟩ := assignReservedPorts_ok hres
    obtain ⟨⟨dynResult, r₁⟩, hdyn⟩ : ∃ x, idx₁.assignDynamicPorts o ask.dynamicPorts r = x :=
      ⟨_, rfl⟩
    rw [hdyn] at h
    cases dynResult with
    | error e => simp at h
    | ok result =>
      obtain ⟨o', idx₂⟩ := result
      simp only [Prod.mk.injEq, Except.ok.injEq] at h
      obtain ⟨⟨rfl, rfl⟩, -⟩ := h
      obtain ⟨-, dyn, hoffer₂, hdynamic, hnodup, hfresh⟩ :=
        assignDynamicPorts_ok (hrange.of_usedPortsOnly hreads₁.toUsedPortsOnly) hdyn
      -- the values in the offer before the dynamic loop are the reserved ports' values
      have hvalues : o.portsInOffer = ask.reservedPorts.map Port.value := by
        simpa [map_value_of_reservedOffered hreserved] using hvalues₁
      refine ⟨res, dyn, by simpa [hoffer₁] using hoffer₂, ⟨hreserved, ?_, hnodup, ?_⟩⟩
      · exact hdynamic.imp fun _ _ ↦ DynamicOffered.of_readsAs hreads₁
      · intro m hm
        rw [← hvalues]
        exact hfresh m hm

/-! ### What SetNode and AddAllocs leave of the range -/

theorem usedPortsOnly_getUsedPortsFor (idx : NetworkIndex) (ip : String) :
    UsedPortsOnly idx (idx.getUsedPortsFor ip).2 :=
  (readsAs_getUsedPortsFor idx ip).toUsedPortsOnly

theorem usedPortsOnly_reserveCompatNetworks :
    ∀ {idx idx' : NetworkIndex} {globalResPorts globalResPorts' : List ℕ}
      {networks : List NetworkResource},
      reserveCompatNetworks idx globalResPorts networks = .ok (globalResPorts', idx') →
      UsedPortsOnly idx idx'
  | idx, _, _, _, [], h => by
    simp only [reserveCompatNetworks, Except.ok.injEq, Prod.mk.injEq] at h
    rw [← h.2]
    exact UsedPortsOnly.refl idx
  | idx, _, globalResPorts, _, n :: ns, h => by
    simp only [reserveCompatNetworks] at h
    obtain ⟨⟨used, idx₁⟩, hget⟩ : ∃ p, idx.getUsedPortsFor n.ip = p := ⟨_, rfl⟩
    have h₁ : UsedPortsOnly idx idx₁ := by simpa [hget] using usedPortsOnly_getUsedPortsFor idx n.ip
    rw [hget] at h
    simp only at h
    split at h
    · simp at h
    · exact h₁.trans ((usedPortsOnly_storeUsedPorts _ _ _).trans
        (usedPortsOnly_reserveCompatNetworks h))

theorem usedPortsOnly_compatReservedPorts {idx idx' : NetworkIndex} {node : Node}
    {globalResPorts : List ℕ} (h : idx.compatReservedPorts node = .ok (globalResPorts, idx')) :
    UsedPortsOnly idx idx' := by
  unfold compatReservedPorts at h
  split at h
  · exact usedPortsOnly_reserveCompatNetworks h
  · simp only [Except.ok.injEq, Prod.mk.injEq] at h
    rw [← h.2]
    exact UsedPortsOnly.refl idx

theorem usedPortsOnly_globalReservedPorts {idx idx' : NetworkIndex} {node : Node}
    {globalResPorts : List ℕ} (h : idx.globalReservedPorts node = .ok (globalResPorts, idx')) :
    UsedPortsOnly idx idx' := by
  unfold globalReservedPorts at h
  split at h
  · split at h
    · -- the node's `reserved_ports`, parsed
      split at h
      · simp at h
      · simp only [Except.ok.injEq, Prod.mk.injEq] at h
        rw [← h.2]
        exact UsedPortsOnly.refl idx
    · exact usedPortsOnly_compatReservedPorts h
  · exact usedPortsOnly_compatReservedPorts h

/-- Indexing an address of the node networks keeps the dynamic range. -/
theorem indexAddress_range {globalResPorts : List ℕ} {idx idx' : NetworkIndex}
    {a : NodeNetworkAddress} (h : indexAddress globalResPorts idx a = .ok idx') :
    idx'.minDynamicPort = idx.minDynamicPort ∧ idx'.maxDynamicPort = idx.maxDynamicPort := by
  unfold indexAddress at h
  -- the host networks change, the range does not
  set idx₁ : NetworkIndex := { idx with
    hostNetworks := idx.hostNetworks.insert a.alias (idx.hostNetworks.get a.alias [] ++ [a]) }
  have h₁ := usedPortsOnly_setPortsFor idx₁ a.address globalResPorts
  split at h
  · split at h
    · simp at h
    · simp only [Except.ok.injEq] at h
      subst h
      exact ⟨(h₁.trans (usedPortsOnly_setPortsFor _ _ _)).minDynamicPort_eq,
        (h₁.trans (usedPortsOnly_setPortsFor _ _ _)).maxDynamicPort_eq⟩
  · simp only [Except.ok.injEq] at h
    rw [h] at h₁
    exact ⟨h₁.minDynamicPort_eq, h₁.maxDynamicPort_eq⟩

/-- `SetNode` keeps a positive minimum of the dynamic range positive: it takes the node's only
when that is positive. -/
theorem minDynamicPort_pos_setNode {idx idx' : NetworkIndex} {node : Node}
    (hpos : 0 < idx.minDynamicPort) (h : idx.setNode node = .ok idx') :
    0 < idx'.minDynamicPort := by
  simp only [setNode, Except.bind_eq_ok, Except.pure_eq_ok] at h
  obtain ⟨⟨globalResPorts, idx₁⟩, hglobal, idx₂, hfold, rfl⟩ := h
  have h₁ := usedPortsOnly_globalReservedPorts hglobal
  -- the task networks only mark ports
  have htasks : UsedPortsOnly idx₁ ((taskNetworks node).foldl (fun idx n ↦
      if n.device ≠ "" then idx.setPortsFor n.ip globalResPorts else idx) idx₁) := by
    refine List.foldlRecOn _ _ (UsedPortsOnly.refl idx₁) fun idx₃ h₃ n _ ↦ ?_
    split
    · exact h₃.trans (usedPortsOnly_setPortsFor _ _ _)
    · exact h₃
  -- each address keeps the range
  have hrun := Except.foldlM_ok_reflTransGen hfold
  clear hfold
  have haddrs : idx₂.minDynamicPort = idx.minDynamicPort := by
    rw [← h₁.minDynamicPort_eq, ← htasks.minDynamicPort_eq]
    induction hrun with
    | refl => rfl
    | tail _ hstep ih =>
      obtain ⟨a, -, ha⟩ := hstep
      exact (indexAddress_range ha).1.trans ih
  unfold setDynamicPortRange
  split
  · simp only
    split <;> omega
  · omega

theorem usedPortsOnly_addReserved (idx : NetworkIndex) (n : NetworkResource) :
    UsedPortsOnly idx (idx.addReserved n).1 := by
  unfold addReserved
  obtain ⟨⟨used, idx₁⟩, hget⟩ : ∃ p, idx.getUsedPortsFor n.ip = p := ⟨_, rfl⟩
  have h₁ : UsedPortsOnly idx idx₁ := by simpa [hget] using usedPortsOnly_getUsedPortsFor idx n.ip
  rw [hget]
  exact h₁.trans (usedPortsOnly_storeUsedPorts _ _ _)

theorem usedPortsOnly_addReservedPortsFrom :
    ∀ (idx : NetworkIndex) (acc : Bool × List String) (ports : List AllocatedPortMapping),
      UsedPortsOnly idx (idx.addReservedPortsFrom acc ports).1
  | idx, (_, _), [] => UsedPortsOnly.refl idx
  | idx, (collide, reasons), port :: ports => by
    simp only [addReservedPortsFrom]
    obtain ⟨⟨used, idx₁⟩, hget⟩ : ∃ p, idx.getUsedPortsFor port.hostIP = p := ⟨_, rfl⟩
    have h₁ : UsedPortsOnly idx idx₁ := by
      simpa [hget] using usedPortsOnly_getUsedPortsFor idx port.hostIP
    rw [hget]
    split
    · exact h₁
    · split
      · exact h₁.trans (usedPortsOnly_addReservedPortsFrom _ _ _)
      · exact h₁.trans ((usedPortsOnly_storeUsedPorts _ _ _).trans
          (usedPortsOnly_addReservedPortsFrom _ _ _))

theorem usedPortsOnly_addReservedNoting (why : List String → String)
    (acc : NetworkIndex × Bool × String) (n : NetworkResource) :
    UsedPortsOnly acc.1 (addReservedNoting why acc n).1 := by
  obtain ⟨idx, collide, reason⟩ := acc
  unfold addReservedNoting
  obtain ⟨⟨idx₁, c, r⟩, hres⟩ : ∃ p, idx.addReserved n = p := ⟨_, rfl⟩
  have h₁ := usedPortsOnly_addReserved idx n
  simp only
  rw [hres] at h₁ ⊢
  split <;> exact h₁

theorem usedPortsOnly_addTaskNetworks {R : Type} (networks : R → List NetworkResource)
    (deprecated allocID : String) (acc : NetworkIndex × Bool × String) (tasks : GoMap String R) :
    UsedPortsOnly acc.1 (addTaskNetworks networks deprecated allocID acc tasks).1 := by
  unfold addTaskNetworks
  refine List.foldlRecOn _ _ (motive := fun acc₁ : NetworkIndex × Bool × String ↦ UsedPortsOnly acc.1 acc₁.1)
    (UsedPortsOnly.refl acc.1) fun acc₁ h₁ e _ ↦ ?_
  split
  · exact h₁
  · exact h₁.trans (usedPortsOnly_addReservedNoting _ _ _)

theorem usedPortsOnly_addAlloc (acc : NetworkIndex × Bool × String) (alloc : Allocation) :
    UsedPortsOnly acc.1 (addAlloc acc alloc).1 := by
  unfold addAlloc
  split
  · exact UsedPortsOnly.refl acc.1
  · split
    · rename_i ar _
      split
      · obtain ⟨idx, collide, reason⟩ := acc
        obtain ⟨⟨idx₁, c, r⟩, hres⟩ : ∃ p, idx.addReservedPorts ar.shared.ports = p := ⟨_, rfl⟩
        have h₁ := usedPortsOnly_addReservedPortsFrom idx (false, []) ar.shared.ports
        rw [← addReservedPorts, hres] at h₁
        simp only [hres]
        split <;> exact h₁
      · -- the shared networks, then the first network of each task
        have hshared : UsedPortsOnly acc.1 (ar.shared.networks.foldl (fun acc network ↦
            addReservedNoting (fun r ↦ s!"collision when reserving port for network {network.ip} in alloc {alloc.id}: {formatStrings r}")
              acc network) acc).1 := by
          refine List.foldlRecOn _ _ (motive := fun acc₁ : NetworkIndex × Bool × String ↦ UsedPortsOnly acc.1 acc₁.1)
            (UsedPortsOnly.refl acc.1) fun acc₁ h₁ n _ ↦ ?_
          exact h₁.trans (usedPortsOnly_addReservedNoting _ _ _)
        exact hshared.trans (usedPortsOnly_addTaskNetworks _ _ _ _ _)
    · exact usedPortsOnly_addTaskNetworks _ _ _ _ _

/-- `AddAllocs` changes the used ports only, as its documentation asks: the host networks and
the dynamic range stay those of the index. -/
theorem usedPortsOnly_addAllocs (idx : NetworkIndex) (allocs : List Allocation) :
    UsedPortsOnly idx (idx.addAllocs allocs).1 :=
  List.foldlRecOn allocs addAlloc (motive := fun acc ↦ UsedPortsOnly idx acc.1)
    (UsedPortsOnly.refl idx) fun acc h₁ alloc _ ↦ h₁.trans (usedPortsOnly_addAlloc acc alloc)

/-! ### AssignPorts on the index of a node -/

/-- The contract of `AssignPorts` on the index `SetNode` builds for a node from a new index and
`AddAllocs` fills, when the dynamic range is in order; the bound on its maximum is Go's, whose
ints have 64 bits. The ask's reserved ports need not be distinct. -/
theorem assignPorts_offerMeets_of_setNode {node : Node} {allocs : List Allocation}
    {idx idx' : NetworkIndex} {ask : NetworkResource} {r r' : Stream' ℕ}
    {offer : List AllocatedPortMapping} (hset : newNetworkIndex.setNode node = .ok idx)
    (hrange : idx.minDynamicPort ≤ idx.maxDynamicPort) (hint : idx.maxDynamicPort < 2 ^ 63)
    (h : (idx.addAllocs allocs).1.assignPorts ask r = (.ok (offer, idx'), r')) :
    ∃ reserved dynamic, offer = reserved ++ dynamic ∧
      OfferMeets (idx.addAllocs allocs).1 ask reserved dynamic := by
  have hpos : 0 < idx.minDynamicPort := minDynamicPort_pos_setNode (by decide) hset
  have hordered : OrderedRange idx := ⟨hpos.le, hrange, hint⟩
  exact assignPorts_offerMeets (hordered.of_usedPortsOnly (usedPortsOnly_addAllocs idx allocs)) h

/-- A node with one address on the default host network and the dynamic range `[30, 40]`. -/
def portNode : Node :=
  { nodeResources := some
      { nodeNetworks := [{ addresses := [{ «alias» := "default", address := "10.0.0.1" }] }]
        minDynamicPort := 30, maxDynamicPort := 40 } }

/-- An ask for port 22 and a dynamic port, both on the default host network. -/
def portAsk : NetworkResource :=
  { reservedPorts := [{ label := "ssh", value := 22, hostNetwork := "default" }]
    dynamicPorts := [{ label := "http", hostNetwork := "default" }] }

theorem assignPorts_offerMeets_of_setNode_portNode :
    ∃ idx, newNetworkIndex.setNode portNode = .ok idx ∧ ∃ reserved dynamic,
      [{ label := "ssh", value := 22, hostIP := "10.0.0.1" },
        { label := "http", value := 30, hostIP := "10.0.0.1" }] = reserved ++ dynamic ∧
      OfferMeets (idx.addAllocs []).1 portAsk reserved dynamic :=
  ⟨_, rfl, @assignPorts_offerMeets_of_setNode portNode [] _ _ portAsk (fun _ ↦ 0) _ _ rfl
    (by decide) (by decide) rfl⟩

/-- A node whose client reports a minimum dynamic port above the maximum, which `SetNode` takes
as it is. -/
def invertedRangeNode : Node :=
  { nodeResources := some
      { nodeNetworks := [{ addresses := [{ «alias» := "default", address := "10.0.0.1" }] }]
        minDynamicPort := 40, maxDynamicPort := 30 } }

/-- An ask for one dynamic port on the default host network. -/
def dynamicAsk : NetworkResource := { dynamicPorts := [{ label := "http", hostNetwork := "default" }] }

/-- On the index of `invertedRangeNode` the stochastic pick probes the minimum, which is free,
and `AssignPorts` offers it: above the maximum of the range. -/
theorem assignPorts_above_maxDynamicPort :
    ∃ idx offer idx' r', newNetworkIndex.setNode invertedRangeNode = .ok idx ∧
      (idx.addAllocs []).1.assignPorts dynamicAsk (fun _ ↦ 0) = (.ok (offer, idx'), r') ∧
      ∃ m ∈ offer, (idx.addAllocs []).1.maxDynamicPort < m.value :=
  ⟨_, _, _, _, rfl, rfl, _, List.mem_singleton_self _, by decide⟩

end NetworkIndex

end Wander.Structs
