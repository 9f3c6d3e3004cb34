import Mathlib.Data.List.Sort
import Wander.Lib.Strings
import Wander.Lib.GoMap
import Wander.Structs.Devices

/-!
# Ports and networks

The port and network structures of `nomad/structs` that a node reports and an allocation holds,
and `ParsePortRanges`, the parser of a `reserved_ports` text such as `"22,80,8000-8080"`.

`ParsePortRanges` collects the ports in a Go map, checks its keys in the map's order and returns
them sorted; here the map is a list without repeats, checked in its order, and the keys come out
by an insertion sort.

`parsePortRanges_eq_ok_iff` says which texts it accepts and what it returns: each part, trimmed,
is a port or a range of ports (`PortPart`), and every port denoted lies from 1 to `MaxValidPort`,
which is itself accepted.
-/

set_option autoImplicit false
set_option relaxedAutoImplicit false

namespace Wander.Structs

open Wander.Lib

/-- `structs.MaxValidPort`. -/
def maxValidPort : ℕ := 65536

/-- `structs.Port`. -/
structure Port where
  label : String := ""
  value : ℤ := 0
  «to» : ℤ := 0
  hostNetwork : String := ""
deriving DecidableEq, Repr

/-- `structs.DNSConfig`. -/
structure DNSConfig where
  servers : List String := []
  searches : List String := []
  options : List String := []
deriving DecidableEq, Repr

/-- The fields of `structs.NetworkResource` that the port index, the network checker and the
scheduler's update check read. -/
structure NetworkResource where
  mode : String := ""
  device : String := ""
  ip : String := ""
  hostname : String := ""
  mBits : ℤ := 0
  dns : Option DNSConfig := none
  reservedPorts : List Port := []
  dynamicPorts : List Port := []
deriving DecidableEq, Repr

/-- The fields of `structs.Resources` that the port index and the scheduler read. -/
structure Resources where
  cpu : ℤ := 0
  cores : ℤ := 0
  memoryMB : ℤ := 0
  memoryMaxMB : ℤ := 0
  networks : List NetworkResource := []
  devices : List RequestedDevice := []
deriving DecidableEq, Repr

/-- The fields of `structs.NodeNetworkAddress` that the port index reads. -/
structure NodeNetworkAddress where
  «alias» : String := ""
  address : String := ""
  reservedPorts : String := ""
deriving DecidableEq, Repr

/-- `structs.NodeNetworkResource`, its addresses. -/
structure NodeNetworkResource where
  addresses : List NodeNetworkAddress := []
deriving DecidableEq, Repr

/-- `NodeNetworkResource.HasAlias`. -/
def NodeNetworkResource.hasAlias (n : NodeNetworkResource) (a : String) : Bool :=
  n.addresses.any fun addr ↦ addr.alias == a

/-- The fields of `structs.NodeResources` that the port index reads. -/
structure NodeResources where
  nodeNetworks : List NodeNetworkResource := []
  networks : List NetworkResource := []
  devices : List NodeDeviceResource := []
  minDynamicPort : ℤ := 0
  maxDynamicPort : ℤ := 0
deriving DecidableEq, Repr

/-- `structs.NodeReservedResources`, the one field of its `Networks` the port index reads. -/
structure NodeReservedResources where
  reservedHostPorts : String := ""
deriving DecidableEq, Repr

/-- `structs.AllocatedPortMapping`. -/
structure AllocatedPortMapping where
  label : String := ""
  value : ℤ := 0
  «to» : ℤ := 0
  hostIP : String := ""
deriving DecidableEq, Repr

/-- The fields of `structs.AllocatedSharedResources` that the port index reads. -/
structure AllocatedSharedResources where
  networks : List NetworkResource := []
  ports : List AllocatedPortMapping := []
deriving DecidableEq, Repr

/-- The field of `structs.AllocatedTaskResources` that the port index reads. -/
structure AllocatedTaskResources where
  networks : List NetworkResource := []
  devices : List AllocatedDeviceResource := []
deriving DecidableEq, Repr

/-- The fields of `structs.AllocatedResources` that the port index reads. -/
structure AllocatedResources where
  tasks : GoMap String AllocatedTaskResources := ∅
  shared : AllocatedSharedResources := {}
deriving DecidableEq, Repr

/-- One comma-separated part of `ParsePortRanges`, trimmed: a port or a range `start-end`, added
to the ports `ports` collected so far. -/
def parsePortPart (ports : List ℕ) (part : String) : Except String (List ℕ) :=
  match split (trimSpace part) '-' with
  | [val] =>
    if val = "" then .error "can't specify empty port"
    else do
      let port ← parseUint val
      if port > maxValidPort then .error s!"port must be < {maxValidPort} but found {port}"
      else pure (ports.insert port)
  | [startText, endText] => do
    let start ← parseUint startText
    let stop ← parseUint endText
    if stop < start then
      .error s!"invalid range: starting value ({stop}) less than ending ({start}) value"
    -- the range check comes before the loop, so that no huge range is built
    else if stop > maxValidPort then .error s!"port must be < {maxValidPort} but found {stop}"
    else pure ((List.range' start (stop + 1 - start)).foldl (fun acc p ↦ acc.insert p) ports)
  | _ => .error "can only parse single port numbers or port ranges (ex. 80,100-120,150)"

/-- `structs.ParsePortRanges`. -/
def parsePortRanges (spec : String) : Except String (List ℕ) :=
  let parts := split spec ','
  if parts = [""] then .ok []
  else do
    let ports ← parts.foldlM parsePortPart []
    -- the first key that fails one of the two checks decides the error
    match ports.find? fun p ↦ p = 0 || p > maxValidPort with
    | some 0 => .error "port must be > 0"
    | some port => .error s!"port must be < {maxValidPort} but found {port}"
    | none => pure (ports.insertionSort (· ≤ ·))


/-! ### Which texts `ParsePortRanges` accepts -/

/-- What one trimmed part of a `reserved_ports` text denotes: a port written in decimal, or a
range `start-end` of two decimals with `start ≤ end`, which denotes the ports from `start` to
`end`. -/
inductive PortPart : String → List ℕ → Prop
  | single {s : String} {n : ℕ} : IsDecimal s n → PortPart s [n]
  | range {a b : String} {n m : ℕ} : IsDecimal a n → IsDecimal b m → n ≤ m →
      PortPart (a ++ "-" ++ b) (List.range' n (m + 1 - n))

theorem dash_not_mem_of_isDecimal {s : String} {n : ℕ} (h : IsDecimal s n) : '-' ∉ s.toList :=
  fun hm ↦ absurd (h.2.1 _ hm) (by decide)

open Wander.Lib.Except in
/-- One part parses exactly when its trimmed text denotes ports none of which is past
`MaxValidPort`; they are then added to the ports collected so far. -/
theorem parsePortPart_eq_ok_iff {ports ports' : List ℕ} {part : String} :
    parsePortPart ports part = .ok ports' ↔
      ∃ d, (PortPart (trimSpace part) d ∧ ∀ p ∈ d, p ≤ maxValidPort) ∧
        ports' = d.foldl (fun acc p ↦ acc.insert p) ports := by
  unfold parsePortPart
  generalize trimSpace part = t
  constructor
  · intro h
    split at h
    next val hsplit =>
      -- one piece: a single port
      rw [eq_of_split_eq_singleton hsplit]
      split at h
      · cases h
      rw [bind_eq_ok] at h
      obtain ⟨port, hport, h⟩ := h
      split at h
      · cases h
      next hle =>
        rw [pure_eq_ok] at h
        refine ⟨[port], ⟨.single (parseUint_eq_ok_iff.mp hport).1, ?_⟩, h.symm⟩
        intro p hp
        rw [List.mem_singleton] at hp
        omega
    next a b hsplit =>
      -- two pieces: a range, whose ends are checked before it is added
      rw [eq_of_split_eq_pair hsplit]
      rw [bind_eq_ok] at h
      obtain ⟨start, hstart, h⟩ := h
      rw [bind_eq_ok] at h
      obtain ⟨stop, hstop, h⟩ := h
      split at h
      · cases h
      split at h
      · cases h
      next hlt hle =>
        rw [pure_eq_ok] at h
        refine ⟨List.range' start (stop + 1 - start),
          ⟨.range (parseUint_eq_ok_iff.mp hstart).1 (parseUint_eq_ok_iff.mp hstop).1 (by omega),
            ?_⟩, h.symm⟩
        intro p hp
        rw [List.mem_range'_1] at hp
        omega
    next => cases h
  · rintro ⟨d, ⟨hpart, hbound⟩, rfl⟩
    have hmax : maxValidPort < 2 ^ 64 := by decide
    cases hpart with
    | @single s n hdec =>
      have hn : n ≤ maxValidPort := hbound n (List.mem_singleton_self n)
      rw [split_of_not_mem (dash_not_mem_of_isDecimal hdec)]
      dsimp only
      rw [if_neg (fun h ↦ hdec.1 (by rw [h]; rfl))]
      refine bind_eq_ok.mpr ⟨n, parseUint_eq_ok_iff.mpr ⟨hdec, by omega⟩, ?_⟩
      rw [if_neg (by omega)]
      rfl
    | @range a b n m ha hb hle =>
      have hm : m ≤ maxValidPort := hbound m (List.mem_range'_1.mpr ⟨hle, by omega⟩)
      rw [show "-" = String.singleton '-' from rfl,
        split_append_singleton (dash_not_mem_of_isDecimal ha) (dash_not_mem_of_isDecimal hb)]
      dsimp only
      refine bind_eq_ok.mpr ⟨n, parseUint_eq_ok_iff.mpr ⟨ha, by omega⟩,
        bind_eq_ok.mpr ⟨m, parseUint_eq_ok_iff.mpr ⟨hb, by omega⟩, ?_⟩⟩
      rw [if_neg (by omega), if_neg (by omega)]
      rfl

/-- The ports the parts add to an empty set are those of the parts. -/
theorem mem_foldl_portParts {ds : List (List ℕ)} {p : ℕ} :
    p ∈ ds.foldl (fun acc d ↦ d.foldl (fun acc p ↦ acc.insert p) acc) [] ↔ ∃ d ∈ ds, p ∈ d := by
  rw [← List.foldl_flatten, mem_foldl_insert, List.mem_flatten]
  simp

/-- The ports the parts add to an empty set, sorted, increase strictly: the set has no repeats. -/
theorem pairwise_lt_insertionSort_portParts (ds : List (List ℕ)) :
    ((ds.foldl (fun acc d ↦ d.foldl (fun acc p ↦ acc.insert p) acc) []).insertionSort
      (· ≤ ·)).Pairwise (· < ·) := by
  have hnodup : (ds.foldl (fun acc d ↦ d.foldl (fun acc p ↦ acc.insert p) acc) []).Nodup := by
    rw [← List.foldl_flatten]
    exact nodup_foldl_insert List.nodup_nil _
  have hsorted := (List.pairwise_insertionSort (· ≤ ·) _).and
    ((List.perm_insertionSort (· ≤ ·) _).nodup_iff.mpr hnodup)
  exact hsorted.imp fun h ↦ lt_of_le_of_ne h.1 h.2

theorem mem_insertionSort_portParts {ds : List (List ℕ)} {p : ℕ} :
    p ∈ (ds.foldl (fun acc d ↦ d.foldl (fun acc p ↦ acc.insert p) acc) []).insertionSort
      (· ≤ ·) ↔ ∃ d ∈ ds, p ∈ d := by
  rw [(List.perm_insertionSort _ _).mem_iff, mem_foldl_portParts]

open Wander.Lib.Except in
/-- `ParsePortRanges` accepts exactly the empty text and the texts whose every part, trimmed,
denotes ports from 1 to `MaxValidPort` (`PortPart`); it returns the ports denoted, in increasing
order and each once. -/
theorem parsePortRanges_eq_ok_iff {spec : String} {ports : List ℕ} :
    parsePortRanges spec = .ok ports ↔
      (spec = "" ∧ ports = []) ∨
      (spec ≠ "" ∧ ∃ denoted,
        List.Forall₂ (fun part d ↦ PortPart (trimSpace part) d) (split spec ',') denoted ∧
        (∀ d ∈ denoted, ∀ p ∈ d, 0 < p ∧ p ≤ maxValidPort) ∧
        ports.Pairwise (· < ·) ∧ ∀ p, p ∈ ports ↔ ∃ d ∈ denoted, p ∈ d) := by
  unfold parsePortRanges
  dsimp only
  by_cases hs : spec = ""
  · -- the hot path: an empty text splits into one empty part
    subst hs
    have hempty : split "" ',' = [""] := rfl
    rw [if_pos hempty]
    constructor
    · intro h
      exact Or.inl ⟨rfl, (Except.ok.inj h).symm⟩
    · rintro (⟨-, rfl⟩ | ⟨hne, -⟩)
      · rfl
      · exact absurd rfl hne
  have hparts : split spec ',' ≠ [""] := fun h ↦ hs (eq_of_split_eq_singleton h)
  -- the loop over the parts succeeds exactly when each part denotes ports within the bound
  have hloop := foldlM_eq_ok_iff_forall₂ (f := parsePortPart)
    (fun _ _ _ ↦ parsePortPart_eq_ok_iff) (split spec ',') []
  rw [if_neg hparts, bind_eq_ok]
  simp only [hs, false_and, false_or, ne_eq, not_false_eq_true, true_and]
  constructor
  · rintro ⟨_, hfold, hcheck⟩
    obtain ⟨ds, hds, rfl⟩ := (hloop _).mp hfold
    obtain ⟨hds, hbound⟩ := forall₂_and_right.mp hds
    split at hcheck
    · cases hcheck
    · cases hcheck
    next hfind =>
      rw [pure_eq_ok] at hcheck
      subst hcheck
      refine ⟨ds, hds, fun d hd p hp ↦ ⟨?_, hbound d hd p hp⟩,
        pairwise_lt_insertionSort_portParts ds, fun p ↦ mem_insertionSort_portParts⟩
      have := List.find?_eq_none.mp hfind p (mem_foldl_portParts.mpr ⟨d, hd, hp⟩)
      simp only [Bool.or_eq_true, decide_eq_true_eq, not_or] at this
      omega
  · rintro ⟨ds, hds, hbound, hsorted, hmem⟩
    refine ⟨_, (hloop _).mpr
      ⟨ds, forall₂_and_right.mpr ⟨hds, fun d hd p hp ↦ (hbound d hd p hp).2⟩, rfl⟩, ?_⟩
    -- no collected port is 0 or past the bound, so the final check passes
    have hfind : (ds.foldl (fun acc d ↦ d.foldl (fun acc p ↦ acc.insert p) acc) []).find?
        (fun p ↦ p = 0 || p > maxValidPort) = none := by
      refine List.find?_eq_none.mpr fun p hp ↦ ?_
      obtain ⟨d, hd, hpd⟩ := mem_foldl_portParts.mp hp
      have := hbound d hd p hpd
      simp only [Bool.or_eq_true, decide_eq_true_eq, not_or]
      omega
    rw [hfind]
    dsimp only
    rw [pure_eq_ok]
    -- two strictly increasing lists with the same members are equal
    refine List.Pairwise.eq_of_mem_iff (r := (· < ·))
      (pairwise_lt_insertionSort_portParts ds) hsorted fun p ↦ ?_
    rw [mem_insertionSort_portParts, hmem]

end Wander.Structs
