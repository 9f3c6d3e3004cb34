import Wander.Structs.Alloc

/-!
# `nomad/structs/csi.go`: claims on a CSI volume

A CSI volume records which allocations use it: `ReadAllocs` and `ReadClaims` for readers,
`WriteAllocs` and `WriteClaims` for writers, and `PastClaims` for claims on their way to being
released. `CSIVolume.Claim` takes a claim: a claim in the taken state is admitted as a reader
(`claimRead`) or a writer (`claimWrite`) if the volume is schedulable and has a free claim of that
kind for its access mode, and any other claim moves towards release (`claimRelease`). The first
claim on a volume fixes its access mode; the mode goes back to unknown when the last claim is
freed.

The key sets of the allocation maps and the claim maps agree, and no allocation reads and writes
at once, after every sequence of calls (`reachable_keysAgree`). The bounds of the access modes
hold when every claim names its access mode (`reachable_modeBound`), except the one of
single-node-writer: `HasFreeWriteClaims` does not count the readers, so a volume of that mode
takes a writer beside a reader (`claim_single_node_writer_reader_and_writer`).

Only the fields the claims read or write are kept. An allocation pointer is `none` for nil and
its identifier otherwise; the volume's `ResourceExhausted` time is whether it is set.
-/

set_option autoImplicit false
set_option relaxedAutoImplicit false

namespace Wander.Structs

open Wander.Lib

/-- `structs.CSIVolumeAccessMode`. -/
inductive CSIVolumeAccessMode
  | unknown
  | singleNodeReader
  | singleNodeWriter
  | multiNodeReader
  | multiNodeSingleWriter
  | multiNodeMultiWriter
deriving DecidableEq, Repr

/-- `structs.CSIVolumeAttachmentMode`. -/
inductive CSIVolumeAttachmentMode
  | unknown
  | blockDevice
  | filesystem
deriving DecidableEq, Repr

/-- `structs.CSIVolumeClaimMode`. -/
inductive CSIVolumeClaimMode
  | read
  | write
  | gc
deriving DecidableEq, Repr

/-- `structs.CSIVolumeClaimState`. -/
inductive CSIVolumeClaimState
  | taken
  | nodeDetached
  | controllerDetached
  | readyToFree
  | unpublishing
deriving DecidableEq, Repr

/-- The fields of `structs.CSIVolumeClaim` that the volume reads. -/
structure CSIVolumeClaim where
  allocationID : String
  mode : CSIVolumeClaimMode
  accessMode : CSIVolumeAccessMode
  attachmentMode : CSIVolumeAttachmentMode
  state : CSIVolumeClaimState
deriving DecidableEq, Repr

/-- `structs.CSIVolumeCapability`. -/
structure CSIVolumeCapability where
  attachmentMode : CSIVolumeAttachmentMode
  accessMode : CSIVolumeAccessMode
deriving DecidableEq, Repr

/-- The fields of `structs.CSIVolume` that the claims read or write. -/
structure CSIVolume where
  accessMode : CSIVolumeAccessMode := .unknown
  attachmentMode : CSIVolumeAttachmentMode := .unknown
  requestedCapabilities : List CSIVolumeCapability := []
  readAllocs : GoMap String Unit := ∅
  writeAllocs : GoMap String Unit := ∅
  readClaims : GoMap String CSIVolumeClaim := ∅
  writeClaims : GoMap String CSIVolumeClaim := ∅
  pastClaims : GoMap String CSIVolumeClaim := ∅
  schedulable : Bool := true
  resourceExhausted : Bool := false
deriving DecidableEq

/-- `ErrCSIVolumeMaxClaims`. -/
def errCSIVolumeMaxClaims : String := "volume max claims reached"

/-- `ErrCSIVolumeUnschedulable`. -/
def errCSIVolumeUnschedulable : String := "volume is currently unschedulable"

namespace CSIVolume

/-- Whether an access mode lets a claim write. -/
def isWriterMode : CSIVolumeAccessMode → Bool
  | .singleNodeWriter | .multiNodeSingleWriter | .multiNodeMultiWriter => true
  | _ => false

/-- `CSIVolume.ReadSchedulable`. -/
def readSchedulable (v : CSIVolume) : Bool := v.schedulable && !v.resourceExhausted

/-- `CSIVolume.WriteSchedulable`: a volume of unknown mode is checked against what was asked of
it when it was made. -/
def writeSchedulable (v : CSIVolume) : Bool :=
  if !v.schedulable then false
  else
    match v.accessMode with
    | .singleNodeWriter | .multiNodeSingleWriter | .multiNodeMultiWriter => !v.resourceExhausted
    | .unknown => v.requestedCapabilities.any (isWriterMode ·.accessMode) && !v.resourceExhausted
    | _ => false

/-- `CSIVolume.HasFreeReadClaims`. -/
def hasFreeReadClaims (v : CSIVolume) : Bool :=
  match v.accessMode with
  | .singleNodeReader => v.readClaims.entries.length = 0
  | .singleNodeWriter => v.readClaims.entries.length = 0 && v.writeClaims.entries.length = 0
  | .unknown => true
  | _ => true

/-- `CSIVolume.HasFreeWriteClaims`. -/
def hasFreeWriteClaims (v : CSIVolume) : Bool :=
  match v.accessMode with
  | .singleNodeWriter | .multiNodeSingleWriter => v.writeClaims.entries.length = 0
  | .multiNodeMultiWriter => true
  | .unknown => true
  -- reader modes never have free write claims
  | _ => false

/-- `CSIVolume.setModesFromClaim`: the first claim fixes the modes. -/
def setModesFromClaim (v : CSIVolume) (claim : CSIVolumeClaim) : CSIVolume :=
  let v := if v.attachmentMode = .unknown then { v with attachmentMode := claim.attachmentMode }
    else v
  if v.accessMode = .unknown then { v with accessMode := claim.accessMode } else v

/-- `CSIVolume.claimRead`. -/
def claimRead (v : CSIVolume) (claim : CSIVolumeClaim) (alloc : Option Allocation) :
    Except String CSIVolume :=
  if claim.allocationID ∈ v.readAllocs then .ok v
  else if alloc.isNone then .error ("allocation missing: " ++ claim.allocationID)
  else if !v.readSchedulable then .error errCSIVolumeUnschedulable
  else if !v.hasFreeReadClaims then .error errCSIVolumeMaxClaims
  else
    let id := claim.allocationID
    .ok (setModesFromClaim
      { v with
        readAllocs := v.readAllocs.insert id ()
        writeAllocs := v.writeAllocs.erase id
        readClaims := v.readClaims.insert id claim
        writeClaims := v.writeClaims.erase id
        pastClaims := v.pastClaims.erase id } claim)

/-- `CSIVolume.claimWrite`; it keys the maps by the allocation's identifier. -/
def claimWrite (v : CSIVolume) (claim : CSIVolumeClaim) (alloc : Option Allocation) :
    Except String CSIVolume :=
  if claim.allocationID ∈ v.writeAllocs then .ok v
  else
    match alloc with
    | none => .error ("allocation missing: " ++ claim.allocationID)
    | some alloc =>
      if !v.writeSchedulable then .error errCSIVolumeUnschedulable
      else if !v.hasFreeWriteClaims then .error errCSIVolumeMaxClaims
      else
        .ok (setModesFromClaim
          { v with
            writeAllocs := v.writeAllocs.insert alloc.id ()
            readAllocs := v.readAllocs.erase alloc.id
            writeClaims := v.writeClaims.insert alloc.id claim
            readClaims := v.readClaims.erase alloc.id
            pastClaims := v.pastClaims.erase alloc.id } claim)

/-- `CSIVolume.claimRelease`: a claim ready to be freed leaves every map, and the modes are
forgotten with the last claim; any other claim is recorded as past. -/
def claimRelease (v : CSIVolume) (claim : CSIVolumeClaim) : CSIVolume :=
  if claim.state = .readyToFree then
    let id := claim.allocationID
    let v :=
      { v with
        readAllocs := v.readAllocs.erase id
        writeAllocs := v.writeAllocs.erase id
        readClaims := v.readClaims.erase id
        writeClaims := v.writeClaims.erase id
        pastClaims := v.pastClaims.erase id }
    -- remove the modes if this was the last claim
    if v.readClaims.entries.length = 0 ∧ v.writeClaims.entries.length = 0 ∧
        v.pastClaims.entries.length = 0 then
      { v with accessMode := .unknown, attachmentMode := .unknown }
    else v
  else { v with pastClaims := v.pastClaims.insert claim.allocationID claim }

/-- The compatibility step that opens `CSIVolume.Claim`: a volume registered before 1.1.0 gets its
current modes as its one requested capability. -/
def withRequestedCapability (v : CSIVolume) : CSIVolume :=
  if v.requestedCapabilities.length = 0 ∧ v.accessMode ≠ .unknown ∧
      v.attachmentMode ≠ .unknown then
    { v with requestedCapabilities := [⟨v.attachmentMode, v.accessMode⟩] }
  else v

/-- `CSIVolume.Claim`. -/
def claim (v : CSIVolume) (claim : CSIVolumeClaim) (alloc : Option Allocation) :
    Except String CSIVolume :=
  let v := v.withRequestedCapability
  if v.attachmentMode ≠ .unknown ∧ claim.attachmentMode ≠ .unknown ∧
      v.attachmentMode ≠ claim.attachmentMode then
    .error "cannot change attachment mode of claimed volume"
  else if claim.state = .taken ∧ claim.mode = .read then v.claimRead claim alloc
  else if claim.state = .taken ∧ claim.mode = .write then v.claimWrite claim alloc
  -- either garbage collection or an unpublish checkpoint
  else .ok (v.claimRelease claim)

/-- A call of `Claim` that succeeds, with the allocation, when given, the claim's own. A call that
fails leaves the volume as it was: the state store drops its copy. -/
def Step (v v' : CSIVolume) : Prop :=
  ∃ c alloc, (∀ a ∈ alloc, Allocation.id a = c.allocationID) ∧ v.claim c alloc = .ok v'

/-- `Claim` called with each claim in turn, each on an allocation of the claim's identifier; the
first error stops the sequence. -/
def claimEach (v : CSIVolume) (claims : List CSIVolumeClaim) : Except String CSIVolume :=
  claims.foldlM (fun v c ↦ v.claim c (some { id := c.allocationID })) v

/-- A sequence of calls that succeeds is a path of any relation that holds across each call. -/
theorem claimEach_reflTransGen {R : CSIVolume → CSIVolume → Prop} {v v' : CSIVolume}
    {claims : List CSIVolumeClaim}
    (hR : ∀ u c u', c ∈ claims →
      u.claim c (some { id := c.allocationID }) = .ok u' → R u u')
    (h : v.claimEach claims = .ok v') : Relation.ReflTransGen R v v' := by
  induction claims generalizing v with
  | nil =>
    cases h
    exact .refl
  | cons c claims ih =>
    simp only [claimEach, List.foldlM_cons] at h
    cases hc : v.claim c (some { id := c.allocationID }) with
    | error e =>
      rw [hc] at h
      cases h
    | ok u =>
      rw [hc] at h
      exact .head (hR v c u (by simp) hc)
        (ih (fun u c u' hmem ↦ hR u c u' (List.mem_cons_of_mem _ hmem)) h)

theorem claimEach_step {v v' : CSIVolume} {claims : List CSIVolumeClaim}
    (h : v.claimEach claims = .ok v') : Relation.ReflTransGen Step v v' :=
  claimEach_reflTransGen (fun _ c _ _ hc ↦ ⟨c, _, by simp, hc⟩) h

/-- A taken claim of a single-node-writer volume. -/
def writerClaim (allocationID : String) (mode : CSIVolumeClaimMode) : CSIVolumeClaim :=
  ⟨allocationID, mode, .singleNodeWriter, .filesystem, .taken⟩

/-- An allocation reads a new volume as a single-node-writer, and then another writes it. -/
def readerThenWriter : Except String CSIVolume :=
  ({} : CSIVolume).claimEach [writerClaim "a1" .read, writerClaim "a2" .write]

/-! ### What a call leaves in the maps -/

section Maps

variable (v : CSIVolume) (c : CSIVolumeClaim)

@[simp] theorem readAllocs_setModesFromClaim :
    (v.setModesFromClaim c).readAllocs = v.readAllocs := by
  unfold setModesFromClaim
  dsimp only
  split_ifs <;> rfl

@[simp] theorem writeAllocs_setModesFromClaim :
    (v.setModesFromClaim c).writeAllocs = v.writeAllocs := by
  unfold setModesFromClaim
  dsimp only
  split_ifs <;> rfl

@[simp] theorem readClaims_setModesFromClaim :
    (v.setModesFromClaim c).readClaims = v.readClaims := by
  unfold setModesFromClaim
  dsimp only
  split_ifs <;> rfl

@[simp] theorem writeClaims_setModesFromClaim :
    (v.setModesFromClaim c).writeClaims = v.writeClaims := by
  unfold setModesFromClaim
  dsimp only
  split_ifs <;> rfl

/-- The first claim fixes the access mode; a later one leaves it. -/
theorem accessMode_setModesFromClaim :
    (v.setModesFromClaim c).accessMode =
      if v.accessMode = .unknown then c.accessMode else v.accessMode := by
  unfold setModesFromClaim
  dsimp only
  split_ifs <;> rfl

end Maps

/-- The compatibility step touches none of the maps and neither mode. -/
@[simp] theorem withRequestedCapability_fields (v : CSIVolume) :
    v.withRequestedCapability.accessMode = v.accessMode ∧
      v.withRequestedCapability.attachmentMode = v.attachmentMode ∧
      v.withRequestedCapability.readAllocs = v.readAllocs ∧
      v.withRequestedCapability.writeAllocs = v.writeAllocs ∧
      v.withRequestedCapability.readClaims = v.readClaims ∧
      v.withRequestedCapability.writeClaims = v.writeClaims ∧
      v.withRequestedCapability.pastClaims = v.pastClaims := by
  unfold withRequestedCapability
  split_ifs <;> simp

/-- What `Claim` does when it succeeds: after the compatibility step, the claim is taken as a
reader or a writer, or moves towards release. -/
theorem claim_cases {v v' : CSIVolume} {c : CSIVolumeClaim} {alloc : Option Allocation}
    (h : v.claim c alloc = .ok v') :
    c.state = .taken ∧ c.mode = .read ∧ v.withRequestedCapability.claimRead c alloc = .ok v' ∨
      c.state = .taken ∧ c.mode = .write ∧
        v.withRequestedCapability.claimWrite c alloc = .ok v' ∨
      v' = v.withRequestedCapability.claimRelease c := by
  unfold claim at h
  dsimp only at h
  split_ifs at h with _ hread hwrite
  · exact .inl ⟨hread.1, hread.2, h⟩
  · exact .inr (.inl ⟨hwrite.1, hwrite.2, h⟩)
  · exact .inr (.inr (Except.ok.inj h).symm)

/-! ### The key sets of the maps -/

/-- The allocations and the claims of each kind have the same keys, and no allocation reads and
writes at once. -/
structure KeysAgree (v : CSIVolume) : Prop where
  read : ∀ id, id ∈ v.readAllocs ↔ id ∈ v.readClaims
  write : ∀ id, id ∈ v.writeAllocs ↔ id ∈ v.writeClaims
  disjoint : ∀ id, id ∈ v.readClaims → id ∉ v.writeClaims

/-- Taking an allocation as one kind of user and dropping it from the other keeps the key sets of
the two kinds agreeing and apart. -/
theorem keys_move {ra wa : GoMap String Unit} {rc wc : GoMap String CSIVolumeClaim} {k : String}
    {c : CSIVolumeClaim} (hr : ∀ i, i ∈ ra ↔ i ∈ rc) (hw : ∀ i, i ∈ wa ↔ i ∈ wc) :
    (∀ i, i ∈ ra.insert k () ↔ i ∈ rc.insert k c) ∧
      (∀ i, i ∈ wa.erase k ↔ i ∈ wc.erase k) ∧
      ∀ i, i ∈ rc.insert k c → i ∈ wc.erase k → i ∈ rc := by
  refine ⟨fun i ↦ ?_, fun i ↦ ?_, fun i hin hout ↦ ?_⟩
  · simp only [AList.mem_insert, hr]
  · simp only [AList.mem_erase, hw]
  · rcases (AList.mem_insert _).mp hin with rfl | hin
    · exact absurd rfl (AList.mem_erase.mp hout).1
    · exact hin

namespace KeysAgree

variable {v v' : CSIVolume} {c : CSIVolumeClaim} {alloc : Option Allocation}

theorem setModesFromClaim (hv : KeysAgree v) : KeysAgree (v.setModesFromClaim c) :=
  ⟨by simpa using hv.read, by simpa using hv.write, by simpa using hv.disjoint⟩

theorem claimRead (hv : KeysAgree v) (h : v.claimRead c alloc = .ok v') : KeysAgree v' := by
  unfold CSIVolume.claimRead at h
  split_ifs at h
  · cases h
    exact hv
  · cases h
    obtain ⟨hr, hw, hd⟩ := keys_move (k := c.allocationID) (c := c) hv.read hv.write
    refine KeysAgree.setModesFromClaim ⟨hr, hw, fun i hin hout ↦ ?_⟩
    exact hv.disjoint i (hd i hin hout) (AList.mem_erase.mp hout).2

theorem claimWrite (hv : KeysAgree v) (h : v.claimWrite c alloc = .ok v') : KeysAgree v' := by
  unfold CSIVolume.claimWrite at h
  split at h
  · cases h
    exact hv
  · split at h
    · cases h
    · next a =>
      split_ifs at h
      cases h
      -- the same move, with the writers in the place of the readers
      obtain ⟨hw, hr, hd⟩ := keys_move (k := a.id) (c := c) hv.write hv.read
      refine KeysAgree.setModesFromClaim ⟨hr, hw, fun i hout hin ↦ ?_⟩
      exact hv.disjoint i (AList.mem_erase.mp hout).2 (hd i hin hout)

theorem claimRelease (hv : KeysAgree v) : KeysAgree (v.claimRelease c) := by
  unfold CSIVolume.claimRelease
  dsimp only
  generalize c.allocationID = id
  have hr : ∀ i, i ∈ v.readAllocs.erase id ↔ i ∈ v.readClaims.erase id :=
    fun i ↦ by simp only [AList.mem_erase, hv.read]
  have hw : ∀ i, i ∈ v.writeAllocs.erase id ↔ i ∈ v.writeClaims.erase id :=
    fun i ↦ by simp only [AList.mem_erase, hv.write]
  have hd : ∀ i, i ∈ v.readClaims.erase id → i ∉ v.writeClaims.erase id :=
    fun i hin hout ↦ hv.disjoint i (AList.mem_erase.mp hin).2 (AList.mem_erase.mp hout).2
  split_ifs
  · exact ⟨hr, hw, hd⟩
  · exact ⟨hr, hw, hd⟩
  · exact ⟨hv.read, hv.write, hv.disjoint⟩

theorem step (hv : KeysAgree v) (h : Step v v') : KeysAgree v' := by
  obtain ⟨c, alloc, -, hclaim⟩ := h
  obtain ⟨-, -, hra, hwa, hrc, hwc, -⟩ := withRequestedCapability_fields v
  have hu : KeysAgree v.withRequestedCapability :=
    ⟨hra ▸ hrc ▸ hv.read, hwa ▸ hwc ▸ hv.write, hrc ▸ hwc ▸ hv.disjoint⟩
  rcases claim_cases hclaim with ⟨-, -, h⟩ | ⟨-, -, h⟩ | rfl
  · exact hu.claimRead h
  · exact hu.claimWrite h
  · exact hu.claimRelease

end KeysAgree

/-- The key sets agree after every sequence of calls on a volume without claims. -/
theorem reachable_keysAgree {v : CSIVolume}
    (hreach : Relation.ReflTransGen Step {} v) : KeysAgree v := by
  induction hreach with
  | refl => exact ⟨by simp, by simp, by simp⟩
  | tail _ hstep ih => exact ih.step hstep

theorem reachable_keysAgree_readerThenWriter :
    let v := readerThenWriter.toOption.getD {}
    Relation.ReflTransGen Step {} v ∧ KeysAgree v :=
  have hreach : Relation.ReflTransGen Step {} (readerThenWriter.toOption.getD {}) :=
    claimEach_step (by decide +kernel : readerThenWriter = .ok (readerThenWriter.toOption.getD {}))
  ⟨hreach, reachable_keysAgree hreach⟩

/-! ### The bounds of the access modes -/

section Keys

variable {β : Type} {m : GoMap String β} {id : String} {x : β}

/-- A map with at most one key. -/
def AtMostOne (m : GoMap String β) : Prop := ∀ a ∈ m, ∀ b ∈ m, a = b

/-- A map without keys. -/
def NoKeys (m : GoMap String β) : Prop := ∀ k, k ∉ m

theorem noKeys_of_length_eq_zero (h : m.entries.length = 0) : NoKeys m := by
  intro k hk
  have hnil : m.entries = [] := List.eq_nil_of_length_eq_zero h
  simp [AList.mem_keys, AList.keys, hnil] at hk

theorem NoKeys.atMostOne (h : NoKeys m) : AtMostOne m := fun a ha ↦ absurd ha (h a)

theorem NoKeys.erase (h : NoKeys m) : NoKeys (m.erase id) :=
  fun k hk ↦ h k (AList.mem_erase.mp hk).2

theorem NoKeys.atMostOne_insert (h : NoKeys m) : AtMostOne (m.insert id x) := by
  intro a ha b hb
  rcases (AList.mem_insert _).mp ha with rfl | ha
  · rcases (AList.mem_insert _).mp hb with rfl | hb
    · rfl
    · exact absurd hb (h b)
  · exact absurd ha (h a)

theorem AtMostOne.erase (h : AtMostOne m) : AtMostOne (m.erase id) :=
  fun a ha b hb ↦ h a (AList.mem_erase.mp ha).2 b (AList.mem_erase.mp hb).2

end Keys

/-- What an access mode allows of the claims: none while the mode is unknown, no writer for a
reader mode, and one reader or one writer for a single one. -/
def AccessBound (mode : CSIVolumeAccessMode)
    (readClaims writeClaims : GoMap String CSIVolumeClaim) : Prop :=
  match mode with
  | .unknown => NoKeys readClaims ∧ NoKeys writeClaims
  | .singleNodeReader => AtMostOne readClaims ∧ NoKeys writeClaims
  | .multiNodeReader => NoKeys writeClaims
  | .singleNodeWriter => AtMostOne readClaims ∧ AtMostOne writeClaims
  | .multiNodeSingleWriter => AtMostOne writeClaims
  | .multiNodeMultiWriter => True

/-- The volume's claims keep to its access mode. -/
def ModeBound (v : CSIVolume) : Prop := AccessBound v.accessMode v.readClaims v.writeClaims

/-- A claim that is taken names an access mode, and a writer's mode lets it write. -/
def NamesMode (c : CSIVolumeClaim) : Prop :=
  c.state = .taken → c.accessMode ≠ .unknown ∧ (c.mode = .write → isWriterMode c.accessMode)

instance : DecidablePred NamesMode := fun c ↦ by
  unfold NamesMode
  infer_instance

/-- A call of `Claim` that succeeds with a claim naming its access mode. -/
def ModeStep (v v' : CSIVolume) : Prop :=
  ∃ c alloc, NamesMode c ∧ v.claim c alloc = .ok v'

/-- One reader and no writer fit every named mode. -/
theorem accessBound_one_reader {mode : CSIVolumeAccessMode} {rc wc : GoMap String CSIVolumeClaim}
    (hmode : mode ≠ .unknown) (hr : AtMostOne rc) (hw : NoKeys wc) : AccessBound mode rc wc := by
  cases mode with
  | unknown => exact absurd rfl hmode
  | singleNodeReader => exact ⟨hr, hw⟩
  | multiNodeReader => exact hw
  | singleNodeWriter => exact ⟨hr, hw.atMostOne⟩
  | multiNodeSingleWriter => exact hw.atMostOne
  | multiNodeMultiWriter => trivial

/-- One writer and no reader fit every writer mode. -/
theorem accessBound_one_writer {mode : CSIVolumeAccessMode} {rc wc : GoMap String CSIVolumeClaim}
    (hmode : isWriterMode mode) (hr : NoKeys rc) (hw : AtMostOne wc) : AccessBound mode rc wc := by
  cases mode with
  | unknown | singleNodeReader | multiNodeReader => exact absurd hmode (by decide)
  | singleNodeWriter => exact ⟨hr.atMostOne, hw⟩
  | multiNodeSingleWriter => exact hw
  | multiNodeMultiWriter => trivial

/-- Removing claims keeps every bound. -/
theorem accessBound_erase {mode : CSIVolumeAccessMode} {rc wc : GoMap String CSIVolumeClaim}
    {id id' : String} (h : AccessBound mode rc wc) :
    AccessBound mode (rc.erase id) (wc.erase id') := by
  cases mode with
  | unknown | singleNodeReader | singleNodeWriter => exact ⟨h.1.erase, h.2.erase⟩
  | multiNodeReader => exact NoKeys.erase h
  | multiNodeSingleWriter => exact AtMostOne.erase h
  | multiNodeMultiWriter => trivial

namespace ModeBound

variable {v v' : CSIVolume} {c : CSIVolumeClaim} {alloc : Option Allocation}

/-- Taking a reader: a volume of unknown mode has no claims and takes the claim's mode; a single
one admits a reader only when it has no claim of that kind. -/
theorem claimRead (hv : ModeBound v) (hmode : c.accessMode ≠ .unknown)
    (h : v.claimRead c alloc = .ok v') : ModeBound v' := by
  unfold CSIVolume.claimRead at h
  split_ifs at h with _ _ _ hfree
  · cases h
    exact hv
  · cases h
    unfold ModeBound at hv ⊢
    simp only [accessMode_setModesFromClaim, readClaims_setModesFromClaim,
      writeClaims_setModesFromClaim]
    unfold hasFreeReadClaims at hfree
    unfold AccessBound at hv
    cases hm : v.accessMode <;> simp only [hm, reduceCtorEq, if_true, if_false] at hv hfree ⊢
    case unknown => exact accessBound_one_reader hmode hv.1.atMostOne_insert hv.2.erase
    case singleNodeReader =>
      exact ⟨(noKeys_of_length_eq_zero (by simpa using hfree)).atMostOne_insert, hv.2.erase⟩
    case singleNodeWriter =>
      simp only [Bool.not_eq_true, Bool.not_eq_false', Bool.and_eq_true, decide_eq_true_eq] at hfree
      exact ⟨(noKeys_of_length_eq_zero hfree.1).atMostOne_insert, hv.2.erase⟩
    case multiNodeReader => exact NoKeys.erase hv
    case multiNodeSingleWriter => exact AtMostOne.erase hv
    case multiNodeMultiWriter => trivial

/-- Taking a writer: a volume of unknown mode has no claims and takes the claim's mode, which is a
writer's; a single writer mode admits one only when there is no writer, whatever the readers. -/
theorem claimWrite (hv : ModeBound v) (hmode : isWriterMode c.accessMode)
    (h : v.claimWrite c alloc = .ok v') : ModeBound v' := by
  unfold CSIVolume.claimWrite at h
  split at h
  · cases h
    exact hv
  · split at h
    · cases h
    · split_ifs at h with _ hfree
      cases h
      unfold ModeBound at hv ⊢
      simp only [accessMode_setModesFromClaim, readClaims_setModesFromClaim,
        writeClaims_setModesFromClaim]
      unfold hasFreeWriteClaims at hfree
      unfold AccessBound at hv
      cases hm : v.accessMode <;>
        simp only [hm, reduceCtorEq, if_true, if_false, Bool.not_eq_true, Bool.not_eq_false',
          decide_eq_true_eq] at hv hfree ⊢
      case unknown => exact accessBound_one_writer hmode hv.1.erase hv.2.atMostOne_insert
      case singleNodeWriter =>
        exact ⟨AtMostOne.erase hv.1, (noKeys_of_length_eq_zero hfree).atMostOne_insert⟩
      case multiNodeSingleWriter => exact (noKeys_of_length_eq_zero hfree).atMostOne_insert
      case multiNodeMultiWriter => trivial

/-- Releasing: a claim ready to be freed leaves the maps, and the last one takes the mode back to
unknown; any other release touches neither claim map. -/
theorem claimRelease (hv : ModeBound v) : ModeBound (v.claimRelease c) := by
  unfold CSIVolume.claimRelease
  dsimp only
  split_ifs with _ hlast
  · exact ⟨noKeys_of_length_eq_zero hlast.1, noKeys_of_length_eq_zero hlast.2.1⟩
  · exact accessBound_erase hv
  · exact hv

theorem step (hv : ModeBound v) (h : ModeStep v v') : ModeBound v' := by
  obtain ⟨c, alloc, hnames, hclaim⟩ := h
  obtain ⟨ham, -, -, -, hrc, hwc, -⟩ := withRequestedCapability_fields v
  have hu : ModeBound v.withRequestedCapability := by
    unfold ModeBound
    rw [ham, hrc, hwc]
    exact hv
  rcases claim_cases hclaim with ⟨hstate, -, h⟩ | ⟨hstate, hwrite, h⟩ | rfl
  · exact hu.claimRead (hnames hstate).1 h
  · exact hu.claimWrite ((hnames hstate).2 hwrite) h
  · exact hu.claimRelease

end ModeBound

/-- The bounds of the access modes hold after every sequence of calls on a volume without claims
whose claims name their access modes. -/
theorem reachable_modeBound {v : CSIVolume}
    (hreach : Relation.ReflTransGen ModeStep {} v) : ModeBound v := by
  induction hreach with
  | refl => exact ⟨fun _ ↦ by simp, fun _ ↦ by simp⟩
  | tail _ hstep ih => exact ih.step hstep

theorem reachable_modeBound_readerThenWriter :
    let v := readerThenWriter.toOption.getD {}
    Relation.ReflTransGen ModeStep {} v ∧ ModeBound v :=
  have hreach : Relation.ReflTransGen ModeStep {} (readerThenWriter.toOption.getD {}) :=
    -- both claims are taken and name single-node-writer
    have hnames : ∀ c ∈ [writerClaim "a1" .read, writerClaim "a2" .write], NamesMode c := by
      decide
    claimEach_reflTransGen (fun _ c _ hmem hc ↦ ⟨c, _, hnames c hmem, hc⟩)
      (by decide +kernel :
        readerThenWriter = .ok (readerThenWriter.toOption.getD {}))
  ⟨hreach, reachable_modeBound hreach⟩

/-- The single-node-writer volume holds a reader and a writer at once: the reader's claim found
no claim, and the writer's found no writer. -/
theorem claim_single_node_writer_reader_and_writer :
    readerThenWriter.toOption.map
        (fun v ↦ (v.accessMode, v.readClaims.keys, v.writeClaims.keys)) =
      some (.singleNodeWriter, ["a1"], ["a2"]) := by
  decide +kernel

end CSIVolume

end Wander.Structs
