import Wander.Structs.Alloc
import Wander.Structs.Evaluation

/-!
# `nomad/drainer/drainer_util.go`: batches of raft requests

The drainer splits what it writes to raft into requests of bounded size. `partitionIds` cuts a
slice of IDs into batches of `maxIds`; `partitionAllocDrain` fills each request first with the
allocation transitions left, in the map's order, and then, if room is left, with evaluations.
Both loops run until everything is submitted, and neither ends when `maxIds` is not positive: the
loops here run on fuel and return `none` when it runs out.

`drainRequest_spec` says what one turn of `partitionAllocDrain`'s loop submits: the next `a`
transitions and the next `b` evaluations, with `a + b` at most `maxIds` and positive while
anything is left. `DrainInv` is the loop's invariant, and `partition_exact` puts the two functions'
contracts together.
-/

set_option autoImplicit false
set_option relaxedAutoImplicit false

namespace Wander.Drainer

open Wander.Lib Wander.Structs
open scoped List

/-- The loop of `partitionIds` from position `index`, on fuel. -/
def partitionIdsLoop (maxIds : ℕ) (ids : List String) :
    ℕ → ℕ → List (List String) → Option (List (List String))
  | 0, _, _ => none
  | fuel + 1, index, partitions =>
    let remaining := ids.length - index
    if 0 < remaining then
      if remaining < maxIds then some (partitions ++ [ids.drop index])
      else partitionIdsLoop maxIds ids fuel (index + maxIds)
        (partitions ++ [(ids.drop index).take maxIds])
    else some partitions

/-- `partitionIds`. One more turn than there are IDs is enough fuel when `maxIds` is positive. -/
def partitionIds (maxIds : ℕ) (ids : List String) : Option (List (List String)) :=
  partitionIdsLoop maxIds ids (ids.length + 1) 0 []

/-- `transitionTuple`; a transition is a pointer, `none` for nil. -/
structure TransitionTuple where
  transitions : GoMap String (Option DesiredTransition)
  evals : List Evaluation

/-- `req.Transitions[id] = transitions[id]` for each of `ids`. -/
def addTransitions (transitions : GoMap String (Option DesiredTransition))
    (m : GoMap String (Option DesiredTransition)) (ids : List String) :
    GoMap String (Option DesiredTransition) :=
  ids.foldl (fun m id ↦ m.insert id (transitions.get id none)) m

/-- The evaluation half of one request: as many of the evaluations left as fit in `available`.
The result is the request, `submittedEvals` and `submittedTrans`. -/
def addEvals (evals : List Evaluation) (submittedEvals available : ℕ) (req : TransitionTuple)
    (submittedTrans : ℕ) : TransitionTuple × ℕ × ℕ :=
  let remaining := evals.length - submittedEvals
  if 0 < remaining then
    if remaining ≤ available then
      ({ req with evals := evals.drop submittedEvals }, submittedEvals + remaining, submittedTrans)
    else
      ({ req with evals := (evals.drop submittedEvals).take available },
        submittedEvals + available, submittedTrans)
  else (req, submittedEvals, submittedTrans)

/-- One turn of the loop of `partitionAllocDrain`: the request it appends and the new
`submittedEvals` and `submittedTrans`. -/
def drainRequest (maxIds : ℕ) (transitions : GoMap String (Option DesiredTransition))
    (allocs : List String) (evals : List Evaluation) (submittedEvals submittedTrans : ℕ) :
    TransitionTuple × ℕ × ℕ :=
  let req : TransitionTuple := ⟨∅, []⟩
  let remaining := allocs.length - submittedTrans
  if 0 < remaining then
    if remaining ≤ maxIds then
      addEvals evals submittedEvals (maxIds - remaining)
        { req with
          transitions := addTransitions transitions req.transitions (allocs.drop submittedTrans) }
        (submittedTrans + remaining)
    else
      -- Exhausted space so skip adding evals
      ({ req with
          transitions :=
            addTransitions transitions req.transitions ((allocs.drop submittedTrans).take maxIds) },
        submittedEvals, submittedTrans + maxIds)
  else addEvals evals submittedEvals maxIds req submittedTrans

/-- The loop of `partitionAllocDrain`, on fuel. -/
def drainLoop (maxIds : ℕ) (transitions : GoMap String (Option DesiredTransition))
    (allocs : List String) (evals : List Evaluation) :
    ℕ → ℕ → ℕ → List TransitionTuple → Option (List TransitionTuple)
  | 0, _, _, _ => none
  | fuel + 1, submittedEvals, submittedTrans, requests =>
    if submittedEvals ≠ evals.length ∨ submittedTrans ≠ transitions.entries.length then
      let (req, submittedEvals, submittedTrans) :=
        drainRequest maxIds transitions allocs evals submittedEvals submittedTrans
      drainLoop maxIds transitions allocs evals fuel submittedEvals submittedTrans
        (requests ++ [req])
    else some requests

/-- `partitionAllocDrain`. The allocations are taken in the map's order; one turn per
transition and evaluation, and one more, is enough fuel when `maxIds` is positive. -/
def partitionAllocDrain (maxIds : ℕ) (transitions : GoMap String (Option DesiredTransition))
    (evals : List Evaluation) : Option (List TransitionTuple) :=
  drainLoop maxIds transitions transitions.keys evals
    (transitions.entries.length + evals.length + 1) 0 0 []

/-! ### `partitionIds` -/

section PartitionIds

variable {maxIds : ℕ} {ids : List String}

/-- The batches made so far cover the IDs before `index`, each nonempty and of at most
`maxIds`. -/
def IdsCovered (maxIds : ℕ) (ids : List String) (index : ℕ) (partitions : List (List String)) :
    Prop :=
  partitions.flatten = ids.take index ∧ ∀ p ∈ partitions, p ≠ [] ∧ p.length ≤ maxIds

theorem partitionIdsLoop_spec (hmax : 0 < maxIds) :
    ∀ (fuel index : ℕ) (partitions : List (List String)), ids.length - index < fuel →
      IdsCovered maxIds ids index partitions →
      ∃ parts, partitionIdsLoop maxIds ids fuel index partitions = some parts ∧
        IdsCovered maxIds ids ids.length parts := by
  intro fuel
  induction fuel with
  | zero => intro _ _ hfuel; omega
  | succ fuel ih =>
    intro index partitions hfuel ⟨hflat, hgood⟩
    simp only [partitionIdsLoop]
    by_cases hrem : 0 < ids.length - index
    · rw [if_pos hrem]
      by_cases hlast : ids.length - index < maxIds
      · -- the last batch takes what is left
        rw [if_pos hlast]
        refine ⟨_, rfl, ?_, ?_⟩
        · rw [List.flatten_append, hflat, List.flatten_singleton, List.take_append_drop,
            List.take_length]
        · intro p hp
          rcases List.mem_append.mp hp with hp | hp
          · exact hgood p hp
          · rw [List.mem_singleton.mp hp]
            exact ⟨by simp; omega, by simp; omega⟩
      · rw [if_neg hlast]
        apply ih _ _ (by omega)
        refine ⟨?_, fun p hp ↦ ?_⟩
        · rw [List.flatten_append, hflat, List.flatten_singleton, List.take_add]
        · rcases List.mem_append.mp hp with hp | hp
          · exact hgood p hp
          · rw [List.mem_singleton.mp hp]
            exact ⟨by simp; omega, by simp⟩
    · rw [if_neg hrem]
      refine ⟨_, rfl, ?_, hgood⟩
      rw [hflat, List.take_of_length_le (by omega), List.take_length]

/-- `partitionIds` ends, and its batches are nonempty, of at most `maxIds`, and the IDs in
order. -/
theorem partitionIds_spec (hmax : 0 < maxIds) :
    ∃ parts, partitionIds maxIds ids = some parts ∧
      (∀ p ∈ parts, p ≠ [] ∧ p.length ≤ maxIds) ∧ parts.flatten = ids := by
  obtain ⟨parts, hloop, hflat, hgood⟩ :=
    @partitionIdsLoop_spec maxIds ids hmax (ids.length + 1) 0 [] (by omega) ⟨by simp, by simp⟩
  exact ⟨parts, hloop, hgood, by rw [hflat, List.take_length]⟩

end PartitionIds

/-! ### The transitions of one request -/

section Transitions

variable (transitions : GoMap String (Option DesiredTransition))

theorem lookup_addTransitions (m : GoMap String (Option DesiredTransition)) (ids : List String)
    (id : String) :
    (addTransitions transitions m ids).lookup id =
      if id ∈ ids then some (transitions.get id none) else m.lookup id := by
  induction ids generalizing m with
  | nil => simp [addTransitions]
  | cons x ids ih =>
    simp only [addTransitions, List.foldl_cons] at ih ⊢
    rw [ih]
    by_cases hid : id ∈ ids
    · simp [hid]
    · by_cases hx : id = x
      · subst hx; simp [AList.lookup_insert]
      · simp [hid, hx, AList.lookup_insert_ne hx]

theorem mem_addTransitions (ids : List String) (id : String) :
    id ∈ addTransitions transitions ∅ ids ↔ id ∈ ids := by
  rw [← AList.lookup_isSome, lookup_addTransitions]
  split_ifs with h <;> simp [h]

/-- The map of a request holds one entry per ID it was given, when they are distinct. -/
theorem length_addTransitions {ids : List String} (hnd : ids.Nodup) :
    (addTransitions transitions ∅ ids).entries.length = ids.length := by
  have hkeys : (addTransitions transitions ∅ ids).keys ~ ids := by
    apply (List.perm_ext_iff_of_nodup (AList.keys_nodup _) hnd).mpr
    intro id
    exact AList.mem_keys.trans (mem_addTransitions transitions ids id)
  rw [← hkeys.length_eq, AList.keys, List.keys, List.length_map]

/-- A map's value at a key is the value `transitions[id]` reads. -/
theorem get_of_lookup {id : String} {v : Option DesiredTransition}
    (h : transitions.lookup id = some v) : transitions.get id none = v := by
  rw [GoMap.get, h, Option.getD_some]

end Transitions

/-! ### `partitionAllocDrain` -/

section Drain

variable {maxIds : ℕ} {transitions : GoMap String (Option DesiredTransition)}
  {evals : List Evaluation}

/-- The evaluation half of a request takes the next `b` evaluations, at most `available`, and
at least one when any is left and there is room. -/
theorem addEvals_spec (submittedEvals available : ℕ) (req : TransitionTuple)
    (hreq : req.evals = []) (submittedTrans : ℕ) (hse : submittedEvals ≤ evals.length) :
    ∃ b, addEvals evals submittedEvals available req submittedTrans =
        ({ req with evals := (evals.drop submittedEvals).take b }, submittedEvals + b,
          submittedTrans) ∧
      submittedEvals + b ≤ evals.length ∧ b ≤ available ∧
      (submittedEvals < evals.length → 0 < available → 0 < b) := by
  unfold addEvals
  dsimp only
  by_cases hrem : 0 < evals.length - submittedEvals
  · rw [if_pos hrem]
    by_cases hfit : evals.length - submittedEvals ≤ available
    · rw [if_pos hfit]
      refine ⟨evals.length - submittedEvals, ?_, by omega, hfit, fun _ _ ↦ hrem⟩
      rw [List.take_of_length_le (by simp)]
    · rw [if_neg hfit]
      exact ⟨available, rfl, by omega, le_rfl, fun _ h ↦ h⟩
  · rw [if_neg hrem]
    refine ⟨0, ?_, by omega, Nat.zero_le _, fun h ↦ absurd (by omega) hrem⟩
    cases req
    simp_all

/-- One turn of the loop submits the next `a` transitions and the next `b` evaluations: at most
`maxIds`, and at least one while anything is left. -/
theorem drainRequest_spec (hmax : 0 < maxIds) (allocs : List String) {submittedEvals
    submittedTrans : ℕ} (hse : submittedEvals ≤ evals.length)
    (hst : submittedTrans ≤ allocs.length) :
    ∃ a b, drainRequest maxIds transitions allocs evals submittedEvals submittedTrans =
        (⟨addTransitions transitions ∅ ((allocs.drop submittedTrans).take a),
          (evals.drop submittedEvals).take b⟩, submittedEvals + b, submittedTrans + a) ∧
      submittedTrans + a ≤ allocs.length ∧ submittedEvals + b ≤ evals.length ∧
      a + b ≤ maxIds ∧
      (submittedTrans < allocs.length ∨ submittedEvals < evals.length → 0 < a + b) := by
  unfold drainRequest
  dsimp only
  by_cases hrem : 0 < allocs.length - submittedTrans
  · rw [if_pos hrem]
    by_cases hfit : allocs.length - submittedTrans ≤ maxIds
    · -- every transition left fits; evaluations fill the rest
      rw [if_pos hfit]
      obtain ⟨b, heq, hb, hbav, -⟩ := @addEvals_spec evals submittedEvals
        (maxIds - (allocs.length - submittedTrans))
        ⟨addTransitions transitions ∅ (allocs.drop submittedTrans), []⟩ rfl
        (submittedTrans + (allocs.length - submittedTrans)) hse
      refine ⟨allocs.length - submittedTrans, b, ?_, by omega, hb, by omega, fun _ ↦ by omega⟩
      rw [heq, List.take_of_length_le (l := allocs.drop submittedTrans) (by simp)]
    · rw [if_neg hfit]
      exact ⟨maxIds, 0, by simp, by omega, by omega, by omega, fun _ ↦ by omega⟩
  · rw [if_neg hrem]
    obtain ⟨b, heq, hb, hbav, hpos⟩ := @addEvals_spec evals submittedEvals maxIds
      ⟨∅, []⟩ rfl submittedTrans hse
    refine ⟨0, b, ?_, by omega, hb, by omega, fun hleft ↦ ?_⟩
    · rw [heq]
      rfl
    · have := hpos (hleft.resolve_left (by omega)) hmax
      omega

/-- The invariant of the loop of `partitionAllocDrain`: the requests made are the parts
submitted so far, in order, each of between one and `maxIds` items. -/
structure DrainInv (maxIds : ℕ) (transitions : GoMap String (Option DesiredTransition))
    (evals : List Evaluation) (submittedEvals submittedTrans : ℕ)
    (requests : List TransitionTuple) : Prop where
  trans_le : submittedTrans ≤ transitions.keys.length
  evals_le : submittedEvals ≤ evals.length
  parts : ∃ parts : List (List String × List Evaluation),
    requests = parts.map (fun p ↦ ⟨addTransitions transitions ∅ p.1, p.2⟩) ∧
      (parts.map Prod.fst).flatten = transitions.keys.take submittedTrans ∧
      (parts.map Prod.snd).flatten = evals.take submittedEvals ∧
      ∀ p ∈ parts, 0 < p.1.length + p.2.length ∧ p.1.length + p.2.length ≤ maxIds

theorem DrainInv.step (hmax : 0 < maxIds) {submittedEvals submittedTrans : ℕ}
    {requests : List TransitionTuple}
    (h : DrainInv maxIds transitions evals submittedEvals submittedTrans requests)
    (hleft : submittedTrans < transitions.keys.length ∨ submittedEvals < evals.length) :
    ∃ a b, drainRequest maxIds transitions transitions.keys evals submittedEvals submittedTrans =
        (⟨addTransitions transitions ∅ ((transitions.keys.drop submittedTrans).take a),
          (evals.drop submittedEvals).take b⟩, submittedEvals + b, submittedTrans + a) ∧
      0 < a + b ∧
      DrainInv maxIds transitions evals (submittedEvals + b) (submittedTrans + a)
        (requests ++
          [⟨addTransitions transitions ∅ ((transitions.keys.drop submittedTrans).take a),
            (evals.drop submittedEvals).take b⟩]) := by
  obtain ⟨a, b, heq, ha, hb, hab, hpos⟩ :=
    @drainRequest_spec maxIds transitions evals hmax transitions.keys _ _ h.evals_le h.trans_le
  obtain ⟨parts, hreq, hfst, hsnd, hgood⟩ := h.parts
  have hpos := hpos hleft
  refine ⟨a, b, heq, hpos, ha, hb, ?_⟩
  refine ⟨parts ++ [((transitions.keys.drop submittedTrans).take a,
    (evals.drop submittedEvals).take b)], by simp [hreq], ?_, ?_, fun p hp ↦ ?_⟩
  · rw [List.map_append, List.flatten_append, hfst, List.map_singleton, List.flatten_singleton,
      List.take_add]
  · rw [List.map_append, List.flatten_append, hsnd, List.map_singleton, List.flatten_singleton,
      List.take_add]
  · rcases List.mem_append.mp hp with hp | hp
    · exact hgood p hp
    · rw [List.mem_singleton.mp hp]
      simp only [List.length_take, List.length_drop]
      omega

theorem drainLoop_spec (hmax : 0 < maxIds) :
    ∀ (fuel submittedEvals submittedTrans : ℕ) (requests : List TransitionTuple),
      DrainInv maxIds transitions evals submittedEvals submittedTrans requests →
      transitions.keys.length - submittedTrans + (evals.length - submittedEvals) < fuel →
      ∃ reqs, drainLoop maxIds transitions transitions.keys evals fuel submittedEvals
          submittedTrans requests = some reqs ∧
        DrainInv maxIds transitions evals evals.length transitions.keys.length reqs := by
  have hlen : transitions.entries.length = transitions.keys.length := by
    rw [AList.keys, List.keys, List.length_map]
  intro fuel
  induction fuel with
  | zero => intro _ _ _ _ hfuel; omega
  | succ fuel ih =>
    intro submittedEvals submittedTrans requests h hfuel
    have hst := h.trans_le
    have hse := h.evals_le
    simp only [drainLoop, hlen]
    by_cases hleft : submittedTrans < transitions.keys.length ∨ submittedEvals < evals.length
    · rw [if_pos (by omega)]
      obtain ⟨a, b, heq, hpos, h'⟩ := h.step hmax hleft
      rw [heq]
      have hst' := h'.trans_le
      have hse' := h'.evals_le
      exact ih (submittedEvals + b) (submittedTrans + a) _ h' (by omega)
    · rw [if_neg (by omega)]
      have hse' : submittedEvals = evals.length := by omega
      have hst' : submittedTrans = transitions.keys.length := by omega
      exact ⟨requests, rfl, hse' ▸ hst' ▸ h⟩

/-- `partitionAllocDrain` ends, and the invariant holds of all it submitted. -/
theorem partitionAllocDrain_inv (hmax : 0 < maxIds) :
    ∃ reqs, partitionAllocDrain maxIds transitions evals = some reqs ∧
      DrainInv maxIds transitions evals evals.length transitions.keys.length reqs := by
  have hlen : transitions.entries.length = transitions.keys.length := by
    rw [AList.keys, List.keys, List.length_map]
  apply drainLoop_spec hmax _ 0 0 [] ⟨Nat.zero_le _, Nat.zero_le _, ⟨[], by simp⟩⟩
  rw [hlen]
  omega

/-- `partitionAllocDrain` ends; its requests split the transitions into disjoint maps whose
union is the map, hand out the evaluations in order, and carry between one and `maxIds` items
each. -/
theorem partitionAllocDrain_spec (hmax : 0 < maxIds) :
    ∃ reqs, partitionAllocDrain maxIds transitions evals = some reqs ∧
      reqs.Pairwise (fun r r' ↦ ∀ id, id ∈ r.transitions → id ∉ r'.transitions) ∧
      (∀ id v, transitions.lookup id = some v ↔
        ∃ r ∈ reqs, r.transitions.lookup id = some v) ∧
      (reqs.map (·.evals)).flatten = evals ∧
      ∀ r ∈ reqs, 0 < r.transitions.entries.length + r.evals.length ∧
        r.transitions.entries.length + r.evals.length ≤ maxIds := by
  obtain ⟨reqs, hrun, h⟩ := @partitionAllocDrain_inv maxIds transitions evals hmax
  obtain ⟨parts, hreq, hfst, hsnd, hgood⟩ := h.parts
  rw [List.take_length] at hfst
  rw [List.take_length] at hsnd
  -- the slices of the parts are the map's keys, which are distinct
  have hnodup : ((parts.map Prod.fst).flatten).Nodup := hfst ▸ transitions.keys_nodup
  obtain ⟨hslice_nodup, hdisjoint⟩ := List.nodup_flatten.mp hnodup
  have hlookup : ∀ p ∈ parts, ∀ id v,
      (addTransitions transitions ∅ p.1).lookup id = some v ↔
        id ∈ p.1 ∧ transitions.get id none = v := by
    intro p _ id v
    rw [lookup_addTransitions]
    split_ifs with hid <;> simp [hid]
  subst hreq
  refine ⟨_, hrun, ?_, fun id v ↦ ?_, ?_, fun r hr ↦ ?_⟩
  · apply List.pairwise_map.mpr
    refine (List.pairwise_map.mp hdisjoint).imp fun {p q} hpq id hp hq ↦ ?_
    rw [mem_addTransitions] at hp hq
    exact List.disjoint_left.mp hpq hp hq
  · constructor
    · intro hv
      have hid : id ∈ (parts.map Prod.fst).flatten := hfst ▸ AList.mem_keys.mpr
        (AList.lookup_isSome.mp (by rw [hv]; rfl))
      obtain ⟨l, hl, hidl⟩ := List.mem_flatten.mp hid
      obtain ⟨p, hp, rfl⟩ := List.mem_map.mp hl
      exact ⟨_, List.mem_map_of_mem hp, (hlookup p hp id v).mpr ⟨hidl, get_of_lookup _ hv⟩⟩
    · rintro ⟨r, hr, hv⟩
      obtain ⟨p, hp, rfl⟩ := List.mem_map.mp hr
      obtain ⟨hidp, hget⟩ := (hlookup p hp id v).mp hv
      have hkey : id ∈ (parts.map Prod.fst).flatten :=
        List.mem_flatten.mpr ⟨p.1, List.mem_map_of_mem hp, hidp⟩
      rw [hfst] at hkey
      have hid : id ∈ transitions := AList.mem_keys.mp hkey
      obtain ⟨w, hw⟩ := Option.isSome_iff_exists.mp (AList.lookup_isSome.mpr hid)
      rw [hw, ← hget, get_of_lookup _ hw]
  · rw [List.map_map]
    exact hsnd
  · obtain ⟨p, hp, rfl⟩ := List.mem_map.mp hr
    rw [length_addTransitions _ (hslice_nodup p.1 (List.mem_map_of_mem hp))]
    exact hgood p hp

end Drain

/-- For every positive `maxIds`, `partitionIds` ends with nonempty batches of at most `maxIds`
IDs that are the IDs in order, and `partitionAllocDrain` ends with requests whose transition
maps are disjoint with the transitions as their union, whose evaluations are the evaluations in
order, and each of which carries between one and `maxIds` transitions and evaluations. -/
theorem partition_exact {maxIds : ℕ} (hmax : 0 < maxIds) (ids : List String)
    (transitions : GoMap String (Option DesiredTransition)) (evals : List Evaluation) :
    (∃ parts, partitionIds maxIds ids = some parts ∧
      (∀ p ∈ parts, p ≠ [] ∧ p.length ≤ maxIds) ∧ parts.flatten = ids) ∧
    ∃ reqs, partitionAllocDrain maxIds transitions evals = some reqs ∧
      reqs.Pairwise (fun r r' ↦ ∀ id, id ∈ r.transitions → id ∉ r'.transitions) ∧
      (∀ id v, transitions.lookup id = some v ↔
        ∃ r ∈ reqs, r.transitions.lookup id = some v) ∧
      (reqs.map (·.evals)).flatten = evals ∧
      ∀ r ∈ reqs, 0 < r.transitions.entries.length + r.evals.length ∧
        r.transitions.entries.length + r.evals.length ≤ maxIds :=
  ⟨partitionIds_spec hmax, partitionAllocDrain_spec hmax⟩

/-- Two allocations to migrate and a third whose transition is nil. -/
def drainTransitions : GoMap String (Option DesiredTransition) :=
  (((∅ : GoMap String (Option DesiredTransition)).insert "a1" (some { migrate := some true })).insert
    "a2" (some { migrate := some true })).insert "a3" none

/-- Two evaluations to create. -/
def drainEvals : List Evaluation := [{ id := "e1" }, { id := "e2" }]

theorem partition_exact_three :
    (0 : ℕ) < 2 ∧
      (∃ parts, partitionIds 2 ["a", "b", "c"] = some parts ∧
        (∀ p ∈ parts, p ≠ [] ∧ p.length ≤ 2) ∧ parts.flatten = ["a", "b", "c"]) ∧
      ∃ reqs, partitionAllocDrain 2 drainTransitions drainEvals = some reqs ∧
        reqs.Pairwise (fun r r' ↦ ∀ id, id ∈ r.transitions → id ∉ r'.transitions) ∧
        (∀ id v, drainTransitions.lookup id = some v ↔
          ∃ r ∈ reqs, r.transitions.lookup id = some v) ∧
        (reqs.map (·.evals)).flatten = drainEvals ∧
        ∀ r ∈ reqs, 0 < r.transitions.entries.length + r.evals.length ∧
          r.transitions.entries.length + r.evals.length ≤ 2 :=
  ⟨by decide, partition_exact (by decide) ["a", "b", "c"] drainTransitions drainEvals⟩

example : partitionIds 2 ["a", "b", "c"] = some [["a", "b"], ["c"]] := by decide

/-- The three transitions and two evaluations go out as two, two and one. -/
example :
    ((partitionAllocDrain 2 drainTransitions drainEvals).map fun reqs ↦
      reqs.map fun r ↦ (r.transitions.keys, r.evals.map (·.id))) =
      some [(["a2", "a3"], []), (["a1"], ["e1"]), ([], ["e2"])] := by
  decide

end Wander.Drainer
