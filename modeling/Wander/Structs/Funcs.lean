import Wander.Structs.Alloc
import Wander.Lib.Heap

/-!
# `nomad/structs/funcs.go`: `FilterTerminalAllocs`

`FilterTerminalAllocs` takes the terminal allocations out of its slice in place: a terminal
allocation at position `i` is overwritten by the last live one, the last live slot is set to nil,
and position `i` is looked at again. The latest terminal allocation of each name, by
`CreateIndex`, goes into a map.

`FilterInv` is the loop's invariant: every live slot holds an allocation, those before `i` are not
terminal, and the live slots together with the allocations taken out are the input up to
permutation, the map keeping the latest of those taken out (`Latest`). `FilterInv.step` is one
turn, `filterLoop_inv` the whole loop, and `filterTerminalAllocs_spec` reads the result off it.
-/

set_option autoImplicit false
set_option relaxedAutoImplicit false

namespace Wander.Structs

open Wander.Lib
open scoped List

/-- The variables of the loop of `FilterTerminalAllocs`: the slice, whose removed slots hold
nil, the position `i`, the live length `n` and `terminalAllocsByName`. -/
structure FilterState where
  allocs : List (Option Allocation)
  i : ℕ
  n : ℕ
  terminalAllocsByName : GoMap String Allocation

/-- Put `a` in the map when its name is not there yet or the one there has a lower create
index. -/
def recordTerminal (m : GoMap String Allocation) (a : Allocation) : GoMap String Allocation :=
  match m.lookup a.name with
  | some alloc => if alloc.createIndex < a.createIndex then m.insert a.name a else m
  | none => m.insert a.name a

/-- One turn of the loop of `FilterTerminalAllocs`. The loop's `i--` and `i++` cancel, so a
removal keeps the position. `none` where Go would call `TerminalStatus` on a nil pointer. -/
def filterStep (st : FilterState) : Option FilterState :=
  match st.allocs[st.i]? with
  | some (some a) =>
    if a.terminalStatus then
      -- allocs[i], allocs[n-1] = allocs[n-1], nil
      some { allocs := (st.allocs.set st.i (st.allocs.getD (st.n - 1) none)).set (st.n - 1) none
             i := st.i
             n := st.n - 1
             terminalAllocsByName := recordTerminal st.terminalAllocsByName a }
    else some { st with i := st.i + 1 }
  | _ => none

/-- `for i := 0; i < n; i++`, on fuel. -/
def filterLoop : ℕ → FilterState → Option FilterState
  | 0, st => some st
  | fuel + 1, st => if st.i < st.n then (filterStep st).bind (filterLoop fuel) else some st

/-- `FilterTerminalAllocs`. Each turn of the loop shortens the live part or moves past a slot,
so it runs at most once per slot. -/
def filterTerminalAllocs (allocs : List Allocation) :
    Option (List (Option Allocation) × GoMap String Allocation) :=
  (filterLoop allocs.length ⟨allocs.map some, 0, allocs.length, ∅⟩).map
    fun st ↦ (st.allocs.take st.n, st.terminalAllocsByName)

/-! ### The map of latest terminal allocations -/

/-- `m` holds, for each name among `removed`, one of them with the greatest create index, and no
other name. -/
structure Latest (removed : List Allocation) (m : GoMap String Allocation) : Prop where
  mem : ∀ name a, m.lookup name = some a → a ∈ removed ∧ a.name = name
  max : ∀ name a, m.lookup name = some a → ∀ b ∈ removed, b.name = name →
    b.createIndex ≤ a.createIndex
  complete : ∀ b ∈ removed, (m.lookup b.name).isSome

theorem latest_nil : Latest [] ∅ :=
  ⟨fun _ _ h ↦ by simp at h, fun _ _ h ↦ by simp at h, fun _ h ↦ by simp at h⟩

/-- Writing `a` under its name keeps the map latest once `a` beats every earlier one of its name. -/
theorem Latest.insert {removed : List Allocation} {m : GoMap String Allocation}
    (hm : Latest removed m) (a : Allocation)
    (hbeat : ∀ b ∈ removed, b.name = a.name → b.createIndex ≤ a.createIndex) :
    Latest (a :: removed) (m.insert a.name a) := by
  refine ⟨fun name c hc ↦ ?_, fun name c hc b hb hbn ↦ ?_, fun b hb ↦ ?_⟩
  · by_cases hname : name = a.name
    · subst hname
      rw [AList.lookup_insert, Option.some.injEq] at hc
      exact ⟨hc ▸ List.mem_cons_self, hc ▸ rfl⟩
    · rw [AList.lookup_insert_ne hname] at hc
      obtain ⟨hmem, hcn⟩ := hm.mem name c hc
      exact ⟨List.mem_cons_of_mem a hmem, hcn⟩
  · by_cases hname : name = a.name
    · subst hname
      rw [AList.lookup_insert, Option.some.injEq] at hc
      subst hc
      rcases List.mem_cons.mp hb with rfl | hb
      · exact le_rfl
      · exact hbeat b hb hbn
    · rw [AList.lookup_insert_ne hname] at hc
      rcases List.mem_cons.mp hb with rfl | hb
      · exact absurd hbn.symm hname
      · exact hm.max name c hc b hb hbn
  · by_cases hname : b.name = a.name
    · rw [hname, AList.lookup_insert]; rfl
    · rw [AList.lookup_insert_ne hname]
      rcases List.mem_cons.mp hb with rfl | hb
      · exact absurd rfl hname
      · exact hm.complete b hb

theorem Latest.recordTerminal {removed : List Allocation} {m : GoMap String Allocation}
    (hm : Latest removed m) (a : Allocation) :
    Latest (a :: removed) (Wander.Structs.recordTerminal m a) := by
  unfold Wander.Structs.recordTerminal
  cases hlook : m.lookup a.name with
  | none =>
    -- no earlier one of the name
    refine hm.insert a fun b hb hbn ↦ ?_
    have hsome := hm.complete b hb
    rw [hbn, hlook] at hsome
    exact absurd hsome (by simp)
  | some alloc =>
    have hprev : ∀ b ∈ removed, b.name = a.name → b.createIndex ≤ alloc.createIndex :=
      fun b hb hbn ↦ hm.max a.name alloc hlook b hb hbn
    dsimp only
    split_ifs with hlt
    · exact hm.insert a fun b hb hbn ↦ (hprev b hb hbn).trans hlt.le
    · -- the kept one stays: `a` is not newer
      refine ⟨fun name c hc ↦ ?_, fun name c hc b hb hbn ↦ ?_, fun b hb ↦ ?_⟩
      · obtain ⟨hmem, hcn⟩ := hm.mem name c hc
        exact ⟨List.mem_cons_of_mem a hmem, hcn⟩
      · rcases List.mem_cons.mp hb with rfl | hb
        · have hca : c = alloc := by
            rw [← hbn, hlook, Option.some.injEq] at hc
            exact hc.symm
          subst hca
          exact Nat.le_of_not_lt hlt
        · exact hm.max name c hc b hb hbn
      · rcases List.mem_cons.mp hb with rfl | hb
        · rw [hlook]; rfl
        · exact hm.complete b hb

/-! ### The loop -/

/-- Overwriting position `i` and then blanking position `n - 1` leaves, below `n - 1`, the first
`n` slots with `i` overwritten and the last of them dropped. -/
theorem take_set_set {β : Type} (l : List β) {i n : ℕ} (hi : i < n) (hn : n ≤ l.length)
    (x y : β) : ((l.set i x).set (n - 1) y).take (n - 1) = ((l.take n).set i x).dropLast := by
  apply List.ext_getElem?
  intro k
  simp only [List.getElem?_take, List.getElem?_set, List.getElem?_dropLast, List.length_set,
    List.length_take]
  split_ifs <;> simp_all <;> omega

/-- The invariant of the loop of `FilterTerminalAllocs` on `input`. -/
structure FilterInv (input : List Allocation) (st : FilterState) : Prop where
  length : st.allocs.length = input.length
  le : st.i ≤ st.n
  n_le : st.n ≤ input.length
  live : ∀ k < st.n, ∃ a, st.allocs[k]? = some (some a)
  kept : ∀ k < st.i, ∀ a, st.allocs[k]? = some (some a) → a.terminalStatus = false
  removed : ∃ removed : List Allocation,
    st.allocs.take st.n ++ removed.map some ~ input.map some ∧
      (∀ a ∈ removed, a.terminalStatus = true) ∧ Latest removed st.terminalAllocsByName

theorem filterInv_init (input : List Allocation) :
    FilterInv input ⟨input.map some, 0, input.length, ∅⟩ where
  length := List.length_map _
  le := Nat.zero_le _
  n_le := le_rfl
  live k hk := ⟨input[k], by simp [hk]⟩
  kept _ hk := absurd hk (Nat.not_lt_zero _)
  removed := ⟨[], by simp [List.take_of_length_le], by simp, latest_nil⟩

/-- A turn of the loop at a non-terminal allocation moves past it. -/
theorem FilterInv.keep {input : List Allocation} {st : FilterState} (h : FilterInv input st)
    (hi : st.i < st.n) {a : Allocation} (ha : st.allocs[st.i]? = some (some a))
    (hterm : a.terminalStatus = false) : FilterInv input { st with i := st.i + 1 } where
  length := h.length
  le := hi
  n_le := h.n_le
  live := h.live
  kept k hk b hb := by
    rcases Nat.lt_succ_iff_lt_or_eq.mp hk with hk | rfl
    · exact h.kept k hk b hb
    · rw [ha, Option.some.injEq, Option.some.injEq] at hb
      exact hb ▸ hterm
  removed := h.removed

/-- A turn of the loop at a terminal allocation takes it out: the last live slot moves into its
place. -/
theorem FilterInv.remove {input : List Allocation} {st : FilterState} (h : FilterInv input st)
    (hi : st.i < st.n) {a : Allocation} (ha : st.allocs[st.i]? = some (some a))
    (hterm : a.terminalStatus = true) :
    FilterInv input
      { allocs := (st.allocs.set st.i (st.allocs.getD (st.n - 1) none)).set (st.n - 1) none
        i := st.i
        n := st.n - 1
        terminalAllocsByName := recordTerminal st.terminalAllocsByName a } := by
  have hn : st.n ≤ st.allocs.length := h.length ▸ h.n_le
  obtain ⟨last, hlast⟩ := h.live (st.n - 1) (by omega)
  have hlastD : st.allocs.getD (st.n - 1) none = some last := by
    rw [List.getD_eq_getElem?_getD, hlast, Option.getD_some]
  -- slots below `n - 1` other than `i` keep their allocation; `i` now holds the last one
  have hslot : ∀ k < st.n - 1,
      ((st.allocs.set st.i (some last)).set (st.n - 1) none)[k]? =
        if k = st.i then some (some last) else st.allocs[k]? := by
    intro k hk
    rw [List.getElem?_set_ne (by omega)]
    by_cases hki : k = st.i
    · subst hki
      rw [if_pos rfl, List.getElem?_set_self (by omega)]
    · rw [if_neg hki, List.getElem?_set_ne (Ne.symm hki)]
  obtain ⟨removed, hperm, hterminal, hlatest⟩ := h.removed
  rw [hlastD]
  have hnle := h.n_le
  refine ⟨by simp [h.length], by dsimp only; omega, by dsimp only; omega, fun k hk ↦ ?_,
    fun k hk b hb ↦ ?_, ?_⟩ <;> dsimp only at *
  · rw [hslot k hk]
    split_ifs
    · exact ⟨last, rfl⟩
    · exact h.live k (by omega)
  · rw [hslot k (by omega), if_neg (by omega)] at hb
    exact h.kept k hk b hb
  · refine ⟨a :: removed, ?_, ?_, hlatest.recordTerminal a⟩
    · -- the live part is the allocation at `i` and the rest, up to permutation
      have hlen : st.i < (st.allocs.take st.n).length := by simp; omega
      have hget : (st.allocs.take st.n)[st.i] = some a := by
        rw [List.getElem_take]
        exact Option.some.inj ((List.getElem?_eq_getElem (by omega)).symm.trans ha)
      have hgetLast : (st.allocs.take st.n).getLast (List.ne_nil_of_length_pos (by omega)) =
          some last := by
        rw [List.getLast_eq_getElem, List.getElem_take]
        exact Option.some.inj ((List.getElem?_eq_getElem (by simp; omega)).symm.trans
          (by simpa [Nat.min_eq_left hn] using hlast))
      have hsplit := Heap.perm_set_getLast_dropLast hlen
      rw [hget, hgetLast] at hsplit
      rw [take_set_set _ (by omega) hn, List.map_cons]
      calc ((st.allocs.take st.n).set st.i (some last)).dropLast ++ some a :: removed.map some
          ~ some a :: (((st.allocs.take st.n).set st.i (some last)).dropLast ++
              removed.map some) := List.perm_middle
        _ ~ st.allocs.take st.n ++ removed.map some := (hsplit.append_right _).symm
        _ ~ input.map some := hperm
    · intro b hb
      rcases List.mem_cons.mp hb with rfl | hb
      · exact hterm
      · exact hterminal b hb

/-- One turn of the loop keeps the invariant and shortens what is left by one. -/
theorem FilterInv.step {input : List Allocation} {st : FilterState} (h : FilterInv input st)
    (hi : st.i < st.n) :
    ∃ st', filterStep st = some st' ∧ FilterInv input st' ∧
      st'.n - st'.i + 1 = st.n - st.i := by
  obtain ⟨a, ha⟩ := h.live st.i hi
  unfold filterStep
  rw [ha]
  dsimp only
  cases hterm : a.terminalStatus with
  | false => exact ⟨_, rfl, h.keep hi ha hterm, by dsimp only; omega⟩
  | true => exact ⟨_, rfl, h.remove hi ha hterm, by dsimp only; omega⟩

/-- The loop, with fuel for what is left, ends with every live slot looked at. -/
theorem filterLoop_inv {input : List Allocation} :
    ∀ (fuel : ℕ) (st : FilterState), FilterInv input st → st.n - st.i ≤ fuel →
      ∃ st', filterLoop fuel st = some st' ∧ FilterInv input st' ∧ st'.n ≤ st'.i := by
  intro fuel
  induction fuel with
  | zero => intro st h hfuel; exact ⟨st, rfl, h, by omega⟩
  | succ fuel ih =>
    intro st h hfuel
    by_cases hi : st.i < st.n
    · obtain ⟨st', hstep, h', hdec⟩ := h.step hi
      obtain ⟨st'', hloop, h'', hdone⟩ := ih st' h' (by omega)
      refine ⟨st'', ?_, h'', hdone⟩
      rw [filterLoop, if_pos hi, hstep, Option.bind_some, hloop]
    · exact ⟨st, by rw [filterLoop, if_neg hi], h, by omega⟩

/-- `FilterTerminalAllocs` returns the non-terminal allocations of its input, as a multiset, and
a map that sends the name of each terminal allocation to one of the terminal allocations of that
name with the greatest create index, and holds no other name. -/
theorem filterTerminalAllocs_spec (allocs : List Allocation) :
    ∃ kept m, filterTerminalAllocs allocs = some (kept, m) ∧
      kept ~ (allocs.filter fun a ↦ !a.terminalStatus).map some ∧
      ∀ name, ((∃ b ∈ allocs, b.terminalStatus = true ∧ b.name = name) ↔
          (m.lookup name).isSome) ∧
        ∀ a, m.lookup name = some a →
          a ∈ allocs ∧ a.terminalStatus = true ∧ a.name = name ∧
            ∀ b ∈ allocs, b.terminalStatus = true → b.name = name →
              b.createIndex ≤ a.createIndex := by
  obtain ⟨st, hloop, h, hdone⟩ := filterLoop_inv allocs.length _ (filterInv_init allocs)
    (by simp)
  obtain ⟨removed, hperm, hterminal, hlatest⟩ := h.removed
  -- the live part holds exactly the non-terminal allocations, the removed ones the others
  have hlive : ∀ o ∈ st.allocs.take st.n, ∃ a, o = some a ∧ a.terminalStatus = false := by
    intro o ho
    obtain ⟨k, hk, rfl⟩ := List.getElem_of_mem ho
    have hkn : k < st.n := by simp at hk; omega
    obtain ⟨a, ha⟩ := h.live k hkn
    have hak : (st.allocs.take st.n)[k] = some a := by
      rw [List.getElem_take]
      exact Option.some.inj ((List.getElem?_eq_getElem (by simp at hk; omega)).symm.trans ha)
    exact ⟨a, hak, h.kept k (by omega) a ha⟩
  have hsplit : ∀ b ∈ allocs, b.terminalStatus = true → b ∈ removed := by
    intro b hb hbt
    have hmem : some b ∈ st.allocs.take st.n ++ removed.map some :=
      hperm.mem_iff.mpr (List.mem_map_of_mem hb)
    rcases List.mem_append.mp hmem with hmem | hmem
    · obtain ⟨a, hab, hat⟩ := hlive _ hmem
      rw [Option.some.injEq] at hab
      rw [hab, hat] at hbt
      exact absurd hbt (by simp)
    · obtain ⟨c, hc, hcb⟩ := List.mem_map.mp hmem
      exact Option.some.inj hcb ▸ hc
  have hsub : ∀ a ∈ removed, a ∈ allocs := by
    intro a ha
    have hmem : some a ∈ allocs.map some :=
      hperm.mem_iff.mp (List.mem_append_right _ (List.mem_map_of_mem ha))
    obtain ⟨c, hc, hca⟩ := List.mem_map.mp hmem
    exact Option.some.inj hca ▸ hc
  refine ⟨_, _, by rw [filterTerminalAllocs, hloop]; rfl, ?_, fun name ↦ ⟨?_, ?_⟩⟩
  · -- filter both sides of the permutation by "holds a non-terminal allocation"
    let q : Option Allocation → Bool := fun o ↦ o.any fun a ↦ !a.terminalStatus
    have hkept : (st.allocs.take st.n).filter q = st.allocs.take st.n := by
      apply List.filter_eq_self.mpr
      intro o ho
      obtain ⟨a, rfl, ha⟩ := hlive o ho
      simp [q, ha]
    have hrem : (removed.map some).filter q = [] := by
      apply List.filter_eq_nil_iff.mpr
      intro o ho
      obtain ⟨a, ha, rfl⟩ := List.mem_map.mp ho
      simp [q, hterminal a ha]
    have hfilter := hperm.filter q
    rw [List.filter_append, hkept, hrem, List.append_nil, List.filter_map] at hfilter
    exact hfilter
  · constructor
    · rintro ⟨b, hb, hbt, rfl⟩
      exact hlatest.complete b (hsplit b hb hbt)
    · intro hsome
      obtain ⟨a, ha⟩ := Option.isSome_iff_exists.mp hsome
      obtain ⟨hmem, hname⟩ := hlatest.mem name a ha
      exact ⟨a, hsub a hmem, hterminal a hmem, hname⟩
  · intro a ha
    obtain ⟨hmem, hname⟩ := hlatest.mem name a ha
    exact ⟨hsub a hmem, hterminal a hmem, hname,
      fun b hb hbt hbn ↦ hlatest.max name a ha b (hsplit b hb hbt) hbn⟩

end Wander.Structs
