import Mathlib
import Wander.Delayheap.DelayHeap
import Wander.Lib.HeapOrder

/-!
# The order of `lib/delayheap` over every run of calls

`delayedHeapImp.Less` sorts by `WaitUntil` with the zero time after every other: it is the strict
order of `waitKey`, which reads the zero time as `⊤` of `WithTop ℕ` (`less_iff`). `waitKeys` reads
the keys of the slice in slice order, and under it the methods of `impl` are an `OrderView` of the
heap library (`orderView`), so that `heap.Push`, `heap.Pop`, `heap.Remove` and `heap.Fix` keep the
slice in heap order.

`Valid` joins that order to `Consistent`, the invariant of the index map and the `index` fields.
Each exported method keeps it (`push_valid`, `pop_valid`, `update_valid`, `remove_valid`), so
every state a sequence of calls reaches from `NewDelayHeap` has it (`valid_run`). On a valid state
`Peek` returns a node whose key is least in the heap, and `Pop` returns the same node with its
`index` field set to `-1` (`pop_snd_eq`).
-/

set_option autoImplicit false
set_option relaxedAutoImplicit false

namespace Wander.Delayheap

open Wander.Lib Wander.Structs

variable {α : Type}

/-- The time a node waits until as `Less` orders it: the zero time after every other. -/
def waitKey (t : ℕ) : WithTop ℕ := if t = 0 then ⊤ else t

namespace DelayHeap

/-- `Less` is the strict order of the wait keys. -/
theorem less_iff (a b : DelayHeapNode α) :
    less a b = true ↔ waitKey a.waitUntil < waitKey b.waitUntil := by
  unfold less waitKey
  by_cases ha : a.waitUntil = 0 <;> by_cases hb : b.waitUntil = 0 <;> simp [ha, hb]

/-- The wait key of the node a pointer refers to; a pointer the store does not resolve reads as
`⊤`. -/
def keyOf (s : DelayHeap α) (p : ℕ) : WithTop ℕ :=
  ((s.nodes.lookup p).map fun n ↦ waitKey n.waitUntil).getD ⊤

/-- The wait keys of the slice, in slice order. -/
def waitKeys (s : DelayHeap α) : List (WithTop ℕ) := s.heap.map s.keyOf

/-- Every pointer of the slice refers to a stored node. -/
def Resolved (s : DelayHeap α) : Prop := ∀ p ∈ s.heap, (s.nodes.lookup p).isSome

/-- Two stores that hold the same object and wait time under a pointer give it the same key. -/
theorem keyOf_eq_of_node {s t : DelayHeap α} {p : ℕ}
    (h : (t.nodes.lookup p).map (fun n ↦ (n.node, n.waitUntil)) =
      (s.nodes.lookup p).map (fun n ↦ (n.node, n.waitUntil))) : t.keyOf p = s.keyOf p := by
  have hkey := congrArg (Option.map fun x : α × ℕ ↦ waitKey x.2) h
  simp only [Option.map_map, Function.comp_def] at hkey
  unfold keyOf
  rw [hkey]

theorem Consistent.resolved {key : α → NamespacedID} {s : DelayHeap α} (hs : Consistent key s) :
    Resolved s := fun p hp ↦ by
  obtain ⟨k, hk, rfl⟩ := List.getElem_of_mem hp
  obtain ⟨n, hn, -⟩ := hs.positions k _ (List.getElem?_eq_getElem hk)
  rw [hn]
  rfl

/-- A key of the slice is the key of the node at its position. -/
theorem nodeAt_of_waitKeys {s : DelayHeap α} (hs : Resolved s) {i : ℕ} {a : WithTop ℕ}
    (ha : (waitKeys s)[i]? = some a) : ∃ n, s.nodeAt i = some n ∧ waitKey n.waitUntil = a := by
  unfold waitKeys at ha
  rw [List.getElem?_map] at ha
  obtain ⟨p, hp, rfl⟩ := Option.map_eq_some_iff.mp ha
  obtain ⟨n, hn⟩ := Option.isSome_iff_exists.mp (hs p (List.mem_of_getElem? hp))
  exact ⟨n, by simp [nodeAt, hp, hn], by simp [keyOf, hn]⟩

/-- The methods of `delayedHeapImp` swap and compare the wait keys of the slice. -/
theorem orderView : Heap.OrderView (impl (α := α)) Resolved waitKeys where
  len_eq _ := (List.length_map _).symm
  swap_eq s i j := by
    unfold waitKeys
    rw [impl_swap_heap, ← Heap.map_swap]
    exact List.map_congr_left fun p _ ↦ keyOf_eq_of_node (impl_swap_node s i j p)
  swap_P s i j hs p hp := by
    rw [impl_swap_heap, (List.swap_perm _ _ _).mem_iff] at hp
    have hsome := congrArg Option.isSome (impl_swap_node s i j p)
    simp only [Option.isSome_map] at hsome
    rw [hsome]
    exact hs p hp
  less_iff s i j a b hs ha hb := by
    obtain ⟨n, hn, rfl⟩ := nodeAt_of_waitKeys hs ha
    obtain ⟨m, hm, rfl⟩ := nodeAt_of_waitKeys hs hb
    simp only [impl, hn, hm]
    exact less_iff n m

/-- The sift loops move pointers and write `index` fields: every pointer keeps its object and
wait time. -/
theorem up_node (s : DelayHeap α) (fuel j q : ℕ) :
    ((Heap.up impl fuel s j).nodes.lookup q).map (fun n ↦ (n.node, n.waitUntil)) =
      (s.nodes.lookup q).map (fun n ↦ (n.node, n.waitUntil)) :=
  Heap.up_induction impl (fun t ↦ (t.nodes.lookup q).map (fun n ↦ (n.node, n.waitUntil)) =
      (s.nodes.lookup q).map (fun n ↦ (n.node, n.waitUntil)))
    (fun t _ _ ht _ ↦ (impl_swap_node t _ _ q).trans ht) fuel s j rfl

theorem down_node (s : DelayHeap α) (fuel i n q : ℕ) :
    ((Heap.down impl fuel s i n).1.nodes.lookup q).map (fun n ↦ (n.node, n.waitUntil)) =
      (s.nodes.lookup q).map (fun n ↦ (n.node, n.waitUntil)) :=
  Heap.down_induction impl (fun t ↦ (t.nodes.lookup q).map (fun n ↦ (n.node, n.waitUntil)) =
      (s.nodes.lookup q).map (fun n ↦ (n.node, n.waitUntil)))
    (fun t _ _ ht _ ↦ (impl_swap_node t _ _ q).trans ht) fuel s i n rfl

theorem length_up (s : DelayHeap α) (fuel j : ℕ) :
    (Heap.up impl fuel s j).heap.length = s.heap.length :=
  (Heap.up_perm impl_view fuel s j).length_eq

theorem length_down (s : DelayHeap α) (fuel i n : ℕ) :
    (Heap.down impl fuel s i n).1.heap.length = s.heap.length :=
  (Heap.down_perm impl_view fuel s i n).length_eq

/-- `Pop` of the slice's last pointer drops its key from the end. -/
theorem waitKeys_impl_pop (t : DelayHeap α) : waitKeys (impl.pop t).1 = (waitKeys t).dropLast := by
  simp only [impl]
  split
  · rename_i p _
    unfold waitKeys
    rw [List.map_dropLast]
    exact congrArg List.dropLast (List.map_congr_left fun q _ ↦
      keyOf_eq_of_node (lookup_setIndex_node t p q (-1)))
  · rename_i hp
    rw [List.getLast?_eq_none_iff] at hp
    simp [waitKeys, hp]

/-- `Pop` of a slice whose positions before the last are in order leaves an ordered slice. -/
theorem ordered_impl_pop {t : DelayHeap α} (ht : Heap.Ordered (waitKeys t) (t.heap.length - 1)) :
    Heap.Ordered (waitKeys (impl.pop t).1) (impl.pop t).1.heap.length := by
  rw [waitKeys_impl_pop, (impl_view.pop_eq _).1, List.length_dropLast]
  rcases Nat.eq_zero_or_pos t.heap.length with h0 | hpos
  · rw [h0]
    exact fun _ _ hk ↦ absurd hk (Nat.not_lt_zero _)
  · exact ht.dropLast (by simp [waitKeys]; omega)

theorem length_fix (s : DelayHeap α) (i : ℕ) : (Heap.fix impl s i).heap.length = s.heap.length :=
  (Heap.fix_perm impl_view s i).length_eq

section Valid

variable (key : α → NamespacedID)

/-- The invariant of a `DelayHeap` over every run: the index map and the `index` fields agree
with the slice, and the slice is in heap order of its wait keys. -/
structure Valid (s : DelayHeap α) : Prop where
  consistent : Consistent key s
  ordered : Heap.Ordered (waitKeys s) s.heap.length

variable {key}

theorem valid_newDelayHeap : Valid key (newDelayHeap (α := α)) :=
  ⟨consistent_newDelayHeap, fun _ _ hk ↦ absurd hk (Nat.not_lt_zero _)⟩

theorem waitKeys_pushed {s : DelayHeap α} (hs : Consistent key s) (x : α) (next : ℕ) :
    waitKeys (pushed key s x next) = waitKeys s ++ [waitKey next] := by
  have hheap : (pushed key s x next).heap = s.heap ++ [s.fresh] := by simp [pushed, impl]
  unfold waitKeys
  rw [hheap, List.map_append]
  congr 1
  · refine List.map_congr_left fun q hq ↦ ?_
    simp only [keyOf, lookup_pushed, if_neg (Nat.ne_of_lt (hs.fresh_gt q hq))]
  · simp [keyOf, lookup_pushed]

/-- `DelayHeap.Push` keeps the invariant. -/
theorem push_valid {s : DelayHeap α} (hs : Valid key s) (x : α) (next : ℕ) :
    Valid key (push key s x next).1 := by
  by_cases hk : key x ∈ s.index
  · rw [push_of_mem hk]
    exact hs
  · have hcons := (push_spec hs.consistent hk next).1
    have hlen : (pushed key s x next).heap.length = s.heap.length + 1 := by simp [pushed, impl]
    -- `Push` appended the new pointer after the ordered slice
    have ho : Heap.Ordered (waitKeys (pushed key s x next))
        (impl.len (pushed key s x next) - 1) := by
      rw [waitKeys_pushed hs.consistent]
      change Heap.Ordered _ ((pushed key s x next).heap.length - 1)
      rw [hlen, Nat.add_sub_cancel]
      exact hs.ordered.append (by simp [waitKeys]) _
    obtain ⟨hord, -⟩ := Heap.pushUp_order orderView
      (consistent_pushed hs.consistent hk next).resolved (by simp [impl, hlen]) ho
    refine ⟨hcons, ?_⟩
    rw [push_eq_up hk, length_up]
    exact hord

/-- The state `heap.Pop` hands to `Pop`: the root swapped with the last pointer, and `down` run
from the root over the positions before it. -/
def popSifted (s : DelayHeap α) : DelayHeap α :=
  (Heap.down impl (s.heap.length - 1) (impl.swap s 0 (s.heap.length - 1)) 0
    (s.heap.length - 1)).1

theorem heapPop_eq (s : DelayHeap α) : Heap.pop impl s = impl.pop (popSifted s) := rfl

theorem popSifted_node (s : DelayHeap α) (q : ℕ) :
    ((popSifted s).nodes.lookup q).map (fun n ↦ (n.node, n.waitUntil)) =
      (s.nodes.lookup q).map (fun n ↦ (n.node, n.waitUntil)) :=
  (down_node _ _ _ _ q).trans (impl_swap_node s _ _ q)

/-- After the sift, the root's pointer is last. -/
theorem getLast?_popSifted {s : DelayHeap α} {p : ℕ} (hp : s.heap.head? = some p) :
    (popSifted s).heap.getLast? = some p := by
  rw [← (impl_view.pop_eq _).2, ← heapPop_eq, ← hp]
  exact Heap.pop_snd impl_view s

theorem consistent_popSifted {s : DelayHeap α} (hs : Consistent key s) (hne : s.heap ≠ []) :
    Consistent key (popSifted s) := by
  have hpos : 0 < s.heap.length := List.length_pos_iff.mpr hne
  exact consistent_down (consistent_swap hs hpos (by omega)) _ _ _

/-- What `DelayHeap.Pop` does to a nonempty heap: `heap.Pop` takes the root's pointer off the
end, its node comes back with index `-1`, and its key leaves the index map. -/
theorem pop_eq {s : DelayHeap α} (hs : Consistent key s) {p : ℕ} (hp : s.heap.head? = some p) :
    ∃ n, (popSifted s).nodes.lookup p = some n ∧
      pop key s = ({ (impl.pop (popSifted s)).1 with
        index := (popSifted s).index.erase (key n.node) }, some { n with index := -1 }) := by
  have hne : s.heap ≠ [] := by
    rintro h
    rw [h] at hp
    cases hp
  have hlast := getLast?_popSifted hp
  obtain ⟨n, hn⟩ := Option.isSome_iff_exists.mp ((consistent_popSifted hs hne).resolved p
    (List.mem_of_getLast? hlast))
  refine ⟨n, hn, ?_⟩
  have hpop : impl.pop (popSifted s) =
      ({ (popSifted s).setIndex p (-1) with heap := (popSifted s).heap.dropLast }, some p) := by
    simp [impl, hlast]
  have hlen : s.heap.length ≠ 0 := by simpa using hne
  simp only [pop, if_neg hlen, heapPop_eq, hpop, lookup_setIndex_self hn, setIndex_index]

theorem pop_of_nil {s : DelayHeap α} (h : s.heap = []) : pop key s = (s, none) := by
  simp [pop, h]

/-- `DelayHeap.Pop` keeps the invariant. -/
theorem pop_valid {s : DelayHeap α} (hs : Valid key s) : Valid key (pop key s).1 := by
  cases hp : s.heap.head? with
  | none =>
    rw [pop_of_nil (List.head?_eq_none_iff.mp hp)]
    exact hs
  | some p =>
    have hne : s.heap ≠ [] := fun h ↦ by simp [h] at hp
    have ht := consistent_popSifted hs.consistent hne
    obtain ⟨n, hn, hpop⟩ := pop_eq hs.consistent hp
    rw [hpop]
    refine ⟨(pop_erase_spec ht (getLast?_popSifted hp) hn).1, ?_⟩
    -- the slice before the last position is in order after the sift, and `Pop` drops the last
    have hsift : Heap.Ordered (waitKeys (popSifted s)) (s.heap.length - 1) :=
      (Heap.popSift_order orderView hs.consistent.resolved hs.ordered).1
    have hlen : (popSifted s).heap.length = s.heap.length := by
      rw [popSifted, length_down, impl_swap_heap, List.length_swap]
    exact ordered_impl_pop (hlen ▸ hsift)

/-- `DelayHeap.Pop` returns the node `Peek` returns, with its `index` field set to `-1`. -/
theorem pop_snd_eq {s : DelayHeap α} (hs : Consistent key s) :
    (pop key s).2 = (peek s).map ({ · with index := -1 }) := by
  cases hp : s.heap.head? with
  | none =>
    have hnil := List.head?_eq_none_iff.mp hp
    simp [pop_of_nil hnil, peek, nodeAt, hnil]
  | some p =>
    obtain ⟨n, hn, hpop⟩ := pop_eq hs hp
    have hpeek : peek s = s.nodes.lookup p := by
      simp [peek, nodeAt, ← List.head?_eq_getElem?, hp]
    -- the sift moved pointers only, so the node under `p` has the object and wait it had
    have hnode := popSifted_node s p
    rw [hn] at hnode
    obtain ⟨m, hm, hmn⟩ := Option.map_eq_some_iff.mp hnode.symm
    simp only [Prod.mk.injEq] at hmn
    rw [hpop, hpeek, hm]
    cases m
    cases n
    simp_all

/-- The key of the node at a position is the key the slice has there. -/
theorem waitKeys_getElem?_of_nodeAt {s : DelayHeap α} {i : ℕ} {m : DelayHeapNode α}
    (h : s.nodeAt i = some m) : (waitKeys s)[i]? = some (waitKey m.waitUntil) := by
  unfold nodeAt at h
  obtain ⟨p, hp, hm⟩ := Option.bind_eq_some_iff.mp h
  simp [waitKeys, hp, keyOf, hm]

/-- On a valid heap `Peek` returns a node whose wait key is least among the nodes of the slice. -/
theorem peek_le {s : DelayHeap α} (hs : Valid key s) {n : DelayHeapNode α}
    (hn : peek s = some n) {i : ℕ} {m : DelayHeapNode α} (hm : s.nodeAt i = some m) :
    waitKey n.waitUntil ≤ waitKey m.waitUntil := by
  have hi := waitKeys_getElem?_of_nodeAt hm
  have hlt : i < s.heap.length := by
    have := (List.getElem?_eq_some_iff.mp hi).1
    simpa [waitKeys] using this
  exact hs.ordered.root_le i hlt _ _ (waitKeys_getElem?_of_nodeAt hn) hi

theorem consistent_fix {s : DelayHeap α} (hs : Consistent key s) (i : ℕ) :
    Consistent key (Heap.fix impl s i) := by
  simp only [Heap.fix]
  split
  · exact consistent_down hs _ _ _
  · exact consistent_up (consistent_down hs _ _ _) _ _

theorem update_of_none {s : DelayHeap α} {x : α} (hp : s.index.lookup (key x) = none)
    (w : ℕ) : (update key s x w).1 = s := by
  simp [update, hp]

/-- `DelayHeap.Update` of an indexed key: the node under its pointer gets the new object and wait
time, and `heap.Fix` runs at its `index` field. -/
theorem update_eq {s : DelayHeap α} {x : α} {p : ℕ} {n : DelayHeapNode α}
    (hp : s.index.lookup (key x) = some p) (hn : s.nodes.lookup p = some n) (w : ℕ) :
    update key s x w = (Heap.fix impl
      { s with nodes := s.nodes.insert p { n with node := x, waitUntil := w } } n.index.toNat,
      none) := by
  simp [update, hp, hn]

/-- Replacing the object of a node by one with the same key keeps the invariant. -/
theorem consistent_setNode {s : DelayHeap α} (hs : Consistent key s) {p : ℕ}
    {n : DelayHeapNode α} (hn : s.nodes.lookup p = some n) {x : α} (hkey : key x = key n.node)
    (w : ℕ) :
    Consistent key { s with nodes := s.nodes.insert p { n with node := x, waitUntil := w } } := by
  have hlookup : ∀ q, (s.nodes.insert p { n with node := x, waitUntil := w }).lookup q =
      if q = p then some { n with node := x, waitUntil := w } else s.nodes.lookup q := by
    intro q
    split
    · subst q
      exact AList.lookup_insert _
    · exact AList.lookup_insert_ne ‹_›
  refine ⟨hs.nodup, fun k q hq ↦ ?_, fun k q ↦ ?_, hs.fresh_gt⟩
  · simp only [hlookup]
    split
    · -- the replaced node keeps its `index` field
      subst q
      obtain ⟨n', hn', hidx⟩ := hs.positions k p hq
      rw [hn, Option.some.injEq] at hn'
      exact ⟨_, rfl, hn' ▸ hidx⟩
    · exact hs.positions k q hq
  · simp only [hlookup]
    rw [hs.keyed]
    split
    · subst q
      simp [hn, hkey]
    · rfl

/-- Writing a node's wait time under the pointer at position `i` writes its key there. -/
theorem waitKeys_setNode {s : DelayHeap α} (hnd : s.heap.Nodup) {i p : ℕ}
    (hi : s.heap[i]? = some p) (n : DelayHeapNode α) :
    waitKeys { s with nodes := s.nodes.insert p n } = (waitKeys s).set i (waitKey n.waitUntil) := by
  apply List.ext_getElem?
  intro k
  rw [List.getElem?_set]
  unfold waitKeys
  simp only [List.getElem?_map, List.length_map]
  by_cases hik : i = k
  · subst hik
    rw [if_pos rfl, if_pos (List.getElem?_eq_some_iff.mp hi).1, hi]
    simp [keyOf, AList.lookup_insert]
  · rw [if_neg hik]
    cases hk : s.heap[k]? with
    | none => rfl
    | some q =>
      have hqp : q ≠ p := by
        rintro rfl
        exact hik (eq_of_getElem?_eq hnd hi hk)
      simp [keyOf, AList.lookup_insert_ne hqp]

/-- `DelayHeap.Update` keeps the invariant. -/
theorem update_valid {s : DelayHeap α} (hs : Valid key s) (x : α) (w : ℕ) :
    Valid key (update key s x w).1 := by
  cases hp : s.index.lookup (key x) with
  | none =>
    rw [update_of_none hp]
    exact hs
  | some p =>
    obtain ⟨hpin, n, hn, hkey⟩ := (hs.consistent.keyed _ p).mp hp
    obtain ⟨i, hi_lt, hip⟩ := List.getElem_of_mem hpin
    have hi : s.heap[i]? = some p := hip ▸ List.getElem?_eq_getElem hi_lt
    obtain ⟨n', hn', hidx⟩ := hs.consistent.positions i p hi
    rw [hn, Option.some.injEq] at hn'
    subst n'
    have hcons := consistent_setNode hs.consistent hn hkey.symm w
    -- only the key at `i` changed: the order `heap.Fix` at `i` starts from
    have hfix : Heap.FixOrder (waitKeys { s with
        nodes := s.nodes.insert p { n with node := x, waitUntil := w } }) s.heap.length i := by
      rw [waitKeys_setNode hs.consistent.nodup hi]
      exact hs.ordered.set _
    obtain ⟨hord, -⟩ := Heap.fix_order orderView hcons.resolved hfix hi_lt
    have hpos : n.index.toNat = i := by rw [hidx, Int.toNat_natCast]
    rw [update_eq hp hn, hpos]
    exact ⟨consistent_fix hcons i, by rw [length_fix]; exact hord⟩

/-- `DelayHeap.Remove` keeps the invariant. -/
theorem remove_valid {s : DelayHeap α} (hs : Valid key s) (x : α) :
    Valid key (remove key s x).1 := by
  by_cases hk : key x ∈ s.index
  · obtain ⟨p, hp⟩ := Option.isSome_iff_exists.mp (AList.lookup_isSome.mpr hk)
    obtain ⟨k, hkp, hremove⟩ := remove_eq hs.consistent hp
    have hk_lt : k < s.heap.length := (List.getElem?_eq_some_iff.mp hkp).1
    obtain ⟨-, -, -, hcons⟩ := remove_spec hs.consistent hk
    have hsift := (Heap.removeSift_order orderView hs.consistent.resolved hs.ordered hk_lt).1
    have hlen : (Heap.removeSift impl s k).heap.length = s.heap.length :=
      (Heap.removeSift_perm impl_view s k).length_eq
    refine ⟨hcons, ?_⟩
    rw [hremove]
    exact ordered_impl_pop (hlen ▸ hsift)
  · rw [remove_of_not_mem hk]
    exact hs

/-- Every position of a consistent slice holds a node whose `index` field is that position. -/
theorem nodeAt_index {s : DelayHeap α} (hs : Consistent key s) {i : ℕ} (hi : i < s.heap.length) :
    ∃ n, s.nodeAt i = some n ∧ n.index = i := by
  obtain ⟨n, hn, hidx⟩ := hs.positions i s.heap[i] (List.getElem?_eq_getElem hi)
  exact ⟨n, by simp [nodeAt, List.getElem?_eq_getElem hi, hn], hidx⟩

theorem push_snd_of_mem {s : DelayHeap α} {x : α} (hk : key x ∈ s.index) (next : ℕ) :
    (push key s x next).2.isSome := by
  simp [push, hk]

end Valid

/-! ### Runs of calls -/

/-- A call of one of the methods that change a `DelayHeap`. -/
inductive Call (α : Type)
  | push (x : α) (next : ℕ)
  | pop
  | update (x : α) (waitUntil : ℕ)
  | remove (x : α)

section Run

variable (key : α → NamespacedID)

/-- The state a call leaves; what it returns is dropped. -/
def Call.step (s : DelayHeap α) : Call α → DelayHeap α
  | .push x next => (DelayHeap.push key s x next).1
  | .pop => (DelayHeap.pop key s).1
  | .update x waitUntil => (DelayHeap.update key s x waitUntil).1
  | .remove x => (DelayHeap.remove key s x).1

/-- The state a sequence of calls leaves, from `NewDelayHeap`. -/
def run (calls : List (Call α)) : DelayHeap α := calls.foldl (Call.step key) newDelayHeap

variable {key}

theorem valid_step {s : DelayHeap α} (hs : Valid key s) : ∀ c : Call α, Valid key (c.step key s)
  | .push x next => push_valid hs x next
  | .pop => pop_valid hs
  | .update x waitUntil => update_valid hs x waitUntil
  | .remove x => remove_valid hs x

theorem valid_foldl (calls : List (Call α)) :
    ∀ s : DelayHeap α, Valid key s → Valid key (calls.foldl (Call.step key) s) := by
  induction calls with
  | nil => exact fun _ hs ↦ hs
  | cons c calls ih => exact fun s hs ↦ ih _ (valid_step hs c)

/-- Every state a sequence of calls reaches from `NewDelayHeap` is valid. -/
theorem valid_run (calls : List (Call α)) : Valid key (run key calls) :=
  valid_foldl calls _ valid_newDelayHeap

/-- Over every sequence of calls from `NewDelayHeap`: the index map holds exactly the keys of the
objects in the slice, every position holds a node whose `index` field is that position, `Push`
of an indexed key fails and changes nothing, `Peek` returns a node of least wait key whenever the
slice is not empty, a zero wait time counting as later than every other, and `Pop` returns that
node with its `index` field set to `-1`. -/
theorem run_index_positions_least (calls : List (Call α)) :
    let s := run key calls
    (∀ k, k ∈ s.index ↔ ∃ y ∈ items s, key y = k) ∧
      (∀ i < s.heap.length, ∃ n, s.nodeAt i = some n ∧ n.index = i) ∧
      (∀ x next, key x ∈ s.index → (push key s x next).1 = s ∧ (push key s x next).2.isSome) ∧
      (∀ n, peek s = some n → ∀ i m, s.nodeAt i = some m →
        waitKey n.waitUntil ≤ waitKey m.waitUntil) ∧
      (s.heap ≠ [] → (peek s).isSome) ∧
      (pop key s).2 = (peek s).map ({ · with index := -1 }) := by
  intro s
  have hs : Valid key s := valid_run calls
  refine ⟨mem_index_iff hs.consistent, fun i hi ↦ nodeAt_index hs.consistent hi,
    fun x next hk ↦ ⟨push_of_mem hk next, push_snd_of_mem hk next⟩,
    fun n hn i m hm ↦ peek_le hs hn hm, fun hne ↦ ?_, pop_snd_eq hs.consistent⟩
  obtain ⟨n, hn, -⟩ := nodeAt_index hs.consistent (List.length_pos_iff.mpr hne)
  rw [peek, hn]
  rfl

end Run

end DelayHeap

end Wander.Delayheap
