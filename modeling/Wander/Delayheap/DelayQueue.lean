import Mathlib
import Wander.Delayheap.DelayHeapOrder

/-!
# `lib/delayheap` as a keyed delay queue

What a `DelayHeap` stands for is a partial map from a key to the object last pushed or updated
under it and its wait time. `entries` reads that map off the index map and the node store: the
pointer the index holds under a key, and the object and `WaitUntil` of its node. `QueueStep` is
the delay queue the package's callers rely on, stated on such maps: `Push` adds an entry under a
new key and fails on a present one, `Update` replaces a present key's entry, `Remove` deletes it,
both failing on a missing key, and `Pop` removes and returns an entry of least wait key, the zero
time after every other, or nothing from an empty queue.

The sift loops move pointers and write `index` fields, so they leave `entries` as it is
(`entries_up`, `entries_down`, `entries_removeSift`). From a valid heap each method then moves the
entries as one step of the queue (`entries_pushed`, `pop_queueStep`, `entries_setNode`,
`entries_remove`) and replies as the queue does (`queueStep_call`), so that every call after any
run of calls from `NewDelayHeap` is a step of the queue (`run_refines`).
-/

set_option autoImplicit false
set_option relaxedAutoImplicit false

namespace Wander.Delayheap

open Wander.Lib Wander.Structs

variable {α : Type}

/-- The entries of a delay queue: the object and wait time held under each key. -/
abbrev Entries (α : Type) := NamespacedID → Option (α × ℕ)

/-- What a call returns as the queue sees it: success or failure of `Push`, `Update` and `Remove`,
and the object and wait time `Pop` returns, if any. -/
inductive Reply (α : Type)
  | ok
  | failed
  | popped (x : α) (t : ℕ)
  | empty

/-- One call of the keyed delay queue, with its reply. -/
inductive QueueStep (key : α → NamespacedID) : Entries α → DelayHeap.Call α → Entries α →
    Reply α → Prop
  | push_new {m : Entries α} {x : α} {t : ℕ} : m (key x) = none →
      QueueStep key m (.push x t) (Function.update m (key x) (some (x, t))) .ok
  | push_present {m : Entries α} {x : α} {t : ℕ} : (m (key x)).isSome →
      QueueStep key m (.push x t) m .failed
  | pop_empty {m : Entries α} : (∀ k, m k = none) → QueueStep key m .pop m .empty
  | pop_least {m : Entries α} {x : α} {t : ℕ} : m (key x) = some (x, t) →
      (∀ k e, m k = some e → waitKey t ≤ waitKey e.2) →
      QueueStep key m .pop (Function.update m (key x) none) (.popped x t)
  | update_present {m : Entries α} {x : α} {t : ℕ} : (m (key x)).isSome →
      QueueStep key m (.update x t) (Function.update m (key x) (some (x, t))) .ok
  | update_missing {m : Entries α} {x : α} {t : ℕ} : m (key x) = none →
      QueueStep key m (.update x t) m .failed
  | remove_present {m : Entries α} {x : α} : (m (key x)).isSome →
      QueueStep key m (.remove x) (Function.update m (key x) none) .ok
  | remove_missing {m : Entries α} {x : α} : m (key x) = none →
      QueueStep key m (.remove x) m .failed

namespace DelayHeap

/-- The entries a `DelayHeap` holds: under each key, the object and wait time of the node the
index map points to. -/
def entries (s : DelayHeap α) : Entries α := fun k ↦
  (s.index.lookup k).bind fun p ↦ (s.nodes.lookup p).map fun n ↦ (n.node, n.waitUntil)

/-- A failure reply from an error result. -/
def errReply (e : Option String) : Reply α := if e.isSome then .failed else .ok

/-- What a call returns, read as a reply of the queue. -/
def Call.reply (key : α → NamespacedID) (s : DelayHeap α) : Call α → Reply α
  | .push x next => errReply (DelayHeap.push key s x next).2
  | .pop =>
    match (DelayHeap.pop key s).2 with
    | some n => .popped n.node n.waitUntil
    | none => .empty
  | .update x waitUntil => errReply (DelayHeap.update key s x waitUntil).2
  | .remove x => errReply (DelayHeap.remove key s x).2

/-! ### Moving pointers leaves the entries -/

/-- Two heaps whose index maps agree on a key and whose nodes agree on objects and wait times
hold the same entry under that key. -/
theorem entries_apply_of_node {s t : DelayHeap α} {k : NamespacedID}
    (hindex : t.index.lookup k = s.index.lookup k)
    (hnode : ∀ q, (t.nodes.lookup q).map (fun n ↦ (n.node, n.waitUntil)) =
      (s.nodes.lookup q).map (fun n ↦ (n.node, n.waitUntil))) : entries t k = entries s k := by
  simp only [entries, hindex]
  cases s.index.lookup k with
  | none => rfl
  | some p => exact hnode p

theorem entries_eq_of_node {s t : DelayHeap α} (hindex : t.index = s.index)
    (hnode : ∀ q, (t.nodes.lookup q).map (fun n ↦ (n.node, n.waitUntil)) =
      (s.nodes.lookup q).map (fun n ↦ (n.node, n.waitUntil))) : entries t = entries s :=
  funext fun _ ↦ entries_apply_of_node (by rw [hindex]) hnode

theorem up_index (s : DelayHeap α) (fuel j : ℕ) : (Heap.up impl fuel s j).index = s.index :=
  Heap.up_induction impl (fun u ↦ u.index = s.index)
    (fun u _ _ hu _ ↦ (impl_swap_index u _ _).trans hu) fuel s j rfl

theorem down_index (s : DelayHeap α) (fuel i n : ℕ) :
    (Heap.down impl fuel s i n).1.index = s.index :=
  Heap.down_induction impl (fun u ↦ u.index = s.index)
    (fun u _ _ hu _ ↦ (impl_swap_index u _ _).trans hu) fuel s i n rfl

theorem entries_up (s : DelayHeap α) (fuel j : ℕ) : entries (Heap.up impl fuel s j) = entries s :=
  entries_eq_of_node (up_index s fuel j) (up_node s fuel j)

theorem entries_down (s : DelayHeap α) (fuel i n : ℕ) :
    entries (Heap.down impl fuel s i n).1 = entries s :=
  entries_eq_of_node (down_index s fuel i n) (down_node s fuel i n)

theorem entries_swap (s : DelayHeap α) (i j : ℕ) : entries (impl.swap s i j) = entries s :=
  entries_eq_of_node (impl_swap_index s i j) (impl_swap_node s i j)

theorem entries_fix (s : DelayHeap α) (i : ℕ) : entries (Heap.fix impl s i) = entries s :=
  Heap.fix_induction impl (fun t ↦ entries t = entries s)
    (fun t _ _ ht _ ↦ (entries_swap t _ _).trans ht) s i rfl

theorem removeSift_node (s : DelayHeap α) (i q : ℕ) :
    ((Heap.removeSift impl s i).nodes.lookup q).map (fun n ↦ (n.node, n.waitUntil)) =
      (s.nodes.lookup q).map (fun n ↦ (n.node, n.waitUntil)) := by
  simp only [Heap.removeSift]
  split
  · rfl
  · split
    · exact (down_node _ _ _ _ q).trans (impl_swap_node s _ _ q)
    · exact (up_node _ _ _ q).trans ((down_node _ _ _ _ q).trans (impl_swap_node s _ _ q))

theorem entries_removeSift (s : DelayHeap α) (i : ℕ) :
    entries (Heap.removeSift impl s i) = entries s :=
  entries_eq_of_node (removeSift_index s i) (removeSift_node s i)

/-- `Pop` of the last pointer writes its `index` field only. -/
theorem impl_pop_node (t : DelayHeap α) (q : ℕ) :
    ((impl.pop t).1.nodes.lookup q).map (fun n ↦ (n.node, n.waitUntil)) =
      (t.nodes.lookup q).map (fun n ↦ (n.node, n.waitUntil)) := by
  simp only [impl]
  split
  · exact lookup_setIndex_node t _ q (-1)
  · rfl

@[simp] theorem impl_pop_index (t : DelayHeap α) : (impl.pop t).1.index = t.index := by
  simp only [impl]
  split <;> simp

/-- Deleting a key from the index map deletes its entry. -/
theorem entries_erase {s t : DelayHeap α} (k : NamespacedID) (hindex : t.index = s.index.erase k)
    (hnode : ∀ q, (t.nodes.lookup q).map (fun n ↦ (n.node, n.waitUntil)) =
      (s.nodes.lookup q).map (fun n ↦ (n.node, n.waitUntil))) :
    entries t = Function.update (entries s) k none := by
  rw [Function.eq_update_iff]
  refine ⟨by simp [entries, hindex, AList.lookup_erase], fun k' hk ↦ ?_⟩
  exact entries_apply_of_node (by rw [hindex, AList.lookup_erase_ne hk]) hnode

/-! ### Each method as a step of the queue -/

section Steps

variable {key : α → NamespacedID}

/-- Under the invariant a key has an entry exactly when the index map holds it. -/
theorem entries_isSome_iff {s : DelayHeap α} (hs : Consistent key s) (k : NamespacedID) :
    (entries s k).isSome ↔ k ∈ s.index := by
  rw [← AList.lookup_isSome]
  unfold entries
  cases hp : s.index.lookup k with
  | none => simp
  | some p =>
    obtain ⟨-, n, hn, -⟩ := (hs.keyed k p).mp hp
    simp [hn]

theorem entries_eq_none_iff {s : DelayHeap α} (hs : Consistent key s) (k : NamespacedID) :
    entries s k = none ↔ k ∉ s.index := by
  rw [← Option.not_isSome_iff_eq_none, entries_isSome_iff hs]

theorem entries_pushed {s : DelayHeap α} (hs : Consistent key s) (x : α) (next : ℕ) :
    entries (pushed key s x next) = Function.update (entries s) (key x) (some (x, next)) := by
  have hindex : (pushed key s x next).index = s.index.insert (key x) s.fresh := by
    simp [pushed, impl]
  rw [Function.eq_update_iff]
  refine ⟨by simp [entries, hindex, AList.lookup_insert, lookup_pushed], fun k hkx ↦ ?_⟩
  simp only [entries, hindex, AList.lookup_insert_ne hkx]
  cases hp : s.index.lookup k with
  | none => rfl
  | some p =>
    -- an indexed pointer is in the slice, below the fresh one
    obtain ⟨hpin, -⟩ := (hs.keyed k p).mp hp
    simp [lookup_pushed, Nat.ne_of_lt (hs.fresh_gt p hpin)]

theorem push_snd_of_not_mem {s : DelayHeap α} {x : α} (hk : key x ∉ s.index) (next : ℕ) :
    (push key s x next).2 = none := by
  simp [push, hk]

/-- A valid heap's `Peek` node has a wait key at most that of every entry. -/
theorem entries_least {s : DelayHeap α} (hs : Valid key s) {m : DelayHeapNode α}
    (hm : peek s = some m) : ∀ k e, entries s k = some e → waitKey m.waitUntil ≤ waitKey e.2 := by
  intro k e he
  obtain ⟨p, hp, hpe⟩ := Option.bind_eq_some_iff.mp he
  obtain ⟨m', hm', rfl⟩ := Option.map_eq_some_iff.mp hpe
  obtain ⟨hpin, -⟩ := (hs.consistent.keyed k p).mp hp
  obtain ⟨i, hi, hip⟩ := List.getElem_of_mem hpin
  exact peek_le hs hm (i := i) (by simp [nodeAt, List.getElem?_eq_getElem hi, hip, hm'])

/-- `DelayHeap.Pop` of a nonempty valid heap removes and returns an entry of least wait key. -/
theorem pop_queueStep {s : DelayHeap α} (hs : Valid key s) {p : ℕ}
    (hp : s.heap.head? = some p) :
    ∃ n : DelayHeapNode α, (pop key s).2 = some n ∧ entries s (key n.node) = some (n.node, n.waitUntil) ∧
      (∀ k e, entries s k = some e → waitKey n.waitUntil ≤ waitKey e.2) ∧
      entries (pop key s).1 = Function.update (entries s) (key n.node) none := by
  have hne : s.heap ≠ [] := fun h ↦ by simp [h] at hp
  have ht := consistent_popSifted hs.consistent hne
  obtain ⟨n, hn, hpop⟩ := pop_eq hs.consistent hp
  -- the sift moved pointers only
  have hsift : entries (popSifted s) = entries s := by
    rw [popSifted, entries_down, entries_swap]
  have hsnd : (pop key s).2 = some { n with index := -1 } := by rw [hpop]
  -- the node returned is the one `Peek` sees
  obtain ⟨m, hpeek, hmn⟩ := Option.map_eq_some_iff.mp ((pop_snd_eq hs.consistent).symm.trans hsnd)
  have hwait : m.waitUntil = n.waitUntil := by
    have h := congrArg DelayHeapNode.waitUntil hmn
    exact h
  refine ⟨{ n with index := -1 }, hsnd, ?_, fun k e he ↦ hwait ▸ entries_least hs hpeek k e he, ?_⟩
  · have hindex : (popSifted s).index.lookup (key n.node) = some p :=
      (ht.keyed _ p).mpr ⟨List.mem_of_getLast? (getLast?_popSifted hp), n, hn, rfl⟩
    rw [← hsift]
    simp [entries, hindex, hn]
  · rw [hpop, ← hsift]
    exact entries_erase _ rfl (impl_pop_node _)

/-- Under the invariant, the index map and the store of the heap `Update` writes agree with the
entries updated under the key. -/
theorem entries_setNode {s : DelayHeap α} (hs : Consistent key s) {x : α} {p : ℕ}
    {n : DelayHeapNode α} (hp : s.index.lookup (key x) = some p) (hn : s.nodes.lookup p = some n)
    (w : ℕ) :
    entries { s with nodes := s.nodes.insert p { n with node := x, waitUntil := w } } =
      Function.update (entries s) (key x) (some (x, w)) := by
  rw [Function.eq_update_iff]
  refine ⟨by simp [entries, hp, AList.lookup_insert], fun k hkx ↦ ?_⟩
  simp only [entries]
  cases hq : s.index.lookup k with
  | none => rfl
  | some q =>
    -- another key's pointer is another pointer: its node has that key
    have hqp : q ≠ p := by
      rintro rfl
      obtain ⟨-, n', hn', hkey⟩ := (hs.keyed k q).mp hq
      obtain ⟨-, n'', hn'', hkey'⟩ := (hs.keyed (key x) q).mp hp
      rw [hn', Option.some.injEq] at hn''
      exact hkx (hkey.symm.trans (hn'' ▸ hkey'))
    simp [AList.lookup_insert_ne hqp]

theorem update_snd {s : DelayHeap α} {x : α} (w : ℕ) :
    (update key s x w).2.isSome = (s.index.lookup (key x) >>= fun p ↦
      (s.nodes.lookup p).map (p, ·)).isNone := by
  simp only [update]
  split <;> simp_all

theorem remove_snd {s : DelayHeap α} {x : α} :
    (remove key s x).2.isSome = (s.index.lookup (key x) >>= fun p ↦
      (s.nodes.lookup p).map (p, ·)).isNone := by
  simp only [remove]
  split <;> simp_all

/-- `DelayHeap.Remove` of an indexed key deletes its entry. -/
theorem entries_remove {s : DelayHeap α} (hs : Consistent key s) {x : α} {p : ℕ}
    (hp : s.index.lookup (key x) = some p) :
    entries (remove key s x).1 = Function.update (entries s) (key x) none := by
  obtain ⟨k, -, hremove⟩ := remove_eq hs hp
  rw [hremove]
  exact entries_erase (key x) rfl fun q ↦ (impl_pop_node _ q).trans (removeSift_node s k q)

/-- Every call on a valid heap changes its entries and replies as one step of the queue. -/
theorem queueStep_call {s : DelayHeap α} (hs : Valid key s) :
    ∀ c : Call α, QueueStep key (entries s) c (entries (c.step key s)) (c.reply key s)
  | .push x next => by
    simp only [Call.step, Call.reply]
    by_cases hk : key x ∈ s.index
    · rw [push_of_mem hk, errReply, if_pos (push_snd_of_mem hk next)]
      exact .push_present ((entries_isSome_iff hs.consistent _).mpr hk)
    · rw [errReply, push_snd_of_not_mem hk, push_eq_up hk, entries_up,
        entries_pushed hs.consistent x next]
      exact .push_new ((entries_eq_none_iff hs.consistent _).mpr hk)
  | .pop => by
    simp only [Call.step, Call.reply]
    cases hp : s.heap.head? with
    | none =>
      have hnil := List.head?_eq_none_iff.mp hp
      rw [pop_of_nil hnil]
      refine .pop_empty fun k ↦ (entries_eq_none_iff hs.consistent k).mpr fun hk ↦ ?_
      obtain ⟨q, hq⟩ := Option.isSome_iff_exists.mp (AList.lookup_isSome.mpr hk)
      obtain ⟨hqin, -⟩ := (hs.consistent.keyed k q).mp hq
      simp [hnil] at hqin
    | some p =>
      obtain ⟨n, hsnd, hentry, hleast, hentries⟩ := pop_queueStep hs hp
      rw [hsnd, hentries]
      exact .pop_least hentry hleast
  | .update x w => by
    simp only [Call.step, Call.reply]
    cases hp : s.index.lookup (key x) with
    | none =>
      rw [update_of_none hp, errReply, update_snd, hp]
      exact .update_missing (by simp [entries, hp])
    | some p =>
      obtain ⟨-, n, hn, hkey⟩ := (hs.consistent.keyed _ p).mp hp
      rw [update_eq hp hn, entries_fix, entries_setNode hs.consistent hp hn]
      refine .update_present (by simp [entries, hp, hn])
  | .remove x => by
    simp only [Call.step, Call.reply]
    by_cases hk : key x ∈ s.index
    · obtain ⟨p, hp⟩ := Option.isSome_iff_exists.mp (AList.lookup_isSome.mpr hk)
      obtain ⟨-, n, hn, -⟩ := (hs.consistent.keyed _ p).mp hp
      have herr : errReply (remove key s x).2 = (Reply.ok : Reply α) := by
        rw [errReply, remove_snd, hp]
        simp [hn]
      rw [herr, entries_remove hs.consistent hp]
      exact .remove_present ((entries_isSome_iff hs.consistent _).mpr hk)
    · rw [remove_of_not_mem hk, errReply, remove_snd, AList.lookup_eq_none.mpr hk]
      exact .remove_missing ((entries_eq_none_iff hs.consistent _).mpr hk)

/-- After any sequence of calls from `NewDelayHeap`, the next call changes the heap's entries
and replies as one step of the keyed delay queue. -/
theorem run_refines (calls : List (Call α)) (c : Call α) :
    QueueStep key (entries (run key calls)) c (entries (run key (calls ++ [c])))
      (c.reply key (run key calls)) := by
  have hrun : run key (calls ++ [c]) = c.step key (run key calls) := by
    simp only [run, List.foldl_append, List.foldl_cons, List.foldl_nil]
  rw [hrun]
  exact queueStep_call (valid_run calls) c

end Steps

end DelayHeap

end Wander.Delayheap
