import Wander.Lib.Heap
import Wander.Structs.Evaluation

/-!
# `lib/delayheap`: a heap of delayed objects with a key index

`DelayHeap` keeps `*delayHeapNode` pointers both in an index map keyed by `(ID, Namespace)` and
in the slice that `container/heap` orders by `WaitUntil`, and `Swap` writes each moved node's
`index` field through the pointer. The model keeps the pointed-to nodes in a store addressed by
pointer, so the aliasing is explicit: the map and the slice hold pointers, and the `Interface`
instance writes the `index` field in the store exactly where Go's `Swap`, `Push` and `Pop` do.

`Consistent` is the structure's invariant: every slice position holds a distinct pointer to a
stored node whose `index` field is that position, and the index map sends a key to a pointer
exactly when the pointer is in the slice and its node has that key. `push_spec` and
`remove_spec` say what the two operations the evaluation broker calls do to the held objects
under it, and that they keep it.
-/

set_option autoImplicit false
set_option relaxedAutoImplicit false

namespace Wander.Delayheap

open Wander.Lib Wander.Structs
open scoped List

/-- `delayHeapNode`: the stored object, its wait time (zero is Go's zero time) and its slice
position, `-1` once popped. -/
structure DelayHeapNode (α : Type) where
  node : α
  waitUntil : ℕ
  index : ℤ
deriving DecidableEq

/-- `DelayHeap`, with its nodes in a store addressed by pointer. `fresh` is the next unused
pointer. -/
structure DelayHeap (α : Type) where
  nodes : GoMap ℕ (DelayHeapNode α)
  index : GoMap NamespacedID ℕ
  heap : List ℕ
  fresh : ℕ

/-- `NewDelayHeap`. -/
def newDelayHeap {α : Type} : DelayHeap α := ⟨∅, ∅, [], 0⟩

variable {α : Type}

namespace DelayHeap

/-- Write the `index` field of the node a pointer refers to. -/
def setIndex (s : DelayHeap α) (p : ℕ) (i : ℤ) : DelayHeap α :=
  match s.nodes.lookup p with
  | some n => { s with nodes := s.nodes.insert p { n with index := i } }
  | none => s

/-- The node at a slice position. -/
def nodeAt (s : DelayHeap α) (i : ℕ) : Option (DelayHeapNode α) :=
  s.heap[i]?.bind s.nodes.lookup

/-- `delayedHeapImp.Less`: zero wait times sort after all others. -/
def less (a b : DelayHeapNode α) : Bool :=
  if a.waitUntil = 0 then false else if b.waitUntil = 0 then true else a.waitUntil < b.waitUntil

/-- `delayedHeapImp` as a `heap.Interface` on the whole structure. -/
def impl : Heap.Interface (DelayHeap α) ℕ where
  len s := s.heap.length
  less s i j :=
    match s.nodeAt i, s.nodeAt j with
    | some a, some b => less a b
    | _, _ => false
  swap s i j :=
    let t := { s with heap := s.heap.swap i j }
    match t.heap[i]?, t.heap[j]? with
    | some pi, some pj => (t.setIndex pi i).setIndex pj j
    | _, _ => t
  push s p := { s.setIndex p s.heap.length with heap := s.heap ++ [p] }
  pop s :=
    match s.heap.getLast? with
    | some p => ({ s.setIndex p (-1) with heap := s.heap.dropLast }, some p)
    | none => (s, none)

section Operations

variable (key : α → NamespacedID)

/-- `DelayHeap.Push`: an object whose key is already indexed is refused. -/
def push (s : DelayHeap α) (x : α) (next : ℕ) : DelayHeap α × Option String :=
  let k := key x
  if k ∈ s.index then
    (s, some ("node \"" ++ k.id ++ "\" (" ++ k.namespace ++ ") already exists"))
  else
    let p := s.fresh
    let s₁ : DelayHeap α :=
      { s with
        nodes := s.nodes.insert p ⟨x, next, 0⟩
        index := s.index.insert k p
        fresh := p + 1 }
    (Heap.push impl s₁ p, none)

/-- The state `DelayHeap.Push` hands to `heap.Push`, after `Push` appended the new pointer. -/
def pushed (s : DelayHeap α) (x : α) (next : ℕ) : DelayHeap α :=
  impl.push
    { s with
      nodes := s.nodes.insert s.fresh ⟨x, next, 0⟩
      index := s.index.insert (key x) s.fresh
      fresh := s.fresh + 1 } s.fresh

/-- `DelayHeap.Pop`: the earliest node, removed from the slice and the index. -/
def pop (s : DelayHeap α) : DelayHeap α × Option (DelayHeapNode α) :=
  if s.heap.length = 0 then (s, none)
  else
    match Heap.pop impl s with
    | (s', some p) =>
      match s'.nodes.lookup p with
      | some n => ({ s' with index := s'.index.erase (key n.node) }, some n)
      -- A pointer into the store always resolves: the store never drops a node.
      | none => (s', none)
    | (s', none) => (s', none)

/-- `DelayHeap.Peek`. -/
def peek (s : DelayHeap α) : Option (DelayHeapNode α) := s.nodeAt 0

/-- `DelayHeap.Update`: replace the object and wait time of the indexed node and fix its
position. -/
def update (s : DelayHeap α) (x : α) (waitUntil : ℕ) : DelayHeap α × Option String :=
  let k := key x
  match s.index.lookup k >>= fun p ↦ (s.nodes.lookup p).map (p, ·) with
  | some (p, n) =>
    let s₁ := { s with nodes := s.nodes.insert p { n with node := x, waitUntil := waitUntil } }
    (Heap.fix impl s₁ n.index.toNat, none)
  | none => (s, some ("heap doesn't contain object with ID \"" ++ k.id ++ "\" (" ++ k.namespace ++ ")"))

/-- `DelayHeap.Remove`. -/
def remove (s : DelayHeap α) (x : α) : DelayHeap α × Option String :=
  let k := key x
  match s.index.lookup k >>= fun p ↦ (s.nodes.lookup p).map (p, ·) with
  | some (_, n) => ({ (Heap.remove impl s n.index.toNat).1 with index := s.index.erase k }, none)
  | none => (s, some ("heap doesn't contain object with ID \"" ++ k.id ++ "\" (" ++ k.namespace ++ ")"))

/-- `DelayHeap.Length`. -/
def length (s : DelayHeap α) : ℕ := s.heap.length

end Operations

/-! ### The store under the heap methods -/

@[simp] theorem setIndex_heap (s : DelayHeap α) (p : ℕ) (i : ℤ) : (s.setIndex p i).heap = s.heap := by
  unfold setIndex; split <;> rfl

@[simp] theorem setIndex_index (s : DelayHeap α) (p : ℕ) (i : ℤ) :
    (s.setIndex p i).index = s.index := by
  unfold setIndex; split <;> rfl

@[simp] theorem setIndex_fresh (s : DelayHeap α) (p : ℕ) (i : ℤ) :
    (s.setIndex p i).fresh = s.fresh := by
  unfold setIndex; split <;> rfl

theorem lookup_setIndex (s : DelayHeap α) (p q : ℕ) (i : ℤ) :
    (s.setIndex p i).nodes.lookup q =
      if q = p then (s.nodes.lookup p).map ({ · with index := i }) else s.nodes.lookup q := by
  unfold setIndex
  split
  · rename_i n hn
    split
    · subst q; simp [AList.lookup_insert, hn]
    · rename_i hne; simp [AList.lookup_insert_ne hne]
  · rename_i hn
    split
    · subst q; simp [hn]
    · rfl

/-- Writing an `index` field changes no node's object or wait time. -/
theorem lookup_setIndex_node (s : DelayHeap α) (p q : ℕ) (i : ℤ) :
    ((s.setIndex p i).nodes.lookup q).map (fun n ↦ (n.node, n.waitUntil)) =
      (s.nodes.lookup q).map (fun n ↦ (n.node, n.waitUntil)) := by
  rw [lookup_setIndex]
  split
  · subst q; cases s.nodes.lookup p <;> rfl
  · rfl

@[simp] theorem impl_swap_heap (s : DelayHeap α) (i j : ℕ) :
    (impl.swap s i j).heap = s.heap.swap i j := by
  simp only [impl]; split <;> simp

@[simp] theorem impl_swap_index (s : DelayHeap α) (i j : ℕ) :
    (impl.swap s i j).index = s.index := by
  simp only [impl]; split <;> simp

@[simp] theorem impl_swap_fresh (s : DelayHeap α) (i j : ℕ) :
    (impl.swap s i j).fresh = s.fresh := by
  simp only [impl]; split <;> simp

theorem impl_swap_node (s : DelayHeap α) (i j q : ℕ) :
    ((impl.swap s i j).nodes.lookup q).map (fun n ↦ (n.node, n.waitUntil)) =
      (s.nodes.lookup q).map (fun n ↦ (n.node, n.waitUntil)) := by
  simp only [impl]
  split
  · rw [lookup_setIndex_node, lookup_setIndex_node]
  · rfl

theorem impl_view : Heap.View (impl (α := α)) DelayHeap.heap where
  len_eq _ := rfl
  swap_eq s i j := impl_swap_heap s i j
  push_eq s p := rfl
  pop_eq s := by
    simp only [impl]
    split
    · rename_i p hp; simp [hp]
    · rename_i hp
      rw [List.getLast?_eq_none_iff] at hp
      simp [hp]

/-- A position that compares less holds a node. -/
theorem lt_length_of_less {s : DelayHeap α} {a b : ℕ} (h : impl.less s a b = true) :
    a < s.heap.length ∧ b < s.heap.length := by
  simp only [impl, nodeAt] at h
  split at h
  · rename_i x y hx hy
    constructor
    · by_contra hge
      rw [List.getElem?_eq_none (by omega)] at hx
      simp at hx
    · by_contra hge
      rw [List.getElem?_eq_none (by omega)] at hy
      simp at hy
  · simp at h

theorem lookup_setIndex_self {s : DelayHeap α} {p : ℕ} {n : DelayHeapNode α}
    (hn : s.nodes.lookup p = some n) (i : ℤ) :
    (s.setIndex p i).nodes.lookup p = some { n with index := i } := by
  rw [lookup_setIndex, if_pos rfl, hn, Option.map_some]

theorem lookup_setIndex_ne (s : DelayHeap α) {p q : ℕ} (h : q ≠ p) (i : ℤ) :
    (s.setIndex p i).nodes.lookup q = s.nodes.lookup q := by
  rw [lookup_setIndex, if_neg h]

/-- Every slice position holds a pointer to a stored node whose `index` field is that position. -/
def Positions (s : DelayHeap α) : Prop :=
  ∀ (k p : ℕ), s.heap[k]? = some p → ∃ n, s.nodes.lookup p = some n ∧ n.index = k

theorem impl_swap_of_lt (s : DelayHeap α) {i j : ℕ} (hi : i < s.heap.length)
    (hj : j < s.heap.length) :
    impl.swap s i j = ({ s with heap := s.heap.swap i j }.setIndex s.heap[j] i).setIndex s.heap[i] j := by
  simp only [impl, Heap.getElem?_swap_right hi hj, List.getElem?_eq_getElem hi]
  rw [List.swap_comm, Heap.getElem?_swap_right hj hi, List.getElem?_eq_getElem hj, List.swap_comm]

/-- A position of a slice without repeated elements is determined by its element. -/
theorem eq_of_getElem?_eq {l : List ℕ} (hnd : l.Nodup) {a b p : ℕ} (ha : l[a]? = some p)
    (hb : l[b]? = some p) : a = b := by
  have hlt : a < l.length := by
    by_contra hge
    rw [List.getElem?_eq_none (by omega)] at ha
    simp at ha
  exact (List.getElem?_inj hlt hnd).mp (ha.trans hb.symm)

theorem positions_swap {s : DelayHeap α} (hnd : s.heap.Nodup) (hpos : Positions s) {i j : ℕ}
    (hi : i < s.heap.length) (hj : j < s.heap.length) : Positions (impl.swap s i j) := by
  have hnd' : (s.heap.swap i j).Nodup := (List.swap_perm _ _ _).nodup_iff.mpr hnd
  have hsj : (s.heap.swap i j)[j]? = some s.heap[i] := by
    rw [Heap.getElem?_swap_right hi hj, List.getElem?_eq_getElem hi]
  have hsi : (s.heap.swap i j)[i]? = some s.heap[j] := by
    rw [List.swap_comm, Heap.getElem?_swap_right hj hi, List.getElem?_eq_getElem hj]
  obtain ⟨na, hna, -⟩ := hpos i s.heap[i] (List.getElem?_eq_getElem hi)
  obtain ⟨nb, hnb, -⟩ := hpos j s.heap[j] (List.getElem?_eq_getElem hj)
  intro k q hq
  rw [impl_swap_of_lt s hi hj] at hq ⊢
  simp only [setIndex_heap] at hq
  -- The pointer written last now sits at `j`, the one written first at `i`; any other pointer
  -- keeps its position and its field.
  by_cases hqa : q = s.heap[i]
  · subst q
    have hk : k = j := eq_of_getElem?_eq hnd' hq hsj
    subst k
    by_cases hab : s.heap[i] = s.heap[j]
    · have hij : i = j := (List.getElem_inj hnd).mp hab
      subst j
      exact ⟨_, lookup_setIndex_self
        (lookup_setIndex_self (s := { s with heap := s.heap.swap i i }) hna _) _, rfl⟩
    · have hinner : ({ s with heap := s.heap.swap i j }.setIndex s.heap[j] i).nodes.lookup
          s.heap[i] = some na := by
        rw [lookup_setIndex_ne _ hab]; exact hna
      exact ⟨_, lookup_setIndex_self hinner _, rfl⟩
  · by_cases hqb : q = s.heap[j]
    · subst q
      have hk : k = i := eq_of_getElem?_eq hnd' hq hsi
      subst k
      rw [lookup_setIndex_ne _ hqa]
      exact ⟨_, lookup_setIndex_self (s := { s with heap := s.heap.swap i j }) hnb _, rfl⟩
    · have hki : k ≠ i := by
        rintro rfl
        exact hqb (Option.some.inj (hq.symm.trans hsi))
      have hkj : k ≠ j := by
        rintro rfl
        exact hqa (Option.some.inj (hq.symm.trans hsj))
      rw [lookup_setIndex_ne _ hqa, lookup_setIndex_ne _ hqb]
      exact hpos k q ((Heap.getElem?_swap_of_ne hki hkj).symm.trans hq)

/-- The objects held, in slice order. -/
def items (s : DelayHeap α) : List α :=
  s.heap.filterMap fun p ↦ (s.nodes.lookup p).map (·.node)

section Consistent

variable (key : α → NamespacedID)

/-- The invariant of a `DelayHeap` whose objects have keys `key`. -/
structure Consistent (s : DelayHeap α) : Prop where
  nodup : s.heap.Nodup
  positions : Positions s
  keyed : ∀ k p, s.index.lookup k = some p ↔
    p ∈ s.heap ∧ ∃ n, s.nodes.lookup p = some n ∧ key n.node = k
  fresh_gt : ∀ p ∈ s.heap, p < s.fresh

variable {key}

theorem impl_swap_keyed (s : DelayHeap α) (i j p : ℕ) (k : NamespacedID) :
    (∃ n, (impl.swap s i j).nodes.lookup p = some n ∧ key n.node = k) ↔
      ∃ n, s.nodes.lookup p = some n ∧ key n.node = k := by
  have hnode := impl_swap_node s i j p
  constructor
  · rintro ⟨n, hn, hk⟩
    rw [hn] at hnode
    cases hs : s.nodes.lookup p with
    | none => simp [hs] at hnode
    | some m =>
      simp only [hs, Option.map_some, Option.some.injEq, Prod.mk.injEq] at hnode
      exact ⟨m, rfl, hnode.1 ▸ hk⟩
  · rintro ⟨m, hm, hk⟩
    rw [hm] at hnode
    cases hs : (impl.swap s i j).nodes.lookup p with
    | none => simp [hs] at hnode
    | some n =>
      simp only [hs, Option.map_some, Option.some.injEq, Prod.mk.injEq] at hnode
      exact ⟨n, rfl, hnode.1.symm ▸ hk⟩

theorem consistent_swap {s : DelayHeap α} (hs : Consistent key s) {i j : ℕ}
    (hi : i < s.heap.length) (hj : j < s.heap.length) : Consistent key (impl.swap s i j) where
  nodup := by
    rw [impl_swap_heap]
    exact (List.swap_perm _ _ _).nodup_iff.mpr hs.nodup
  positions := positions_swap hs.nodup hs.positions hi hj
  keyed k p := by
    rw [impl_swap_index, impl_swap_keyed, impl_swap_heap, (List.swap_perm _ _ _).mem_iff]
    exact hs.keyed k p
  fresh_gt p hp := by
    rw [impl_swap_heap, (List.swap_perm _ _ _).mem_iff] at hp
    rw [impl_swap_fresh]
    exact hs.fresh_gt p hp

theorem consistent_up {s : DelayHeap α} (hs : Consistent key s) (fuel j : ℕ) :
    Consistent key (Heap.up impl fuel s j) :=
  Heap.up_induction impl (Consistent key)
    (fun _ _ _ ht hless ↦ consistent_swap ht (lt_length_of_less hless).2
      (lt_length_of_less hless).1) fuel s j hs

theorem consistent_down {s : DelayHeap α} (hs : Consistent key s) (fuel i n : ℕ) :
    Consistent key (Heap.down impl fuel s i n).1 :=
  Heap.down_induction impl (Consistent key)
    (fun _ _ _ ht hless ↦ consistent_swap ht (lt_length_of_less hless).2
      (lt_length_of_less hless).1) fuel s i n hs

theorem items_swap (s : DelayHeap α) (i j : ℕ) : items (impl.swap s i j) ~ items s := by
  have hf : (fun p ↦ ((impl.swap s i j).nodes.lookup p).map (·.node)) =
      fun p ↦ (s.nodes.lookup p).map (·.node) := by
    funext p
    have hnode := congrArg (Option.map Prod.fst) (impl_swap_node s i j p)
    simpa [Option.map_map, Function.comp_def] using hnode
  unfold items
  rw [hf, impl_swap_heap]
  exact (List.swap_perm _ _ _).filterMap _

theorem items_up (s : DelayHeap α) (fuel j : ℕ) : items (Heap.up impl fuel s j) ~ items s :=
  Heap.up_induction impl (fun t ↦ items t ~ items s)
    (fun t _ _ ht _ ↦ (items_swap t _ _).trans ht) fuel s j (List.Perm.refl _)

theorem items_down (s : DelayHeap α) (fuel i n : ℕ) :
    items (Heap.down impl fuel s i n).1 ~ items s :=
  Heap.down_induction impl (fun t ↦ items t ~ items s)
    (fun t _ _ ht _ ↦ (items_swap t _ _).trans ht) fuel s i n (List.Perm.refl _)

theorem push_eq_up {s : DelayHeap α} {x : α} (hk : key x ∉ s.index) (next : ℕ) :
    (push key s x next).1 = Heap.up impl (pushed key s x next).heap.length (pushed key s x next)
      ((pushed key s x next).heap.length - 1) := by
  simp [push, hk, Heap.push, pushed, impl]

theorem lookup_pushed (s : DelayHeap α) (x : α) (next q : ℕ) :
    (pushed key s x next).nodes.lookup q =
      if q = s.fresh then some ⟨x, next, s.heap.length⟩ else s.nodes.lookup q := by
  simp only [pushed, impl, lookup_setIndex]
  split
  · subst q; simp [AList.lookup_insert]
  · rename_i hq; simp [AList.lookup_insert_ne hq]

theorem items_pushed {s : DelayHeap α} (hs : Consistent key s) (x : α) (next : ℕ) :
    items (pushed key s x next) = items s ++ [x] := by
  have hheap : (pushed key s x next).heap = s.heap ++ [s.fresh] := by simp [pushed, impl]
  unfold items
  rw [hheap, List.filterMap_append]
  congr 1
  · apply List.filterMap_congr
    intro q hq
    rw [lookup_pushed, if_neg (Nat.ne_of_lt (hs.fresh_gt q hq))]
  · simp [lookup_pushed]

theorem consistent_pushed {s : DelayHeap α} (hs : Consistent key s) {x : α}
    (hk : key x ∉ s.index) (next : ℕ) : Consistent key (pushed key s x next) := by
  have hheap : (pushed key s x next).heap = s.heap ++ [s.fresh] := by simp [pushed, impl]
  have hfresh : s.fresh ∉ s.heap := fun hmem ↦ Nat.lt_irrefl _ (hs.fresh_gt _ hmem)
  constructor
  · rw [hheap]
    exact List.nodup_append.mpr ⟨hs.nodup, List.nodup_singleton _,
      fun a ha b hb ↦ by rw [List.mem_singleton] at hb; subst b; rintro rfl; exact hfresh ha⟩
  · intro k q hq
    rw [hheap] at hq
    rw [lookup_pushed]
    by_cases hlt : k < s.heap.length
    · rw [List.getElem?_append_left hlt] at hq
      have hqne : q ≠ s.fresh := fun hqf ↦ hfresh (hqf ▸ List.mem_of_getElem? hq)
      rw [if_neg hqne]
      exact hs.positions k q hq
    · rw [List.getElem?_append_right (by omega)] at hq
      have hk0 : k - s.heap.length = 0 := by
        by_contra hne
        rw [List.getElem?_eq_none (by simp; omega)] at hq
        simp at hq
      rw [hk0] at hq
      simp only [List.getElem?_cons_zero, Option.some.injEq] at hq
      subst q
      exact ⟨_, if_pos rfl, by simp; omega⟩
  · intro k' q
    have hindex : (pushed key s x next).index = s.index.insert (key x) s.fresh := by
      simp [pushed, impl]
    rw [hindex, hheap, List.mem_append, List.mem_singleton, lookup_pushed]
    by_cases hkk : k' = key x
    · subst k'
      rw [AList.lookup_insert, Option.some.injEq]
      constructor
      · rintro rfl
        exact ⟨Or.inr rfl, _, if_pos rfl, rfl⟩
      · rintro ⟨hmem, n, hn, hkey⟩
        by_contra hne
        rw [if_neg (Ne.symm hne)] at hn
        rcases hmem with hmem | rfl
        · exact hk (AList.lookup_isSome.mp (by
            rw [(hs.keyed _ q).mpr ⟨hmem, n, hn, hkey⟩]; rfl))
        · exact hne rfl
    · rw [AList.lookup_insert_ne hkk, hs.keyed]
      constructor
      · rintro ⟨hmem, n, hn, hkey⟩
        have hqne : q ≠ s.fresh := fun hqf ↦ hfresh (hqf ▸ hmem)
        exact ⟨Or.inl hmem, n, by rw [if_neg hqne]; exact hn, hkey⟩
      · rintro ⟨hmem, n, hn, hkey⟩
        by_cases hqf : q = s.fresh
        · rw [if_pos hqf, Option.some.injEq] at hn
          subst n
          exact absurd hkey.symm hkk
        · rw [if_neg hqf] at hn
          exact ⟨hmem.resolve_right hqf, n, hn, hkey⟩
  · intro q hq
    rw [hheap, List.mem_append, List.mem_singleton] at hq
    have hfresh' : (pushed key s x next).fresh = s.fresh + 1 := by simp [pushed, impl]
    rw [hfresh']
    rcases hq with hq | rfl
    · exact Nat.lt_succ_of_lt (hs.fresh_gt q hq)
    · exact Nat.lt_succ_self _

/-- `DelayHeap.Push` of an object with a new key adds it and keeps the invariant. -/
theorem push_spec {s : DelayHeap α} (hs : Consistent key s) {x : α} (hk : key x ∉ s.index)
    (next : ℕ) :
    Consistent key (push key s x next).1 ∧ items (push key s x next).1 ~ items s ++ [x] := by
  rw [push_eq_up hk]
  refine ⟨consistent_up (consistent_pushed hs hk next) _ _, ?_⟩
  rw [← items_pushed hs x next]
  exact items_up _ _ _

/-- `DelayHeap.Push` of an object whose key is indexed changes nothing. -/
theorem push_of_mem {s : DelayHeap α} {x : α} (hk : key x ∈ s.index) (next : ℕ) :
    (push key s x next).1 = s := by
  simp [push, hk]

theorem consistent_removeSift {s : DelayHeap α} (hs : Consistent key s) {i : ℕ}
    (hi : i < s.heap.length) : Consistent key (Heap.removeSift impl s i) := by
  simp only [Heap.removeSift]
  split
  · exact hs
  · have hswap := consistent_swap hs hi (j := impl.len s - 1) (by simp [impl]; omega)
    split
    · exact consistent_down hswap _ _ _
    · exact consistent_up (consistent_down hswap _ _ _) _ _

theorem removeSift_index (s : DelayHeap α) (i : ℕ) : (Heap.removeSift impl s i).index = s.index := by
  have hup : ∀ (t : DelayHeap α) fuel j, (Heap.up impl fuel t j).index = t.index := fun t fuel j ↦
    Heap.up_induction impl (fun u ↦ u.index = t.index)
      (fun u _ _ hu _ ↦ (impl_swap_index u _ _).trans hu) fuel t j rfl
  have hdown : ∀ (t : DelayHeap α) fuel a n, (Heap.down impl fuel t a n).1.index = t.index :=
    fun t fuel a n ↦ Heap.down_induction impl (fun u ↦ u.index = t.index)
      (fun u _ _ hu _ ↦ (impl_swap_index u _ _).trans hu) fuel t a n rfl
  simp only [Heap.removeSift]
  split
  · rfl
  · split
    · rw [hdown, impl_swap_index]
    · rw [hup, hdown, impl_swap_index]

theorem items_removeSift (s : DelayHeap α) (i : ℕ) : items (Heap.removeSift impl s i) ~ items s := by
  simp only [Heap.removeSift]
  split
  · exact List.Perm.refl _
  · split
    · exact (items_down _ _ _ _).trans (items_swap _ _ _)
    · exact ((items_up _ _ _).trans (items_down _ _ _ _)).trans (items_swap _ _ _)

/-- `Pop` of the slice's last pointer, with the popped node's key deleted from the index, keeps
the invariant and takes out exactly that node's object. -/
theorem pop_erase_spec {t : DelayHeap α} (ht : Consistent key t) {p : ℕ} {n : DelayHeapNode α}
    (hlast : t.heap.getLast? = some p) (hn : t.nodes.lookup p = some n) :
    Consistent key { (impl.pop t).1 with index := t.index.erase (key n.node) } ∧
      items t ~ n.node :: items { (impl.pop t).1 with index := t.index.erase (key n.node) } := by
  have hne : t.heap ≠ [] := by rintro h; simp [h] at hlast
  have hp : t.heap.getLast hne = p := by
    rw [List.getLast?_eq_some_getLast hne] at hlast; exact Option.some.inj hlast
  have hsplit : t.heap = t.heap.dropLast ++ [p] := hp ▸ (List.dropLast_concat_getLast hne).symm
  have hpop : (impl.pop t).1 = { t.setIndex p (-1) with heap := t.heap.dropLast } := by
    simp [impl, hlast]
  have hnotin : p ∉ t.heap.dropLast := by
    have hnd := ht.nodup
    rw [hsplit, List.nodup_append] at hnd
    exact fun hmem ↦ hnd.2.2 p hmem p (List.mem_singleton_self p) rfl
  have hpin : p ∈ t.heap := by rw [hsplit]; simp
  have hpkey : t.index.lookup (key n.node) = some p := (ht.keyed _ p).mpr ⟨hpin, n, hn, rfl⟩
  have hlook : ∀ q ∈ t.heap.dropLast, (t.setIndex p (-1)).nodes.lookup q = t.nodes.lookup q :=
    fun q hq ↦ lookup_setIndex_ne t (by rintro rfl; exact hnotin hq) _
  rw [hpop]
  constructor
  · constructor
    · exact ht.nodup.sublist (List.dropLast_sublist _)
    · intro k q hq
      have hqin : q ∈ t.heap.dropLast := List.mem_of_getElem? hq
      simp only at hq ⊢
      rw [hlook q hqin]
      apply ht.positions k q
      rw [hsplit, List.getElem?_append_left (List.getElem?_eq_some_iff.mp hq).1]
      exact hq
    · intro k q
      simp only
      by_cases hk : k = key n.node
      · subst k
        rw [AList.lookup_erase]
        simp only [reduceCtorEq, false_iff, not_and, not_exists]
        intro hq m hm hkey
        rw [hlook q hq] at hm
        have hqkey := (ht.keyed _ q).mpr ⟨List.dropLast_subset _ hq, m, hm, hkey⟩
        rw [hpkey, Option.some.injEq] at hqkey
        exact hnotin (hqkey ▸ hq)
      · rw [AList.lookup_erase_ne hk, ht.keyed]
        constructor
        · rintro ⟨hq, m, hm, hkey⟩
          have hqp : q ≠ p := by
            rintro rfl
            rw [hn, Option.some.injEq] at hm
            exact hk (hm ▸ hkey).symm
          have hqin : q ∈ t.heap.dropLast := by
            rw [hsplit, List.mem_append, List.mem_singleton] at hq
            exact hq.resolve_right hqp
          exact ⟨hqin, m, (hlook q hqin).trans hm, hkey⟩
        · rintro ⟨hq, m, hm, hkey⟩
          exact ⟨List.dropLast_subset _ hq, m, (hlook q hq).symm.trans hm, hkey⟩
    · intro q hq
      simp only [setIndex_fresh]
      exact ht.fresh_gt q (List.dropLast_subset _ hq)
  · unfold items
    conv_lhs => rw [hsplit]
    rw [List.filterMap_append]
    simp only [List.filterMap_cons, List.filterMap_nil, hn, Option.map_some]
    refine (List.perm_append_singleton _ _).trans (List.Perm.cons _ (List.Perm.of_eq ?_))
    apply List.filterMap_congr
    intro q hq
    rw [hlook q hq]

/-- `DelayHeap.Remove` of an indexed key: `heap.Remove` at the position of its pointer, and the
key leaves the index map. -/
theorem remove_eq {s : DelayHeap α} (hs : Consistent key s) {x : α} {p : ℕ}
    (hp : s.index.lookup (key x) = some p) :
    ∃ k, s.heap[k]? = some p ∧ (remove key s x).1 =
      { (impl.pop (Heap.removeSift impl s k)).1 with index := s.index.erase (key x) } := by
  obtain ⟨hpin, n, hn, -⟩ := (hs.keyed _ p).mp hp
  obtain ⟨k, hk_lt, hkp⟩ := List.getElem_of_mem hpin
  have hk : s.heap[k]? = some p := hkp ▸ List.getElem?_eq_getElem hk_lt
  obtain ⟨n', hn', hidx⟩ := hs.positions k p hk
  rw [hn, Option.some.injEq] at hn'
  subst n'
  refine ⟨k, hk, ?_⟩
  simp only [remove, hp, Option.bind_eq_bind, Option.bind_some, hn, Option.map_some, hidx,
    Int.toNat_natCast]
  rfl

/-- `DelayHeap.Remove` of an indexed key takes out the one object with that key and keeps the
invariant. -/
theorem remove_spec {s : DelayHeap α} (hs : Consistent key s) {x : α} (hk : key x ∈ s.index) :
    ∃ y, key y = key x ∧ items s ~ y :: items (remove key s x).1 ∧
      Consistent key (remove key s x).1 := by
  obtain ⟨p, hp⟩ := Option.isSome_iff_exists.mp (AList.lookup_isSome.mpr hk)
  obtain ⟨k, hkp, hremove⟩ := remove_eq hs hp
  have hk_lt : k < s.heap.length := (List.getElem?_eq_some_iff.mp hkp).1
  set t := Heap.removeSift impl s k with ht_def
  have ht : Consistent key t := consistent_removeSift hs hk_lt
  -- the sift leaves the removed pointer last, where `Pop` takes it off
  have hlast : t.heap.getLast? = some p := by
    have hlen : t.heap.length = s.heap.length := (Heap.removeSift_perm impl_view s k).length_eq
    rw [List.getLast?_eq_getElem?, hlen, ← hkp]
    exact Heap.removeSift_last impl_view s hk_lt
  have htindex : t.index = s.index := removeSift_index s k
  obtain ⟨-, m, hm, hmkey⟩ := (ht.keyed (key x) p).mp (htindex ▸ hp)
  obtain ⟨hcons, hitems⟩ := pop_erase_spec ht hlast hm
  rw [hmkey, htindex] at hcons hitems
  rw [hremove]
  exact ⟨m.node, hmkey, (items_removeSift s k).symm.trans hitems, hcons⟩

/-- `DelayHeap.Remove` of a key that is not indexed changes nothing. -/
theorem remove_of_not_mem {s : DelayHeap α} {x : α} (hk : key x ∉ s.index) :
    (remove key s x).1 = s := by
  have hnone : s.index.lookup (key x) = none := AList.lookup_eq_none.mpr hk
  simp [remove, hnone]

theorem consistent_newDelayHeap : Consistent key (newDelayHeap (α := α)) where
  nodup := List.nodup_nil
  positions _ _ h := by simp [newDelayHeap] at h
  keyed _ _ := by simp [newDelayHeap]
  fresh_gt _ h := by simp [newDelayHeap] at h

@[simp] theorem items_newDelayHeap : items (newDelayHeap (α := α)) = [] := rfl

/-- A key is indexed exactly when an object of the heap has it. -/
theorem mem_index_iff {s : DelayHeap α} (hs : Consistent key s) (k : NamespacedID) :
    k ∈ s.index ↔ ∃ y ∈ items s, key y = k := by
  rw [← AList.lookup_isSome, Option.isSome_iff_exists]
  simp only [hs.keyed, items, List.mem_filterMap, Option.map_eq_some_iff]
  constructor
  · rintro ⟨p, hp, n, hn, hkey⟩
    exact ⟨n.node, ⟨p, hp, n, hn, rfl⟩, hkey⟩
  · rintro ⟨y, ⟨p, hp, n, hn, rfl⟩, hkey⟩
    exact ⟨p, hp, n, hn, hkey⟩

end Consistent

end DelayHeap

end Wander.Delayheap
