import Mathlib
import Wander.Lib.HeapOrder

/-!
# `lib/kheap`: the top K items by score

`ScoreHeap` is a min-heap of items by `Score()` that keeps at most `capacity` of them. Its `Push`
is the one `heap.Push` calls: below capacity it appends, and once full it replaces the root by an
item that scores higher and calls `heap.Fix` at the root, after which `heap.Push` still runs `up`
from the last position. `GetItemsReverse` pops the heap empty into a slice from its end.

The methods `heap.Fix` calls inside `Push` are `Len`, `Less` and `Swap`, which act on `items`
alone: the model runs `heap.Fix` on the slice interface of the items, and `simulates` shows that
the sift loops of the whole `*ScoreHeap` are those of its items.

`TopK` is what the heap holds after any sequence of pushes (`topK_pushAll`): its items are in
heap order, there are `min K n` of them, and every pushed item left out scores at most every item
kept. `GetItemsReverse` then returns the kept items in non-increasing score
(`getItemsLoop_spec`). Together they give `getItemsReverse_top`.

Scores are any linear order. A `float64` score other than NaN compares as one; NaN, for which
`<` and `>` are both false, is not covered.
-/

set_option autoImplicit false
set_option relaxedAutoImplicit false

namespace Wander.Kheap

open Wander.Lib
open scoped List

/-- `ScoreHeap`. -/
structure ScoreHeap (α : Type) where
  items : List α
  capacity : ℕ

variable {α β : Type} [LinearOrder β] (score : α → β)

/-- `NewScoreHeap`. -/
def newScoreHeap (capacity : ℕ) : ScoreHeap α := ⟨[], capacity⟩

namespace ScoreHeap

/-- `ScoreHeap.Less` on the items compared. -/
def lessItem (a b : α) : Bool := decide (score a < score b)

/-- `Len`, `Less` and `Swap` of a `ScoreHeap`, on its items: what `heap.Fix` calls. -/
abbrev itemsImpl : Heap.Interface (List α) α := Heap.slice (lessItem score)

/-- `ScoreHeap.Push`: append below capacity; once full, replace the root by an item of higher
score and fix its place. -/
def push (s : ScoreHeap α) (x : α) : ScoreHeap α :=
  if s.items.length < s.capacity then { s with items := s.items ++ [x] }
  else
    match s.items[0]? with
    | some min =>
      if score min < score x then
        { s with items := Heap.fix (itemsImpl score) (s.items.set 0 x) 0 }
      else s
    -- `pq.items[minIndex]` of an empty slice panics in Go; only a capacity of 0 gets here
    | none => s

/-- `ScoreHeap.Pop`: remove the last item. -/
def pop (s : ScoreHeap α) : ScoreHeap α × Option α :=
  ({ s with items := s.items.dropLast }, s.items.getLast?)

/-- `*ScoreHeap` as a `heap.Interface`. -/
def impl : Heap.Interface (ScoreHeap α) α where
  len s := s.items.length
  less s i j := (itemsImpl score).less s.items i j
  swap s i j := { s with items := s.items.swap i j }
  push := push score
  pop := pop

/-- The loop of `GetItemsReverse`, on fuel: while the heap is not empty, `heap.Pop` into `ret[i]`
and step `i` down. -/
def getItemsLoop : ℕ → ScoreHeap α → List (Option α) → ℕ → ScoreHeap α × List (Option α)
  | 0, s, ret, _ => (s, ret)
  | fuel + 1, s, ret, i =>
    if 0 < s.items.length then
      let popped := Heap.pop (impl score) s
      getItemsLoop fuel popped.1 (ret.set i popped.2) (i - 1)
    else (s, ret)

/-- `GetItemsReverse`: the slice it returns, `nil` where nothing was written, and the heap it
leaves. -/
def getItemsReverse (s : ScoreHeap α) : ScoreHeap α × List (Option α) :=
  getItemsLoop score s.items.length s (List.replicate s.items.length none) (s.items.length - 1)

/-- `heap.Push` of each item in turn onto `NewScoreHeap(capacity)`. -/
def pushAll (capacity : ℕ) (xs : List α) : ScoreHeap α :=
  xs.foldl (Heap.push (impl score)) (newScoreHeap capacity)

/-! ### The sift loops on the items -/

theorem simulates : Heap.Simulates (impl score) (itemsImpl score) ScoreHeap.items where
  len_eq _ := rfl
  less_eq _ _ _ := rfl
  swap_eq _ _ _ := rfl

theorem lessItem_iff (a b : α) : lessItem score a b = true ↔ score a < score b :=
  decide_eq_true_iff

theorem orderView : Heap.OrderView (itemsImpl score) (fun _ ↦ True) (List.map score) :=
  Heap.slice_orderView score (lessItem score) (lessItem_iff score)

@[simp] theorem up_capacity (fuel : ℕ) (s : ScoreHeap α) (j : ℕ) :
    (Heap.up (impl score) fuel s j).capacity = s.capacity :=
  Heap.up_induction (impl score) (fun t ↦ t.capacity = s.capacity) (fun _ _ _ ht _ ↦ ht) fuel s
    j rfl

@[simp] theorem push_capacity (s : ScoreHeap α) (x : α) : (push score s x).capacity = s.capacity := by
  unfold push
  split_ifs
  · rfl
  · split
    · split_ifs <;> rfl
    · rfl

/-- `heap.Push` is `ScoreHeap.Push` followed by `up` from the last item. -/
theorem heapPush_items (s : ScoreHeap α) (x : α) :
    (Heap.push (impl score) s x).items = Heap.up (itemsImpl score)
      (push score s x).items.length (push score s x).items ((push score s x).items.length - 1) :=
  (simulates score).up_eq _ _ _

/-- `heap.Pop` of a `ScoreHeap` is `heap.Pop` of its items. -/
theorem heapPop_eq (s : ScoreHeap α) :
    ((Heap.pop (impl score) s).1.items, (Heap.pop (impl score) s).2) =
      Heap.pop (itemsImpl score) s.items :=
  (simulates score).pop_eq (fun _ ↦ rfl) s

/-! ### What the heap keeps over pushes -/

/-- The pushed items `xs` are the kept items `l` and some rejected ones, each scoring at most
every kept item. -/
def Kept (xs l : List α) : Prop :=
  ∃ rejected, l ++ rejected ~ xs ∧ ∀ a ∈ l, ∀ b ∈ rejected, score b ≤ score a

namespace Kept

variable {score} {xs l : List α}

theorem perm (h : Kept score xs l) {l' : List α} (hl : l ~ l') : Kept score xs l' := by
  obtain ⟨rejected, hperm, hle⟩ := h
  exact ⟨rejected, (hl.append_right rejected).symm.trans hperm,
    fun a ha b hb ↦ hle a (hl.symm.subset ha) b hb⟩

/-- Below capacity nothing was rejected, and the new item is kept. -/
theorem append (h : Kept score xs l) (hlen : l.length = xs.length) (x : α) :
    Kept score (xs ++ [x]) (l ++ [x]) := by
  obtain ⟨rejected, hperm, -⟩ := h
  have hnil : rejected = [] := by
    have hsum := hperm.length_eq
    rw [List.length_append] at hsum
    exact List.eq_nil_of_length_eq_zero (by omega)
  subst hnil
  rw [List.append_nil] at hperm
  exact ⟨[], by rw [List.append_nil]; exact hperm.append_right [x], fun _ _ _ hb ↦ by simp at hb⟩

/-- An item scoring at most every kept one is rejected. -/
theorem reject (h : Kept score xs l) {x : α} (hx : ∀ a ∈ l, score x ≤ score a) :
    Kept score (xs ++ [x]) l := by
  obtain ⟨rejected, hperm, hle⟩ := h
  refine ⟨rejected ++ [x], by rw [← List.append_assoc]; exact hperm.append_right [x],
    fun a ha b hb ↦ ?_⟩
  rcases List.mem_append.mp hb with hb | hb
  · exact hle a ha b hb
  · rw [List.mem_singleton.mp hb]
    exact hx a ha


/-- An item scoring above the least kept one `m` takes its place, and `m` is rejected. -/
theorem replace {m : α} {tl : List α} (h : Kept score xs (m :: tl))
    (hmin : ∀ a ∈ m :: tl, score m ≤ score a) {x : α} (hmx : score m < score x) :
    Kept score (xs ++ [x]) (x :: tl) := by
  obtain ⟨rejected, hperm, hle⟩ := h
  refine ⟨m :: rejected, ?_, fun a ha b hb ↦ ?_⟩
  · calc x :: tl ++ m :: rejected ~ x :: (m :: tl ++ rejected) := List.Perm.cons x List.perm_middle
      _ ~ (m :: tl ++ rejected) ++ [x] := (List.perm_append_singleton _ _).symm
      _ ~ xs ++ [x] := hperm.append_right [x]
  · -- `m` is below everything kept, and the other rejected items are below `m`
    have hbm : score b ≤ score m := by
      rcases List.mem_cons.mp hb with rfl | hb
      · exact le_rfl
      · exact hle m List.mem_cons_self b hb
    rcases List.mem_cons.mp ha with rfl | ha
    · exact hbm.trans hmx.le
    · rcases List.mem_cons.mp hb with rfl | hb
      · exact hmin a (List.mem_cons_of_mem _ ha)
      · exact hle a (List.mem_cons_of_mem _ ha) b hb

end Kept

/-- What the heap holds after the items `xs` were pushed onto `NewScoreHeap(K)`: `min K n` items
in heap order of their scores, kept from `xs`. -/
structure TopK (K : ℕ) (xs : List α) (s : ScoreHeap α) : Prop where
  capacity_eq : s.capacity = K
  ordered : Heap.Ordered (s.items.map score) s.items.length
  length_eq : s.items.length = min K xs.length
  kept : Kept score xs s.items

/-- The root of a heap scores at most every item. -/
theorem score_root_le {l : List α} (ho : Heap.Ordered (l.map score) l.length) {m : α}
    (hm : l[0]? = some m) : ∀ a ∈ l, score m ≤ score a := by
  intro a ha
  obtain ⟨k, hk, rfl⟩ := List.getElem_of_mem ha
  exact ho.root_le k hk (score m) (score l[k]) (by simp [hm]) (by simp [hk])

/-- `ScoreHeap.Push` keeps the top items, in heap order but for the last position. -/
theorem push_spec {K : ℕ} (hK : 1 ≤ K) {xs : List α} {s : ScoreHeap α} (hs : TopK score K xs s)
    (x : α) :
    Heap.Ordered ((push score s x).items.map score) ((push score s x).items.length - 1) ∧
      (push score s x).items.length = min K (xs.length + 1) ∧
      Kept score (xs ++ [x]) (push score s x).items := by
  have hlen := hs.length_eq
  unfold push
  rw [hs.capacity_eq]
  by_cases hlt : s.items.length < K
  · -- below capacity: the item is appended, and nothing was rejected yet
    rw [if_pos hlt]
    have hn : s.items.length = xs.length := by omega
    refine ⟨?_, by simp; omega, hs.kept.append hn x⟩
    rw [List.map_append, List.length_append, List.length_singleton, Nat.add_sub_cancel]
    exact hs.ordered.append (by simp) _
  · rw [if_neg hlt]
    -- full: the root is a least item
    obtain ⟨m, tl, hl⟩ : ∃ m tl, s.items = m :: tl :=
      List.exists_cons_of_length_pos (by omega)
    have hmin := score_root_le score hs.ordered (by rw [hl]; rfl)
    have hkept : Kept score xs (m :: tl) := hl ▸ hs.kept
    have hfull : min K (xs.length + 1) = s.items.length := by omega
    simp only [hl, List.getElem?_cons_zero]
    rw [hl] at hmin hfull
    split_ifs with hmx
    · -- the item replaces the root, and `heap.Fix` puts it in place
      have hperm : Heap.fix (itemsImpl score) ((m :: tl).set 0 x) 0 ~ x :: tl :=
        Heap.fix_perm (Heap.slice_view _) _ _
      have hfix : Heap.FixOrder (((m :: tl).set 0 x).map score) ((m :: tl).set 0 x).length 0 := by
        rw [List.map_set, List.length_set]
        exact (hl ▸ hs.ordered).set _
      obtain ⟨hord, -⟩ := Heap.fix_order (orderView score) trivial hfix (Nat.succ_pos _)
      have hlen' : (Heap.fix (itemsImpl score) ((m :: tl).set 0 x) 0).length = (m :: tl).length := by
        rw [hperm.length_eq]
        rfl
      refine ⟨?_, by rw [hlen', hfull], (hkept.replace hmin hmx).perm hperm.symm⟩
      rw [hlen']
      exact hord.mono (Nat.sub_le _ _)
    · -- the item scores at most the root and is rejected
      rw [hl]
      refine ⟨(hl ▸ hs.ordered).mono (Nat.sub_le _ _), hfull.symm,
        hkept.reject fun a ha ↦ (not_lt.mp hmx).trans (hmin a ha)⟩

/-- `heap.Push` keeps the top items in heap order. -/
theorem topK_push {K : ℕ} (hK : 1 ≤ K) {xs : List α} {s : ScoreHeap α} (hs : TopK score K xs s)
    (x : α) : TopK score K (xs ++ [x]) (Heap.push (impl score) s x) := by
  obtain ⟨hord, hlen, hkept⟩ := push_spec score hK hs x
  have hpos : 0 < (push score s x).items.length := by
    rw [hlen]
    omega
  -- `heap.Push` runs `up` from the last position after `Push`
  have hup := Heap.pushUp_order (orderView score) trivial hpos hord
  have hperm : Heap.up (itemsImpl score) (push score s x).items.length (push score s x).items
      ((push score s x).items.length - 1) ~ (push score s x).items :=
    Heap.up_perm (Heap.slice_view (lessItem score)) _ _ _
  have hcap : (Heap.push (impl score) s x).capacity = (push score s x).capacity :=
    up_capacity score _ _ _
  refine ⟨by rw [hcap, push_capacity, hs.capacity_eq], ?_, ?_, ?_⟩
  · rw [heapPush_items, hperm.length_eq]
    exact hup.1
  · rw [heapPush_items, hperm.length_eq, hlen, List.length_append, List.length_singleton]
  · rw [heapPush_items]
    exact hkept.perm hperm.symm

/-- After any sequence of pushes onto `NewScoreHeap(K)` with `K ≥ 1`, the heap keeps the top
items. -/
theorem topK_pushAll {K : ℕ} (hK : 1 ≤ K) (xs : List α) : TopK score K xs (pushAll score K xs) := by
  induction xs using List.reverseRecOn with
  | nil =>
    exact ⟨rfl, fun _ _ hk ↦ absurd hk (Nat.not_lt_zero _), by simp [pushAll, newScoreHeap],
      ⟨[], by simp [pushAll, newScoreHeap], by simp [pushAll, newScoreHeap]⟩⟩
  | append_singleton xs x ih =>
    rw [pushAll, List.foldl_append, List.foldl_cons, List.foldl_nil]
    exact topK_push score hK ih x

/-! ### Popping the heap empty -/

/-- Writing below a run of `nil`s: `ret[k]` of `k + 1` `nil`s followed by `r`. -/
theorem set_replicate_append (k : ℕ) (r : List (Option α)) (v : Option α) :
    (List.replicate (k + 1) none ++ r).set k v = List.replicate k none ++ v :: r := by
  induction k with
  | zero => rfl
  | succ k ih =>
    rw [List.replicate_succ, List.cons_append, List.set_cons_succ, ih, List.replicate_succ,
      List.cons_append]

/-- `heap.Pop` of the items of a heap: the sift before it, and the `Pop` of the last item. -/
theorem slice_pop_eq (l : List α) :
    Heap.pop (itemsImpl score) l =
      ((Heap.down (itemsImpl score) (l.length - 1) (l.swap 0 (l.length - 1)) 0
          (l.length - 1)).1.dropLast,
        (Heap.down (itemsImpl score) (l.length - 1) (l.swap 0 (l.length - 1)) 0
          (l.length - 1)).1.getLast?) := rfl

/-- `heap.Pop` leaves the remaining items in heap order. -/
theorem slice_pop_ordered {l : List α} (ho : Heap.Ordered (l.map score) l.length) :
    Heap.Ordered ((Heap.pop (itemsImpl score) l).1.map score)
      (Heap.pop (itemsImpl score) l).1.length := by
  have hsift : Heap.Ordered (List.map score (Heap.down (itemsImpl score) (l.length - 1)
      (l.swap 0 (l.length - 1)) 0 (l.length - 1)).1) (l.length - 1) :=
    (Heap.popSift_order (orderView score) trivial ho).1
  have hlen : (Heap.down (itemsImpl score) (l.length - 1) (l.swap 0 (l.length - 1)) 0
      (l.length - 1)).1.length = l.length := by
    have hperm : (Heap.down (itemsImpl score) (l.length - 1) (l.swap 0 (l.length - 1)) 0
        (l.length - 1)).1 ~ l.swap 0 (l.length - 1) :=
      Heap.down_perm (Heap.slice_view _) _ _ _ _
    rw [hperm.length_eq]
    exact List.length_swap
  rw [slice_pop_eq, List.map_dropLast, List.length_dropLast, hlen]
  rcases Nat.eq_zero_or_pos l.length with h0 | hpos
  · rw [h0]
    exact fun _ _ hk ↦ absurd hk (Nat.not_lt_zero _)
  · exact hsift.dropLast (by simp [hlen]; omega)

/-- The state of `GetItemsReverse`'s loop over the items `l0` it started from: the heap is in
order, `ret` holds `nil` below the heap's length and the items popped so far above it, in
non-increasing score, and every item popped scores at most every item left. -/
structure Draining (l0 : List α) (s : ScoreHeap α) (ret : List (Option α)) (acc : List α) :
    Prop where
  ordered : Heap.Ordered (s.items.map score) s.items.length
  ret_eq : ret = List.replicate s.items.length none ++ acc.map some
  perm : s.items ++ acc ~ l0
  sorted : (acc.map score).Pairwise (· ≥ ·)
  below : ∀ a ∈ s.items, ∀ b ∈ acc, score b ≤ score a

/-- One turn of the loop pops the root, a least item, into `ret` just below what was popped. -/
theorem draining_pop {l0 : List α} {s : ScoreHeap α} {ret : List (Option α)} {acc : List α}
    (hd : Draining score l0 s ret acc) (hpos : 0 < s.items.length) :
    ∃ m, (Heap.pop (impl score) s).2 = some m ∧
      (Heap.pop (impl score) s).1.items.length = s.items.length - 1 ∧
      Draining score l0 (Heap.pop (impl score) s).1
        (ret.set (s.items.length - 1) (Heap.pop (impl score) s).2) (m :: acc) := by
  obtain ⟨m, tl, hl⟩ := List.exists_cons_of_length_pos hpos
  have hpop := heapPop_eq score s
  have hitems : (Heap.pop (impl score) s).1.items = (Heap.pop (itemsImpl score) s.items).1 :=
    congrArg Prod.fst hpop
  have hroot : (Heap.pop (itemsImpl score) s.items).2 = some m := by
    rw [Heap.pop_snd (Heap.slice_view _), hl]
    rfl
  have hsnd : (Heap.pop (impl score) s).2 = some m := (congrArg Prod.snd hpop).trans hroot
  -- the heap's items are the root and the items left
  have hperm : s.items ~ m :: (Heap.pop (itemsImpl score) s.items).1 :=
    Heap.pop_perm (Heap.slice_view _) (Prod.ext rfl hroot)
  have hmin := score_root_le score hd.ordered (by rw [hl]; rfl)
  have hlen : (Heap.pop (impl score) s).1.items.length = s.items.length - 1 := by
    rw [hitems, hperm.length_eq, List.length_cons, Nat.add_sub_cancel]
  refine ⟨m, hsnd, hlen, ⟨?_, ?_, ?_, ?_, ?_⟩⟩
  · rw [hitems]
    exact slice_pop_ordered score hd.ordered
  · rw [hsnd, hd.ret_eq, hlen, List.map_cons]
    obtain ⟨k, hk⟩ : ∃ k, s.items.length = k + 1 := ⟨s.items.length - 1, by omega⟩
    rw [hk, Nat.add_sub_cancel]
    exact set_replicate_append k _ _
  · rw [hitems]
    exact (List.perm_middle.trans ((hperm.append_right acc).symm)).trans hd.perm
  · exact List.pairwise_cons.mpr ⟨fun b hb ↦ by
      obtain ⟨b', hb', rfl⟩ := List.mem_map.mp hb
      exact hd.below m (hl ▸ List.mem_cons_self) b' hb', hd.sorted⟩
  · intro a ha b hb
    rw [hitems] at ha
    have ha' : a ∈ s.items := hperm.symm.subset (List.mem_cons_of_mem m ha)
    rcases List.mem_cons.mp hb with rfl | hb
    · exact hmin a ha'
    · exact hd.below a ha' b hb

/-- The loop, with fuel for each item left, pops the heap empty and returns every item of `l0`
in non-increasing score. -/
theorem getItemsLoop_spec (l0 : List α) :
    ∀ (fuel : ℕ) (s : ScoreHeap α) (ret : List (Option α)) (acc : List α),
      Draining score l0 s ret acc → s.items.length ≤ fuel →
      ∃ r, (getItemsLoop score fuel s ret (s.items.length - 1)).1.items = [] ∧
        (getItemsLoop score fuel s ret (s.items.length - 1)).2 = r.map some ∧ r ~ l0 ∧
        (r.map score).Pairwise (· ≥ ·)
  | fuel, s, ret, acc, hd, hfuel => by
    -- once the heap is empty, `ret` is what was popped
    have hdone : s.items = [] → ∃ r, s.items = [] ∧ ret = r.map some ∧ r ~ l0 ∧
        (r.map score).Pairwise (· ≥ ·) := fun hnil ↦
      ⟨acc, hnil, by rw [hd.ret_eq, hnil]; rfl, by simpa [hnil] using hd.perm, hd.sorted⟩
    cases fuel with
    | zero => exact hdone (List.eq_nil_of_length_eq_zero (by omega))
    | succ fuel =>
      by_cases hpos : 0 < s.items.length
      · obtain ⟨m, -, hlen, hd'⟩ := draining_pop score hd hpos
        simp only [getItemsLoop, if_pos hpos]
        have hi : s.items.length - 1 - 1 = (Heap.pop (impl score) s).1.items.length - 1 := by
          rw [hlen]
        rw [hi]
        exact getItemsLoop_spec l0 fuel _ _ _ hd' (by omega)
      · simp only [getItemsLoop, if_neg hpos]
        exact hdone (List.eq_nil_of_length_eq_zero (by omega))

/-- Items in non-increasing score, taken from `xs` with the rest scoring at most each of them,
have as scores the first scores of `xs` sorted in non-increasing order. -/
theorem map_eq_take_insertionSort {r rest xs : List α} (hperm : r ++ rest ~ xs)
    (hsorted : (r.map score).Pairwise (· ≥ ·)) (hle : ∀ a ∈ r, ∀ b ∈ rest, score b ≤ score a) :
    r.map score = ((xs.map score).insertionSort (· ≥ ·)).take r.length := by
  set sortedRest := (rest.map score).insertionSort (· ≥ ·)
  have hsort : (r.map score ++ sortedRest).Pairwise (· ≥ ·) := by
    refine List.pairwise_append.mpr ⟨hsorted, List.sortedGE_insertionSort.pairwise, ?_⟩
    intro a ha b hb
    obtain ⟨a', ha', rfl⟩ := List.mem_map.mp ha
    obtain ⟨b', hb', rfl⟩ := List.mem_map.mp ((List.perm_insertionSort _ _).subset hb)
    exact hle a' ha' b' hb'
  have hperm' : r.map score ++ sortedRest ~ xs.map score :=
    ((List.perm_insertionSort _ _).append_left _).trans
      (by rw [← List.map_append]; exact hperm.map score)
  -- the sorted scores are unique: they are those of `r`, then the rest sorted
  have heq : (xs.map score).insertionSort (· ≥ ·) = r.map score ++ sortedRest :=
    List.Perm.eq_of_sortedGE List.sortedGE_insertionSort hsort.sortedGE
      ((List.perm_insertionSort _ _).trans hperm'.symm)
  rw [heq, ← List.length_map (f := score), List.take_left]

/-- `GetItemsReverse` after any sequence of `heap.Push` calls onto `NewScoreHeap(K)` with `K ≥ 1`:
it leaves the heap empty and returns `min K n` of the pushed items, whose scores are the `min K n`
largest pushed scores in non-increasing order. -/
theorem getItemsReverse_top (K : ℕ) (hK : 1 ≤ K) (xs : List α) :
    (getItemsReverse score (pushAll score K xs)).1.items = [] ∧
      ∃ r : List α, (getItemsReverse score (pushAll score K xs)).2 = r.map some ∧ r <+~ xs ∧
        r.map score = ((xs.map score).insertionSort (· ≥ ·)).take (min K xs.length) := by
  have ht := topK_pushAll score hK xs
  set s := pushAll score K xs
  have hd : Draining score s.items s (List.replicate s.items.length none) [] :=
    ⟨ht.ordered, by simp, by simp, List.Pairwise.nil, by simp⟩
  obtain ⟨r, hempty, hret, hperm, hsorted⟩ :=
    getItemsLoop_spec score s.items s.items.length s _ [] hd le_rfl
  obtain ⟨rejected, hsplit, hle⟩ := ht.kept
  have hlen : r.length = min K xs.length := hperm.length_eq.trans ht.length_eq
  refine ⟨hempty, r, hret, ?_, ?_⟩
  · exact hperm.subperm.trans ((List.sublist_append_left _ rejected).subperm.trans hsplit.subperm)
  · rw [← hlen]
    exact map_eq_take_insertionSort score ((hperm.append_right rejected).trans hsplit) hsorted
      fun a ha b hb ↦ hle a (hperm.subset ha) b hb

example : (getItemsReverse (id : ℕ → ℕ) (pushAll id 2 [3, 1, 4, 1, 5])).2 = [some 5, some 4] := by
  decide

theorem getItemsReverse_top_five :
    1 ≤ 2 ∧ ((getItemsReverse (id : ℕ → ℕ) (pushAll id 2 [3, 1, 4, 1, 5])).1.items = [] ∧
      ∃ r : List ℕ, (getItemsReverse id (pushAll id 2 [3, 1, 4, 1, 5])).2 = r.map some ∧
        r <+~ [3, 1, 4, 1, 5] ∧
        r.map id = (([3, 1, 4, 1, 5].map id).insertionSort (· ≥ ·)).take (min 2 5)) :=
  ⟨by decide, getItemsReverse_top id 2 (by decide) [3, 1, 4, 1, 5]⟩

end ScoreHeap

end Wander.Kheap
