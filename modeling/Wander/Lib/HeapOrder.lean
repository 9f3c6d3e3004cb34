import Mathlib
import Wander.Lib.Heap

/-!
# Heap order under Go's `container/heap`

`container/heap` keeps a slice in heap order: the element at every position `k > 0` is not less
than the one at its parent `(k - 1) / 2`, so that the root is a least element. The sift loops
restore that order around one position that broke it. Their invariants are stated on the list of
keys of the first `n` positions, which the swaps of the loops permute:

* `DownOrder l n i`: every pair of a parent and a child is in order except the pairs of `i` and
  its children, and the children of `i` are not less than the parent of `i`. `down` from `i` keeps
  it, moving the hole down to the swapped child, and stops with the whole prefix in order.
* `UpOrder l n j`: every pair is in order except that of `j` and its parent, and the children of
  `j` are not less than the parent of `j`. `up` from `j` keeps it and stops in order.
* `FixOrder l n i`: every pair that does not involve `i` is in order, and the children of `i` are
  not less than the parent of `i`: what a change of the element at `i` leaves. `heap.Fix` either
  moves the element down, from `DownOrder` after the first swap, or else finds `UpOrder`.

An `OrderView` reads the keys of an interface's elements in slice order: its `Swap` swaps them
and its `Less` compares them. Under a view, `heap.Push`, `heap.Pop`, `heap.Remove` and `heap.Fix`
leave the slice in heap order.
-/

set_option autoImplicit false
set_option relaxedAutoImplicit false

namespace Wander.Lib.Heap

/-- The parent of a position. -/
def parent (k : ℕ) : ℕ := (k - 1) / 2

theorem parent_lt {k : ℕ} (hk : 0 < k) : parent k < k := by
  unfold parent
  omega

section Keys

variable {κ : Type} [LinearOrder κ]

/-- `x` is at most `y` where both are present. -/
def OLe (x y : Option κ) : Prop := ∀ a b, x = some a → y = some b → a ≤ b

@[simp] theorem oLe_some_some {a b : κ} : OLe (some a) (some b) ↔ a ≤ b := by
  constructor
  · intro h
    exact h a b rfl rfl
  · rintro hab a' b' ⟨⟩ ⟨⟩
    exact hab

theorem OLe.trans {x z : Option κ} {b : κ} (h₁ : OLe x (some b)) (h₂ : OLe (some b) z) :
    OLe x z := fun a c ha hc ↦ (h₁ a b ha rfl).trans (h₂ b c rfl hc)

/-- The element at `k` is not less than its parent's. -/
def Edge (l : List κ) (k : ℕ) : Prop := OLe l[parent k]? l[k]?

/-- The first `n` positions are in heap order. -/
def Ordered (l : List κ) (n : ℕ) : Prop := ∀ k, 0 < k → k < n → Edge l k

/-- The children of `i` among the first `n` positions are not less than the parent of `i`. -/
def Bridge (l : List κ) (n i : ℕ) : Prop :=
  0 < i → ∀ c, 0 < c → c < n → parent c = i → OLe l[parent i]? l[c]?

/-- The order `down` keeps, with the element at `i` still to move down. -/
structure DownOrder (l : List κ) (n i : ℕ) : Prop where
  edge : ∀ k, 0 < k → k < n → parent k ≠ i → Edge l k
  bridge : Bridge l n i

/-- The order `up` keeps, with the element at `j` still to move up. -/
structure UpOrder (l : List κ) (n j : ℕ) : Prop where
  edge : ∀ k, 0 < k → k < n → k ≠ j → Edge l k
  bridge : Bridge l n j

/-- The order a change of the element at `i` leaves. -/
structure FixOrder (l : List κ) (n i : ℕ) : Prop where
  edge : ∀ k, 0 < k → k < n → k ≠ i → parent k ≠ i → Edge l k
  bridge : Bridge l n i

theorem getElem?_swap_left {α : Type} {l : List α} {a b : ℕ} (ha : a < l.length)
    (hb : b < l.length) : (l.swap a b)[a]? = l[b]? := by
  rw [List.swap_comm]
  exact getElem?_swap_right hb ha

/-- Reading the elements of a swapped list is swapping the list of readings. -/
theorem map_swap {α β : Type} (f : α → β) (l : List α) (i j : ℕ) :
    (l.swap i j).map f = (l.map f).swap i j :=
  List.ext_getElem (by simp) (by grind)

/-- Going through an element at a position before `c` orders the two ends. -/
theorem oLe_trans_getElem? {l : List κ} {p i c : ℕ} (hic : i < c) (h₁ : OLe l[p]? l[i]?)
    (h₂ : OLe l[i]? l[c]?) : OLe l[p]? l[c]? := by
  intro a b ha hb
  have hc : c < l.length := (List.getElem?_eq_some_iff.mp hb).1
  have hi : l[i]? = some l[i] := List.getElem?_eq_getElem (by omega)
  exact (h₁ a _ ha hi).trans (h₂ _ b hi hb)

theorem oLe_self (x : Option κ) : OLe x x := by
  rintro a b rfl ⟨⟩
  exact le_rfl

/-- The children of a position are `2 * i + 1` and `2 * i + 2`. -/
theorem child_cases {c i : ℕ} (hc : 0 < c) (hpc : parent c = i) :
    c = 2 * i + 1 ∨ c = 2 * i + 2 := by
  unfold parent at hpc
  omega

theorem parent_child_left (i : ℕ) : parent (2 * i + 1) = i := by
  unfold parent
  omega

theorem parent_child_right (i : ℕ) : parent (2 * i + 2) = i := by
  unfold parent
  omega

namespace Ordered

variable {l : List κ} {n : ℕ}

theorem mono (h : Ordered l n) {m : ℕ} (hm : m ≤ n) : Ordered l m :=
  fun k hk hkm ↦ h k hk (by omega)

theorem bridge (h : Ordered l n) (i : ℕ) : Bridge l n i := by
  intro hi c hc hcn hpc
  have hic : i < c := hpc ▸ parent_lt hc
  have hedge : OLe l[i]? l[c]? := by
    rw [← hpc]
    exact h c hc hcn
  exact oLe_trans_getElem? hic (h i hi (by omega)) hedge

theorem upOrder (h : Ordered l n) (j : ℕ) : UpOrder l n j :=
  ⟨fun k hk hkn _ ↦ h k hk hkn, h.bridge j⟩

/-- The root is a least element of the first `n` positions. -/
theorem root_le (h : Ordered l n) : ∀ k, k < n → OLe l[0]? l[k]? := by
  intro k
  induction k using Nat.strong_induction_on with
  | _ k ih =>
    intro hkn
    rcases Nat.eq_zero_or_pos k with rfl | hk
    · exact oLe_self _
    · exact oLe_trans_getElem? (parent_lt hk) (ih _ (parent_lt hk) (by
        have := parent_lt hk; omega)) (h k hk hkn)

/-- Dropping the last element keeps the order of a prefix before it. -/
theorem dropLast (h : Ordered l n) (hn : n < l.length) : Ordered l.dropLast n := by
  intro k hk hkn
  unfold Edge
  have hpk := parent_lt hk
  rw [List.getElem?_dropLast, if_pos (by omega), List.getElem?_dropLast, if_pos (by omega)]
  exact h k hk hkn

/-- Writing any element at `i` leaves the order a `Fix` at `i` starts from. -/
theorem set (h : Ordered l n) {i : ℕ} (v : κ) : FixOrder (l.set i v) n i := by
  refine ⟨fun k hk hkn hki hpk ↦ ?_, fun hi c hc hcn hpc ↦ ?_⟩
  · unfold Edge
    rw [List.getElem?_set_ne (Ne.symm hpk), List.getElem?_set_ne (Ne.symm hki)]
    exact h k hk hkn
  · have hpi := parent_lt hi
    have hic : i < c := hpc ▸ parent_lt hc
    rw [List.getElem?_set_ne (by omega), List.getElem?_set_ne (by omega)]
    exact h.bridge i hi c hc hcn hpc

/-- Swapping the element at `i` with the last of `n + 1` leaves the order a `Fix` at `i` starts
from on the first `n` positions. -/
theorem swap_last (h : Ordered l (n + 1)) {i : ℕ} (hi : i < n) :
    FixOrder (l.swap i n) n i := by
  refine ⟨fun k hk hkn hki hpk ↦ ?_, fun hi0 c hc hcn hpc ↦ ?_⟩
  · have hpk' := parent_lt hk
    unfold Edge
    rw [getElem?_swap_of_ne hpk (by omega), getElem?_swap_of_ne hki (by omega)]
    exact h k hk (by omega)
  · have hpi := parent_lt hi0
    have hic : i < c := hpc ▸ parent_lt hc
    rw [getElem?_swap_of_ne (by omega) (by omega), getElem?_swap_of_ne (by omega) (by omega)]
    exact h.bridge i hi0 c hc (by omega) hpc

/-- Elements appended after the first `n` positions leave their order as it is. -/
theorem append (h : Ordered l n) (hn : n ≤ l.length) (r : List κ) : Ordered (l ++ r) n := by
  intro k hk hkn
  unfold Edge
  have hpk := parent_lt hk
  rw [List.getElem?_append_left (by omega), List.getElem?_append_left (by omega)]
  exact h k hk hkn

/-- An element appended after `n` ordered positions has no children among the first `n + 1`:
only the pair of it and its parent may be out of order. -/
theorem upOrder_last (h : Ordered l n) : UpOrder l (n + 1) n := by
  refine ⟨fun k hk hkn hkj ↦ h k hk (by omega), fun _ c hc hcn hpc ↦ ?_⟩
  have := parent_lt hc
  omega

end Ordered

theorem DownOrder.fixOrder {l : List κ} {n i : ℕ} (h : DownOrder l n i) : FixOrder l n i :=
  ⟨fun k hk hkn _ hpk ↦ h.edge k hk hkn hpk, h.bridge⟩

theorem UpOrder.fixOrder {l : List κ} {n j : ℕ} (h : UpOrder l n j) : FixOrder l n j :=
  ⟨fun k hk hkn hkj _ ↦ h.edge k hk hkn hkj, h.bridge⟩

/-- A `Fix` at the root is a `down` from the root. -/
theorem FixOrder.downOrder_zero {l : List κ} {n : ℕ} (h : FixOrder l n 0) : DownOrder l n 0 :=
  ⟨fun k hk hkn hpk ↦ h.edge k hk hkn (by omega) hpk, h.bridge⟩

/-- One swap of the element at `i` with its least child `c`, which is less than it: the hole
moves down to `c`. -/
theorem FixOrder.move {l : List κ} {n i c : ℕ} {x y : κ} (h : FixOrder l n i) (hn : n ≤ l.length)
    (hc : 0 < c) (hcn : c < n) (hpc : parent c = i) (hx : l[i]? = some x) (hy : l[c]? = some y)
    (hyx : y < x) (hleast : ∀ d, 0 < d → d < n → parent d = i → OLe (some y) l[d]?) :
    DownOrder (l.swap i c) n c := by
  have hic : i < c := hpc ▸ parent_lt hc
  have hil : i < l.length := by omega
  have hcl : c < l.length := by omega
  have hsi : (l.swap i c)[i]? = some y := by rw [getElem?_swap_left hil hcl, hy]
  have hsc : (l.swap i c)[c]? = some x := by rw [getElem?_swap_right hil hcl, hx]
  refine ⟨fun k hk hkn hpk ↦ ?_, fun _ d hd hdn hpd ↦ ?_⟩
  · unfold Edge
    by_cases hkc : k = c
    · -- the pair of `i` and `c`, now in order
      subst hkc
      rw [hpc, hsi, hsc, oLe_some_some]
      exact hyx.le
    by_cases hki : k = i
    · -- the pair of `i` and its parent: the bridge
      subst hki
      have hpk' := parent_lt hk
      rw [getElem?_swap_of_ne (by omega) (by omega), hsi, ← hy]
      exact h.bridge hk c hc hcn hpc
    by_cases hpki : parent k = i
    · -- the other child of `i`: `c` was the least
      rw [hpki, hsi, getElem?_swap_of_ne hki hkc]
      exact hleast k hk hkn hpki
    · -- a pair the swap does not touch
      rw [getElem?_swap_of_ne hpki hpk, getElem?_swap_of_ne hki hkc]
      exact h.edge k hk hkn hki hpki
  · -- the children of `c` are not less than `c` was, which is now at `i`
    have hcd : c < d := hpd ▸ parent_lt hd
    rw [hpc, hsi, getElem?_swap_of_ne (by omega) (by omega), ← hy, ← hpd]
    exact h.edge d hd hdn (by omega) (by omega)

theorem DownOrder.move {l : List κ} {n i c : ℕ} {x y : κ} (h : DownOrder l n i)
    (hn : n ≤ l.length) (hc : 0 < c) (hcn : c < n) (hpc : parent c = i) (hx : l[i]? = some x)
    (hy : l[c]? = some y) (hyx : y < x)
    (hleast : ∀ d, 0 < d → d < n → parent d = i → OLe (some y) l[d]?) :
    DownOrder (l.swap i c) n c :=
  h.fixOrder.move hn hc hcn hpc hx hy hyx hleast

/-- `down` stops with the element at `i` at most its children in the first `n` positions. -/
theorem DownOrder.finish {l : List κ} {n i : ℕ} (h : DownOrder l n i)
    (hstop : ∀ d, 0 < d → d < n → parent d = i → OLe l[i]? l[d]?) : Ordered l n := by
  intro k hk hkn
  by_cases hpki : parent k = i
  · unfold Edge
    rw [hpki]
    exact hstop k hk hkn hpki
  · exact h.edge k hk hkn hpki

/-- The element at `i` stays where it is, being at most its least child or having none: what is
left out of order is the pair of `i` and its parent. -/
theorem FixOrder.stop {l : List κ} {n i : ℕ} (h : FixOrder l n i)
    (hstop : ∀ d, 0 < d → d < n → parent d = i → OLe l[i]? l[d]?) : UpOrder l n i := by
  refine ⟨fun k hk hkn hki ↦ ?_, h.bridge⟩
  by_cases hpki : parent k = i
  · unfold Edge
    rw [hpki]
    exact hstop k hk hkn hpki
  · exact h.edge k hk hkn hki hpki

/-- Once the pair of `j` and its parent is in order, or `j` is the root, all is in order. -/
theorem UpOrder.finish {l : List κ} {n j : ℕ} (h : UpOrder l n j)
    (hj : j = 0 ∨ Edge l j) : Ordered l n := by
  intro k hk hkn
  by_cases hkj : k = j
  · subst hkj
    rcases hj with rfl | hj
    · omega
    · exact hj
  · exact h.edge k hk hkn hkj

/-- The siblings of `j` are not less than their parent. -/
theorem UpOrder.sibling {l : List κ} {n j k : ℕ} {x : κ} (h : UpOrder l n j) (hk : 0 < k)
    (hkn : k < n) (hkj : k ≠ j) (hpk : parent k = parent j) (hx : l[parent j]? = some x) :
    OLe (some x) l[k]? := by
  have hedge := h.edge k hk hkn hkj
  unfold Edge at hedge
  rwa [hpk, hx] at hedge

/-- One swap of the element at `j` with its parent, which is greater: the hole moves up to the
parent. -/
theorem UpOrder.move {l : List κ} {n j : ℕ} {x y : κ} (h : UpOrder l n j) (hn : n ≤ l.length)
    (hj : 0 < j) (hjn : j < n) (hx : l[parent j]? = some x) (hy : l[j]? = some y) (hyx : y < x) :
    UpOrder (l.swap (parent j) j) n (parent j) := by
  set i := parent j with hi_def
  have hij : i < j := parent_lt hj
  have hil : i < l.length := by omega
  have hjl : j < l.length := by omega
  have hsi : (l.swap i j)[i]? = some y := by rw [getElem?_swap_left hil hjl, hy]
  have hsj : (l.swap i j)[j]? = some x := by rw [getElem?_swap_right hil hjl, hx]
  -- the parent of `j` is not less than its parent
  have hedge_i : 0 < i → OLe l[parent i]? (some x) := fun hi ↦ by
    rw [← hx]
    exact h.edge i hi (by omega) (by omega)
  refine ⟨fun k hk hkn hki ↦ ?_, fun hi d hd hdn hpd ↦ ?_⟩
  · unfold Edge
    by_cases hkj : k = j
    · -- the pair of `j` and its parent, now in order
      subst hkj
      rw [← hi_def, hsi, hsj, oLe_some_some]
      exact hyx.le
    by_cases hpki : parent k = i
    · -- the other child of the parent: greater than `x`, which is greater than `y`
      rw [hpki, hsi, getElem?_swap_of_ne hki hkj]
      exact (oLe_some_some.mpr hyx.le).trans (h.sibling hk hkn hkj hpki hx)
    by_cases hpkj : parent k = j
    · -- a child of `j`: the bridge
      have hjk : j < k := hpkj ▸ parent_lt hk
      rw [hpkj, hsj, getElem?_swap_of_ne (by omega) (by omega), ← hx]
      exact h.bridge hj k hk hkn hpkj
    · -- a pair the swap does not touch
      rw [getElem?_swap_of_ne hpki hpkj, getElem?_swap_of_ne hki hkj]
      exact h.edge k hk hkn hkj
  · -- the children of the parent are `j`, holding `x`, and its sibling, not less than `x`
    have hpi := parent_lt hi
    rw [getElem?_swap_of_ne (by omega) (by omega)]
    by_cases hdj : d = j
    · subst hdj
      rw [hsj]
      exact hedge_i hi
    · have hid : i < d := hpd ▸ parent_lt hd
      rw [getElem?_swap_of_ne (by omega) hdj]
      exact (hedge_i hi).trans (h.sibling hd hdn hdj hpd hx)

/-- No position is a child of `i` among the first `n` when `2 * i + 1` is not among them. -/
theorem no_child {i n d : ℕ} (hleaf : n ≤ 2 * i + 1) (hd : 0 < d) (hdn : d < n)
    (hpd : parent d = i) : False := by
  rcases child_cases hd hpd with rfl | rfl <;> omega

end Keys

/-- `down` ends at or below where it starts. -/
theorem le_down_snd {σ α : Type} (h : Interface σ α) :
    ∀ (fuel : ℕ) (s : σ) (i n : ℕ), i ≤ (down h fuel s i n).2
  | 0, _, _, _ => le_rfl
  | fuel + 1, s, i, n => by
    simp only [down]
    split_ifs with hleaf hstop
    · exact le_rfl
    · exact le_rfl
    · have hchild : i < smallerChild h s i n := by
        unfold smallerChild
        split_ifs <;> omega
      exact hchild.le.trans (le_down_snd h fuel _ _ n)

section Sift

variable {σ α κ : Type} [LinearOrder κ] {h : Interface σ α} {P : σ → Prop} {key : σ → List κ}

/-- A reading of the keys of an interface's elements in slice order, under a property `P` of
states that the swaps keep: `Swap` swaps the keys and `Less` compares them. -/
structure OrderView (h : Interface σ α) (P : σ → Prop) (key : σ → List κ) : Prop where
  len_eq : ∀ s, h.len s = (key s).length
  swap_eq : ∀ s i j, key (h.swap s i j) = (key s).swap i j
  swap_P : ∀ s i j, P s → P (h.swap s i j)
  less_iff : ∀ s i j a b, P s → (key s)[i]? = some a → (key s)[j]? = some b →
    (h.less s i j = true ↔ a < b)

variable (hv : OrderView h P key)
include hv

theorem OrderView.len_swap (s : σ) (i j : ℕ) : h.len (h.swap s i j) = h.len s := by
  rw [hv.len_eq, hv.swap_eq, List.length_swap, hv.len_eq]

theorem OrderView.exists_key {s : σ} {i : ℕ} (hi : i < h.len s) : ∃ a, (key s)[i]? = some a :=
  ⟨_, List.getElem?_eq_getElem (by rw [← hv.len_eq]; exact hi)⟩

/-- The child `down` compares with is a least child of `i` among the first `n` positions. -/
theorem smallerChild_spec {s : σ} {i n : ℕ} (hs : P s) (hchild : 2 * i + 1 < n)
    (hn : n ≤ h.len s) :
    0 < smallerChild h s i n ∧ smallerChild h s i n < n ∧ parent (smallerChild h s i n) = i ∧
      ∃ y, (key s)[smallerChild h s i n]? = some y ∧
        ∀ d, 0 < d → d < n → parent d = i → OLe (some y) (key s)[d]? := by
  obtain ⟨y₁, hy₁⟩ := hv.exists_key (s := s) (i := 2 * i + 1) (by omega)
  unfold smallerChild
  split_ifs with hright
  · obtain ⟨hrn, hless⟩ := hright
    obtain ⟨y₂, hy₂⟩ := hv.exists_key (s := s) (i := 2 * i + 2) (by omega)
    have hlt : y₂ < y₁ := (hv.less_iff s _ _ _ _ hs hy₂ hy₁).mp hless
    refine ⟨by omega, hrn, parent_child_right i, y₂, hy₂, fun d hd hdn hpd ↦ ?_⟩
    rcases child_cases hd hpd with rfl | rfl
    · rw [hy₁, oLe_some_some]
      exact hlt.le
    · rw [hy₂]
      exact oLe_self _
  · refine ⟨by omega, hchild, parent_child_left i, y₁, hy₁, fun d hd hdn hpd ↦ ?_⟩
    rcases child_cases hd hpd with rfl | rfl
    · rw [hy₁]
      exact oLe_self _
    · obtain ⟨y₂, hy₂⟩ := hv.exists_key (s := s) (i := 2 * i + 2) (by omega)
      have hnlt : ¬ y₂ < y₁ := fun hlt ↦ hright ⟨hdn, (hv.less_iff s _ _ _ _ hs hy₂ hy₁).mpr hlt⟩
      rw [hy₂, oLe_some_some]
      exact not_lt.mp hnlt

/-- Where `down` stops at `i`, the element at `i` is at most each of its children. -/
theorem down_stop {s : σ} {i n : ℕ} (hs : P s) (hchild : 2 * i + 1 < n) (hn : n ≤ h.len s)
    (hstop : (!h.less s (smallerChild h s i n) i) = true) :
    ∀ d, 0 < d → d < n → parent d = i → OLe (key s)[i]? (key s)[d]? := by
  obtain ⟨-, -, -, y, hy, hleast⟩ := smallerChild_spec hv hs hchild hn
  obtain ⟨x, hx⟩ := hv.exists_key (s := s) (i := i) (by omega)
  have hxy : x ≤ y := not_lt.mp fun hlt ↦ by
    rw [(hv.less_iff s _ _ _ _ hs hy hx).mpr hlt] at hstop
    exact Bool.noConfusion hstop
  intro d hd hdn hpd
  rw [hx]
  exact (oLe_some_some.mpr hxy).trans (hleast d hd hdn hpd)

/-- Where `down` swaps `i` with its least child, the hole moves down to that child. -/
theorem down_swap {s : σ} {i n : ℕ} (hs : P s) (ho : FixOrder (key s) n i) (hchild : 2 * i + 1 < n)
    (hn : n ≤ h.len s) (hswap : ¬ (!h.less s (smallerChild h s i n) i) = true) :
    i < smallerChild h s i n ∧
      DownOrder (key (h.swap s i (smallerChild h s i n))) n (smallerChild h s i n) := by
  obtain ⟨hc, hcn, hpc, y, hy, hleast⟩ := smallerChild_spec hv hs hchild hn
  obtain ⟨x, hx⟩ := hv.exists_key (s := s) (i := i) (by omega)
  have hyx : y < x := (hv.less_iff s _ _ _ _ hs hy hx).mp (by simpa using hswap)
  have hmove := ho.move (by rw [← hv.len_eq]; exact hn) hc hcn hpc hx hy hyx hleast
  rw [← hv.swap_eq] at hmove
  have hic := parent_lt hc
  rw [hpc] at hic
  exact ⟨hic, hmove⟩

/-- `down` from a hole at `i` with a turn for each level left leaves the first `n` positions in
order. -/
theorem down_order : ∀ (fuel : ℕ) (s : σ) (i n : ℕ), P s → DownOrder (key s) n i →
    n ≤ h.len s → n ≤ fuel + i → Ordered (key (down h fuel s i n).1) n ∧ P (down h fuel s i n).1
  | 0, s, i, n, hs, ho, _, hfuel =>
    ⟨ho.finish fun d hd hdn hpd ↦ (no_child (by omega) hd hdn hpd).elim, hs⟩
  | fuel + 1, s, i, n, hs, ho, hn, hfuel => by
    simp only [down]
    split_ifs with hleaf hstop
    · -- no child of `i` is among the first `n` positions
      exact ⟨ho.finish fun d hd hdn hpd ↦ (no_child hleaf hd hdn hpd).elim, hs⟩
    · -- the element at `i` is at most its least child
      exact ⟨ho.finish (down_stop hv hs (by omega) hn hstop), hs⟩
    · -- swap with the least child and go on from there
      obtain ⟨hic, hmove⟩ := down_swap hv hs ho.fixOrder (by omega) hn hstop
      exact down_order fuel _ _ n (hv.swap_P s _ _ hs) hmove (by rw [hv.len_swap]; exact hn)
        (by omega)

/-- `down` from a changed element at `i` either moves it, leaving the first `n` positions in
order, or leaves the state as it is with the pair of `i` and its parent the only one out of
order. -/
theorem down_of_fixOrder {fuel : ℕ} {s : σ} {i n : ℕ} (hs : P s) (ho : FixOrder (key s) n i)
    (hn : n ≤ h.len s) (hfuel : n ≤ fuel + i) :
    (i < (down h fuel s i n).2 ∧ Ordered (key (down h fuel s i n).1) n ∧
        P (down h fuel s i n).1) ∨
      (down h fuel s i n = (s, i) ∧ UpOrder (key s) n i) := by
  cases fuel with
  | zero => exact .inr ⟨rfl, ho.stop fun d hd hdn hpd ↦ (no_child (by omega) hd hdn hpd).elim⟩
  | succ fuel =>
    simp only [down]
    split_ifs with hleaf hstop
    · exact .inr ⟨rfl, ho.stop fun d hd hdn hpd ↦ (no_child hleaf hd hdn hpd).elim⟩
    · -- the element stays: it is at most its least child
      exact .inr ⟨rfl, ho.stop (down_stop hv hs (by omega) hn hstop)⟩
    · -- the element moves down: after the first swap the hole is at the child
      obtain ⟨hic, hmove⟩ := down_swap hv hs ho (by omega) hn hstop
      refine .inl ⟨hic.trans_le (le_down_snd h fuel _ _ n), down_order hv fuel _ _ n
        (hv.swap_P s _ _ hs) hmove (by rw [hv.len_swap]; exact hn) (by omega)⟩

/-- `up` from a hole at `j` with a turn for each level above it leaves the first `n` positions in
order. -/
theorem up_order : ∀ (fuel : ℕ) (s : σ) (j n : ℕ), P s → UpOrder (key s) n j → j < n →
    n ≤ h.len s → j < fuel → Ordered (key (up h fuel s j)) n ∧ P (up h fuel s j)
  | 0, _, _, _, _, _, _, _, hfuel => absurd hfuel (Nat.not_lt_zero _)
  | fuel + 1, s, j, n, hs, ho, hjn, hn, hfuel => by
    simp only [up]
    obtain ⟨y, hy⟩ := hv.exists_key (s := s) (i := j) (by omega)
    -- the parent `up` compares with
    change (if parent j = j ∨ (!h.less s j (parent j)) = true then s
      else up h fuel (h.swap s (parent j) j) (parent j)) ∈ {t | Ordered (key t) n ∧ P t}
    split_ifs with hstop
    · -- at the root, or not less than the parent
      refine ⟨ho.finish ?_, hs⟩
      rcases Nat.eq_zero_or_pos j with rfl | hj
      · exact .inl rfl
      · obtain ⟨x, hx⟩ := hv.exists_key (s := s) (i := parent j) (by have := parent_lt hj; omega)
        have hxy : x ≤ y := not_lt.mp fun hlt ↦ by
          rw [(hv.less_iff s _ _ _ _ hs hy hx).mpr hlt] at hstop
          have := parent_lt hj
          simp at hstop
          omega
        refine .inr ?_
        unfold Edge
        rw [hx, hy, oLe_some_some]
        exact hxy
    · -- less than the parent: swap and go on from the parent
      simp only [not_or, Bool.not_eq_true', Bool.not_eq_false] at hstop
      obtain ⟨hne, hless⟩ := hstop
      have hj : 0 < j := by
        by_contra h0
        exact hne (by rw [show j = 0 by omega]; rfl)
      have hpj := parent_lt hj
      obtain ⟨x, hx⟩ := hv.exists_key (s := s) (i := parent j) (by omega)
      have hyx : y < x := (hv.less_iff s _ _ _ _ hs hy hx).mp hless
      have hmove := ho.move (by rw [← hv.len_eq]; exact hn) hj hjn hx hy hyx
      rw [← hv.swap_eq] at hmove
      exact up_order fuel _ _ n (hv.swap_P s _ _ hs) hmove (by omega)
        (by rw [hv.len_swap]; exact hn) (by omega)

/-- The sifting `Fix` and `Remove` share: `down` from `i`, then `up` from `i` if the element did
not move down. -/
theorem downUp_order {fuel : ℕ} {s : σ} {i n : ℕ} (hs : P s) (ho : FixOrder (key s) n i)
    (hi : i < n) (hn : n ≤ h.len s) (hfuel : n ≤ fuel + i) :
    let moved := down h fuel s i n
    Ordered (key (if i < moved.2 then moved.1 else up h (i + 1) moved.1 i)) n ∧
      P (if i < moved.2 then moved.1 else up h (i + 1) moved.1 i) := by
  intro moved
  rcases down_of_fixOrder hv hs ho hn hfuel with ⟨hmoved, hord⟩ | ⟨hstay, hup⟩
  · rw [if_pos hmoved]
    exact hord
  · have hstay' : moved = (s, i) := hstay
    rw [hstay', if_neg (lt_irrefl i)]
    exact up_order hv (i + 1) s i n hs hup hi hn (Nat.lt_succ_self i)

/-- `heap.Fix(h, i)` after a change of the element at `i` puts the heap back in order. -/
theorem fix_order {s : σ} {i : ℕ} (hs : P s) (ho : FixOrder (key s) (h.len s) i)
    (hi : i < h.len s) : Ordered (key (fix h s i)) (h.len s) ∧ P (fix h s i) :=
  downUp_order hv hs ho hi le_rfl (Nat.le_add_right _ _)

/-- The sifting of `heap.Remove(h, i)` leaves the positions before the last in order. -/
theorem removeSift_order {s : σ} {i : ℕ} (hs : P s) (ho : Ordered (key s) (h.len s))
    (hi : i < h.len s) :
    Ordered (key (removeSift h s i)) (h.len s - 1) ∧ P (removeSift h s i) := by
  simp only [removeSift]
  by_cases hlast : h.len s - 1 = i
  · rw [if_pos hlast]
    exact ⟨ho.mono (Nat.sub_le _ _), hs⟩
  · rw [if_neg hlast]
    -- the element at `i` is swapped with the last one, which then has to find its place
    have hin : i < h.len s - 1 := by omega
    have hswap : FixOrder (key (h.swap s i (h.len s - 1))) (h.len s - 1) i := by
      have ho' : Ordered (key s) (h.len s - 1 + 1) := ho.mono (by omega)
      rw [hv.swap_eq]
      exact ho'.swap_last hin
    exact downUp_order hv (hv.swap_P s _ _ hs) hswap hin (by rw [hv.len_swap]; omega)
      (by omega)

/-- The sifting of `heap.Pop(h)`: once the root is swapped with the last element and `down` has
run from the root, the positions before the last are in order. -/
theorem popSift_order {s : σ} (hs : P s) (ho : Ordered (key s) (h.len s)) :
    let n := h.len s - 1
    Ordered (key (down h n (h.swap s 0 n) 0 n).1) n ∧ P (down h n (h.swap s 0 n) 0 n).1 := by
  intro n
  rcases Nat.eq_zero_or_pos n with hn | hn
  · -- a single element: nothing is left before the last position
    refine ⟨fun k hk hkn ↦ absurd hkn (by omega), ?_⟩
    rw [hn]
    exact hv.swap_P s 0 0 hs
  · have ho' : Ordered (key s) (n + 1) := ho.mono (by omega)
    have hswap : DownOrder (key (h.swap s 0 n)) n 0 := by
      rw [hv.swap_eq]
      exact (ho'.swap_last hn).downOrder_zero
    exact down_order hv n _ 0 n (hv.swap_P s _ _ hs) hswap (by rw [hv.len_swap]; omega)
      (by omega)

/-- The sifting of `heap.Push(h, x)`: after the interface's `Push` has left all positions but the
last in order, `up` from the last position puts all of them in order. -/
theorem pushUp_order {s : σ} (hs : P s) (hpos : 0 < h.len s)
    (ho : Ordered (key s) (h.len s - 1)) :
    Ordered (key (up h (h.len s) s (h.len s - 1))) (h.len s) ∧
      P (up h (h.len s) s (h.len s - 1)) := by
  obtain ⟨m, hm⟩ : ∃ m, h.len s = m + 1 := ⟨h.len s - 1, by omega⟩
  rw [hm, Nat.add_sub_cancel] at ho ⊢
  exact up_order hv (m + 1) s m (m + 1) hs ho.upOrder_last (Nat.lt_succ_self m) hm.ge
    (Nat.lt_succ_self m)

end Sift


section SliceOrder

variable {β κ : Type} [LinearOrder κ]

/-- A slice whose `Less` compares a key of its elements is read by the list of their keys. -/
theorem slice_orderView (f : β → κ) (less : β → β → Bool)
    (hless : ∀ a b, less a b = true ↔ f a < f b) :
    OrderView (slice less) (fun _ ↦ True) (List.map f) where
  len_eq l := (List.length_map _).symm
  swap_eq l i j := map_swap f l i j
  swap_P _ _ _ _ := trivial
  less_iff l i j a b _ ha hb := by
    rw [List.getElem?_map] at ha hb
    obtain ⟨x, hx, rfl⟩ := Option.map_eq_some_iff.mp ha
    obtain ⟨y, hy, rfl⟩ := Option.map_eq_some_iff.mp hb
    simp only [slice, hx, hy]
    exact hless x y

end SliceOrder

end Wander.Lib.Heap
