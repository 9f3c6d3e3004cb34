import Mathlib.Data.List.Perm.Basic
import Mathlib.Data.List.Basic
import Mathlib.Data.Nat.Notation

/-!
# Go's `container/heap`

The algorithms of Go's `container/heap` package, written against the methods of `heap.Interface`
they call: `Len`, `Less` and `Swap` on positions, and the `Push` and `Pop` that append to and
remove from the end of the underlying sequence. `up` and `down` are the package's sift loops, with
a fuel argument in place of the loop; `push`, `pop`, `remove` and `fix` are its exported functions.

A `View` of an interface reads its state as a list and says that the methods act on that list as
Go's documentation requires. Under a view, every operation permutes the contents: a push adds the
pushed element, a pop or a remove takes exactly one element out, a pop takes the root and `remove`
takes the element at the position it is given.
-/

set_option autoImplicit false
set_option relaxedAutoImplicit false

namespace Wander.Lib.Heap

open scoped List

/-- The methods of `heap.Interface` on a state `σ` holding elements of `α`. `pop` returns
`none` on an empty state, where Go's `Pop` would index out of range. -/
structure Interface (σ α : Type) where
  len : σ → ℕ
  less : σ → ℕ → ℕ → Bool
  swap : σ → ℕ → ℕ → σ
  push : σ → α → σ
  pop : σ → σ × Option α

variable {σ α : Type} (h : Interface σ α)

/-- `up(h, j)`: move the element at `j` towards the root while it is less than its parent. -/
def up : ℕ → σ → ℕ → σ
  | 0, s, _ => s
  | fuel + 1, s, j =>
    let i := (j - 1) / 2
    if i = j ∨ !h.less s j i then s else up fuel (h.swap s i j) i

/-- The child of `i` that `down` compares with: the right child `j1 + 1` when it lies in the
first `n` positions and is less than the left child `j1`. -/
def smallerChild (s : σ) (i n : ℕ) : ℕ :=
  if 2 * i + 2 < n ∧ h.less s (2 * i + 2) (2 * i + 1) then 2 * i + 2 else 2 * i + 1

/-- `down(h, i0, n)`: move the element at `i0` away from the root, within the first `n`
positions. The second component is the final position; Go returns whether it moved. -/
def down : ℕ → σ → ℕ → ℕ → σ × ℕ
  | 0, s, i, _ => (s, i)
  | fuel + 1, s, i, n =>
    if n ≤ 2 * i + 1 then (s, i)
    else
      let j := smallerChild h s i n
      if !h.less s j i then (s, i) else down fuel (h.swap s i j) j n

/-- `heap.Push(h, x)`. -/
def push (s : σ) (x : α) : σ :=
  let s' := h.push s x
  up h (h.len s') s' (h.len s' - 1)

/-- `heap.Pop(h)`: swap the root with the last element, restore the first `n` positions, and
remove the last element. -/
def pop (s : σ) : σ × Option α :=
  let n := h.len s - 1
  h.pop (down h n (h.swap s 0 n) 0 n).1

/-- The sifting `heap.Remove(h, i)` does before its final `Pop`: the element at `i` goes to the
last position and the first `n` positions are put back in order around the element moved in. -/
def removeSift (s : σ) (i : ℕ) : σ :=
  let n := h.len s - 1
  if n = i then s
  else
    let moved := down h n (h.swap s i n) i n
    if i < moved.2 then moved.1 else up h (i + 1) moved.1 i

/-- `heap.Remove(h, i)`. -/
def remove (s : σ) (i : ℕ) : σ × Option α := h.pop (removeSift h s i)

/-- `heap.Fix(h, i)`: re-establish the order after the element at `i` changed. -/
def fix (s : σ) (i : ℕ) : σ :=
  let moved := down h (h.len s) s i (h.len s)
  if i < moved.2 then moved.1 else up h (i + 1) moved.1 i

/-- A property that every swap `up` or `down` performs keeps, that is every swap of a position
with one that is less than it, holds after `up`. -/
theorem up_induction (P : σ → Prop)
    (hswap : ∀ s i j, P s → h.less s j i = true → P (h.swap s i j)) :
    ∀ (fuel : ℕ) (s : σ) (j : ℕ), P s → P (up h fuel s j) := by
  intro fuel
  induction fuel with
  | zero => intro s j hs; exact hs
  | succ fuel ih =>
    intro s j hs
    simp only [up]
    split
    · exact hs
    · rename_i hcond
      have hless : h.less s j ((j - 1) / 2) = true := by
        simp only [not_or, Bool.not_eq_true', Bool.not_eq_false] at hcond
        exact hcond.2
      exact ih _ _ (hswap _ _ _ hs hless)

/-- The same for `down`. -/
theorem down_induction (P : σ → Prop)
    (hswap : ∀ s i j, P s → h.less s j i = true → P (h.swap s i j)) :
    ∀ (fuel : ℕ) (s : σ) (i n : ℕ), P s → P (down h fuel s i n).1 := by
  intro fuel
  induction fuel with
  | zero => intro s i n hs; exact hs
  | succ fuel ih =>
    intro s i n hs
    simp only [down]
    split
    · exact hs
    · split
      · exact hs
      · rename_i hcond
        have hless : h.less s (smallerChild h s i n) i = true := by
          simpa using hcond
        exact ih _ _ _ (hswap _ _ _ hs hless)

/-- The same for `heap.Fix`, which runs `down` and then, if nothing moved, `up`. -/
theorem fix_induction (P : σ → Prop)
    (hswap : ∀ s i j, P s → h.less s j i = true → P (h.swap s i j)) (s : σ) (i : ℕ) (hs : P s) :
    P (fix h s i) := by
  have hdown := down_induction h P hswap (h.len s) s i (h.len s) hs
  simp only [fix]
  split
  · exact hdown
  · exact up_induction h P hswap _ _ _ hdown

/-- A reading of the interface's state as a list, on which the methods act as documented. -/
structure View (view : σ → List α) : Prop where
  len_eq : ∀ s, h.len s = (view s).length
  swap_eq : ∀ s i j, view (h.swap s i j) = (view s).swap i j
  push_eq : ∀ s x, view (h.push s x) = view s ++ [x]
  pop_eq : ∀ s, view (h.pop s).1 = (view s).dropLast ∧ (h.pop s).2 = (view s).getLast?

/-- Swapping two positions leaves every other position in place. -/
theorem getElem?_swap_of_ne {l : List α} {a b k : ℕ} (ha : k ≠ a) (hb : k ≠ b) :
    (l.swap a b)[k]? = l[k]? := by
  by_cases hk : k < l.length
  · rw [List.getElem?_eq_getElem (by simpa using hk), List.getElem?_eq_getElem hk,
      List.getElem_swap_of_ne ha hb]
  · rw [List.getElem?_eq_none (by simpa using hk), List.getElem?_eq_none (by omega)]

/-- After a swap of two positions in range, the second holds what the first held. -/
theorem getElem?_swap_right {l : List α} {a b : ℕ} (ha : a < l.length) (hb : b < l.length) :
    (l.swap a b)[b]? = l[a]? := by
  rw [List.getElem?_eq_getElem (by simpa using hb), List.getElem?_eq_getElem ha,
    List.getElem_swap_right_of_lt ha]

/-- A list with a last element is that element followed by the rest, up to permutation. -/
theorem perm_getLast_cons_dropLast {l : List α} {x : α} (hx : l.getLast? = some x) :
    l ~ x :: l.dropLast := by
  have hne : l ≠ [] := by
    rintro rfl
    simp at hx
  have hlast : l.getLast hne = x := by
    rw [List.getLast?_eq_some_getLast hne] at hx
    exact Option.some.inj hx
  calc l = l.dropLast ++ [l.getLast hne] := (List.dropLast_concat_getLast hne).symm
    _ ~ x :: l.dropLast := by rw [hlast]; exact List.perm_append_singleton _ _

/-- Go's removal of position `i` from a slice, `s[i] = s[len(s)-1]; s = s[:len(s)-1]`, takes
out exactly the element at `i`. -/
theorem perm_set_getLast_dropLast {l : List α} {i : ℕ} (hi : i < l.length) :
    l ~ l[i] :: (l.set i (l.getLast (List.ne_nil_of_length_pos (by omega)))).dropLast := by
  have hlast : (l.swap i (l.length - 1)).getLast? = some l[i] := by
    rw [List.getLast?_eq_getElem?, List.length_swap, getElem?_swap_right hi (by omega),
      List.getElem?_eq_getElem hi]
  -- moving the last element into `i` and truncating is swapping the two and truncating
  have hdrop : (l.swap i (l.length - 1)).dropLast =
      (l.set i (l.getLast (List.ne_nil_of_length_pos (by omega)))).dropLast := by
    apply List.ext_getElem
    · simp
    · intro k hk₁ hk₂
      simp only [List.getElem_dropLast, List.getElem_set, List.getLast_eq_getElem]
      simp only [List.length_dropLast, List.length_swap] at hk₁
      by_cases hk : k = i
      · subst hk
        rw [if_pos rfl, List.getElem_swap_left, dif_pos (by omega)]
      · rw [if_neg (Ne.symm hk), List.getElem_swap_of_ne hk (by omega)]
  rw [← hdrop]
  exact (List.swap_perm l i (l.length - 1)).symm.trans (perm_getLast_cons_dropLast hlast)

section View

variable {h} {view : σ → List α} (hv : View h view)
include hv

theorem up_perm (fuel : ℕ) (s : σ) (j : ℕ) : view (up h fuel s j) ~ view s := by
  induction fuel generalizing s j with
  | zero => rfl
  | succ fuel ih =>
    simp only [up]
    split
    · rfl
    · exact (ih _ _).trans (by rw [hv.swap_eq]; exact List.swap_perm _ _ _)

theorem down_perm (fuel : ℕ) (s : σ) (i n : ℕ) : view (down h fuel s i n).1 ~ view s := by
  induction fuel generalizing s i with
  | zero => rfl
  | succ fuel ih =>
    simp only [down]
    split
    · rfl
    · split
      · rfl
      · exact (ih _ _).trans (by rw [hv.swap_eq]; exact List.swap_perm _ _ _)

theorem fix_perm (s : σ) (i : ℕ) : view (fix h s i) ~ view s := by
  simp only [fix]
  split
  · exact down_perm hv _ _ _ _
  · exact (up_perm hv _ _ _).trans (down_perm hv _ _ _ _)

theorem push_perm (s : σ) (x : α) : view (push h s x) ~ view s ++ [x] := by
  unfold push
  exact (up_perm hv _ _ _).trans (by rw [hv.push_eq])

theorem pop_perm {s s' : σ} {x : α} (hpop : pop h s = (s', some x)) : view s ~ x :: view s' := by
  simp only [pop] at hpop
  generalize ht_def : (down h (h.len s - 1) (h.swap s 0 (h.len s - 1)) 0 (h.len s - 1)).1 = t
    at hpop
  have ht : view t ~ view s := ht_def ▸
    (down_perm hv _ _ _ _).trans (by rw [hv.swap_eq]; exact List.swap_perm _ _ _)
  obtain ⟨hrest, hlast⟩ := hv.pop_eq t
  rw [hpop] at hrest hlast
  simp only at hrest hlast
  rw [hrest]
  exact ht.symm.trans (perm_getLast_cons_dropLast hlast.symm)

theorem pop_isSome {s : σ} (hs : view s ≠ []) : (pop h s).2.isSome := by
  simp only [pop]
  have hperm : view (down h (h.len s - 1) (h.swap s 0 (h.len s - 1)) 0 (h.len s - 1)).1 ~
      view s :=
    (down_perm hv _ _ _ _).trans (by rw [hv.swap_eq]; exact List.swap_perm _ _ _)
  rw [(hv.pop_eq _).2, Option.isSome_iff_ne_none, Ne, List.getLast?_eq_none_iff]
  intro hnil
  rw [hnil] at hperm
  exact hs hperm.nil_eq.symm

/-- Positions at or beyond the bound are never moved by `down`. -/
theorem down_getElem?_of_le (fuel : ℕ) (s : σ) (i n k : ℕ) (hk : n ≤ k) :
    (view (down h fuel s i n).1)[k]? = (view s)[k]? := by
  induction fuel generalizing s i with
  | zero => rfl
  | succ fuel ih =>
    simp only [down]
    split
    · rfl
    · rename_i hchild
      have hj : smallerChild h s i n < n := by
        unfold smallerChild
        split <;> omega
      have hij : i < smallerChild h s i n := by
        unfold smallerChild
        split <;> omega
      split
      · rfl
      · rw [ih, hv.swap_eq, getElem?_swap_of_ne (by omega) (by omega)]

/-- Positions beyond the start are never moved by `up`. -/
theorem up_getElem?_of_lt (fuel : ℕ) (s : σ) (j k : ℕ) (hk : j < k) :
    (view (up h fuel s j))[k]? = (view s)[k]? := by
  induction fuel generalizing s j with
  | zero => rfl
  | succ fuel ih =>
    simp only [up]
    split
    · rfl
    · rw [ih _ _ (by omega), hv.swap_eq, getElem?_swap_of_ne (by omega) (by omega)]

/-- `heap.Pop(h)` returns the root, the element at position 0: it is swapped to the last
position, which the sift leaves alone. -/
theorem pop_snd (s : σ) : (pop h s).2 = (view s).head? := by
  simp only [pop]
  have hperm : view (down h (h.len s - 1) (h.swap s 0 (h.len s - 1)) 0 (h.len s - 1)).1 ~
      view s :=
    (down_perm hv _ _ _ _).trans (by rw [hv.swap_eq]; exact List.swap_perm _ _ _)
  rw [(hv.pop_eq _).2]
  by_cases hs : view s = []
  · rw [hs, List.head?_nil, List.getLast?_eq_none_iff]
    exact (hs ▸ hperm).eq_nil
  · have hpos : 0 < (view s).length := List.length_pos_iff.mpr hs
    rw [List.getLast?_eq_getElem?, hperm.length_eq, ← hv.len_eq,
      down_getElem?_of_le hv _ _ _ _ _ (Nat.le_refl _), hv.swap_eq,
      getElem?_swap_right hpos (by rw [hv.len_eq]; omega), List.head?_eq_getElem?]

/-- Popping any state yields its last element, and the rest is what remains. -/
theorem pop_last (t : σ) {x : α} (hx : (view t)[(view t).length - 1]? = some x) :
    (h.pop t).2 = some x ∧ view t ~ x :: view (h.pop t).1 := by
  obtain ⟨hrest, hlast⟩ := hv.pop_eq t
  rw [← List.getLast?_eq_getElem?] at hx
  rw [hrest, hlast, hx]
  exact ⟨rfl, perm_getLast_cons_dropLast hx⟩

theorem removeSift_perm (s : σ) (i : ℕ) : view (removeSift h s i) ~ view s := by
  simp only [removeSift]
  split
  · rfl
  · have hswap : view (h.swap s i (h.len s - 1)) ~ view s := by
      rw [hv.swap_eq]
      exact List.swap_perm _ _ _
    split
    · exact (down_perm hv _ _ _ _).trans hswap
    · exact ((up_perm hv _ _ _).trans (down_perm hv _ _ _ _)).trans hswap

/-- After the sifting, the element that was at `i` is the last one. -/
theorem removeSift_last (s : σ) {i : ℕ} (hi : i < (view s).length) :
    (view (removeSift h s i))[(view s).length - 1]? = (view s)[i]? := by
  have hlen := hv.len_eq s
  simp only [removeSift]
  split
  · rename_i hn
    rw [← hlen, hn]
  · rename_i hn
    -- The element at `i` is swapped to the last position, which neither sift loop touches.
    have hdown : (view (down h (h.len s - 1) (h.swap s i (h.len s - 1)) i (h.len s - 1)).1)[
        h.len s - 1]? = (view s)[i]? := by
      rw [down_getElem?_of_le hv _ _ _ _ _ (Nat.le_refl _), hv.swap_eq,
        getElem?_swap_right hi (by omega)]
    rw [← hlen]
    split
    · exact hdown
    · rw [up_getElem?_of_lt hv _ _ _ _ (by omega)]
      exact hdown

/-- `heap.Remove(h, i)` returns the element at position `i` and keeps the others. -/
theorem remove_spec (s : σ) {i : ℕ} (hi : i < (view s).length) :
    (remove h s i).2 = some (view s)[i] ∧ view s ~ (view s)[i] :: view (remove h s i).1 := by
  have hperm := removeSift_perm hv s i
  have hx : (view (removeSift h s i))[(view (removeSift h s i)).length - 1]? =
      some (view s)[i] := by
    rw [hperm.length_eq, removeSift_last hv s hi, List.getElem?_eq_getElem hi]
  obtain ⟨hpop, hrest⟩ := pop_last hv _ hx
  exact ⟨hpop, hperm.symm.trans hrest⟩

end View

section Simulation

variable {σ' : Type} {h} {h' : Interface σ' α} {f : σ → σ'}

/-- A map of states under which the `Len`, `Less` and `Swap` of one interface are those of
another. The sift loops only call these three, so they run alike along the map. -/
structure Simulates (h : Interface σ α) (h' : Interface σ' α) (f : σ → σ') : Prop where
  len_eq : ∀ s, h'.len (f s) = h.len s
  less_eq : ∀ s i j, h'.less (f s) i j = h.less s i j
  swap_eq : ∀ s i j, f (h.swap s i j) = h'.swap (f s) i j

theorem Simulates.up_eq (hf : Simulates h h' f) (fuel : ℕ) (s : σ) (j : ℕ) :
    f (up h fuel s j) = up h' fuel (f s) j := by
  induction fuel generalizing s j with
  | zero => rfl
  | succ fuel ih =>
    simp only [up, hf.less_eq]
    split_ifs
    · rfl
    · rw [ih, hf.swap_eq]

theorem Simulates.down_eq (hf : Simulates h h' f) (fuel : ℕ) (s : σ) (i n : ℕ) :
    Prod.map f id (down h fuel s i n) = down h' fuel (f s) i n := by
  induction fuel generalizing s i with
  | zero => rfl
  | succ fuel ih =>
    have hchild : smallerChild h' (f s) i n = smallerChild h s i n := by
      simp only [smallerChild, hf.less_eq]
    simp only [down, hchild, hf.less_eq]
    split_ifs
    · rfl
    · rfl
    · rw [ih, hf.swap_eq]

/-- `heap.Pop` runs alike along the map when the interfaces' `Pop` does. -/
theorem Simulates.pop_eq (hf : Simulates h h' f)
    (hpop : ∀ t, Prod.map f id (h.pop t) = h'.pop (f t)) (s : σ) :
    Prod.map f id (pop h s) = pop h' (f s) := by
  have hdown := congrArg Prod.fst
    (hf.down_eq (h.len s - 1) (h.swap s 0 (h.len s - 1)) 0 (h.len s - 1))
  simp only [Prod.map_fst] at hdown
  simp only [pop]
  rw [hf.len_eq, ← hf.swap_eq, ← hdown, hpop]

end Simulation

section Slice

variable {β : Type}

/-- The interface of a Go slice type whose `Less` compares elements, `Swap` exchanges them,
`Push` appends and `Pop` removes the last element. -/
def slice (less : β → β → Bool) : Interface (List β) β where
  len l := l.length
  less l i j :=
    match l[i]?, l[j]? with
    | some x, some y => less x y
    | _, _ => false
  swap l i j := l.swap i j
  push l x := l ++ [x]
  pop l := (l.dropLast, l.getLast?)

theorem slice_view (less : β → β → Bool) : View (slice less) id where
  len_eq _ := rfl
  swap_eq _ _ _ := rfl
  push_eq _ _ := rfl
  pop_eq _ := ⟨rfl, rfl⟩

@[simp] theorem slice_pop_singleton (less : β → β → Bool) (x : β) :
    pop (slice less) [x] = ([], some x) := rfl

end Slice

end Wander.Lib.Heap
