import Mathlib.Data.Finset.Card
import Mathlib.Algebra.Order.Monoid.Defs
import Mathlib.Order.Bounds.Defs

/-!
# Covering points with windows of one width

A window of width `w` that starts at `c` holds the points `t` with `c ≤ t < c + w`. Two points
at least `w` apart never share a window, so points that are pairwise that far apart need one
window each (`length_le_card_of_covers`). Hence a list of such points, taken from the points to
cover, whose own windows cover them all is a cover of the least size (`isLeast_card_covers`).
-/

set_option autoImplicit false
set_option relaxedAutoImplicit false

namespace Wander.Lib.Windows

variable {α : Type*} [AddCommMonoid α] [LinearOrder α] [IsOrderedCancelAddMonoid α]

/-- The windows of width `w` that start at `cs` hold every point of `pts`. -/
def Covers (w : α) (cs : Finset α) (pts : List α) : Prop :=
  ∀ t ∈ pts, ∃ c ∈ cs, c ≤ t ∧ t < c + w

/-- Points in increasing order, each at least `w` after the ones before it. -/
def Separated (w : α) (starts : List α) : Prop :=
  starts.Pairwise fun a b ↦ a + w ≤ b

variable {w : α}

/-- Points in a chain of gaps of at least `w ≥ 0` are separated. -/
theorem separated_of_isChain (hw : 0 ≤ w) {starts : List α}
    (h : starts.IsChain fun a b ↦ a + w ≤ b) : Separated w starts := by
  have : Trans (fun a b : α ↦ a + w ≤ b) (fun a b ↦ a + w ≤ b) (fun a b ↦ a + w ≤ b) :=
    ⟨fun hab hbc ↦ hab.trans ((le_add_of_nonneg_right hw).trans hbc)⟩
  exact h.pairwise

theorem Separated.nodup (hw : 0 < w) {starts : List α} (h : Separated w starts) : starts.Nodup :=
  h.imp fun hab ↦ ((lt_add_of_pos_right _ hw).trans_le hab).ne

/-- Two points in one window are less than `w` apart. -/
theorem not_separated_of_mem_window {c a b : α} (ha : c ≤ a) (hb : b < c + w) :
    ¬a + w ≤ b :=
  fun hab ↦ absurd (hab.trans_lt hb) (not_lt.mpr (add_le_add ha le_rfl))

omit [IsOrderedCancelAddMonoid α] in
theorem Covers.mono {cs : Finset α} {pts pts' : List α} (h : Covers w cs pts)
    (hsub : ∀ t ∈ pts', t ∈ pts) : Covers w cs pts' :=
  fun t ht ↦ h t (hsub t ht)

/-- Separated points need a window each. -/
theorem length_le_card_of_covers [DecidableEq α] {starts : List α} {cs : Finset α}
    (hsep : Separated w starts) (hcov : Covers w cs starts) : starts.length ≤ cs.card := by
  induction starts generalizing cs with
  | nil => simp
  | cons s rest ih =>
    obtain ⟨c, hc, hcs, hsc⟩ := hcov s (by simp)
    -- the window of `s` holds no other point, so the rest are covered without it
    have hrest : Covers w (cs.erase c) rest := by
      intro r hr
      obtain ⟨c', hc', hcr, hrc⟩ := hcov r (List.mem_cons_of_mem _ hr)
      refine ⟨c', Finset.mem_erase.mpr ⟨?_, hc'⟩, hcr, hrc⟩
      rintro rfl
      exact not_separated_of_mem_window hcs hrc ((List.pairwise_cons.mp hsep).1 r hr)
    have hle := ih (List.pairwise_cons.mp hsep).2 hrest
    rw [Finset.card_erase_of_mem hc] at hle
    have hpos : 0 < cs.card := Finset.card_pos.mpr ⟨c, hc⟩
    simp only [List.length_cons]
    omega

/-- Separated points among `pts` whose windows cover `pts` are a least cover of it. -/
theorem isLeast_card_covers [DecidableEq α] (hw : 0 < w) {starts pts : List α}
    (hsep : Separated w starts) (hsub : ∀ s ∈ starts, s ∈ pts)
    (hcov : Covers w starts.toFinset pts) :
    IsLeast {n | ∃ cs : Finset α, cs.card = n ∧ Covers w cs pts} starts.length :=
  ⟨⟨starts.toFinset, List.toFinset_card_of_nodup (hsep.nodup hw), hcov⟩,
    fun _ ⟨_, hcard, hcs⟩ ↦ hcard ▸ length_le_card_of_covers hsep (hcs.mono hsub)⟩

end Wander.Lib.Windows
