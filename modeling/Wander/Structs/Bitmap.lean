import Mathlib.Data.List.Basic
import Mathlib.Data.Int.Notation

/-!
# Bitmaps

`structs.Bitmap`, an uncompressed bitmap, as its list of bits. `NewBitmap` only builds bitmaps of a
positive size that is a whole number of bytes, and the structure carries both facts. Go's `Set`,
`Unset` and `Check` panic on an index past the end; here writing there changes nothing and reading
there gives `false`, and the results below only use indexes below the size.

`check_write` reads a written bit back, `check_newBitmap` says a new bitmap is clear, and
`mem_indexesInRange` says which indexes `IndexesInRange` returns.
-/

set_option autoImplicit false
set_option relaxedAutoImplicit false

namespace Wander.Structs

/-- `structs.Bitmap`: its bits, of a positive, byte-aligned count. -/
structure Bitmap where
  bits : List Bool
  size_pos : 0 < bits.length
  byte_aligned : bits.length % 8 = 0
deriving DecidableEq

namespace Bitmap

/-- `structs.NewBitmap`. -/
def newBitmap (size : ℕ) : Except String Bitmap :=
  if h : size = 0 then .error "bitmap must be positive size"
  else if h' : size % 8 ≠ 0 then .error "bitmap must be byte aligned"
  else .ok ⟨List.replicate size false, by simpa using Nat.pos_of_ne_zero h, by simpa using h'⟩

/-- `Bitmap.Size`. -/
def size (b : Bitmap) : ℕ := b.bits.length

/-- `Bitmap.Check`. -/
def check (b : Bitmap) (idx : ℕ) : Bool := b.bits.getD idx false

/-- The bit `idx` of `b` made `v`: `Set` and `Unset` are its two cases. -/
def write (b : Bitmap) (idx : ℕ) (v : Bool) : Bitmap where
  bits := b.bits.set idx v
  size_pos := by simpa using b.size_pos
  byte_aligned := by simpa using b.byte_aligned

/-- `Bitmap.Set`. -/
def set (b : Bitmap) (idx : ℕ) : Bitmap := b.write idx true

/-- `Bitmap.Unset`. -/
def unset (b : Bitmap) (idx : ℕ) : Bitmap := b.write idx false

/-- `Bitmap.IndexesInRange`: the indexes from `from` while at most `to` and below the size whose
bit is `set`. -/
def indexesInRange (b : Bitmap) (set : Bool) («from» «to» : ℕ) : List ℕ :=
  (List.range (min («to» + 1) b.size)).filter fun i ↦ «from» ≤ i && b.check i == set

/-- `Bitmap.IndexesInRangeFiltered`: the indexes `IndexesInRange` returns, less those in
`filter`. -/
def indexesInRangeFiltered (b : Bitmap) (set : Bool) («from» «to» : ℕ) (filter : List ℤ) :
    List ℕ :=
  (List.range (min («to» + 1) b.size)).filter fun i ↦
    «from» ≤ i && b.check i == set && (filter.length < 1 || !filter.contains (i : ℤ))

@[simp] theorem size_write (b : Bitmap) (idx : ℕ) (v : Bool) : (b.write idx v).size = b.size := by
  simp [write, size]

theorem check_write (b : Bitmap) {idx : ℕ} (h : idx < b.size) (v : Bool) (i : ℕ) :
    (b.write idx v).check i = if i = idx then v else b.check i := by
  unfold check write
  by_cases hi : i = idx
  · subst hi
    simp [List.getD_eq_getElem?_getD, List.getElem?_set_self (by simpa [size] using h)]
  · simp [List.getD_eq_getElem?_getD, List.getElem?_set_ne (Ne.symm hi), hi]

theorem newBitmap_ok {size : ℕ} (hpos : 0 < size) (haligned : size % 8 = 0) :
    ∃ b, newBitmap size = .ok b := by
  unfold newBitmap
  rw [dif_neg (Nat.pos_iff_ne_zero.mp hpos), dif_neg (not_not.mpr haligned)]
  exact ⟨_, rfl⟩

theorem check_newBitmap {size : ℕ} {b : Bitmap} (h : newBitmap size = .ok b) (i : ℕ) :
    b.check i = false := by
  unfold newBitmap at h
  split_ifs at h
  cases h
  simp only [check, List.getD_eq_getElem?_getD, List.getElem?_replicate]
  split <;> rfl

theorem size_newBitmap {size : ℕ} {b : Bitmap} (h : newBitmap size = .ok b) : b.size = size := by
  unfold newBitmap at h
  split_ifs at h
  cases h
  simp [Bitmap.size]

theorem mem_indexesInRange (b : Bitmap) (set : Bool) («from» «to» i : ℕ) :
    i ∈ b.indexesInRange set «from» «to» ↔ «from» ≤ i ∧ i ≤ «to» ∧ i < b.size ∧ b.check i = set := by
  simp only [indexesInRange, List.mem_filter, List.mem_range, Bool.and_eq_true, decide_eq_true_eq,
    beq_iff_eq]
  constructor
  · rintro ⟨hhi, hlo, hset⟩
    exact ⟨hlo, by omega, by omega, hset⟩
  · rintro ⟨hlo, hto, hsize, hset⟩
    exact ⟨by omega, hlo, hset⟩

theorem mem_indexesInRangeFiltered (b : Bitmap) (set : Bool) («from» «to» : ℕ) (filter : List ℤ)
    (i : ℕ) :
    i ∈ b.indexesInRangeFiltered set «from» «to» filter ↔
      «from» ≤ i ∧ i ≤ «to» ∧ i < b.size ∧ b.check i = set ∧ (i : ℤ) ∉ filter := by
  -- an empty filter excludes nothing, which is what its length test says
  have hfilter : (filter.length < 1 || !filter.contains (i : ℤ)) = true ↔ (i : ℤ) ∉ filter := by
    cases filter with
    | nil => simp
    | cons x xs => simp
  simp only [indexesInRangeFiltered, List.mem_filter, List.mem_range, Bool.and_eq_true,
    decide_eq_true_eq, beq_iff_eq, hfilter]
  constructor
  · rintro ⟨hhi, ⟨hlo, hset⟩, hnot⟩
    exact ⟨hlo, by omega, by omega, hset, hnot⟩
  · rintro ⟨hlo, hto, hsize, hset, hnot⟩
    exact ⟨by omega, ⟨hlo, hset⟩, hnot⟩

/-- Setting a bit clears none: a bit set before is set after. -/
theorem check_set_of_check {b : Bitmap} {i : ℕ} (h : b.check i = true) (j : ℕ) :
    (b.set j).check i = true := by
  have hi : i < b.size := by
    by_contra hge
    simp [check, List.getD_eq_getElem?_getD, List.getElem?_eq_none (by simpa [size] using hge)] at h
  by_cases hj : j < b.size
  · rw [set, check_write b hj]
    split <;> simp [h]
  · -- a write past the end changes nothing
    have hne : i ≠ j := by omega
    simpa [set, write, check, List.getD_eq_getElem?_getD, List.getElem?_set_ne (Ne.symm hne)]
      using h

/-- Setting bits in turn clears none. -/
theorem check_foldl_set_of_check {ι : Type} (f : ι → ℕ) {b : Bitmap} {i : ℕ}
    (h : b.check i = true) (l : List ι) :
    (l.foldl (fun b x ↦ b.set (f x)) b).check i = true := by
  induction l generalizing b with
  | nil => exact h
  | cons x l ih => exact ih (check_set_of_check h (f x))

end Bitmap

end Wander.Structs
