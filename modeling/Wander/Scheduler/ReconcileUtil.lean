import Wander.Structs.Alloc
import Wander.Structs.Bitmap
import Wander.Lib.GoMap

/-!
# Allocation name indexes

`allocNameIndex` of reconcile_util.go: the reconciler's record of which names `job.group[i]` of a
task group are in use. A bitmap holds the indexes in use and a map counts, for each index, the
allocations past the first that carry it. `bitmapFrom` builds both from a set of allocations;
`Next` and `NextCanaries` pick names for new placements and canaries, and `Highest` and
`UnsetIndex` give names back.

For every allocation set whose indexes fit the uint arithmetic of `bitmapFrom`, the index built
has `i` set exactly when an allocation has index `i`, and marks `i` a duplicate exactly when two
do (`newAllocNameIndex_counts`). The invariant `Counts` says this of the allocations walked so
far; `Counts.snoc` is one allocation of the walk and `Counts.append` the whole of it.

`UnsetIndex` is meant to give back one of the allocations counted at an index, but `num--`
decrements a copy of the count: an index carried by three or more allocations is never given back
(`unsetIndex_eq_self`, and `unsetIndex_keeps_duplicate` from three allocations named
`web.web[0]`). The last phase of `NextCanaries` names indexes from the count on without consulting
the existing canaries, so it can return the name of one (`nextCanaries_names_existing`); only
that phase can (`nextCanaries_existing_past_count`).
-/

set_option autoImplicit false
set_option relaxedAutoImplicit false

namespace Wander.Scheduler

open Wander.Lib Wander.Structs GoMap

/-- `allocSet`: allocations by ID. -/
abbrev AllocSet := GoMap String Allocation

/-- `allocSet.nameSet`, as the list of the names. -/
def AllocSet.nameSet (a : AllocSet) : List String := (values a).map Allocation.name

/-- The first loop of `bitmapFrom`: the highest index of the input. -/
def highestIndex (input : List Allocation) : ℕ :=
  input.foldl (fun max a ↦ if a.index > max then a.index else max) 0

/-- The size `bitmapFrom` gives its bitmap, in uint arithmetic: the larger of the highest index and
the minimum size, which is at least the number of allocations; a highest index on a byte boundary
is moved off it, 0 becomes 8, and the result is rounded up to whole bytes. -/
def bitmapSize (input : List Allocation) (minSize : ℕ) : ℕ :=
  let max := highestIndex input
  let minSize := if minSize < input.length then input.length else minSize
  let max := if max < minSize then minSize else if max % 8 = 0 then max + 1 else max
  let max := if max = 0 then 8 else max
  if max % 8 ≠ 0 then (max + 8 - max % 8) % 2 ^ 64 else max

/-- One allocation of the second loop of `bitmapFrom`: an index not yet set is set, and one already
set counts one more duplicate. -/
def hydrate : Bitmap × GoMap ℕ ℤ → Allocation → Bitmap × GoMap ℕ ℤ
  | (bitmap, duplicates), a =>
    if bitmap.check a.index then
      (bitmap, duplicates.insert a.index (duplicates.get a.index 0 + 1))
    else (bitmap.set a.index, duplicates)

/-- `bitmapFrom`; the error is the one `NewBitmap` returns, on which Go panics. Go walks the map
in a random order, this walks its entries in order. -/
def bitmapFrom (input : AllocSet) (minSize : ℕ) : Except String (Bitmap × GoMap ℕ ℤ) := do
  let bitmap ← Bitmap.newBitmap (bitmapSize (values input) minSize)
  return (values input).foldl hydrate (bitmap, ∅)

/-- `allocNameIndex`. -/
structure AllocNameIndex where
  job : String
  taskGroup : String
  count : ℤ
  b : Bitmap
  duplicates : GoMap ℕ ℤ
deriving DecidableEq

/-- `newAllocNameIndex`. -/
def newAllocNameIndex (job taskGroup : String) (count : ℤ) (input : AllocSet) :
    Except String AllocNameIndex := do
  let (bitMap, duplicates) ← bitmapFrom input (uintOfInt count)
  return { job, taskGroup, count, b := bitMap, duplicates }

/-- The state of the name-picking loops of `Next` and `NextCanaries`: the names picked, the bitmap,
the `remainder` still to pick, and whether the function has returned. -/
structure Picking where
  next : List String
  b : Bitmap
  remainder : ℕ
  done : Bool := false

/-- One loop of `Next` or `NextCanaries` over candidate indexes: an index whose name is not `used`
is named and set, and the function returns once `n` names are picked. `remainder` is uint
arithmetic: with `n = 0` it wraps and the loop runs on. -/
def pick (name : ℕ → String) (used : String → Bool) (n : ℕ) (p : Picking) : List ℕ → Picking
  | [] => p
  | idx :: idxs =>
    if used (name idx) then pick name used n p idxs
    else
      let next := p.next ++ [name idx]
      let remainder := uintOfInt ((n : ℤ) - next.length)
      let p := { next, b := p.b.set idx, remainder }
      if remainder = 0 then { p with done := true } else pick name used n p idxs

namespace AllocNameIndex

/-- `allocNameIndex.Highest`: from the top of the bitmap down, the first `n` indexes set are unset
and their names returned. -/
def highest (a : AllocNameIndex) (n : ℕ) : List String × AllocNameIndex :=
  let step : List String × Bitmap → ℕ → List String × Bitmap := fun (h, b) idx ↦
    if h.length < n ∧ b.check idx then (h ++ [allocName a.job a.taskGroup idx], b.unset idx)
    else (h, b)
  let (h, b) := (List.range a.b.size).reverse.foldl step ([], a.b)
  (h, { a with b })

/-- `allocNameIndex.IsDuplicate`. -/
def isDuplicate (a : AllocNameIndex) (idx : ℕ) : Bool :=
  match a.duplicates.lookup idx with
  | some val => decide (0 < val)
  | none => false

/-- `allocNameIndex.UnsetIndex`. Go's `num--` decrements its local copy of the count, so the map
only changes when the count was 1, and then loses the entry. -/
def unsetIndex (a : AllocNameIndex) (idx : ℕ) : AllocNameIndex :=
  match a.duplicates.lookup idx with
  | some num => if num - 1 = 0 then { a with duplicates := a.duplicates.erase idx } else a
  | none => { a with b := a.b.unset idx }

/-- `allocNameIndex.Next`. -/
def next (a : AllocNameIndex) (n : ℕ) : List String × AllocNameIndex :=
  let name := allocName a.job a.taskGroup
  let free := a.b.indexesInRange false 0 (uintOfInt (uintOfInt a.count - 1))
  let p := pick name (fun _ ↦ false) n { next := [], b := a.b, remainder := n } free
  if p.done then (p.next, { a with b := p.b })
  else
    -- the free set is exhausted: the indexes from 0 on are named again
    let overlapping := List.range p.remainder
    (p.next ++ overlapping.map name, { a with b := overlapping.foldl Bitmap.set p.b })

/-- `allocNameIndex.NextCanaries`; the error is a panic of `bitmapFrom`. -/
def nextCanaries (a : AllocNameIndex) (n : ℕ) (existing destructive : AllocSet) :
    Except String (List String × AllocNameIndex) := do
  let existingNames := existing.nameSet
  let used := fun name ↦ decide (name ∈ existingNames)
  let name := allocName a.job a.taskGroup
  let last := uintOfInt (uintOfInt a.count - 1)
  -- first the indexes of the allocations being destructively updated, then the free ones
  let (dmap, _) ← bitmapFrom destructive (uintOfInt a.count)
  let p := pick name used n { next := [], b := a.b, remainder := n }
    (dmap.indexesInRange true 0 last)
  if p.done then return (p.next, { a with b := p.b })
  let p := pick name used n p (p.b.indexesInRange false 0 last)
  if p.done then return (p.next, { a with b := p.b })
  -- last the indexes from the count on, with no look at the names in use
  let c := uintOfInt a.count
  let overlapping := (List.range (uintOfInt (c + p.remainder) - c)).map (c + ·)
  return (p.next ++ overlapping.map name, { a with b := p.b })

end AllocNameIndex

/-! ### The index built by `bitmapFrom` -/

/-- The number of allocations of `l` with index `i`. -/
def indexCount (l : List Allocation) (i : ℕ) : ℕ := l.countP fun a ↦ a.index == i

theorem indexCount_append_singleton (l : List Allocation) (a : Allocation) (i : ℕ) :
    indexCount (l ++ [a]) i = indexCount l i + if a.index = i then 1 else 0 := by
  simp [indexCount, List.countP_append]

/-- The bitmap and duplicates map of `acc` record the allocations `l`: an index is set when one
of them has it, and the map counts those past the first. -/
structure Counts (l : List Allocation) (acc : Bitmap × GoMap ℕ ℤ) : Prop where
  check_eq : ∀ i, acc.1.check i = decide (0 < indexCount l i)
  lookup_eq : ∀ i, acc.2.lookup i =
    if 2 ≤ indexCount l i then some ((indexCount l i : ℤ) - 1) else none

theorem Counts.nil {b : Bitmap} (hb : ∀ i, b.check i = false) : Counts [] (b, ∅) where
  check_eq i := by simp [hb, indexCount]
  lookup_eq i := by simp [indexCount]

theorem size_hydrate (acc : Bitmap × GoMap ℕ ℤ) (a : Allocation) :
    (hydrate acc a).1.size = acc.1.size := by
  obtain ⟨b, d⟩ := acc
  simp only [hydrate]
  split <;> simp [Bitmap.set]

/-- One allocation of `bitmapFrom`'s walk keeps the record, when its index lies in the bitmap. -/
theorem Counts.snoc {l : List Allocation} {acc : Bitmap × GoMap ℕ ℤ} (h : Counts l acc)
    {a : Allocation} (ha : a.index < acc.1.size) : Counts (l ++ [a]) (hydrate acc a) := by
  obtain ⟨b, d⟩ := acc
  have hc := h.check_eq a.index
  have hl := h.lookup_eq a.index
  dsimp only at hc hl ha
  simp only [hydrate]
  by_cases hset : b.check a.index
  · -- an index already in use: the bitmap stays and the count of duplicates grows
    have hpos : 0 < indexCount l a.index := by simpa [hset] using hc
    rw [if_pos hset]
    constructor
    · intro i
      rw [indexCount_append_singleton, h.check_eq i]
      by_cases hi : a.index = i
      · subst hi
        simp [hpos]
      · simp [hi]
    · intro i
      rw [indexCount_append_singleton]
      by_cases hi : a.index = i
      · subst hi
        simp only [AList.lookup_insert, GoMap.get, hl]
        by_cases h2 : 2 ≤ indexCount l a.index
        · simp [h2]
          omega
        · simp [h2]
          omega
      · rw [AList.lookup_insert_ne (Ne.symm hi), h.lookup_eq i]
        simp [hi]
  · -- a new index: it is set, and the map has no entry for it yet
    have hzero : indexCount l a.index = 0 := by simpa [hset] using hc
    rw [if_neg hset]
    constructor
    · intro i
      rw [indexCount_append_singleton]
      simp only [Bitmap.set, Bitmap.check_write b ha, h.check_eq i]
      by_cases hi : a.index = i
      · subst hi
        simp
      · simp [hi, Ne.symm hi]
    · intro i
      rw [indexCount_append_singleton, h.lookup_eq i]
      by_cases hi : a.index = i
      · subst hi
        simp [hzero]
      · simp [hi]

/-- The whole walk of `bitmapFrom` over allocations whose indexes lie in the bitmap. -/
theorem Counts.append {l : List Allocation} {acc : Bitmap × GoMap ℕ ℤ} (h : Counts l acc)
    (rest : List Allocation) (hrest : ∀ a ∈ rest, a.index < acc.1.size) :
    Counts (l ++ rest) (rest.foldl hydrate acc) := by
  induction rest generalizing l acc with
  | nil => simpa using h
  | cons a rest ih =>
    rw [List.foldl_cons, ← List.singleton_append, ← List.append_assoc]
    refine ih (h.snoc (hrest a List.mem_cons_self)) fun x hx ↦ ?_
    rw [size_hydrate]
    exact hrest x (List.mem_cons_of_mem a hx)

/-- The running maximum of `bitmapFrom`'s first loop is at least its start and every index, and is
the start or one of the indexes. -/
theorem foldl_highest (l : List Allocation) (m : ℕ) :
    let r := l.foldl (fun max a ↦ if a.index > max then a.index else max) m
    m ≤ r ∧ (∀ a ∈ l, a.index ≤ r) ∧ (r = m ∨ ∃ a ∈ l, r = a.index) := by
  induction l generalizing m with
  | nil => simp
  | cons a l ih =>
    simp only [List.foldl_cons, List.mem_cons, forall_eq_or_imp, exists_eq_or_imp]
    by_cases hgt : a.index > m
    · -- the index is the new maximum
      obtain ⟨hle, hall, hr⟩ := ih a.index
      simp only [hgt, ↓reduceIte]
      refine ⟨by omega, ⟨hle, hall⟩, ?_⟩
      rcases hr with hr | hr
      · exact Or.inr (Or.inl hr)
      · exact Or.inr (Or.inr hr)
    · obtain ⟨hle, hall, hr⟩ := ih m
      simp only [hgt, ↓reduceIte]
      refine ⟨hle, ⟨by omega, hall⟩, ?_⟩
      rcases hr with hr | hr
      · exact Or.inl hr
      · exact Or.inr (Or.inr hr)

theorem highestIndex_lt {input : List Allocation} {bound : ℕ} (hpos : 0 < bound)
    (hindex : ∀ a ∈ input, a.index < bound) : highestIndex input < bound := by
  rcases (foldl_highest input 0).2.2 with h | ⟨a, ha, h⟩
  · rw [highestIndex, h]
    exact hpos
  · rw [highestIndex, h]
    exact hindex a ha

/-- Below the bound where its uint arithmetic wraps, `bitmapFrom` sizes its bitmap as a positive
whole number of bytes above every index. -/
theorem bitmapSize_spec {input : List Allocation} {minSize : ℕ}
    (hindex : ∀ a ∈ input, a.index < 2 ^ 64 - 8) (hlen : input.length < 2 ^ 64 - 8)
    (hmin : minSize < 2 ^ 64 - 8) :
    0 < bitmapSize input minSize ∧ bitmapSize input minSize % 8 = 0 ∧
      ∀ a ∈ input, a.index < bitmapSize input minSize := by
  have hhigh := highestIndex_lt (by decide) hindex
  have hle : ∀ a ∈ input, a.index ≤ highestIndex input := (foldl_highest input 0).2.1
  unfold bitmapSize
  dsimp only
  -- each branch of the size arithmetic, none of which wraps below the bound
  refine ⟨?_, ?_, fun a ha ↦ ?_⟩
  · split_ifs <;> omega
  · split_ifs <;> omega
  · have := hle a ha
    -- split_ifs leaves the branch `max + 1 = 0` with a hypothesis False
    split_ifs <;> first | omega | exact ‹False›.elim

/-- For every allocation set whose indexes, size and count fit the uint arithmetic of
`bitmapFrom`, `newAllocNameIndex` builds an index that has `i` set exactly when an allocation has
index `i`, and marks `i` a duplicate exactly when two do. -/
theorem newAllocNameIndex_counts (job taskGroup : String) (count : ℤ) (input : AllocSet)
    (hindex : ∀ a ∈ values input, a.index < 2 ^ 64 - 8)
    (hlen : (values input).length < 2 ^ 64 - 8) (hcount : uintOfInt count < 2 ^ 64 - 8) :
    ∃ idx, newAllocNameIndex job taskGroup count input = .ok idx ∧
      ∀ i, (idx.b.check i = true ↔ 1 ≤ indexCount (values input) i) ∧
        (idx.isDuplicate i = true ↔ 2 ≤ indexCount (values input) i) := by
  obtain ⟨hpos, haligned, hlt⟩ := bitmapSize_spec hindex hlen hcount
  obtain ⟨bitmap, hb⟩ := Bitmap.newBitmap_ok hpos haligned
  have hcounts : Counts (values input) ((values input).foldl hydrate (bitmap, ∅)) := by
    have hsize : ∀ a ∈ values input, a.index < bitmap.size := by
      rw [Bitmap.size_newBitmap hb]
      exact hlt
    have h := (Counts.nil (Bitmap.check_newBitmap hb)).append (values input) hsize
    rwa [List.nil_append] at h
  refine ⟨_, by simp only [newAllocNameIndex, bitmapFrom, hb]; rfl, fun i ↦ ⟨?_, ?_⟩⟩
  · rw [hcounts.check_eq i]
    simp only [decide_eq_true_eq]
    omega
  · unfold AllocNameIndex.isDuplicate
    dsimp only
    rw [hcounts.lookup_eq i]
    split_ifs with h2
    · simp only [decide_eq_true_eq]
      omega
    · simp only [false_iff]
      omega

/-- An allocation of group `web` of job `web` named `name`. -/
def webAlloc (id name : String) : Allocation :=
  { id := id
    name := name
    jobID := "web"
    taskGroup := "web" }

/-- Three allocations named `web.web[0]`. -/
def tripleSet : AllocSet :=
  (((∅ : AllocSet).insert "a0" (webAlloc "a0" "web.web[0]")).insert "a1"
    (webAlloc "a1" "web.web[0]")).insert "a2" (webAlloc "a2" "web.web[0]")

theorem newAllocNameIndex_counts_tripleSet :
    ∃ idx, newAllocNameIndex "web" "web" 1 tripleSet = .ok idx ∧
      ∀ i, (idx.b.check i = true ↔ 1 ≤ indexCount (values tripleSet) i) ∧
        (idx.isDuplicate i = true ↔ 2 ≤ indexCount (values tripleSet) i) :=
  newAllocNameIndex_counts "web" "web" 1 tripleSet (by decide) (by decide) (by decide)

/-! ### Giving names back -/

/-- `UnsetIndex` leaves the index as it is when the count of duplicates it finds is not 1: the
decrement never reaches the map. -/
theorem unsetIndex_eq_self {a : AllocNameIndex} {idx : ℕ} {num : ℤ}
    (h : a.duplicates.lookup idx = some num) (hnum : num ≠ 1) : a.unsetIndex idx = a := by
  have hdec : num - 1 ≠ 0 := by omega
  simp [AllocNameIndex.unsetIndex, h, hdec]

/-- Three allocations share index 0, and the index built from them counts two duplicates there.
No number of calls to `UnsetIndex(0)`, three among them, gives index 0 back: it stays set and a
duplicate. -/
theorem unsetIndex_keeps_duplicate :
    indexCount (values tripleSet) 0 = 3 ∧
      ∃ idx, newAllocNameIndex "web" "web" 1 tripleSet = .ok idx ∧
        ∀ k, ((fun a ↦ a.unsetIndex 0)^[k] idx).b.check 0 = true ∧
          ((fun a ↦ a.unsetIndex 0)^[k] idx).isDuplicate 0 = true := by
  refine ⟨by decide, _, rfl, fun k ↦ ?_⟩
  rw [Function.iterate_fixed (@unsetIndex_eq_self _ 0 2 rfl (by decide)) k]
  exact ⟨by decide, by decide⟩

/-! ### Canary names -/

/-- Every name `pick` adds is one that `used` rejects not. -/
theorem pick_next_unused (name : ℕ → String) (used : String → Bool) (n : ℕ) (idxs : List ℕ)
    {p : Picking} (hp : ∀ y ∈ p.next, used y = false) :
    ∀ y ∈ (pick name used n p idxs).next, used y = false := by
  induction idxs generalizing p with
  | nil => exact hp
  | cons idx idxs ih =>
    simp only [pick]
    split
    · exact ih hp
    · rename_i hfree
      -- the names so far with the one picked here
      have hnext : ∀ y ∈ p.next ++ [name idx], used y = false := by
        intro y hy
        rcases List.mem_append.mp hy with hy | hy
        · exact hp y hy
        · rw [List.mem_singleton.mp hy]
          simpa using hfree
      split
      · exact hnext
      · exact ih hnext

/-- Only the last phase of `NextCanaries` can give the name of an existing allocation: the two
picking phases skip the names in use, so every returned name an existing allocation has is the
name of an index at or past the count. -/
theorem nextCanaries_existing_past_count {a : AllocNameIndex} {n : ℕ}
    {existing destructive : AllocSet} {r : List String × AllocNameIndex}
    (h : a.nextCanaries n existing destructive = .ok r) {x : String} (hx : x ∈ r.1)
    (hex : x ∈ existing.nameSet) :
    ∃ i, uintOfInt a.count ≤ i ∧ x = allocName a.job a.taskGroup i := by
  have hused : decide (x ∈ existing.nameSet) = true := by simpa using hex
  have hnil : ∀ y ∈ ([] : List String), decide (y ∈ existing.nameSet) = false := by simp
  simp only [AllocNameIndex.nextCanaries, Except.bind_eq_ok] at h
  obtain ⟨⟨dmap, dups⟩, -, h⟩ := h
  dsimp only at h
  split at h
  · -- returned from the destructive indexes
    rw [Except.pure_eq_ok] at h
    subst h
    have := pick_next_unused _ _ _ _ hnil x hx
    simp_all
  · split at h
    · -- returned from the free indexes
      rw [Except.pure_eq_ok] at h
      subst h
      have := pick_next_unused _ _ _ _ (pick_next_unused _ _ _ _ hnil) x hx
      simp_all
    · -- the last phase: a picked name, or one past the count
      rw [Except.pure_eq_ok] at h
      subst h
      rcases List.mem_append.mp hx with hx | hx
      · have := pick_next_unused _ _ _ _ (pick_next_unused _ _ _ _ hnil) x hx
        simp_all
      · obtain ⟨i, hi, rfl⟩ := List.mem_map.mp hx
        obtain ⟨k, -, rfl⟩ := List.mem_map.mp hi
        exact ⟨_, Nat.le_add_right _ k, rfl⟩

/-- The old allocation `web.web[0]` of a group of count 1. -/
def soloSet : AllocSet := (∅ : AllocSet).insert "a0" (webAlloc "a0" "web.web[0]")

/-- A canary named `web.web[1]`, as a first round of three canaries for the group names its
second. -/
def canarySet : AllocSet := (∅ : AllocSet).insert "c1" (webAlloc "c1" "web.web[1]")

/-- A deployment of three canaries to a group of count 1 with the canary `web.web[1]` placed and
`web.web[0]` to be updated destructively asks for two more: index 0 is picked from the destructive
update and index 1 from the count on, the name of the existing canary. -/
theorem nextCanaries_names_existing :
    ∃ idx, newAllocNameIndex "web" "web" 1 soloSet = .ok idx ∧
      idx.nextCanaries 2 canarySet soloSet = .ok (["web.web[0]", "web.web[1]"], idx) ∧
      "web.web[1]" ∈ canarySet.nameSet := by
  refine ⟨_, rfl, by decide, by decide⟩

theorem nextCanaries_existing_past_count_soloSet :
    ∃ idx r, newAllocNameIndex "web" "web" 1 soloSet = .ok idx ∧
      idx.nextCanaries 2 canarySet soloSet = .ok r ∧
      ∃ i, uintOfInt idx.count ≤ i ∧ "web.web[1]" = allocName idx.job idx.taskGroup i := by
  refine ⟨_, _, rfl, rfl, ?_⟩
  exact @nextCanaries_existing_past_count _ 2 canarySet soloSet _ rfl "web.web[1]" (by decide)
    (by decide)

end Wander.Scheduler
