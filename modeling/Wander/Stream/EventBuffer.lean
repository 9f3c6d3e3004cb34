import Wander.Lib.GoInt
import Mathlib.Data.List.GetD
import Mathlib.Logic.Relation

/-!
# `nomad/stream`: the event buffer

The event buffer is a singly linked list of batches with a head and a tail, a size counter and a
maximum size. `appendItem` links a new item after the tail and advances the head while the
counter is above the maximum; `advanceHead` closes the dropped item's `droppedCh`. Readers hold an
item and call `Next`, which waits for the item's `nextCh` and then returns its next item, or an
error if the item was dropped in the meantime.

Items live in an arena numbered in the order they were made, and pointers are arena indices.
After the batches `bs` were appended to `newEventBuffer maxSize` the buffer is `appended maxSize
bs` (`appendAll_eq`): the item `j + 1` holds `bs[j]`, the head is `min k maxSize` items before
the tail, and the counter is `min k maxSize`. The head itself is a batch once the first sentinel
is dropped, so the list from the head holds one batch more than `Len()` says
(`bufferedBatches_appended`). `StartAtClosest` returns the first item from the head whose index
is at least the requested one, or the tail (`startAtClosest_appended`). A reader that holds any
item and calls `Next` while the writer appends gets the items after it one by one, with none
skipped, until `Next` says its item was dropped (`reachable_readerInv`). `appendAll_spec` puts
these together for the buffer the appends build.

An append is one step: a reader reads one flag or pointer at a time, and each of these changes at
one point of `appendItem`. The reader's own context and `forceClose` are left out.
-/

set_option autoImplicit false
set_option relaxedAutoImplicit false

namespace Wander.Stream

open Wander.Lib.GoInt

/-- `structs.Events`: the events of one raft index. -/
structure Events (α : Type) where
  index : ℕ
  events : List α
deriving DecidableEq, Repr

/-- `bufferItem` with its `bufferLink`, less `createdAt`. `next` is the arena index of the next
item; `nextClosed` and `dropped` say whether `nextCh` and `droppedCh` are closed. -/
@[ext] structure BufferItem (α : Type) where
  events : Events α
  err : Option String := none
  next : Option ℕ := none
  nextClosed : Bool := false
  dropped : Bool := false
deriving DecidableEq, Repr

variable {α : Type}

/-- `newBufferItem`. -/
def newBufferItem (events : Events α) : BufferItem α := { events }

/-- `newSentinelItem`. -/
def newSentinelItem : BufferItem α := newBufferItem ⟨0, []⟩

/-- `eventBuffer`. Its items live in an arena, `count` of them so far, numbered in the order they
were made; `head` and `tail` are arena indices. -/
@[ext] structure EventBuffer (α : Type) where
  items : ℕ → BufferItem α
  count : ℕ
  head : ℕ
  tail : ℕ
  size : ℕ
  maxSize : ℕ

namespace EventBuffer

/-- Make a new item: it is the one numbered `b.count`. -/
def push (b : EventBuffer α) (item : BufferItem α) : EventBuffer α :=
  { b with items := Function.update b.items b.count item, count := b.count + 1 }

/-- Change the item numbered `i`. -/
def modify (b : EventBuffer α) (i : ℕ) (f : BufferItem α → BufferItem α) : EventBuffer α :=
  { b with items := Function.update b.items i (f (b.items i)) }

/-- `newEventBuffer`: the buffer holds one sentinel item, which is head and tail. The items the
arena has not made yet are never read. -/
def newEventBuffer (size : ℕ) : EventBuffer α :=
  { items := fun _ ↦ newBufferItem ⟨0, []⟩, count := 1, head := 0, tail := 0, size := 0
    maxSize := size }

/-- The end of `advanceHead` once its next item is known: close the old head's `droppedCh` and
store the next item to the head, and to the tail if the old head was the tail. -/
def dropHead (b : EventBuffer α) (next : ℕ) : EventBuffer α :=
  let old := b.head
  let moved : EventBuffer α :=
    { b.modify old (fun it ↦ { it with dropped := true }) with head := next }
  let moved : EventBuffer α := if old = moved.tail then { moved with tail := next } else moved
  -- only decrement if there are more than sentinel values
  if 0 < moved.size then { moved with size := moved.size - 1 } else moved

/-- `advanceHead`. -/
def advanceHead (b : EventBuffer α) : EventBuffer α :=
  match (b.items b.head).next with
  | some next => b.dropHead next
  -- if the next item is nil replace it with a sentinel value
  | none => (b.push newSentinelItem).dropHead b.count

/-- The loop of `appendItem` that advances the head while the size is above `maxSize`, with
`fuel` turns. Each turn lowers the size, so `size` turns are enough. -/
def advanceWhileOver : ℕ → EventBuffer α → EventBuffer α
  | 0, b => b
  | fuel + 1, b => if b.maxSize < b.size then advanceWhileOver fuel b.advanceHead else b

/-- The start of `appendItem`: store the new item as the next of the old tail, update the tail
to it and increment the size. -/
def linkTail (b : EventBuffer α) (item : BufferItem α) : EventBuffer α :=
  { (b.push item).modify b.tail (fun it ↦ { it with next := some b.count }) with
    tail := b.count, size := b.size + 1 }

/-- `appendItem`: link the item after the tail, advance the head until the size is allowed, then
notify the waiters on the old tail by closing its `nextCh`. -/
def appendItem (b : EventBuffer α) (item : BufferItem α) : EventBuffer α :=
  let grown := b.linkTail item
  (advanceWhileOver grown.size grown).modify b.tail fun it ↦ { it with nextClosed := true }

/-- `Append`. -/
def append (b : EventBuffer α) (events : Events α) : EventBuffer α :=
  b.appendItem (newBufferItem events)

/-- `Len`. -/
def len (b : EventBuffer α) : ℕ := b.size

/-- `NextNoBlock` of the item `i`. -/
def nextNoBlock (b : EventBuffer α) (i : ℕ) : Option ℕ := (b.items i).next

/-- The offsets of `StartAtClosest`: `int(a) - int(b)` of two indices. -/
def offset (a b : ℕ) : ℤ := int64 (int64 a - int64 b)

/-- The loop of `StartAtClosest` from the item `prev`, with `fuel` turns; the source loops until
it returns, which `count` turns reach on every buffer made by appends. -/
def startAtClosestLoop (b : EventBuffer α) (index : ℕ) : ℕ → ℕ → ℕ × ℤ
  | 0, prev => (prev, offset index (b.items prev).events.index)
  | fuel + 1, prev =>
    match b.nextNoBlock prev with
    | none => (prev, offset index (b.items prev).events.index)
    | some item =>
      if index < (b.items item).events.index then
        (item, offset (b.items item).events.index index)
      else if index = (b.items item).events.index then (item, 0)
      else startAtClosestLoop b index fuel item

/-- `StartAtClosest`: the item to start from and its offset from the requested index. -/
def startAtClosest (b : EventBuffer α) (index : ℕ) : ℕ × ℤ :=
  let item := b.head
  if index < (b.items item).events.index then (item, offset (b.items item).events.index index)
  else if (b.items item).events.index = index then (item, 0)
  else startAtClosestLoop b index b.count item

/-- The first `select` of `Next` on the item `i`: it passes once the item's `nextCh` is closed. -/
def nextReady (b : EventBuffer α) (i : ℕ) : Bool := (b.items i).nextClosed

/-- `Next` on the item `i` once its first `select` has passed. -/
def nextAfterReady (b : EventBuffer α) (i : ℕ) : Except String ℕ :=
  -- the reader is too slow and the buffer has discarded the item
  if (b.items i).dropped then .error "event dropped from buffer"
  else
    match (b.items i).next with
    | none => .error "invalid next item"
    | some next =>
      match (b.items next).err with
      | some err => .error err
      | none => .ok next

/-- The items reachable from the item `i` through next links, following `fuel` links at most. -/
def linkedFrom (b : EventBuffer α) : ℕ → ℕ → List ℕ
  | 0, i => [i]
  | fuel + 1, i =>
    match b.nextNoBlock i with
    | none => [i]
    | some next => i :: b.linkedFrom fuel next

/-- The batches of the items reachable from the head, less item 0, the sentinel that
`newEventBuffer` made. -/
def bufferedBatches (b : EventBuffer α) : List (Events α) :=
  ((b.linkedFrom b.count b.head).filter (· ≠ 0)).map fun j ↦ (b.items j).events

/-- The batches appended one by one to a new buffer. -/
def appendAll (maxSize : ℕ) (bs : List (Events α)) : EventBuffer α :=
  bs.foldl append (newEventBuffer maxSize)

/-! ### The field lemmas -/

section Fields

variable (b : EventBuffer α)

@[simp] theorem items_push (item : BufferItem α) :
    (b.push item).items = Function.update b.items b.count item := rfl
@[simp] theorem count_push (item : BufferItem α) : (b.push item).count = b.count + 1 := rfl
@[simp] theorem head_push (item : BufferItem α) : (b.push item).head = b.head := rfl
@[simp] theorem tail_push (item : BufferItem α) : (b.push item).tail = b.tail := rfl
@[simp] theorem size_push (item : BufferItem α) : (b.push item).size = b.size := rfl
@[simp] theorem maxSize_push (item : BufferItem α) : (b.push item).maxSize = b.maxSize := rfl

@[simp] theorem items_modify (i : ℕ) (f : BufferItem α → BufferItem α) :
    (b.modify i f).items = Function.update b.items i (f (b.items i)) := rfl
@[simp] theorem count_modify (i : ℕ) (f : BufferItem α → BufferItem α) :
    (b.modify i f).count = b.count := rfl
@[simp] theorem head_modify (i : ℕ) (f : BufferItem α → BufferItem α) :
    (b.modify i f).head = b.head := rfl
@[simp] theorem tail_modify (i : ℕ) (f : BufferItem α → BufferItem α) :
    (b.modify i f).tail = b.tail := rfl
@[simp] theorem size_modify (i : ℕ) (f : BufferItem α → BufferItem α) :
    (b.modify i f).size = b.size := rfl
@[simp] theorem maxSize_modify (i : ℕ) (f : BufferItem α → BufferItem α) :
    (b.modify i f).maxSize = b.maxSize := rfl

@[simp] theorem items_dropHead (next : ℕ) :
    (b.dropHead next).items =
      Function.update b.items b.head { b.items b.head with dropped := true } := by
  unfold dropHead; dsimp only; split_ifs <;> rfl
@[simp] theorem count_dropHead (next : ℕ) : (b.dropHead next).count = b.count := by
  unfold dropHead; dsimp only; split_ifs <;> rfl
@[simp] theorem head_dropHead (next : ℕ) : (b.dropHead next).head = next := by
  unfold dropHead; dsimp only; split_ifs <;> rfl
@[simp] theorem tail_dropHead (next : ℕ) :
    (b.dropHead next).tail = if b.head = b.tail then next else b.tail := by
  unfold dropHead; dsimp only; split_ifs <;> simp_all
@[simp] theorem size_dropHead (next : ℕ) : (b.dropHead next).size = b.size - 1 := by
  unfold dropHead; dsimp only; split_ifs <;> simp_all
@[simp] theorem maxSize_dropHead (next : ℕ) : (b.dropHead next).maxSize = b.maxSize := by
  unfold dropHead; dsimp only; split_ifs <;> rfl

@[simp] theorem items_linkTail (item : BufferItem α) :
    (b.linkTail item).items =
      Function.update (Function.update b.items b.count item) b.tail
        { Function.update b.items b.count item b.tail with next := some b.count } := rfl
@[simp] theorem count_linkTail (item : BufferItem α) : (b.linkTail item).count = b.count + 1 := rfl
@[simp] theorem head_linkTail (item : BufferItem α) : (b.linkTail item).head = b.head := rfl
@[simp] theorem tail_linkTail (item : BufferItem α) : (b.linkTail item).tail = b.count := rfl
@[simp] theorem size_linkTail (item : BufferItem α) : (b.linkTail item).size = b.size + 1 := rfl
@[simp] theorem maxSize_linkTail (item : BufferItem α) :
    (b.linkTail item).maxSize = b.maxSize := rfl

end Fields

theorem advanceWhileOver_of_le {b : EventBuffer α} (h : b.size ≤ b.maxSize) (fuel : ℕ) :
    advanceWhileOver fuel b = b := by
  cases fuel with
  | zero => rfl
  | succ fuel => simp [advanceWhileOver, Nat.not_lt.mpr h]

theorem advanceWhileOver_of_lt {b : EventBuffer α} (h : b.maxSize < b.size) (fuel : ℕ) :
    advanceWhileOver (fuel + 1) b = advanceWhileOver fuel b.advanceHead := by
  simp [advanceWhileOver, h]

theorem advanceHead_of_next {b : EventBuffer α} {next : ℕ}
    (hnext : (b.items b.head).next = some next) : b.advanceHead = b.dropHead next := by
  simp [advanceHead, hnext]

/-! ### The buffer after appends -/

/-- The batch of the item `j` after the batches `bs`: item 0 is the first sentinel. -/
def itemEvents (bs : List (Events α)) (j : ℕ) : Events α := (⟨0, []⟩ :: bs).getD j ⟨0, []⟩

/-- The buffer after the batches `bs` were appended to `newEventBuffer maxSize` (`appendAll_eq`).
With `k` batches, each item before the tail `k` links to the next and has its `nextCh` closed;
the head is `min k maxSize` items before the tail, the items before it are dropped, and the size
is `min k maxSize`. -/
def appended (maxSize : ℕ) (bs : List (Events α)) : EventBuffer α where
  items j :=
    { events := itemEvents bs j
      next := if j < bs.length then some (j + 1) else none
      nextClosed := decide (j < bs.length)
      dropped := decide (j < bs.length - min bs.length maxSize) }
  count := bs.length + 1
  head := bs.length - min bs.length maxSize
  tail := bs.length
  size := min bs.length maxSize
  maxSize := maxSize

theorem itemEvents_append (bs : List (Events α)) (e : Events α) (j : ℕ) :
    itemEvents (bs ++ [e]) j = if j = bs.length + 1 then e else itemEvents bs j := by
  unfold itemEvents
  cases j with
  | zero => simp
  | succ j =>
    simp only [List.getD_cons_succ, Nat.add_right_cancel_iff]
    rcases lt_trichotomy j bs.length with hlt | rfl | hgt
    · rw [List.getD_append _ _ _ _ hlt, if_neg hlt.ne]
    · simp
    · rw [if_neg hgt.ne', List.getD_eq_default _ _ (by simp; omega),
        List.getD_eq_default _ _ hgt.le]

theorem newEventBuffer_eq (maxSize : ℕ) :
    (newEventBuffer maxSize : EventBuffer α) = appended maxSize [] := by
  ext j <;> simp [newEventBuffer, appended, newBufferItem, itemEvents]

/-- The step lemma: one append to the buffer after `bs` gives the buffer after `bs ++ [e]`. -/
theorem append_appended (maxSize : ℕ) (bs : List (Events α)) (e : Events α) :
    (appended maxSize bs).append e = appended maxSize (bs ++ [e]) := by
  unfold append appendItem
  dsimp only
  by_cases hroom : bs.length < maxSize
  · -- the new batch fits: the loop does not turn
    have hmin : min bs.length maxSize = bs.length := min_eq_left hroom.le
    have hmin' : min (bs.length + 1) maxSize = bs.length + 1 := min_eq_left hroom
    rw [advanceWhileOver_of_le (by simp [appended, hmin]; omega)]
    -- the items: the new tail, the old tail and the rest
    ext j <;> simp [appended, Function.update_apply, itemEvents_append, newBufferItem, hmin, hmin']
    all_goals split_ifs <;> simp_all <;> omega
  · -- the buffer is full: the loop drops the head once
    have hmin : min bs.length maxSize = maxSize := min_eq_right (Nat.not_lt.mp hroom)
    have hmin' : min (bs.length + 1) maxSize = maxSize := min_eq_right (by omega)
    -- the head links to the next item, also when it is the old tail
    have hnext : (((appended maxSize bs).linkTail (newBufferItem e)).items
        ((appended maxSize bs).linkTail (newBufferItem e)).head).next =
          some (bs.length - maxSize + 1) := by
      have hhead : (appended maxSize bs : EventBuffer α).head = bs.length - maxSize := by
        simp [appended, hmin]
      have hcount : bs.length - maxSize ≠ (appended maxSize bs : EventBuffer α).count := by
        simp [appended]; omega
      rw [head_linkTail, hhead, items_linkTail, Function.update_apply]
      by_cases htail : bs.length - maxSize = (appended maxSize bs : EventBuffer α).tail
      · rw [if_pos htail]
        simp [appended] at htail
        simp [htail, appended]
      · rw [if_neg htail, Function.update_of_ne hcount]
        simp [appended] at htail ⊢
        omega
    rw [size_linkTail, advanceWhileOver_of_lt (by simp [appended, hmin]), advanceHead_of_next hnext,
      advanceWhileOver_of_le (by simp [appended, hmin])]
    have hcount : bs.length - maxSize ≠ bs.length + 1 := by omega
    -- the dropped head is the old tail exactly when the buffer holds no batch
    rcases Nat.eq_zero_or_pos maxSize with hzero | hpos
    · subst hzero
      ext j <;> simp [appended, Function.update_apply, itemEvents_append, newBufferItem]
      all_goals split_ifs <;> simp_all <;> omega
    · have hhead : bs.length - maxSize < bs.length := by omega
      have hmoved : bs.length + 1 - maxSize = bs.length - maxSize + 1 := by omega
      ext j <;> simp [appended, Function.update_apply, itemEvents_append, newBufferItem, hmin,
        hmin', hcount, hhead.ne, hhead.ne', hmoved]
      all_goals split_ifs <;> simp_all <;> omega

/-- The run lemma: appending batches one by one to a new buffer gives the buffer after them. -/
theorem appendAll_eq (maxSize : ℕ) (bs : List (Events α)) :
    appendAll maxSize bs = appended maxSize bs := by
  -- the fold from the buffer after any prefix
  have hfold : ∀ acc : List (Events α),
      bs.foldl append (appended maxSize acc) = appended maxSize (acc ++ bs) := by
    induction bs with
    | nil => simp
    | cons e bs ih =>
      intro acc
      rw [List.foldl_cons, append_appended, ih, List.append_assoc, List.singleton_append]
  rw [appendAll, newEventBuffer_eq, hfold, List.nil_append]

/-! ### What the buffer holds -/

theorem linkedFrom_appended (maxSize : ℕ) (bs : List (Events α)) :
    ∀ fuel j, j ≤ bs.length → bs.length - j ≤ fuel →
      (appended maxSize bs).linkedFrom fuel j = List.range' j (bs.length + 1 - j)
  | 0, j, hj, hfuel => by
    rw [show bs.length + 1 - j = 1 by omega]
    rfl
  | fuel + 1, j, hj, hfuel => by
    rcases Nat.lt_or_ge j bs.length with hlt | hge
    · -- an item before the tail links to the next one
      have hnext : (appended maxSize bs).nextNoBlock j = some (j + 1) := by
        simp [nextNoBlock, appended, hlt]
      rw [linkedFrom, hnext]
      dsimp only
      rw [linkedFrom_appended maxSize bs fuel (j + 1) hlt (by omega),
        show bs.length + 1 - j = bs.length + 1 - (j + 1) + 1 by omega, List.range'_succ]
    · have hnext : (appended maxSize bs).nextNoBlock j = none := by
        simp [nextNoBlock, appended]; omega
      rw [linkedFrom, hnext, show bs.length + 1 - j = 1 by omega]
      rfl

theorem itemEvents_succ (bs : List (Events α)) {j : ℕ} (hj : j < bs.length) :
    itemEvents bs (j + 1) = bs[j] := by
  simp [itemEvents, hj]

/-- The batches of the items `d + 1, …, d + n` are those of `bs` from `d` on, `n` of them. -/
theorem map_itemEvents_range' (bs : List (Events α)) {d n : ℕ} (h : d + n ≤ bs.length) :
    (List.range' (d + 1) n).map (fun j ↦ itemEvents bs j) = (bs.drop d).take n := by
  apply List.ext_getElem (by simp; omega)
  intro i hi _
  simp only [List.length_map, List.length_range'] at hi
  rw [List.getElem_map, List.getElem_range', List.getElem_take, List.getElem_drop,
    show d + 1 + 1 * i = d + i + 1 by omega, itemEvents_succ]

@[simp] theorem events_appended (maxSize : ℕ) (bs : List (Events α)) (j : ℕ) :
    ((appended maxSize bs).items j).events = itemEvents bs j := rfl

theorem bufferedBatches_appended (maxSize : ℕ) (bs : List (Events α)) :
    (appended maxSize bs).bufferedBatches = bs.drop (bs.length - min bs.length (maxSize + 1)) := by
  have hwalk := linkedFrom_appended maxSize bs (bs.length + 1) (bs.length - min bs.length maxSize)
    (by omega) (by omega)
  unfold bufferedBatches
  rw [show (appended maxSize bs).count = bs.length + 1 from rfl,
    show (appended maxSize bs).head = bs.length - min bs.length maxSize from rfl, hwalk]
  simp only [events_appended]
  rcases Nat.lt_or_ge maxSize bs.length with hfull | hroom
  · -- the first sentinel is gone: the head is a batch, and `maxSize + 1` batches are left
    have hstart : bs.length - min bs.length maxSize = bs.length - (maxSize + 1) + 1 := by omega
    have hlen : bs.length + 1 - (bs.length - (maxSize + 1) + 1) = maxSize + 1 := by omega
    rw [hstart, hlen, List.filter_eq_self.mpr (fun j hj ↦ by simp at hj ⊢; omega),
      map_itemEvents_range' bs (by omega), List.take_of_length_le (by simp; omega),
      show bs.length - min bs.length (maxSize + 1) = bs.length - (maxSize + 1) by omega]
  · -- the first sentinel is still the head, before all the batches
    rw [show bs.length - min bs.length maxSize = 0 by omega, Nat.sub_zero, List.range'_succ,
      List.filter_cons_of_neg (by simp), List.filter_eq_self.mpr (fun j hj ↦ by simp at hj ⊢; omega),
      map_itemEvents_range' bs (d := 0) (by omega), List.drop_zero, List.take_length,
      show bs.length - min bs.length (maxSize + 1) = 0 by omega, List.drop_zero]

/-! ### `StartAtClosest` -/

theorem startAtClosestLoop_appended (maxSize : ℕ) (bs : List (Events α)) (index : ℕ) :
    ∀ fuel prev, prev ≤ bs.length → bs.length - prev ≤ fuel →
      ((appended maxSize bs).startAtClosestLoop index fuel prev).1 =
        ((List.range' (prev + 1) (bs.length - prev)).find?
          fun j ↦ index ≤ (itemEvents bs j).index).getD bs.length
  | 0, prev, hprev, hfuel => by
    rw [show bs.length - prev = 0 by omega, show prev = bs.length by omega]
    rfl
  | fuel + 1, prev, hprev, hfuel => by
    rcases Nat.lt_or_ge prev bs.length with hlt | hge
    · -- the loop looks at the next item, and returns it or goes on from it
      have hnext : (appended maxSize bs).nextNoBlock prev = some (prev + 1) := by
        simp [nextNoBlock, appended, hlt]
      have hrange : List.range' (prev + 1) (bs.length - prev) =
          (prev + 1) :: List.range' (prev + 1 + 1) (bs.length - (prev + 1)) := by
        rw [show bs.length - prev = bs.length - (prev + 1) + 1 by omega, List.range'_succ]
      rw [startAtClosestLoop, hnext, hrange, List.find?_cons]
      dsimp only
      simp only [events_appended]
      rcases lt_trichotomy index (itemEvents bs (prev + 1)).index with hbefore | hat | hafter
      · simp [hbefore, hbefore.le]
      · simp [hat]
      · simp only [Nat.not_lt.mpr hafter.le, Nat.ne_of_gt hafter, if_false]
        rw [startAtClosestLoop_appended maxSize bs index fuel (prev + 1) hlt (by omega)]
        simp [Nat.not_le.mpr hafter]
    · -- the tail has no next item
      have hnext : (appended maxSize bs).nextNoBlock prev = none := by
        simp [nextNoBlock, appended]; omega
      rw [startAtClosestLoop, hnext, show bs.length - prev = 0 by omega, show prev = bs.length by omega]
      rfl

/-- `StartAtClosest` on the buffer after `bs` returns the first item from the head whose index is
at least the requested one, or the tail when there is none. -/
theorem startAtClosest_appended (maxSize : ℕ) (bs : List (Events α)) (index : ℕ) :
    ((appended maxSize bs).startAtClosest index).1 =
      ((List.range' (bs.length - min bs.length maxSize)
          (bs.length + 1 - (bs.length - min bs.length maxSize))).find?
        fun j ↦ index ≤ (itemEvents bs j).index).getD bs.length := by
  set h := bs.length - min bs.length maxSize with hh
  have hrange : List.range' h (bs.length + 1 - h) = h :: List.range' (h + 1) (bs.length - h) := by
    rw [show bs.length + 1 - h = bs.length - h + 1 by omega, List.range'_succ]
  have hhead : (appended maxSize bs : EventBuffer α).head = h := rfl
  unfold startAtClosest
  dsimp only
  rw [hhead, hrange, List.find?_cons]
  simp only [events_appended]
  rcases lt_trichotomy index (itemEvents bs h).index with hbefore | hat | hafter
  · simp [hbefore, hbefore.le]
  · simp [hat]
  · simp only [Nat.not_lt.mpr hafter.le, Nat.ne_of_lt hafter, if_false]
    rw [startAtClosestLoop_appended maxSize bs index _ h (by omega) (by simp [appended]; omega)]
    simp [Nat.not_le.mpr hafter]

/-! ### `Next` -/

theorem nextReady_appended (maxSize : ℕ) (bs : List (Events α)) (i : ℕ) :
    (appended maxSize bs).nextReady i = decide (i < bs.length) := rfl

/-- `Next` past its first `select` on an item with a next item returns that item, unless the item
was dropped. -/
theorem nextAfterReady_appended (maxSize : ℕ) (bs : List (Events α)) {i : ℕ}
    (hi : i < bs.length) :
    (appended maxSize bs).nextAfterReady i =
      if i < bs.length - min bs.length maxSize then .error "event dropped from buffer"
      else .ok (i + 1) := by
  by_cases hdropped : i < bs.length - min bs.length maxSize
  · simp [nextAfterReady, appended, hdropped]
  · simp [nextAfterReady, appended, hdropped, hi]

end EventBuffer

/-! ### A reader beside the writer -/

/-- Where a reader is: holding an item, inside `Next` on it past the first `select`, or stopped by
the error `Next` returned. -/
inductive ReaderPos
  | holding (item : ℕ)
  | woken (item : ℕ)
  | failed (err : String)
deriving DecidableEq, Repr

/-- The buffer, one reader, and the items the reader has got from `Next`, in order. -/
structure BufferReader (α : Type) where
  buffer : EventBuffer α
  reader : ReaderPos
  received : List ℕ

/-- The writer appends, or the reader takes a step of `Next`, in any interleaving. -/
inductive ReadStep : BufferReader α → BufferReader α → Prop
  | append (s : BufferReader α) (events : Events α) :
      ReadStep s { s with buffer := s.buffer.append events }
  | wake (s : BufferReader α) (i : ℕ) : s.reader = .holding i → s.buffer.nextReady i = true →
      ReadStep s { s with reader := .woken i }
  | deliver (s : BufferReader α) (i next : ℕ) : s.reader = .woken i →
      s.buffer.nextAfterReady i = .ok next →
      ReadStep s { s with reader := .holding next, received := s.received ++ [next] }
  | fail (s : BufferReader α) (i : ℕ) (err : String) : s.reader = .woken i →
      s.buffer.nextAfterReady i = .error err → ReadStep s { s with reader := .failed err }

/-- The reader is on the item `i` of a buffer of `k` batches: it holds it, or is inside `Next` on
it once it has a next item, or it stopped on the dropped-item error. -/
def ReaderAt (i k : ℕ) : ReaderPos → Prop
  | .holding j => j = i
  | .woken j => j = i ∧ i < k
  | .failed err => err = "event dropped from buffer"

theorem ReaderAt.mono {i k k' : ℕ} {pos : ReaderPos} (h : ReaderAt i k pos) (hk : k ≤ k') :
    ReaderAt i k' pos := by
  cases pos with
  | holding j => exact h
  | woken j => exact ⟨h.1, by have := h.2; omega⟩
  | failed err => exact h

/-- After the batches `bs`, a reader that started on the item `start` has got the items after it
one by one: with `n` of them, it is on the item `start + n`. -/
structure ReaderInv (maxSize start : ℕ) (bs : List (Events α)) (s : BufferReader α) : Prop where
  buffer : s.buffer = EventBuffer.appended maxSize bs
  received : s.received = List.range' (start + 1) s.received.length
  within : start + s.received.length ≤ bs.length
  position : ReaderAt (start + s.received.length) bs.length s.reader

open EventBuffer in
/-- The step lemma: each step of the writer or the reader keeps the invariant, the writer's
appends adding to the batches. -/
theorem ReaderInv.step {maxSize start : ℕ} {bs : List (Events α)} {s s' : BufferReader α}
    (h : ReaderInv maxSize start bs s) (hstep : ReadStep s s') :
    ∃ bs', bs <+: bs' ∧ ReaderInv maxSize start bs' s' := by
  cases hstep with
  | append e =>
    refine ⟨bs ++ [e], List.prefix_append _ _, ?_, h.received, ?_, h.position.mono ?_⟩
    · simp only [h.buffer, append_appended]
    all_goals simp only [List.length_append, List.length_singleton]; have := h.within; omega
  | wake i hpos hready =>
    have hi : i < bs.length := by
      rw [h.buffer, nextReady_appended] at hready
      exact of_decide_eq_true hready
    have hat : i = start + s.received.length := by
      have := h.position; rw [hpos] at this; exact this
    exact ⟨bs, List.prefix_refl _, h.buffer, h.received, h.within, hat, hat ▸ hi⟩
  | deliver i next hpos hnext =>
    obtain ⟨hat, hi⟩ : i = start + s.received.length ∧ start + s.received.length < bs.length := by
      have := h.position; rw [hpos] at this; exact this
    -- the item delivered is the one after the reader's
    have hnext' : next = i + 1 := by
      rw [h.buffer, nextAfterReady_appended maxSize bs (hat ▸ hi)] at hnext
      split_ifs at hnext
      exact (Except.ok.inj hnext).symm
    refine ⟨bs, List.prefix_refl _, h.buffer, ?_, ?_, ?_⟩
    · show s.received ++ [next] = List.range' (start + 1) (s.received ++ [next]).length
      rw [List.length_append, List.length_singleton, List.range'_concat, ← h.received, hnext', hat]
      congr 2
      omega
    · simp only [List.length_append, List.length_singleton]; omega
    · show next = start + (s.received ++ [next]).length
      simp only [List.length_append, List.length_singleton]
      omega
  | fail i err hpos herr =>
    obtain ⟨hat, hi⟩ : i = start + s.received.length ∧ start + s.received.length < bs.length := by
      have := h.position; rw [hpos] at this; exact this
    refine ⟨bs, List.prefix_refl _, h.buffer, h.received, h.within, ?_⟩
    show err = "event dropped from buffer"
    rw [h.buffer, nextAfterReady_appended maxSize bs (hat ▸ hi)] at herr
    split_ifs at herr
    exact (Except.error.inj herr).symm

/-- The run lemma: from a reader holding any item of the buffer, every interleaving keeps the
invariant. -/
theorem reachable_readerInv {maxSize start : ℕ} {bs : List (Events α)} (hstart : start ≤ bs.length)
    {s : BufferReader α}
    (hrun : Relation.ReflTransGen ReadStep ⟨EventBuffer.appended maxSize bs, .holding start, []⟩ s) :
    ∃ bs', bs <+: bs' ∧ ReaderInv maxSize start bs' s := by
  induction hrun with
  | refl => exact ⟨bs, List.prefix_refl _, rfl, rfl, by simpa using hstart, rfl⟩
  | tail _ hstep ih =>
    obtain ⟨bs', hprefix, hinv⟩ := ih
    obtain ⟨bs'', hprefix', hinv'⟩ := hinv.step hstep
    exact ⟨bs'', hprefix.trans hprefix', hinv'⟩

open EventBuffer in
/-- The event buffer after any appends to a new buffer, with a reader beside the writer. The items
reachable from the head run from the head to the tail, which has no next item; less the first
sentinel they hold the last `min k (maxSize + 1)` batches in append order, and `Len()` is
`min k maxSize`. `StartAtClosest` returns the first of these items whose index is at least the
requested one, or the tail. A reader that holds any item gets from `Next`, while the writer
appends, the batches appended after its item in order with none skipped: on an item with a next
item `Next` passes its first `select`, and then returns that next item or the dropped-item error,
and no other error. -/
theorem appendAll_spec (maxSize : ℕ) (bs : List (Events α)) :
    let b := appendAll maxSize bs
    (b.linkedFrom b.count b.head = List.range' b.head (bs.length + 1 - b.head) ∧
      b.tail = bs.length ∧ (b.items b.tail).next = none ∧
      b.bufferedBatches = bs.drop (bs.length - min bs.length (maxSize + 1)) ∧
      b.len = min bs.length maxSize) ∧
    (∀ index, (b.startAtClosest index).1 =
      ((b.linkedFrom b.count b.head).find? fun j ↦ index ≤ (b.items j).events.index).getD b.tail) ∧
    ∀ start ≤ bs.length, ∀ s, Relation.ReflTransGen ReadStep ⟨b, .holding start, []⟩ s →
      ∃ bs', bs <+: bs' ∧ s.buffer = appendAll maxSize bs' ∧
        s.received.map (fun j ↦ (s.buffer.items j).events) =
          (bs'.drop start).take s.received.length ∧
        (∀ i, s.reader = .holding i → i = start + s.received.length ∧
          (i < bs'.length → s.buffer.nextReady i = true)) ∧
        (∀ i, s.reader = .woken i → s.buffer.nextAfterReady i = .ok (i + 1) ∨
          s.buffer.nextAfterReady i = .error "event dropped from buffer") ∧
        ∀ err, s.reader = .failed err → err = "event dropped from buffer" := by
  dsimp only
  simp only [appendAll_eq]
  have hwalk := linkedFrom_appended maxSize bs (bs.length + 1) (bs.length - min bs.length maxSize)
    (by omega) (by omega)
  refine ⟨⟨hwalk, rfl, by simp [appended], bufferedBatches_appended maxSize bs, rfl⟩,
    fun index ↦ ?_, fun start hstart s hrun ↦ ?_⟩
  · rw [show (appended maxSize bs : EventBuffer α).count = bs.length + 1 from rfl,
      show (appended maxSize bs : EventBuffer α).head = bs.length - min bs.length maxSize from rfl,
      hwalk, startAtClosest_appended]
    rfl
  · obtain ⟨bs', hprefix, hinv⟩ := reachable_readerInv hstart hrun
    have hpos := hinv.position
    refine ⟨bs', hprefix, hinv.buffer, ?_, fun i hi ↦ ?_, fun i hi ↦ ?_, fun err herr ↦ ?_⟩
    · -- the items received are those after the start, so are their batches
      rw [hinv.received, hinv.buffer, List.length_range']
      simp only [events_appended]
      exact map_itemEvents_range' bs' hinv.within
    · rw [hi] at hpos
      refine ⟨hpos, fun hlt ↦ ?_⟩
      rw [hinv.buffer, nextReady_appended]
      exact decide_eq_true hlt
    · rw [hi] at hpos
      rw [hinv.buffer, nextAfterReady_appended maxSize bs' (hpos.1 ▸ hpos.2), hpos.1]
      split_ifs
      · exact .inr rfl
      · exact .inl rfl
    · rw [herr] at hpos
      exact hpos

/-- The same state from the reader's start, so that the part about readers applies to a buffer of
two batches of maximum size one. -/
theorem appendAll_spec_twoBatches :
    let bs : List (Events ℕ) := [⟨1, []⟩, ⟨2, []⟩]
    let b := EventBuffer.appendAll 1 bs
    1 ≤ bs.length ∧ Relation.ReflTransGen ReadStep ⟨b, .holding 1, []⟩ ⟨b, .holding 1, []⟩ ∧
      ∃ bs', bs <+: bs' ∧ b = EventBuffer.appendAll 1 bs' := by
  refine ⟨by decide, .refl, ?_⟩
  obtain ⟨bs', hprefix, hbuffer, -⟩ :=
    (appendAll_spec 1 ([⟨1, []⟩, ⟨2, []⟩] : List (Events ℕ))).2.2 1 (by decide) _ .refl
  exact ⟨bs', hprefix, hbuffer⟩

/-- Two batches appended to a buffer of maximum size one: both are reachable from the head, while
`Len()` is one. -/
theorem appendAll_holds_one_more :
    let b : EventBuffer ℕ := EventBuffer.appendAll 1 [⟨1, []⟩, ⟨2, []⟩]
    b.bufferedBatches = [⟨1, []⟩, ⟨2, []⟩] ∧ b.len = 1 := by
  decide +kernel

end Wander.Stream
