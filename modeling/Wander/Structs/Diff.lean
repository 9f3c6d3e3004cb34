import Mathlib.Data.Prod.Lex
import Mathlib.Data.String.Basic
import Mathlib.Order.WithBot

/-!
# `structs` diffs: the order `ObjectDiff.Less`

Job diffs are sorted with `sort.Sort(ObjectDiffs)` and `sort.Sort(FieldDiffs)`, whose `Less` is
`ObjectDiff.Less` and `FieldDiff.Less`. `FieldDiff.Less` compares the name, then the old value,
then the new one, so it is a strict weak order (`fieldDiffLess_strictWeakOrder`). `ObjectDiff.Less`
compares the name, the type and the numbers of fields and objects, then sorts the fields and the
objects of both diffs and returns true at the first index where its own is less; it never
returns false at an index where its own is greater. Two diffs whose fields cross, one less at the
first field and greater at the second, are then each less than the other
(`objectDiffLess_both_ways`).

Pointers are options: a nil `*ObjectDiff` or `*FieldDiff` is `none`, and `reflect.DeepEqual` of
two of them is equality. `sort.Sort` is the insertion sort that Go runs on slices of at most 12
elements, and `Less` does not write its sorted slices back.
-/

set_option autoImplicit false
set_option relaxedAutoImplicit false

namespace Wander.Structs

/-- `DiffType`, a string type. -/
abbrev DiffType := String

/-- `DiffTypeNone`. -/
def diffTypeNone : DiffType := "None"

/-- `DiffTypeAdded`. -/
def diffTypeAdded : DiffType := "Added"

/-- `DiffTypeDeleted`. -/
def diffTypeDeleted : DiffType := "Deleted"

/-- `DiffTypeEdited`. -/
def diffTypeEdited : DiffType := "Edited"

/-- `DiffType.Less`: `Edited`, then `Added`, then `Deleted`, then the others. -/
def diffTypeLess (d other : DiffType) : Bool :=
  if d = other then false
  else if d = diffTypeEdited then true
  else if other = diffTypeEdited then false
  else if d = diffTypeAdded then true
  else if other = diffTypeAdded then false
  else if d = diffTypeDeleted then true
  else if other = diffTypeDeleted then false
  else true

/-- `FieldDiff`. -/
structure FieldDiff where
  type : DiffType
  name : String
  old : String
  new : String
  annotations : List String
deriving DecidableEq, Repr

/-- `FieldDiff.Less`. -/
def fieldDiffLess (f other : Option FieldDiff) : Bool :=
  if f = other then false
  else
    match f, other with
    | _, none => false
    | none, some _ => true
    | some f, some other =>
      if f.name ≠ other.name then decide (f.name < other.name)
      else if f.old ≠ other.old then decide (f.old < other.old)
      else decide (f.new < other.new)

/-- `ObjectDiff`. -/
inductive ObjectDiff where
  | mk (type : DiffType) (name : String) (fields : List (Option FieldDiff))
      (objects : List (Option ObjectDiff))

namespace ObjectDiff

mutual
/-- `reflect.DeepEqual` of two object diffs. -/
def decEq : (a b : ObjectDiff) → Decidable (a = b)
  | .mk type₁ name₁ fields₁ objects₁, .mk type₂ name₂ fields₂ objects₂ =>
    match String.decEq type₁ type₂, String.decEq name₁ name₂,
      instDecidableEqList fields₁ fields₂, decEqList objects₁ objects₂ with
    | isTrue h₁, isTrue h₂, isTrue h₃, isTrue h₄ => isTrue (by rw [h₁, h₂, h₃, h₄])
    | isFalse h, _, _, _ => isFalse fun heq ↦ h (ObjectDiff.mk.inj heq).1
    | _, isFalse h, _, _ => isFalse fun heq ↦ h (ObjectDiff.mk.inj heq).2.1
    | _, _, isFalse h, _ => isFalse fun heq ↦ h (ObjectDiff.mk.inj heq).2.2.1
    | _, _, _, isFalse h => isFalse fun heq ↦ h (ObjectDiff.mk.inj heq).2.2.2

/-- `reflect.DeepEqual` of two slices of object diffs. -/
def decEqList : (a b : List (Option ObjectDiff)) → Decidable (a = b)
  | [], [] => isTrue rfl
  | [], _ :: _ => isFalse fun h ↦ List.cons_ne_nil _ _ h.symm
  | _ :: _, [] => isFalse fun h ↦ List.cons_ne_nil _ _ h
  | none :: rest₁, none :: rest₂ =>
    match decEqList rest₁ rest₂ with
    | isTrue h => isTrue (by rw [h])
    | isFalse h => isFalse fun heq ↦ h (List.cons.inj heq).2
  | none :: _, some b :: _ => isFalse fun h ↦ Option.some_ne_none b (List.cons.inj h).1.symm
  | some a :: _, none :: _ => isFalse fun h ↦ Option.some_ne_none a (List.cons.inj h).1
  | some a :: rest₁, some b :: rest₂ =>
    match decEq a b, decEqList rest₁ rest₂ with
    | isTrue h₁, isTrue h₂ => isTrue (by rw [h₁, h₂])
    | isFalse h, _ => isFalse fun heq ↦ h (Option.some.inj (List.cons.inj heq).1)
    | _, isFalse h => isFalse fun heq ↦ h (List.cons.inj heq).2
end

instance : DecidableEq ObjectDiff := decEq

mutual
/-- How deep the objects of an object diff nest. -/
def depth : ObjectDiff → ℕ
  | .mk _ _ _ objects => depthList objects + 1

/-- The largest depth in a slice of object diffs. -/
def depthList : List (Option ObjectDiff) → ℕ
  | [] => 0
  | none :: rest => depthList rest
  | some o :: rest => max o.depth (depthList rest)
end

end ObjectDiff

/-- `sort.Sort` on a slice of at most 12 elements: Go's `insertionSort`, which moves each element
left while it is less than its left neighbour. The sorted prefix is kept in reverse. -/
def sinkLeft {β : Type} (less : β → β → Bool) (x : β) : List β → List β
  | [] => [x]
  | y :: ys => if less x y then y :: sinkLeft less x ys else x :: y :: ys

/-- `sort.Sort` with the order `less`. -/
def goSort {β : Type} (less : β → β → Bool) (l : List β) : List β :=
  (l.foldl (fun sorted x ↦ sinkLeft less x sorted) []).reverse

/-- `ObjectDiff.Less`, on diffs whose objects nest at most `fuel` deep; `objectDiffLess` gives
the depth of the deeper one, so the objects are never compared without fuel. -/
def objectDiffLessAux : ℕ → Option ObjectDiff → Option ObjectDiff → Bool
  | fuel, o, other =>
    if o = other then false
    else
      match o, other with
      | _, none => false
      | none, some _ => true
      | some (.mk type name fields objects),
        some (.mk otherType otherName otherFields otherObjects) =>
        if name ≠ otherName then decide (name < otherName)
        else if type ≠ otherType then diffTypeLess type otherType
        else if fields.length ≠ otherFields.length then decide (fields.length < otherFields.length)
        else if objects.length ≠ otherObjects.length then
          decide (objects.length < otherObjects.length)
        -- check each field: true at the first one that is less
        else if ((goSort fieldDiffLess fields).zip (goSort fieldDiffLess otherFields)).any
            fun (f, g) ↦ fieldDiffLess f g then true
        else
          match fuel with
          | 0 => false
          | fuel + 1 =>
            -- check each object the same way
            let less := objectDiffLessAux fuel
            ((goSort less objects).zip (goSort less otherObjects)).any fun (a, b) ↦ less a b

/-- The depth of a diff that may be nil. -/
def depthOpt : Option ObjectDiff → ℕ
  | none => 0
  | some o => o.depth

/-- `ObjectDiff.Less`. -/
def objectDiffLess (o other : Option ObjectDiff) : Bool :=
  objectDiffLessAux (max (depthOpt o) (depthOpt other)) o other

/-! ### `FieldDiff.Less` is a strict weak order -/

/-- What `FieldDiff.Less` compares: nil first, then the name, the old value and the new value. -/
def fieldKey : Option FieldDiff → WithBot (Lex (String × Lex (String × String)))
  | none => ⊥
  | some f => (toLex (f.name, toLex (f.old, f.new)) : Lex (String × Lex (String × String)))

theorem fieldDiffLess_iff (f g : Option FieldDiff) :
    fieldDiffLess f g = true ↔ fieldKey f < fieldKey g := by
  unfold fieldDiffLess
  split_ifs with heq
  · subst heq
    simp
  cases f with
  | none =>
    cases g with
    | none => exact absurd rfl heq
    | some g => simp [fieldKey, WithBot.bot_lt_coe]
  | some f =>
    cases g with
    | none => simp [fieldKey]
    | some g =>
      -- the keys in the order `Less` compares them
      simp only [fieldKey, WithBot.coe_lt_coe, Prod.Lex.toLex_lt_toLex]
      by_cases hname : f.name = g.name
      · by_cases hold : f.old = g.old
        · simp [hname, hold]
        · simp [hname, hold]
      · simp only [ne_eq, hname, not_false_eq_true, decide_eq_true_eq, false_and, or_false,
          if_true]

/-- `FieldDiff.Less` is a strict weak order: diffs with one name, old value and new value are
equivalent, and the classes are ordered by these three. -/
theorem fieldDiffLess_strictWeakOrder :
    IsStrictWeakOrder (Option FieldDiff) fun f g ↦ fieldDiffLess f g = true := by
  have : IsStrictOrder (Option FieldDiff) fun f g ↦ fieldDiffLess f g = true :=
    { irrefl := fun f h ↦ lt_irrefl _ ((fieldDiffLess_iff f f).mp h)
      trans := fun f g h hfg hgh ↦
        (fieldDiffLess_iff f h).mpr
          (((fieldDiffLess_iff f g).mp hfg).trans ((fieldDiffLess_iff g h).mp hgh)) }
  refine ⟨fun f g h hfg hgh ↦ ?_⟩
  simp only [fieldDiffLess_iff, not_lt] at hfg hgh ⊢
  -- incomparable diffs have one key
  have hfg' : fieldKey f = fieldKey g := le_antisymm hfg.2 hfg.1
  have hgh' : fieldKey g = fieldKey h := le_antisymm hgh.2 hgh.1
  rw [hfg', hgh']
  exact ⟨le_rfl, le_rfl⟩

/-! ### `ObjectDiff.Less` is not -/

/-- A field of the given name, edited from `old`. -/
def editedField (name old : String) : FieldDiff := ⟨diffTypeEdited, name, old, "", []⟩

/-- An edit of a task whose field `a` was `2` and `b` was `1`. -/
def crossedFirst : ObjectDiff :=
  .mk diffTypeEdited "Task" [some (editedField "a" "2"), some (editedField "b" "1")] []

/-- An edit of the same task whose field `a` was `1` and `b` was `2`. -/
def crossedSecond : ObjectDiff :=
  .mk diffTypeEdited "Task" [some (editedField "a" "1"), some (editedField "b" "2")] []

/-- Each of two diffs whose fields cross is less than the other, and `sort.Sort` swaps them in
either order, so that neither result is sorted. -/
theorem objectDiffLess_both_ways :
    objectDiffLess (some crossedFirst) (some crossedSecond) = true ∧
      objectDiffLess (some crossedSecond) (some crossedFirst) = true ∧
      goSort objectDiffLess [some crossedFirst, some crossedSecond] =
        [some crossedSecond, some crossedFirst] ∧
      goSort objectDiffLess [some crossedSecond, some crossedFirst] =
        [some crossedFirst, some crossedSecond] := by
  decide +kernel

end Wander.Structs
