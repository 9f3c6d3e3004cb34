import Mathlib

/-!
# Iterators that yield a finite sequence

An iterator in the style of Go's `Next() *T`: a state and a function that returns the next value,
or nil, with the state it moves to. What a caller can observe of a state is the sequence the
iterator yields from it, up to the first nil, and whether it stays at nil after that. `Yields next
s l` says that from `s` the iterator yields the elements of `l` in order and then nothing, from
whatever state it is in.
-/

set_option autoImplicit false
set_option relaxedAutoImplicit false

namespace Wander.Lib

variable {σ α : Type} {next : σ → Option α × σ} {s : σ} {l : List α}

/-- From `s` on, `next` returns nil, whatever state it moves to: some property of states holds
of `s` and of every state `next` moves to from one that has it, and `next` returns nil from
each. -/
def Exhausted (next : σ → Option α × σ) (s : σ) : Prop :=
  ∃ P : σ → Prop, P s ∧ ∀ t, P t → (next t).1 = none ∧ P (next t).2

/-- From `s`, `next` yields the elements of `l` in order and is then exhausted. -/
inductive Yields (next : σ → Option α × σ) : σ → List α → Prop
  | nil {s : σ} : Exhausted next s → Yields next s []
  | cons {s : σ} {a : α} {l : List α} :
      (next s).1 = some a → Yields next (next s).2 l → Yields next s (a :: l)

/-- A state that `next` leaves where it is, returning nil, is exhausted. -/
theorem exhausted_of_next_eq (h : next s = (none, s)) : Exhausted next s :=
  ⟨(· = s), rfl, fun t ht ↦ by subst ht; rw [h]; exact ⟨rfl, rfl⟩⟩

namespace Exhausted

theorem next_fst (h : Exhausted next s) : (next s).1 = none := by
  obtain ⟨P, hs, hP⟩ := h
  exact (hP s hs).1

theorem next_snd (h : Exhausted next s) : Exhausted next (next s).2 := by
  obtain ⟨P, hs, hP⟩ := h
  exact ⟨P, (hP s hs).2, hP⟩

end Exhausted

namespace Yields

/-- The next value is the head of the sequence. -/
theorem next_fst (h : Yields next s l) : (next s).1 = l.head? := by
  cases h with
  | nil hs => exact hs.next_fst
  | cons ha _ => exact ha

/-- After one call the iterator yields the rest of the sequence. -/
theorem next_snd (h : Yields next s l) : Yields next (next s).2 l.tail := by
  cases h with
  | nil hs => exact .nil hs.next_snd
  | cons _ hl => exact hl

theorem exhausted (h : Yields next s []) : Exhausted next s := by
  cases h with
  | nil hs => exact hs

/-- An iterator yields one sequence from a state. -/
theorem unique {l' : List α} (h : Yields next s l) (h' : Yields next s l') : l = l' := by
  induction h generalizing l' with
  | nil hs =>
    cases h' with
    | nil => rfl
    | cons ha _ => rw [hs.next_fst] at ha; cases ha
  | cons ha _ ih =>
    cases h' with
    | nil hs => rw [hs.next_fst] at ha; cases ha
    | cons ha' hl' =>
      rw [ha] at ha'
      cases ha'
      rw [ih hl']

end Yields

end Wander.Lib
