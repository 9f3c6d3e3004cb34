import Mathlib

/-!
# Transducers with a word per symbol

A transducer reads its input left to right; on each symbol it emits a word and moves to a new
state, and when the input ends it emits a last word that depends on the state it is in. What it
emits on an input is determined symbol by symbol, so running it over a concatenation is running
it over the first part and then over the second part from where the first one left it
(`runFrom_append`, `stateAfter_append`): its output does not depend on how the input is split.
-/

set_option autoImplicit false
set_option relaxedAutoImplicit false

namespace Wander.Lib

/-- A transducer with states `σ`, input symbols `α` and output symbols `β`. -/
structure Transducer (σ α β : Type) where
  step : σ → α → List β × σ
  final : σ → List β

namespace Transducer

variable {σ α β : Type} (T : Transducer σ α β)

/-- The state after reading an input. -/
def stateAfter (s : σ) : List α → σ := List.foldl (fun s a ↦ (T.step s a).2) s

/-- The words emitted while reading an input, before it ends. -/
def runFrom : σ → List α → List β
  | _, [] => []
  | s, a :: l => (T.step s a).1 ++ runFrom (T.step s a).2 l

/-- Everything emitted on an input, the last word included. -/
def output (s : σ) (l : List α) : List β := T.runFrom s l ++ T.final (T.stateAfter s l)

@[simp] theorem runFrom_nil (s : σ) : T.runFrom s [] = [] := rfl

@[simp] theorem runFrom_cons (s : σ) (a : α) (l : List α) :
    T.runFrom s (a :: l) = (T.step s a).1 ++ T.runFrom (T.step s a).2 l := rfl

@[simp] theorem stateAfter_nil (s : σ) : T.stateAfter s [] = s := rfl

@[simp] theorem stateAfter_cons (s : σ) (a : α) (l : List α) :
    T.stateAfter s (a :: l) = T.stateAfter (T.step s a).2 l := rfl

theorem stateAfter_append (s : σ) (l₁ l₂ : List α) :
    T.stateAfter s (l₁ ++ l₂) = T.stateAfter (T.stateAfter s l₁) l₂ :=
  List.foldl_append

theorem runFrom_append (s : σ) (l₁ l₂ : List α) :
    T.runFrom s (l₁ ++ l₂) = T.runFrom s l₁ ++ T.runFrom (T.stateAfter s l₁) l₂ := by
  induction l₁ generalizing s <;> simp [*]

theorem output_append (s : σ) (l₁ l₂ : List α) :
    T.output s (l₁ ++ l₂) = T.runFrom s l₁ ++ T.output (T.stateAfter s l₁) l₂ := by
  rw [output, runFrom_append, stateAfter_append, output, List.append_assoc]

@[simp] theorem output_nil (s : σ) : T.output s [] = T.final s := rfl

theorem output_cons (s : σ) (a : α) (l : List α) :
    T.output s (a :: l) = (T.step s a).1 ++ T.output (T.step s a).2 l := by
  simp [output]

end Transducer

end Wander.Lib
