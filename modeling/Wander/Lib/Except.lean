import Mathlib.Data.List.Forall2
import Mathlib.Logic.Basic
import Mathlib.Logic.Relation

/-!
# Results of fallible code

Go functions that return a value and an error are `Except` computations here. A proof about a
successful call takes it apart bind by bind; these are the rules it uses.
-/

set_option autoImplicit false
set_option relaxedAutoImplicit false

namespace Wander.Lib.Except

variable {ε α β : Type}

@[simp] theorem bind_eq_ok {x : Except ε α} {f : α → Except ε β} {b : β} :
    x >>= f = .ok b ↔ ∃ a, x = .ok a ∧ f a = .ok b := by
  cases x with
  | error e => simp [bind, Except.bind]
  | ok a => simp [bind, Except.bind]

@[simp] theorem pure_eq_ok {a b : α} : (pure a : Except ε α) = .ok b ↔ a = b := by
  simp [pure, Except.pure]

@[simp] theorem throw_ne_ok {e : ε} {a : α} : (throw e : Except ε α) ≠ .ok a := by
  simp [throw, throwThe, MonadExceptOf.throw]

/-- A loop of fallible steps that succeeds is a chain of successful steps, each on an element of
the list, from the state it starts in to the state it ends in. -/
theorem foldlM_ok_reflTransGen {σ : Type} {f : σ → α → Except ε σ} {l : List α} {s s' : σ}
    (h : l.foldlM f s = .ok s') :
    Relation.ReflTransGen (fun t t' ↦ ∃ a ∈ l, f t a = .ok t') s s' := by
  induction l generalizing s with
  | nil =>
    rw [List.foldlM_nil, pure_eq_ok] at h
    subst h
    exact Relation.ReflTransGen.refl
  | cons a l ih =>
    rw [List.foldlM_cons, bind_eq_ok] at h
    obtain ⟨t, ht, hrest⟩ := h
    -- the first element's step, then the rest of the loop over the tail
    refine Relation.ReflTransGen.head ⟨a, List.mem_cons_self, ht⟩ ?_
    have hsub : ∀ t t', (∃ b ∈ l, f t b = .ok t') → ∃ b ∈ a :: l, f t b = .ok t' :=
      fun _ _ ⟨b, hb, hf⟩ ↦ ⟨b, List.mem_cons_of_mem a hb, hf⟩
    exact Relation.ReflTransGen.mono hsub _ _ (ih hrest)

/-- A loop of fallible steps, each of which succeeds exactly on an element related to some datum
and then applies that datum to the state, succeeds exactly when every element of the list has
such a datum: the result is the data applied in order. -/
theorem foldlM_eq_ok_iff_forall₂ {σ δ : Type} {f : σ → α → Except ε σ} {R : α → δ → Prop}
    {g : σ → δ → σ} (hf : ∀ s a s', f s a = .ok s' ↔ ∃ d, R a d ∧ s' = g s d)
    (l : List α) (s s' : σ) :
    l.foldlM f s = .ok s' ↔ ∃ ds, List.Forall₂ R l ds ∧ s' = ds.foldl g s := by
  induction l generalizing s with
  | nil =>
    rw [List.foldlM_nil, pure_eq_ok]
    constructor
    · rintro rfl
      exact ⟨[], .nil, rfl⟩
    · rintro ⟨ds, hds, rfl⟩
      rw [List.forall₂_nil_left_iff.mp hds, List.foldl_nil]
  | cons a l ih =>
    rw [List.foldlM_cons, bind_eq_ok]
    constructor
    · rintro ⟨t, ht, hrest⟩
      obtain ⟨d, hd, rfl⟩ := (hf s a t).mp ht
      obtain ⟨ds, hds, rfl⟩ := (ih _).mp hrest
      exact ⟨d :: ds, .cons hd hds, rfl⟩
    · rintro ⟨_, hall, rfl⟩
      obtain ⟨d, ds, hd, hds, rfl⟩ := List.forall₂_cons_left_iff.mp hall
      exact ⟨g s d, (hf s a _).mpr ⟨d, hd, rfl⟩, (ih _).mpr ⟨ds, hds, rfl⟩⟩

/-- Go's early return `if c { return err }`: fails with `e` when `c` holds. -/
def throwIf (c : Prop) [Decidable c] (e : ε) : Except ε Unit :=
  if c then .error e else .ok ()

@[simp] theorem throwIf_eq_ok {c : Prop} [Decidable c] {e : ε} {u : Unit} :
    throwIf c e = .ok u ↔ ¬c := by
  unfold throwIf
  split <;> simp_all

end Wander.Lib.Except

namespace Wander.Lib

variable {α β : Type}

/-- Data related pairwise to a list, where each pair also asks a property of the datum alone: the
relation, and that property of every datum. It splits the data `foldlM_eq_ok_iff_forall₂`
gives for a loop whose step also checks a bound. -/
theorem forall₂_and_right {R : α → β → Prop} {Q : β → Prop} {l : List α} {u : List β} :
    List.Forall₂ (fun a b ↦ R a b ∧ Q b) l u ↔ List.Forall₂ R l u ∧ ∀ b ∈ u, Q b := by
  induction l generalizing u with
  | nil =>
    simp only [List.forall₂_nil_left_iff, iff_self_and]
    rintro rfl b hb
    cases hb
  | cons a l ih =>
    simp only [List.forall₂_cons_left_iff, ih]
    constructor
    · rintro ⟨b, u, ⟨hr, hq⟩, ⟨hl, hu⟩, rfl⟩
      exact ⟨⟨b, u, hr, hl, rfl⟩, List.forall_mem_cons.mpr ⟨hq, hu⟩⟩
    · rintro ⟨⟨b, u, hr, hl, rfl⟩, hall⟩
      obtain ⟨hq, hu⟩ := List.forall_mem_cons.mp hall
      exact ⟨b, u, ⟨hr, hq⟩, ⟨hl, hu⟩, rfl⟩

/-- A loop whose step on each element either fails or applies to the state a datum computed from
the element alone (Go code that can panic on an element, as `none`): when no element fails, it
applies the elements' data in order. -/
theorem foldlM_map_of_isSome {σ δ : Type} (f : α → Option δ) (g : σ → δ → σ) {l : List α}
    (h : ∀ a ∈ l, (f a).isSome) (s : σ) :
    l.foldlM (fun s a ↦ (f a).map (g s)) s = some ((l.filterMap f).foldl g s) := by
  induction l generalizing s with
  | nil => rfl
  | cons a l ih =>
    obtain ⟨d, hd⟩ := Option.isSome_iff_exists.mp (h a List.mem_cons_self)
    have hrest : ∀ b ∈ l, (f b).isSome := fun b hb ↦ h b (List.mem_cons_of_mem a hb)
    rw [List.foldlM_cons, hd, List.filterMap_cons_some hd, List.foldl_cons, ← ih hrest]
    rfl

/-- A loop that applies the data of the `some` entries and skips the `none` ones applies the data
of the list's `some` entries. -/
theorem foldl_elim_eq_foldl_filterMap {σ δ : Type} (g : σ → δ → σ) (l : List (Option δ))
    (s : σ) : l.foldl (fun s o ↦ o.elim s (g s)) s = (l.filterMap id).foldl g s := by
  induction l generalizing s with
  | nil => rfl
  | cons o l ih =>
    cases o with
    | none => rw [List.foldl_cons, List.filterMap_cons_none rfl, ← ih]; rfl
    | some d =>
      rw [List.foldl_cons, List.filterMap_cons_some (show id (some d) = some d from rfl),
        List.foldl_cons, ← ih]
      rfl

/-- Go's `%q` on a string with no character that needs escaping. -/
def quoted (s : String) : String := "\"" ++ s ++ "\""

end Wander.Lib
