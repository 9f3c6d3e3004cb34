import Mathlib.Data.List.Infix
import Mathlib.Data.Set.Defs

/-!
# Prefix codes

A code `enc : β → List γ` is prefix-free on a set of words when a codeword of the set is a prefix
of another only if the words are equal. A concatenation of nonempty codewords of such a code
determines the words (`PrefixFree.flatMap_inj`): the first codeword is the only one that can
start the string, and the rest is read the same way.

A codeword made of a part without the separator `a`, then `a`, then a part of fixed length ends
where its fixed part ends, so such codes are prefix-free once the two parts determine the word
(`eq_of_append_cons_prefix`).
-/

set_option autoImplicit false
set_option relaxedAutoImplicit false

namespace Wander.Lib

variable {β γ : Type*}

/-- `enc` is prefix-free on `S`. -/
def PrefixFree (enc : β → List γ) (S : Set β) : Prop :=
  ∀ a ∈ S, ∀ b ∈ S, enc a <+: enc b → a = b

/-- Concatenations of nonempty codewords of a prefix-free code are uniquely decodable. -/
theorem PrefixFree.flatMap_inj {enc : β → List γ} {S : Set β} (hcode : PrefixFree enc S)
    (hne : ∀ a ∈ S, enc a ≠ []) :
    ∀ {l₁ l₂ : List β}, (∀ a ∈ l₁, a ∈ S) → (∀ b ∈ l₂, b ∈ S) →
      l₁.flatMap enc = l₂.flatMap enc → l₁ = l₂
  | [], [], _, _, _ => rfl
  | [], b :: _, _, h₂, h => absurd (List.append_eq_nil_iff.mp h.symm).1 (hne b (h₂ b (by simp)))
  | a :: _, [], h₁, _, h => absurd (List.append_eq_nil_iff.mp h).1 (hne a (h₁ a (by simp)))
  | a :: l₁, b :: l₂, h₁, h₂, h => by
    have ha := h₁ a (by simp)
    have hb := h₂ b (by simp)
    rw [List.flatMap_cons, List.flatMap_cons] at h
    -- both first codewords start the same string, so one is a prefix of the other
    have hab : a = b := by
      rcases List.prefix_or_prefix_of_prefix (List.prefix_append (enc a) _)
          (h ▸ List.prefix_append (enc b) _) with hpre | hpre
      · exact hcode a ha b hb hpre
      · exact (hcode b hb a ha hpre).symm
    subst hab
    rw [PrefixFree.flatMap_inj hcode hne (fun x hx ↦ h₁ x (by simp [hx]))
      (fun x hx ↦ h₂ x (by simp [hx])) (List.append_cancel_left h)]

/-- Two strings that start with a part free of the separator `a` and then `a` agree on that part
and on what follows. -/
theorem eq_of_append_cons {x₁ x₂ z₁ z₂ : List γ} {a : γ} (h₁ : a ∉ x₁) (h₂ : a ∉ x₂)
    (h : x₁ ++ a :: z₁ = x₂ ++ a :: z₂) : x₁ = x₂ ∧ z₁ = z₂ := by
  induction x₁ generalizing x₂ with
  | nil =>
    cases x₂ with
    | nil => exact ⟨rfl, List.cons_injective h⟩
    | cons c x₂ =>
      -- the separator would be the first letter of `x₂`
      have hc : a = c := (List.cons.inj h).1
      exact absurd (hc ▸ List.mem_cons_self) h₂
  | cons c x₁ ih =>
    cases x₂ with
    | nil =>
      have hc : c = a := (List.cons.inj h).1
      exact absurd (hc ▸ List.mem_cons_self) h₁
    | cons d x₂ =>
      obtain ⟨hcd, htail⟩ := List.cons.inj h
      obtain ⟨hx, hz⟩ := ih (fun hm ↦ h₁ (List.mem_cons_of_mem c hm))
        (fun hm ↦ h₂ (List.mem_cons_of_mem d hm)) htail
      exact ⟨by rw [hcd, hx], hz⟩

/-- A codeword of the separator form that is a prefix of another is equal to it when the fixed
parts have one length. -/
theorem eq_of_append_cons_prefix {x₁ x₂ z₁ z₂ : List γ} {a : γ} (h₁ : a ∉ x₁) (h₂ : a ∉ x₂)
    (hlen : z₁.length = z₂.length) (h : x₁ ++ a :: z₁ <+: x₂ ++ a :: z₂) :
    x₁ = x₂ ∧ z₁ = z₂ := by
  obtain ⟨t, ht⟩ := h
  rw [List.append_assoc, List.cons_append] at ht
  obtain ⟨hx, hz⟩ := eq_of_append_cons h₁ h₂ ht
  -- the fixed parts have one length, so nothing follows the first
  have ht : t = [] := by
    have := congrArg List.length hz
    rw [List.length_append, hlen] at this
    exact List.eq_nil_of_length_eq_zero (by omega)
  rw [ht, List.append_nil] at hz
  exact ⟨hx, hz⟩

end Wander.Lib
