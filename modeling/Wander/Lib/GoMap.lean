import Mathlib

/-!
# Go maps as association lists

A Go `map[K]V` is Mathlib's `AList` with a constant value family. A read of an absent key yields
the value type's zero value; Go supplies it implicitly and the model passes it to `get`. Go fixes
no iteration order, so what a map holds is its list of values up to permutation, and the lemmas
here say how one write or one delete moves the concatenated contents of a map of slices.
-/

set_option autoImplicit false
set_option relaxedAutoImplicit false

namespace Wander.Lib

open scoped List

/-- A Go map with keys `K` and values `V`. -/
abbrev GoMap (K V : Type) := AList (fun _ : K ↦ V)

namespace GoMap

variable {K V : Type} [DecidableEq K]

/-- An equality test on maps that compares their entries and reduces, so that statements about
states holding maps can be decided by evaluation. -/
instance instDecidableEqGoMap [DecidableEq V] : DecidableEq (GoMap K V) :=
  fun a b ↦ decidable_of_iff (a.entries = b.entries) AList.ext_iff.symm

/-- A map prints as the list of its key and value pairs, in entry order. -/
instance instReprGoMap [Repr K] [Repr V] : Repr (GoMap K V) where
  reprPrec m n := reprPrec (m.entries.map fun e ↦ (e.1, e.2)) n

/-- `m[k]`: the stored value, or the zero value when `k` is absent. -/
def get (m : GoMap K V) (k : K) (zero : V) : V := (m.lookup k).getD zero

/-- The stored values, in entry order. -/
def values (m : GoMap K V) : List V := m.entries.map Sigma.snd

/-- The concatenated contents of a map of slices. -/
def contents {W : Type} (m : GoMap K (List W)) : List W := (values m).flatten

@[simp] theorem get_insert (m : GoMap K V) (k : K) (v zero : V) :
    get (m.insert k v) k zero = v := by
  simp [get, AList.lookup_insert]

theorem get_insert_ne (m : GoMap K V) {k k' : K} (h : k' ≠ k) (v zero : V) :
    get (m.insert k v) k' zero = get m k' zero := by
  simp [get, AList.lookup_insert_ne h]

@[simp] theorem get_erase (m : GoMap K V) (k : K) (zero : V) : get (m.erase k) k zero = zero := by
  simp [get, AList.lookup_erase]

theorem get_erase_ne (m : GoMap K V) {k k' : K} (h : k' ≠ k) (zero : V) :
    get (m.erase k) k' zero = get m k' zero := by
  simp [get, AList.lookup_erase_ne h]

@[simp] theorem get_empty (k : K) (zero : V) : get (∅ : GoMap K V) k zero = zero := rfl

theorem erase_of_lookup_eq_none {m : GoMap K V} {k : K} (h : m.lookup k = none) :
    m.erase k = m := by
  apply AList.ext
  exact List.kerase_of_notMem_keys (AList.lookup_eq_none.mp h)

/-- A list of entries is its first entry at a key followed by the rest, up to permutation. -/
theorem perm_kerase_of_dlookup {l : List (Σ _ : K, V)} {k : K} {v : V}
    (h : l.dlookup k = some v) : l ~ ⟨k, v⟩ :: l.kerase k := by
  induction l with
  | nil => simp at h
  | cons s rest ih =>
    obtain ⟨k', v'⟩ := s
    by_cases hk : k = k'
    · subst hk
      simp only [List.dlookup_cons_eq, Option.some.injEq] at h
      subst h
      simp [List.kerase_cons_eq]
    · rw [List.dlookup_cons_ne _ _ (fun h' ↦ hk h')] at h
      rw [List.kerase_cons_ne (fun h' ↦ hk h')]
      exact ((ih h).cons _).trans (List.Perm.swap _ _ _)

@[simp] theorem values_insert (m : GoMap K V) (k : K) (v : V) :
    values (m.insert k v) = v :: values (m.erase k) := by
  simp [values, AList.entries_insert, AList.erase]

theorem values_perm_of_lookup {m : GoMap K V} {k : K} {v : V} (h : m.lookup k = some v) :
    values m ~ v :: values (m.erase k) := by
  have hperm := perm_kerase_of_dlookup (l := m.entries) h
  simpa [values, AList.erase] using hperm.map Sigma.snd

/-- Counting over the values of a write of a present key: the new value counts where the value it
replaces no longer does. -/
theorem countP_values_insert_of_lookup {m : GoMap K V} {k : K} {old : V} (h : m.lookup k = some old)
    (v : V) (p : V → Bool) :
    (values (m.insert k v)).countP p + (if p old then 1 else 0) =
      (values m).countP p + if p v then 1 else 0 := by
  rw [values_insert, (values_perm_of_lookup h).countP_eq, List.countP_cons, List.countP_cons]
  omega

/-- Counting over the values of a write of an absent key: the new value counts. -/
theorem countP_values_insert_of_lookup_eq_none {m : GoMap K V} {k : K} (h : m.lookup k = none)
    (v : V) (p : V → Bool) :
    (values (m.insert k v)).countP p = (values m).countP p + if p v then 1 else 0 := by
  rw [values_insert, erase_of_lookup_eq_none h, List.countP_cons]

/-- Counting over the values of any write: the new value counts where the value it replaces, if
any, no longer does. -/
theorem countP_values_insert (m : GoMap K V) (k : K) (v : V) (p : V → Bool) :
    (values (m.insert k v)).countP p + (if (m.lookup k).any p then 1 else 0) =
      (values m).countP p + if p v then 1 else 0 := by
  cases h : m.lookup k with
  | none =>
    rw [countP_values_insert_of_lookup_eq_none h]
    simp
  | some old => exact countP_values_insert_of_lookup h v p

section Contents

variable {W : Type}

@[simp] theorem contents_insert (m : GoMap K (List W)) (k : K) (v : List W) :
    contents (m.insert k v) = v ++ contents (m.erase k) := by
  simp [contents]

/-- Reading a key and deleting it splits the contents, whether or not the key is present. -/
theorem contents_perm_get_erase (m : GoMap K (List W)) (k : K) :
    contents m ~ get m k [] ++ contents (m.erase k) := by
  cases hk : m.lookup k with
  | none =>
    rw [erase_of_lookup_eq_none hk]
    simp [get, hk]
  | some v =>
    have hperm := (values_perm_of_lookup hk).flatten
    simpa [contents, get, hk] using hperm

/-- Overwriting one key changes the contents by the old and the new value at that key. -/
theorem contents_insert_perm (m : GoMap K (List W)) (k : K) (v : List W) :
    contents (m.insert k v) ++ get m k [] ~ v ++ contents m := by
  rw [contents_insert, List.append_assoc]
  refine List.Perm.append_left v ?_
  exact List.perm_append_comm.trans (contents_perm_get_erase m k).symm

theorem contents_erase_perm (m : GoMap K (List W)) (k : K) :
    contents (m.erase k) ++ get m k [] ~ contents m :=
  List.perm_append_comm.trans (contents_perm_get_erase m k).symm

/-- `contents_insert_perm` as an equation of multisets. -/
theorem contents_insert_add (m : GoMap K (List W)) (k : K) (v : List W) :
    (contents (m.insert k v) : Multiset W) + get m k [] = v + contents m := by
  rw [Multiset.coe_add, Multiset.coe_add, Multiset.coe_eq_coe]
  exact contents_insert_perm m k v

/-- `contents_erase_perm` as an equation of multisets. -/
theorem contents_erase_add (m : GoMap K (List W)) (k : K) :
    (contents (m.erase k) : Multiset W) + get m k [] = contents m := by
  rw [Multiset.coe_add, Multiset.coe_eq_coe]
  exact contents_erase_perm m k

/-- Writing back a list that lost one element of the one stored removes that element. -/
theorem contents_insert_of_perm {m : GoMap K (List W)} {k : K} {x : W} {rest : List W}
    (h : get m k [] ~ x :: rest) :
    (contents (m.insert k rest) : Multiset W) + {x} = contents m := by
  have hsum := contents_insert_add m k rest
  rw [Multiset.coe_eq_coe.mpr h, ← Multiset.cons_coe, ← Multiset.singleton_add] at hsum
  apply add_right_cancel (b := (rest : Multiset W))
  rw [add_assoc, hsum, add_comm]

end Contents

/-- Writing an absent key adds its value to the map's values. -/
theorem values_insert_of_lookup_eq_none {m : GoMap K V} {k : K} (h : m.lookup k = none) (v : V) :
    (values (m.insert k v) : Multiset V) = v ::ₘ values m := by
  rw [values_insert, erase_of_lookup_eq_none h, Multiset.cons_coe]

/-- Deleting a present key removes its value from the map's values. -/
theorem values_erase_cons {m : GoMap K V} {k : K} {v : V} (h : m.lookup k = some v) :
    v ::ₘ (values (m.erase k) : Multiset V) = values m := by
  rw [Multiset.cons_coe, Multiset.coe_eq_coe]
  exact (values_perm_of_lookup h).symm

theorem mem_values_erase {m : GoMap K V} {k : K} {v : V} (h : v ∈ values (m.erase k)) :
    v ∈ values m := by
  by_cases hk : k ∈ m
  · obtain ⟨w, hw⟩ := Option.isSome_iff_exists.mp (AList.lookup_isSome.mpr hk)
    exact (values_perm_of_lookup hw).mem_iff.mpr (List.mem_cons_of_mem _ h)
  · rwa [erase_of_lookup_eq_none (AList.lookup_eq_none.mpr hk)] at h

theorem mem_values_insert {m : GoMap K V} {k : K} {v a : V} (h : a ∈ values (m.insert k v)) :
    a = v ∨ a ∈ values m := by
  rw [values_insert, List.mem_cons] at h
  exact h.imp id mem_values_erase

theorem mem_values_of_lookup {m : GoMap K V} {k : K} {v : V} (h : m.lookup k = some v) :
    v ∈ values m :=
  (values_perm_of_lookup h).mem_iff.mpr List.mem_cons_self

theorem lookup_of_lookup_erase {m : GoMap K V} {k k' : K} {v : V}
    (h : (m.erase k).lookup k' = some v) : m.lookup k' = some v := by
  by_cases hk : k' = k
  · subst hk
    simp [AList.lookup_erase] at h
  · rwa [AList.lookup_erase_ne hk] at h

theorem values_erase_add {m : GoMap K V} {k : K} {v : V} (h : m.lookup k = some v) :
    (values (m.erase k) : Multiset V) + {v} = values m := by
  rw [add_comm, Multiset.singleton_add]
  exact values_erase_cons h

/-- `values_insert_of_lookup_eq_none` under a map of the values. -/
theorem values_map_insert_of_lookup_eq_none {W : Type} {m : GoMap K V} {k : K}
    (h : m.lookup k = none) (v : V) (f : V → W) :
    (((values (m.insert k v)).map f : List W) : Multiset W) = f v ::ₘ ((values m).map f : List W) := by
  rw [values_insert, erase_of_lookup_eq_none h, List.map_cons, Multiset.cons_coe]

/-- `values_erase_add` under a map of the values. -/
theorem values_map_erase_add {W : Type} {m : GoMap K V} {k : K} {v : V} (h : m.lookup k = some v)
    (f : V → W) :
    (((values (m.erase k)).map f : List W) : Multiset W) + {f v} = ((values m).map f : List W) := by
  rw [← Multiset.map_coe, ← Multiset.map_coe, ← values_erase_add h, Multiset.map_add,
    Multiset.map_singleton]

theorem mem_values_iff {m : GoMap K V} {v : V} : v ∈ values m ↔ ∃ k, m.lookup k = some v := by
  simp only [values, List.mem_map]
  constructor
  · rintro ⟨⟨k, w⟩, hkw, rfl⟩
    exact ⟨k, AList.mem_lookup_iff.mpr hkw⟩
  · rintro ⟨k, hk⟩
    exact ⟨⟨k, v⟩, AList.mem_lookup_iff.mp hk, rfl⟩

theorem mem_contents_iff {W : Type} {m : GoMap K (List W)} {x : W} :
    x ∈ contents m ↔ ∃ k, x ∈ get m k [] := by
  simp only [contents, List.mem_flatten, mem_values_iff]
  constructor
  · rintro ⟨l, ⟨k, hk⟩, hx⟩
    exact ⟨k, by simp [get, hk, hx]⟩
  · rintro ⟨k, hx⟩
    cases hk : m.lookup k with
    | none => simp [get, hk] at hx
    | some l => exact ⟨l, ⟨k, hk⟩, by simpa [get, hk] using hx⟩

theorem mem_contents_of_mem_get {W : Type} {m : GoMap K (List W)} {k : K} {x : W}
    (h : x ∈ get m k []) : x ∈ contents m :=
  mem_contents_iff.mpr ⟨k, h⟩

/-- A map is keyed by a function of its values when each of its entries is; the latter can be
decided on a given map. -/
theorem key_of_lookup {key : V → K} {m : GoMap K V} (h : ∀ e ∈ m.entries, key e.2 = e.1) {k : K}
    {v : V} (hk : m.lookup k = some v) : key v = k :=
  h ⟨k, v⟩ (AList.mem_lookup_iff.mp hk)

/-- Writing a value under its own key keeps a map keyed by `key`. -/
theorem keyed_insert {key : V → K} {m : GoMap K V} (hkey : ∀ k v, m.lookup k = some v → key v = k)
    (v : V) : ∀ k w, (m.insert (key v) v).lookup k = some w → key w = k := by
  intro k w h
  by_cases hk : k = key v
  · subst hk
    rw [AList.lookup_insert] at h
    cases h
    rfl
  · rw [AList.lookup_insert_ne hk] at h
    exact hkey k w h

/-- In a map keyed by `key`, every value is found under its key. -/
theorem lookup_key_of_mem_values {key : V → K} {m : GoMap K V}
    (hkey : ∀ k v, m.lookup k = some v → key v = k) {v : V} (hv : v ∈ values m) :
    m.lookup (key v) = some v := by
  obtain ⟨k, hk⟩ := mem_values_iff.mp hv
  rw [hkey k v hk]
  exact hk

/-- A map keyed by a function of its values holds no two values of one key. -/
theorem nodup_map_values {key : V → K} {m : GoMap K V}
    (hkey : ∀ k v, m.lookup k = some v → key v = k) : ((values m).map key).Nodup := by
  have hmap : (values m).map key = m.keys := by
    rw [values, List.map_map, AList.keys, List.keys]
    refine List.map_congr_left fun e he ↦ ?_
    exact hkey e.1 e.2 (AList.mem_lookup_iff.mpr he)
  rw [hmap]
  exact m.nodupKeys

/-! ### Writing a list of values under their keys -/

section Upsert

/-- Writing each value of a list under its key, in list order; a later value of a key replaces an
earlier one. -/
def upsertAll (key : V → K) (m : GoMap K V) (l : List V) : GoMap K V :=
  l.foldl (fun acc v ↦ acc.insert (key v) v) m

/-- A key holds the last value of the list written under it, or what it held before. -/
theorem lookup_upsertAll (key : V → K) (m : GoMap K V) (l : List V) (k : K) :
    (upsertAll key m l).lookup k = (l.reverse.find? fun v ↦ key v = k).or (m.lookup k) := by
  induction l generalizing m with
  | nil => simp [upsertAll]
  | cons v l ih =>
    change (upsertAll key (m.insert (key v) v) l).lookup k = _
    rw [ih, List.reverse_cons, List.find?_append]
    by_cases hk : key v = k
    · subst hk
      rw [AList.lookup_insert]
      cases l.reverse.find? (fun w ↦ key w = key v) <;> simp
    · rw [AList.lookup_insert_ne (Ne.symm hk)]
      cases l.reverse.find? (fun w ↦ key w = k) <;> simp [hk]

theorem lookup_upsertAll_of_forall_ne {key : V → K} {m : GoMap K V} {l : List V} {k : K}
    (h : ∀ v ∈ l, key v ≠ k) : (upsertAll key m l).lookup k = m.lookup k := by
  rw [lookup_upsertAll, List.find?_eq_none.mpr (fun v hv ↦ by simpa using h v (by simpa using hv))]
  rfl

/-- A value of a list whose keys are distinct is what its key holds afterwards. -/
theorem lookup_upsertAll_of_mem {key : V → K} {m : GoMap K V} {l : List V} {v : V}
    (hl : (l.map key).Nodup) (hv : v ∈ l) : (upsertAll key m l).lookup (key v) = some v := by
  rw [lookup_upsertAll]
  have hsome : (l.reverse.find? fun w ↦ key w = key v).isSome := by
    rw [List.find?_isSome]
    exact ⟨v, List.mem_reverse.mpr hv, by simp⟩
  obtain ⟨w, hw⟩ := Option.isSome_iff_exists.mp hsome
  have hwl : w ∈ l := List.mem_reverse.mp (List.mem_of_find?_eq_some hw)
  have hkw : key w = key v := by simpa using List.find?_some hw
  rw [hw, List.inj_on_of_nodup_map hl hwl hv hkw]
  rfl

/-- A value of the result was written by the list or held before under a key the list leaves
alone. -/
theorem mem_values_upsertAll {key : V → K} {m : GoMap K V} {l : List V} {v : V}
    (h : v ∈ values (upsertAll key m l)) :
    v ∈ l ∨ ∃ k, m.lookup k = some v ∧ ∀ w ∈ l, key w ≠ k := by
  obtain ⟨k, hk⟩ := mem_values_iff.mp h
  rw [lookup_upsertAll] at hk
  cases hf : l.reverse.find? (fun w ↦ key w = k) with
  | some w =>
    rw [hf] at hk
    cases hk
    exact Or.inl (List.mem_reverse.mp (List.mem_of_find?_eq_some hf))
  | none =>
    rw [hf] at hk
    refine Or.inr ⟨k, hk, fun w hw hkw ↦ ?_⟩
    have := List.find?_eq_none.mp hf w (List.mem_reverse.mpr hw)
    simp [hkw] at this

end Upsert

/-- The entries of the map whose key satisfies `p`. -/
def filterKeys (p : K → Bool) (m : GoMap K V) : GoMap K V :=
  ⟨m.entries.filter fun e ↦ p e.1, m.nodupKeys.sublist List.filter_sublist⟩

/-! ### Ranging over a map to rewrite its values -/

/-- The map with every value rewritten by `f`, as a Go loop assigning each visited entry. -/
def mapValues {W : Type} (f : V → W) (m : GoMap K V) : GoMap K W :=
  ⟨m.entries.map fun e ↦ ⟨e.1, f e.2⟩, by
    simpa [List.NodupKeys, List.keys, List.map_map, Function.comp_def] using m.nodupKeys⟩

@[simp] theorem get_mapValues {W : Type} (f : V → W) (m : GoMap K V) (k : K) (zero : V) :
    get (mapValues f m) k (f zero) = f (get m k zero) := by
  simp only [get, mapValues, AList.lookup]
  induction m.entries with
  | nil => rfl
  | cons e l ih =>
    obtain ⟨k', v⟩ := e
    by_cases hk : k = k'
    · subst hk
      simp
    · simp only [List.map_cons, List.dlookup_cons_ne _ ⟨k', _⟩ hk]
      exact ih

@[simp] theorem lookup_mapValues {W : Type} (f : V → W) (m : GoMap K V) (k : K) :
    (mapValues f m).lookup k = (m.lookup k).map f := by
  simp only [mapValues, AList.lookup]
  induction m.entries with
  | nil => rfl
  | cons e l ih =>
    obtain ⟨k', v⟩ := e
    by_cases hk : k = k'
    · subst hk
      simp
    · simp only [List.map_cons, List.dlookup_cons_ne _ ⟨k', _⟩ hk]
      exact ih

/-! ### Deleting while ranging over a map -/

section Range

variable {σ : Type}

/-- The Go loop `for k, v := range m { if p(v) { s = f(s, v); delete(m, k) } }`: every entry is
visited once, in entry order, and deleting the visited entry does not disturb the others. -/
def rangeDelete (p : V → Bool) (f : σ → V → σ) (m : GoMap K V) (s : σ) : GoMap K V × σ :=
  m.entries.foldl (fun acc e ↦ if p e.2 then (acc.1.erase e.1, f acc.2 e.2) else acc) (m, s)

/-- The values the loop deletes, in the order it visits them. -/
def released (p : V → Bool) (m : GoMap K V) : List V :=
  (m.entries.filter fun e ↦ p e.2).map Sigma.snd

theorem foldl_rangeDelete_lookup (p : V → Bool) (f : σ → V → σ) {l : List (Σ _ : K, V)}
    (hl : l.NodupKeys) (M : GoMap K V) (s : σ) (k : K) :
    (l.foldl (fun acc e ↦ if p e.2 then (acc.1.erase e.1, f acc.2 e.2) else acc) (M, s)).1.lookup k =
      match l.dlookup k with
      | some v => if p v then none else M.lookup k
      | none => M.lookup k := by
  induction l generalizing M s with
  | nil => rfl
  | cons e t ih =>
    obtain ⟨hnotin, ht⟩ := List.nodupKeys_cons.mp hl
    rw [List.foldl_cons]
    by_cases hk : k = e.1
    · subst hk
      have htnone : t.dlookup e.1 = none := List.dlookup_eq_none.mpr hnotin
      rw [List.dlookup_cons_eq]
      split
      · rw [ih ht, htnone, AList.lookup_erase]
        rename_i hp
        simp [hp]
      · rename_i hp
        rw [ih ht, htnone]
        simp [hp]
    · rw [List.dlookup_cons_ne _ _ hk]
      split
      · rw [ih ht]
        cases t.dlookup k <;> simp [AList.lookup_erase_ne hk]
      · exact ih ht M s

/-- An entry is deleted exactly when it satisfies `p`. -/
theorem rangeDelete_lookup (p : V → Bool) (f : σ → V → σ) (m : GoMap K V) (s : σ) (k : K) :
    (rangeDelete p f m s).1.lookup k = (m.lookup k).filter fun v ↦ !p v := by
  rw [rangeDelete, foldl_rangeDelete_lookup p f m.nodupKeys m s k]
  change (match m.lookup k with
    | some v => if p v then none else m.lookup k
    | none => m.lookup k) = _
  cases hk : m.lookup k with
  | none => rfl
  | some v => cases hp : p v <;> simp [hp, Option.filter]

theorem foldl_rangeDelete_snd (p : V → Bool) (f : σ → V → σ) (l : List (Σ _ : K, V))
    (M : GoMap K V) (s : σ) :
    (l.foldl (fun acc e ↦ if p e.2 then (acc.1.erase e.1, f acc.2 e.2) else acc) (M, s)).2 =
      ((l.filter fun e ↦ p e.2).map Sigma.snd).foldl f s := by
  induction l generalizing M s with
  | nil => rfl
  | cons e t ih =>
    rw [List.foldl_cons, List.filter_cons]
    by_cases hp : p e.2 = true
    · simp only [hp, ↓reduceIte, List.map_cons, List.foldl_cons]
      exact ih _ _
    · simp only [hp, Bool.false_eq_true, ↓reduceIte]
      exact ih _ _

/-- The state is folded over the deleted values in visiting order. -/
theorem rangeDelete_snd (p : V → Bool) (f : σ → V → σ) (m : GoMap K V) (s : σ) :
    (rangeDelete p f m s).2 = (released p m).foldl f s :=
  foldl_rangeDelete_snd p f m.entries m s

theorem mem_released {p : V → Bool} {m : GoMap K V} {v : V} :
    v ∈ released p m ↔ ∃ k, m.lookup k = some v ∧ p v = true := by
  simp only [released, List.mem_map, List.mem_filter]
  constructor
  · rintro ⟨⟨k, w⟩, ⟨hkw, hp⟩, rfl⟩
    exact ⟨k, AList.mem_lookup_iff.mpr hkw, hp⟩
  · rintro ⟨k, hk, hp⟩
    exact ⟨⟨k, v⟩, ⟨AList.mem_lookup_iff.mp hk, hp⟩, rfl⟩

end Range

/-! ### Comparing maps, and maps keyed from a list -/

section Equal

variable [DecidableEq V]

/-- `maps.Equal`: as many keys, and each key of the first map holds the same value in the
second. -/
def mapsEqual (m₁ m₂ : GoMap K V) : Bool :=
  m₁.entries.length == m₂.entries.length &&
    m₁.entries.all fun e ↦ m₂.lookup e.1 == some e.2

theorem mapsEqual_self (m : GoMap K V) : mapsEqual m m = true := by
  simp only [mapsEqual, beq_self_eq_true, Bool.true_and, List.all_eq_true, beq_iff_eq]
  intro e he
  exact AList.mem_lookup_iff.mpr he

end Equal

section Keyed

variable {W : Type} (key : W → K)

/-- Inserting values under their keys leaves a key that none of them has as it was. -/
theorem lookup_foldl_insert_of_not_mem (l : List W) (m : GoMap K W) {k : K}
    (hk : k ∉ l.map key) :
    (l.foldl (fun m w ↦ m.insert (key w) w) m).lookup k = m.lookup k := by
  induction l generalizing m with
  | nil => rfl
  | cons w l ih =>
    rw [List.map_cons, List.mem_cons, not_or] at hk
    rw [List.foldl_cons, ih _ hk.2, AList.lookup_insert_ne hk.1]

/-- Inserting values of distinct keys under their keys: each key then holds its value. -/
theorem lookup_foldl_insert_of_nodup (l : List W) (hl : (l.map key).Nodup) (m : GoMap K W)
    {w : W} (hw : w ∈ l) :
    (l.foldl (fun m w ↦ m.insert (key w) w) m).lookup (key w) = some w := by
  induction l generalizing m with
  | nil => cases hw
  | cons w' l ih =>
    rw [List.map_cons, List.nodup_cons] at hl
    rw [List.foldl_cons]
    rcases List.mem_cons.mp hw with rfl | hw
    · rw [lookup_foldl_insert_of_not_mem key l _ hl.1, AList.lookup_insert]
    · exact ih hl.2 _ hw

/-- A key looked up after inserting values made from a list's elements under their keys: it held
the value before, or an element has the key and makes the value. -/
theorem lookup_foldl_insert_eq_some (f : W → V) {l : List W} {m : GoMap K V} {k : K} {v : V}
    (h : (l.foldl (fun m w ↦ m.insert (key w) (f w)) m).lookup k = some v) :
    m.lookup k = some v ∨ ∃ w ∈ l, key w = k ∧ f w = v := by
  induction l generalizing m with
  | nil => exact .inl h
  | cons w l ih =>
    rw [List.foldl_cons] at h
    rcases ih h with hprev | ⟨w', hw', hkey, hval⟩
    · by_cases hk : k = key w
      · subst hk
        rw [AList.lookup_insert] at hprev
        exact .inr ⟨w, List.mem_cons_self, rfl, Option.some_inj.mp hprev⟩
      · rw [AList.lookup_insert_ne hk] at hprev
        exact .inl hprev
    · exact .inr ⟨w', List.mem_cons_of_mem _ hw', hkey, hval⟩

/-- A key is in a map after inserting, under each element's key, a value made from the element and
the map, when it was before or an element has it. -/
theorem mem_foldl_insert_iff (f : GoMap K V → W → V) (l : List W) (m : GoMap K V) (k : K) :
    k ∈ l.foldl (fun m w ↦ m.insert (key w) (f m w)) m ↔ k ∈ m ∨ k ∈ l.map key := by
  induction l generalizing m with
  | nil => simp
  | cons w l ih =>
    rw [List.foldl_cons, ih, AList.mem_insert, List.map_cons, List.mem_cons]
    tauto

/-- Appending each element of a list to the slice of its key (Go's
`m[k] = append(m[k], w)`): a key's slice grows by the elements with that key, in order. -/
theorem get_foldl_append (l : List W) (m : GoMap K (List W)) (k : K) :
    get (l.foldl (fun m w ↦ m.insert (key w) (get m (key w) [] ++ [w])) m) k [] =
      get m k [] ++ l.filter (key · = k) := by
  induction l generalizing m with
  | nil => simp
  | cons w l ih =>
    rw [List.foldl_cons, ih, List.filter_cons]
    by_cases hk : key w = k
    · subst hk
      simp
    · rw [get_insert_ne _ (Ne.symm hk)]
      simp [hk]

/-- The keys of a map after appending each element of a list to the slice of its key. -/
theorem mem_foldl_append (l : List W) (m : GoMap K (List W)) (k : K) :
    k ∈ l.foldl (fun m w ↦ m.insert (key w) (get m (key w) [] ++ [w])) m ↔
      k ∈ m ∨ k ∈ l.map key :=
  mem_foldl_insert_iff key (fun m w ↦ get m (key w) [] ++ [w]) l m k

/-- A loop over a map's entries that yields nothing except on one key yields what the entry of
that key yields. -/
theorem flatMap_entries_of_lookup {W : Type} {m : GoMap K V} {k : K} {v : V}
    (h : m.lookup k = some v) (f : (Σ _ : K, V) → List W)
    (hf : ∀ e ∈ m.entries, e.1 ≠ k → f e = []) :
    m.entries.flatMap f = f ⟨k, v⟩ := by
  have hmem : (⟨k, v⟩ : Σ _ : K, V) ∈ m.entries := AList.mem_lookup_iff.mp h
  clear h
  obtain ⟨l, hnd⟩ := m
  induction l with
  | nil => cases hmem
  | cons e l ih =>
    obtain ⟨hnotin, hnd⟩ := List.nodupKeys_cons.mp hnd
    have hrest : ∀ e' ∈ l, e'.1 ≠ k → f e' = [] := fun e' he' ↦ hf e' (List.mem_cons_of_mem e he')
    rw [List.flatMap_cons]
    by_cases hk : e.1 = k
    · -- the head is the entry of `k`, and no later entry has the key
      have he : e = ⟨k, v⟩ := by
        rcases List.mem_cons.mp hmem with h | h
        · exact h.symm
        · exact absurd (hk ▸ List.mem_keys_of_mem h) hnotin
      have hnil : l.flatMap f = [] := by
        refine List.flatMap_eq_nil_iff.mpr fun e' he' ↦ hrest e' he' ?_
        rintro rfl
        exact hnotin (hk ▸ List.mem_keys_of_mem he')
      rw [hnil, List.append_nil, he]
    · have hmem' : (⟨k, v⟩ : Σ _ : K, V) ∈ l := by
        rcases List.mem_cons.mp hmem with h | h
        · exact absurd (h ▸ rfl) hk
        · exact h
      rw [hf e List.mem_cons_self hk, List.nil_append]
      exact ih hnd hrest hmem'

/-- In a list of distinct keys, the first element with an element's key is that element. -/
theorem find?_key_eq_of_nodup {l : List W} (hl : (l.map key).Nodup) {w : W} (hw : w ∈ l) :
    l.find? (fun w' ↦ key w' = key w) = some w := by
  induction l with
  | nil => cases hw
  | cons w' l ih =>
    rw [List.map_cons, List.nodup_cons] at hl
    by_cases hkey : key w' = key w
    · -- the key is the head's, so the element is the head
      have hhead : w = w' := by
        rcases List.mem_cons.mp hw with h | h
        · exact h
        · exact absurd (hkey ▸ List.mem_map_of_mem h) hl.1
      rw [List.find?_cons_of_pos (by simpa using hkey), hhead]
    · have htail : w ∈ l := by
        rcases List.mem_cons.mp hw with h | h
        · exact absurd (h ▸ rfl) hkey
        · exact h
      rw [List.find?_cons_of_neg (by simpa using hkey)]
      exact ih hl.2 htail

end Keyed

end GoMap

/-! ### Go maps used as sets

A `map[K]struct{}` holds its keys only: the model keeps them in a list without repeats, and
`ports[k] = struct{}{}` is `List.insert`. -/

section GoSet

variable {K : Type} [DecidableEq K]

/-- A key is in a set after adding a list of keys when it was before or is in the list. -/
theorem mem_foldl_insert {s l : List K} {k : K} :
    k ∈ l.foldl (fun acc k ↦ acc.insert k) s ↔ k ∈ s ∨ k ∈ l := by
  induction l generalizing s with
  | nil => simp
  | cons k' l ih =>
    rw [List.foldl_cons, ih, List.mem_insert_iff, List.mem_cons]
    tauto

/-- Adding keys keeps a set free of repeats. -/
theorem nodup_foldl_insert {s : List K} (h : s.Nodup) (l : List K) :
    (l.foldl (fun acc k ↦ acc.insert k) s).Nodup := by
  induction l generalizing s with
  | nil => exact h
  | cons k l ih =>
    rw [List.foldl_cons]
    exact ih h.insert

end GoSet

end Wander.Lib
