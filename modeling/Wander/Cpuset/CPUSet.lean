import Mathlib.Data.Finset.Sort
import Mathlib.Order.Interval.Finset.Fin
import Wander.Lib.Strings

/-!
# `lib/cpuset`: the text form of a set of cores

A `CPUSet` is a `map[uint16]struct{}`, which is the set of its keys, and `nil` for the zero
value of the type. `String` prints the sorted cores as comma separated runs, `a` for a run of one
core and `a-b` for a longer one; `Parse` reads such a text back, expanding each range.

`String` prints runs whose cores are exactly the set's (`stringLoop_spec`), and `Parse` of
printed runs is their union (`parse_intercalate_runs`), so that `Parse` gives back every set with
a map (`parse_toString`), in particular every set `Parse` returned
(`parse_round_trip`). `Equal` is `reflect.DeepEqual` of the maps. Between sets with maps it is
being a subset and a superset (`equal_iff_isSubsetOf_isSupersetOf`), but it tells a nil map from an
empty one, which `IsSubsetOf` and `IsSupersetOf` do not: the zero `CPUSet` prints as the empty text,
and `Parse` of it is an empty set with a map that holds the same cores and is not `Equal` to it
(`parse_toString_zero`).
-/

set_option autoImplicit false
set_option relaxedAutoImplicit false

namespace Wander.Cpuset

open Wander.Lib

/-- A `uint16` core number; its arithmetic wraps. -/
abbrev Core := Fin (2 ^ 16)

/-- `math.MaxUint16`. -/
def maxUint16 : ℤ := 2 ^ 16 - 1

/-- `CPUSet`: the cores its map holds, `none` for the nil map of the zero value. -/
structure CPUSet where
  cpus : Option (Finset Core)
deriving DecidableEq

namespace CPUSet

/-- `New(cpus...)`. -/
def new (cpus : List Core) : CPUSet := ⟨some cpus.toFinset⟩

/-- `Size`; a nil map has length 0. -/
def size (c : CPUSet) : ℕ := (c.cpus.map Finset.card).getD 0

/-- `ToSlice`: the cores in increasing order. -/
def toSlice (c : CPUSet) : List Core := (c.cpus.map (·.sort (· ≤ ·))).getD []

/-- `Equal`: `reflect.DeepEqual` of the maps, which are equal when both are nil or both hold the
same keys. -/
def equal (c other : CPUSet) : Bool := decide (c.cpus = other.cpus)

/-- `IsSubsetOf`: every key of `c` is a key of `other`; `range` over a nil map reads no key and an
index of it finds none. -/
def isSubsetOf (c other : CPUSet) : Bool := decide (c.cpus.getD ∅ ⊆ other.cpus.getD ∅)

/-- `IsSupersetOf`: every key of `other` is a key of `c`. -/
def isSupersetOf (c other : CPUSet) : Bool := decide (other.cpus.getD ∅ ⊆ c.cpus.getD ∅)

/-- Between sets with maps, `Equal` is being a subset and a superset; only the nil map is told
apart from an empty one. -/
theorem equal_iff_isSubsetOf_isSupersetOf {c other : CPUSet} (hc : c.cpus ≠ none)
    (hother : other.cpus ≠ none) :
    c.equal other = true ↔ c.isSubsetOf other = true ∧ c.isSupersetOf other = true := by
  obtain ⟨s, hs⟩ := Option.ne_none_iff_exists'.mp hc
  obtain ⟨t, ht⟩ := Option.ne_none_iff_exists'.mp hother
  simp only [equal, isSubsetOf, isSupersetOf, hs, ht, Option.getD_some, decide_eq_true_eq,
    Option.some.injEq]
  exact ⟨fun h ↦ ⟨h.subset, h.symm.subset⟩, fun ⟨h₁, h₂⟩ ↦ Finset.Subset.antisymm h₁ h₂⟩

/-- The text of the run `cur`: `%d` of a run of one core, `%d-%d` of a longer one. -/
def runString (cur : Core × Core) : String :=
  if cur.1 = cur.2 then toString cur.1.val else toString cur.1.val ++ "-" ++ toString cur.2.val

/-- The loop of `String` over the cores after the first: a core one past the end of the current
run extends it, any other closes the run and starts a new one. -/
def stringLoop : List Core → Core × Core → List String → List String
  | [], cur, cpusetStrs => cpusetStrs ++ [runString cur]
  | core :: cores, cur, cpusetStrs =>
    if core = cur.2 + 1 then stringLoop cores (cur.1, core) cpusetStrs
    else stringLoop cores (core, core) (cpusetStrs ++ [runString cur])

/-- `String`. -/
def toString (c : CPUSet) : String :=
  if c.size = 0 then ""
  else
    match c.toSlice with
    | [] => ""
    | core :: cores => ",".intercalate (stringLoop cores (core, core) [])

end CPUSet

/-- Go's conversion `uint16(v)` of an int. -/
def uint16OfInt (v : ℤ) : Core := Fin.ofNat _ (v % 2 ^ 16).toNat

/-- `for v := lower; v <= upper; v++` of `Parse`, from `v`, on fuel: one turn per value. -/
def rangeLoop (set : String) (upper : ℤ) :
    ℕ → ℤ → Finset Core → Except String (Finset Core)
  | 0, _, cpus => .ok cpus
  | fuel + 1, v, cpus =>
    if v ≤ upper then
      if v > maxUint16 then
        .error ("failed to parse element " ++ set ++ ", more than max allowed cores")
      else rangeLoop set upper fuel (v + 1) (insert (uint16OfInt v) cpus)
    else .ok cpus

/-- One element of `Parse`'s comma separated list: a core or a range of cores. -/
def parseElement (cpus : Finset Core) (set : String) : Except String (Finset Core) :=
  match split set '-' with
  | [bound] => do
    let v ← atoiChecked bound
    if v > maxUint16 then
      .error ("failed to parse element " ++ set ++ ", more than max allowed cores")
    else .ok (insert (uint16OfInt v) cpus)
  | [lowerText, upperText] => do
    let lower ← atoiChecked lowerText
    let upper ← atoiChecked upperText
    rangeLoop set upper (upper + 1 - lower).toNat lower cpus
  | _ => .error ("failed to parse element " ++ set ++ ", more than 1 \x27-\x27 found")

/-- `Parse`. On an error Go also returns `New()`, which the error replaces here. -/
def parse (s : String) : Except String CPUSet :=
  let s := trimSpace s
  if s = "" then .ok (CPUSet.new [])
  else do
    let cpus ← (split s ',').foldlM parseElement ∅
    .ok ⟨some cpus⟩

/-! ### The runs `String` prints -/

/-- The cores of a list of runs. -/
def coveredBy (runs : List (Core × Core)) : Finset Core :=
  runs.foldr (fun r acc ↦ Finset.Icc r.1 r.2 ∪ acc) ∅

@[simp] theorem coveredBy_nil : coveredBy [] = ∅ := rfl

@[simp] theorem coveredBy_cons (r : Core × Core) (runs : List (Core × Core)) :
    coveredBy (r :: runs) = Finset.Icc r.1 r.2 ∪ coveredBy runs := rfl

/-- A core one past the end of a run, in `uint16`, extends the run by itself. -/
theorem Icc_of_eq_add_one {a b c : Core} (hab : a ≤ b) (hbc : b < c) (hc : c = b + 1) :
    Finset.Icc a c = insert c (Finset.Icc a b) := by
  -- `b + 1` does not wrap, since a core lies above `b`
  have hval : c.val = b.val + 1 := by
    have hmod : c.val = (b.val + 1) % 2 ^ 16 := by
      subst hc
      simp [Fin.val_add]
    rw [Fin.lt_def] at hbc
    omega
  rw [Fin.le_def] at hab
  ext x
  simp only [Finset.mem_Icc, Finset.mem_insert, Fin.le_def, Fin.ext_iff, hval]
  omega

/-- `String`'s loop prints runs that cover the current run and the cores left. -/
theorem stringLoop_spec : ∀ (cores : List Core) (cur : Core × Core) (cpusetStrs : List String),
    cur.1 ≤ cur.2 → cores.Pairwise (· < ·) → (∀ c ∈ cores, cur.2 < c) →
    ∃ runs : List (Core × Core), CPUSet.stringLoop cores cur cpusetStrs =
        cpusetStrs ++ runs.map CPUSet.runString ∧ runs ≠ [] ∧ (∀ r ∈ runs, r.1 ≤ r.2) ∧
      coveredBy runs = Finset.Icc cur.1 cur.2 ∪ cores.toFinset
  | [], cur, cpusetStrs, hcur, _, _ => by
    refine ⟨[cur], rfl, List.cons_ne_nil _ _, ?_, by simp⟩
    simpa using hcur
  | core :: cores, cur, cpusetStrs, hcur, hsorted, habove => by
    obtain ⟨hcore, hsorted⟩ := List.pairwise_cons.mp hsorted
    have hlt : cur.2 < core := habove core List.mem_cons_self
    simp only [CPUSet.stringLoop]
    split_ifs with hnext
    · -- the core extends the current run
      obtain ⟨runs, heq, hne, hle, hcov⟩ := stringLoop_spec cores (cur.1, core) cpusetStrs
        (hcur.trans hlt.le) hsorted hcore
      refine ⟨runs, heq, hne, hle, ?_⟩
      rw [hcov, Icc_of_eq_add_one hcur hlt hnext, List.toFinset_cons]
      ext x
      simp only [Finset.mem_union, Finset.mem_insert]
      tauto
    · -- the core starts a new run
      obtain ⟨runs, heq, hne, hle, hcov⟩ := stringLoop_spec cores (core, core)
        (cpusetStrs ++ [CPUSet.runString cur]) le_rfl hsorted hcore
      refine ⟨cur :: runs, by rw [heq]; simp, List.cons_ne_nil _ _, ?_, ?_⟩
      · intro r hr
        rcases List.mem_cons.mp hr with rfl | hr
        · exact hcur
        · exact hle r hr
      · rw [coveredBy_cons, hcov, Finset.Icc_self, List.toFinset_cons]
        ext x
        simp only [Finset.mem_union, Finset.mem_insert, Finset.mem_singleton]

/-- `String` of a set with a map prints runs whose cores are the set's. -/
theorem toString_eq_runs {cpus : Finset Core} (hne : cpus.Nonempty) :
    ∃ runs : List (Core × Core), (CPUSet.toString ⟨some cpus⟩) =
        ",".intercalate (runs.map CPUSet.runString) ∧ runs ≠ [] ∧ (∀ r ∈ runs, r.1 ≤ r.2) ∧
      coveredBy runs = cpus := by
  have hsize : CPUSet.size ⟨some cpus⟩ ≠ 0 := by
    simp [CPUSet.size, Finset.card_ne_zero.mpr hne]
  have hsorted := Finset.pairwise_sort cpus (· ≤ ·)
  have hstrict : (cpus.sort (· ≤ ·)).Pairwise (· < ·) :=
    (hsorted.and (Finset.sort_nodup cpus (· ≤ ·))).imp fun ⟨hle, hne⟩ ↦ lt_of_le_of_ne hle hne
  have hset : (cpus.sort (· ≤ ·)).toFinset = cpus := Finset.sort_toFinset cpus (· ≤ ·)
  unfold CPUSet.toString
  rw [if_neg hsize]
  simp only [CPUSet.toSlice, Option.map_some, Option.getD_some]
  cases hsort : cpus.sort (· ≤ ·) with
  | nil =>
    rw [hsort] at hset
    exact absurd (hset ▸ hne) (by simp)
  | cons core cores =>
    rw [hsort] at hstrict hset
    obtain ⟨hcore, hcores⟩ := List.pairwise_cons.mp hstrict
    obtain ⟨runs, heq, hruns, hle, hcov⟩ := stringLoop_spec cores (core, core) [] le_rfl hcores hcore
    refine ⟨runs, by dsimp only; rw [heq, List.nil_append], hruns, hle, ?_⟩
    rw [hcov, ← hset, Finset.Icc_self, List.toFinset_cons, Finset.insert_eq]

/-! ### Reading the runs back -/

/-- The cores from `lower` to `upper`, as `Parse`'s range loop counts them. -/
def coresBetween (lower upper : ℤ) : Finset Core :=
  Finset.univ.filter fun c : Core ↦ lower ≤ c.val ∧ (c.val : ℤ) ≤ upper

/-- `uint16(v)` of a value in range is that value. -/
theorem uint16OfInt_val {v : ℤ} (h0 : 0 ≤ v) (h : v ≤ maxUint16) :
    ((uint16OfInt v).val : ℤ) = v := by
  unfold uint16OfInt
  unfold maxUint16 at h
  rw [Fin.val_ofNat, Int.emod_eq_of_lt h0 (by omega)]
  omega

theorem uint16OfInt_natCast (c : Core) : uint16OfInt c.val = c := by
  have hlt := c.isLt
  have hval := uint16OfInt_val (v := c.val) (by omega) (by unfold maxUint16; omega)
  exact Fin.ext (by omega)

theorem Icc_eq_coresBetween (a b : Core) : Finset.Icc a b = coresBetween a.val b.val := by
  ext c
  simp only [coresBetween, Finset.mem_Icc, Finset.mem_filter, Finset.mem_univ, true_and,
    Fin.le_def]
  omega

theorem coresBetween_eq_empty {v upper : ℤ} (h : upper < v) : coresBetween v upper = ∅ := by
  rw [coresBetween, Finset.filter_eq_empty_iff]
  intro c _
  omega

/-- The range loop's turn at `v` adds the core `v`. -/
theorem coresBetween_eq_insert {v upper : ℤ} (hv : 0 ≤ v) (hle : v ≤ upper)
    (hupper : upper ≤ maxUint16) :
    coresBetween v upper = insert (uint16OfInt v) (coresBetween (v + 1) upper) := by
  have hval := uint16OfInt_val hv (hle.trans hupper)
  ext c
  simp only [coresBetween, Finset.mem_insert, Finset.mem_filter, Finset.mem_univ, true_and,
    Fin.ext_iff]
  omega

/-- The range loop from `v` adds the cores from `v` to a `uint16` bound `upper`, given a turn
for each. -/
theorem rangeLoop_eq (set : String) {upper : ℤ} (hupper : upper ≤ maxUint16) :
    ∀ (fuel : ℕ) (v : ℤ) (cpus : Finset Core), 0 ≤ v → (upper + 1 - v).toNat ≤ fuel →
      rangeLoop set upper fuel v cpus = .ok (cpus ∪ coresBetween v upper)
  | 0, v, cpus, _, hfuel => by
    rw [rangeLoop, coresBetween_eq_empty (by omega), Finset.union_empty]
  | fuel + 1, v, cpus, hv, hfuel => by
    unfold rangeLoop
    split_ifs with hle hmax
    · unfold maxUint16 at hupper hmax
      omega
    · rw [rangeLoop_eq set hupper fuel (v + 1) _ (by omega) (by omega),
        coresBetween_eq_insert hv hle hupper, Finset.insert_union, Finset.union_insert]
    · rw [coresBetween_eq_empty (by omega), Finset.union_empty]

/-- `Parse` reads the text of a run back as its cores (none, for bounds the wrong way round). -/
theorem parseElement_runString (cpus : Finset Core) (r : Core × Core) :
    parseElement cpus (CPUSet.runString r) = .ok (cpus ∪ Finset.Icc r.1 r.2) := by
  have hbound : ∀ c : Core, c.val < 2 ^ 63 := fun c ↦ c.isLt.trans (by decide)
  have hmax : ∀ c : Core, (c.val : ℤ) ≤ maxUint16 := fun c ↦ by
    have := c.isLt
    unfold maxUint16
    omega
  unfold CPUSet.runString
  split_ifs with hone
  · -- one core: the text has no '-'
    rw [parseElement, split_of_not_mem (not_mem_toString (by decide) _)]
    simp only [atoiChecked_toString (hbound r.1), bind, Except.bind]
    rw [if_neg (not_lt.mpr (hmax r.1)), uint16OfInt_natCast, ← hone, Finset.Icc_self,
      Finset.union_comm, ← Finset.insert_eq]
  · -- a range: the text is the two bounds around one '-'
    have hdash : "-" = String.singleton '-' := rfl
    rw [parseElement, hdash, split_append_singleton (not_mem_toString (by decide) _)
      (not_mem_toString (by decide) _)]
    simp only [atoiChecked_toString (hbound r.1), atoiChecked_toString (hbound r.2), bind,
      Except.bind]
    rw [rangeLoop_eq _ (hmax r.2) _ _ _ (by omega) le_rfl, Icc_eq_coresBetween]

/-- `Parse`'s fold over the texts of runs adds the cores they cover. -/
theorem foldlM_parseElement_runs (runs : List (Core × Core)) (acc : Finset Core) :
    (runs.map CPUSet.runString).foldlM parseElement acc = .ok (acc ∪ coveredBy runs) := by
  induction runs generalizing acc with
  | nil => simp [pure, Except.pure]
  | cons r runs ih =>
    rw [List.map_cons, List.foldlM_cons, parseElement_runString acc r]
    simp only [bind, Except.bind]
    rw [ih, coveredBy_cons, Finset.union_assoc]

/-- The text of a run is made of digits and one '-' at most. -/
theorem mem_runString {r : Core × Core} {c : Char} (hc : c ∈ (CPUSet.runString r).toList) :
    c.isDigit = true ∨ c = '-' := by
  unfold CPUSet.runString at hc
  split_ifs at hc
  · exact Or.inl (isDigit_of_mem_toString hc)
  · simp only [String.toList_append, List.mem_append] at hc
    rcases hc with (hc | hc) | hc
    · exact Or.inl (isDigit_of_mem_toString hc)
    · exact Or.inr (by simpa using hc)
    · exact Or.inl (isDigit_of_mem_toString hc)

theorem runString_ne_empty (r : Core × Core) : CPUSet.runString r ≠ "" := by
  intro h
  have hlist := congrArg String.toList h
  have hdigits : (toString r.1.val).toList ≠ [] := by
    rw [show (toString r.1.val).toList = Nat.toDigits 10 r.1.val from Nat.toList_repr]
    exact Nat.toDigits_ne_nil
  unfold CPUSet.runString at hlist
  split_ifs at hlist <;> simp_all

/-- `Parse` of the text `String` prints for runs is the set of the cores they cover. -/
theorem parse_intercalate_runs {runs : List (Core × Core)} (hne : runs ≠ []) :
    parse (",".intercalate (runs.map CPUSet.runString)) = .ok ⟨some (coveredBy runs)⟩ := by
  have hcomma : "," = String.singleton ',' := rfl
  have hsplit : split (",".intercalate (runs.map CPUSet.runString)) ',' =
      runs.map CPUSet.runString := by
    rw [hcomma]
    refine split_intercalate (by simpa using hne) fun t ht hc ↦ ?_
    obtain ⟨r, _, rfl⟩ := List.mem_map.mp ht
    rcases mem_runString hc with h | h
    · exact absurd h (by decide)
    · exact absurd h (by decide)
  -- the text has no white space to trim
  have htrim : trimSpace (",".intercalate (runs.map CPUSet.runString)) =
      ",".intercalate (runs.map CPUSet.runString) := by
    refine trimSpace_of_forall (forall_mem_intercalate (by simp [isSpace]) ?_)
    intro t ht c hc
    obtain ⟨r, _, rfl⟩ := List.mem_map.mp ht
    rcases mem_runString hc with h | rfl
    · exact isSpace_of_isDigit h
    · decide
  have hnonempty : ",".intercalate (runs.map CPUSet.runString) ≠ "" := by
    intro h
    rw [h] at hsplit
    obtain ⟨r, runs', rfl⟩ := List.exists_cons_of_ne_nil hne
    have hhead : CPUSet.runString r = "" ∧ runs' = [] := by
      simpa [split] using hsplit.symm
    exact runString_ne_empty r hhead.1
  unfold parse
  simp only [htrim, if_neg hnonempty, hsplit, foldlM_parseElement_runs, Finset.empty_union,
    bind, Except.bind]

/-! ### The round trip -/

/-- `Parse` gives back every set with a map from its text. -/
theorem parse_toString {c : CPUSet} (hc : c.cpus ≠ none) : parse c.toString = .ok c := by
  obtain ⟨cpus, hcpus⟩ := Option.ne_none_iff_exists'.mp hc
  obtain ⟨_⟩ := c
  subst hcpus
  rcases cpus.eq_empty_or_nonempty with rfl | hne
  · -- the empty set prints as the empty text, which `Parse` reads as `New()`
    rfl
  · obtain ⟨runs, htext, hruns, -, hcov⟩ := toString_eq_runs hne
    rw [htext, parse_intercalate_runs hruns, hcov]

/-- A set `Parse` returns has a map. -/
theorem parse_cpus_ne_none {s : String} {c : CPUSet} (h : parse s = .ok c) : c.cpus ≠ none := by
  unfold parse at h
  dsimp only at h
  split_ifs at h
  · cases h
    simp [CPUSet.new]
  · cases hfold : (split (trimSpace s) ',').foldlM parseElement ∅ with
    | error e =>
      simp only [hfold, bind, Except.bind] at h
      cases h
    | ok cpus =>
      simp only [hfold, bind, Except.bind, Except.ok.injEq] at h
      simp [← h]

theorem parse_round_trip :
    (∀ c : CPUSet, c.cpus ≠ none → ∃ d, parse c.toString = .ok d ∧ d.equal c = true) ∧
    ∀ s c, parse s = .ok c → ∃ d, parse c.toString = .ok d ∧ d.equal c = true := by
  have hequal : ∀ c : CPUSet, c.equal c = true := fun c ↦ decide_eq_true rfl
  refine ⟨fun c hc ↦ ⟨c, parse_toString hc, hequal c⟩, fun s c h ↦ ?_⟩
  exact ⟨c, parse_toString (parse_cpus_ne_none h), hequal c⟩

theorem parse_round_trip_three :
    (CPUSet.new [3, 4, 7]).cpus ≠ none ∧ ∃ d, parse (CPUSet.new [3, 4, 7]).toString = .ok d ∧
      d.equal (CPUSet.new [3, 4, 7]) = true :=
  ⟨by simp [CPUSet.new], parse_round_trip.1 _ (by simp [CPUSet.new])⟩

/-- The zero `CPUSet` prints as the empty text, and `Parse` of that is `New()`. The two hold the
same cores, each a subset and a superset of the other, but `Equal` compares the maps and tells the
empty one from the nil one. -/
theorem parse_toString_zero :
    parse (CPUSet.toString ⟨none⟩) = .ok (CPUSet.new []) ∧
      (CPUSet.new []).isSubsetOf ⟨none⟩ = true ∧ (CPUSet.new []).isSupersetOf ⟨none⟩ = true ∧
      (CPUSet.new []).equal ⟨none⟩ = false :=
  ⟨rfl, rfl, rfl, rfl⟩

end Wander.Cpuset
