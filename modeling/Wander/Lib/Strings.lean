import Mathlib
import Wander.Lib.Except

/-!
# Go's string helpers

The functions of Go's strings and strconv packages that the modelled code calls, and Go's
conversion of an int to a uint. They work on a string's list of characters, so that a check on a
fixed string can be decided by evaluation. The parsers return the text of the error Go's NumError
prints.

`parseUint_eq_ok_iff` says which texts ParseUint accepts: the decimal numerals (`IsDecimal`)
whose value fits a uint64.
-/

set_option autoImplicit false
set_option relaxedAutoImplicit false

namespace Wander.Lib

/-- strings.HasPrefix. -/
def hasPrefix (s pre : String) : Bool := pre.toList.isPrefixOf s.toList

/-- strings.HasSuffix. -/
def hasSuffix (s suf : String) : Bool := suf.toList.isSuffixOf s.toList

/-- strings.TrimPrefix. -/
def trimPrefix (s pre : String) : String :=
  if hasPrefix s pre then String.ofList (s.toList.drop pre.toList.length) else s

/-- strings.TrimSuffix. -/
def trimSuffix (s suf : String) : String :=
  if hasSuffix s suf then String.ofList (s.toList.take (s.toList.length - suf.toList.length))
  else s

/-- strings.Split(s, sep) for a separator of one character: the pieces between its occurrences,
one empty piece for an empty string. -/
def split (s : String) (sep : Char) : List String := (s.toList.splitOn sep).map String.ofList

/-- A text without the separator is one piece. -/
theorem split_of_not_mem {s : String} {c : Char} (h : c ∉ s.toList) : split s c = [s] := by
  simp [split, List.splitOn_eq_singleton h]

/-- Two pieces without the separator, joined by it, split back into those two. -/
theorem split_append_singleton {a b : String} {c : Char} (ha : c ∉ a.toList)
    (hb : c ∉ b.toList) : split (a ++ String.singleton c ++ b) c = [a, b] := by
  simp [split, List.splitOn_append_cons_self_of_not_mem ha, List.splitOn_eq_singleton hb]

/-- A text that splits into one piece is that piece. -/
theorem eq_of_split_eq_singleton {s t : String} {c : Char} (h : split s c = [t]) : s = t := by
  obtain ⟨l, hl, rfl⟩ := List.map_eq_singleton_iff.mp h
  -- joining the pieces with the separator gives the text back
  have hjoin : [c].intercalate (s.toList.splitOn c) = s.toList := List.intercalate_splitOn c
  rw [hl] at hjoin
  simp at hjoin
  rw [hjoin, String.ofList_toList]

/-- A text that splits into two pieces is the two joined by the separator. -/
theorem eq_of_split_eq_pair {s a b : String} {c : Char} (h : split s c = [a, b]) :
    s = a ++ String.singleton c ++ b := by
  obtain ⟨la, l₁, hl, rfl, h₁⟩ := List.map_eq_cons_iff.mp h
  obtain ⟨lb, hl₁, rfl⟩ := List.map_eq_singleton_iff.mp h₁
  have hjoin : [c].intercalate (s.toList.splitOn c) = s.toList := List.intercalate_splitOn c
  rw [hl, hl₁] at hjoin
  rw [← String.toList_inj]
  simp [← hjoin]

/-- unicode.IsSpace: the Latin-1 spaces and the other characters of Unicode's White_Space. -/
def isSpace (c : Char) : Bool :=
  c.toNat ∈ [0x09, 0x0A, 0x0B, 0x0C, 0x0D, 0x20, 0x85, 0xA0, 0x1680, 0x2028, 0x2029, 0x202F,
    0x205F, 0x3000] || (0x2000 ≤ c.toNat && c.toNat ≤ 0x200A)

/-- strings.TrimSpace. -/
def trimSpace (s : String) : String :=
  String.ofList ((s.toList.dropWhile isSpace).reverse.dropWhile isSpace).reverse

/-- Go's `%v` on a slice of strings: the strings between brackets, separated by spaces. -/
def formatStrings (l : List String) : String := "[" ++ " ".intercalate l ++ "]"

/-- Go's string comparison `a < b`: bytewise, which on UTF-8 is the order of the code points. -/
def stringLess (a b : String) : Bool := decide (a.toList < b.toList)

/-- The NumError text of a failed parse by the strconv function named `fn`. -/
def numError (fn s err : String) : String :=
  let q := quoted s
  s!"strconv.{fn}: parsing {q}: {err}"

/-- The digit loop of strconv.ParseUint in base 10 for 64 bits: digits are read from the left,
and the first character that is no digit, or the first digit that overflows, ends the parse. -/
def parseUintDigits (n : ℕ) : List Char → Except String ℕ
  | [] => .ok n
  | c :: cs =>
    if c.isDigit then
      let n' := 10 * n + (c.toNat - '0'.toNat)
      if n' < 2 ^ 64 then parseUintDigits n' cs else .error "value out of range"
    else .error "invalid syntax"

/-- strconv.ParseUint(s, 10, 64). -/
def parseUint (s : String) : Except String ℕ :=
  let err := fun e ↦ numError "ParseUint" s e
  if s.toList = [] then .error (err "invalid syntax")
  else match parseUintDigits 0 s.toList with
    | .ok n => .ok n
    | .error e => .error (err e)

/-- The value of the decimal digits `cs` read after the value `n`, most significant first. -/
def digitsValue (n : ℕ) (cs : List Char) : ℕ :=
  cs.foldl (fun n c ↦ 10 * n + (c.toNat - '0'.toNat)) n

/-- `s` is a decimal numeral of value `n`: a nonempty run of the digits 0 to 9. -/
def IsDecimal (s : String) (n : ℕ) : Prop :=
  s.toList ≠ [] ∧ (∀ c ∈ s.toList, c.isDigit) ∧ digitsValue 0 s.toList = n

@[simp] theorem digitsValue_nil (n : ℕ) : digitsValue n [] = n := by
  rw [digitsValue, List.foldl_nil]

@[simp] theorem digitsValue_cons (n : ℕ) (c : Char) (cs : List Char) :
    digitsValue n (c :: cs) = digitsValue (10 * n + (c.toNat - '0'.toNat)) cs := by
  rw [digitsValue, digitsValue, List.foldl_cons]

/-- Reading more digits never lowers the value. -/
theorem le_digitsValue (n : ℕ) (cs : List Char) : n ≤ digitsValue n cs := by
  induction cs generalizing n with
  | nil => exact Nat.le_refl n
  | cons c cs ih =>
    rw [digitsValue_cons]
    exact Nat.le_trans (by omega) (ih _)

/-- The digit loop of ParseUint succeeds exactly on digits whose value fits a uint64. -/
theorem parseUintDigits_eq_ok_iff {n m : ℕ} (hn : n < 2 ^ 64) (cs : List Char) :
    parseUintDigits n cs = .ok m ↔ (∀ c ∈ cs, c.isDigit) ∧ digitsValue n cs = m ∧ m < 2 ^ 64 := by
  induction cs generalizing n with
  | nil =>
    simp only [parseUintDigits, Except.ok.injEq, List.not_mem_nil, digitsValue_nil]
    constructor
    · rintro rfl
      exact ⟨fun _ h ↦ h.elim, rfl, hn⟩
    · rintro ⟨-, rfl, -⟩
      rfl
  | cons c cs ih =>
    rw [parseUintDigits, digitsValue_cons, List.forall_mem_cons]
    by_cases hc : c.isDigit
    · rw [if_pos hc]
      by_cases hlt : 10 * n + (c.toNat - '0'.toNat) < 2 ^ 64
      · rw [if_pos hlt, ih hlt]
        simp [hc]
      · -- the value is already out of range, and reading on only raises it
        rw [if_neg hlt]
        have := le_digitsValue (10 * n + (c.toNat - '0'.toNat)) cs
        simp only [reduceCtorEq, false_iff]
        omega
    · rw [if_neg hc]
      simp [hc]

/-- strconv.ParseUint(s, 10, 64) succeeds exactly on a decimal numeral below 2^64. -/
theorem parseUint_eq_ok_iff {s : String} {n : ℕ} :
    parseUint s = .ok n ↔ IsDecimal s n ∧ n < 2 ^ 64 := by
  unfold parseUint IsDecimal
  by_cases hs : s.toList = []
  · simp [hs]
  · rw [if_neg hs]
    simp only [ne_eq, hs, not_false_eq_true, true_and, and_assoc]
    rw [← parseUintDigits_eq_ok_iff (by decide : 0 < 2 ^ 64)]
    cases parseUintDigits 0 s.toList <;> simp

/-- strconv.Atoi, as the value it returns: an optional sign and the digits strconv.ParseUint
reads; a syntax error gives 0 and a value out of range the int64 bound it passes. -/
def atoi (s : String) : ℤ :=
  let (neg, ds) : Bool × List Char := match s.toList with
    | '+' :: ds => (false, ds)
    | '-' :: ds => (true, ds)
    | ds => (false, ds)
  -- ParseUint reports a value out of range as the largest uint64, which the bounds then clamp
  let un : Option ℕ :=
    if ds = [] then none
    else match parseUintDigits 0 ds with
      | .ok n => some n
      | .error e => if e = "value out of range" then some (2 ^ 64 - 1) else none
  match un with
  | none => 0
  | some un =>
    if neg = false ∧ 2 ^ 63 ≤ un then 2 ^ 63 - 1
    else if neg = true ∧ 2 ^ 63 < un then -2 ^ 63
    else if neg then -un else un

/-- Go's conversion uint(x) of an int: its value modulo 2^64. -/
def uintOfInt (x : ℤ) : ℕ := (x % 2 ^ 64).toNat

theorem uintOfInt_natCast {n : ℕ} (h : n < 2 ^ 64) : uintOfInt n = n := by
  unfold uintOfInt
  omega

/-- A uint converted from an int is below 2^64. -/
theorem uintOfInt_lt (x : ℤ) : uintOfInt x < 2 ^ 64 := by
  unfold uintOfInt
  omega

/-- An int that fits a uint converts to itself. -/
theorem natCast_uintOfInt {x : ℤ} (h0 : 0 ≤ x) (h : x < 2 ^ 64) : (uintOfInt x : ℤ) = x := by
  unfold uintOfInt
  omega

/-- strconv.Atoi with its error: an optional sign and the digits strconv.ParseUint reads, whose
value must fit an int64. -/
def atoiChecked (s : String) : Except String ℤ :=
  let (neg, ds) : Bool × List Char := match s.toList with
    | '+' :: ds => (false, ds)
    | '-' :: ds => (true, ds)
    | ds => (false, ds)
  if ds = [] then .error (numError "Atoi" s "invalid syntax")
  else match parseUintDigits 0 ds with
    | .error e => .error (numError "Atoi" s e)
    | .ok un =>
      if (neg = false ∧ 2 ^ 63 ≤ un) ∨ (neg = true ∧ 2 ^ 63 < un) then
        .error (numError "Atoi" s "value out of range")
      else .ok (if neg then -un else un)

theorem digitsValue_append_singleton (n : ℕ) (cs : List Char) (c : Char) :
    digitsValue n (cs ++ [c]) = 10 * digitsValue n cs + (c.toNat - '0'.toNat) := by
  rw [digitsValue, List.foldl_append, List.foldl_cons, List.foldl_nil]
  rfl

/-- The decimal digits of a number read back to it. -/
theorem digitsValue_toDigits (n : ℕ) : digitsValue 0 (Nat.toDigits 10 n) = n := by
  induction n using Nat.strongRecOn with
  | ind n ih =>
    rw [Nat.toDigits_eq_if (by decide)]
    split_ifs with hn
    · simp [Nat.toNat_digitChar_sub_48_of_lt_ten hn]
    · rw [digitsValue_append_singleton, ih (n / 10) (by omega),
        show '0'.toNat = 48 from rfl, Nat.toNat_digitChar_sub_48_of_lt_ten (Nat.mod_lt n (by omega))]
      omega

/-- `%d` of a number below 2^63 is read back by strconv.Atoi. -/
theorem atoiChecked_toString {n : ℕ} (h : n < 2 ^ 63) : atoiChecked (toString n) = .ok n := by
  have hdigits : ∀ c ∈ Nat.toDigits 10 n, c.isDigit :=
    fun c hc ↦ Nat.isDigit_of_mem_toDigits (by decide) (by decide) hc
  have hparse : parseUintDigits 0 (Nat.toDigits 10 n) = .ok n :=
    (parseUintDigits_eq_ok_iff (by decide) _).mpr ⟨hdigits, digitsValue_toDigits n, by omega⟩
  have htoList : (toString n).toList = Nat.toDigits 10 n := Nat.toList_repr
  -- the first character is a digit, so there is no sign
  obtain ⟨d, rest, hdr⟩ := List.exists_cons_of_ne_nil (Nat.toDigits_ne_nil (b := 10) (n := n))
  have hd : d.isDigit := hdigits d (by rw [hdr]; exact List.mem_cons_self)
  have hplus : d ≠ '+' := by rintro rfl; exact absurd hd (by decide)
  have hminus : d ≠ '-' := by rintro rfl; exact absurd hd (by decide)
  unfold atoiChecked
  rw [htoList, hdr]
  split
  rename_i neg ds heq
  obtain ⟨rfl, rfl⟩ : neg = false ∧ ds = d :: rest := by
    split at heq
    · rename_i hcons; exact absurd (List.cons.inj hcons).1 hplus
    · rename_i hcons; exact absurd (List.cons.inj hcons).1 hminus
    · simp only [Prod.mk.injEq] at heq
      exact ⟨heq.1.symm, heq.2.symm⟩
  rw [if_neg (List.cons_ne_nil d rest), ← hdr, hparse]
  simp only [Bool.false_eq_true, false_and, or_false, true_and, if_false]
  rw [if_neg (by omega)]

/-- strings.TrimSpace leaves a text without white space as it is. -/
theorem trimSpace_of_forall {s : String} (h : ∀ c ∈ s.toList, isSpace c = false) :
    trimSpace s = s := by
  have hdrop : ∀ l : List Char, (∀ c ∈ l, isSpace c = false) → l.dropWhile isSpace = l := by
    intro l hl
    cases l with
    | nil => rfl
    | cons c l => simp [hl c List.mem_cons_self]
  unfold trimSpace
  rw [hdrop _ h, hdrop _ (fun c hc ↦ h c (List.mem_reverse.mp hc)), List.reverse_reverse,
    String.ofList_toList]

/-- Pieces without the separator, joined by it, split back into the pieces. -/
theorem split_intercalate {l : List String} {c : Char} (hl : l ≠ [])
    (hc : ∀ t ∈ l, c ∉ t.toList) : split ((String.singleton c).intercalate l) c = l := by
  rw [split, String.toList_intercalate, String.toList_singleton,
    List.splitOn_intercalate c (by simpa using hc) (by simpa using hl), List.map_map]
  conv_rhs => rw [← List.map_id l]
  apply List.map_congr_left
  intro t _
  exact String.ofList_toList

/-- A property of every character of the separator and of the pieces holds of every character of
the pieces joined by the separator. -/
theorem forall_mem_intercalate {p : Char → Prop} {sep : String} (hs : ∀ c ∈ sep.toList, p c) :
    ∀ {l : List String}, (∀ t ∈ l, ∀ c ∈ t.toList, p c) → ∀ c ∈ (sep.intercalate l).toList, p c
  | [], _ => by simp
  | [t], hl => by simpa using hl t
  | t :: u :: l, hl => by
    rw [String.intercalate_cons_cons]
    intro c hc
    simp only [String.toList_append, List.mem_append] at hc
    rcases hc with (hc | hc) | hc
    · exact hl t List.mem_cons_self c hc
    · exact hs c hc
    · exact forall_mem_intercalate hs (fun t' ht' ↦ hl t' (List.mem_cons_of_mem _ ht')) c hc

/-- A decimal digit is no white space. -/
theorem isSpace_of_isDigit {c : Char} (h : c.isDigit = true) : isSpace c = false := by
  simp only [Char.isDigit, Bool.and_eq_true, decide_eq_true_eq] at h
  have hlo : 48 ≤ c.toNat := h.1
  have hhi : c.toNat ≤ 57 := h.2
  simp only [isSpace, Bool.or_eq_false_iff, Bool.and_eq_false_iff, decide_eq_false_iff_not,
    List.mem_cons, List.not_mem_nil, not_or, Nat.not_le, not_false_eq_true, and_true]
  omega

/-- `%d` of a natural number is made of decimal digits. -/
theorem isDigit_of_mem_toString {n : ℕ} {c : Char} (h : c ∈ (toString n).toList) :
    c.isDigit = true := by
  have htoList : (toString n).toList = Nat.toDigits 10 n := Nat.toList_repr
  rw [htoList] at h
  exact Nat.isDigit_of_mem_toDigits (by decide) (by decide) h

/-- A character that is no digit does not occur in `%d` of a number. -/
theorem not_mem_toString {c : Char} (hc : c.isDigit = false) (n : ℕ) :
    c ∉ (toString n).toList := fun h ↦ by
  rw [isDigit_of_mem_toString h] at hc
  exact Bool.noConfusion hc

/-- strconv.ParseBool. -/
def parseBool (s : String) : Except String Bool :=
  if s ∈ ["1", "t", "T", "TRUE", "true", "True"] then .ok true
  else if s ∈ ["0", "f", "F", "FALSE", "false", "False"] then .ok false
  else .error (numError "ParseBool" s "invalid syntax")

end Wander.Lib
