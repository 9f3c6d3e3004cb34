import Wander.Lib.GoMap
import Wander.Lib.PrefixCode
import Mathlib.Data.List.Sort
import Mathlib.Logic.Relation

/-!
# `structs.ACLPolicyListHash` and the ACL cache

`CompileACLObject` sorts a token's policies by name and looks up the parsed ACL under the hash of
the sorted list; on a miss it parses the policies, builds the ACL and adds it under that key.
`ACLPolicyListHash` writes each policy's name and then its `ModifyIndex` as eight big-endian
bytes to BLAKE2b-256, with no separator.

Names that `ValidPolicyName` accepts have no zero byte, and an index below `2 ^ 56` starts with
one, so the zero after each name marks where it ends: the bytes of a policy are a prefix code
(`prefixFree_keyBytes`), and the bytes hashed determine the names and indices of the list
(`aclPolicyListHashInput_inj`). With a hash that has no collisions, an entry of the cache, which
only `CompileACLObject` fills and from which any entry may be evicted at any time, is only ever
returned for a list with the names and indices of the list that built it
(`reachable_cacheSound`).

The hash and the ACL's parser and constructor are parameters. `sort.Slice` is not stable, and
the sort here is insertion sort; every result below holds for the list as sorted, whatever the
order of equal names.
-/

set_option autoImplicit false
set_option relaxedAutoImplicit false

namespace Wander.Structs

open Wander.Lib

/-- The fields of `structs.ACLPolicy` that `CompileACLObject` reads. -/
structure ACLPolicy where
  name : String
  rules : String
  modifyIndex : ℕ
deriving DecidableEq, Repr

/-- The class `[a-zA-Z0-9-]` of `ValidPolicyName`. -/
def policyNameChar (c : Char) : Bool :=
  ('a' ≤ c && c ≤ 'z') || ('A' ≤ c && c ≤ 'Z') || ('0' ≤ c && c ≤ '9') || c = '-'

/-- `ValidPolicyName`: `^[a-zA-Z0-9-]{1,128}$`. -/
def validPolicyName (name : String) : Bool :=
  decide (1 ≤ name.length) && decide (name.length ≤ 128) && name.toList.all policyNameChar

/-- `[]byte(s)`: the UTF-8 encoding of a string. -/
def utf8Bytes (s : String) : List UInt8 := s.toList.flatMap String.utf8EncodeChar

/-- `binary.Write` of a `uint64` in big-endian order. -/
def putUint64 (v : ℕ) : List UInt8 :=
  [56, 48, 40, 32, 24, 16, 8, 0].map fun shift ↦ UInt8.ofNat (v >>> shift)

/-- What `ACLPolicyListHash` writes to the hash for a policy of this name and index. -/
def keyBytes (key : String × ℕ) : List UInt8 := utf8Bytes key.1 ++ putUint64 key.2

/-- The bytes `ACLPolicyListHash` writes to the hash. -/
def aclPolicyListHashInput (policies : List ACLPolicy) : List UInt8 :=
  policies.flatMap fun policy ↦ keyBytes (policy.name, policy.modifyIndex)

/-- `ACLPolicyListHash`, with `hash` for BLAKE2b-256. -/
def aclPolicyListHash {H : Type} (hash : List UInt8 → H) (policies : List ACLPolicy) : H :=
  hash (aclPolicyListHashInput policies)

/-- The sort of `CompileACLObject`, by name. -/
def sortByName (policies : List ACLPolicy) : List ACLPolicy :=
  policies.insertionSort fun p q ↦ p.name < q.name

/-! ### The bytes of a policy -/

/-- `utf8Bytes` reads the bytes Lean keeps for a string. -/
theorem utf8Bytes_eq (s : String) : utf8Bytes s = s.toByteArray.data.toList := by
  conv_rhs => rw [← String.ofList_toList (s := s)]
  rw [String.toByteArray_ofList, List.utf8Encode, List.toList_data_toByteArray]
  rfl

theorem policyNameChar_toNat {c : Char} (h : policyNameChar c = true) :
    45 ≤ c.toNat ∧ c.toNat ≤ 122 := by
  simp only [policyNameChar, Char.le_def, UInt32.le_iff_toNat_le, Bool.or_eq_true,
    Bool.and_eq_true, decide_eq_true_eq] at h
  rcases h with h | rfl
  · have hclass : ('a' : Char).toNat = 97 ∧ ('z' : Char).toNat = 122 ∧ ('A' : Char).toNat = 65 ∧
        ('Z' : Char).toNat = 90 ∧ ('0' : Char).toNat = 48 ∧ ('9' : Char).toNat = 57 := by decide
    simp only [Char.toNat_val] at h ⊢
    omega
  · decide

theorem policyNameChar_of_valid {name : String} (h : validPolicyName name = true) :
    ∀ c ∈ name.toList, policyNameChar c = true := by
  simp only [validPolicyName, Bool.and_eq_true, List.all_eq_true] at h
  exact h.2

/-- The characters of a valid name are ASCII, one byte each. -/
theorem utf8Bytes_of_valid {name : String} (h : validPolicyName name = true) :
    utf8Bytes name = name.toList.map fun c ↦ c.val.toUInt8 := by
  unfold utf8Bytes
  rw [List.flatMap_congr (g := pure ∘ fun c ↦ c.val.toUInt8), List.flatMap_pure_eq_map]
  intro c hc
  have hbound := policyNameChar_toNat (policyNameChar_of_valid h c hc)
  refine String.utf8EncodeChar_eq_singleton (Char.utf8Size_eq_one_iff.mpr ?_)
  rw [UInt32.le_iff_toNat_le]
  simp only [Char.toNat_val] at hbound ⊢
  exact le_trans hbound.2 (by decide)

theorem zero_not_mem_utf8Bytes {name : String} (h : validPolicyName name = true) :
    (0 : UInt8) ∉ utf8Bytes name := by
  rw [utf8Bytes_of_valid h, List.mem_map]
  rintro ⟨c, hc, hzero⟩
  have hbound := policyNameChar_toNat (policyNameChar_of_valid h c hc)
  have hbyte := congrArg UInt8.toNat hzero
  simp only [UInt32.toNat_toUInt8, Char.toNat_val, UInt8.toNat_zero] at hbyte
  omega

/-- A valid name is its bytes. -/
theorem utf8Bytes_inj {name₁ name₂ : String} (h₁ : validPolicyName name₁ = true)
    (h₂ : validPolicyName name₂ = true) (h : utf8Bytes name₁ = utf8Bytes name₂) :
    name₁ = name₂ := by
  -- each byte of a valid name reads back as its character
  have hdecode : ∀ name, validPolicyName name = true →
      (utf8Bytes name).map (fun b ↦ Char.ofNat b.toNat) = name.toList := by
    intro name hname
    rw [utf8Bytes_of_valid hname, List.map_map]
    conv_rhs => rw [← List.map_id name.toList]
    refine List.map_congr_left fun c hc ↦ ?_
    have hbound := policyNameChar_toNat (policyNameChar_of_valid hname c hc)
    simp only [Function.comp_apply, UInt32.toNat_toUInt8, Char.toNat_val, id_eq]
    rw [Nat.mod_eq_of_lt (by omega), Char.ofNat_toNat]
  exact String.ext (by rw [← hdecode name₁ h₁, ← hdecode name₂ h₂, h])

@[simp] theorem length_putUint64 (v : ℕ) : (putUint64 v).length = 8 := rfl

/-- An index below `2 ^ 56` starts with a zero byte. -/
theorem putUint64_eq_cons {v : ℕ} (hv : v < 2 ^ 56) : putUint64 v = 0 :: (putUint64 v).tail := by
  have htop : v >>> 56 = 0 := by
    rw [Nat.shiftRight_eq_div_pow]
    exact Nat.div_eq_of_lt hv
  simp [putUint64, htop]

theorem putUint64_inj {v₁ v₂ : ℕ} (h₁ : v₁ < 2 ^ 64) (h₂ : v₂ < 2 ^ 64)
    (h : putUint64 v₁ = putUint64 v₂) : v₁ = v₂ := by
  -- each byte is a digit of the index in base 256
  simp only [putUint64, List.map_cons, List.map_nil, List.cons.injEq, and_true,
    ← UInt8.toNat_inj, UInt8.toNat_ofNat', Nat.shiftRight_eq_div_pow] at h
  omega

/-- The policies `ValidPolicyName` accepts, with an index below `2 ^ 56`. -/
def ValidKey (key : String × ℕ) : Prop := validPolicyName key.1 = true ∧ key.2 < 2 ^ 56

/-- The bytes of a valid policy are a prefix code: its name ends at the first zero byte, and
eight bytes of index follow. -/
theorem prefixFree_keyBytes : PrefixFree keyBytes {key | ValidKey key} := by
  rintro ⟨name₁, index₁⟩ ⟨hname₁, hindex₁⟩ ⟨name₂, index₂⟩ ⟨hname₂, hindex₂⟩ hprefix
  dsimp only [keyBytes] at hname₁ hindex₁ hname₂ hindex₂ hprefix
  rw [putUint64_eq_cons hindex₁, putUint64_eq_cons hindex₂] at hprefix
  obtain ⟨hbytes, htail⟩ := eq_of_append_cons_prefix (zero_not_mem_utf8Bytes hname₁)
    (zero_not_mem_utf8Bytes hname₂) (by simp) hprefix
  have hindex : putUint64 index₁ = putUint64 index₂ := by
    rw [putUint64_eq_cons hindex₁, putUint64_eq_cons hindex₂, htail]
  rw [utf8Bytes_inj hname₁ hname₂ hbytes, putUint64_inj (by omega) (by omega) hindex]

/-- The bytes `ACLPolicyListHash` hashes determine the names and indices of a list of valid
policies. -/
theorem aclPolicyListHashInput_inj {policies₁ policies₂ : List ACLPolicy}
    (h₁ : ∀ p ∈ policies₁, ValidKey (p.name, p.modifyIndex))
    (h₂ : ∀ p ∈ policies₂, ValidKey (p.name, p.modifyIndex))
    (h : aclPolicyListHashInput policies₁ = aclPolicyListHashInput policies₂) :
    policies₁.map (fun p ↦ (p.name, p.modifyIndex)) =
      policies₂.map (fun p ↦ (p.name, p.modifyIndex)) := by
  -- the bytes are those of the names and indices, one after another
  have hkeys : ∀ policies : List ACLPolicy, aclPolicyListHashInput policies =
      (policies.map fun p ↦ (p.name, p.modifyIndex)).flatMap keyBytes := fun policies ↦ by
    simp [aclPolicyListHashInput, List.flatMap_map]
  rw [hkeys, hkeys] at h
  refine prefixFree_keyBytes.flatMap_inj (fun key _ ↦ ?_) ?_ ?_ h
  · -- every codeword carries eight bytes of index
    intro hnil
    have := congrArg List.length hnil
    simp [keyBytes] at this
  · simpa using h₁
  · simpa using h₂

section Compile

variable {H Policy ACL : Type} [DecidableEq H]

/-- The miss path of `CompileACLObject`: parse each policy, then build the ACL. Go's `%q` of a
valid name is the name in double quotes. -/
def buildACL (parse : String → Except String Policy) (newACL : List Policy → Except String ACL)
    (policies : List ACLPolicy) : Except String ACL := do
  let parsed ← policies.mapM fun policy ↦
    (parse policy.rules).mapError fun err ↦ "failed to parse \"" ++ policy.name ++ "\": " ++ err
  (newACL parsed).mapError fun err ↦ "failed to construct ACL: " ++ err

/-- `CompileACLObject`: the ACL and the cache after the call. -/
def compileACLObject (hash : List UInt8 → H) (parse : String → Except String Policy)
    (newACL : List Policy → Except String ACL) (cache : GoMap H ACL)
    (policies : List ACLPolicy) : Except String ACL × GoMap H ACL :=
  -- sort the policies to ensure consistent ordering
  let policies := sortByName policies
  let cacheKey := aclPolicyListHash hash policies
  match cache.lookup cacheKey with
  | some entry => (.ok entry, cache)
  | none =>
    match buildACL parse newACL policies with
    | .error err => (.error err, cache)
    | .ok aclObj => (.ok aclObj, cache.insert cacheKey aclObj)

/-! ### The cache over a run -/

variable (hash : List UInt8 → H) (parse : String → Except String Policy)
  (newACL : List Policy → Except String ACL)

/-- The steps that change an ACL cache: a call of `CompileACLObject` on policies with valid names
and indices below `2 ^ 56`, and the eviction of any entry. -/
inductive CacheStep : GoMap H ACL → GoMap H ACL → Prop
  | compile (cache : GoMap H ACL) (policies : List ACLPolicy) :
      (∀ p ∈ policies, ValidKey (p.name, p.modifyIndex)) →
      CacheStep cache (compileACLObject hash parse newACL cache policies).2
  | evict (cache : GoMap H ACL) (key : H) : CacheStep cache (cache.erase key)

/-- Every entry of the cache was built by `CompileACLObject` from valid policies, under the hash
of their sorted list. -/
def CacheSound (cache : GoMap H ACL) : Prop :=
  ∀ key aclObj, cache.lookup key = some aclObj →
    ∃ policies : List ACLPolicy, (∀ p ∈ policies, ValidKey (p.name, p.modifyIndex)) ∧
      key = aclPolicyListHash hash (sortByName policies) ∧
      buildACL parse newACL (sortByName policies) = .ok aclObj

variable {hash parse newACL}

/-- `CompileACLObject` adds an entry only on a miss, built from the sorted policies. -/
theorem compileACLObject_cache (cache : GoMap H ACL) (policies : List ACLPolicy) :
    (compileACLObject hash parse newACL cache policies).2 = cache ∨
      ∃ aclObj, buildACL parse newACL (sortByName policies) = .ok aclObj ∧
        (compileACLObject hash parse newACL cache policies).2 =
          cache.insert (aclPolicyListHash hash (sortByName policies)) aclObj := by
  unfold compileACLObject
  dsimp only
  split
  · exact .inl rfl
  · split
    · exact .inl rfl
    · exact .inr ⟨_, ‹_›, rfl⟩

/-- The step lemma. -/
theorem CacheSound.step {cache cache' : GoMap H ACL} (h : CacheSound hash parse newACL cache)
    (hstep : CacheStep hash parse newACL cache cache') : CacheSound hash parse newACL cache' := by
  cases hstep with
  | compile policies hvalid =>
    rcases compileACLObject_cache cache policies with hsame | ⟨built, hbuilt, hinsert⟩
    · rwa [hsame]
    · intro key aclObj hlookup
      rw [hinsert] at hlookup
      by_cases hkey : key = aclPolicyListHash hash (sortByName policies)
      · -- the new entry: built from these policies
        subst hkey
        rw [AList.lookup_insert, Option.some.injEq] at hlookup
        exact ⟨policies, hvalid, rfl, hlookup ▸ hbuilt⟩
      · rw [AList.lookup_insert_ne hkey] at hlookup
        exact h key aclObj hlookup
  | evict key =>
    intro key' aclObj hlookup
    by_cases hkey : key' = key
    · subst hkey
      rw [AList.lookup_erase] at hlookup
      cases hlookup
    · rw [AList.lookup_erase_ne hkey] at hlookup
      exact h key' aclObj hlookup

/-- The run lemma: a cache that starts empty stays sound. -/
theorem reachable_cacheSound {cache : GoMap H ACL}
    (hrun : Relation.ReflTransGen (CacheStep hash parse newACL) ∅ cache) :
    CacheSound hash parse newACL cache := by
  induction hrun with
  | refl => intro key aclObj hlookup; cases hlookup
  | tail _ hstep ih => exact ih.step hstep

/-- The ACL cache cannot confuse two policy sets. The bytes `ACLPolicyListHash` hashes determine
the names and indices of a list of policies with valid names and indices below `2 ^ 56`. So with a
hash without collisions, when `CompileACLObject` finds the ACL of valid policies in a cache filled
by such calls, it returns it unchanged, and the list that built it had, sorted by name, the same
names and indices as these policies sorted by name. -/
theorem compileACLObject_cached_same_policies (hhash : Function.Injective hash)
    {cache : GoMap H ACL} (hrun : Relation.ReflTransGen (CacheStep hash parse newACL) ∅ cache)
    {policies : List ACLPolicy} (hvalid : ∀ p ∈ policies, ValidKey (p.name, p.modifyIndex))
    {aclObj : ACL} (hhit : cache.lookup (aclPolicyListHash hash (sortByName policies)) = some aclObj) :
    (∀ policies₁ policies₂ : List ACLPolicy,
      (∀ p ∈ policies₁, ValidKey (p.name, p.modifyIndex)) →
      (∀ p ∈ policies₂, ValidKey (p.name, p.modifyIndex)) →
      aclPolicyListHashInput policies₁ = aclPolicyListHashInput policies₂ →
      policies₁.map (fun p ↦ (p.name, p.modifyIndex)) =
        policies₂.map (fun p ↦ (p.name, p.modifyIndex))) ∧
    compileACLObject hash parse newACL cache policies = (.ok aclObj, cache) ∧
    ∃ populating : List ACLPolicy, (∀ p ∈ populating, ValidKey (p.name, p.modifyIndex)) ∧
      buildACL parse newACL (sortByName populating) = .ok aclObj ∧
      (sortByName policies).map (fun p ↦ (p.name, p.modifyIndex)) =
        (sortByName populating).map (fun p ↦ (p.name, p.modifyIndex)) := by
  refine ⟨fun _ _ h₁ h₂ h ↦ aclPolicyListHashInput_inj h₁ h₂ h, by simp [compileACLObject, hhit], ?_⟩
  obtain ⟨populating, hpopulating, hkey, hbuilt⟩ := reachable_cacheSound hrun _ _ hhit
  -- sorting keeps the policies, so both sorted lists are valid
  have hsorted : ∀ l : List ACLPolicy, (∀ p ∈ l, ValidKey (p.name, p.modifyIndex)) →
      ∀ p ∈ sortByName l, ValidKey (p.name, p.modifyIndex) := fun l hl p hp ↦
    hl p ((List.perm_insertionSort _ l).mem_iff.mp hp)
  exact ⟨populating, hpopulating, hbuilt,
    aclPolicyListHashInput_inj (hsorted _ hvalid) (hsorted _ hpopulating) (hhash hkey)⟩

end Compile

/-- A policy that reads, named `web`. -/
def webPolicy : ACLPolicy := ⟨"web", "read", 7⟩

/-- The cache after `CompileACLObject` compiled `web` with a parser that keeps the rules. -/
def webCache : GoMap (List UInt8) (List String) :=
  (compileACLObject id (fun rules ↦ .ok rules) (fun parsed ↦ .ok parsed) ∅ [webPolicy]).2

theorem compileACLObject_cached_same_policies_web :
    Function.Injective (id : List UInt8 → List UInt8) ∧
      Relation.ReflTransGen
        (CacheStep id (fun rules ↦ .ok rules) (fun parsed : List String ↦ .ok parsed)) ∅ webCache ∧
      (∀ p ∈ [webPolicy], ValidKey (p.name, p.modifyIndex)) ∧
      webCache.lookup (aclPolicyListHash id (sortByName [webPolicy])) = some ["read"] ∧
      compileACLObject id (fun rules ↦ .ok rules) (fun parsed ↦ .ok parsed) webCache [webPolicy] =
        (.ok ["read"], webCache) := by
  have hvalid : ∀ p ∈ [webPolicy], ValidKey (p.name, p.modifyIndex) := by
    simp only [List.mem_singleton, forall_eq, ValidKey, webPolicy]
    decide
  have hrun : Relation.ReflTransGen
      (CacheStep id (fun rules ↦ .ok rules) (fun parsed : List String ↦ .ok parsed)) ∅ webCache :=
    .single (.compile ∅ [webPolicy] hvalid)
  have hhit : webCache.lookup (aclPolicyListHash id (sortByName [webPolicy])) = some ["read"] := by
    decide
  exact ⟨Function.injective_id, hrun, hvalid, hhit,
    (compileACLObject_cached_same_policies Function.injective_id hrun hvalid hhit).2.1⟩

end Wander.Structs
