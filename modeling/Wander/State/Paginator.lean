import Wander.State.StateStore
import Wander.Lib.Strings
import Mathlib.Data.List.Sort

/-!
# `nomad/state/paginator`: paged listing

A list endpoint walks a state-store iterator from its start on every call and hands each object to
the paginator. An object is skipped while the token the caller passed back (`NextToken`) has not
been reached: while its token, compared as a Go string, comes before the seeking token. Objects
the filters refuse are skipped too. A page holds up to `PerPage` objects, and the token of the
first object past the page is the next token; the page that reaches the end of the iterator gets
the empty token.

`listAll` is the caller's loop: start with the empty token and feed the returned token back until
it is empty. When the tokens along the iterator increase in string order (decrease, for a reverse
listing), the loop returns every object the filters pass once, in the iterator's order, at most
`PerPage` to a page (`listAll_eq_filter`). The tokens of `Deployment.List`, `Eval.List` and
`Alloc.List` without a prefix are `CreateIndex.ID`, with the index printed in decimal, while the
iterator orders by the index as a number: `10.` comes before `9.` as a string, and
`deploymentList_repeats_page` shows the loop returning the first page for ever.
-/

set_option autoImplicit false
set_option relaxedAutoImplicit false

namespace Wander.State

open Wander.Lib Wander.Structs

namespace Paginator

/-- `paginatorState`: what the page does with the object just read. -/
inductive PaginatorState
  | include
  | skip
  | complete
deriving DecidableEq, Repr

/-- The query options the paginator reads. `PerPage` is an `int32` of the request; zero means no
limit. -/
structure QueryOptions where
  perPage : ℤ := 0
  nextToken : String := ""
  reverse : Bool := false
deriving DecidableEq, Repr

/-- A `Filter`'s `Evaluate`: whether the object goes on the page, or the error that ends it. -/
def evalFilters {α : Type} : List (α → Except String Bool) → α → Except String Bool
  | [], _ => .ok true
  | f :: fs, raw =>
    match f raw with
    | .error err => .error err
    | .ok false => .ok false
    | .ok true => evalFilters fs raw

end Paginator

open Paginator

/-- `Paginator`, less its iterator, which `page` is given, and its append function, which only
collects the page here. -/
structure Paginator (α : Type) where
  tokenizer : α → String
  filters : List (α → Except String Bool)
  perPage : ℤ
  itemCount : ℕ := 0
  seekingToken : String
  nextToken : String := ""
  reverse : Bool
  nextTokenFound : Bool
  pageErr : Option String := none

namespace Paginator

variable {α : Type}

/-- `NewPaginator`, for filters already built: the bexpr filter of the request is one of them. -/
def newPaginator (tokenizer : α → String) (filters : List (α → Except String Bool))
    (opts : QueryOptions) : Paginator α :=
  { tokenizer := tokenizer
    filters := filters
    perPage := opts.perPage
    seekingToken := opts.nextToken
    reverse := opts.reverse
    nextTokenFound := opts.nextToken = "" }

/-- Whether a token lies strictly before the seeking token in the listing's direction. -/
def passed (reverse : Bool) (token seekingToken : String) : Bool :=
  if reverse then stringLess seekingToken token else stringLess token seekingToken

/-- `Paginator.next` on an object the iterator returned. -/
def visit (p : Paginator α) (raw : α) : PaginatorState × Paginator α :=
  let token := p.tokenizer raw
  let p := { p with nextToken := token }
  if !p.nextTokenFound && passed p.reverse token p.seekingToken then (.skip, p)
  else
    match evalFilters p.filters raw with
    | .error err => (.complete, { p with pageErr := some err })
    | .ok false => (.skip, p)
    | .ok true =>
      let p := { p with nextTokenFound := true, itemCount := p.itemCount + 1 }
      -- the object past a full page is not put on it: its token is the next one
      if p.perPage ≠ 0 ∧ (p.itemCount : ℤ) > p.perPage then (.complete, p) else (.include, p)

/-- `Paginator.Page` over what the iterator still holds: the objects put on the page, and the
paginator after, whose `nextToken` and `pageErr` the source returns. -/
def page (p : Paginator α) : List α → List α × Paginator α
  | [] => ([], { p with nextToken := "" })
  | raw :: rest =>
    match p.visit raw with
    | (.include, p') =>
      let r := page p' rest
      (raw :: r.1, r.2)
    | (.skip, p') => page p' rest
    | (.complete, p') => ([], p')

/-- One call of a list endpoint over its iterator: the page and the next token, or the page's
error. -/
def call (tokenizer : α → String) (filters : List (α → Except String Bool))
    (opts : QueryOptions) (iter : List α) : Except String (List α × String) :=
  let r := page (newPaginator tokenizer filters opts) iter
  match r.2.pageErr with
  | some err => .error err
  | none => .ok (r.1, r.2.nextToken)

/-- The caller's loop: call with the token, and with each returned token again until it is empty;
the pages, or `none` when a call fails or the fuel ends first. -/
def listAll (list : String → Except String (List α × String)) : ℕ → String → Option (List (List α))
  | 0, _ => none
  | fuel + 1, token =>
    match list token with
    | .error _ => none
    | .ok (items, next) =>
      if next = "" then some [items] else (listAll list fuel next).map (items :: ·)

/-- A call that hands back the token it was given never lets the loop end. -/
theorem listAll_eq_none_of_fixed {list : String → Except String (List α × String)}
    {token : String} {items : List α} (hfix : list token = .ok (items, token))
    (hne : token ≠ "") (fuel : ℕ) : listAll list fuel token = none := by
  induction fuel with
  | zero => rfl
  | succ fuel ih => simp [listAll, hfix, hne, ih]

/-! ### Pages over an iterator ordered by its tokens -/

theorem passed_trans {r : Bool} {a b c : String} (hab : passed r a b = true)
    (hbc : passed r b c = true) : passed r a c = true := by
  cases r <;> simp only [passed, stringLess, decide_eq_true_eq, Bool.false_eq_true,
    ↓reduceIte] at hab hbc ⊢
  · exact List.lt_trans hab hbc
  · exact List.lt_trans hbc hab

theorem passed_irrefl (r : Bool) (a : String) : passed r a a = false := by
  cases r <;> simp only [passed, stringLess, Bool.false_eq_true, ↓reduceIte,
    decide_eq_false_iff_not] <;> exact List.lt_irrefl _

theorem passed_asymm {r : Bool} {a b : String} (h : passed r a b = true) :
    passed r b a = false := by
  cases r <;> simp only [passed, stringLess, decide_eq_true_eq, decide_eq_false_iff_not,
    Bool.false_eq_true, ↓reduceIte] at h ⊢ <;> exact List.lt_asymm h

/-- An object not before the seeking token is followed by objects not before it either. -/
theorem not_passed_of_after {r : Bool} {a b t : String} (ha : passed r a t = false)
    (hab : passed r a b = true) : passed r b t = false := by
  cases hb : passed r b t with
  | false => rfl
  | true => rw [passed_trans hab hb] at ha; cases ha

section Sorted

variable (tok : α → String) (filters : List (α → Except String Bool)) (f : α → Bool)
  (r : Bool) (k : ℤ)

/-- The next token a page names: that of the first object past it, or the empty token. -/
def tokenOf (l : List α) : String :=
  match l.head? with
  | some y => tok y
  | none => ""

/-- The objects a page seeking a token can return: those the filters pass, from the first not
before the token on. -/
def remaining (t : String) (M : List α) : List α :=
  (M.filter f).filter fun x ↦ !passed r (tok x) t

/-- A paginator of the listing, with the given progress on its page. -/
structure Listing (p : Paginator α) (found : Bool) (count : ℕ) : Prop where
  tokenizer : p.tokenizer = tok
  filters : p.filters = filters
  perPage : p.perPage = k
  reverse : p.reverse = r
  nextTokenFound : p.nextTokenFound = found
  itemCount : p.itemCount = count
  pageErr : p.pageErr = none

variable {tok filters f r k}

/-- Once the seeking token is found, a page takes the next objects the filters pass, up to the
limit, and names the one after them. -/
theorem page_found (hk : 0 < k) {M : List α} (hfilt : ∀ x ∈ M, evalFilters filters x = .ok (f x))
    {p : Paginator α} {c : ℕ} (hp : Listing tok filters r k p true c) (hc : (c : ℤ) ≤ k) :
    (page p M).1 = (M.filter f).take (k.toNat - c) ∧
      (page p M).2.nextToken = tokenOf tok ((M.filter f).drop (k.toNat - c)) ∧
      (page p M).2.pageErr = none := by
  induction M generalizing p c with
  | nil => simp [page, tokenOf, hp.pageErr]
  | cons x M ih =>
    have hx := hfilt x List.mem_cons_self
    have hM : ∀ y ∈ M, evalFilters filters y = .ok (f y) :=
      fun y hy ↦ hfilt y (List.mem_cons_of_mem x hy)
    have hk0 : k ≠ 0 := by omega
    cases hfx : f x with
    | false =>
      -- refused by the filters: the page goes on with the same count
      have hvisit : p.visit x = (.skip, { p with nextToken := tok x }) := by
        simp [visit, hp.nextTokenFound, hp.filters, hp.tokenizer, hx, hfx]
      have hp' : Listing tok filters r k { p with nextToken := tok x } true c :=
        ⟨hp.tokenizer, hp.filters, hp.perPage, hp.reverse, hp.nextTokenFound, hp.itemCount,
          hp.pageErr⟩
      simpa [page, hvisit, hfx] using ih hM hp' hc
    | true =>
      by_cases hfull : (c : ℤ) + 1 > k
      · -- the object past a full page: it ends the page and its token is the next one
        have hck : k.toNat - c = 0 := by omega
        have hvisit : p.visit x = (.complete,
            { p with
              nextToken := tok x
              nextTokenFound := true
              itemCount := c + 1 }) := by
          simp [visit, hp.nextTokenFound, hp.filters, hp.tokenizer, hp.perPage, hp.itemCount,
            hx, hfx, hk0, hfull]
        simp [page, hvisit, hck, hfx, tokenOf, hp.pageErr]
      · have hvisit : p.visit x = (.include,
            { p with
              nextToken := tok x
              nextTokenFound := true
              itemCount := c + 1 }) := by
          simp [visit, hp.nextTokenFound, hp.filters, hp.tokenizer, hp.perPage, hp.itemCount,
            hx, hfx, hfull]
        have hp' : Listing tok filters r k
            { p with
              nextToken := tok x
              nextTokenFound := true
              itemCount := c + 1 } true (c + 1) :=
          ⟨hp.tokenizer, hp.filters, hp.perPage, hp.reverse, rfl, rfl, hp.pageErr⟩
        have hrest := ih hM hp' (by omega)
        have hsplit : k.toNat - c = (k.toNat - (c + 1)) + 1 := by omega
        simp only [page, hvisit, List.filter_cons, hfx, ↓reduceIte, hsplit, List.take_succ_cons,
          List.drop_succ_cons]
        exact ⟨by rw [hrest.1], hrest.2⟩

theorem remaining_of_not_passed {t : String} {M : List α}
    (h : ∀ y ∈ M, passed r (tok y) t = false) : remaining tok f r t M = M.filter f := by
  unfold remaining
  rw [List.filter_eq_self]
  intro y hy
  simp [h y (List.mem_of_mem_filter hy)]

/-- Before its token is found a page skips what lies before it; from there on it takes the next
objects the filters pass, as a page that has found its token, when the iterator is ordered by its
tokens. -/
theorem page_seek (hk : 0 < k) {M : List α} (hfilt : ∀ x ∈ M, evalFilters filters x = .ok (f x))
    (hsorted : M.Pairwise fun x y ↦ passed r (tok x) (tok y) = true)
    {p : Paginator α} (hp : Listing tok filters r k p false 0) :
    (page p M).1 = (remaining tok f r p.seekingToken M).take k.toNat ∧
      (page p M).2.nextToken = tokenOf tok ((remaining tok f r p.seekingToken M).drop k.toNat) ∧
      (page p M).2.pageErr = none := by
  induction M generalizing p with
  | nil => simp [page, remaining, tokenOf, hp.pageErr]
  | cons x M ih =>
    have hx := hfilt x List.mem_cons_self
    have hM : ∀ y ∈ M, evalFilters filters y = .ok (f y) :=
      fun y hy ↦ hfilt y (List.mem_cons_of_mem x hy)
    obtain ⟨hafter, hsortedM⟩ := List.pairwise_cons.mp hsorted
    have hp' : Listing tok filters r k { p with nextToken := tok x } false 0 :=
      ⟨hp.tokenizer, hp.filters, hp.perPage, hp.reverse, hp.nextTokenFound, hp.itemCount,
        hp.pageErr⟩
    cases hpass : passed r (tok x) p.seekingToken with
    | true =>
      -- before the token: skipped whatever the filters say
      have hvisit : p.visit x = (.skip, { p with nextToken := tok x }) := by
        simp [visit, hp.nextTokenFound, hp.tokenizer, hp.reverse, hpass]
      have hrem : remaining tok f r p.seekingToken (x :: M) =
          remaining tok f r p.seekingToken M := by
        cases hfx : f x <;> simp [remaining, hfx, hpass]
      simpa [page, hvisit, hrem] using ih hM hsortedM hp'
    | false =>
      -- the token is reached: nothing after it lies before it
      have hrest : ∀ y ∈ M, passed r (tok y) p.seekingToken = false :=
        fun y hy ↦ not_passed_of_after hpass (hafter y hy)
      have hall : ∀ y ∈ x :: M, passed r (tok y) p.seekingToken = false := by
        intro y hy
        rcases List.mem_cons.mp hy with rfl | hy
        · exact hpass
        · exact hrest y hy
      rw [remaining_of_not_passed hall]
      cases hfx : f x with
      | false =>
        have hvisit : p.visit x = (.skip, { p with nextToken := tok x }) := by
          simp [visit, hp.nextTokenFound, hp.filters, hp.tokenizer, hp.reverse, hpass, hx, hfx]
        have := ih hM hsortedM hp'
        rw [remaining_of_not_passed hrest] at this
        simpa [page, hvisit, hfx] using this
      | true =>
        have hk0 : k ≠ 0 := by omega
        have hvisit : p.visit x = (.include,
            { p with
              nextToken := tok x
              nextTokenFound := true
              itemCount := 1 }) := by
          simp [visit, hp.nextTokenFound, hp.filters, hp.tokenizer, hp.reverse, hp.perPage,
            hp.itemCount, hpass, hx, hfx, hk0]
          omega
        have hp1 : Listing tok filters r k
            { p with
              nextToken := tok x
              nextTokenFound := true
              itemCount := 1 } true 1 :=
          ⟨hp.tokenizer, hp.filters, hp.perPage, hp.reverse, rfl, rfl, hp.pageErr⟩
        have hfound := page_found hk hM hp1 (by omega)
        have hsplit : k.toNat = (k.toNat - 1) + 1 := by omega
        simp only [page, hvisit, List.filter_cons, hfx, ↓reduceIte]
        rw [hsplit, List.take_succ_cons, List.drop_succ_cons]
        exact ⟨by rw [hfound.1], hfound.2⟩

/-- In a list ordered by its tokens, what lies not before the `m`-th object is the list from it
on. -/
theorem filter_not_passed_getElem {F : List α}
    (hsorted : F.Pairwise fun x y ↦ passed r (tok x) (tok y) = true) (m : ℕ) (hm : m < F.length) :
    F.filter (fun x ↦ !passed r (tok x) (tok F[m])) = F.drop m := by
  induction F generalizing m with
  | nil => simp at hm
  | cons x F ih =>
    obtain ⟨hafter, hsortedF⟩ := List.pairwise_cons.mp hsorted
    cases m with
    | zero =>
      -- the object itself and all after it stay
      have hkeep : ∀ z ∈ F, passed r (tok z) (tok x) = false :=
        fun z hz ↦ passed_asymm (hafter z hz)
      simp only [List.getElem_cons_zero, List.filter_cons, passed_irrefl, Bool.not_false,
        ↓reduceIte, List.drop_zero, List.cons.injEq, true_and]
      rw [List.filter_eq_self]
      intro z hz
      simp [hkeep z hz]
    | succ m =>
      have hm' : m < F.length := by simpa using hm
      have hx : passed r (tok x) (tok F[m]) = true := hafter _ (List.getElem_mem hm')
      simp only [List.getElem_cons_succ, List.filter_cons, hx, Bool.not_true,
        Bool.false_eq_true, ↓reduceIte, List.drop_succ_cons]
      exact ih hsortedF m hm'

theorem tokenOf_drop (F : List α) (n : ℕ) :
    tokenOf tok (F.drop n) = if h : n < F.length then tok F[n] else "" := by
  unfold tokenOf
  rw [List.head?_drop]
  by_cases h : n < F.length <;> simp [h]

/-- The first call, with the empty token, starts from the first object. -/
theorem call_empty (hk : 0 < k) {M : List α}
    (hfilt : ∀ x ∈ M, evalFilters filters x = .ok (f x)) :
    call tok filters { perPage := k, nextToken := "", reverse := r } M =
      .ok ((M.filter f).take k.toNat, tokenOf tok ((M.filter f).drop k.toNat)) := by
  have hp : Listing tok filters r k
      (newPaginator tok filters { perPage := k, nextToken := "", reverse := r }) true 0 :=
    ⟨rfl, rfl, rfl, rfl, by simp [newPaginator], rfl, rfl⟩
  have h := page_found hk hfilt hp (by omega)
  simp only [Nat.sub_zero] at h
  simp [call, h.1, h.2.1, h.2.2]

/-- A later call, with a token, resumes at that token. -/
theorem call_token (hk : 0 < k) {M : List α}
    (hfilt : ∀ x ∈ M, evalFilters filters x = .ok (f x))
    (hsorted : M.Pairwise fun x y ↦ passed r (tok x) (tok y) = true) {t : String} (ht : t ≠ "") :
    call tok filters { perPage := k, nextToken := t, reverse := r } M =
      .ok ((remaining tok f r t M).take k.toNat, tokenOf tok ((remaining tok f r t M).drop k.toNat)) := by
  have hp : Listing tok filters r k
      (newPaginator tok filters { perPage := k, nextToken := t, reverse := r }) false 0 :=
    ⟨rfl, rfl, rfl, rfl, by simp [newPaginator, ht], rfl, rfl⟩
  have h := page_seek hk hfilt hsorted hp
  simp only [call, h.2.2]
  rw [h.1, h.2.1]
  rfl

section Loop

variable {M : List α}

/-- From a call that resumes at the `m`-th object the filters pass, the loop returns the rest of
them, a page at a time. -/
theorem listAll_from (hk : 0 < k) (hfilt : ∀ x ∈ M, evalFilters filters x = .ok (f x))
    (hsorted : M.Pairwise fun x y ↦ passed r (tok x) (tok y) = true)
    (hne : ∀ x ∈ M, tok x ≠ "") (fuel m : ℕ) (hm : m < (M.filter f).length)
    (hfuel : (M.filter f).length - m ≤ fuel) :
    ∃ pages, listAll (fun t ↦ call tok filters { perPage := k, nextToken := t, reverse := r } M)
        fuel (tok (M.filter f)[m]) = some pages ∧
      pages.flatten = (M.filter f).drop m ∧ ∀ pg ∈ pages, pg.length ≤ k.toNat := by
  induction fuel generalizing m with
  | zero => omega
  | succ fuel ih =>
    have hsortedF : (M.filter f).Pairwise fun x y ↦ passed r (tok x) (tok y) = true :=
      hsorted.sublist List.filter_sublist
    have hy : tok (M.filter f)[m] ≠ "" := hne _ (List.mem_of_mem_filter (List.getElem_mem hm))
    -- the call resumes exactly at the `m`-th object
    have hrem : remaining tok f r (tok (M.filter f)[m]) M = (M.filter f).drop m :=
      filter_not_passed_getElem hsortedF m hm
    have hcall := call_token hk hfilt hsorted hy
    rw [hrem, List.drop_drop, tokenOf_drop] at hcall
    simp only [listAll, hcall]
    by_cases hmore : m + k.toNat < (M.filter f).length
    · -- a full page, and the loop goes on from the object after it
      have hnext : tok (M.filter f)[m + k.toNat] ≠ "" :=
        hne _ (List.mem_of_mem_filter (List.getElem_mem hmore))
      obtain ⟨pages, hpages, hflat, hlen⟩ := ih (m + k.toNat) hmore (by omega)
      refine ⟨((M.filter f).drop m).take k.toNat :: pages, ?_, ?_, ?_⟩
      · simp [hmore, hnext, hpages]
      · rw [List.flatten_cons, hflat, ← List.drop_drop, List.take_append_drop]
      · intro pg hpg
        rcases List.mem_cons.mp hpg with rfl | hpg
        · simp
        · exact hlen pg hpg
    · -- the last page
      refine ⟨[((M.filter f).drop m).take k.toNat], by simp [hmore], ?_, ?_⟩
      · rw [List.flatten_singleton, List.take_of_length_le]
        simp only [List.length_drop]
        omega
      · simp

/-- The caller's loop returns every object the filters pass once, in the iterator's order and at
most `PerPage` to a page, when the iterator is ordered by its tokens in the listing's direction
and no token is empty. -/
theorem listAll_eq_filter (hk : 0 < k) (hfilt : ∀ x ∈ M, evalFilters filters x = .ok (f x))
    (hsorted : M.Pairwise fun x y ↦ passed r (tok x) (tok y) = true)
    (hne : ∀ x ∈ M, tok x ≠ "") (fuel : ℕ) (hfuel : (M.filter f).length < fuel) :
    ∃ pages, listAll (fun t ↦ call tok filters { perPage := k, nextToken := t, reverse := r } M)
        fuel "" = some pages ∧
      pages.flatten = M.filter f ∧ ∀ pg ∈ pages, pg.length ≤ k.toNat := by
  obtain ⟨fuel, rfl⟩ : ∃ n, fuel = n + 1 := ⟨fuel - 1, by omega⟩
  have hcall : call tok filters { perPage := k, nextToken := "", reverse := r } M = _ :=
    call_empty hk hfilt
  rw [tokenOf_drop] at hcall
  simp only [listAll, hcall]
  by_cases hmore : k.toNat < (M.filter f).length
  · -- a full first page, and the loop goes on from the object after it
    have hnext : tok (M.filter f)[k.toNat] ≠ "" :=
      hne _ (List.mem_of_mem_filter (List.getElem_mem hmore))
    obtain ⟨pages, hpages, hflat, hlen⟩ :=
      listAll_from hk hfilt hsorted hne fuel k.toNat hmore (by omega)
    refine ⟨(M.filter f).take k.toNat :: pages, ?_, ?_, ?_⟩
    · simp [hmore, hnext, hpages]
    · rw [List.flatten_cons, hflat, List.take_append_drop]
    · intro pg hpg
      rcases List.mem_cons.mp hpg with rfl | hpg
      · simp
      · exact hlen pg hpg
  · refine ⟨[(M.filter f).take k.toNat], by simp [hmore], ?_, ?_⟩
    · rw [List.flatten_singleton, List.take_of_length_le (by omega)]
    · simp

/-- Three objects with the one-digit tokens `1`, `2` and `3`, two to a page. -/
theorem listAll_eq_filter_digits :
    ∃ pages, listAll (fun t ↦ call (toString : ℕ → String) [] { perPage := 2, nextToken := t }
        [1, 2, 3]) 4 "" = some pages ∧
      pages.flatten = [1, 2, 3].filter (fun _ ↦ true) ∧ ∀ pg ∈ pages, pg.length ≤ (2 : ℤ).toNat :=
  listAll_eq_filter (by decide) (fun _ _ ↦ rfl) (by decide) (by decide) 4 (by decide)

end Loop

end Sorted

end Paginator

/-- `StructsTokenizer.GetToken` for the options `WithCreateIndex` and `WithID`. -/
def createIndexIDToken (createIndex : ℕ) (id : String) : String :=
  String.intercalate "." [toString createIndex, id]

/-- `paginator.NamespaceFilter`: with no allowable set every namespace passes. -/
def namespaceFilter (allowableNamespaces : Option (List String)) (ns : String) :
    Except String Bool :=
  match allowableNamespaces with
  | none => .ok true
  | some allowed => .ok (ns ∈ allowed)

namespace StateStore

/-- `StateStore.Deployments`: the `create` index, by `CreateIndex` as a number and then by ID,
backwards for a reverse sort. -/
def deploymentsByCreate (s : StateStore) (reverse : Bool) : List Deployment :=
  let ordered := (GoMap.values s.deployments).insertionSort fun a b ↦
    a.createIndex < b.createIndex ∨ (a.createIndex = b.createIndex ∧ stringLess a.id b.id)
  if reverse then ordered.reverse else ordered

end StateStore

/-- `Deployment.List` in all namespaces, without a prefix: the `create` index, tokens
`CreateIndex.ID`, and the namespaces the token may read. -/
def deploymentList (s : StateStore) (allowableNamespaces : Option (List String))
    (opts : QueryOptions) : Except String (List Deployment × String) :=
  Paginator.call (fun d ↦ createIndexIDToken d.createIndex d.id)
    [fun d ↦ namespaceFilter allowableNamespaces d.namespace] opts
    (s.deploymentsByCreate opts.reverse)

/-! ### Indexes of different lengths -/

/-- A deployment of the job `web` created at an index. -/
def pageDeployment (id : String) (createIndex : ℕ) : Deployment :=
  { id := id
    «namespace» := defaultNamespace
    jobID := "web"
    jobCreateIndex := 1
    status := .running
    createIndex := createIndex
    modifyIndex := createIndex }

/-- A store with deployments created at the indexes 9 and 10. -/
def pageStore : StateStore :=
  { namespaces := [defaultNamespace]
    nodePools := [nodePoolDefault]
    jobs := ∅
    evals := ∅
    allocs := ∅
    deployments := ((∅ : GoMap String Deployment).insert "d9" (pageDeployment "d9" 9)).insert
      "d10" (pageDeployment "d10" 10) }

/-- `Deployment.List` of `pageStore`, one deployment to a page, called with a token. -/
def pageList (token : String) : Except String (List Deployment × String) :=
  deploymentList pageStore none { perPage := 1, nextToken := token }

/-- The first page holds `d9` and names `10.d10` next. Called with that token, the listing starts
again from `d9`, since `9.d9` does not come before `10.d10` as a string, and returns the same page
and token: the caller's loop never ends and never sees `d10`. -/
theorem deploymentList_repeats_page :
    pageList "" = .ok ([pageDeployment "d9" 9], "10.d10") ∧
      pageList "10.d10" = .ok ([pageDeployment "d9" 9], "10.d10") ∧
      ∀ fuel, listAll pageList fuel "" = none := by
  have hfirst : pageList "" = .ok ([pageDeployment "d9" 9], "10.d10") := by decide
  have hagain : pageList "10.d10" = .ok ([pageDeployment "d9" 9], "10.d10") := by decide
  refine ⟨hfirst, hagain, fun fuel ↦ ?_⟩
  cases fuel with
  | zero => rfl
  | succ fuel => simp [listAll, hfirst, listAll_eq_none_of_fixed hagain (by decide) fuel]

end Wander.State
