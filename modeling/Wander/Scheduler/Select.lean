import Wander.Lib.Iterator

/-!
# `scheduler/select.go` and `scheduler/rank.go`: limiting the ranked nodes

A `RankIterator` hands out ranked nodes one `Next` at a time and starts over on `Reset`. Its
observable behaviour from a state is the sequence it yields up to nil (`Yields`). The
`StaticRankIterator` of a slice yields the slice rotated to its offset after each `Reset`
(`StaticRankIterator.yields_reset`).

The `LimitIterator` hands out at most `limit` of its source's nodes, setting aside up to `maxSkip`
nodes whose `FinalScore` is at most `scoreThreshold` while the source has more, and replaying the
nodes set aside once the source returns nil. A node in hand may be set aside a second time. What
the iterator can still hand out is the source's remaining sequence followed by the nodes set aside
and not replayed (`pool`): each call that returns a node takes exactly that node out of it
(`next_cases`), so that after a `Reset` the iterator yields distinct nodes of the source, as many
as the limit allows.

The `MaxScoreIterator` at the end of `GenericStack.Select` consumes its source and keeps a node
only when it scores strictly above the one kept: its loop is the fold of Mathlib's `List.argmax`
(`keep_eq_argAux`), so that over the limit iterator it returns the first highest-scored of the
nodes handed out (`yields_argmax_limited`).
-/

set_option autoImplicit false
set_option relaxedAutoImplicit false

namespace Wander.Scheduler

open Wander.Lib

/-- `RankIterator`: `Next` and `Reset` on the iterator's state `σ`, for ranked nodes `α`. -/
structure RankIterator (σ α : Type) where
  next : σ → Option α × σ
  reset : σ → σ

/-! ### `StaticRankIterator` -/

/-- `StaticRankIterator`: a fixed slice of nodes, handed out round the slice from `offset`. -/
structure StaticRankIterator (α : Type) where
  nodes : List α
  offset : ℕ
  seen : ℕ

namespace StaticRankIterator

variable {α : Type}

/-- The end of `Next`: the node at `offset`, moving past it. -/
def emit (it : StaticRankIterator α) : Option α × StaticRankIterator α :=
  (it.nodes[it.offset]?, { it with offset := it.offset + 1, seen := it.seen + 1 })

/-- `Next`: nil once every node was handed out since the last `Reset`; at the end of the slice it
starts again from the front. -/
def next (it : StaticRankIterator α) : Option α × StaticRankIterator α :=
  if it.offset = it.nodes.length ∨ it.seen = it.nodes.length then
    if it.seen ≠ it.nodes.length then emit { it with offset := 0 } else (none, it)
  else emit it

/-- `Reset`; the offset stays, so that the next round starts where the last one stopped. -/
def reset (it : StaticRankIterator α) : StaticRankIterator α := { it with seen := 0 }

def rankIterator : RankIterator (StaticRankIterator α) α := ⟨next, reset⟩

/-- Handing out the node at `o` leaves the slice rotated to `o + 1`. -/
theorem rotate_take_succ {l : List α} {o m : ℕ} (ho : o < l.length) (hm : m < l.length) :
    (l.rotate o).take (m + 1) = l[o] :: (l.rotate (o + 1)).take m := by
  have hlen : m ≤ (l.drop (o + 1) ++ l.take o).length := by
    simp only [List.length_append, List.length_drop, List.length_take]
    omega
  rw [List.rotate_eq_drop_append_take ho.le, List.rotate_eq_drop_append_take ho,
    List.drop_eq_getElem_cons ho, List.cons_append, List.take_succ_cons, List.take_add_one,
    List.getElem?_eq_getElem ho, Option.toList_some, ← List.append_assoc,
    List.take_append_of_le_length hlen]

/-- From a state with `n - seen` nodes left to hand out, the iterator yields the slice rotated to
its offset, cut to that many nodes. -/
theorem yields_of_seen_le :
    ∀ (k : ℕ) (it : StaticRankIterator α), it.offset ≤ it.nodes.length →
      it.nodes.length - it.seen = k → it.seen ≤ it.nodes.length →
      Yields next it ((it.nodes.rotate it.offset).take k)
  | 0, it, _, hk, hseen => by
    have hall : it.seen = it.nodes.length := by omega
    refine .nil (exhausted_of_next_eq ?_)
    simp [next, hall]
  | k + 1, it, hoff, hk, hseen => by
    have hpos : 0 < it.nodes.length := by omega
    rcases Nat.lt_or_eq_of_le hoff with hlt | heq
    · -- the next node is the one at the offset
      have hnext : next it = emit it := by
        simp [next, hlt.ne, show it.seen ≠ it.nodes.length by omega]
      rw [rotate_take_succ hlt (by omega)]
      refine .cons (by rw [hnext, emit, List.getElem?_eq_getElem hlt]) ?_
      rw [hnext]
      exact yields_of_seen_le k _ hlt (by simp [emit]; omega) (by simp [emit]; omega)
    · -- at the end of the slice the iterator starts again from the front
      have hnext : next it = emit { it with offset := 0 } := by
        simp [next, heq, show it.seen ≠ it.nodes.length by omega]
      rw [heq, List.rotate_length, ← List.rotate_zero it.nodes, rotate_take_succ hpos (by omega)]
      refine .cons (by rw [hnext, emit, List.getElem?_eq_getElem hpos]) ?_
      rw [hnext]
      exact yields_of_seen_le k _ hpos (by simp [emit]; omega) (by simp [emit]; omega)

/-- After `Reset` the iterator yields its slice rotated to its offset. -/
theorem yields_reset (it : StaticRankIterator α) (h : it.offset ≤ it.nodes.length) :
    Yields next it.reset (it.nodes.rotate it.offset) := by
  have hyields := yields_of_seen_le it.nodes.length it.reset h (by simp [reset]) (by simp [reset])
  rwa [List.take_of_length_le (by rw [List.length_rotate]; rfl)] at hyields

end StaticRankIterator

/-! ### `LimitIterator` -/

/-- `LimitIterator` over a source of state `σ`, for ranked nodes `α` whose `FinalScore` has type
`β`. -/
structure LimitIterator (σ α β : Type) where
  source : σ
  limit : ℤ
  maxSkip : ℤ
  scoreThreshold : β
  seen : ℕ
  skippedNodes : List α
  skippedNodeIndex : ℕ

namespace LimitIterator

variable {σ α β : Type} (src : RankIterator σ α)

/-- `NewLimitIterator`. -/
def new (source : σ) (limit : ℤ) (scoreThreshold : β) (maxSkip : ℤ) : LimitIterator σ α β :=
  { source, limit, maxSkip, scoreThreshold, seen := 0, skippedNodes := [], skippedNodeIndex := 0 }

/-- `nextOption`: the source's next node, or, once the source returns nil, the next node set
aside. -/
def nextOption (it : LimitIterator σ α β) : Option α × LimitIterator σ α β :=
  let (sourceOption, source) := src.next it.source
  match sourceOption, it.skippedNodes[it.skippedNodeIndex]? with
  | none, some skippedOption =>
    (some skippedOption, { it with source, skippedNodeIndex := it.skippedNodeIndex + 1 })
  | _, _ => (sourceOption, { it with source })

/-- `Reset`. -/
def reset (it : LimitIterator σ α β) : LimitIterator σ α β :=
  { it with source := src.reset it.source, seen := 0, skippedNodes := [], skippedNodeIndex := 0 }

variable (finalScore : α → β) [LE β] [DecidableLE β]

/-- The loop of `Next` that sets low-scoring nodes aside, on fuel: every turn sets one more node
aside, so that `maxSkip - len(skippedNodes)` turns are all the loop can take. -/
def skipLoop : ℕ → Option α → LimitIterator σ α β → Option α × LimitIterator σ α β
  | fuel + 1, some option, it =>
    if finalScore option ≤ it.scoreThreshold ∧ (it.skippedNodes.length : ℤ) < it.maxSkip then
      let (option', source) := src.next it.source
      skipLoop fuel option' { it with skippedNodes := it.skippedNodes ++ [option], source }
    else (some option, it)
  | _, option, it => (option, it)

/-- `Next`. -/
def next (it : LimitIterator σ α β) : Option α × LimitIterator σ α β :=
  if (it.seen : ℤ) = it.limit then (none, it)
  else
    match nextOption src it with
    | (none, it) => (none, it)
    | (some option, it) =>
      let (option, it) :=
        if (it.skippedNodes.length : ℤ) < it.maxSkip then
          skipLoop src finalScore (it.maxSkip - it.skippedNodes.length).toNat (some option) it
        else (some option, it)
      let it := { it with seen := it.seen + 1 }
      match option with
      -- no node above the threshold came: hand out a node set aside instead
      | none => nextOption src it
      | some option => (some option, it)

/-- A `LimitIterator` is itself a rank iterator. -/
def rankIterator : RankIterator (LimitIterator σ α β) α := ⟨next src finalScore, reset src⟩

end LimitIterator

namespace LimitIterator

variable {σ α β : Type} (src : RankIterator σ α)

/-- What the iterator can still hand out when its source will yield `rest`: those nodes, then the
nodes set aside and not replayed yet. -/
def pool (rest : List α) (it : LimitIterator σ α β) : List α :=
  rest ++ it.skippedNodes.drop it.skippedNodeIndex

/-- The source of `it` yields `rest`, and the replay index is within the nodes set aside. -/
structure Good (rest : List α) (it : LimitIterator σ α β) : Prop where
  yields : Yields src.next it.source rest
  index_le : it.skippedNodeIndex ≤ it.skippedNodes.length

/-- `it'` was made with the parameters of `it`. -/
structure SameParams (it it' : LimitIterator σ α β) : Prop where
  limit : it'.limit = it.limit
  maxSkip : it'.maxSkip = it.maxSkip
  scoreThreshold : it'.scoreThreshold = it.scoreThreshold

theorem SameParams.refl (it : LimitIterator σ α β) : SameParams it it := ⟨rfl, rfl, rfl⟩

theorem SameParams.trans {it it' it'' : LimitIterator σ α β} (h : SameParams it it')
    (h' : SameParams it' it'') : SameParams it it'' :=
  ⟨h'.limit.trans h.limit, h'.maxSkip.trans h.maxSkip, h'.scoreThreshold.trans h.scoreThreshold⟩

theorem good_reset (it : LimitIterator σ α β) {l : List α}
    (hl : Yields src.next (src.reset it.source) l) : Good src l (reset src it) :=
  ⟨hl, le_rfl⟩

theorem pool_reset (it : LimitIterator σ α β) (l : List α) : pool l (reset src it) = l := by
  simp [pool, reset]

/-- `nextOption` hands out the first node the iterator can still hand out, and the source then
yields the rest of its sequence. -/
theorem nextOption_spec {it : LimitIterator σ α β} {rest : List α} (h : Good src rest it) :
    (nextOption src it).1 = (pool rest it).head? ∧ Good src rest.tail (nextOption src it).2 ∧
      pool rest.tail (nextOption src it).2 = (pool rest it).tail ∧
      (nextOption src it).2.skippedNodes = it.skippedNodes ∧
      (nextOption src it).2.seen = it.seen ∧ SameParams it (nextOption src it).2 := by
  obtain ⟨hyields, hindex⟩ := h
  have hfst := hyields.next_fst
  have hsnd := hyields.next_snd
  unfold nextOption
  rcases hsrc : src.next it.source with ⟨sourceOption, source⟩
  rw [hsrc] at hfst hsnd
  cases rest with
  | cons a rest =>
    -- the source still has a node
    cases hfst
    exact ⟨rfl, ⟨hsnd, hindex⟩, by simp [pool], rfl, rfl, ⟨rfl, rfl, rfl⟩⟩
  | nil =>
    cases hfst
    cases hget : it.skippedNodes[it.skippedNodeIndex]? with
    | none =>
      -- nothing was set aside since the last replay
      have hdrop : it.skippedNodes.drop it.skippedNodeIndex = [] := by
        rw [List.drop_eq_nil_iff]
        exact List.getElem?_eq_none_iff.mp hget
      exact ⟨by simp [pool, hdrop], ⟨hsnd, hindex⟩, by simp [pool, hdrop], rfl, rfl,
        ⟨rfl, rfl, rfl⟩⟩
    | some skippedOption =>
      -- the source is done: replay the next node set aside
      obtain ⟨hlt, hskipped⟩ := List.getElem?_eq_some_iff.mp hget
      have hdrop := List.drop_eq_getElem_cons hlt
      rw [hskipped] at hdrop
      exact ⟨by simp [pool, hdrop], ⟨hsnd, hlt⟩, by simp [pool, hdrop], rfl, rfl,
        ⟨rfl, rfl, rfl⟩⟩

section Skip

variable (finalScore : α → β) [LE β]

/-- What the skipping loop leaves, started with `option` in hand from `it`, whose source yields
`rest`: `option'` in hand and `it'`, whose source yields `rest'`. -/
structure SkipOut (rest : List α) (option : Option α) (it : LimitIterator σ α β)
    (rest' : List α) (option' : Option α) (it' : LimitIterator σ α β) : Prop where
  good : Good src rest' it'
  perm : (option'.toList ++ pool rest' it').Perm (option.toList ++ pool rest it)
  seen : it'.seen = it.seen
  params : SameParams it it'
  drained : option' = none →
    option = none ∨ rest' = [] ∧ it'.skippedNodeIndex < it'.skippedNodes.length
  stopped : ∀ o, option' = some o → finalScore o ≤ it.scoreThreshold →
    it.maxSkip ≤ it'.skippedNodes.length

theorem skipOut_self {rest : List α} {option : Option α} {it : LimitIterator σ α β}
    (h : Good src rest it)
    (hstop : ∀ o, option = some o → finalScore o ≤ it.scoreThreshold →
      it.maxSkip ≤ it.skippedNodes.length) :
    SkipOut src finalScore rest option it rest option it :=
  ⟨h, List.Perm.refl _, rfl, SameParams.refl it, Or.inl, hstop⟩

variable [DecidableLE β]

theorem skipLoop_none (fuel : ℕ) (it : LimitIterator σ α β) :
    skipLoop src finalScore fuel none it = (none, it) := by
  cases fuel <;> rfl

/-- The skipping loop, given a turn for each node it may still set aside, keeps the nodes in hand
and in the pool, and stops with a low-scoring node in hand only once `maxSkip` nodes are set
aside. -/
theorem skipLoop_spec :
    ∀ (fuel : ℕ) (option : Option α) (it : LimitIterator σ α β) (rest : List α),
      Good src rest it → (it.maxSkip - it.skippedNodes.length).toNat ≤ fuel →
      ∃ rest', SkipOut src finalScore rest option it rest'
        (skipLoop src finalScore fuel option it).1 (skipLoop src finalScore fuel option it).2
  | 0, option, it, rest, h, hfuel =>
    ⟨rest, skipOut_self src finalScore h fun _ _ _ ↦ by omega⟩
  | fuel + 1, none, it, rest, h, _ =>
    ⟨rest, skipOut_self src finalScore h fun _ ho _ ↦ by cases ho⟩
  | fuel + 1, some o, it, rest, h, hfuel => by
    rcases hsrc : src.next it.source with ⟨option', source⟩
    have hfst := h.yields.next_fst
    have hsnd := h.yields.next_snd
    simp only [hsrc] at hfst hsnd
    simp only [skipLoop, hsrc]
    split_ifs with hcond
    · -- `o` is set aside and the source's next node taken in hand
      have hindex := h.index_le
      let it₁ : LimitIterator σ α β := { it with skippedNodes := it.skippedNodes ++ [o], source }
      have hgood₁ : Good src rest.tail it₁ := ⟨hsnd, by simp only [it₁, List.length_append]; omega⟩
      obtain ⟨rest', hout⟩ := skipLoop_spec fuel option' it₁ rest.tail hgood₁
        (by simp only [it₁, List.length_append, List.length_singleton]; omega)
      have hpool : (option'.toList ++ pool rest.tail it₁).Perm ((some o).toList ++ pool rest it) := by
        have hdrop : (it.skippedNodes ++ [o]).drop it.skippedNodeIndex =
            it.skippedNodes.drop it.skippedNodeIndex ++ [o] := List.drop_append_of_le_length hindex
        have heq : rest.head?.toList ++ pool rest.tail it₁ = pool rest it ++ [o] := by
          cases rest <;> simp [pool, it₁, hdrop]
        rw [hfst, heq]
        exact List.perm_append_singleton o _
      have hparams : SameParams it it₁ := ⟨rfl, rfl, rfl⟩
      refine ⟨rest', hout.good, hout.perm.trans hpool, hout.seen, hparams.trans hout.params,
        fun hnone ↦ ?_, hout.stopped⟩
      right
      rcases hout.drained hnone with hempty | hdone
      · -- the source had no node left: the loop ends at once, with `o` set aside
        subst hempty
        have hrest : rest = [] := by
          cases rest with
          | nil => rfl
          | cons a l => simp at hfst
        have hloop := skipLoop_none src finalScore fuel it₁
        rw [hloop] at hout ⊢
        subst hrest
        refine ⟨Yields.unique hout.good.yields hgood₁.yields, ?_⟩
        simp only [it₁, List.length_append, List.length_singleton]
        omega
      · exact hdone
    · -- the loop stops with `o` in hand
      refine ⟨rest, skipOut_self src finalScore h fun o' ho' hlow ↦ ?_⟩
      cases ho'
      by_contra hroom
      exact hcond ⟨hlow, by omega⟩

/-- The guard of `Next` around the skipping loop is the loop with no turn when nothing more may
be set aside. -/
theorem guarded_skipLoop (option : Option α) (it : LimitIterator σ α β) :
    (if (it.skippedNodes.length : ℤ) < it.maxSkip then
        skipLoop src finalScore (it.maxSkip - it.skippedNodes.length).toNat option it
      else (option, it)) =
      skipLoop src finalScore (it.maxSkip - it.skippedNodes.length).toNat option it := by
  split_ifs with hroom
  · rfl
  · rw [show (it.maxSkip - it.skippedNodes.length).toNat = 0 by omega]
    rfl

/-- What a call of `Next` can do: return nil at the limit, or once nothing is left to hand out, or
hand out a node of the pool, which then holds the others; it hands out a low-scoring node only once
`maxSkip` nodes are set aside or the source is done. -/
theorem next_cases {it : LimitIterator σ α β} {rest : List α} (h : Good src rest it) :
    ((it.seen : ℤ) = it.limit ∧ next src finalScore it = (none, it)) ∨
    ((it.seen : ℤ) ≠ it.limit ∧ pool rest it = [] ∧ (next src finalScore it).1 = none ∧
      Good src [] (next src finalScore it).2 ∧ pool [] (next src finalScore it).2 = [] ∧
      (next src finalScore it).2.seen = it.seen ∧ SameParams it (next src finalScore it).2) ∨
    ((it.seen : ℤ) ≠ it.limit ∧ ∃ o it' rest', next src finalScore it = (some o, it') ∧
      Good src rest' it' ∧ (o :: pool rest' it').Perm (pool rest it) ∧ it'.seen = it.seen + 1 ∧
      SameParams it it' ∧
      (finalScore o ≤ it.scoreThreshold →
        it.maxSkip ≤ it'.skippedNodes.length ∨ Exhausted src.next it'.source)) := by
  by_cases hseen : (it.seen : ℤ) = it.limit
  · exact .inl ⟨hseen, by simp [next, hseen]⟩
  right
  obtain ⟨hfst, hgood₁, hpool₁, -, hseen₁, hparams₁⟩ := nextOption_spec src h
  rcases hn : nextOption src it with ⟨option, it₁⟩
  simp only [hn] at hfst hgood₁ hpool₁ hseen₁ hparams₁
  simp only [next, if_neg hseen, hn]
  cases option with
  | none =>
    -- nothing is left to hand out
    left
    dsimp only
    have hpool : pool rest it = [] := List.head?_eq_none_iff.mp hfst.symm
    have hrest : rest = [] := (List.append_eq_nil_iff.mp hpool).1
    subst hrest
    rw [hpool] at hpool₁
    exact ⟨hseen, hpool, rfl, hgood₁, hpool₁, hseen₁, hparams₁⟩
  | some o =>
    right
    dsimp only
    have hcons : pool rest it = o :: (pool rest it).tail := List.eq_cons_of_mem_head? hfst.symm
    obtain ⟨rest₂, hout⟩ := skipLoop_spec src finalScore _ (some o) it₁ rest.tail hgood₁ le_rfl
    simp only [guarded_skipLoop]
    rcases hl : skipLoop src finalScore (it₁.maxSkip - it₁.skippedNodes.length).toNat (some o) it₁
      with ⟨option₂, it₂⟩
    simp only [hl] at hout
    -- the loop keeps the node in hand and the pool, as a whole
    have hperm₂ : (option₂.toList ++ pool rest₂ it₂).Perm (pool rest it) := by
      refine hout.perm.trans ?_
      rw [hpool₁, hcons]
      rfl
    have hparams₂ := hparams₁.trans hout.params
    cases option₂ with
    | some o₂ =>
      -- the loop ended with a node in hand
      dsimp only
      refine ⟨hseen, o₂, { it₂ with seen := it₂.seen + 1 }, rest₂, rfl, ⟨hout.good.yields,
        hout.good.index_le⟩, hperm₂, by simp [hout.seen, hseen₁], ⟨hparams₂.limit, hparams₂.maxSkip,
        hparams₂.scoreThreshold⟩, fun hlow ↦ .inl ?_⟩
      have hstop := hout.stopped o₂ rfl (by rwa [hparams₁.scoreThreshold])
      rw [hparams₁.maxSkip] at hstop
      exact hstop
    | none =>
      -- the source ran out in the loop: replay the first node set aside
      dsimp only
      obtain ⟨hnil, hindex₂⟩ := (hout.drained rfl).resolve_left (Option.some_ne_none o)
      subst hnil
      let it₃ : LimitIterator σ α β := { it₂ with seen := it₂.seen + 1 }
      have hgood₃ : Good src [] it₃ := ⟨hout.good.yields, hout.good.index_le⟩
      have hparams₃ : SameParams it it₃ :=
        ⟨hparams₂.limit, hparams₂.maxSkip, hparams₂.scoreThreshold⟩
      obtain ⟨x, hx⟩ : ∃ x, pool [] it₃ = x :: it₂.skippedNodes.drop (it₂.skippedNodeIndex + 1) :=
        ⟨_, List.drop_eq_getElem_cons hindex₂⟩
      obtain ⟨hfst₄, hgood₄, hpool₄, -, hseen₄, hparams₄⟩ := nextOption_spec src hgood₃
      rcases hn₄ : nextOption src it₃ with ⟨option₄, it₄⟩
      simp only [hn₄] at hgood₄ hseen₄ hparams₄
      simp only [hn₄, hx, List.head?_cons, List.tail_cons, List.tail_nil] at hfst₄ hpool₄
      subst hfst₄
      refine ⟨hseen, x, it₄, [], rfl, hgood₄, ?_, by simp [hseen₄, it₃, hout.seen, hseen₁],
        hparams₃.trans hparams₄, fun _ ↦ .inr hgood₄.yields.exhausted⟩
      rw [hpool₄, ← hx]
      exact hperm₂

/-- At the limit the iterator returns nil and stays where it is. -/
theorem exhausted_of_seen_eq_limit {it : LimitIterator σ α β} (h : (it.seen : ℤ) = it.limit) :
    Exhausted (next src finalScore) it :=
  exhausted_of_next_eq (by simp [next, h])

/-- With nothing left in the pool the iterator returns nil from then on. -/
theorem exhausted_of_pool_nil {it : LimitIterator σ α β} (h : Good src [] it)
    (hpool : pool [] it = []) : Exhausted (next src finalScore) it := by
  refine ⟨fun t ↦ Good src [] t ∧ pool [] t = [], ⟨h, hpool⟩, ?_⟩
  rintro t ⟨ht, htpool⟩
  rcases next_cases src finalScore ht with ⟨-, hnext⟩ | ⟨-, -, hfst, hgood, hpool', -⟩ |
    ⟨-, o, t', rest', -, -, hperm, -⟩
  · rw [hnext]
    exact ⟨rfl, ht, htpool⟩
  · exact ⟨hfst, hgood, hpool'⟩
  · rw [htpool] at hperm
    exact absurd hperm.length_eq (by simp)

/-- From a state whose pool holds fewer than `n` nodes, the iterator yields distinct nodes of the
pool, as many as the limit and the pool allow. The induction is on the bound of the pool, which
each node handed out shrinks by one. -/
theorem yields_of_good :
    ∀ (n : ℕ) (it : LimitIterator σ α β) (rest : List α), (pool rest it).length < n →
      Good src rest it → (it.seen : ℤ) ≤ it.limit →
      ∃ r, Yields (next src finalScore) it r ∧
        (r.length : ℤ) = min (it.limit - it.seen) (pool rest it).length ∧
        r.Subperm (pool rest it)
  | 0, _, _, hn, _, _ => absurd hn (Nat.not_lt_zero _)
  | n + 1, it, rest, hn, h, hseen => by
    rcases next_cases src finalScore h with ⟨hlimit, -⟩ | ⟨hlimit, hpool, -⟩ |
      ⟨hlimit, o, it', rest', hnext, hgood', hperm, hseen', hparams', -⟩
    · -- at the limit
      refine ⟨[], .nil (exhausted_of_seen_eq_limit src finalScore hlimit), ?_,
        List.nil_subperm⟩
      simp only [List.length_nil, Nat.cast_zero]
      omega
    · -- nothing left
      have hrest : rest = [] := (List.append_eq_nil_iff.mp hpool).1
      subst hrest
      refine ⟨[], .nil (exhausted_of_pool_nil src finalScore h hpool), ?_, List.nil_subperm⟩
      rw [hpool]
      simp only [List.length_nil, Nat.cast_zero]
      omega
    · -- one node handed out, the rest from the next state
      have hlen := hperm.length_eq
      rw [List.length_cons] at hlen
      have hlimit' := hparams'.limit
      obtain ⟨r, hr, hrlen, hsub⟩ := yields_of_good n it' rest' (by omega) hgood'
        (by rw [hseen', hlimit']; push_cast; omega)
      refine ⟨o :: r, .cons (by rw [hnext]) (by rw [hnext]; exact hr), ?_,
        ((List.subperm_cons o).mpr hsub).trans hperm.subperm⟩
      rw [hseen', hlimit'] at hrlen
      rw [List.length_cons, ← hlen]
      push_cast at hrlen ⊢
      omega

/-- After `Reset`, over a source that then yields `l`, the iterator yields nodes of `l`, none
twice if `l` has none twice, and `min(limit, len(l))` of them. -/
theorem yields_reset (it : LimitIterator σ α β) {l : List α}
    (hl : Yields src.next (src.reset it.source) l) (hlimit : 0 ≤ it.limit) :
    ∃ r, Yields (next src finalScore) (reset src it) r ∧ (r.length : ℤ) = min it.limit l.length ∧
      r.Subperm l := by
  obtain ⟨r, hr, hlen, hsub⟩ := yields_of_good src finalScore (l.length + 1) (reset src it) l
    (by rw [pool_reset]; omega) (good_reset src it hl) (by simpa [reset] using hlimit)
  rw [pool_reset] at hlen hsub
  exact ⟨r, hr, by simpa [reset] using hlen, hsub⟩

/-- A state a run of `Next` calls reaches after `Reset`: its source yields some sequence, and it
has the parameters it was made with. -/
theorem good_of_reachable (it : LimitIterator σ α β) {l : List α}
    (hl : Yields src.next (src.reset it.source) l) {t : LimitIterator σ α β}
    (ht : Relation.ReflTransGen (fun t t' ↦ (next src finalScore t).2 = t') (reset src it) t) :
    ∃ rest, Good src rest t ∧ SameParams it t := by
  induction ht with
  | refl => exact ⟨l, good_reset src it hl, ⟨rfl, rfl, rfl⟩⟩
  | tail _ hstep ih =>
    obtain ⟨rest, hgood, hparams⟩ := ih
    subst hstep
    rcases next_cases src finalScore hgood with ⟨-, hnext⟩ | ⟨-, -, -, hgood', -, -, hparams'⟩ |
      ⟨-, o, t', rest', hnext, hgood', -, -, hparams', -⟩
    · rw [hnext]
      exact ⟨rest, hgood, hparams⟩
    · exact ⟨[], hgood', hparams.trans hparams'⟩
    · rw [hnext]
      exact ⟨rest', hgood', hparams.trans hparams'⟩

/-- In every call after `Reset`, a node with `FinalScore` at most the threshold is handed out only
once `maxSkip` nodes are set aside since the `Reset` or the source has no further node. -/
theorem low_score_of_reachable (it : LimitIterator σ α β) {l : List α}
    (hl : Yields src.next (src.reset it.source) l) {t t' : LimitIterator σ α β} {o : α}
    (ht : Relation.ReflTransGen (fun t t' ↦ (next src finalScore t).2 = t') (reset src it) t)
    (hnext : next src finalScore t = (some o, t')) (hlow : finalScore o ≤ it.scoreThreshold) :
    it.maxSkip ≤ t'.skippedNodes.length ∨ Exhausted src.next t'.source := by
  obtain ⟨rest, hgood, hparams⟩ := good_of_reachable src finalScore it hl ht
  rcases next_cases src finalScore hgood with ⟨-, hnone⟩ | ⟨-, -, hnone, -⟩ |
    ⟨-, o', t'', -, hsome, -, -, -, -, hstop⟩
  · rw [hnone] at hnext
    cases hnext
  · rw [hnext] at hnone
    cases hnone
  · rw [hnext] at hsome
    cases hsome
    rw [← hparams.maxSkip]
    exact hstop (by rwa [hparams.scoreThreshold])

/-- After `Reset`, over a source that then yields `n` distinct nodes, the calls of `Next` up to
its first nil return `min(limit, n)` distinct nodes of the source, and a call hands out a node
scoring at most the threshold only once `maxSkip` nodes are set aside or the source is done. -/
theorem yields_limited_distinct (it : LimitIterator σ α β) {l : List α}
    (hl : Yields src.next (src.reset it.source) l) (hnodup : l.Nodup) (hlimit : 0 ≤ it.limit) :
    (∃ r, Yields (next src finalScore) (reset src it) r ∧
        (r.length : ℤ) = min it.limit l.length ∧ r.Nodup ∧ ∀ a ∈ r, a ∈ l) ∧
      ∀ t t' o, Relation.ReflTransGen (fun t t' ↦ (next src finalScore t).2 = t') (reset src it) t →
        next src finalScore t = (some o, t') → finalScore o ≤ it.scoreThreshold →
        it.maxSkip ≤ t'.skippedNodes.length ∨ Exhausted src.next t'.source := by
  obtain ⟨r, hr, hlen, hsub⟩ := yields_reset src finalScore it hl hlimit
  obtain ⟨r', hperm, hsublist⟩ := hsub
  refine ⟨⟨r, hr, hlen, hperm.nodup_iff.mp (hnodup.sublist hsublist), fun a ha ↦ ?_⟩,
    fun t t' o ht hnext hlow ↦ low_score_of_reachable src finalScore it hl ht hnext hlow⟩
  exact hsublist.subset (hperm.mem_iff.mpr ha)

end Skip

end LimitIterator

/-- A limit iterator of two nodes over the static slice `[3, 1, 2]`, scored by their values, that
sets aside at most one node scoring 1 or less. -/
def threeStatic : LimitIterator (StaticRankIterator ℕ) ℕ ℕ :=
  LimitIterator.new ⟨[3, 1, 2], 0, 0⟩ 2 1 1

theorem yields_limited_distinct_threeStatic :
    [3, 1, 2].Nodup ∧ (0 : ℤ) ≤ threeStatic.limit ∧
      ∃ r, Yields (LimitIterator.next StaticRankIterator.rankIterator id)
          (LimitIterator.reset StaticRankIterator.rankIterator threeStatic) r ∧
        (r.length : ℤ) = min threeStatic.limit 3 ∧ r.Nodup ∧ ∀ a ∈ r, a ∈ [3, 1, 2] :=
  ⟨by decide, by decide, (LimitIterator.yields_limited_distinct StaticRankIterator.rankIterator id
    threeStatic (StaticRankIterator.yields_reset ⟨[3, 1, 2], 0, 0⟩ (by decide)) (by decide)
    (by decide)).1⟩

/-- The node scoring 1 is set aside, and the two calls return 3 and 2. -/
example :
    let next := LimitIterator.next StaticRankIterator.rankIterator (id : ℕ → ℕ)
    let it := LimitIterator.reset StaticRankIterator.rankIterator threeStatic
    (next it).1 = some 3 ∧ (next (next it).2).1 = some 2 ∧
      (next (next (next it).2).2).1 = none := by
  decide

/-! ### `MaxScoreIterator` -/

/-- `MaxScoreIterator` over a source of state `σ`: the best node found since the last `Reset`. -/
structure MaxScoreIterator (σ α : Type) where
  source : σ
  max : Option α

namespace MaxScoreIterator

variable {σ α β : Type} (src : RankIterator σ α)

/-- `NewMaxScoreIterator`. -/
def new (source : σ) : MaxScoreIterator σ α := ⟨source, none⟩

/-- `Reset`. -/
def reset (it : MaxScoreIterator σ α) : MaxScoreIterator σ α := ⟨src.reset it.source, none⟩

variable (finalScore : α → β) [Preorder β] [DecidableLT β]

/-- The test in the loop of `Next`: the node is kept when none is, or when it scores strictly
higher than the node kept, so that of equal scores the first stays. -/
def keep (max : Option α) (option : α) : Option α :=
  match max with
  | none => some option
  | some max => if finalScore max < finalScore option then some option else some max

/-- The loop of `Next`, on fuel: it takes the source's nodes up to nil. -/
def consume : ℕ → MaxScoreIterator σ α → Option α × MaxScoreIterator σ α
  | fuel + 1, it =>
    match src.next it.source with
    | (none, source) => (it.max, { it with source })
    | (some option, source) => consume fuel ⟨source, keep finalScore it.max option⟩
  | 0, it => (it.max, it)

/-- `Next`: nil once a node was found since the last `Reset`. -/
def next (fuel : ℕ) (it : MaxScoreIterator σ α) : Option α × MaxScoreIterator σ α :=
  if it.max.isSome then (none, it) else consume src finalScore fuel it

/-- The loop keeps what Mathlib's `List.argmax` keeps. -/
theorem keep_eq_argAux : keep finalScore = List.argAux (fun b c ↦ finalScore c < finalScore b) := by
  funext max option
  cases max <;> rfl

theorem foldl_keep_none (l : List α) : l.foldl (keep finalScore) none = l.argmax finalScore := by
  rw [keep_eq_argAux]
  rfl

/-- Over a source that returns nil from now on, the loop returns the node kept. -/
theorem consume_of_exhausted (fuel : ℕ) {it : MaxScoreIterator σ α}
    (h : Exhausted src.next it.source) :
    (consume src finalScore fuel it).1 = it.max ∧ (consume src finalScore fuel it).2.max = it.max ∧
      Exhausted src.next (consume src finalScore fuel it).2.source := by
  cases fuel with
  | zero => exact ⟨rfl, rfl, h⟩
  | succ fuel =>
    have hnone := h.next_fst
    have hrest := h.next_snd
    simp only [consume]
    rcases hsrc : src.next it.source with ⟨_ | option, source⟩
    · rw [hsrc] at hrest
      exact ⟨rfl, rfl, hrest⟩
    · rw [hsrc] at hnone
      cases hnone

/-- With more fuel than the source has nodes, the loop folds `keep` over the nodes and leaves the
source exhausted. -/
theorem consume_spec {fuel : ℕ} {it : MaxScoreIterator σ α} {l : List α}
    (h : Yields src.next it.source l) (hfuel : l.length < fuel) :
    (consume src finalScore fuel it).1 = l.foldl (keep finalScore) it.max ∧
      (consume src finalScore fuel it).2.max = l.foldl (keep finalScore) it.max ∧
      Exhausted src.next (consume src finalScore fuel it).2.source := by
  induction l generalizing fuel it with
  | nil => exact consume_of_exhausted src finalScore fuel h.exhausted
  | cons a l ih =>
    obtain ⟨fuel, rfl⟩ := Nat.exists_eq_add_of_lt (Nat.zero_lt_of_lt hfuel)
    have ha := h.next_fst
    have hl := h.next_snd
    simp only [consume]
    rcases hsrc : src.next it.source with ⟨option, source⟩
    rw [hsrc] at ha hl
    cases ha
    exact ih hl (by simp at hfuel; omega)

/-- After a `Reset`-like state with no node kept, over a source that yields `l`, the iterator
yields the first node of highest score in `l`, if any, and nothing else. -/
theorem yields_argmax {fuel : ℕ} {it : MaxScoreIterator σ α} {l : List α}
    (h : Yields src.next it.source l) (hmax : it.max = none) (hfuel : l.length < fuel) :
    Yields (next src finalScore fuel) it (l.argmax finalScore).toList := by
  obtain ⟨hfst, hkept, hexhausted⟩ := consume_spec src finalScore h hfuel
  rw [hmax, foldl_keep_none] at hfst hkept
  have hnext : next src finalScore fuel it = consume src finalScore fuel it := by
    simp [next, hmax]
  cases hargmax : l.argmax finalScore with
  | none =>
    -- nothing kept: the iterator stays with no node and an exhausted source
    refine .nil ⟨fun t ↦ t.max = none ∧ Exhausted src.next t.source, ⟨hmax, ?_⟩, ?_⟩
    · rw [List.argmax_eq_none.mp hargmax] at h
      exact h.exhausted
    · rintro t ⟨htmax, ht⟩
      obtain ⟨h1, h2, h3⟩ := consume_of_exhausted src finalScore fuel ht
      simp only [next, htmax, Option.isSome_none, Bool.false_eq_true, if_false]
      exact ⟨h1.trans htmax, h2.trans htmax, h3⟩
  | some m =>
    -- the node found stays kept, and every later call returns nil
    rw [hargmax] at hfst hkept
    refine .cons (by rw [hnext, hfst]) (.nil (exhausted_of_next_eq ?_))
    rw [hnext]
    simp [next, hkept]

end MaxScoreIterator

namespace MaxScoreIterator

variable {σ α β : Type} [LinearOrder β] (src : RankIterator σ α) (finalScore : α → β)

/-- `Select`'s last stage: after `Reset`, the max-score iterator over a limit iterator whose source
then yields `l` returns, on its first `Next`, the first node of highest `FinalScore` among the
nodes `r` the limit iterator hands out after its `Reset`, `min(limit, len(l))` nodes of `l`, and nil
from then on. -/
theorem yields_argmax_limited (it : MaxScoreIterator (LimitIterator σ α β) α) {l : List α}
    (hl : Yields src.next (src.reset it.source.source) l) (hlimit : 0 ≤ it.source.limit)
    {fuel : ℕ} (hfuel : l.length < fuel) :
    ∃ r : List α, Yields (LimitIterator.next src finalScore) (LimitIterator.reset src it.source) r ∧
      (r.length : ℤ) = min it.source.limit l.length ∧ r.Subperm l ∧
      Yields (next (LimitIterator.rankIterator src finalScore) finalScore fuel)
        (reset (LimitIterator.rankIterator src finalScore) it) (r.argmax finalScore).toList := by
  obtain ⟨r, hr, hlen, hsub⟩ := LimitIterator.yields_reset src finalScore it.source hl hlimit
  have hrfuel : r.length < fuel := lt_of_le_of_lt hsub.length_le hfuel
  exact ⟨r, hr, hlen, hsub, yields_argmax _ finalScore hr rfl hrfuel⟩

end MaxScoreIterator

theorem yields_argmax_limited_threeStatic :
    (0 : ℤ) ≤ threeStatic.limit ∧ [3, 1, 2].length < 4 ∧
      ∃ r : List ℕ, Yields (LimitIterator.next StaticRankIterator.rankIterator id)
          (LimitIterator.reset StaticRankIterator.rankIterator threeStatic) r ∧
        (r.length : ℤ) = min threeStatic.limit 3 ∧ r.Subperm [3, 1, 2] ∧
        Yields (MaxScoreIterator.next (LimitIterator.rankIterator StaticRankIterator.rankIterator id)
            id 4)
          (MaxScoreIterator.reset (LimitIterator.rankIterator StaticRankIterator.rankIterator id)
            (MaxScoreIterator.new threeStatic))
          (r.argmax id).toList :=
  ⟨by decide, by decide, MaxScoreIterator.yields_argmax_limited StaticRankIterator.rankIterator id
    (MaxScoreIterator.new threeStatic) (StaticRankIterator.yields_reset ⟨[3, 1, 2], 0, 0⟩ (by decide))
    (by decide) (by decide)⟩

/-- Of the nodes 3 and 2 the limit iterator hands out, `Select` picks 3. -/
example :
    let next := MaxScoreIterator.next
      (LimitIterator.rankIterator StaticRankIterator.rankIterator (id : ℕ → ℕ)) id 4
    let it := MaxScoreIterator.reset
      (LimitIterator.rankIterator StaticRankIterator.rankIterator id) (MaxScoreIterator.new threeStatic)
    (next it).1 = some 3 ∧ (next (next it).2).1 = none := by
  decide

end Wander.Scheduler
