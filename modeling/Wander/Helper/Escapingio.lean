import Mathlib
import Wander.Lib.Transducer

/-!
# `helper/escapingio`: escape sequences after new lines

`NewReader` wraps an `io.Reader` so that, after a new line or at the start of the stream, the
escape character `~` and the byte after it form an escape sequence: `~~` gives one `~`, `~c` is
dropped when the handler takes `c` and passed on otherwise, and a `~` that ends the stream is passed
on. `escaping` states this byte by byte as a transducer whose state is `lookState`.

The goroutine `pipe` reads the wrapped reader into a buffer of 4096 bytes and hands each read to
`processBuf`, which returns the state the next read starts from. When a read ends with a line-start
`~`, `pipe` reads one more byte and decides the sequence itself.

`processBuf` agrees with the byte-by-byte escaping of the bytes it was given except in one case
(`processBuf_eq_spec`): the bytes end with a line-start `~` and a new line the handler does not
take. Its jump back to `START` then reads `buf[n]`, the byte after the ones read: a byte left from
an earlier read, from which it returns a state that does not follow from the stream, or past the
buffer once a read fills all 4096 bytes, where Go panics (`processBuf_eq_none`). Over a stream
whose reads never end there, `pipe` writes the escaping of the whole stream, however the stream is
split into reads (`pipe_chunks`).
-/

set_option autoImplicit false
set_option relaxedAutoImplicit false

namespace Wander.Escapingio

open Wander.Lib

/-- `lookState`: which part of the sequence new line, `~`, character the reader looks for. -/
inductive LookState
  | lookNewLine
  | lookEscapeChar
  | lookChar
deriving DecidableEq, Repr

/-- The fields of `reader` that `pipe` reads: the escape character and the `Handler`. -/
structure Reader where
  escapeChar : UInt8
  handler : UInt8 → Bool

/-- `c == '\n' || c == '\r'`. -/
def isNewLine (c : UInt8) : Bool := c == 10 || c == 13

/-- `buf[wi:i]`. -/
def slice (buf : List UInt8) (wi i : ℕ) : List UInt8 := (buf.take i).drop wi

section ProcessBuf

variable (r : Reader) (buf : List UInt8) (n : ℕ)

mutual

/-- `processBuf` from its label `START`: an escape character at a line start and the byte after
it. The bytes written and the state returned; `none` where reading `buf[i]` panics. -/
def start (i wi : ℕ) (s : LookState) : Option (List UInt8 × LookState) :=
  if s = .lookEscapeChar then
    match buf[i]? with
    | none => none
    | some b =>
      if b = r.escapeChar then
        if _h : n ≤ i + 1 then some (slice buf wi i, .lookChar)
        else
          match buf[i + 1]? with
          | none => none
          | some nc =>
            if nc = r.escapeChar then
              (scan (i + 1) (i + 1)).map (Prod.map (slice buf wi i ++ ·) id)
            else if r.handler nc then
              (scan (i + 2) (i + 2)).map (Prod.map (slice buf wi i ++ ·) id)
            else if isNewLine nc then start (i + 2) wi .lookEscapeChar
            else scan (i + 2) wi
      else scan i wi
  else scan i wi
termination_by 2 * (n - i) + 1
decreasing_by all_goals omega

/-- The loop of `processBuf` that looks for a new line followed by the escape character. -/
def scan (i wi : ℕ) : Option (List UInt8 × LookState) :=
  if _h : n ≤ i then some (slice buf wi n, .lookNewLine)
  else
    match buf[i]? with
    | none => none
    | some b =>
      if isNewLine b then
        if n ≤ i + 1 then some (slice buf wi n, .lookEscapeChar)
        else if buf[i + 1]? = some r.escapeChar then start (i + 1) wi .lookEscapeChar
        else scan (i + 1) wi
      else scan (i + 1) wi
termination_by 2 * (n - i)
decreasing_by all_goals omega

end

/-- `processBuf(bw, buf, n, s)`: the bytes it writes and the state it returns. -/
def processBuf (s : LookState) : Option (List UInt8 × LookState) := start r buf n 0 0 s

end ProcessBuf

/-- An `io.Reader` as a state machine on `ρ`: `Read` into a buffer with room for `m` bytes returns
the bytes it writes to the front of the buffer and its error. -/
structure IoReader (ρ ε : Type) where
  read : ρ → ℕ → List UInt8 × Option ε × ρ

/-- The bytes of a `Read` written over the front of the buffer. -/
def fill (rb data : List UInt8) : List UInt8 := data ++ rb.drop data.length

section Pipe

variable (r : Reader) {ρ ε : Type} (src : IoReader ρ ε)

/-- What `pipe` does with the byte after a read that ended with the escape character at a line
start: the bytes it writes and the state it moves to. -/
def afterEscape (c : UInt8) : List UInt8 × LookState :=
  if c = r.escapeChar then ([c], .lookNewLine)
  else if r.handler c then ([], .lookNewLine)
  else ([r.escapeChar, c], if isNewLine c then .lookEscapeChar else .lookNewLine)

/-- The one-byte `Read` of `pipe` after a read that ended with the escape character at a line
start, having written `out`: the bytes written, the state, the error, the reader and the buffer. -/
def readAfterEscape (q : ρ) (rb out : List UInt8) :
    List UInt8 × LookState × Option ε × ρ × List UInt8 :=
  let (data, err, q) := src.read q 1
  match data with
  | [c] => ((out ++ (afterEscape r c).1), (afterEscape r c).2, err, q, fill rb data)
  | _ => (out, .lookChar, err, q, fill rb data)

/-- One turn of `pipe`'s loop up to its error check: a `Read` into the whole buffer, `processBuf`
of what it read, and the one-byte `Read` when that ended with the escape character at a line
start. `none` where `processBuf` panics. -/
def turn (q : ρ) (rb : List UInt8) (state : LookState) :
    Option (List UInt8 × LookState × Option ε × ρ × List UInt8) :=
  let (data, err, q) := src.read q rb.length
  let rb := fill rb data
  if 0 < data.length then
    (processBuf r rb data.length state).map fun (out, state) ↦
      if state = .lookChar then readAfterEscape r src q rb out else (out, state, err, q, rb)
  else some ([], state, err, q, rb)

/-- The loop of `pipe`, on fuel: turns until a `Read` returns an error, on which the escape
character still held is written and the pipe is closed with the error. The bytes written and the
error the pipe is closed with (`none` while it is open); `none` where `processBuf` panics. -/
def pipeLoop : ℕ → ρ → List UInt8 → LookState → Option (List UInt8 × Option ε)
  | 0, _, _, _ => some ([], none)
  | fuel + 1, q, rb, state =>
    match turn r src q rb state with
    | none => none
    | some (out, state, some e, _, _) =>
      some (out ++ (if state = .lookChar then [r.escapeChar] else []), some e)
    | some (out, state, none, q, rb) => (pipeLoop fuel q rb state).map (Prod.map (out ++ ·) id)

/-- `pipe`, as `NewReader` starts it: a zeroed buffer of 4096 bytes and the state
`sLookEscapeChar`. -/
def pipe (fuel : ℕ) (q : ρ) : Option (List UInt8 × Option ε) :=
  pipeLoop r src fuel q (List.replicate 4096 0) .lookEscapeChar

end Pipe

/-! ### The escaping, byte by byte -/

section Escaping

variable (r : Reader)

/-- The state after a byte passed on as it is: a line start after a new line. -/
def lineState (c : UInt8) : LookState := if isNewLine c then .lookEscapeChar else .lookNewLine

/-- The escaping `NewReader` documents: at a line start the escape character is held, and the
byte after it decides the sequence; the escape character held when the stream ends is passed on. -/
def escaping : Transducer LookState UInt8 UInt8 where
  step
    | .lookNewLine, c => ([c], lineState c)
    | .lookEscapeChar, c => if c = r.escapeChar then ([], .lookChar) else ([c], lineState c)
    | .lookChar, c =>
      if c = r.escapeChar then ([c], .lookNewLine)
      else if r.handler c then ([], .lookNewLine)
      else ([r.escapeChar, c], lineState c)
  final s := if s = .lookChar then [r.escapeChar] else []

/-- Whether the bytes `l`, read from state `s`, end with the escape character at a line start and
a new line the handler does not take. -/
def endsEscapedNewLine (s : LookState) (l : List UInt8) : Bool :=
  match l.reverse with
  | nl :: c :: rest => c == r.escapeChar && isNewLine nl && !r.handler nl &&
      (escaping r).stateAfter s rest.reverse == .lookEscapeChar
  | _ => false

/-- The state `processBuf` returns after the bytes `l` read from state `s`: the escaping's, unless
the bytes end with an escaped new line and it goes on to look at the byte `next` after them. -/
def endState (next : Option UInt8) (s : LookState) (l : List UInt8) : Option LookState :=
  if endsEscapedNewLine r s l then
    next.map fun b ↦ if b = r.escapeChar then .lookChar else .lookNewLine
  else some ((escaping r).stateAfter s l)

/-- What `processBuf` returns for the `n` bytes at the front of `buf` read from state `s`: their
escaping, and the state `endState` gives with `buf[n]` as the byte after them. -/
def processBufSpec (buf : List UInt8) (n : ℕ) (s : LookState) : Option (List UInt8 × LookState) :=
  (endState r buf[n]? s (buf.take n)).map ((escaping r).runFrom s (buf.take n), ·)

end Escaping

/-! ### `processBuf` against the escaping -/

section Refinement

variable {r : Reader}

theorem escaping_step_lookChar (c : UInt8) : (escaping r).step .lookChar c = afterEscape r c := by
  simp only [escaping, afterEscape, lineState]

theorem escaping_step_lookNewLine (c : UInt8) :
    (escaping r).step .lookNewLine c = ([c], lineState c) := rfl

theorem escaping_step_lookEscapeChar_of_ne {c : UInt8} (hc : c ≠ r.escapeChar) :
    (escaping r).step .lookEscapeChar c = ([c], lineState c) := by
  simp [escaping, hc]

theorem exists_eq_append_pair {α : Type} {l : List α} (hl : 2 ≤ l.length) :
    ∃ pre a b, l = pre ++ [a, b] := by
  rcases List.eq_nil_or_concat l with rfl | ⟨L, b, rfl⟩
  · simp at hl
  rcases List.eq_nil_or_concat L with rfl | ⟨pre, a, rfl⟩
  · simp at hl
  exact ⟨pre, a, b, by simp⟩

theorem endsEscapedNewLine_append_pair (s : LookState) (pre : List UInt8) (c nl : UInt8) :
    endsEscapedNewLine r s (pre ++ [c, nl]) = (c == r.escapeChar && isNewLine nl &&
      !r.handler nl && (escaping r).stateAfter s pre == .lookEscapeChar) := by
  simp [endsEscapedNewLine]

theorem endsEscapedNewLine_pair_of_ne (s : LookState) {c : UInt8} (nl : UInt8)
    (hc : c ≠ r.escapeChar) : endsEscapedNewLine r s [c, nl] = false := by
  rw [← List.nil_append [c, nl], endsEscapedNewLine_append_pair]
  simp [hc]

theorem endsEscapedNewLine_escape_pair (nl : UInt8) :
    endsEscapedNewLine r .lookEscapeChar [r.escapeChar, nl] = (isNewLine nl && !r.handler nl) := by
  rw [← List.nil_append [r.escapeChar, nl], endsEscapedNewLine_append_pair]
  simp

theorem two_le_length_of_endsEscapedNewLine {s : LookState} {l : List UInt8}
    (h : endsEscapedNewLine r s l = true) : 2 ≤ l.length := by
  by_contra hl
  match l, h with
  | [], h => simp [endsEscapedNewLine] at h
  | [_], h => simp [endsEscapedNewLine] at h
  | _ :: _ :: _, _ => simp at hl

/-- Reading one more byte in front moves the question to the state after it, but where the
escaped new line would start at that byte. -/
theorem endsEscapedNewLine_cons {s : LookState} {a : UInt8} {l : List UInt8}
    (h : l.length = 1 → endsEscapedNewLine r s (a :: l) = false) :
    endsEscapedNewLine r s (a :: l) = endsEscapedNewLine r ((escaping r).step s a).2 l := by
  rcases Nat.lt_or_ge l.length 2 with hl | hl
  · have hright : endsEscapedNewLine r ((escaping r).step s a).2 l = false := by
      match l, hl with
      | [], _ => rfl
      | [_], _ => rfl
    rw [hright]
    match l, hl with
    | [], _ => rfl
    | [_], _ => exact h rfl
  · obtain ⟨pre, c, nl, rfl⟩ := exists_eq_append_pair hl
    rw [← List.cons_append, endsEscapedNewLine_append_pair, endsEscapedNewLine_append_pair,
      Transducer.stateAfter_cons]

/-- The same for `endState`. -/
theorem endState_cons (next : Option UInt8) {s : LookState} {a : UInt8} {l : List UInt8}
    (h : l.length = 1 → endsEscapedNewLine r s (a :: l) = false) :
    endState r next s (a :: l) = endState r next ((escaping r).step s a).2 l := by
  simp only [endState, endsEscapedNewLine_cons h, Transducer.stateAfter_cons]

/-- A byte that passes as it is never starts an escaped new line. -/
theorem endState_cons_verbatim (next : Option UInt8) {s : LookState} {b : UInt8}
    {l : List UInt8} (hv : (escaping r).step s b = ([b], lineState b)) :
    endState r next s (b :: l) = endState r next (lineState b) l := by
  rw [endState_cons next, hv]
  intro hl
  obtain ⟨x, rfl⟩ := List.length_eq_one_iff.mp hl
  cases s with
  | lookEscapeChar =>
    -- from a line start only a byte other than the escape character passes
    have hb : b ≠ r.escapeChar := fun hb ↦ by simp [escaping, hb] at hv
    exact endsEscapedNewLine_pair_of_ne _ x hb
  | lookNewLine => simp [endsEscapedNewLine]
  | lookChar => simp [endsEscapedNewLine]

theorem drop_take_eq_cons {buf : List UInt8} {n i : ℕ} {b : UInt8} (hi : i < n)
    (hb : buf[i]? = some b) : (buf.take n).drop i = b :: (buf.take n).drop (i + 1) := by
  have hb' : (buf.take n)[i]? = some b := by rw [List.getElem?_take_of_lt hi, hb]
  obtain ⟨hlt, heq⟩ := List.getElem?_eq_some_iff.mp hb'
  rw [List.drop_eq_getElem_cons hlt, heq]

theorem drop_take_of_le {buf : List UInt8} {n i : ℕ} (h : n ≤ i) : (buf.take n).drop i = [] :=
  List.drop_eq_nil_of_le (by simp; omega)

/-- A last byte read is the byte of the buffer there. -/
theorem drop_take_eq_singleton {buf : List UInt8} {n i : ℕ} {b : UInt8} (hb : buf[i]? = some b)
    (hl : ((buf.take n).drop i).length = 1) : (buf.take n).drop i = [b] := by
  obtain ⟨x, hx⟩ := List.length_eq_one_iff.mp hl
  have hi : i < n := by
    by_contra h
    rw [drop_take_of_le (by omega)] at hx
    exact List.cons_ne_nil x [] hx.symm
  rw [hx, (List.cons.inj (hx.symm.trans (drop_take_eq_cons hi hb))).1]

theorem slice_succ {buf : List UInt8} {wi i : ℕ} {b : UInt8} (hwi : wi ≤ i)
    (hb : buf[i]? = some b) : slice buf wi (i + 1) = slice buf wi i ++ [b] := by
  have hi : i < buf.length := (List.getElem?_eq_some_iff.mp hb).1
  unfold slice
  rw [List.take_add_one, hb, Option.toList_some,
    List.drop_append_of_le_length (by simp; omega)]

theorem slice_self (buf : List UInt8) (i : ℕ) : slice buf i i = [] :=
  List.drop_eq_nil_of_le (by simp)

variable (r) in
/-- What `processBuf` returns from position `i` on, with `buf[wi:i]` still to write and the
escaping in state `s` at `i`. -/
def tailSpec (buf : List UInt8) (n i wi : ℕ) (s : LookState) : Option (List UInt8 × LookState) :=
  (endState r buf[n]? s ((buf.take n).drop i)).map
    (slice buf wi i ++ (escaping r).runFrom s ((buf.take n).drop i), ·)

section Tail

variable {buf : List UInt8} {n i wi : ℕ}

theorem tailSpec_of_le (h : n ≤ i) (s : LookState) :
    tailSpec r buf n i wi s = some (slice buf wi i, s) := by
  simp [tailSpec, drop_take_of_le h, endState, endsEscapedNewLine]

/-- A byte that passes as it is joins the bytes still to write. -/
theorem tailSpec_verbatim {s : LookState} {b : UInt8} (hi : i < n) (hb : buf[i]? = some b)
    (hwi : wi ≤ i) (hv : (escaping r).step s b = ([b], lineState b)) :
    tailSpec r buf n i wi s = tailSpec r buf n (i + 1) wi (lineState b) := by
  simp only [tailSpec, drop_take_eq_cons hi hb, endState_cons_verbatim _ hv,
    Transducer.runFrom_cons, hv, slice_succ hwi hb, List.append_assoc, List.singleton_append]

/-- A byte that writes nothing: the bytes before it are written, and writing starts after it. -/
theorem tailSpec_silent {s s' : LookState} {b : UInt8} (hi : i < n) (hb : buf[i]? = some b)
    (hstep : (escaping r).step s b = ([], s'))
    (h : ((buf.take n).drop (i + 1)).length = 1 →
      endsEscapedNewLine r s (b :: (buf.take n).drop (i + 1)) = false) :
    tailSpec r buf n i wi s =
      (tailSpec r buf n (i + 1) (i + 1) s').map (Prod.map (slice buf wi i ++ ·) id) := by
  simp only [tailSpec, drop_take_eq_cons hi hb, endState_cons _ h, Transducer.runFrom_cons,
    hstep, slice_self, Option.map_map]
  rfl

/-- The escape character at a line start and a byte after it that is passed on with it. -/
theorem tailSpec_escaped {s' : LookState} {nc : UInt8} (hi : i + 1 < n)
    (hb : buf[i]? = some r.escapeChar) (hnc : buf[i + 1]? = some nc) (hwi : wi ≤ i)
    (hne : nc ≠ r.escapeChar) (hstep : (escaping r).step .lookChar nc = ([r.escapeChar, nc], s'))
    (h : (buf.take n).drop (i + 2) = [] →
      endsEscapedNewLine r .lookEscapeChar [r.escapeChar, nc] = false) :
    tailSpec r buf n i wi .lookEscapeChar = tailSpec r buf n (i + 2) wi s' := by
  have hesc : (escaping r).step .lookEscapeChar r.escapeChar = ([], .lookChar) := by
    simp [escaping]
  have hpair : slice buf wi (i + 2) = slice buf wi i ++ [r.escapeChar, nc] := by
    rw [slice_succ (by omega) hnc, slice_succ hwi hb, List.append_assoc]
    rfl
  have hlast : ((buf.take n).drop (i + 2)).length = 1 →
      endsEscapedNewLine r .lookChar (nc :: (buf.take n).drop (i + 2)) = false := by
    intro hl
    obtain ⟨x, hx⟩ := List.length_eq_one_iff.mp hl
    rw [hx]
    exact endsEscapedNewLine_pair_of_ne _ x hne
  have hfirst : (nc :: (buf.take n).drop (i + 2)).length = 1 →
      endsEscapedNewLine r .lookEscapeChar
        (r.escapeChar :: nc :: (buf.take n).drop (i + 2)) = false := by
    intro hl
    have hnil : (buf.take n).drop (i + 2) = [] := by
      rw [List.length_cons] at hl
      exact List.eq_nil_of_length_eq_zero (by omega)
    rw [hnil]
    exact h hnil
  have hi0 : i < n := by omega
  simp only [tailSpec, drop_take_eq_cons hi0 hb, drop_take_eq_cons hi hnc,
    endState_cons _ hfirst, hesc, endState_cons _ hlast, hstep, Transducer.runFrom_cons, hpair,
    List.nil_append, List.append_assoc]

end Tail

variable (r) in
/-- `scan` from `i` writes and returns what `tailSpec` gives, from every state of the escaping in
which the byte at `i` passes as it is (the state after a byte, at the end). -/
def ScanAgrees (buf : List UInt8) (n i : ℕ) : Prop :=
  ∀ wi s, wi ≤ i → (i = n → s = .lookNewLine) →
    (∀ b, buf[i]? = some b → i < n → (escaping r).step s b = ([b], lineState b)) →
    scan r buf n i wi = tailSpec r buf n i wi s

variable (r) in
/-- `START` at a line start `i` writes and returns what `tailSpec` gives. -/
def StartAgrees (buf : List UInt8) (n i : ℕ) : Prop :=
  ∀ wi, wi ≤ i → start r buf n i wi .lookEscapeChar = tailSpec r buf n i wi .lookEscapeChar

section Agree

variable {buf : List UInt8} {n i : ℕ}

theorem exists_getElem? (h : i < buf.length) : ∃ b, buf[i]? = some b :=
  ⟨buf[i], List.getElem?_eq_getElem h⟩

/-- `scan` at `i` agrees where `scan` and `START` agree at `i + 1`. -/
theorem scan_step (hn : n ≤ buf.length) (hi : i ≤ n) (h1 : i < n → ScanAgrees r buf n (i + 1))
    (h1' : i + 1 < n → StartAgrees r buf n (i + 1)) : ScanAgrees r buf n i := by
  intro wi s hwi hend hverb
  rcases Nat.lt_or_ge i n with hlt | hge
  · obtain ⟨b, hb⟩ := exists_getElem? (show i < buf.length by omega)
    rw [tailSpec_verbatim hlt hb hwi (hverb b hb hlt), scan, dif_neg (by omega)]
    simp only [hb]
    by_cases hnl : isNewLine b = true
    · -- a new line: look at the byte after it
      have hls : lineState b = .lookEscapeChar := by simp [lineState, hnl]
      rw [if_pos hnl, hls]
      by_cases hlast : n ≤ i + 1
      · rw [if_pos hlast, tailSpec_of_le hlast]
        rw [show n = i + 1 by omega]
      · rw [if_neg hlast]
        obtain ⟨b', hb'⟩ := exists_getElem? (show i + 1 < buf.length by omega)
        by_cases hpeek : b' = r.escapeChar
        · rw [if_pos (by rw [hb', hpeek])]
          exact h1' (by omega) wi (by omega)
        · rw [if_neg (by rw [hb']; simpa using hpeek)]
          refine h1 hlt wi .lookEscapeChar (by omega) (by omega) fun c hc _ ↦ ?_
          rw [hb', Option.some.injEq] at hc
          subst hc
          exact escaping_step_lookEscapeChar_of_ne hpeek
    · have hls : lineState b = .lookNewLine := by simp [lineState, hnl]
      rw [if_neg hnl, hls]
      exact h1 hlt wi .lookNewLine (by omega) (fun _ ↦ rfl)
        fun c _ _ ↦ escaping_step_lookNewLine c
  · -- at the end of the bytes read
    have hin : i = n := by omega
    subst hin
    rw [scan, dif_pos le_rfl, tailSpec_of_le le_rfl, hend rfl]

/-- `START` right after the bytes read, when they end with the escape character at a line start and
a new line the handler does not take: it reads the byte `buf[n]` after them. -/
theorem start_after_escaped_newline {wi : ℕ} {nc : UInt8} (hn2 : n = i + 2)
    (hb : buf[i]? = some r.escapeChar) (hnc : buf[i + 1]? = some nc) (hwi : wi ≤ i)
    (hnce : nc ≠ r.escapeChar) (hhandled : r.handler nc = false) (hnl : isNewLine nc = true) :
    start r buf n n wi .lookEscapeChar = tailSpec r buf n i wi .lookEscapeChar := by
  have hD : (buf.take n).drop i = [r.escapeChar, nc] := by
    rw [drop_take_eq_cons (by omega) hb, drop_take_eq_cons (by omega) hnc, drop_take_of_le (by omega)]
  have hslice : slice buf wi n = slice buf wi i ++ [r.escapeChar, nc] := by
    rw [hn2, slice_succ (by omega) hnc, slice_succ hwi hb, List.append_assoc]
    rfl
  have hrun : (escaping r).runFrom .lookEscapeChar [r.escapeChar, nc] = [r.escapeChar, nc] := by
    simp [escaping, hnce, hhandled]
  have hends : endsEscapedNewLine r .lookEscapeChar [r.escapeChar, nc] = true := by
    rw [endsEscapedNewLine_escape_pair, hnl, hhandled]
    rfl
  simp only [tailSpec, hD, endState, hends, if_true, hrun, Option.map_map]
  rw [start, if_pos rfl]
  cases hbn : buf[n]? with
  | none => rfl
  | some b' =>
    by_cases hb' : b' = r.escapeChar
    · simp [hb', hslice]
    · simp only [hb', if_false, Option.map_some, Function.comp_apply]
      rw [scan, dif_pos le_rfl, hslice]

/-- `START` at `i` agrees where `scan` agrees at `i`, `i + 1` and `i + 2` and `START` at `i + 2`. -/
theorem start_step (hesc : isNewLine r.escapeChar = false) (hn : n ≤ buf.length) (hi : i < n)
    (h0 : ScanAgrees r buf n i) (h1 : ScanAgrees r buf n (i + 1))
    (h2 : i + 2 ≤ n → ScanAgrees r buf n (i + 2))
    (h2' : i + 2 < n → StartAgrees r buf n (i + 2)) : StartAgrees r buf n i := by
  intro wi hwi
  obtain ⟨b, hb⟩ := exists_getElem? (show i < buf.length by omega)
  rw [start, if_pos rfl]
  simp only [hb]
  by_cases hbe : b = r.escapeChar
  swap
  · -- not an escape character: it passes as it is
    rw [if_neg hbe]
    exact h0 wi .lookEscapeChar hwi (by omega) fun c hc _ ↦ by
      rw [hb, Option.some.injEq] at hc
      subst hc
      exact escaping_step_lookEscapeChar_of_ne hbe
  rw [if_pos hbe]
  rw [hbe] at hb
  have hstep : (escaping r).step .lookEscapeChar r.escapeChar = ([], .lookChar) := by
    simp [escaping]
  by_cases hlast : n ≤ i + 1
  · -- the bytes end with the escape character
    rw [dif_pos hlast]
    simp [tailSpec, drop_take_eq_cons hi hb, drop_take_of_le hlast, endState,
      endsEscapedNewLine, hstep]
  rw [dif_neg hlast]
  obtain ⟨nc, hnc⟩ := exists_getElem? (show i + 1 < buf.length by omega)
  simp only [hnc]
  -- where the bytes end right after the pair, whether they end with an escaped new line
  have hends : ((buf.take n).drop (i + 1)).length = 1 →
      endsEscapedNewLine r .lookEscapeChar (r.escapeChar :: (buf.take n).drop (i + 1)) =
        (isNewLine nc && !r.handler nc) := fun hl ↦ by
    rw [drop_take_eq_singleton hnc hl, endsEscapedNewLine_escape_pair]
  by_cases hnce : nc = r.escapeChar
  · -- `~~`: one escape character is written
    rw [if_pos hnce, tailSpec_silent hi hb hstep fun hl ↦ by rw [hends hl, hnce, hesc]; rfl]
    rw [h1 (i + 1) .lookChar le_rfl (by omega) fun c hc _ ↦ ?_]
    rw [hnc, Option.some.injEq] at hc
    subst hc
    simp [escaping, lineState, hesc, hnce]
  rw [if_neg hnce]
  by_cases hhandled : r.handler nc = true
  · -- the handler takes the byte: both are dropped
    have hstep' : (escaping r).step .lookChar nc = ([], .lookNewLine) := by
      simp [escaping, hnce, hhandled]
    rw [if_pos hhandled, tailSpec_silent hi hb hstep fun hl ↦ by rw [hends hl, hhandled]; simp,
      tailSpec_silent (by omega) hnc hstep' fun hl ↦ ?_, slice_self, Option.map_map,
      h2 (by omega) (i + 2) .lookNewLine le_rfl (fun _ ↦ rfl)
        fun c _ _ ↦ escaping_step_lookNewLine c]
    · rfl
    · obtain ⟨x, hx⟩ := List.length_eq_one_iff.mp hl
      rw [hx]
      exact endsEscapedNewLine_pair_of_ne _ x hnce
  rw [if_neg hhandled]
  rw [Bool.not_eq_true] at hhandled
  by_cases hnl : isNewLine nc = true
  · rw [if_pos hnl]
    have hstep' : (escaping r).step .lookChar nc = ([r.escapeChar, nc], .lookEscapeChar) := by
      simp [escaping, hnce, hhandled, lineState, hnl]
    by_cases hmore : i + 2 < n
    · -- a new line passed on with the escape character: a line start again
      rw [tailSpec_escaped (by omega) hb hnc hwi hnce hstep' fun hnil ↦ ?_]
      · exact h2' hmore wi (by omega)
      · have := congrArg List.length hnil
        simp at this
        omega
    · -- the bytes end with `~` and a new line: `START` reads the byte after them
      rw [show i + 2 = n by omega]
      exact start_after_escaped_newline (by omega) hb hnc hwi hnce hhandled hnl
  · -- any other byte is passed on with the escape character
    rw [if_neg hnl]
    have hstep' : (escaping r).step .lookChar nc = ([r.escapeChar, nc], .lookNewLine) := by
      simp [escaping, hnce, hhandled, lineState, hnl]
    rw [tailSpec_escaped (by omega) hb hnc hwi hnce hstep' fun _ ↦ by
      rw [endsEscapedNewLine_escape_pair]; simp [hnl]]
    exact h2 (by omega) wi .lookNewLine (by omega) (fun _ ↦ rfl)
      fun c _ _ ↦ escaping_step_lookNewLine c

end Agree

/-- `scan` and `START` agree with the escaping at every position up to `n`, by induction on the
bytes left after the position. -/
theorem agrees (hesc : isNewLine r.escapeChar = false) {buf : List UInt8} {n : ℕ}
    (hn : n ≤ buf.length) (i : ℕ) (hi : i ≤ n) :
    ScanAgrees r buf n i ∧ (i < n → StartAgrees r buf n i) := by
  have h1 : i < n → ScanAgrees r buf n (i + 1) := fun h ↦ (agrees hesc hn (i + 1) h).1
  have h1' : i + 1 < n → StartAgrees r buf n (i + 1) := fun h ↦
    (agrees hesc hn (i + 1) (by omega)).2 h
  have h2 : i + 2 ≤ n → ScanAgrees r buf n (i + 2) := fun h ↦ (agrees hesc hn (i + 2) h).1
  have h2' : i + 2 < n → StartAgrees r buf n (i + 2) := fun h ↦
    (agrees hesc hn (i + 2) (by omega)).2 h
  have h0 := scan_step hn hi h1 h1'
  exact ⟨h0, fun hlt ↦ start_step hesc hn hlt h0 (h1 hlt) h2 h2'⟩
termination_by n - i
decreasing_by all_goals omega

/-- From a line start or inside a line, `processBuf` writes and returns what `tailSpec` gives from
the first byte. -/
theorem processBuf_eq_tailSpec (hesc : isNewLine r.escapeChar = false) {buf : List UInt8} {n : ℕ}
    {s : LookState} (hn : n ≤ buf.length) (h0 : 0 < n) (hs : s ≠ .lookChar) :
    processBuf r buf n s = tailSpec r buf n 0 0 s := by
  rw [processBuf]
  cases s with
  | lookChar => exact absurd rfl hs
  | lookEscapeChar => exact (agrees hesc hn 0 (Nat.zero_le n)).2 h0 0 le_rfl
  | lookNewLine =>
    rw [start, if_neg (by simp)]
    exact (agrees hesc hn 0 (Nat.zero_le n)).1 0 .lookNewLine le_rfl (fun _ ↦ rfl)
      fun c _ _ ↦ escaping_step_lookNewLine c

/-- From a line start or inside a line, `processBuf` writes the escaping of the `n` bytes read and
returns the escaping's state after them, except where they end with a line-start `~` and a new
line the handler does not take: there it returns the state `buf[n]` gives, `none` (a panic) when
`buf` has no byte at `n`. -/
theorem processBuf_eq_spec (hesc : isNewLine r.escapeChar = false) {buf : List UInt8} {n : ℕ}
    {s : LookState} (hn : n ≤ buf.length) (h0 : 0 < n) (hs : s ≠ .lookChar) :
    processBuf r buf n s = processBufSpec r buf n s := by
  rw [processBuf_eq_tailSpec hesc hn h0 hs]
  simp [tailSpec, processBufSpec, slice_self]

/-- A read of `~` and a new line over a buffer holding `~` from an earlier read: `processBuf`
returns `sLookChar`. -/
theorem processBuf_eq_spec_staleEscape :
    isNewLine 126 = false ∧ 2 ≤ [126, 10, 126].length ∧ 0 < 2 ∧
      LookState.lookEscapeChar ≠ .lookChar ∧
      processBuf ⟨126, fun c ↦ c == 46⟩ [126, 10, 126] 2 .lookEscapeChar =
        some ([126, 10], .lookChar) :=
  ⟨by decide, by decide, by decide, by decide,
    (processBuf_eq_spec (by decide) (by decide) (by decide) (by decide)).trans (by decide)⟩

/-- After an escaped new line the escaping is at a line start. -/
theorem stateAfter_of_endsEscapedNewLine (hesc : isNewLine r.escapeChar = false) {s : LookState}
    {l : List UInt8} (h : endsEscapedNewLine r s l = true) :
    (escaping r).stateAfter s l = .lookEscapeChar := by
  obtain ⟨pre, c, nl, rfl⟩ := exists_eq_append_pair (two_le_length_of_endsEscapedNewLine h)
  rw [endsEscapedNewLine_append_pair] at h
  simp only [Bool.and_eq_true, beq_iff_eq, Bool.not_eq_eq_eq_not, Bool.not_true] at h
  obtain ⟨⟨⟨rfl, hnl⟩, hhandled⟩, hpre⟩ := h
  have hne : nl ≠ r.escapeChar := fun he ↦ by rw [he, hesc] at hnl; exact Bool.false_ne_true hnl
  rw [Transducer.stateAfter_append, hpre]
  simp [escaping, hne, hhandled, lineState, hnl]

/-- A read that fills the buffer and ends with an escaped new line makes `processBuf` read past the
buffer, where Go panics. -/
theorem processBuf_eq_none (hesc : isNewLine r.escapeChar = false) {buf : List UInt8}
    {s : LookState} (hs : s ≠ .lookChar) (hends : endsEscapedNewLine r s buf = true) :
    processBuf r buf buf.length s = none := by
  have h0 : 0 < buf.length := by
    have := two_le_length_of_endsEscapedNewLine hends
    omega
  rw [processBuf_eq_tailSpec hesc le_rfl h0 hs]
  simp [tailSpec, endState, hends]

/-- A shorter read that ends with an escaped new line returns a state read off the byte left in
the buffer after it, never the line start the escaping is at. -/
theorem processBuf_stale (hesc : isNewLine r.escapeChar = false) {buf : List UInt8} {n : ℕ}
    {s : LookState} (hn : n < buf.length) (hs : s ≠ .lookChar)
    (hends : endsEscapedNewLine r s (buf.take n) = true) :
    ∃ out st, processBuf r buf n s = some (out, st) ∧
      st ≠ (escaping r).stateAfter s (buf.take n) := by
  have h0 : 0 < n := by
    have := two_le_length_of_endsEscapedNewLine hends
    simp at this
    omega
  rw [processBuf_eq_tailSpec hesc hn.le h0 hs, stateAfter_of_endsEscapedNewLine hesc hends]
  obtain ⟨b, hb⟩ := exists_getElem? hn
  refine ⟨(escaping r).runFrom s (buf.take n), if b = r.escapeChar then .lookChar else .lookNewLine,
    ?_, by split_ifs <;> simp⟩
  simp [tailSpec, endState, hends, hb, slice_self]

/-- A read of `~` and a new line over a buffer holding `~` from an earlier read. -/
theorem processBuf_stale_staleEscape :
    isNewLine 126 = false ∧ 2 < [126, 10, 126].length ∧
      LookState.lookEscapeChar ≠ .lookChar ∧
      endsEscapedNewLine ⟨126, fun c ↦ c == 46⟩ .lookEscapeChar ([126, 10, 126].take 2) = true ∧
      ∃ out st, processBuf ⟨126, fun c ↦ c == 46⟩ [126, 10, 126] 2 .lookEscapeChar =
          some (out, st) ∧
        st ≠ (escaping ⟨126, fun c ↦ c == 46⟩).stateAfter .lookEscapeChar ([126, 10, 126].take 2) :=
  have hends : endsEscapedNewLine ⟨126, fun c ↦ c == 46⟩ .lookEscapeChar
      ([126, 10, 126].take 2) = true := by decide
  ⟨by decide, by decide, by decide, hends,
    processBuf_stale (by decide) (by decide) (by decide) hends⟩

end Refinement

/-! ### `pipe` over a stream read in chunks -/

section Chunks

/-- An `io.Reader` over a stream cut into the chunks its `Read`s return, a chunk longer than the
room given being returned in parts; after the last chunk `Read` returns an error. -/
def chunkReader : IoReader (List (List UInt8)) Unit where
  read
    | [], _ => ([], some (), [])
    | c :: cs, m => if c.length ≤ m then (c, none, cs) else (c.take m, none, c.drop m :: cs)

variable (r) in
/-- No run of the chunks read from state `s` up to the end of a chunk ends with an escaped new
line. -/
def ReadsEndClean (s : LookState) (cs : List (List UInt8)) : Prop :=
  ∀ j, endsEscapedNewLine r s (cs.take j).flatten = false

variable {r : Reader}

theorem fill_length {rb data : List UInt8} (h : data.length ≤ rb.length) :
    (fill rb data).length = rb.length := by
  simp only [fill, List.length_append, List.length_drop]
  omega

theorem take_fill (rb data : List UInt8) : (fill rb data).take data.length = data := by
  simp [fill]

/-- Where the bytes `l₁ ++ l₂` do not end with an escaped new line, neither do the bytes `l₂` read
from where `l₁` leaves the escaping. -/
theorem endsEscapedNewLine_of_append {s : LookState} {l₁ l₂ : List UInt8}
    (h : endsEscapedNewLine r s (l₁ ++ l₂) = false) :
    endsEscapedNewLine r ((escaping r).stateAfter s l₁) l₂ = false := by
  rcases Nat.lt_or_ge l₂.length 2 with hl | hl
  · match l₂, hl with
    | [], _ => rfl
    | [_], _ => rfl
  · obtain ⟨pre, c, nl, rfl⟩ := exists_eq_append_pair hl
    rw [← List.append_assoc, endsEscapedNewLine_append_pair] at h
    rw [endsEscapedNewLine_append_pair, ← Transducer.stateAfter_append]
    exact h

theorem readsEndClean_head {s : LookState} {c : List UInt8} {cs : List (List UInt8)}
    (h : ReadsEndClean r s (c :: cs)) : endsEscapedNewLine r s c = false := by
  simpa using h 1

theorem readsEndClean_cons {s : LookState} {c : List UInt8} {cs : List (List UInt8)}
    (h : ReadsEndClean r s (c :: cs)) : ReadsEndClean r ((escaping r).stateAfter s c) cs :=
  fun j ↦ endsEscapedNewLine_of_append (by simpa using h (j + 1))

/-- Splitting the first byte off a chunk adds a boundary after one byte, which cannot end with
two. -/
theorem readsEndClean_split {s : LookState} {x : UInt8} {t : List UInt8} {cs : List (List UInt8)}
    (h : ReadsEndClean r s ((x :: t) :: cs)) : ReadsEndClean r s ([x] :: t :: cs) := by
  intro j
  match j with
  | 0 => rfl
  | 1 => rfl
  | j + 2 => simpa using h (j + 1)

theorem readsEndClean_nil_cons {s : LookState} {cs : List (List UInt8)}
    (h : ReadsEndClean r s ([] :: cs)) : ReadsEndClean r s cs :=
  readsEndClean_cons h

/-- `processBuf` of a read whose bytes do not end with an escaped new line. -/
theorem processBuf_fill (hesc : isNewLine r.escapeChar = false) {rb data : List UInt8}
    {s : LookState} (hd : 0 < data.length) (hrb : data.length ≤ rb.length) (hs : s ≠ .lookChar)
    (hends : endsEscapedNewLine r s data = false) :
    processBuf r (fill rb data) data.length s =
      some ((escaping r).runFrom s data, (escaping r).stateAfter s data) := by
  rw [processBuf_eq_tailSpec hesc (by rw [fill_length hrb]; exact hrb) hd hs]
  simp [tailSpec, take_fill, endState, hends, slice_self]

/-- The one-byte read after a chunk that ends with the escape character at a line start. -/
theorem readAfterEscape_chunk (rb out : List UInt8) (x : UInt8) (t : List UInt8)
    (cs : List (List UInt8)) :
    readAfterEscape r chunkReader ((x :: t) :: cs) rb out =
      (out ++ (afterEscape r x).1, (afterEscape r x).2, none, (if t = [] then cs else t :: cs),
        fill rb [x]) := by
  cases t <;> simp [readAfterEscape, chunkReader]

theorem afterEscape_ne_lookChar (c : UInt8) : (afterEscape r c).2 ≠ .lookChar := by
  unfold afterEscape
  split_ifs <;> simp

/-- A turn of `pipe` over the next chunk, when its bytes do not end with an escaped new line. -/
theorem turn_chunk (hesc : isNewLine r.escapeChar = false) {rb c : List UInt8}
    {cs : List (List UInt8)} {s : LookState} (hc : c ≠ []) (hrb : c.length ≤ rb.length)
    (hs : s ≠ .lookChar) (hends : endsEscapedNewLine r s c = false) :
    turn r chunkReader (c :: cs) rb s = some
      (if (escaping r).stateAfter s c = .lookChar then
        readAfterEscape r chunkReader cs (fill rb c) ((escaping r).runFrom s c)
      else ((escaping r).runFrom s c, (escaping r).stateAfter s c, none, cs, fill rb c)) := by
  have hd : 0 < c.length := List.length_pos_of_ne_nil hc
  simp only [turn, chunkReader, if_pos hrb, if_pos hd, processBuf_fill hesc hd hrb hs hends,
    Option.map_some]

/-- The chunks left after the one-byte read from a chunk `x :: t`. -/
theorem readsEndClean_after_one {s : LookState} {x : UInt8} {t : List UInt8}
    {cs : List (List UInt8)} (h : ReadsEndClean r s ((x :: t) :: cs)) :
    ReadsEndClean r ((escaping r).step s x).2 (if t = [] then cs else t :: cs) := by
  have h1 : ReadsEndClean r ((escaping r).step s x).2 (t :: cs) :=
    readsEndClean_cons (readsEndClean_split h)
  split_ifs with ht
  · subst ht
    exact readsEndClean_nil_cons h1
  · exact h1

/-- Over chunks that fit in the buffer and whose reads never end with an escaped new line, the
loop of `pipe` writes the escaping of the whole stream and closes the pipe with the reader's
error, by induction on the fuel. -/
theorem pipeLoop_chunks (hesc : isNewLine r.escapeChar = false) :
    ∀ (fuel : ℕ) (cs : List (List UInt8)) (rb : List UInt8) (s : LookState),
      (∀ c ∈ cs, c ≠ [] ∧ c.length ≤ rb.length) → s ≠ .lookChar → ReadsEndClean r s cs →
      cs.length < fuel →
      pipeLoop r chunkReader fuel cs rb s = some ((escaping r).output s cs.flatten, some ())
  | 0, _, _, _, _, _, _, hfuel => absurd hfuel (Nat.not_lt_zero _)
  | fuel + 1, [], rb, s, _, hs, _, _ => by
    -- the stream has ended: `Read` returns its error at once
    simp [pipeLoop, turn, chunkReader, escaping, hs]
  | fuel + 1, c :: cs, rb, s, hcs, hs, hclean, hfuel => by
    obtain ⟨hc, hrb⟩ := hcs c List.mem_cons_self
    have hfill : (fill rb c).length = rb.length := fill_length hrb
    have hclean' := readsEndClean_cons hclean
    rw [pipeLoop, turn_chunk hesc hc hrb hs (readsEndClean_head hclean), List.flatten_cons,
      Transducer.output_append]
    by_cases hheld : (escaping r).stateAfter s c = .lookChar
    swap
    · -- the next turn starts from the state after the chunk
      rw [if_neg hheld]
      dsimp only
      rw [pipeLoop_chunks hesc fuel cs (fill rb c) _ (hfill ▸ fun c' hc' ↦
          hcs c' (List.mem_cons_of_mem c hc')) hheld hclean' (by simp at hfuel; omega)]
      rfl
    rw [if_pos hheld]
    rw [hheld] at hclean' ⊢
    cases cs with
    | nil =>
      -- the stream ends with the escape character held: it is written on the error
      simp [readAfterEscape, chunkReader, escaping]
    | cons c' cs =>
      -- the one-byte read decides the sequence
      obtain ⟨hc', hrb'⟩ := hcs c' (by simp)
      obtain ⟨x, t, rfl⟩ := List.exists_cons_of_ne_nil hc'
      have hrest : ∀ d ∈ (if t = [] then cs else t :: cs),
          d ≠ [] ∧ d.length ≤ (fill (fill rb c) [x]).length := by
        have hx : [x].length ≤ (fill rb c).length := by
          rw [hfill]
          simp only [List.length_cons, List.length_nil] at hrb' ⊢
          omega
        rw [fill_length hx, hfill]
        split_ifs with ht
        · exact fun d hd ↦ hcs d (by simp [hd])
        · intro d hd
          rcases List.mem_cons.mp hd with rfl | hd
          · exact ⟨ht, by simp at hrb'; omega⟩
          · exact hcs d (by simp [hd])
      have hlen : (if t = [] then cs else t :: cs).length < fuel := by
        simp only [List.length_cons] at hfuel
        split_ifs
        · omega
        · simp only [List.length_cons]
          omega
      have hflat : (if t = [] then cs else t :: cs).flatten = t ++ cs.flatten := by
        split_ifs with ht <;> simp [ht]
      rw [readAfterEscape_chunk]
      dsimp only
      rw [pipeLoop_chunks hesc fuel _ _ _ hrest (afterEscape_ne_lookChar x)
        (escaping_step_lookChar (r := r) x ▸ readsEndClean_after_one hclean') hlen, hflat]
      simp [Transducer.output_cons, escaping_step_lookChar]

/-- Over a stream read in non-empty chunks of at most 4096 bytes, no run of which up to the end of
a chunk ends with an escaped new line, `pipe` writes the escaping of the whole stream and closes
the pipe with the reader's error. -/
theorem pipe_chunks (hesc : isNewLine r.escapeChar = false) {cs : List (List UInt8)} {fuel : ℕ}
    (hcs : ∀ c ∈ cs, c ≠ [] ∧ c.length ≤ 4096)
    (hends : ∀ j ≤ cs.length, endsEscapedNewLine r .lookEscapeChar (cs.take j).flatten = false)
    (hfuel : cs.length < fuel) :
    pipe r chunkReader fuel cs = some ((escaping r).output .lookEscapeChar cs.flatten, some ()) := by
  -- a run past the last chunk is the whole stream
  have hclean : ReadsEndClean r .lookEscapeChar cs := fun j ↦ by
    rcases Nat.le_total j cs.length with hj | hj
    · exact hends j hj
    · rw [List.take_of_length_le hj]
      simpa using hends cs.length le_rfl
  have hrb : ∀ c ∈ cs, c ≠ [] ∧ c.length ≤ (List.replicate 4096 (0 : UInt8)).length := by
    rw [List.length_replicate]
    exact hcs
  exact pipeLoop_chunks hesc fuel cs _ _ hrb (by decide) hclean hfuel

/-- `~.` after a line, the handler taking `.`: the pipe drops it. -/
theorem pipe_chunks_hangUp :
    isNewLine 126 = false ∧
      (∀ c ∈ ([[104, 105, 10], [126, 46, 10]] : List (List UInt8)), c ≠ [] ∧ c.length ≤ 4096) ∧
      (∀ j ≤ 2, endsEscapedNewLine ⟨126, fun c ↦ c == 46⟩ .lookEscapeChar
        (([[104, 105, 10], [126, 46, 10]] : List (List UInt8)).take j).flatten = false) ∧
      2 < 3 ∧
      pipe ⟨126, fun c ↦ c == 46⟩ chunkReader 3 [[104, 105, 10], [126, 46, 10]] =
        some ([104, 105, 10, 10], some ()) :=
  ⟨by decide, by decide, by decide, by decide,
    (pipe_chunks (by decide) (by decide) (by decide) (by decide)).trans (by decide)⟩

/-- A read that fills the buffer and ends with an escaped new line panics the goroutine, from
every state of its loop. -/
theorem pipeLoop_full_read (hesc : isNewLine r.escapeChar = false) {fuel : ℕ} {c rb : List UInt8}
    {cs : List (List UInt8)} {s : LookState} (hc : c.length = rb.length) (hs : s ≠ .lookChar)
    (hends : endsEscapedNewLine r s c = true) :
    pipeLoop r chunkReader (fuel + 1) (c :: cs) rb s = none := by
  have hfill : fill rb c = c := by simp [fill, hc]
  have hd : 0 < c.length := by
    have := two_le_length_of_endsEscapedNewLine hends
    omega
  have hturn : turn r chunkReader (c :: cs) rb s = none := by
    simp only [turn, chunkReader, hc, le_refl, if_true, hfill]
    rw [if_pos (hc ▸ hd), ← hc, processBuf_eq_none hesc hs hends, Option.map_none]
  simp [pipeLoop, hturn]

/-- A two-byte buffer filled by `~` and a new line at a line start. -/
theorem pipeLoop_full_read_escapedNewLine :
    isNewLine 126 = false ∧ [126, 10].length = [0, 0].length ∧
      LookState.lookEscapeChar ≠ .lookChar ∧
      endsEscapedNewLine ⟨126, fun c ↦ c == 46⟩ .lookEscapeChar [126, 10] = true ∧
      pipeLoop ⟨126, fun c ↦ c == 46⟩ chunkReader (0 + 1) [[126, 10]] [0, 0] .lookEscapeChar =
        none :=
  have hends : endsEscapedNewLine ⟨126, fun c ↦ c == 46⟩ .lookEscapeChar [126, 10] = true := by
    decide
  ⟨by decide, rfl, by decide, hends, pipeLoop_full_read (by decide) rfl (by decide) hends⟩

end Chunks

end Wander.Escapingio
