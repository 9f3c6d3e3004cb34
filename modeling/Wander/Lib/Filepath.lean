import Wander.Lib.Strings

/-!
# Go's path/filepath on Unix

`IsAbs`, `Clean`, `Join`, `Abs` and `Rel` of Go's path/filepath, for the separator `/`. Go's
`Clean` and `Rel` read a path a byte at a time and branch on whole elements, the pieces between
slashes; the model reads the path an element at a time.

An absolute path in the form `Clean` gives it is an `AbsPath`: a list of elements, none of them
empty, `.` or `..`, or holding a slash, written with a slash before each element (the root for
none). A directory contains a path, itself included, when its elements begin the path's
(`AbsPath.Within`). `Clean` of an absolute path is such a path (`clean_of_isAbs`) and leaves one
as it is (`clean_render`). `Rel` from a directory to a path it contains gives the path's elements
below the directory (`AbsPath.rel_of_within`), and `Rel` to a path it does not contain starts
with `..` (`AbsPath.rel_of_not_within`).
-/

set_option autoImplicit false
set_option relaxedAutoImplicit false

namespace Wander.Lib

/-- filepath.IsAbs. -/
def isAbs (path : String) : Bool := hasPrefix path "/"

/-- One element of the loop of filepath.Clean, on the elements kept so far, the last first. An
empty element and `.` are dropped; `..` removes the last element kept, is dropped at the root,
and is kept in a relative path when only `..` elements are kept before it. -/
def cleanStep (rooted : Bool) (out : List String) (e : String) : List String :=
  if e = "" ∨ e = "." then out
  else if e = ".." then
    match out with
    | [] => if rooted then [] else [".."]
    | o :: rest => if o = ".." then ".." :: out else rest
  else e :: out

/-- The elements filepath.Clean keeps, in order. -/
def cleanElems (rooted : Bool) (path : String) : List String :=
  ((split path '/').foldl (cleanStep rooted) []).reverse

/-- filepath.Clean. -/
def clean (path : String) : String :=
  let rooted := isAbs path
  let out := (if rooted then "/" else "") ++ "/".intercalate (cleanElems rooted path)
  -- the empty path is the current directory
  if out = "" then "." else out

/-- filepath.Join: the elements from the first nonempty one, joined by slashes and cleaned; the
empty string when all are empty. -/
def join (elem : List String) : String :=
  match elem.dropWhile (· == "") with
  | [] => ""
  | rest => clean ("/".intercalate rest)

/-- filepath.Abs; `getwd` is what os.Getwd returns. -/
def abs (getwd : Except String String) (path : String) : Except String String :=
  if isAbs path then .ok (clean path)
  else getwd.map fun wd ↦ join [wd, path]

/-- The loop of filepath.Rel: both lists of elements from their first differing element on. -/
def dropCommon : List String → List String → List String × List String
  | b :: bs, t :: ts => if t = b then dropCommon bs ts else (b :: bs, t :: ts)
  | bs, ts => (bs, ts)

/-- The error filepath.Rel returns. -/
def relError (basepath targpath : String) : String :=
  "Rel: can't make " ++ targpath ++ " relative to " ++ basepath

/-- The end of filepath.Rel, from the elements of both paths past their common ones. -/
def relRest (basepath targpath : String) (bs ts : List String) : Except String String :=
  let baseRest := "/".intercalate bs
  let targRest := "/".intercalate ts
  if bs.head? = some ".." then .error (relError basepath targpath)
  -- base elements left: go up before going down
  else if baseRest ≠ "" then
    .ok ("/".intercalate (List.replicate bs.length "..") ++
      if targRest = "" then "" else "/" ++ targRest)
  else .ok targRest

/-- filepath.Rel. -/
def rel (basepath targpath : String) : Except String String :=
  let base := clean basepath
  let targ := clean targpath
  if targ = base then .ok "."
  else
    let base := if base = "." then "" else base
    if isAbs base ≠ isAbs targ then .error (relError basepath targpath)
    else
      let common := dropCommon (split base '/') (split targ '/')
      relRest basepath targpath common.1 common.2

/-! ### Cleaned absolute paths -/

/-- An element of a cleaned absolute path: not empty, `.` or `..`, and without a slash. -/
def IsNormal (e : String) : Prop := e ≠ "" ∧ e ≠ "." ∧ e ≠ ".." ∧ '/' ∉ e.toList

instance : DecidablePred IsNormal := fun e ↦
  inferInstanceAs (Decidable (e ≠ "" ∧ e ≠ "." ∧ e ≠ ".." ∧ '/' ∉ e.toList))

/-- An absolute path in the form `Clean` gives it, by its elements. -/
structure AbsPath where
  elems : List String
  normal : ∀ e ∈ elems, IsNormal e

namespace AbsPath

/-- The path's text: a slash before each element, the root for none. -/
def render (p : AbsPath) : String := "/" ++ "/".intercalate p.elems

/-- A directory contains a path, itself included, when its elements begin the path's. -/
def Within (dir p : AbsPath) : Prop := dir.elems <+: p.elems

instance (dir p : AbsPath) : Decidable (dir.Within p) :=
  inferInstanceAs (Decidable (dir.elems <+: p.elems))

end AbsPath

/-- A piece of a split list holds no separator. -/
theorem not_mem_of_mem_splitOn {c : Char} : ∀ {xs l : List Char}, l ∈ xs.splitOn c → c ∉ l
  | [], l, h => by
    rw [List.splitOn_nil, List.mem_singleton] at h
    simp [h]
  | x :: xs, l, h => by
    rw [List.splitOn_cons_eq_if_modifyHead] at h
    split at h
    · rcases List.mem_cons.mp h with rfl | h
      · exact List.not_mem_nil
      · exact not_mem_of_mem_splitOn h
    · next hx =>
      -- the character is no separator, and goes to the front of the first piece
      obtain ⟨p, ps, hps⟩ := List.exists_cons_of_ne_nil (List.splitOn_ne_nil c xs)
      rw [hps, List.modifyHead_cons] at h
      rcases List.mem_cons.mp h with rfl | h
      · have hp : c ∉ p := not_mem_of_mem_splitOn (hps ▸ List.mem_cons_self)
        simp only [List.mem_cons, not_or]
        exact ⟨fun hc ↦ hx (by simp [hc]), hp⟩
      · exact not_mem_of_mem_splitOn (hps ▸ List.mem_cons_of_mem _ h)

/-- A piece of a split text holds no separator. -/
theorem not_mem_of_mem_split {s e : String} {c : Char} (h : e ∈ split s c) : c ∉ e.toList := by
  obtain ⟨l, hl, rfl⟩ := List.mem_map.mp h
  rw [String.toList_ofList]
  exact not_mem_of_mem_splitOn hl

/-- A step of `Clean` at the root keeps only elements of a cleaned absolute path. -/
theorem cleanStep_normal {out : List String} (hout : ∀ e ∈ out, IsNormal e) {e : String}
    (he : '/' ∉ e.toList) : ∀ x ∈ cleanStep true out e, IsNormal x := by
  unfold cleanStep
  by_cases hdot : e = "" ∨ e = "."
  · rw [if_pos hdot]
    exact hout
  rw [if_neg hdot]
  by_cases hdotdot : e = ".."
  · rw [if_pos hdotdot]
    -- `..` removes the last element, and at the root nothing
    cases out with
    | nil => simp
    | cons o rest =>
      have ho : o ≠ ".." := (hout o List.mem_cons_self).2.2.1
      show ∀ x ∈ (if o = ".." then ".." :: o :: rest else rest), IsNormal x
      rw [if_neg ho]
      exact fun x hx ↦ hout x (List.mem_cons_of_mem _ hx)
  · rw [if_neg hdotdot]
    intro x hx
    rcases List.mem_cons.mp hx with rfl | hx
    · exact ⟨fun h ↦ hdot (.inl h), fun h ↦ hdot (.inr h), hdotdot, he⟩
    · exact hout x hx

/-- Cleaning at the root keeps only elements of a cleaned absolute path. -/
theorem foldl_cleanStep_normal (l : List String) (hl : ∀ e ∈ l, '/' ∉ e.toList)
    (out : List String) (hout : ∀ e ∈ out, IsNormal e) :
    ∀ e ∈ l.foldl (cleanStep true) out, IsNormal e := by
  induction l generalizing out with
  | nil => exact hout
  | cons e l ih =>
    rw [List.foldl_cons]
    exact ih (fun x hx ↦ hl x (List.mem_cons_of_mem _ hx)) _
      (cleanStep_normal hout (hl e List.mem_cons_self))

/-- The cleaned form of a path, as an absolute path: the elements `Clean` keeps at the root. -/
def AbsPath.ofClean (path : String) : AbsPath :=
  ⟨cleanElems true path, fun e he ↦
    foldl_cleanStep_normal _ (fun _ h ↦ not_mem_of_mem_split h) [] (fun _ h ↦ nomatch h) e
      (List.mem_reverse.mp he)⟩

/-- Cleaning keeps every element of a cleaned path. -/
theorem foldl_cleanStep_of_normal (rooted : Bool) (l : List String) (hl : ∀ e ∈ l, IsNormal e)
    (out : List String) : l.foldl (cleanStep rooted) out = l.reverse ++ out := by
  induction l generalizing out with
  | nil => rfl
  | cons e l ih =>
    obtain ⟨hempty, hdot, hdotdot, -⟩ := hl e List.mem_cons_self
    have hstep : cleanStep rooted out e = e :: out := by
      simp [cleanStep, hempty, hdot, hdotdot]
    rw [List.foldl_cons, hstep, ih (fun x hx ↦ hl x (List.mem_cons_of_mem _ hx))]
    simp

namespace AbsPath

variable (p : AbsPath)

theorem isAbs_render : isAbs p.render = true := by
  simp [isAbs, hasPrefix, render, String.toList_append]

theorem render_ne_empty : p.render ≠ "" := by
  intro h
  have := congrArg String.toList h
  simp [render, String.toList_append] at this

/-- The pieces of a rendered path: the empty piece before the first slash, then the elements, or
one more empty piece for the root. -/
theorem split_render : split p.render '/' = "" :: if p.elems = [] then [""] else p.elems := by
  have hlist : p.render.toList = '/' :: ['/'].intercalate (p.elems.map String.toList) := by
    simp [render, String.toList_append, String.toList_intercalate]
  unfold split
  rw [hlist, List.splitOn_cons_eq_if_modifyHead, if_pos (by decide)]
  split_ifs with hnil
  · simp [hnil]
  · have hsep : ∀ l ∈ p.elems.map String.toList, '/' ∉ l := by
      intro l hl
      obtain ⟨e, he, rfl⟩ := List.mem_map.mp hl
      exact (p.normal e he).2.2.2
    rw [List.splitOn_intercalate _ hsep (by simpa using hnil)]
    simp

/-- `Clean` reads a rendered path back to its elements. -/
theorem cleanElems_render : cleanElems true p.render = p.elems := by
  unfold cleanElems
  rw [split_render, List.foldl_cons]
  have hempty : cleanStep true [] "" = [] := by simp [cleanStep]
  rw [hempty]
  split_ifs with hnil
  · simp [hempty, hnil]
  · rw [foldl_cleanStep_of_normal true _ p.normal]
    simp

/-- `Clean` leaves a cleaned absolute path as it is. -/
theorem clean_render : clean p.render = p.render := by
  simp only [clean, isAbs_render, if_true, cleanElems_render]
  exact if_neg (render_ne_empty p)

/-- A path is known by its text. -/
theorem elems_eq_of_render_eq {p q : AbsPath} (h : p.render = q.render) : p.elems = q.elems := by
  have hsplit := congrArg (split · '/') h
  simp only [split_render, List.cons.injEq, true_and] at hsplit
  -- a root against a path with elements would make the empty string an element
  have hnot : ∀ r : AbsPath, r.elems ≠ [""] := fun r hr ↦
    (r.normal "" (hr ▸ List.mem_singleton_self _)).1 rfl
  split_ifs at hsplit with hp hq hq
  · rw [hp, hq]
  · exact absurd hsplit.symm (hnot q)
  · exact absurd hsplit (hnot p)
  · exact hsplit

end AbsPath

/-- `Clean` of an absolute path is a cleaned absolute path. -/
theorem clean_of_isAbs {path : String} (h : isAbs path = true) :
    clean path = (AbsPath.ofClean path).render := by
  unfold clean
  simp only [h, if_true]
  rw [if_neg]
  · rfl
  · intro hempty
    have := congrArg String.toList hempty
    simp [String.toList_append] at this

/-! ### The loop of `Rel` -/

theorem dropCommon_append (l A E : List String) :
    dropCommon (l ++ A) (l ++ E) = dropCommon A E := by
  induction l with
  | nil => rfl
  | cons x l ih => simp [dropCommon, ih]

/-- When the first list begins the second, the loop leaves none of it and the rest of the
second. -/
theorem dropCommon_of_prefix {A E : List String} (h : A <+: E) :
    dropCommon A E = ([], E.drop A.length) := by
  obtain ⟨F, rfl⟩ := h
  have hcommon := dropCommon_append A [] F
  rw [List.append_nil] at hcommon
  rw [hcommon, List.drop_left]
  cases F <;> rfl

/-- When the first list does not begin the second, the loop leaves one of its elements in
front. -/
theorem dropCommon_of_not_prefix {A E : List String} (h : ¬ A <+: E) :
    ∃ b bs ts, dropCommon A E = (b :: bs, ts) ∧ b ∈ A := by
  induction A generalizing E with
  | nil => exact absurd (List.nil_prefix) h
  | cons a A ih =>
    cases E with
    | nil => exact ⟨a, A, [], rfl, List.mem_cons_self⟩
    | cons t E =>
      by_cases hta : t = a
      · subst hta
        obtain ⟨b, bs, ts, hdrop, hb⟩ := @ih E fun hp ↦ h (List.cons_prefix_cons.mpr ⟨rfl, hp⟩)
        exact ⟨b, bs, ts, by simp [dropCommon, hdrop], List.mem_cons_of_mem _ hb⟩
      · exact ⟨a, A, t :: E, by simp [dropCommon, hta], List.mem_cons_self⟩

section RelRest

variable (basepath targpath : String)

theorem relRest_of_intercalate_eq_empty {bs : List String} (ts : List String)
    (hhead : bs.head? ≠ some "..") (hrest : "/".intercalate bs = "") :
    relRest basepath targpath bs ts = .ok ("/".intercalate ts) := by
  simp [relRest, hhead, hrest]

theorem intercalate_cons_ne_empty {b : String} (bs : List String) (hb : b ≠ "") :
    "/".intercalate (b :: bs) ≠ "" := by
  intro h
  have := congrArg String.toList h
  cases bs with
  | nil => simp_all
  | cons b' bs => simp [String.intercalate_cons_cons, String.toList_append] at this

/-- Climbing one or more levels starts with `..`. -/
theorem intercalate_replicate_dotdot (n : ℕ) :
    ∃ s, "/".intercalate (List.replicate (n + 1) "..") = ".." ++ s := by
  cases n with
  | zero => exact ⟨"", by simp⟩
  | succ n =>
    refine ⟨"/" ++ "/".intercalate (List.replicate (n + 1) ".."), ?_⟩
    rw [List.replicate_succ, List.replicate_succ, String.intercalate_cons_cons,
      ← List.replicate_succ, String.append_assoc]

/-- Elements of the base left over make `Rel` climb with `..`. -/
theorem relRest_of_normal {b : String} (bs ts : List String) (hb : IsNormal b) :
    ∃ s, relRest basepath targpath (b :: bs) ts = .ok (".." ++ s) := by
  have hhead : (b :: bs).head? ≠ some ".." := by simpa using hb.2.2.1
  obtain ⟨s, hs⟩ := intercalate_replicate_dotdot bs.length
  simp only [relRest, if_neg hhead, if_pos (intercalate_cons_ne_empty bs hb.1),
    List.length_cons, hs]
  exact ⟨_, by rw [String.append_assoc]⟩

end RelRest

namespace AbsPath

variable {d p : AbsPath} {basepath targpath : String}

/-- `Rel` between two paths that clean to different absolute paths is the end of its loop over
their elements. -/
theorem rel_of_ne (hbase : clean basepath = d.render) (htarg : clean targpath = p.render)
    (hne : p.elems ≠ d.elems) :
    rel basepath targpath =
      relRest basepath targpath (dropCommon (split d.render '/') (split p.render '/')).1
        (dropCommon (split d.render '/') (split p.render '/')).2 := by
  have hrender : p.render ≠ d.render := fun h ↦ hne (elems_eq_of_render_eq h)
  have hdot : d.render ≠ "." := by
    intro h
    have := congrArg String.toList h
    simp [render, String.toList_append] at this
  simp only [rel, hbase, htarg, if_neg hrender, if_neg hdot, isAbs_render, ne_eq, not_true,
    if_false]

/-- `Rel` from a directory to a path it contains: `.` for the directory itself, and otherwise
the path's elements below the directory. -/
theorem rel_of_within (hbase : clean basepath = d.render) (htarg : clean targpath = p.render)
    (h : d.Within p) :
    rel basepath targpath =
      .ok (if p.elems = d.elems then "." else "/".intercalate (p.elems.drop d.elems.length)) := by
  by_cases heq : p.elems = d.elems
  · have hrender : p.render = d.render := by rw [render, render, heq]
    simp [rel, hbase, htarg, hrender, heq]
  rw [if_neg heq, rel_of_ne hbase htarg heq, split_render, split_render]
  by_cases hroot : d.elems = []
  · -- the root: the one empty piece of the base is left, and all of the path
    have hp : p.elems ≠ [] := fun hp ↦ heq (hp.trans hroot.symm)
    obtain ⟨e, es, hes⟩ := List.exists_cons_of_ne_nil hp
    have he : e ≠ "" := (p.normal e (hes ▸ List.mem_cons_self)).1
    have hdrop : dropCommon ("" :: [""]) ("" :: p.elems) = ([""], p.elems) := by
      rw [hes]
      simp [dropCommon, he]
    rw [if_pos hroot, if_neg hp, hdrop, hroot, List.length_nil, List.drop_zero]
    exact relRest_of_intercalate_eq_empty _ _ _ (by simp) (by simp)
  · have hp : p.elems ≠ [] := by
      intro hp
      have hpre : d.elems <+: p.elems := h
      rw [hp] at hpre
      exact hroot (List.prefix_nil.mp hpre)
    have hdrop := dropCommon_append [""] d.elems p.elems
    rw [ dropCommon_of_prefix h] at hdrop
    rw [if_neg hroot, if_neg hp]
    simp only [List.singleton_append] at hdrop
    rw [hdrop]
    exact relRest_of_intercalate_eq_empty _ _ _ (by simp) (by simp)

/-- `Rel` from a directory to a path it does not contain climbs with `..` first. -/
theorem rel_of_not_within (hbase : clean basepath = d.render) (htarg : clean targpath = p.render)
    (h : ¬ d.Within p) :
    ∃ s, rel basepath targpath = .ok (".." ++ s) := by
  have heq : p.elems ≠ d.elems := by
    intro heq
    exact h (show d.elems <+: p.elems by simp [heq])
  have hroot : d.elems ≠ [] := by
    intro hroot
    exact h (show d.elems <+: p.elems by rw [hroot]; exact List.nil_prefix)
  rw [rel_of_ne hbase htarg heq, split_render, split_render, if_neg hroot]
  by_cases hp : p.elems = []
  · -- the path is the root: all of the directory is left
    obtain ⟨b, bs, hbs⟩ := List.exists_cons_of_ne_nil hroot
    have hb : IsNormal b := d.normal b (hbs ▸ List.mem_cons_self)
    have hdrop : dropCommon ("" :: d.elems) ("" :: [""]) = (d.elems, [""]) := by
      rw [hbs]
      simp [dropCommon, hb.1]
    rw [if_pos hp, hdrop, hbs]
    exact relRest_of_normal _ _ _ _ hb
  · obtain ⟨b, bs, ts, hdrop, hb⟩ := dropCommon_of_not_prefix h
    have hcommon := dropCommon_append [""] d.elems p.elems
    simp only [List.singleton_append] at hcommon
    rw [if_neg hp, hcommon, hdrop]
    exact relRest_of_normal _ _ _ _ (d.normal b hb)

end AbsPath

/-! ### Texts that start with `..` -/

theorem hasPrefix_dotdot_append (s : String) : hasPrefix (".." ++ s) ".." = true := by
  simp [hasPrefix, String.toList_append]

/-- A path of several elements starts with `..` when its first element does: the slash after
the first element is no dot. -/
theorem hasPrefix_dotdot_intercalate (f : String) (F : List String) :
    hasPrefix ("/".intercalate (f :: F)) ".." = hasPrefix f ".." := by
  cases F with
  | nil => rw [String.intercalate_singleton]
  | cons g F =>
    rw [String.intercalate_cons_cons]
    simp only [hasPrefix, String.toList_append]
    rcases f.toList with _ | ⟨c, _ | ⟨c', cs⟩⟩ <;> simp [List.isPrefixOf]

/-- A path of elements is not `.`, whose one element would be `.`. -/
theorem intercalate_ne_dot {f : String} (F : List String) (hf : IsNormal f) :
    "/".intercalate (f :: F) ≠ "." := by
  cases F with
  | nil => simpa using hf.2.1
  | cons g F =>
    rw [String.intercalate_cons_cons]
    intro h
    have hlist := congrArg String.toList h
    simp only [String.toList_append] at hlist
    -- the slash after the first element would have to be the dot, or the first element empty
    rcases hft : f.toList with _ | ⟨c, cs⟩
    · exact hf.1 (String.toList_inj.mp (by simpa using hft))
    · rw [hft] at hlist
      simp at hlist

namespace AbsPath

variable {d p : AbsPath} {basepath targpath : String}

/-- A path that a directory contains and is not the directory has an element below it. -/
theorem drop_eq_cons_of_within (h : d.Within p) (hne : p.elems ≠ d.elems) :
    ∃ f F, p.elems.drop d.elems.length = f :: F := by
  have hlt : d.elems.length < p.elems.length := by
    rcases Nat.lt_or_ge d.elems.length p.elems.length with hlt | hge
    · exact hlt
    · exact absurd (List.IsPrefix.eq_of_length h (Nat.le_antisymm (List.IsPrefix.length_le h) hge)).symm
        hne
  exact List.exists_cons_of_ne_nil (by simpa [List.drop_eq_nil_iff] using hlt)

/-- `Rel` from a directory to a path starts with `..` exactly when the directory does not
contain the path, or the path's first element below the directory starts with `..`. -/
theorem rel_hasPrefix_dotdot (hbase : clean basepath = d.render)
    (htarg : clean targpath = p.render) :
    ∃ r, rel basepath targpath = .ok r ∧
      hasPrefix r ".." =
        (!decide (d.Within p) || (p.elems.drop d.elems.length).head?.any (hasPrefix · "..")) := by
  by_cases h : d.Within p
  · refine ⟨_, rel_of_within hbase htarg h, ?_⟩
    by_cases heq : p.elems = d.elems
    · simp [heq, h, hasPrefix]
    · obtain ⟨f, F, hF⟩ := drop_eq_cons_of_within h heq
      simp [heq, hF, h, hasPrefix_dotdot_intercalate]
  · obtain ⟨s, hs⟩ := rel_of_not_within hbase htarg h
    exact ⟨_, hs, by simp [h, hasPrefix_dotdot_append]⟩

end AbsPath

end Wander.Lib
