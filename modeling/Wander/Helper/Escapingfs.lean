import Wander.Lib.Filepath

/-!
# `helper/escapingfs`: whether a path leaves a directory

Three checks decide whether a path named by a job stays in a directory.
`PathEscapesAllocViaRelative` joins a prefix and a path below a placeholder allocation directory,
cleans the result and asks whether `Rel` from the directory to it starts with `..`.
`pathEscapesBaseViaSymlink` resolves the path's symbolic links and asks `Rel` the other way, from
the resolved path to the base. `PathEscapesSandbox` asks `Rel` from the sandbox to the path.
`PathEscapesAllocDir` runs the first two.

What the checks decide, for cleaned absolute paths (`AbsPath`, with containment
`AbsPath.Within`): the relative check reports a path as escaping when the directory does not
contain it, and also when its first element below the directory starts with `..`, such as a
file named `..foo` (`pathEscapesAllocViaRelative_eq`, `pathEscapesSandbox_eq`). The symbolic
link check, which reads `Rel` from the resolved path, reports an escape only when the resolved
path is a proper ancestor of the base (`pathEscapesBaseViaSymlink_eq`): a link to a sibling or to
an unrelated directory such as `/etc` is not reported (`path_escape_checks_misjudge`).

`filepath.EvalSymlinks` is a parameter, the file system being out of the model; so is the
working directory that `filepath.Abs` would read for a relative path.
-/

set_option autoImplicit false
set_option relaxedAutoImplicit false

namespace Wander.Escapingfs

open Wander.Lib

/-- The errors of the file system the checks see; `os.IsNotExist` holds of `notExist`. -/
inductive FsError
  | notExist
  | other (msg : String)
deriving DecidableEq, Repr

/-- `PathEscapesAllocViaRelative`; `getwd` is what os.Getwd would give filepath.Abs. -/
def pathEscapesAllocViaRelative (getwd : Except String String) (pathPrefix path : String) :
    Except String Bool := do
  -- the placeholders stand for the two levels of a real allocation directory
  let alloc ← abs getwd (join ["/", "alloc-dir/", "alloc-id/"])
  let absPath ← abs getwd (join [alloc, pathPrefix, path])
  let rel ← rel alloc absPath
  return hasPrefix rel ".."

/-- `pathEscapesBaseViaSymlink`; `evalSymlinks` is filepath.EvalSymlinks. -/
def pathEscapesBaseViaSymlink (evalSymlinks : String → Except FsError String)
    (base full : String) : Except FsError Bool :=
  match evalSymlinks full with
  | .error err => .error err
  | .ok resolveSym =>
    match rel resolveSym base with
    | .error _ => .ok true
    | .ok rel =>
      -- read as: the relative path is a descendant of the base path
      let isRelative := hasPrefix rel ".." || rel == "."
      .ok !isRelative

/-- `PathEscapesAllocDir`. -/
def pathEscapesAllocDir (getwd : Except String String)
    (evalSymlinks : String → Except FsError String) (base pathPrefix path : String) :
    Except FsError Bool :=
  let full := join [base, pathPrefix, path]
  if !isAbs base then .error (.other "alloc dir must be absolute")
  else
    match pathEscapesAllocViaRelative getwd pathPrefix path with
    | .error err => .error (.other err)
    | .ok true => .ok true
    | .ok false =>
      match pathEscapesBaseViaSymlink evalSymlinks base full with
      -- a file that does not exist is no error
      | .error .notExist => .ok false
      | .error err => .error err
      | .ok escapes => .ok escapes

/-- `PathEscapesSandbox`. -/
def pathEscapesSandbox (sandboxDir path : String) : Bool :=
  match rel sandboxDir path with
  | .error _ => true
  | .ok rel => hasPrefix rel ".."

/-! ### What the checks decide -/

/-- The placeholder allocation directory of the relative check. -/
def allocDir : AbsPath := ⟨["alloc-dir", "alloc-id"], by decide⟩

/-- The cleaned path below the placeholder directory that the relative check examines. -/
def allocPath (pathPrefix path : String) : AbsPath :=
  AbsPath.ofClean ("/".intercalate [allocDir.render, pathPrefix, path])

section Relative

variable (getwd : Except String String)

theorem abs_join_alloc : abs getwd (join ["/", "alloc-dir/", "alloc-id/"]) = .ok allocDir.render := by
  unfold Lib.abs
  rw [if_pos (by decide +kernel)]
  decide +kernel

theorem isAbs_intercalate_render (q : AbsPath) (l : List String) :
    isAbs ("/".intercalate (q.render :: l)) = true := by
  cases l with
  | nil => rw [String.intercalate_singleton, AbsPath.isAbs_render]
  | cons x l =>
    rw [String.intercalate_cons_cons]
    simp [isAbs, hasPrefix, AbsPath.render, String.toList_append]

/-- Below the absolute placeholder directory, `Abs` of the joined path is its cleaned form. -/
theorem abs_join_allocPath (pathPrefix path : String) :
    abs getwd (join [allocDir.render, pathPrefix, path]) = .ok (allocPath pathPrefix path).render := by
  have hjoin : join [allocDir.render, pathPrefix, path] =
      clean ("/".intercalate [allocDir.render, pathPrefix, path]) := by
    unfold join
    rw [List.dropWhile_cons_of_neg (by simpa using allocDir.render_ne_empty)]
  rw [hjoin, clean_of_isAbs (isAbs_intercalate_render _ _)]
  unfold Lib.abs
  rw [if_pos (AbsPath.isAbs_render _), AbsPath.clean_render]
  rfl

/-- The relative check is `Rel` from the placeholder directory to the cleaned path. -/
theorem pathEscapesAllocViaRelative_eq_map (pathPrefix path : String) :
    pathEscapesAllocViaRelative getwd pathPrefix path =
      (rel allocDir.render (allocPath pathPrefix path).render).map (hasPrefix · "..") := by
  simp only [pathEscapesAllocViaRelative, abs_join_alloc, abs_join_allocPath, bind,
    Except.bind, pure, Except.pure]
  cases rel allocDir.render (allocPath pathPrefix path).render <;> rfl

/-- The relative check reports a path as escaping when the placeholder directory does not
contain the cleaned path, or when the path's first element below the directory starts with
`..`. -/
theorem pathEscapesAllocViaRelative_eq (pathPrefix path : String) :
    pathEscapesAllocViaRelative getwd pathPrefix path =
      .ok (!decide (allocDir.Within (allocPath pathPrefix path)) ||
        ((allocPath pathPrefix path).elems.drop 2).head?.any (hasPrefix · "..")) := by
  obtain ⟨r, hrel, hprefix⟩ := AbsPath.rel_hasPrefix_dotdot (AbsPath.clean_render allocDir)
    (AbsPath.clean_render (allocPath pathPrefix path))
  rw [← show allocDir.elems.length = 2 from rfl, ← hprefix, pathEscapesAllocViaRelative_eq_map,
    hrel]
  rfl

end Relative

/-- The symbolic link check, on a path whose links resolve to a cleaned absolute path, reports an
escape exactly when the resolved path is a proper ancestor of the base whose next element below
it does not start with `..`: `Rel` from the resolved path to the base starts with `..` for every
other resolved path, inside the base or not. -/
theorem pathEscapesBaseViaSymlink_eq (evalSymlinks : String → Except FsError String)
    {base full : String} (hbase : isAbs base = true) (resolved : AbsPath)
    (hresolve : evalSymlinks full = .ok resolved.render) :
    pathEscapesBaseViaSymlink evalSymlinks base full =
      .ok (decide (resolved.Within (AbsPath.ofClean base) ∧
          (AbsPath.ofClean base).elems ≠ resolved.elems) &&
        !((AbsPath.ofClean base).elems.drop resolved.elems.length).head?.any
          (hasPrefix · "..")) := by
  have hclean := clean_of_isAbs hbase
  unfold pathEscapesBaseViaSymlink
  rw [hresolve]
  dsimp only
  by_cases h : resolved.Within (AbsPath.ofClean base)
  · rw [AbsPath.rel_of_within (AbsPath.clean_render resolved) hclean h]
    by_cases heq : (AbsPath.ofClean base).elems = resolved.elems
    · -- the base itself: `Rel` is `.`
      simp [heq]
    · obtain ⟨f, F, hF⟩ := AbsPath.drop_eq_cons_of_within h heq
      have hf : IsNormal f := (AbsPath.ofClean base).normal f
        (List.mem_of_mem_drop (hF ▸ List.mem_cons_self))
      simp [heq, hF, h, hasPrefix_dotdot_intercalate, intercalate_ne_dot F hf]
  · obtain ⟨s, hs⟩ := AbsPath.rel_of_not_within (AbsPath.clean_render resolved) hclean h
    simp [hs, h, hasPrefix_dotdot_append]

theorem pathEscapesBaseViaSymlink_eq_etc :
    isAbs "/srv/alloc" = true ∧
      (fun _ ↦ .ok "/etc" : String → Except FsError String) "/srv/alloc/link" =
        .ok (AbsPath.ofClean "/etc").render ∧
      pathEscapesBaseViaSymlink (fun _ ↦ .ok "/etc") "/srv/alloc" "/srv/alloc/link" =
        .ok (decide ((AbsPath.ofClean "/etc").Within (AbsPath.ofClean "/srv/alloc") ∧
            (AbsPath.ofClean "/srv/alloc").elems ≠ (AbsPath.ofClean "/etc").elems) &&
          !((AbsPath.ofClean "/srv/alloc").elems.drop
            (AbsPath.ofClean "/etc").elems.length).head?.any (hasPrefix · "..")) :=
  have hbase : isAbs "/srv/alloc" = true := by decide +kernel
  have hresolve : (fun _ ↦ .ok "/etc" : String → Except FsError String) "/srv/alloc/link" =
      .ok (AbsPath.ofClean "/etc").render := by
    decide +kernel
  ⟨hbase, hresolve, pathEscapesBaseViaSymlink_eq _ hbase _ hresolve⟩

/-- The sandbox check on two absolute paths reports an escape when the sandbox does not contain
the cleaned path, or when the path's first element below the sandbox starts with `..`. -/
theorem pathEscapesSandbox_eq {sandboxDir path : String} (hdir : isAbs sandboxDir = true)
    (hpath : isAbs path = true) :
    pathEscapesSandbox sandboxDir path =
      (!decide ((AbsPath.ofClean sandboxDir).Within (AbsPath.ofClean path)) ||
        ((AbsPath.ofClean path).elems.drop (AbsPath.ofClean sandboxDir).elems.length).head?.any
          (hasPrefix · "..")) := by
  obtain ⟨r, hrel, hprefix⟩ :=
    AbsPath.rel_hasPrefix_dotdot (clean_of_isAbs hdir) (clean_of_isAbs hpath)
  rw [← hprefix]
  simp only [pathEscapesSandbox, hrel]

theorem pathEscapesSandbox_eq_dotdotFoo :
    isAbs "/srv/alloc" = true ∧ isAbs "/srv/alloc/..foo" = true ∧
      pathEscapesSandbox "/srv/alloc" "/srv/alloc/..foo" =
        (!decide ((AbsPath.ofClean "/srv/alloc").Within (AbsPath.ofClean "/srv/alloc/..foo")) ||
          ((AbsPath.ofClean "/srv/alloc/..foo").elems.drop
            (AbsPath.ofClean "/srv/alloc").elems.length).head?.any (hasPrefix · "..")) :=
  have hdir : isAbs "/srv/alloc" = true := by decide +kernel
  have hpath : isAbs "/srv/alloc/..foo" = true := by decide +kernel
  ⟨hdir, hpath, pathEscapesSandbox_eq hdir hpath⟩

/-! ### Paths the checks misjudge -/

/-- A file named `..foo` in the directory is reported as escaping by the relative and sandbox
checks. A link in the allocation directory to `/etc` is not reported by the symbolic link check,
nor by `PathEscapesAllocDir`, since `Rel` from `/etc` to the directory is `../srv/alloc`. -/
theorem path_escape_checks_misjudge (getwd : Except String String)
    (evalSymlinks : String → Except FsError String)
    (hlink : evalSymlinks "/srv/alloc/link" = .ok "/etc") :
    (pathEscapesAllocViaRelative getwd "" "..foo" = .ok true ∧
        allocDir.Within (allocPath "" "..foo")) ∧
      (pathEscapesBaseViaSymlink evalSymlinks "/srv/alloc" "/srv/alloc/link" = .ok false ∧
        ¬ (AbsPath.ofClean "/srv/alloc").Within (AbsPath.ofClean "/etc")) ∧
      pathEscapesAllocDir getwd evalSymlinks "/srv/alloc" "" "link" = .ok false ∧
      (pathEscapesSandbox "/srv/alloc" "/srv/alloc/..foo" = true ∧
        (AbsPath.ofClean "/srv/alloc").Within (AbsPath.ofClean "/srv/alloc/..foo")) := by
  have hsym : pathEscapesBaseViaSymlink evalSymlinks "/srv/alloc" "/srv/alloc/link" =
      .ok false := by
    unfold pathEscapesBaseViaSymlink
    rw [hlink]
    decide +kernel
  have hfull : join ["/srv/alloc", "", "link"] = "/srv/alloc/link" := by decide +kernel
  refine ⟨⟨?_, by decide +kernel⟩, ⟨hsym, by decide +kernel⟩, ?_, by decide +kernel⟩
  · rw [pathEscapesAllocViaRelative_eq_map]
    decide +kernel
  · simp only [pathEscapesAllocDir, hfull, hsym, pathEscapesAllocViaRelative_eq_map]
    decide +kernel

theorem path_escape_checks_misjudge_etc :
    (fun _ ↦ .ok "/etc" : String → Except FsError String) "/srv/alloc/link" = .ok "/etc" ∧
      ((pathEscapesAllocViaRelative (.ok "/") "" "..foo" = .ok true ∧
          allocDir.Within (allocPath "" "..foo")) ∧
        (pathEscapesBaseViaSymlink (fun _ ↦ .ok "/etc") "/srv/alloc" "/srv/alloc/link" =
            .ok false ∧
          ¬ (AbsPath.ofClean "/srv/alloc").Within (AbsPath.ofClean "/etc")) ∧
        pathEscapesAllocDir (.ok "/") (fun _ ↦ .ok "/etc") "/srv/alloc" "" "link" = .ok false ∧
        (pathEscapesSandbox "/srv/alloc" "/srv/alloc/..foo" = true ∧
          (AbsPath.ofClean "/srv/alloc").Within (AbsPath.ofClean "/srv/alloc/..foo"))) :=
  ⟨rfl, path_escape_checks_misjudge (.ok "/") (fun _ ↦ .ok "/etc") rfl⟩

end Wander.Escapingfs
