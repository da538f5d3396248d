import Classwright.Build
import Classwright.Proofs.Interruption

/-!
# Base classes that are edited by hand

Base classes are written only if none of them is found, so what is there already stays,
with one exception: a path that passes a directory that is missing, and yet leads to a
file because it goes up again (`FileTree.Detour`). There is nothing at such a path as
long as the directory is missing, and writing makes it (`FileTree.Wrote.keeps`). All
base classes of all targets are looked for before the first is written, and of those
that go to one place the last one stays (`Config.scaffold_keeps`).
-/

namespace Classwright

open FileAction (passed)
open FileTree (Wrote)
open Classwright.Path (isStep)

/-! ## Paths to files that are not found

A detour is a path that leads to nothing as long as a directory on its way is missing,
and to a file when it has been made.
-/

namespace FileTree

variable {made written : List Key} {t t' : FileTree} {p : Path}

/-- Whether a path passes a place where there is nothing, and yet leads to a file. -/
def Detour (t : FileTree) (p : Path) : Prop :=
  (∃ key ∈ p.passed, t.get? key = none) ∧ (t.contents? p.destination).isSome

instance (t : FileTree) (p : Path) : Decidable (t.Detour p) :=
  inferInstanceAs (Decidable (_ ∧ _))

/-- A file that is found after the tree has grown was found before, if there was
something at each place on the way. -/
theorem Grows.exists_follow_file (h : t.Grows made written t') {found : Key} {c : Contents}
    {slash : Bool} :
    ∀ {ps : List String}
      {key : Key}, t'.follow key .directory ps = .ok (.taken found (.file c) slash) →
      (∀ front, front <+: ps.filter isStep → t.get? (front.foldl along key) ≠ none) →
        ∃ c', t.follow key .directory ps = .ok (.taken found (.file c') slash)
  | [], _, hf, _ => by cases hf
  | p :: ps, key, hf, hthere => by
    rcases piece_cases p with hp | rfl | ⟨hp, hup⟩
    · rw [List.filter_cons_of_neg (by simp [hp])] at hthere
      rw [follow_silent hp] at hf ⊢
      split at hf
      · cases hf
      · next hne =>
        rw [if_neg hne]
        exact h.exists_follow_file hf hthere
    · rw [filter_isStep_up] at hthere
      rw [follow_up] at hf ⊢
      refine h.exists_follow_file hf fun front hfront => ?_
      simpa [along_up] using hthere (".." :: front) (List.cons_prefix_cons.2 ⟨rfl, hfront⟩)
    · rw [List.filter_cons_of_pos hp] at hthere
      have hafter : ∀ front, front <+: ps.filter isStep →
          t.get? (front.foldl along (key ++ [p])) ≠ none := by
        intro front hfront
        simpa [along_name key hup] using hthere (p :: front) (List.cons_prefix_cons.2 ⟨rfl, hfront⟩)
      rw [follow_name hp hup] at hf ⊢
      -- What is at the name is of the same kind before and after.
      cases hb : t.get? (key ++ [p]) with
      | none => exact absurd hb (hafter [] (List.nil_prefix))
      | some entry =>
        cases entry with
        | directory =>
          rw [h.directory hb] at hf
          exact h.exists_follow_file hf hafter
        | file c' =>
          obtain ⟨c'', hc''⟩ := h.file hb
          rw [hc''] at hf
          exact ⟨c', follow_other_file hf⟩

/-- A file that was placed where nothing was found stands at a new place, or its path
takes a detour. -/
theorem Grows.detour_of_lodged (h : t.Grows made written t') (hl : t'.Lodged p) (hnew : ¬t.has p)
    (hfile : (t.contents? p.destination).isSome) : t.Detour p := by
  refine ⟨?_, hfile⟩
  by_contra hnone
  have hthere : ∀ key ∈ p.passed, t.get? key ≠ none := fun key hk hn => hnone ⟨key, hk, hn⟩
  obtain ⟨c, hfound⟩ := hl.found
  obtain ⟨hne, hclean⟩ := locate_eq_ok hfound
  rw [locate_eq t' hne hclean] at hfound
  obtain ⟨c', hbefore⟩ := h.exists_follow_file hfound fun front hfront =>
    hthere _ (Path.mem_passed.2 ⟨front, filter_followed p ▸ hfront, rfl⟩)
  rw [← locate_eq t hne hclean] at hbefore
  refine hnew ?_
  rw [has, find, hbefore]
  rfl

/-! ## Files that were written

A file keeps its contents unless one of the written paths leads to it, which it did not
before: that is a detour.
-/

variable {key : Key} {files : List SourceFile} {c : Contents}

/-- Files that were written where none of them was found have changed no file that was
there, except at the end of a detour. -/
theorem Wrote.keeps (h : Wrote made t files t') (hnew : ∀ file ∈ files, ¬t.has file.path)
    (hc : t.contents? key = some c) :
    t'.contents? key = some c ∨ ∃ file ∈ files, t.Detour file.path ∧
    file.path.destination = key := by
  cases hlast : lastAt? key files with
  | none => exact Or.inl (by rw [h.contents, hlast, Option.none_or, hc])
  | some c' =>
    obtain ⟨before, file, after, rfl, rfl, -, -⟩ := lastAt?_eq_some_iff.1 hlast
    have hmem : file ∈ before ++ file :: after := by simp
    have hfile : (t.contents? file.path.destination).isSome := by rw [hc]; rfl
    exact Or.inr ⟨file, hmem,
      h.grows.detour_of_lodged (h.lodged file hmem) (hnew file hmem) hfile, rfl⟩

/-- Each of the files that were written has the contents of the last one that went to
the same place. -/
theorem Wrote.readText (h : Wrote made t files t') {file : SourceFile} (hf : file ∈ files) :
    ∃ before last after, files = before ++ last :: after ∧ last.path.destination =
      file.path.destination ∧ (∀ later ∈ after, later.path.destination ≠ file.path.destination) ∧
      t'.readText file.path = .ok last.contents := by
  obtain ⟨c, hl⟩ := (h.lodged file hf).found
  have hthere : t'.contents? file.path.destination = some c := by
    rw [contents?, get?_of_locate_file hl]
  cases hlast : lastAt? file.path.destination files with
  | none => exact absurd rfl (lastAt?_eq_none_iff.1 hlast file hf)
  | some c' =>
    rw [h.contents, hlast] at hthere
    cases hthere
    obtain ⟨before, last, after, hfiles, hsame, hafter, rfl⟩ := lastAt?_eq_some_iff.1 hlast
    exact ⟨before, last, after, hfiles, hsame, hafter, readText_of_locate hl⟩

end FileTree

/-! ## The base classes of several targets

The targets are gone through in order, each with the tree that those before it have
left.
-/

namespace Target

/-- What is told of the base classes of a target. -/
def scaffolded (target : Target) : Scaffold :=
  ⟨target.name, target.backend.language, target.baseClasses.map SourceFile.path⟩

/-- All base classes of all targets are written, or those in front of the one that the
failure names. -/
theorem run_writeAllBaseClasses_cases : ∀ (targets : List Target) (t : FileTree),
    (∃ t', (writeAllBaseClasses targets).run t = (.ok (targets.map scaffolded), t') ∧
      Wrote (passed (targets.flatMap baseClasses)) t (targets.flatMap baseClasses) t') ∨
    ∃ before file after path fault t', targets.flatMap baseClasses = before ++ file :: after ∧
      (writeAllBaseClasses targets).run t = (.error (.io path fault), t') ∧
      (path = file.path ∨ file.path.parent? = some path) ∧
      Wrote (passed (targets.flatMap baseClasses)) t before t'
  | [], t => Or.inl ⟨t, rfl, .nil (.refl _ _ t)⟩
  | target :: rest, t => by
    have hunion : passed target.baseClasses ++ passed (rest.flatMap baseClasses) =
        passed ((target :: rest).flatMap baseClasses) := by simp [passed]
    -- The files of the first target are written, or one of them is not.
    rcases FileAction.run_placeAll_cases target.baseClasses t with ⟨t₁, hplace, hwrote⟩ |
      ⟨before, file, after, path, fault, t', hfiles, hplace, hpath, hwrote⟩
    · have hfirst : target.writeBaseClasses.run t = (.ok target.scaffolded, t₁) :=
        FileAction.run_bind_ok hplace
      have hrun : (writeAllBaseClasses (target :: rest)).run t =
          (writeAllBaseClasses rest >>= fun later => pure (target.scaffolded :: later)).run t₁ :=
        FileAction.run_bind_ok hfirst
      rw [hrun]
      -- By induction the others are written, or one of them is not.
      rcases run_writeAllBaseClasses_cases rest t₁ with ⟨t', hrest, hwrote'⟩ |
        ⟨before, file, after, path, fault, t', hfiles, hrest, hpath, hwrote'⟩
      · exact Or.inl ⟨t', FileAction.run_bind_ok hrest, hunion ▸ hwrote.append hwrote'⟩
      · refine Or.inr ⟨target.baseClasses ++ before, file, after, path, fault, t', ?_,
          FileAction.run_bind_error hrest, hpath, hunion ▸ hwrote.append hwrote'⟩
        rw [List.flatMap_cons, hfiles, List.append_assoc]
    · have hfirst : target.writeBaseClasses.run t = (.error (.io path fault), t') :=
        FileAction.run_bind_error hplace
      refine Or.inr ⟨before, file, after ++ rest.flatMap baseClasses, path, fault, t', ?_,
        FileAction.run_bind_error hfirst, hpath, hwrote.mono (by simp [passed])⟩
      rw [List.flatMap_cons, hfiles, List.append_assoc, List.cons_append]

end Target

namespace Config

variable {c : Config} {names : List String} {targets : List Target} {t : FileTree}

/-- Base classes are written if none of them is found. -/
theorem run_scaffold (hs : c.select names = .ok targets) : (c.scaffold names false).run t =
    match existingBaseClass? targets t with
    | some file => (.error (.scaffoldExists file.path), t)
    | none => (Target.writeAllBaseClasses targets).run t := by
  have hselect : (FileAction.look fun _ => c.select names).run t = (.ok targets, t) :=
    congrArg (·, t) hs
  rw [scaffold, FileAction.run_bind_ok hselect]
  refine (FileAction.run_bind_ok (a := get) rfl).trans ?_
  cases existingBaseClass? targets t <;> rfl

/-- Base classes are written over nothing that is there. If one of them is found, the
first such in the order of the targets is named and nothing is done. Else every file
that was there has its contents afterwards, whether or not all base classes could be
written, unless the path of one of these takes a detour to it. Where writing them
succeeds, each is there with the contents of the last one, in the order of the targets,
that goes to its place. -/
theorem scaffold_keeps {outcome : Outcome (List Scaffold)} {t' : FileTree}
    (hs : c.select names = .ok targets) (hrun : (c.scaffold names false).run t = (outcome, t')) :
    ((∃ file ∈ targets.flatMap Target.baseClasses, t.has file.path) →
      ∃ before file after, targets.flatMap Target.baseClasses = before ++ file :: after ∧
        (∀ earlier ∈ before, ¬t.has earlier.path) ∧ t.has file.path ∧
        outcome = .error (.scaffoldExists file.path) ∧ t' = t) ∧
    (∀ key contents, t.contents? key = some contents →
      t'.contents? key = some contents ∨
      ∃ file ∈ targets.flatMap Target.baseClasses, t.Detour file.path ∧
        file.path.destination = key) ∧
    ∀ scaffolds, outcome = .ok scaffolds → ∀ file ∈ targets.flatMap Target.baseClasses,
      ∃ before last after, targets.flatMap Target.baseClasses = before ++ last :: after ∧
        last.path.destination = file.path.destination ∧
        (∀ later ∈ after, later.path.destination ≠ file.path.destination) ∧
        t'.readText file.path = .ok last.contents := by
  rw [run_scaffold hs] at hrun
  -- One file that is there stops everything.
  cases hfound : existingBaseClass? targets t with
  | some file =>
    rw [hfound] at hrun
    cases hrun
    obtain ⟨hthere, before, after, hfiles, hbefore⟩ := List.find?_eq_some_iff_append.1 hfound
    refine ⟨fun _ => ⟨before, file, after, hfiles, ?_, hthere, rfl, rfl⟩,
      fun key contents h => Or.inl h, ?_⟩
    · intro earlier hmem
      simpa using hbefore earlier hmem
    · rintro scaffolds ⟨⟩
  | none =>
    rw [hfound] at hrun
    -- None is there, so nothing but detours can change what a file has.
    have hnew : ∀ file ∈ targets.flatMap Target.baseClasses, ¬t.has file.path :=
      List.find?_eq_none.1 hfound
    rcases Target.run_writeAllBaseClasses_cases targets t with ⟨t'', hall, hwrote⟩ |
      ⟨before, file, after, path, fault, t'', hfiles, hall, -, hwrote⟩
    · rw [hall] at hrun
      cases hrun
      exact ⟨fun ⟨file, hmem, hthere⟩ => absurd hthere (hnew file hmem),
        fun _ _ hc => hwrote.keeps hnew hc, fun _ _ file hmem => hwrote.readText hmem⟩
    · rw [hall] at hrun
      cases hrun
      refine ⟨fun ⟨file, hmem, hthere⟩ => absurd hthere (hnew file hmem), fun key contents hc => ?_,
        nofun⟩
      have hsub : before ⊆ targets.flatMap Target.baseClasses := by simp [hfiles]
      rcases hwrote.keeps (fun file hf => hnew file (hsub hf)) hc with h | ⟨file, hf, h⟩
      · exact Or.inl h
      · exact Or.inr ⟨file, hsub hf, h⟩

/-! ## Two projects

One whose base classes are new, and one whose path is a detour to a file that was
edited.
-/

theorem exists_run_scaffold_of_isSome (h : ((c.scaffold names false).run t).1.toOption.isSome) :
    ∃ scaffolds t', (c.scaffold names false).run t = (.ok scaffolds, t') := by
  obtain ⟨scaffolds, hr⟩ := Outcome.isSome_toOption.1 h
  exact ⟨scaffolds, _, Prod.ext hr rfl⟩

/-- A project with two targets whose base classes go to the same place. -/
def neighboursProject : Config :=
  objectsProject ["first", "second"]

/-- Base classes are written next to other files, and these stay as they are. -/
theorem scaffold_keeps_neighboursProject :
    ∃ targets scaffolds t', neighboursProject.select [] = .ok targets ∧
    (neighboursProject.scaffold [] false).run blockedFiles = (.ok scaffolds, t') ∧
    (∀ key contents,
      blockedFiles.contents? key = some contents → t'.contents? key = some contents) ∧
    ∀ file ∈ targets.flatMap Target.baseClasses, ∃ last ∈ targets.flatMap Target.baseClasses,
      last.path.destination = file.path.destination ∧
      t'.readText file.path = .ok last.contents := by
  -- None of the paths goes through a directory that is still to be made.
  have hcheck : (neighboursProject.select []).toOption.any (fun targets =>
      decide (∀ file ∈ targets.flatMap Target.baseClasses, ¬blockedFiles.Detour file.path)) =
        true := by
    decide +kernel
  have hsome : ((neighboursProject.scaffold [] false).run blockedFiles).1.toOption.isSome := by
    decide +kernel
  obtain ⟨targets, hs, hstraight⟩ := Outcome.exists_of_any_toOption hcheck
  obtain ⟨scaffolds, t', hrun⟩ := exists_run_scaffold_of_isSome hsome
  obtain ⟨-, hkept, hwritten⟩ := scaffold_keeps hs hrun
  refine ⟨targets, scaffolds, t', hs, hrun, fun key contents hc => ?_, fun file hf => ?_⟩
  · refine (hkept key contents hc).resolve_right ?_
    rintro ⟨file, hf, hdetour, -⟩
    exact of_decide_eq_true hstraight file hf hdetour
  · obtain ⟨before, last, after, hfiles, hsame, -, hread⟩ := hwritten scaffolds rfl file hf
    exact ⟨last, by rw [hfiles]; simp, hsame, hread⟩

/-- A project whose base classes are in a module to which the path goes through another
directory. -/
def roundaboutProject : Config :=
  .ofSettings ⟨"modgen.toml"⟩
    { targets :=
      .ofList [("js", { objectsTarget "js" with runtimeModule? := some ⟨"build/../runtime.js"⟩ })] }

/-- Base classes that were edited. -/
def editedFiles : FileTree :=
  ⟨[(["runtime.js"], .file (.text "// edited\n"))]⟩

/-- Base classes that were edited are lost, since they are not found before the
directory that the path passes is made. -/
theorem not_scaffold_keeps_roundaboutProject : ∃ scaffolds t',
    (roundaboutProject.scaffold [] false).run editedFiles = (.ok scaffolds, t') ∧
    editedFiles.contents? ["runtime.js"] = some (.text "// edited\n") ∧
    t'.contents? ["runtime.js"] ≠ some (.text "// edited\n") := by
  obtain ⟨hsome, hlost⟩ :
      ((roundaboutProject.scaffold [] false).run editedFiles).1.toOption.isSome ∧
      ((roundaboutProject.scaffold [] false).run editedFiles).2.contents? ["runtime.js"] ≠
        some (.text "// edited\n") := by decide +kernel
  obtain ⟨scaffolds, t', hrun⟩ := exists_run_scaffold_of_isSome hsome
  rw [hrun] at hlost
  exact ⟨scaffolds, t', hrun, rfl, hlost⟩

end Config

end Classwright
