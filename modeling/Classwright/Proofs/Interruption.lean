import Classwright.Build
import Classwright.Proofs.Generation
import Classwright.Proofs.Placement

/-!
# Builds that stop

Targets are built one after the other, and each of them is made as a whole before its
first file is written (`Target.run_build_cases`). A build that fails before the first
target, because a target is not known or supported or because there is no document, has
written nothing. One that fails later has written the files of the targets in front of
the one that it fails at, and of that one the files in front of the one that cannot be
written (`Config.build_stops_in_order`).
-/

namespace Classwright

open FileAction (passed)
open FileTree (Wrote)

/-! ## Exactly the files

A tree that was written has the listed files and is otherwise as before, up to
directories.
-/

namespace FileTree

variable {made : List Key} {t t' : FileTree} {files : List SourceFile}

/-- Whether files and no others were written: each holds its contents, and no other file
was created or changed. -/
structure WroteExactly (t : FileTree) (files : List SourceFile) (t' : FileTree) : Prop where
  /-- The files hold their contents. -/
  written : ∀ file ∈ files, t'.readText file.path = .ok file.contents
  /-- At every other key there is the file that was there, or none. -/
  others : ∀ key, key ∉ (files.map fun file => file.path.destination) →
    t'.contents? key = t.contents? key

theorem readText_of_locate {p : Path} {key : Key} {c : Contents}
    (h : t.locate p = .ok (.taken key (.file c) false)) : t.readText p = asText c := by
  rw [readText, find, h]
  rfl

/-- A file that no other one is written over has its contents. -/
theorem lastAt?_of_mem {file : SourceFile}
    (hnodup : (files.map fun file => file.path.destination).Nodup) (hmem : file ∈ files) :
    lastAt? file.path.destination files = some (.text file.contents) := by
  obtain ⟨before, after, rfl⟩ := List.append_of_mem hmem
  rw [List.map_append, List.map_cons, List.nodup_append, List.nodup_cons] at hnodup
  have hafter : ∀ later ∈ after, later.path.destination ≠ file.path.destination :=
    fun later hlater heq => hnodup.2.1.1 (heq ▸ List.mem_map_of_mem hlater)
  exact lastAt?_eq_some_iff.2 ⟨before, file, after, rfl, rfl, hafter, rfl⟩

/-- Where files were written and the paths of these and of others lead to different
places, exactly the files were written, and there is nothing new where the others lead. -/
theorem Wrote.exactly (h : Wrote made t files t') {others : List Path}
    (hapart : ((files.map SourceFile.path ++ others).map Path.destination).Nodup) :
    t.WroteExactly files t' ∧ ∀ path ∈ others,
    t'.contents? path.destination = t.contents? path.destination := by
  rw [List.map_append, List.map_map, List.nodup_append] at hapart
  obtain ⟨hnodup, -, hothers⟩ := hapart
  refine ⟨⟨fun file hf => ?_, fun key hkey => h.grows.contents hkey⟩,
    fun path hp => h.grows.contents fun hmem => ?_⟩
  · obtain ⟨c, hl⟩ := (h.lodged file hf).found
    have hcontents : t'.contents? file.path.destination = some c := by
      rw [contents?, get?_of_locate_file hl]
    rw [h.contents, lastAt?_of_mem hnodup hf] at hcontents
    cases hcontents
    rw [readText_of_locate hl]
    rfl
  · exact hothers _ hmem _ (List.mem_map_of_mem hp) rfl

end FileTree

/-! ## Building targets

The targets are built in their order. After those in front of it, a target is rendered
and then its files are placed, and both can fail.
-/

namespace Target

variable {m : Model}

/-- The paths of the files of a target, in order. -/
def paths (target : Target) (m : Model) : List Path :=
  (m.entities.map fun e => target.layout.fileFor e (target.options.className e.name)) ++
    target.layout.indexFile?.toList

/-- The paths of the files of several targets, in order. -/
def allPaths (m : Model) (targets : List Target) : List Path :=
  targets.flatMap fun target => target.paths m

/-- What is reported of a target with a number of files. -/
def report (target : Target) (m : Model) (n : Nat) : TargetReport :=
  ⟨target.name, target.backend.language, m.objects.length, m.components.length, m.results.length, n⟩

theorem map_path_of_render {target : Target} {t : FileTree} {files : List SourceFile}
    (h : target.render m t = .ok files) : files.map SourceFile.path = target.paths m := by
  obtain ⟨fragments, -, hg⟩ := Outcome.bind_eq_ok.1 h
  exact Backend.map_path_of_generate hg

theorem allPaths_append (m : Model) (targets targets' : List Target) :
    allPaths m (targets ++ targets') = allPaths m targets ++ allPaths m targets' :=
  List.flatMap_append

/-- Targets that are built one after the other, with their files and what is reported of
them. -/
inductive Built (m : Model) :
    FileTree → List Target → List SourceFile → List TargetReport → FileTree → Prop
  | nil (t : FileTree) : Built m t [] [] [] t
  | cons {target : Target} {rest : List Target} {files later : List SourceFile}
      {reports : List TargetReport} {t t₁ t' : FileTree} (hr : target.render m t = .ok files)
      (hw : Wrote (passed files) t files t₁) (h : Built m t₁ rest later reports t') :
      Built m t (target :: rest) (files ++ later) (target.report m files.length :: reports) t'

/-- Building targets writes their files, in their order. -/
theorem Built.wrote {t t' : FileTree} {targets : List Target} {files : List SourceFile}
    {reports : List TargetReport} (h : Built m t targets files reports t') :
    Wrote (passed files) t files t' := by
  induction h with
  | nil t => exact .nil (.refl _ _ t)
  | cons hr hw h ih => simpa [passed] using hw.append ih

/-- The files of the targets that have been built are on the paths of these targets. -/
theorem Built.map_path {t t' : FileTree} {targets : List Target} {files : List SourceFile}
    {reports : List TargetReport} (h : Built m t targets files reports t') :
    files.map SourceFile.path = allPaths m targets := by
  induction h with
  | nil t => rfl
  | cons hr hw h ih =>
    rw [List.map_append, map_path_of_render hr, ih, allPaths, allPaths, List.flatMap_cons]

/-- A target is built, or its files cannot be made and nothing is written, or one of its
files cannot be written and those in front of it are. -/
theorem run_build_cases (target : Target) (m : Model) (t : FileTree) :
    (∃ files t', target.render m t = .ok files ∧ Wrote (passed files) t files t' ∧
      (target.build m).run t = (.ok (target.report m files.length), t')) ∨
    (∃ failure, target.render m t = .error failure ∧ (target.build m).run t = (.error failure, t)) ∨
    ∃ before file after path fault t', target.render m t = .ok (before ++ file :: after) ∧
      Wrote (passed (before ++ file :: after)) t before t' ∧ (path = file.path ∨
      file.path.parent? = some path) ∧ (target.build m).run t = (.error (.io path fault), t') := by
  cases hr : target.render m t with
  | error failure =>
    have hlook : (FileAction.look (target.render m)).run t = (.error failure, t) :=
      congrArg (·, t) hr
    exact Or.inr (Or.inl ⟨failure, rfl, FileAction.run_bind_error hlook⟩)
  | ok files =>
    have hlook : (FileAction.look (target.render m)).run t = (.ok files, t) := congrArg (·, t) hr
    have hbuild : (target.build m).run t =
        (FileAction.placeAll files >>= fun n => pure (target.report m n)).run t :=
        FileAction.run_bind_ok hlook
    -- With all files rendered, what is left is to place them.
    rw [hbuild]
    rcases FileAction.run_placeAll_cases files t with ⟨t', hplace, hwrote⟩ |
      ⟨before, file, after, path, fault, t', rfl, hplace, hpath, hwrote⟩
    · exact Or.inl ⟨files, t', rfl, hwrote, FileAction.run_bind_ok hplace⟩
    · exact Or.inr (Or.inr ⟨before, file, after, path, fault, t', rfl, hwrote, hpath,
        FileAction.run_bind_error hplace⟩)

/-- All targets are built, or those in front of the one at which building stops. -/
theorem run_buildAll_cases (m : Model) : ∀ (targets : List Target) (t : FileTree),
    (∃ files reports t', Built m t targets files reports t' ∧
      (buildAll m targets).run t = (.ok reports, t')) ∨
    ∃ before target after files reports t₁ failure t', targets = before ++ target :: after ∧
      Built m t before files reports t₁ ∧ (target.build m).run t₁ = (.error failure, t') ∧
      (buildAll m targets).run t = (.error failure, t')
  | [], t => Or.inl ⟨[], [], t, .nil t, rfl⟩
  | target :: rest, t => by
    -- If this target fails, nothing was built before it.
    have hstop : ∀ {failure t'}, (target.build m).run t = (.error failure, t') →
        ∃ before stopped after files reports t₁ failure t',
        target :: rest = before ++ stopped :: after ∧
          Built m t before files reports t₁ ∧ (stopped.build m).run t₁ = (.error failure, t') ∧
          (buildAll m (target :: rest)).run t = (.error failure, t') := fun h =>
      ⟨[], target, rest, [], [], t, _, _, rfl, .nil t, h, FileAction.run_bind_error h⟩
    rcases run_build_cases target m t with ⟨files, t₁, hr, hw, hbuild⟩ | ⟨failure, -, hbuild⟩ |
      ⟨before, file, after, path, fault, t', -, -, -, hbuild⟩
    · have hrun : (buildAll m (target :: rest)).run t =
          (buildAll m rest >>= fun reports =>
            pure (target.report m files.length :: reports)).run t₁ :=
        FileAction.run_bind_ok hbuild
      rw [hrun]
      rcases run_buildAll_cases m rest t₁ with ⟨later, reports, t', hb, hrest⟩ |
        ⟨before, stopped, after, later, reports, t₂, failure, t', rfl, hb, hstopped, hrest⟩
      · exact Or.inl ⟨_, _, t', .cons hr hw hb, FileAction.run_bind_ok hrest⟩
      · exact Or.inr ⟨target :: before, stopped, after, _, _, t₂, failure, t', rfl, .cons hr hw hb,
          hstopped, FileAction.run_bind_error hrest⟩
    · exact Or.inr (hstop hbuild)
    · exact Or.inr (hstop hbuild)

/-- A target that fails after others were built leaves exactly their files, if its own
could not be made, and else those of its files as well that stand in front of the one
that could not be written. -/
theorem Built.exactly_of_build_error {target : Target} {before after : List Target}
    {files : List SourceFile} {reports : List TargetReport} {t t₁ t' : FileTree} {failure : Failure}
    (hb : Built m t before files reports t₁)
    (hapart : ((allPaths m (before ++ target :: after)).map Path.destination).Nodup)
    (h : (target.build m).run t₁ = (.error failure, t')) :
    (target.render m t₁ = .error failure ∧ t' = t₁ ∧ t.WroteExactly files t' ∧
      ∀ path ∈ allPaths m (target :: after),
      t'.contents? path.destination = t.contents? path.destination) ∨
    ∃ written file later path fault, target.render m t₁ = .ok (written ++ file :: later) ∧
      failure = .io path fault ∧ (path = file.path ∨ file.path.parent? = some path) ∧
      t.WroteExactly (files ++ written) t' ∧
      ∀ path ∈ (file :: later).map SourceFile.path ++ allPaths m after,
        t'.contents? path.destination = t.contents? path.destination := by
  rw [allPaths_append, ← hb.map_path] at hapart
  rcases run_build_cases target m t₁ with ⟨_, _, -, -, hok⟩ | ⟨failure, hr, hstop⟩ |
    ⟨written, file, later, path, fault, t'', hr, hw, hpath, hstop⟩
  · rw [hok] at h
    cases h
  · rw [hstop] at h
    cases h
    obtain ⟨hexactly, huntouched⟩ := hb.wrote.exactly hapart
    exact Or.inl ⟨hr, rfl, hexactly, huntouched⟩
  · rw [hstop] at h
    cases h
    have hpaths : files.map SourceFile.path ++ allPaths m (target :: after) =
        (files ++ written).map SourceFile.path ++
        ((file :: later).map SourceFile.path ++ allPaths m after) := by
      rw [allPaths, List.flatMap_cons, ← map_path_of_render hr, allPaths]
      simp
    obtain ⟨hexactly, huntouched⟩ := (hb.wrote.append hw).exactly (hpaths ▸ hapart)
    exact Or.inr ⟨written, file, later, path, fault, hr, rfl, hpath, hexactly, huntouched⟩

end Target

/-! ## Before the first target

Selecting the targets and loading the document write nothing.
-/

namespace Schema.Loader

variable {l : Loader}

/-- Loading a document from a file reads the file. -/
theorem run_loadCached_file {path : Path} (hl : l.source = .file path) (t : FileTree) :
    l.loadCached.run t =
    (atPath path (t.readText path) >>= fun text => Document.ofSource text path.text, t) := by
  rw [loadCached, hl]
  cases hr : t.readText path with
  | error fault => exact FileAction.run_bind_error (FileAction.run_readText_of_error hr)
  | ok text => exact FileAction.run_bind_ok (FileAction.run_readText_of_ok hr)

/-- Loading a document from an address without a request reads the cache. -/
theorem run_loadCached_remote {url : String} (hl : l.source = .remote url) (t : FileTree) :
    l.loadCached.run t = (l.cache.read t >>= fun cached? =>
      match cached? with
      | some cached => .ok cached.document
      | none => .error (.nothingCached l.cache.documentPath), t) := by
  rw [loadCached, hl]
  cases hr : l.cache.read t with
  | error failure =>
    have hlook : (FileAction.look l.cache.read).run t = (.error failure, t) := congrArg (·, t) hr
    exact FileAction.run_bind_error hlook
  | ok cached? =>
    have hlook : (FileAction.look l.cache.read).run t = (.ok cached?, t) := congrArg (·, t) hr
    refine (FileAction.run_bind_ok hlook).trans ?_
    cases cached? <;> rfl

theorem snd_run_loadCached (l : Loader) (t : FileTree) : (l.loadCached.run t).2 = t := by
  cases hl : l.source with
  | file path => rw [run_loadCached_file hl]
  | remote url => rw [run_loadCached_remote hl]

end Schema.Loader

namespace Config

variable (c : Config) (names : List String)

/-- What is found in the settings for the names that are asked for; nothing for a name
that no target has. -/
def requested : List (Option (String × TargetSettings)) :=
  if names.isEmpty then c.settings.targets.entries.map some
  else names.map fun name => (c.findTarget? name).or (c.findAlias? name)

/-- Whether a target was found and its language is supported. -/
def Usable (found? : Option (String × TargetSettings)) : Prop :=
  ∃ found ∈ found?, (Backend.ofName? (found.2.backend?.getD found.1)).isSome

variable {c names}

theorem exists_resolveTarget_iff {found : String × TargetSettings} :
    (∃ target, c.resolveTarget found.1 found.2 = .ok target) ↔ Usable (some found) := by
  unfold resolveTarget Usable
  cases h : Backend.ofName? (found.2.backend?.getD found.1) <;> simp [h]

/-- A name selects a target exactly if the target it names, by itself or as an alias, is
usable. -/
theorem exists_target_iff {name : String} :
    (∃ target, c.target name = .ok target) ↔
    Usable ((c.findTarget? name).or (c.findAlias? name)) := by
  unfold target
  cases (c.findTarget? name).or (c.findAlias? name) with
  | none => simp [Usable]
  | some found => exact exists_resolveTarget_iff

/-- Targets can be selected only if all of them are known and supported. -/
theorem usable_of_select {targets : List Target} (h : c.select names = .ok targets) :
    ∀ found? ∈ c.requested names, Usable found? := by
  unfold select at h
  unfold requested
  by_cases hall : names.isEmpty
  · rw [if_pos hall] at h ⊢
    intro found? hf
    obtain ⟨found, hmem, rfl⟩ := List.mem_map.1 hf
    obtain ⟨target, -, ht⟩ := Outcome.exists_of_mapM_eq_ok h found hmem
    exact exists_resolveTarget_iff.1 ⟨target, ht⟩
  · rw [if_neg hall] at h ⊢
    intro found? hf
    obtain ⟨name, hmem, rfl⟩ := List.mem_map.1 hf
    obtain ⟨target, -, ht⟩ := Outcome.exists_of_mapM_eq_ok h name hmem
    exact exists_target_iff.1 ⟨target, ht⟩

/-- Builds targets from a document that may be missing. -/
def buildFrom (c : Config) (document : Outcome Schema.Document) (names : List String) :
    FileAction (List TargetReport) := do
  let targets ← FileAction.look fun _ => c.select names
  let d ← FileAction.look fun _ => document
  Target.buildAll (c.model d) targets

theorem run_buildWith (d : Schema.Document) (t : FileTree) :
    (c.buildWith d names).run t = (c.buildFrom (.ok d) names).run t :=
  rfl

/-- A build from the cache is the common part of both builds, given what is cached. -/
theorem run_buildCached (t : FileTree) :
    (c.buildCached names).run t = (c.buildFrom (c.loader.loadCached.run t).1 names).run t := by
  rcases hd : c.loader.loadCached.run t with ⟨document, t'⟩
  obtain rfl : t' = t := by rw [← c.loader.snd_run_loadCached t, hd]
  have hload : (FileAction.look fun _ => document).run t' = (document, t') := rfl
  cases hs : c.select names with
  | error failure =>
    have hselect : (FileAction.look fun _ => c.select names).run t' = (.error failure, t') :=
      congrArg (·, t') hs
    rw [buildCached, buildFrom, FileAction.run_bind_error hselect,
      FileAction.run_bind_error hselect]
  | ok targets =>
    have hselect : (FileAction.look fun _ => c.select names).run t' = (.ok targets, t') :=
      congrArg (·, t') hs
    rw [buildCached, buildFrom, FileAction.run_bind_ok hselect, FileAction.run_bind_ok hselect]
    cases document with
    | error failure => rw [FileAction.run_bind_error hd, FileAction.run_bind_error hload]
    | ok d => rw [FileAction.run_bind_ok hd, FileAction.run_bind_ok hload]

theorem run_buildFrom_of_select_error {failure : Failure} (h : c.select names = .error failure)
    (document : Outcome Schema.Document) (t : FileTree) :
    (c.buildFrom document names).run t = (.error failure, t) :=
  FileAction.run_bind_error (congrArg (·, t) h)

theorem run_buildFrom_error {targets : List Target} (h : c.select names = .ok targets)
    (failure : Failure) (t : FileTree) :
    (c.buildFrom (.error failure) names).run t = (.error failure, t) :=
  FileAction.run_bind_ok (congrArg (·, t) h)

theorem run_buildFrom_ok {targets : List Target} (h : c.select names = .ok targets)
    (d : Schema.Document) (t : FileTree) :
    (c.buildFrom (.ok d) names).run t = (Target.buildAll (c.model d) targets).run t :=
  FileAction.run_bind_ok (congrArg (·, t) h)

/-! ## Where a build stops

A failure is one of four: of the selection, of the document, of rendering a target, or
of placing one of its files.
-/

/-- A build that fails has done its work up to where it fails, and nothing after that.
Without targets that are known and supported, or without a document, it has written
nothing. Else it fails at one of the targets, after it has written the files of those in
front of it: of that target, it has written nothing if the files could not be made, and
else the files in front of the one that could not be written, which the failure names,
or its directory. This is so where the paths of all files lead to different places. -/
theorem build_stops_in_order {t t' : FileTree} {document : Outcome Schema.Document}
    {failure : Failure}
    (hrun : (∃ d, document = .ok d ∧ (c.buildWith d names).run t = (.error failure, t')) ∨
      document = (c.loader.loadCached.run t).1 ∧ (c.buildCached names).run t = (.error failure, t'))
    (hapart : ∀ targets d, c.select names = .ok targets → document = .ok d →
      ((Target.allPaths (c.model d) targets).map Path.destination).Nodup) :
    ((∃ found? ∈ c.requested names, ¬Usable found?) ∨ (∃ fault, document = .error fault) → t' = t) ∧
    ((c.select names = .error failure ∨ document = .error failure) ∧ t' = t ∨
      ∃ before target after d files reports t₁,
        c.select names = .ok (before ++ target :: after) ∧ document = .ok d ∧
        Target.Built (c.model d) t before files reports t₁ ∧
        (target.render (c.model d) t₁ = .error failure ∧ t' = t₁ ∧ t.WroteExactly files t' ∧
            (∀ path ∈ Target.allPaths (c.model d) (target :: after),
              t'.contents? path.destination = t.contents? path.destination) ∨
          ∃ written file later path fault,
            target.render (c.model d) t₁ = .ok (written ++ file :: later) ∧
            failure = .io path fault ∧ (path = file.path ∨ file.path.parent? = some path) ∧
            t.WroteExactly (files ++ written) t' ∧
            ∀ path ∈ (file :: later).map SourceFile.path ++ Target.allPaths (c.model d) after,
              t'.contents? path.destination = t.contents? path.destination)) := by
  -- Both entry points are the common part, with the document they have.
  have hfrom : (c.buildFrom document names).run t = (.error failure, t') := by
    rcases hrun with ⟨d, hd, hrun⟩ | ⟨hd, hrun⟩
    · rw [hd, ← run_buildWith, hrun]
    · rw [hd, ← run_buildCached, hrun]
  cases hs : c.select names with
  | error fault =>
    rw [run_buildFrom_of_select_error hs] at hfrom
    cases hfrom
    exact ⟨fun _ => rfl, Or.inl ⟨Or.inl rfl, rfl⟩⟩
  | ok targets =>
    cases document with
    | error fault =>
      rw [run_buildFrom_error hs] at hfrom
      cases hfrom
      exact ⟨fun _ => rfl, Or.inl ⟨Or.inr rfl, rfl⟩⟩
    | ok d =>
      rw [run_buildFrom_ok hs] at hfrom
      refine ⟨?_, Or.inr ?_⟩
      -- A selection that succeeds has no unusable name, and the document is there.
      · rintro (⟨found?, hf, hunusable⟩ | ⟨fault, hfault⟩)
        · exact absurd (usable_of_select hs found? hf) hunusable
        · cases hfault
      -- So the build has stopped in one of its targets.
      · rcases Target.run_buildAll_cases (c.model d) targets t with ⟨files, reports, t'', -, hok⟩ |
          ⟨before, target, after, files, reports, t₁, failure', t'', rfl, hb, hbuild, herror⟩
        · rw [hok] at hfrom
          cases hfrom
        · rw [herror] at hfrom
          cases hfrom
          exact ⟨before, target, after, d, files, reports, t₁, rfl, rfl, hb,
            hb.exactly_of_build_error (hapart _ d hs rfl) hbuild⟩

/-! ## Two projects

One that fails in its second target, and one whose targets share a file.
-/

/-- A JavaScript target with a directory for objects, and a namespace of the same name. -/
def objectsTarget (directory : String) : TargetSettings where
  backend? := some "javascript"
  fileExtension? := none
  rootNamespace? := some directory
  indexFile? := none
  runtimeModule? := none
  outputDirs := ⟨⟨directory⟩, ⟨"components"⟩, ⟨"results"⟩⟩

/-- A project with a target for each of some directories. -/
def objectsProject (directories : List String) : Config :=
  .ofSettings ⟨"modgen.toml"⟩
    { schema := { source := "schema.json" }
      targets := .ofList (directories.map fun directory => (directory, objectsTarget directory)) }

/-- A document with one object, and a file that is in the way of a directory. -/
def blockedFiles : FileTree :=
  ⟨[(["schema.json"], .file (.text
      ("\x7b\"objects\": \x7b\"User\": \x7b\"properties\": \x7b\x7d\x7d\x7d, " ++
        "\"components\": \x7b\x7d\x7d"))),
    (["taken"], .file (.text ""))]⟩

/-- A project whose second target cannot be written. -/
def blockedProject : Config :=
  objectsProject ["first", "taken"]

/-- A project with one more target, whose files go where those of the first one go. -/
def sharedProject : Config :=
  objectsProject ["first", "side/../first", "taken"]

/-- The path that a build of all targets fails at. -/
def failedAt? (c : Config) (t : FileTree) : Option Path :=
  match ((c.buildCached []).run t).1 with
  | .error (.io path _) => some path
  | _ => none

/-- A computed failure is one of the build. -/
theorem exists_run_of_failedAt? {t : FileTree} {path : Path} (h : failedAt? c t = some path) :
    ∃ fault t', (c.buildCached []).run t = (.error (.io path fault), t') := by
  unfold failedAt? at h
  split at h
  · next path' fault hr =>
    cases h
    exact ⟨fault, _, Prod.ext hr rfl⟩
  · cases h

/-- Of two targets, the second of which cannot be written, the files of the first are
written, and no others. -/
theorem build_stops_in_order_blockedProject : ∃ failure t' before target after files,
    (blockedProject.buildCached []).run blockedFiles = (.error failure, t') ∧
    blockedProject.select [] = .ok (before ++ target :: after) ∧
    blockedFiles.WroteExactly files t' := by
  have hfailed : failedAt? blockedProject blockedFiles = some ⟨"./taken"⟩ := by decide +kernel
  -- The document is cached, and the places of all files differ.
  have hpaths : (blockedProject.loader.loadCached.run blockedFiles).1.toOption.any (fun d =>
      decide ((Target.allPaths (blockedProject.model d)
        ((blockedProject.select []).toOption.getD [])).map Path.destination).Nodup) =
        true := by decide +kernel
  obtain ⟨fault, t', hrun⟩ := exists_run_of_failedAt? hfailed
  obtain ⟨d, hload, hnodup⟩ := Outcome.exists_of_any_toOption hpaths
  obtain ⟨targets, hselect⟩ : ∃ targets, blockedProject.select [] = .ok targets := ⟨_, rfl⟩
  have hapart : ∀ targets d', blockedProject.select [] = .ok targets →
      (.ok d : Outcome Schema.Document) = .ok d' →
      ((Target.allPaths (blockedProject.model d') targets).map Path.destination).Nodup := by
    intro targets d' hs hd
    cases hd
    rw [hs] at hnodup
    exact of_decide_eq_true hnodup
  -- The general theorem says where the build has stopped and what it has written.
  have hstops := (build_stops_in_order (Or.inr ⟨hload.symm, hrun⟩) hapart).2
  rcases hstops with ⟨hfirst, -⟩ | ⟨before, target, after, d', files, reports, t₁, hs, -, -, hrest⟩
  · rw [hselect] at hfirst
    rcases hfirst with h | h <;> cases h
  · rcases hrest with ⟨-, -, hexactly, -⟩ | ⟨written, file, later, path, fault', -, -, -,
      hexactly, -⟩
    · exact ⟨_, t', before, target, after, files, hrun, hs, hexactly⟩
    · exact ⟨_, t', before, target, after, files ++ written, hrun, hs, hexactly⟩

/-- Different paths can lead to one file. The file of the first target holds something
else when the third one fails, because the second has written over it. -/
theorem not_written_sharedProject : ∃ d first files fault t',
    (sharedProject.loader.loadCached.run blockedFiles).1 = .ok d ∧
    sharedProject.target "first" = .ok first ∧
    (∀ targets, sharedProject.select [] = .ok targets →
      (Target.allPaths (sharedProject.model d) targets).Nodup) ∧
    first.render (sharedProject.model d) blockedFiles = .ok files ∧
    (sharedProject.buildCached []).run blockedFiles = (.error (.io ⟨"./taken"⟩ fault), t') ∧
    ∃ file ∈ files, t'.readText file.path ≠ .ok file.contents := by
  have hfailed : failedAt? sharedProject blockedFiles = some ⟨"./taken"⟩ := by decide +kernel
  -- All of it is computed: the document, the first target, and the file that was lost.
  have hcheck : (sharedProject.loader.loadCached.run blockedFiles).1.toOption.any (fun d =>
      (sharedProject.target "first").toOption.any fun first =>
      (first.render (sharedProject.model d) blockedFiles).toOption.any fun files =>
        decide (Target.allPaths (sharedProject.model d)
          ((sharedProject.select []).toOption.getD [])).Nodup &&
        files.any fun file => decide
          ((((sharedProject.buildCached []).run blockedFiles).2.readText file.path).toOption ≠
            some file.contents)) =
      true := by decide +kernel
  obtain ⟨fault, t', hrun⟩ := exists_run_of_failedAt? hfailed
  obtain ⟨d, hload, hcheck⟩ := Outcome.exists_of_any_toOption hcheck
  obtain ⟨first, htarget, hcheck⟩ := Outcome.exists_of_any_toOption hcheck
  obtain ⟨files, hrender, hcheck⟩ := Outcome.exists_of_any_toOption hcheck
  rw [Bool.and_eq_true, decide_eq_true_eq, List.any_eq_true] at hcheck
  obtain ⟨hnodup, file, hfile, hother⟩ := hcheck
  refine ⟨d, first, files, fault, t', hload, htarget, ?_, hrender, hrun, file, hfile, ?_⟩
  · intro targets hs
    rw [hs] at hnodup
    exact hnodup
  · intro hread
    rw [hrun, hread] at hother
    exact of_decide_eq_true hother rfl

end Config

end Classwright
