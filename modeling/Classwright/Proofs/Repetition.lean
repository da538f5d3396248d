import Classwright.Proofs.Interruption

/-!
# Building twice

A build that has succeeded can be repeated: it reads the same document and the same
fragments, makes the same files and writes them where they are already
(`Config.buildCached_twice`). What a build reads is not changed by what it writes as
long as the paths of its files keep away from it (`Config.Undisturbed`): none leads to
the document or passes it, and none lies inside a directory of fragments.
-/

namespace Classwright

open FileAction (passed)
open FileTree (Inside Wrote)
open Classwright.Path (IsName isStep)

/-! ## Reading a tree that has grown

A file is found in a grown tree as before if neither it nor a directory on the way was
made or written.
-/

namespace Path

/-- The destination of a child is that of its parent and its name. -/
theorem destination_child (p : Path) {name : String} (hn : IsName name) :
    (p.child name).destination = p.destination ++ [name] := by
  rw [destination, destination, p.steps_child hn, List.foldl_append, FileTree.start, FileTree.start,
    p.isAbsolute_child hn]
  exact FileTree.along_name _ hn.up

end Path

namespace FileTree

variable {made written : List Key} {t t' : FileTree} {p : Path}

/-- A file that can be read is at the destination of its path. -/
theorem locate_of_readText {s : String} (h : t.readText p = .ok s) :
    t.locate p = .ok (.taken p.destination (.file (.text s)) false) := by
  obtain ⟨⟨key, entry⟩, hfind, hread⟩ := Outcome.bind_eq_ok.1 h
  obtain ⟨found, hl, hfind⟩ := Outcome.bind_eq_ok.1 hfind
  have hkey := key_of_locate hl
  -- Only a file that is a text and has no slash behind its path can be read.
  cases found with
  | free key' slash => cases hfind
  | taken key' entry' slash =>
    obtain rfl : key' = p.destination := hkey
    cases entry' with
    | directory =>
      cases hfind
      cases hread
    | file c =>
      cases slash with
      | true => cases hfind
      | false =>
        cases hfind
        cases c with
        | bytes bs => cases hread
        | text s' =>
          cases hread
          exact hl

/-- A file that is not written keeps its text. -/
theorem Grows.readText (h : Grows made written t t') {s : String} (hr : t.readText p = .ok s)
    (hw : p.destination ∉ written) : t'.readText p = .ok s := by
  have hl := locate_of_readText hr
  obtain ⟨c, hl'⟩ := h.locate_file hl
  have hsame := h.contents hw
  rw [contents?, contents?, get?_of_locate_file hl, get?_of_locate_file hl'] at hsame
  cases hsame
  rw [readText_of_locate hl']
  rfl

/-- A path to something in a directory leads to that directory. -/
theorem exists_reach_of_follow (t : FileTree) {name : String} (hn : IsName name)
    {found : Location} :
    ∀ {ps : List String} {key : Key}, t.follow key .directory (ps ++ [name]) = .ok found →
      ∃ dir, t.reach key (ps.filter isStep) = some dir
  | [], key, _ => ⟨key, rfl⟩
  | p :: ps, key, h => by
    have hname : (ps ++ [name]).all (· == "") = false := by
      have hne : name ≠ "" := by
        rintro rfl
        exact absurd hn.step (by decide)
      simp [hne]
    rw [List.cons_append] at h
    -- A piece stays where it is, goes up, or goes into a directory.
    rcases piece_cases p with hp | rfl | ⟨hp, hup⟩
    · rw [List.filter_cons_of_neg (by simp [hp])]
      rw [follow_silent hp, if_neg (by simp)] at h
      exact exists_reach_of_follow t hn h
    · rw [filter_isStep_up, reach_up]
      rw [follow_up] at h
      exact exists_reach_of_follow t hn h
    · rw [List.filter_cons_of_pos hp]
      rw [follow_name hp hup] at h
      split at h
      · next entry he =>
        cases entry with
        | directory =>
          obtain ⟨dir, hr⟩ := exists_reach_of_follow t hn h
          exact ⟨dir, (reach_name hup).2 ⟨he, hr⟩⟩
        -- A file is not the end of the path, as the name is behind it.
        | file c =>
          cases hps : ps ++ [name] with
          | nil => simp at hps
          | cons p' ps' =>
            rw [hps] at h hname
            rw [follow, if_neg (by simp only [hname]; decide)] at h
            cases h
      · rw [if_neg (by simp only [hname]; decide)] at h
        cases h

/-- A path with a child opens a directory. -/
theorem exists_opens_of_has_child {name : String} (hn : IsName name) (h : t.has (p.child name)) :
    ∃ dir, t.Opens p dir := by
  obtain ⟨found, hfind⟩ := Outcome.isSome_toOption.1 h
  obtain ⟨location, hl, -⟩ := Outcome.bind_eq_ok.1 hfind
  obtain ⟨hne, hc⟩ := locate_eq_ok hl
  obtain ⟨ps, hf, hs⟩ := followed_child p hn
  rw [locate_eq t hne hc, hf, start, p.isAbsolute_child hn] at hl
  obtain ⟨dir, hr⟩ := exists_reach_of_follow t hn hl
  exact ⟨dir, (Path.isClean_child hn).1 hc, hs ▸ hr⟩

/-- What is in a directory is found as before if its key has the same entry. -/
theorem find_child_congr {dir : Key} (h : t.Opens p dir) (h' : t'.Opens p dir) {name : String}
    (hn : IsName name) (hsame : t'.get? (dir ++ [name]) = t.get? (dir ++ [name])) :
    t'.find (p.child name) = t.find (p.child name) := by
  rw [find_child h hn, find_child h' hn, hsame]

theorem has_congr (h : t'.find p = t.find p) : t'.has p = t.has p := by
  rw [has, has, h]

theorem readText_congr (h : t'.find p = t.find p) : t'.readText p = t.readText p := by
  rw [FileTree.readText, FileTree.readText, h]

end FileTree

namespace Schema

variable {made written : List Key} {t t' : FileTree}

/-- A cache is read as before if nothing was made or written in the place of its files. -/
theorem Cache.read_of_grows {c : Cache} {cached : Cached} (hg : t.Grows made written t')
    (hapart : ∀ p ∈ [c.documentPath, c.stampPath], p.destination ∉ made ∧ p.destination ∉ written)
    (h : c.read t = .ok (some cached)) : c.read t' = .ok (some cached) := by
  have hdocument := isName_of_mem_fileNames documentName (by decide)
  have hstamp := isName_of_mem_fileNames stampName (by decide)
  have hhas : t.has c.documentPath := by
    by_contra hno
    simp [Cache.read, hno, pure, Except.pure] at h
  obtain ⟨dir, ho⟩ := FileTree.exists_opens_of_has_child hdocument hhas
  -- What was put elsewhere does not change what stands in the directory of the cache.
  have hfind : ∀ {name}, IsName name → c.directory.child name ∈ [c.documentPath, c.stampPath] →
      t'.find (c.directory.child name) = t.find (c.directory.child name) := by
    intro name hn hmem
    obtain ⟨hm, hw⟩ := hapart _ hmem
    rw [Path.destination_child _ hn, ho.destination] at hm hw
    exact FileTree.find_child_congr ho (hg.opens ho) hn (hg.elsewhere hm hw)
  have hdocument' : t'.find c.documentPath = t.find c.documentPath :=
    hfind hdocument List.mem_cons_self
  have hstamp' : t'.find c.stampPath = t.find c.stampPath :=
    hfind hstamp (List.mem_cons_of_mem _ List.mem_cons_self)
  rw [← h, Cache.read, Cache.read, Cache.stamp?, Cache.stamp?, FileTree.has_congr hdocument',
    FileTree.readText_congr hdocument', FileTree.has_congr hstamp', FileTree.readText_congr hstamp']

/-- The files from which a document is loaded without a request. -/
def Loader.inputs (l : Loader) : List Path :=
  match l.source with
  | .file path => [path]
  | .remote _ => [l.cache.documentPath, l.cache.stampPath]

/-- A document is loaded as before if nothing was made or written in the place of the
files that it is loaded from. -/
theorem Loader.loadCached_of_grows {l : Loader} {d : Document} (hg : t.Grows made written t')
    (hapart : ∀ p ∈ l.inputs, p.destination ∉ made ∧ p.destination ∉ written)
    (h : (l.loadCached.run t).1 = .ok d) : (l.loadCached.run t').1 = .ok d := by
  unfold inputs at hapart
  -- A document is read from its own file or from the cache.
  cases hl : l.source with
  | file path =>
    rw [hl] at hapart
    rw [run_loadCached_file hl] at h ⊢
    obtain ⟨text, hr, hd⟩ := Outcome.bind_eq_ok.1 h
    rw [atPath, Outcome.mapError_eq_ok] at hr
    rw [hg.readText hr (hapart path List.mem_cons_self).2]
    exact hd
  | remote url =>
    rw [hl] at hapart
    rw [run_loadCached_remote hl] at h ⊢
    obtain ⟨cached?, hr, hd⟩ := Outcome.bind_eq_ok.1 h
    cases cached? with
    | none => cases hd
    | some cached =>
      rw [Cache.read_of_grows hg hapart hr]
      exact hd

end Schema

/-! ## Fragments in a tree that has grown

A directory of fragments is settled if it is found, or if there are no files in its
place. Then a scan depends on these files only, and gives the same as long as nothing is
written among them.
-/

/-- Only the files of a walk matter. -/
theorem Catalog.addFiles_filter (directory : Path) (extension : String) :
    ∀ (found : List (Key × FileEntry)) (c : Catalog), addFiles directory extension found c =
      addFiles directory extension (found.filter fun e => e.2 != .directory) c
  | [], _ => rfl
  | (names, .directory) :: rest, c => by
    rw [addFiles, addFiles_filter directory extension rest c]
    rfl
  | (names, .file contents) :: rest, c => by
    rw [List.filter_cons_of_pos (by simp), addFiles, addFiles]
    cases addFile directory extension c names contents with
    | error failure => rfl
    | ok c' => exact addFiles_filter directory extension rest c'

/-- Whether the files below the place of a directory are found through it, if there are
any. -/
def FileTree.Settled (t : FileTree) (directory : Path) : Prop :=
  t.isDirectory directory ∨ t.filesBelow directory.destination = []

instance (t : FileTree) (directory : Path) : Decidable (t.Settled directory) :=
  inferInstanceAs (Decidable (_ ∨ _))

/-- The scan of a settled directory depends on the files below its destination. -/
theorem Catalog.scan_of_settled {t : FileTree} {directory : Path} (h : t.Settled directory)
    (extension : String) : scan t directory extension =
    addFiles directory extension (t.filesBelow directory.destination) .empty := by
  have hfound : ∀ {key}, t.find directory = .ok (key, .directory) → scan t directory extension =
      addFiles directory extension (t.filesBelow directory.destination) .empty := by
    intro key hfind
    rw [scan, hfind, (FileTree.opens_of_find hfind).destination]
    exact addFiles_filter directory extension _ _
  -- The directory is found, or there are no files in its place.
  rcases h with h | h
  · obtain ⟨key, hfind⟩ := FileTree.isDirectory_iff.1 h
    exact hfound hfind
  · cases hfind : t.find directory with
    | error fault =>
      rw [scan, hfind, h]
      rfl
    | ok found =>
      obtain ⟨key, entry⟩ := found
      cases entry with
      | directory => exact hfound hfind
      | file c =>
        rw [scan, hfind, h]
        rfl

section grows

variable {made written : List Key} {t t' : FileTree}

theorem FileTree.Settled.of_grows {directory : Path} (h : t.Settled directory)
    (hg : t.Grows made written t') (hw : ∀ key ∈ written, ¬Inside key directory.destination) :
    t'.Settled directory :=
  h.imp hg.isDirectory fun hnone => by rw [hg.filesBelow hw, hnone]

/-- The fragments in a directory are the same if nothing was written inside it. -/
theorem Catalog.scan_of_grows {directory : Path} (h : t.Settled directory)
    (hg : t.Grows made written t') (hw : ∀ key ∈ written, ¬Inside key directory.destination)
    (extension : String) :
    scan t' directory extension = scan t directory extension := by
  rw [scan_of_settled h, scan_of_settled (h.of_grows hg hw), hg.filesBelow hw]

/-- The fragments are the same after the tree has grown elsewhere. -/
theorem Fragments.scan_of_grows {dirs : FragmentDirs} (hg : t.Grows made written t')
    (h : ∀ dir ∈ dirs.all, t.Settled dir ∧ ∀ key ∈ written, ¬Inside key dir.destination)
    (extension : String) :
    scan t' dirs extension = scan t dirs extension := by
  -- Each of the three directories is scanned on its own.
  have hset : ∀ {dir? : Option Path}, (∀ dir ∈ dir?, dir ∈ dirs.all) →
      scanIfSet t' dir? extension = scanIfSet t dir? extension := by
    intro dir? hmem
    cases dir? with
    | none => rfl
    | some dir =>
      obtain ⟨hs, hw⟩ := h dir (hmem dir rfl)
      exact Catalog.scan_of_grows hs hg hw extension
  have hall : ∀ dir? ∈ [dirs.objects?, dirs.components?, dirs.results?], ∀ dir ∈ dir?,
      dir ∈ dirs.all := by
    rintro dir? hmem dir rfl
    exact List.mem_filterMap.2 ⟨some dir, hmem, rfl⟩
  rw [scan, scan, hset (hall _ (by simp)), hset (hall _ (by simp)), hset (hall _ (by simp))]

namespace Target

variable {m : Model}

/-- A target has the same files if nothing was written inside its directories of
fragments. -/
theorem render_of_grows {target : Target} (hg : t.Grows made written t')
    (h : ∀ dir ∈ target.fragmentDirs.all, t.Settled dir ∧ ∀ key ∈ written,
      ¬Inside key dir.destination) :
    target.render m t' = target.render m t := by
  rw [render, render, Fragments.scan_of_grows hg h]

end Target

end grows

/-! ## Building again

The second build goes through the same targets. Each renders the same files, which are
in place already.
-/

/-- Targets that were built are built again, with the same reports, from a tree in which
all of their files are placed. Both times the trees have grown from one in which the
fragments are the same. -/
theorem Target.Built.exists_run_again {m : Model} {targets : List Target} {files : List SourceFile}
    {reports : List TargetReport} {t t' origin : FileTree} {written : List Key}
    (h : Built m t targets files reports t')
    (hwritten : ∀ file ∈ files, file.path.destination ∈ written)
    (hsettled : ∀ target ∈ targets, ∀ dir ∈ target.fragmentDirs.all,
      origin.Settled dir ∧ ∀ key ∈ written, ¬Inside key dir.destination) :
    ∀ {made made' : List Key} {s : FileTree}, origin.Grows made written t →
      origin.Grows made' written s → (∀ file ∈ files, s.Lodged file.path) →
        ∃ s', (buildAll m targets).run s = (.ok reports, s') ∧ Wrote [] s files s' := by
  induction h with
  | nil t => exact fun _ _ _ => ⟨_, rfl, .nil (.refl _ _ _)⟩
  | @cons target rest files later reports t t₁ t' hr hw h ih =>
    intro made made' s ht hs hlodged
    obtain ⟨hfirst, hrest⟩ := List.forall_mem_cons.1 hsettled
    rw [List.forall_mem_append] at hwritten hlodged
    have hkeys : (files.map fun file => file.path.destination) ⊆ written := by
      intro key hkey
      obtain ⟨file, hf, rfl⟩ := List.mem_map.1 hkey
      exact hwritten.1 file hf
    have hunion : written ++ (files.map fun file => file.path.destination) ⊆ written :=
      List.append_subset.2 ⟨List.Subset.refl _, hkeys⟩
    -- Both times the target has the files that it has in the tree from which both have
    -- grown.
    have hrender : target.render m s = .ok files := by
      rw [render_of_grows hs hfirst, ← render_of_grows ht hfirst, hr]
    obtain ⟨s₁, hplace, hw₁⟩ := FileAction.run_placeAll_of_lodged hlodged.1
    have hbuild : (target.build m).run s = (.ok (target.report m files.length), s₁) := by
      have hlook : (FileAction.look (target.render m)).run s = (.ok files, s) :=
        congrArg (·, s) hrender
      exact (FileAction.run_bind_ok hlook).trans (FileAction.run_bind_ok hplace)
    obtain ⟨s', hrun, hw'⟩ := ih hwritten.2 hrest ((ht.trans hw.grows).mono (List.Subset.refl _)
      hunion) ((hs.trans hw₁.grows).mono (List.Subset.refl _) hunion) fun file hf =>
      (hlodged.2 file hf).of_grows hw₁.grows
    exact ⟨s', (FileAction.run_bind_ok hbuild).trans (FileAction.run_bind_ok hrun), hw₁.append hw'⟩

/-- Files that are written again where they are change nothing. -/
theorem FileTree.Wrote.get?_again {made : List Key} {t t' t'' : FileTree} {files : List SourceFile}
    (h : Wrote made t files t') (h' : Wrote [] t' files t'') (key : Key) :
    t''.get? key = t'.get? key := by
  -- A file that was written has the same contents again, and nothing else changes.
  by_cases hkey : key ∈ files.map fun file => file.path.destination
  · obtain ⟨file, hf, rfl⟩ := List.mem_map.1 hkey
    obtain ⟨c, hl⟩ := (h.lodged file hf).found
    have hfile := get?_of_locate_file hl
    obtain ⟨c', hfile'⟩ := h'.grows.file hfile
    have hsame : t''.contents? file.path.destination = t'.contents? file.path.destination := by
      rw [h'.contents, h.contents, ← Option.or_assoc, Option.or_self]
    rw [contents?, contents?, hfile, hfile'] at hsame
    cases hsame
    rw [hfile, hfile']
  · exact h'.grows.elsewhere List.not_mem_nil hkey

namespace Config

/-- Whether the files of targets at some paths keep away from what building reads. -/
structure Undisturbed (c : Config) (t : FileTree) (targets : List Target) (paths : List Path) :
    Prop where
  /-- No path leads to a file from which the document is loaded, or passes it. -/
  inputs : ∀ path ∈ paths, ∀ input ∈ c.loader.inputs, input.destination ∉ path.passed
  /-- No path leads inside a directory of fragments. -/
  outside : ∀ path ∈ paths, ∀ target ∈ targets, ∀ dir ∈ target.fragmentDirs.all,
    ¬Inside path.destination dir.destination
  /-- A directory of fragments that has files is found. -/
  settled : ∀ target ∈ targets, ∀ dir ∈ target.fragmentDirs.all, t.Settled dir

instance (c : Config) (t : FileTree) (targets : List Target) (paths : List Path) :
    Decidable (c.Undisturbed t targets paths) :=
  decidable_of_iff
    ((∀ path ∈ paths, ∀ input ∈ c.loader.inputs, input.destination ∉ path.passed) ∧
      (∀ path ∈ paths, ∀ target ∈ targets, ∀ dir ∈ target.fragmentDirs.all,
        ¬Inside path.destination dir.destination) ∧
      ∀ target ∈ targets, ∀ dir ∈ target.fragmentDirs.all, t.Settled dir)
    ⟨fun ⟨hi, ho, hs⟩ => ⟨hi, ho, hs⟩, fun ⟨hi, ho, hs⟩ => ⟨hi, ho, hs⟩⟩

/-- A build that succeeds has selected its targets, loaded the document, and built one
target after the other. -/
theorem exists_built_of_run_buildCached {c : Config} {names : List String} {t t' : FileTree}
    {reports : List TargetReport} (h : (c.buildCached names).run t = (.ok reports, t')) :
    ∃ targets d files, c.select names = .ok targets ∧ (c.loader.loadCached.run t).1 = .ok d ∧
      Target.Built (c.model d) t targets files reports t' := by
  rw [run_buildCached] at h
  -- A success rules out every failure in front of it.
  cases hs : c.select names with
  | error failure =>
    rw [run_buildFrom_of_select_error hs] at h
    cases h
  | ok targets =>
    cases hd : (c.loader.loadCached.run t).1 with
    | error failure =>
      rw [hd, run_buildFrom_error hs] at h
      cases h
    | ok d =>
      rw [hd, run_buildFrom_ok hs] at h
      rcases Target.run_buildAll_cases (c.model d) targets t with ⟨files, reports', t₁, hb, hrun⟩ |
        ⟨before, target, after, files, reports', t₁, failure, t₂, -, -, -, herror⟩
      · rw [hrun] at h
        cases h
        exact ⟨targets, d, files, rfl, rfl, hb⟩
      · rw [herror] at h
        cases h

/-- A build that has succeeded can be repeated. It succeeds again with the same reports,
and leaves every file and every directory as it is, if what it reads is not disturbed by
what it writes. -/
theorem buildCached_twice {c : Config} {names : List String} {t t' : FileTree}
    {reports : List TargetReport} (h : (c.buildCached names).run t = (.ok reports, t'))
    (hapart : ∀ targets d, c.select names = .ok targets → (c.loader.loadCached.run t).1 = .ok d →
      c.Undisturbed t targets (Target.allPaths (c.model d) targets)) :
    ∃ t'', (c.buildCached names).run t' = (.ok reports, t'') ∧
      ∀ key, t''.get? key = t'.get? key := by
  obtain ⟨targets, d, files, hs, hd, hb⟩ := exists_built_of_run_buildCached h
  obtain ⟨hinputs, houtside, hsettled⟩ := hapart targets d hs hd
  have hwrote := hb.wrote
  rw [← hb.map_path, List.forall_mem_map] at hinputs houtside
  -- The inputs of the document are none of the files that were written.
  have hload : (c.loader.loadCached.run t').1 = .ok d := by
    refine Schema.Loader.loadCached_of_grows hwrote.grows (fun input hi => ⟨?_, ?_⟩) hd
    · intro hpassed
      obtain ⟨file, hf, hpassed⟩ := List.mem_flatMap.1 hpassed
      exact hinputs file hf input hi hpassed
    · intro hwritten
      obtain ⟨file, hf, hdestination⟩ := List.mem_map.1 hwritten
      exact hinputs file hf input hi (hdestination ▸ file.path.destination_mem_passed)
  -- The fragments are outside of what was written, so they are found again.
  have hfragments : ∀ target ∈ targets, ∀ dir ∈ target.fragmentDirs.all, t.Settled dir ∧
      ∀ key ∈ (files.map fun file => file.path.destination), ¬Inside key dir.destination := by
    intro target ht dir hdir
    refine ⟨hsettled target ht dir hdir, fun key hkey => ?_⟩
    obtain ⟨file, hf, rfl⟩ := List.mem_map.1 hkey
    exact houtside file hf target ht dir hdir
  have hwritten : ∀ file ∈ files, file.path.destination ∈ files.map fun file =>
      file.path.destination :=
    fun file hf => List.mem_map.2 ⟨file, hf, rfl⟩
  obtain ⟨t'', hagain, hwrote'⟩ :=
    hb.exists_run_again hwritten hfragments (.refl [] _ t) hwrote.grows hwrote.lodged
  refine ⟨t'', ?_, hwrote.get?_again hwrote'⟩
  rw [run_buildCached, hload, run_buildFrom_ok hs, hagain]

/-! ## Three projects

One whose fragments are away from its files, one whose files go into a directory in the
place of the stamp, and one whose path to its fragments leads through a directory that
is still to be made.
-/

/-- A project with one target whose fragments for objects are in a directory. -/
def fragmentsProject (fragments : String) : Config :=
  .ofSettings ⟨"modgen.toml"⟩
    { schema := { source := "schema.json" }
      targets :=
      ⟨[("js", { objectsTarget "gen" with fragmentDirs := { objects? := some ⟨fragments⟩ } })]⟩ }

/-- A project whose fragments are where it starts. -/
def partsProject : Config :=
  fragmentsProject "parts"

/-- A project whose fragments are found only by way of the generated files. -/
def detourProject : Config :=
  fragmentsProject "gen/../parts"

/-- A document with one object, and a fragment for it. -/
def fragmentFiles : FileTree :=
  ⟨[(["schema.json"], .file (.text
      ("\x7b\"objects\": \x7b\"User\": \x7b\"properties\": \x7b\x7d\x7d\x7d, " ++
        "\"components\": \x7b\x7d\x7d"))),
    (["parts"], .directory), (["parts", "User.class.js"], .file (.text "greet() \x7b\x7d\n"))]⟩

/-- A project that writes objects into a directory with the name of the stamp. -/
def stampProject : Config :=
  .ofSettings ⟨"modgen.toml"⟩
    { schema := { source := "https://schema.test/schema.json" }
      targets := ⟨[("js", objectsTarget ".modgen/last_updated")]⟩ }

/-- A cached document with one object, without a stamp. -/
def stampFiles : FileTree :=
  ⟨[([".modgen"], .directory), ([".modgen", "objects_and_components.json"], .file (.text
      ("\x7b\"objects\": \x7b\"User\": \x7b\"properties\": \x7b\x7d\x7d\x7d, " ++
        "\"components\": \x7b\x7d\x7d")))]⟩

/-- Whether a check of the targets and of the document of a build holds. -/
def checked (c : Config) (t : FileTree) (check : List Target → Schema.Document → Bool) : Bool :=
  (c.select []).toOption.any fun targets => (c.loader.loadCached.run t).1.toOption.any fun d =>
    check targets d

/-- What has been computed for a project holds of its targets and its document. -/
theorem of_checked {c : Config} {t : FileTree} {check : List Target → Schema.Document → Bool}
    (h : checked c t check) {targets : List Target} {d : Schema.Document}
    (hs : c.select [] = .ok targets) (hd : (c.loader.loadCached.run t).1 = .ok d) :
    check targets d := by
  rw [checked, hs, hd] at h
  exact h

/-- A computed success is one of the build. -/
theorem exists_run_of_isSome {c : Config} {t : FileTree}
    (h : ((c.buildCached []).run t).1.toOption.isSome) :
    ∃ reports t', (c.buildCached []).run t = (.ok reports, t') := by
  obtain ⟨reports, hr⟩ := Outcome.isSome_toOption.1 h
  exact ⟨reports, _, Prod.ext hr rfl⟩

/-- A target with fragments is built twice. -/
theorem buildCached_twice_partsProject : ∃ reports t' t'',
    (partsProject.buildCached []).run fragmentFiles = (.ok reports, t') ∧
    (partsProject.buildCached []).run t' = (.ok reports, t'') ∧
    ∀ key, t''.get? key = t'.get? key := by
  have hsome : ((partsProject.buildCached []).run fragmentFiles).1.toOption.isSome := by
    decide +kernel
  have hcheck : checked partsProject fragmentFiles (fun targets d =>
      decide (partsProject.Undisturbed fragmentFiles targets
        (Target.allPaths (partsProject.model d) targets))) := by decide +kernel
  obtain ⟨reports, t', hrun⟩ := exists_run_of_isSome hsome
  obtain ⟨t'', hagain, hsame⟩ := buildCached_twice hrun fun targets d hs hd =>
    of_decide_eq_true (of_checked hcheck hs hd)
  exact ⟨reports, t', t'', hrun, hagain, hsame⟩

/-- Whether a path leads neither to the settings, to the document or to a file of the
cache, nor inside a directory of fragments. -/
def LeadsElsewhere (c : Config) (targets : List Target) (path : Path) : Prop :=
  (∀ file ∈ c.path :: (c.loader.inputs ++ c.loader.cache.paths), path.destination ≠
    file.destination) ∧
  ∀ target ∈ targets, ∀ dir ∈ target.fragmentDirs.all, ¬Inside path.destination dir.destination

instance (c : Config) (targets : List Target) (path : Path) :
    Decidable (c.LeadsElsewhere targets path) :=
  inferInstanceAs (Decidable (_ ∧ _))

/-- A computed check of all paths is one of each. -/
theorem leadsElsewhere_of_checked {c : Config} {t : FileTree}
    (h : checked c t fun targets d =>
      decide (∀ path ∈ Target.allPaths (c.model d) targets, c.LeadsElsewhere targets path))
    (targets : List Target) (d : Schema.Document) (hs : c.select [] = .ok targets)
    (hd : (c.loader.loadCached.run t).1 = .ok d) :
    ∀ path ∈ Target.allPaths (c.model d) targets, c.LeadsElsewhere targets path :=
  of_decide_eq_true (of_checked h hs hd)

/-- The second build finds a directory in the place of the stamp. -/
theorem stampProject_fails_again :
    ∃ reports t' path fault t'', (stampProject.buildCached []).run stampFiles = (.ok reports, t') ∧
      (stampProject.buildCached []).run t' = (.error (.io path fault), t'') := by
  obtain ⟨hfirst, hsecond⟩ : ((stampProject.buildCached []).run stampFiles).1.toOption.isSome ∧
      failedAt? stampProject ((stampProject.buildCached []).run stampFiles).2 =
        some ⟨"./.modgen/last_updated"⟩ := by decide +kernel
  obtain ⟨reports, t', hrun⟩ := exists_run_of_isSome hfirst
  rw [hrun] at hsecond
  obtain ⟨fault, t'', hagain⟩ := exists_run_of_failedAt? hsecond
  exact ⟨reports, t', _, fault, t'', hrun, hagain⟩

/-- The second build finds the fragments, because the way to them is there now. -/
theorem detourProject_differs_again :
    ∃ reports t' reports' t'', (detourProject.buildCached []).run fragmentFiles =
      (.ok reports, t') ∧ (detourProject.buildCached []).run t' = (.ok reports', t'') ∧
      t''.get? ["gen", "User.js"] ≠ t'.get? ["gen", "User.js"] := by
  obtain ⟨hfirst, hsecond, hother⟩ :
      ((detourProject.buildCached []).run fragmentFiles).1.toOption.isSome ∧
      ((detourProject.buildCached []).run
        ((detourProject.buildCached []).run fragmentFiles).2).1.toOption.isSome ∧
      ((detourProject.buildCached []).run
        ((detourProject.buildCached []).run fragmentFiles).2).2.get? ["gen", "User.js"] ≠
          ((detourProject.buildCached []).run fragmentFiles).2.get? ["gen", "User.js"] := by
            decide +kernel
  obtain ⟨reports, t', hrun⟩ := exists_run_of_isSome hfirst
  rw [hrun] at hsecond hother
  obtain ⟨reports', t'', hagain⟩ := exists_run_of_isSome hsecond
  rw [hagain] at hother
  exact ⟨reports, t', reports', t'', hrun, hagain, hother⟩

/-- It is not enough that no file leads to what is read. A directory that is made in the
place of the stamp keeps the next build from reading the cache, and a directory that is
made on the way to the fragments lets it find them. -/
theorem not_buildCached_twice :
    ((∀ targets d, stampProject.select [] = .ok targets →
        (stampProject.loader.loadCached.run stampFiles).1 = .ok d →
        ∀ path ∈ Target.allPaths (stampProject.model d) targets,
          stampProject.LeadsElsewhere targets path) ∧
      ∃ reports t' path fault t'',
        (stampProject.buildCached []).run stampFiles = (.ok reports, t') ∧
        (stampProject.buildCached []).run t' = (.error (.io path fault), t'')) ∧
    (∀ targets d, detourProject.select [] = .ok targets →
        (detourProject.loader.loadCached.run fragmentFiles).1 = .ok d →
        ∀ path ∈ Target.allPaths (detourProject.model d) targets,
          detourProject.LeadsElsewhere targets path) ∧
      ∃ reports t' reports' t'',
        (detourProject.buildCached []).run fragmentFiles = (.ok reports, t') ∧
        (detourProject.buildCached []).run t' = (.ok reports', t'') ∧
        t''.get? ["gen", "User.js"] ≠ t'.get? ["gen", "User.js"] :=
  ⟨⟨leadsElsewhere_of_checked (by decide +kernel), stampProject_fails_again⟩,
    leadsElsewhere_of_checked (by decide +kernel), detourProject_differs_again⟩

end Config

end Classwright
