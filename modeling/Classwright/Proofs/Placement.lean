import Classwright.Proofs.Destinations
import Classwright.Proofs.Replacement

/-!
# Placing files

A file is placed by making its directory, with those above it, and writing it. Either it
is written, or the failure names the file or its directory, and at most directories have
been made (`FileAction.run_place_cases`). Files that are placed one after the other are
all written, or those in front of the one that fails are
(`FileAction.run_placeAll_cases`). What files a tree has then is known
(`FileTree.Wrote`): at each key the last one that went there, and elsewhere what was
there before. Files that were placed can be placed again, and no directory is made
(`FileAction.run_placeAll_of_lodged`).
-/

namespace Classwright

open Classwright.Path (isStep)

namespace FileTree

variable {t t' made : FileTree} {p : Path} {c : Contents}

/-! ## One operation

Making a directory makes those above it first. Writing puts a text at the destination,
if the directory is there and nothing else stands in the way.
-/

/-- A file that is written at a free path is found there. -/
theorem follow_set_file_of_free {key origin : Key} {ps : List String}
    (h : t.follow origin .directory ps = .ok (.free key false)) :
    (t.set key (.file c)).follow origin .directory ps = .ok (.taken key (.file c) false) := by
  obtain ⟨rest, -, hempty, hfollow⟩ := follow_set_of_free (.file c) h
  obtain rfl : rest = [] := by simpa using hempty
  exact hfollow

/-- A place with a file is not one of the directories that are always there. -/
theorem isGiven_of_get?_eq_file {key : Key} (h : t.get? key = some (.file c)) :
    isGiven key = false := by
  rw [← Bool.not_eq_true]
  intro hg
  simp [get?, hg] at h

/-- What is written stands at the destination, and is found there. -/
theorem write_eq_ok (h : t.write p c = .ok t') : t' = t.set p.destination (.file c) ∧
    isGiven p.destination = false ∧ t.get? p.destination ≠ some .directory ∧
    t'.locate p = .ok (.taken p.destination (.file c) false) := by
  -- A write succeeds at a file, which it replaces, or at a place that is free.
  obtain ⟨found, hl, h⟩ := Outcome.bind_eq_ok.1 h
  have hkey := key_of_locate hl
  obtain ⟨hne, hc⟩ := locate_eq_ok hl
  cases found with
  | taken key entry slash =>
    obtain rfl : key = p.destination := hkey
    cases entry with
    | directory => cases h
    | file c' =>
      cases slash with
      | true => cases h
      | false =>
        cases h
        have hfile := get?_of_locate_file hl
        have hgiven := isGiven_of_get?_eq_file hfile
        have hdirectory : t.get? p.destination ≠ some .directory := by simp [hfile]
        obtain ⟨c'', hl'⟩ := (Grows.set_file hgiven hdirectory c).locate_file hl
        have hthere := get?_of_locate_file hl'
        rw [get?_set t hgiven, if_pos rfl] at hthere
        cases hthere
        exact ⟨rfl, hgiven, hdirectory, hl'⟩
  | free key slash =>
    obtain rfl : key = p.destination := hkey
    cases slash with
    | true => cases h
    | false =>
      cases h
      have hfree := get?_of_locate_free hl
      refine ⟨rfl, isGiven_of_get?_eq_none hfree, by simp [hfree], ?_⟩
      rw [locate_eq t hne hc] at hl
      rw [locate_eq _ hne hc, follow_set_file_of_free hl]

theorem grows_of_write (h : t.write p c = .ok t') : t.Grows [] [p.destination] t' := by
  obtain ⟨rfl, hg, hd, -⟩ := write_eq_ok h
  exact .set_file hg hd c

/-- Making a directory grows the tree by it. -/
theorem grows_of_makeDirectory (h : t.makeDirectory p = .ok made) :
    t.Grows [p.destination] [] made := by
  obtain ⟨found, hl, h⟩ := Outcome.bind_eq_ok.1 h
  have hkey := key_of_locate hl
  cases found with
  | taken key entry slash => cases entry <;> cases h
  | free key slash =>
    cases h
    obtain rfl : key = p.destination := hkey
    exact .set_directory (get?_of_locate_free hl)

/-- Making directories, also where it fails, does nothing but make some of those that
the path passes. -/
theorem grows_makeDirectoriesWithin : ∀ (fuel : Nat) (t : FileTree) (p : Path),
    t.Grows p.passed [] (t.makeDirectoriesWithin fuel p).1
  | 0, t, p => .refl _ _ t
  | fuel + 1, t, p => by
    -- Making the directory itself adds the last place that the path passes.
    have hself : ∀ {t made : FileTree}, t.makeDirectory p = .ok made →
      t.Grows p.passed [] made := fun h =>
      (grows_of_makeDirectory h).mono (by simpa using p.destination_mem_passed) (List.Subset.refl _)
    rw [makeDirectoriesWithin]
    split
    · exact .refl _ _ t
    · split
      · next hm => exact hself hm
      · cases hparent : p.parent? with
        | none => exact .refl _ _ t
        | some parent =>
          -- The parents are made first; their places are passed as well.
          have hgrows := (grows_makeDirectoriesWithin fuel t parent).mono
            (Path.passed_subset_of_parent? hparent) (List.Subset.refl _)
          simp only
          split
          · next h =>
            rw [h] at hgrows
            exact hgrows
          · next h =>
            rw [h] at hgrows
            split
            · next hm => exact (hgrows.trans (hself hm)).mono (by simp) (by simp)
            · exact hgrows
      · exact .refl _ _ t

theorem grows_makeDirectories (t : FileTree) (p : Path) :
    t.Grows p.passed [] (t.makeDirectories p).1 :=
  grows_makeDirectoriesWithin _ t p

/-! ## Files that were placed

`Wrote` says what the tree has at every key in terms of the list of files, so that two
lists written one after the other are written as one.
-/

/-- Whether a file can be placed without making a directory: there is a file at the
path, in a directory. -/
structure Lodged (t : FileTree) (p : Path) : Prop where
  /-- The directory of the file is there. -/
  parent : ∀ {parent}, p.parent? = some parent → ∃ dir, t.Opens parent dir
  /-- There is a file at the path. -/
  found : ∃ c, t.locate p = .ok (.taken p.destination (.file c) false)

/-- What the last of the files that go to a key puts there. -/
def lastAt? (key : Key) : List SourceFile → Option Contents
  | [] => none
  | file :: rest =>
    (lastAt? key rest).or (if file.path.destination = key then some (.text file.contents) else none)

/-- Of two lists of files, the later one counts where it has the place. -/
theorem lastAt?_append (key : Key) (files files' : List SourceFile) :
    lastAt? key (files ++ files') = (lastAt? key files').or (lastAt? key files) := by
  induction files with
  | nil => simp [lastAt?]
  | cons file rest ih => simp [lastAt?, ih, Option.or_assoc]

/-- No file is at a place that no file leads to. -/
theorem lastAt?_eq_none_iff {key : Key} : ∀ {files : List SourceFile},
    lastAt? key files = none ↔ ∀ file ∈ files, file.path.destination ≠ key
  | [] => by simp [lastAt?]
  | file :: rest => by
    rw [lastAt?, Option.or_eq_none_iff, lastAt?_eq_none_iff, List.forall_mem_cons, and_comm]
    by_cases hk : file.path.destination = key <;> simp [hk]

/-- What is put at a key is what the last of the files that go there has. -/
theorem lastAt?_eq_some_iff {key : Key} {c : Contents} :
    ∀ {files : List SourceFile}, lastAt? key files = some c ↔
    ∃ before last after, files = before ++ last :: after ∧ last.path.destination = key ∧
    (∀ later ∈ after, later.path.destination ≠ key) ∧ c = .text last.contents
  | [] => by simp [lastAt?]
  | file :: rest => by
    rw [lastAt?, Option.or_eq_some_iff, lastAt?_eq_some_iff]
    constructor
    -- The last file for the place is in the rest, or it is this one.
    · rintro (⟨before, last, after, rfl, h⟩ | ⟨hnone, h⟩)
      · exact ⟨file :: before, last, after, rfl, h⟩
      · split at h
        · next hk =>
          cases h
          exact ⟨[], file, rest, rfl, hk, lastAt?_eq_none_iff.1 hnone, rfl⟩
        · cases h
    · rintro ⟨before, last, after, hfiles, hk, hafter, rfl⟩
      cases before with
      | nil =>
        cases hfiles
        exact Or.inr ⟨lastAt?_eq_none_iff.2 hafter, if_pos hk⟩
      | cons first before =>
        cases hfiles
        exact Or.inl ⟨before, last, after, rfl, hk, hafter, rfl⟩

/-- Whether files were written one after the other, and nothing else but directories was
made. -/
structure Wrote (made : List Key) (t : FileTree) (files : List SourceFile) (t' : FileTree) :
    Prop where
  /-- Nothing but directories and the files was made. -/
  grows : t.Grows made (files.map fun file => file.path.destination) t'
  /-- Each key has the last of the files that went there, or else what it had before. -/
  contents : ∀ key, t'.contents? key = (lastAt? key files).or (t.contents? key)
  /-- The files can be written again. -/
  lodged : ∀ file ∈ files, t'.Lodged file.path

/-- A file that has its place keeps it when the tree grows. -/
theorem Lodged.of_grows {made written : List Key} (h : t.Lodged p) (hg : t.Grows made written t') :
    t'.Lodged p where
  parent hp := by
    obtain ⟨dir, ho⟩ := h.parent hp
    exact ⟨dir, hg.opens ho⟩
  found := by
    obtain ⟨c, hl⟩ := h.found
    exact hg.locate_file hl

namespace Wrote

variable {made made' : List Key} {files files' : List SourceFile} {t'' : FileTree}

theorem nil (h : t.Grows made [] t') : Wrote made t [] t' :=
  ⟨h, fun _ => by rw [h.contents List.not_mem_nil, lastAt?, Option.none_or], by simp⟩

/-- Files written one after the other are written. -/
theorem append (h : Wrote made t files t') (h' : Wrote made' t' files' t'') :
    Wrote (made ++ made') t (files ++ files') t'' where
  grows := by
    rw [List.map_append]
    exact h.grows.trans h'.grows
  contents key := by rw [h'.contents, h.contents, lastAt?_append, Option.or_assoc]
  lodged file hf := by
    rcases List.mem_append.1 hf with hf | hf
    · exact (h.lodged file hf).of_grows h'.grows
    · exact h'.lodged file hf

theorem mono (h : Wrote made t files t') (hm : made ⊆ made') : Wrote made' t files t' :=
  ⟨h.grows.mono hm (List.Subset.refl _), h.contents, h.lodged⟩

end Wrote

/-- A file that is written into a directory that is there. -/
theorem wrote_of_write {file : SourceFile}
    (hparent : ∀ {parent}, file.path.parent? = some parent → ∃ dir, t.Opens parent dir)
    (h : t.write file.path (.text file.contents) = .ok t') : Wrote [] t [file] t' := by
  have hgrows := grows_of_write h
  obtain ⟨rfl, hg, -, hl⟩ := write_eq_ok h
  refine ⟨hgrows, fun key => ?_, ?_⟩
  · rw [contents?, contents?, get?_set t hg]
    by_cases hk : file.path.destination = key <;> simp [lastAt?, hk]
  · rw [List.forall_mem_singleton]
    refine ⟨fun hp => ?_, _, hl⟩
    obtain ⟨dir, ho⟩ := hparent hp
    exact ⟨dir, hgrows.opens ho⟩

end FileTree

/-! ## Actions

The actions on files stop at the first failure, and what was done before it stays.
-/

namespace FileAction

open FileTree (Wrote)

variable {t t' : FileTree}

theorem run_ensureDirectory {made : FileTree} {path : Path} {result : Except IoFault Unit}
    (h : t.makeDirectories path = (made, result)) : (ensureDirectory path).run t =
    (atPath path result, made) := by
  simp only [run, ensureDirectory, h]

/-- Placing a file is writing it, once its directory is there; making that can fail. -/
theorem run_place (path : Path) (contents : String) (t : FileTree) :
    ∃ made, t.Grows path.passed [] made ∧ ((∃ parent fault, path.parent? = some parent ∧
        (place path contents).run t = (.error (.io parent fault), made)) ∨
      (∀ {parent}, path.parent? = some parent → ∃ dir, made.Opens parent dir) ∧
        (place path contents).run t = (write path contents).run made) := by
  -- A path without a parent, or with an empty one, needs no directory.
  cases hparent : path.parent? with
  | none =>
    refine ⟨t, .refl _ _ t, Or.inr ⟨?_, ?_⟩⟩
    · rintro _ ⟨⟩
    · simp only [place, hparent]
  | some parent =>
    by_cases hempty : parent.isEmpty
    · refine ⟨t, .refl _ _ t, Or.inr ⟨?_, ?_⟩⟩
      · rintro _ ⟨⟩
        exact ⟨[], FileTree.opens_of_isEmpty t hempty⟩
      · simp only [place, hparent, hempty]
        rfl
    · obtain ⟨⟨made, result⟩, hmade⟩ : ∃ made, t.makeDirectories parent = made := ⟨_, rfl⟩
      -- Making the directories adds places that the path to the file passes.
      have hgrows : t.Grows path.passed [] made := by
        have h := (t.grows_makeDirectories parent).mono (Path.passed_subset_of_parent? hparent)
          (List.Subset.refl _)
        rwa [hmade] at h
      have hplace : place path contents = ensureDirectory parent >>= fun _ =>
          write path contents := by
        simp only [place, hparent, hempty]
        rfl
      rw [hplace]
      refine ⟨made, hgrows, ?_⟩
      cases result with
      | error fault => exact Or.inl ⟨parent, fault, rfl, run_bind_error (run_ensureDirectory hmade)⟩
      | ok u =>
        refine Or.inr ⟨?_, run_bind_ok (run_ensureDirectory hmade)⟩
        rintro _ ⟨⟩
        exact FileTree.exists_opens_of_makeDirectories hmade

/-- A file is placed, or the failure names it or its directory and no file has changed. -/
theorem run_place_cases (file : SourceFile) (t : FileTree) :
    (∃ t', (place file.path file.contents).run t = (.ok (), t') ∧
      Wrote file.path.passed t [file] t') ∨
    ∃ path fault t', (place file.path file.contents).run t = (.error (.io path fault), t') ∧
      (path = file.path ∨ file.path.parent? = some path) ∧ t.Grows file.path.passed [] t' := by
  obtain ⟨made, hgrows, ⟨parent, fault, hparent, hrun⟩ | ⟨hopens, hrun⟩⟩ :=
    run_place file.path file.contents t
  · exact Or.inr ⟨parent, fault, made, hrun, Or.inr hparent, hgrows⟩
  · rw [hrun]
    cases hwrite : made.write file.path (.text file.contents) with
    | ok t' =>
      refine Or.inl ⟨t', run_change hwrite, ?_⟩
      have hwrote := (Wrote.nil hgrows).append (FileTree.wrote_of_write hopens hwrite)
      exact hwrote.mono (by simp)
    | error fault =>
      exact Or.inr ⟨file.path, fault, made, run_change_error hwrite, Or.inl rfl, hgrows⟩

/-- The keys that the paths of files pass. -/
def passed (files : List SourceFile) : List Key :=
  files.flatMap fun file => file.path.passed

/-- All files are placed, or those in front of the one that the failure names. -/
theorem run_placeAll_cases : ∀ (files : List SourceFile) (t : FileTree),
    (∃ t', (placeAll files).run t = (.ok files.length, t') ∧ Wrote (passed files) t files t') ∨
    ∃ before file after path fault t', files = before ++ file :: after ∧
      (placeAll files).run t = (.error (.io path fault), t') ∧
      (path = file.path ∨ file.path.parent? = some path) ∧ Wrote (passed files) t before t'
  | [], t => Or.inl ⟨t, rfl, .nil (.refl _ _ t)⟩
  | file :: rest, t => by
    have hfirst : file.path.passed ⊆ passed (file :: rest) := by simp [passed]
    have hunion : file.path.passed ++ passed rest = passed (file :: rest) := by simp [passed]
    rcases run_place_cases file t with ⟨t₁, hplace, hwrote⟩ | ⟨path, fault, t', hplace,
      hpath, hgrows⟩
    -- This file is placed, and then by induction the others are.
    · have hrun : (placeAll (file :: rest)).run t =
          (placeAll rest >>= fun n => pure (n + 1)).run t₁ :=
        run_bind_ok hplace
      rw [hrun]
      rcases run_placeAll_cases rest t₁ with ⟨t', hrest, hwrote'⟩ |
        ⟨before, failed, after, path, fault, t', rfl, hrest, hpath, hwrote'⟩
      · exact Or.inl ⟨t', run_bind_ok hrest, hunion ▸ hwrote.append hwrote'⟩
      · exact Or.inr ⟨file :: before, failed, after, path, fault, t', rfl,
          run_bind_error hrest, hpath,
          hunion ▸ hwrote.append hwrote'⟩
    · exact Or.inr ⟨[], file, rest, path, fault, t', rfl, run_bind_error hplace, hpath,
        .nil (hgrows.mono hfirst (List.Subset.refl _))⟩

/-- A file that was placed can be placed again, and no directory is made. -/
theorem run_place_of_lodged {file : SourceFile} (h : t.Lodged file.path) :
    ∃ t', (place file.path file.contents).run t = (.ok (), t') ∧ Wrote [] t [file] t' := by
  obtain ⟨c, hl⟩ := h.found
  -- The file is there, so it is written in place.
  have hwrite : t.write file.path (.text file.contents) =
      .ok (t.set file.path.destination (.file (.text file.contents))) := by
    rw [FileTree.write, hl]
    rfl
  have hrun : (write file.path file.contents).run t = (.ok (), _) := run_change hwrite
  refine ⟨_, ?_, FileTree.wrote_of_write h.parent hwrite⟩
  rw [← hrun]
  unfold place
  cases hparent : file.path.parent? with
  | none => rfl
  | some parent =>
    obtain ⟨dir, ho⟩ := h.parent hparent
    -- Its directory is there, so nothing is made.
    have hensure := run_ensureDirectory (FileTree.makeDirectories_of_opens ho)
    cases hempty : parent.isEmpty with
    | true =>
      simp only [hempty]
      rfl
    | false =>
      simp only [hempty]
      exact run_bind_ok hensure

/-- Files that all have their places are written without making a directory. -/
theorem run_placeAll_of_lodged :
    ∀ {files : List SourceFile} {t : FileTree}, (∀ file ∈ files, t.Lodged file.path) →
    ∃ t', (placeAll files).run t = (.ok files.length, t') ∧ Wrote [] t files t'
  | [], t, _ => ⟨t, rfl, .nil (.refl _ _ t)⟩
  | file :: rest, t, h => by
    obtain ⟨hfile, hrest⟩ := List.forall_mem_cons.1 h
    obtain ⟨t₁, hplace, hwrote⟩ := run_place_of_lodged hfile
    obtain ⟨t', hplaceAll, hwrote'⟩ := run_placeAll_of_lodged fun f hf =>
      (hrest f hf).of_grows hwrote.grows
    have hrun : (placeAll (file :: rest)).run t =
        (placeAll rest >>= fun n => pure (n + 1)).run t₁ :=
      run_bind_ok hplace
    exact ⟨t', hrun.trans (run_bind_ok hplaceAll), hwrote.append hwrote'⟩

end FileAction

end Classwright
