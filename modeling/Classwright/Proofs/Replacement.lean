import Classwright.Proofs.Reach
import Classwright.Schema.Cache

/-!
# Replacing the files of a cache

What the steps of storing do in a directory that is open, whatever stands there under
the names of the cache. A file is replaced, by way of its draft, unless the file or the
draft is a directory (`Cache.exists_run_replace`); a step that fails changes no more
than the draft (`Cache.exists_run_replace_error`). Storing is made of such steps, one
after the other (`Cache.run_store`).
-/

namespace Classwright

open Classwright.Path (IsName)

/-! ## Running actions

An action is run on a tree and gives an outcome with the tree that is left.
-/

namespace FileAction

variable {α β : Type} {a : FileAction α} {f : α → FileAction β} {t t' : FileTree}

theorem run_bind_ok {x : α} (h : a.run t = (.ok x, t')) : (a >>= f).run t = (f x).run t' :=
  Outcome.bind_of_ok h

/-- An action that fails ends the sequence. -/
theorem run_bind_error {failure : Failure} (h : a.run t = (.error failure, t')) :
    (a >>= f).run t = (.error failure, t') :=
  Outcome.bind_of_error h

/-- Reading a text fails at the path, with the fault of the tree. -/
theorem run_readText_of_error {path : Path} {fault : IoFault} (h : t.readText path = .error fault) :
    (readText path).run t = (.error (.io path fault), t) :=
  congrArg (fun found => (atPath path found, t)) h

theorem run_readText_of_ok {path : Path} {text : String} (h : t.readText path = .ok text) :
    (readText path).run t = (.ok text, t) :=
  congrArg (fun found => (atPath path found, t)) h

theorem run_change {path : Path} {op : FileTree → Except IoFault FileTree} (h : op t = .ok t') :
    (change path op).run t = (.ok (), t') := by
  simp [run, change, h]

theorem run_change_error {path : Path} {op : FileTree → Except IoFault FileTree} {fault : IoFault}
    (h : op t = .error fault) : (change path op).run t = (.error (.io path fault), t) := by
  simp [run, change, h]

end FileAction

namespace Schema.Cache

/-! ## The files of a cache

A cache has two files in one directory, and a draft for each of them.
-/

/-- The name of the file of the document. -/
def documentName : String :=
  "objects_and_components.json"

/-- The name of the file of the stamp. -/
def stampName : String :=
  "last_updated"

/-- The name of the file that is written first. -/
def draftName (name : String) : String :=
  name ++ ".tmp"

/-- The names of the files of a cache. -/
def fileNames : List String :=
  [documentName, draftName documentName, stampName, draftName stampName]

theorem isName_of_mem_fileNames (name : String) (h : name ∈ fileNames) : IsName name := by
  simp only [fileNames, List.mem_cons, List.not_mem_nil, or_false] at h
  rcases h with rfl | rfl | rfl | rfl <;> exact ⟨by decide, by decide, by decide, by decide⟩

/-- The paths of the files of a cache. -/
def paths (c : Cache) : List Path :=
  [c.documentPath, draftPath c.documentPath, c.stampPath, draftPath c.stampPath]

variable {c : Cache} {t : FileTree} {dir : Key} {name : String}

/-- The draft of a file is next to it. -/
theorem exists_draftPath_child (p : Path) (hn : IsName name) :
    ∃ q, draftPath (p.child name) = q.child (draftName name) ∧ p.SameSteps q := by
  rw [draftPath, p.fileName?_child hn]
  exact p.exists_withFileName_child hn (draftName name)

/-- Whether there is a directory in the place of a file, or of its draft. -/
def Occupied (t : FileTree) (dir : Key) (name : String) : Prop :=
  t.get? (dir ++ [name]) = some .directory ∨ t.get? (dir ++ [draftName name]) = some .directory

/-! ## Entries in the directory

The files of a cache are looked at by their names in the directory that is open.
-/

theorem entryAt?_documentPath (h : t.Opens c.directory dir) :
    t.entryAt? c.documentPath = t.get? (dir ++ [documentName]) :=
  FileTree.entryAt?_child h (isName_of_mem_fileNames documentName (by decide))

theorem entryAt?_stampPath (h : t.Opens c.directory dir) :
    t.entryAt? c.stampPath = t.get? (dir ++ [stampName]) :=
  FileTree.entryAt?_child h (isName_of_mem_fileNames stampName (by decide))

theorem entryAt?_draft (h : t.Opens c.directory dir) (hn : name ∈ fileNames)
    (hd : draftName name ∈ fileNames) :
    t.entryAt? (draftPath (c.directory.child name)) = t.get? (dir ++ [draftName name]) := by
  obtain ⟨q, hq, hsame⟩ := exists_draftPath_child c.directory (isName_of_mem_fileNames _ hn)
  rw [hq]
  exact FileTree.entryAt?_child (h.of_sameSteps hsame) (isName_of_mem_fileNames _ hd)

/-! ## Replacing a file

The draft is written and then moved over the file, so nothing is changed but these two
names.
-/

section replace

variable (h : t.Opens c.directory dir) (hn : name ∈ fileNames) (hd : draftName name ∈ fileNames)

include h hn hd

/-- Replacing a file whose place is free succeeds, and changes nothing else, except that
the draft is gone. -/
theorem exists_run_replace (ho : ¬Occupied t dir name) (s : String) :
    ∃ t', (replace (c.directory.child name) s).run t = (.ok (), t') ∧ t'.Opens c.directory dir ∧
      t'.get? (dir ++ [name]) = some (.file (.text s)) ∧ ∀ other, other ≠ name →
        t'.get? (dir ++ [other]) = if other = draftName name then none
        else t.get? (dir ++ [other]) := by
  obtain ⟨hfile, hdraft⟩ := not_or.1 ho
  have hname := isName_of_mem_fileNames _ hn
  have hname' := isName_of_mem_fileNames _ hd
  have hgiven := FileTree.isGiven_append dir hname
  have hgiven' := FileTree.isGiven_append dir hname'
  have hne : draftName name ≠ name := by simp [draftName]
  obtain ⟨q, hq, hsame⟩ := exists_draftPath_child c.directory hname
  -- the tree with the draft, and the tree without it
  let written := t.set (dir ++ [draftName name]) (.file (.text s))
  have hwritten : written.Opens c.directory dir :=
    h.of_agreesOff hname' hdraft (t.agreesOff_set hgiven' _)
  have hdraft' : written.get? (dir ++ [draftName name]) = some (.file (.text s)) := by
    rw [t.get?_set hgiven', if_pos rfl]
  have hfile' : written.get? (dir ++ [name]) ≠ some .directory := by
    rwa [t.get?_set hgiven', if_neg (by simpa using hne)]
  have herased : (written.erase (dir ++ [draftName name])).Opens c.directory dir :=
    hwritten.of_agreesOff hname' (by simp [hdraft']) (written.agreesOff_erase _)
  have hfile'' : (written.erase (dir ++ [draftName name])).get? (dir ++ [name]) ≠
      some .directory := by
    rwa [written.get?_erase (by simpa using hne)]
  have hrun : (replace (c.directory.child name) s).run t =
      (.ok (),
        (written.erase (dir ++ [draftName name])).set (dir ++ [name]) (.file (.text s))) := by
    have hwrite : (FileAction.write (q.child (draftName name)) s).run t = (.ok (), written) :=
      FileAction.run_change (FileTree.write_child (h.of_sameSteps hsame) hname' hdraft)
    rw [replace, hq, FileAction.run_bind_ok hwrite]
    exact FileAction.run_change
      (FileTree.rename_child (hwritten.of_sameSteps hsame) hwritten hname' hname hdraft' hfile')
  refine ⟨_, hrun, herased.of_agreesOff hname hfile'' (FileTree.agreesOff_set _ hgiven _), ?_,
    fun other ho => ?_⟩
  · rw [FileTree.get?_set _ hgiven, if_pos rfl]
  · rw [FileTree.get?_set _ hgiven, if_neg (by simpa using Ne.symm ho)]
    by_cases hother : other = draftName name
    · rw [if_pos hother, hother, written.get?_erase_self hgiven']
    · rw [if_neg hother, written.get?_erase (by simpa using Ne.symm hother), t.get?_set hgiven',
        if_neg (by simpa using Ne.symm hother)]

/-- Replacing a file whose place is occupied fails, and changes at most the draft. -/
theorem exists_run_replace_error (ho : Occupied t dir name) (s : String) :
    ∃ failure t', (replace (c.directory.child name) s).run t = (.error failure, t') ∧
    t'.Opens c.directory dir ∧
      ∀ other, other ≠ draftName name → t'.get? (dir ++ [other]) = t.get? (dir ++ [other]) := by
  have hname := isName_of_mem_fileNames _ hn
  have hname' := isName_of_mem_fileNames _ hd
  have hgiven' := FileTree.isGiven_append dir hname'
  have hne : draftName name ≠ name := by simp [draftName]
  obtain ⟨q, hq, hsame⟩ := exists_draftPath_child c.directory hname
  rw [replace, hq]
  -- Either the draft cannot be written, or it cannot be moved over a directory.
  by_cases hdraft : t.get? (dir ++ [draftName name]) = some .directory
  · have hwrite : (FileAction.write (q.child (draftName name)) s).run t =
        (.error (.io (q.child (draftName name)) .isDirectory), t) :=
      FileAction.run_change_error
        (FileTree.write_child_directory (h.of_sameSteps hsame) hname' hdraft)
    exact ⟨_, t, FileAction.run_bind_error hwrite, h, fun _ _ => rfl⟩
  · have hfile : t.get? (dir ++ [name]) = some .directory := ho.resolve_right hdraft
    let written := t.set (dir ++ [draftName name]) (.file (.text s))
    have hwrite : (FileAction.write (q.child (draftName name)) s).run t = (.ok (), written) :=
      FileAction.run_change (FileTree.write_child (h.of_sameSteps hsame) hname' hdraft)
    have hwritten : written.Opens c.directory dir :=
      h.of_agreesOff hname' hdraft (t.agreesOff_set hgiven' _)
    have hdraft' : written.get? (dir ++ [draftName name]) = some (.file (.text s)) := by
      rw [t.get?_set hgiven', if_pos rfl]
    have hfile' : written.get? (dir ++ [name]) = some .directory := by
      rwa [t.get?_set hgiven', if_neg (by simpa using hne)]
    have hrename := FileTree.rename_child_directory (hwritten.of_sameSteps hsame) hwritten hname'
      hname hdraft' hfile'
    refine ⟨_, written, (FileAction.run_bind_ok hwrite).trans (FileAction.run_change_error hrename),
      hwritten, ?_⟩
    intro other hother
    rw [t.get?_set hgiven', if_neg (by simpa using Ne.symm hother)]

end replace

/-! ## Removing the stamp

A document without a stamp must not keep that of the document before it.
-/

theorem run_removeStamp : c.removeStamp.run t =
    (if t.has c.stampPath then FileAction.change c.stampPath fun t =>
      t.removeFile c.stampPath else pure ()).run t :=
  FileAction.run_bind_ok (a := get) rfl

/-- Removing the stamp succeeds unless it is a directory, and changes nothing else. -/
theorem exists_run_removeStamp (h : t.Opens c.directory dir)
    (hs : t.get? (dir ++ [stampName]) ≠ some .directory) :
    ∃ t', c.removeStamp.run t = (.ok (), t') ∧ t'.Opens c.directory dir ∧
    t'.get? (dir ++ [stampName]) = none ∧
      ∀ other, other ≠ stampName → t'.get? (dir ++ [other]) = t.get? (dir ++ [other]) := by
  have hname : IsName stampName := isName_of_mem_fileNames _ (by decide)
  have hhas : t.has c.stampPath = (t.get? (dir ++ [stampName])).isSome := FileTree.has_child h hname
  rw [run_removeStamp, hhas]
  -- A stamp that is not there needs no removal.
  cases hg : t.get? (dir ++ [stampName]) with
  | none => exact ⟨t, rfl, h, hg, fun _ _ => rfl⟩
  | some entry =>
    cases entry with
    | directory => exact absurd hg hs
    | file contents =>
      refine ⟨_, FileAction.run_change (FileTree.removeFile_child h hname hg),
        h.of_agreesOff hname hs (t.agreesOff_erase _),
        t.get?_erase_self (FileTree.isGiven_append dir hname),
        fun other hne => ?_⟩
      exact t.get?_erase (by simpa [stampName] using Ne.symm hne)

/-- A directory is not removed like a stamp. -/
theorem exists_run_removeStamp_error (h : t.Opens c.directory dir)
    (hs : t.get? (dir ++ [stampName]) = some .directory) :
    ∃ failure, c.removeStamp.run t = (.error failure, t) := by
  have hname : IsName stampName := isName_of_mem_fileNames _ (by decide)
  have hhas : t.has c.stampPath = true := (FileTree.has_child h hname).trans (by rw [hs]; rfl)
  rw [run_removeStamp, if_pos hhas]
  exact ⟨_, FileAction.run_change_error (FileTree.removeFile_child_directory h hname hs)⟩

/-! ## Storing

The document comes first and the stamp after it.
-/

/-- Replacing the document leaves the stamp and its draft as they are. -/
theorem exists_run_replace_document (h : t.Opens c.directory dir)
    (hfree : ¬Occupied t dir documentName) (body : String) :
    ∃ t₁, (replace c.documentPath body).run t = (.ok (), t₁) ∧ t₁.Opens c.directory dir ∧
      t₁.get? (dir ++ [documentName]) = some (.file (.text body)) ∧
      t₁.get? (dir ++ [stampName]) = t.get? (dir ++ [stampName]) ∧
      (Occupied t₁ dir stampName ↔ Occupied t dir stampName) := by
  obtain ⟨t₁, hrun, hopens, hdocument, hother⟩ :=
    exists_run_replace h (by decide : documentName ∈ fileNames) (by decide) hfree body
  have hstamp := (hother stampName (by decide)).trans (if_neg (by decide))
  have hdraft := (hother (draftName stampName) (by decide)).trans (if_neg (by decide))
  exact ⟨t₁, hrun, hopens, hdocument, hstamp, by rw [Occupied, Occupied, hstamp, hdraft]⟩

/-- Replaces or removes the stamp. -/
def putStamp (c : Cache) (stamp? : Option String) : FileAction Unit :=
  stamp?.elim c.removeStamp (replace c.stampPath)

/-- The stamp is put and nothing else changes, except that its draft is gone; or its
place is occupied and nothing but the draft changes. -/
theorem run_putStamp_cases (h : t.Opens c.directory dir) (stamp? : Option String) :
    (∃ t', (c.putStamp stamp?).run t = (.ok (), t') ∧ t'.Opens c.directory dir ∧
      t'.get? (dir ++ [stampName]) = (stamp?.map fun stamp => .file (.text stamp)) ∧
      ∀ other, other ≠ stampName → other ≠ draftName stampName →
        t'.get? (dir ++ [other]) = t.get? (dir ++ [other])) ∨
    Occupied t dir stampName ∧ ∃ failure t', (c.putStamp stamp?).run t = (.error failure, t') ∧
      t'.Opens c.directory dir ∧ ∀ other, other ≠ draftName stampName →
        t'.get? (dir ++ [other]) = t.get? (dir ++ [other]) := by
  -- Without a stamp the old one is removed, and with one it is replaced.
  cases stamp? with
  | none =>
    by_cases hs : t.get? (dir ++ [stampName]) = some .directory
    · obtain ⟨failure, hrun⟩ := exists_run_removeStamp_error h hs
      exact Or.inr ⟨Or.inl hs, failure, t, hrun, h, fun _ _ => rfl⟩
    · obtain ⟨t', hrun, hopens, hstamp, hother⟩ := exists_run_removeStamp h hs
      exact Or.inl ⟨t', hrun, hopens, hstamp, fun other hne _ => hother other hne⟩
  | some stamp =>
    by_cases ho : Occupied t dir stampName
    · exact Or.inr ⟨ho,
        exists_run_replace_error h (by decide : stampName ∈ fileNames) (by decide) ho stamp⟩
    · obtain ⟨t', hrun, hopens, hstamp, hother⟩ :=
        exists_run_replace h (by decide : stampName ∈ fileNames) (by decide) ho stamp
      exact Or.inl ⟨t', hrun, hopens, hstamp,
        fun other hne hne' => (hother other hne).trans (if_neg hne')⟩

/-- Without its directory nothing is stored. -/
theorem run_store_of_makeDirectories_error {made : FileTree} {fault : IoFault}
    (hmade : t.makeDirectories c.directory = (made, .error fault)) (body : String)
    (stamp? : Option String) : (c.store body stamp?).run t =
    (.error (.io c.directory fault), made) := by
  have hensure : (FileAction.ensureDirectory c.directory).run t =
      (.error (.io c.directory fault), made) := by
    simp only [FileAction.run, FileAction.ensureDirectory, hmade]
    rfl
  exact FileAction.run_bind_error hensure

/-- Once its directory is made, a cache is stored by replacing the document, and then
the stamp. -/
theorem run_store {made : FileTree} (hmade : t.makeDirectories c.directory = (made, .ok ()))
    (body : String) (stamp? : Option String) :
    (c.store body stamp?).run t =
    (replace c.documentPath body >>= fun _ => c.putStamp stamp?).run made := by
  have hensure : (FileAction.ensureDirectory c.directory).run t = (.ok (), made) := by
    simp only [FileAction.run, FileAction.ensureDirectory, hmade]
    rfl
  refine (FileAction.run_bind_ok hensure).trans ?_
  cases stamp? <;> rfl

end Schema.Cache

end Classwright
