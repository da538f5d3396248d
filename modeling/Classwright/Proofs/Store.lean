import Classwright.Proofs.Replacement

/-!
# What a cache stores

A cache can be used where its directory is open and none of its file names leads to
anything but a text (`Cache.Ready`). Storing succeeds there and leaves exactly the given
document and stamp (`Cache.exists_run_store`), and reading gives back what was stored
(`Cache.Holds.read_eq`).
-/

namespace Classwright

open Classwright.Path (IsName)

namespace Schema.Cache

/-- Whether the directory of a cache is open and has nothing but texts under the names
of the cache. -/
structure Ready (c : Cache) (t : FileTree) (dir : Key) : Prop where
  /-- The directory is there. -/
  opens : t.Opens c.directory dir
  /-- What has the name of a file of the cache is a text. -/
  texts : ∀ name ∈ fileNames, ∀ entry, t.get? (dir ++ [name]) = some entry →
    ∃ s, entry = .file (.text s)

variable {c : Cache} {t : FileTree} {dir : Key} {name : String}

namespace Ready

/-- No directory is in the place of a file of a cache that is ready. -/
theorem get?_ne_directory (h : c.Ready t dir) (hn : name ∈ fileNames) :
    t.get? (dir ++ [name]) ≠ some .directory := by
  intro hd
  obtain ⟨s, hs⟩ := h.texts name hn _ hd
  cases hs

theorem not_occupied (h : c.Ready t dir) (hn : name ∈ fileNames) (hd : draftName name ∈ fileNames) :
    ¬Occupied t dir name :=
  not_or.2 ⟨h.get?_ne_directory hn, h.get?_ne_directory hd⟩

/-- A cache stays ready as long as nothing but texts is put under its names. -/
theorem of_get? {t' : FileTree} (h : c.Ready t dir) (ho : t'.Opens c.directory dir)
    (hother : ∀ other ∈ fileNames, ∀ entry, t'.get? (dir ++ [other]) = some entry →
      t.get? (dir ++ [other]) = some entry ∨ ∃ s, entry = .file (.text s)) : c.Ready t' dir :=
  ⟨ho, fun other hn entry he => (hother other hn entry he).elim (h.texts other hn entry) id⟩

end Ready

/-! ## Writing

Both files are replaced in a directory where nothing can be in the way.
-/

/-- Replacing a file of a ready cache keeps it ready. -/
theorem Ready.exists_run_replace (h : c.Ready t dir) (hn : name ∈ fileNames)
    (hd : draftName name ∈ fileNames) (s : String) :
    ∃ t', (replace (c.directory.child name) s).run t = (.ok (), t') ∧ c.Ready t' dir ∧
      t'.get? (dir ++ [name]) = some (.file (.text s)) ∧ ∀ other, other ≠ name →
      other ≠ draftName name →
        t'.get? (dir ++ [other]) = t.get? (dir ++ [other]) := by
  obtain ⟨t', hrun, hopens, hfile, hother⟩ :=
    Cache.exists_run_replace h.opens hn hd (h.not_occupied hn hd) s
  refine ⟨t', hrun, h.of_get? hopens fun other ho entry he => ?_, hfile, fun other hne hne' => ?_⟩
  -- The file that was replaced has a text, and the draft is gone.
  · by_cases hne : other = name
    · rw [hne, hfile] at he
      cases he
      exact Or.inr ⟨s, rfl⟩
    · rw [hother other hne] at he
      split at he
      · cases he
      · exact Or.inl he
  · rw [hother other hne, if_neg hne']

/-- Storing succeeds and leaves the given document and stamp. -/
theorem exists_run_store {made : FileTree} (hmade : t.makeDirectories c.directory = (made, .ok ()))
    (h : c.Ready made dir) (body : String) (stamp? : Option String) :
    ∃ t', (c.store body stamp?).run t = (.ok (), t') ∧ c.Ready t' dir ∧
      t'.get? (dir ++ [documentName]) = some (.file (.text body)) ∧
      t'.get? (dir ++ [stampName]) = stamp?.map fun stamp => .file (.text stamp) := by
  obtain ⟨t₁, hrun₁, hready₁, hdoc₁, -⟩ := h.exists_run_replace
    (by decide : documentName ∈ fileNames) (by decide) body
  have hrun : (c.store body stamp?).run t = (c.putStamp stamp?).run t₁ :=
    (run_store hmade body stamp?).trans (FileAction.run_bind_ok hrun₁)
  rw [hrun]
  -- The document is in place, and the stamp is removed or replaced after it.
  cases stamp? with
  | none =>
    obtain ⟨t₂, hrun₂, hopens₂, hstamp, hother⟩ :=
      exists_run_removeStamp hready₁.opens (hready₁.get?_ne_directory (by decide))
    refine ⟨t₂, hrun₂, hready₁.of_get? hopens₂ fun other _ entry he => ?_,
      (hother documentName (by decide)).trans hdoc₁, hstamp⟩
    by_cases hne : other = stampName
    · rw [hne, hstamp] at he
      cases he
    · exact Or.inl (hother other hne ▸ he)
  | some stamp =>
    obtain ⟨t₂, hrun₂, hready₂, hstamp, hother⟩ :=
      hready₁.exists_run_replace (by decide : stampName ∈ fileNames) (by decide) stamp
    exact ⟨t₂, hrun₂, hready₂, (hother documentName (by decide) (by decide)).trans hdoc₁, hstamp⟩

/-! ## An empty directory

The first use of a cache: nothing stands under its names, and its directory can be made.
-/

theorem read_of_absent (h : t.has c.documentPath = false) : c.read t = .ok none := by
  rw [read, h]
  rfl

/-- Whether there is nothing in a cache: its directory can be made, and is empty once it
is there. -/
structure StartsEmpty (c : Cache) (t : FileTree) : Prop where
  /-- There is no document. -/
  absent : t.has c.documentPath = false
  /-- There is no file in the directory when it has been made. -/
  made : ∃ made, t.makeDirectories c.directory = (made, .ok ()) ∧ ∀ path ∈ c.paths,
    made.has path = false

/-- Whether a document can be stored: the directory can be made, and the cache can be
used then. -/
def Prepared (c : Cache) (t : FileTree) : Prop :=
  ∃ made dir, t.makeDirectories c.directory = (made, .ok ()) ∧ c.Ready made dir

/-- A cache that starts empty is prepared. -/
theorem StartsEmpty.prepared (h : c.StartsEmpty t) : c.Prepared t := by
  obtain ⟨made, hmade, hpaths⟩ := h.made
  obtain ⟨dir, hopens⟩ := FileTree.exists_opens_of_makeDirectories hmade
  refine ⟨made, dir, hmade, hopens, fun name hn entry he => ?_⟩
  -- Each name of the cache is one of its four paths, spelled with the steps of the
  -- directory.
  obtain ⟨q, hq, hsame⟩ : ∃ q, q.child name ∈ c.paths ∧ c.directory.SameSteps q := by
    have hdocument :=
      exists_draftPath_child c.directory (isName_of_mem_fileNames documentName (by decide))
    have hstamp :=
      exists_draftPath_child c.directory (isName_of_mem_fileNames stampName (by decide))
    simp only [fileNames, List.mem_cons, List.not_mem_nil, or_false] at hn
    rcases hn with rfl | rfl | rfl | rfl
    · exact ⟨c.directory, List.mem_cons_self, .refl _⟩
    · obtain ⟨q, hq, hsame⟩ := hdocument
      exact ⟨q, hq ▸ List.mem_cons_of_mem _ List.mem_cons_self, hsame⟩
    · exact ⟨c.directory,
        List.mem_cons_of_mem _ (List.mem_cons_of_mem _ List.mem_cons_self), .refl _⟩
    · obtain ⟨q, hq, hsame⟩ := hstamp
      refine ⟨q, hq ▸ ?_, hsame⟩
      exact List.mem_cons_of_mem _
        (List.mem_cons_of_mem _ (List.mem_cons_of_mem _ List.mem_cons_self))
  have hhas := hpaths _ hq
  rw [FileTree.has_child (hopens.of_sameSteps hsame) (isName_of_mem_fileNames _ hn), he] at hhas
  cases hhas

theorem StartsEmpty.read_eq (h : c.StartsEmpty t) : c.read t = .ok none :=
  read_of_absent h.absent

/-! ## Reading

What is read is what the files have, with the stamp trimmed and a blank one as none.
-/

section read

variable {text : String}

/-- A document that cannot be read makes the cache fail. -/
theorem read_of_readText_error {fault : IoFault} (hhas : t.has c.documentPath = true)
    (h : t.readText c.documentPath = .error fault) :
    c.read t = .error (.io c.documentPath fault) := by
  rw [read, if_pos hhas, h]
  rfl

variable (h : t.entryAt? c.documentPath = some (.file (.text text)))

include h

/-- A text that is no document counts as none. -/
theorem read_of_text_error {fault : DocumentFault} (hparse : Document.ofText text = .error fault) :
    c.read t = .ok none := by
  have hread : t.readText c.documentPath = .ok text := FileTree.readText_of_entryAt? h
  rw [read, if_pos (FileTree.has_of_entryAt? h), hread]
  simp only [atPath, Outcome.mapError_ok, bind, Except.bind, hparse, pure, Except.pure]

/-- A document that can be read is cached with its stamp, if that can be read. -/
theorem read_of_text_ok {d : Document} (hparse : Document.ofText text = .ok d) :
    c.read t = (c.stamp? t).map fun stamp? => some ⟨d, stamp?⟩ := by
  have hread : t.readText c.documentPath = .ok text := FileTree.readText_of_entryAt? h
  rw [read, if_pos (FileTree.has_of_entryAt? h), hread]
  simp only [atPath, Outcome.mapError_ok, bind, Except.bind, hparse, pure, Except.pure]
  cases c.stamp? t <;> rfl

end read

/-- The stamp is read from its file. -/
theorem stamp?_of_text {text : String} (h : t.entryAt? c.stampPath = some (.file (.text text))) :
    c.stamp? t = .ok (stampOf text) := by
  have hread : t.readText c.stampPath = .ok text := FileTree.readText_of_entryAt? h
  rw [stamp?, if_pos (FileTree.has_of_entryAt? h), hread]
  rfl

theorem stamp?_of_none (h : t.entryAt? c.stampPath = none) : c.stamp? t = .ok none := by
  rw [stamp?, FileTree.has_eq_isSome_entryAt?, h]
  rfl

/-- The stamp of a ready cache can be read. -/
theorem exists_stamp?_eq (h : c.Ready t dir) : ∃ stamp?, c.stamp? t = .ok stamp? := by
  have hentry : t.entryAt? c.stampPath = t.get? (dir ++ [stampName]) := entryAt?_stampPath h.opens
  cases hg : t.get? (dir ++ [stampName]) with
  | none => exact ⟨none, stamp?_of_none (hentry.trans hg)⟩
  | some entry =>
    obtain ⟨text, rfl⟩ := h.texts stampName (by decide) entry hg
    exact ⟨stampOf text, stamp?_of_text (hentry.trans hg)⟩

/-- Whether a cache has a document. -/
def Holds (c : Cache) (t : FileTree) (d : Document) : Prop :=
  ∃ dir text, c.Ready t dir ∧ t.get? (dir ++ [documentName]) = some (.file (.text text)) ∧
    Document.ofText text = .ok d

theorem Holds.prepared {d : Document} (h : c.Holds t d) : c.Prepared t := by
  obtain ⟨dir, _, hready, -⟩ := h
  exact ⟨t, dir, FileTree.makeDirectories_of_opens hready.opens, hready⟩

/-- A cache that holds a document has a text that is read as it. -/
theorem Holds.readText_eq {d : Document} (h : c.Holds t d) :
    ∃ text, t.readText c.documentPath = .ok text ∧ Document.ofText text = .ok d := by
  obtain ⟨dir, text, hready, hdoc, hparse⟩ := h
  exact ⟨text,
    FileTree.readText_of_entryAt? ((entryAt?_documentPath hready.opens).trans hdoc), hparse⟩

/-- What a cache has is read. -/
theorem Holds.read_eq {d : Document} (h : c.Holds t d) :
    ∃ stamp?, c.read t = .ok (some ⟨d, stamp?⟩) := by
  obtain ⟨dir, text, hready, hdoc, hparse⟩ := h
  have hentry : t.entryAt? c.documentPath = some (.file (.text text)) :=
    (entryAt?_documentPath hready.opens).trans hdoc
  obtain ⟨stamp?, hstamp⟩ := exists_stamp?_eq hready
  exact ⟨stamp?, by rw [read_of_text_ok hentry hparse, hstamp]; rfl⟩

end Schema.Cache

end Classwright
