import Classwright.Proofs.Replacement

/-!
# What comes of storing

To store a document, its directory is made, and the document and the stamp are replaced
one after the other. Storing that succeeds leaves both as they were given
(`Cache.stores_of_run_store_ok`). Where it fails, it is stuck and has replaced nothing,
or it is torn and has replaced the document only
(`Cache.stuck_or_torn_of_run_store_error`).
-/

namespace Classwright.Schema

namespace Cache

/-- Whether the document and the stamp of a cache are the same in two trees. -/
structure SameFiles (c : Cache) (t t' : FileTree) : Prop where
  /-- There is the same document, or none. -/
  document : t'.entryAt? c.documentPath = t.entryAt? c.documentPath
  /-- There is the same stamp, or none. -/
  stamp : t'.entryAt? c.stampPath = t.entryAt? c.stampPath

/-- Whether a text has taken the place of the document, and nothing that of the stamp. -/
structure HalfStored (c : Cache) (body : String) (t t' : FileTree) : Prop where
  /-- The document is the text. -/
  document : t'.entryAt? c.documentPath = some (.file (.text body))
  /-- There is the same stamp, or none. -/
  stamp : t'.entryAt? c.stampPath = t.entryAt? c.stampPath

/-- Whether the files of a cache are a document and its stamp. -/
structure Stores (c : Cache) (t : FileTree) (body : String) (stamp? : Option String) : Prop where
  /-- The document is there. -/
  document : t.entryAt? c.documentPath = some (.file (.text body))
  /-- The stamp is there, or there is none. -/
  stamp : t.entryAt? c.stampPath = stamp?.map fun stamp => .file (.text stamp)

/-- The files when the directory of a cache has been made, as far as that can be done. -/
def made (c : Cache) (t : FileTree) : FileTree :=
  (t.makeDirectories c.directory).1

/-- Whether a directory is in the way of replacing a file. -/
def Blocked (t : FileTree) (path : Path) : Prop :=
  t.isDirectory path ∨ t.isDirectory (draftPath path)

instance (t : FileTree) (path : Path) : Decidable (Blocked t path) :=
  inferInstanceAs (Decidable (t.isDirectory path ∨ t.isDirectory (draftPath path)))

/-- Whether storing ends before anything is replaced. -/
def Stuck (c : Cache) (t : FileTree) : Prop :=
  (∃ fault, (t.makeDirectories c.directory).2 = .error fault) ∨ Blocked (c.made t) c.documentPath

/-- Whether storing can end when the document has been replaced and the stamp has not. -/
def Torn (c : Cache) (t : FileTree) : Prop :=
  ¬c.Stuck t ∧ Blocked (c.made t) c.stampPath

variable {c : Cache} {t t' : FileTree} {dir : Key} {name body : String} {stamp? : Option String}
    {failure : Failure}

theorem SameFiles.refl (c : Cache) (t : FileTree) : c.SameFiles t t :=
  ⟨rfl, rfl⟩

/-- A directory that is there is not made. -/
theorem made_of_opens (h : t.Opens c.directory dir) : c.made t = t := by
  rw [made, FileTree.makeDirectories_of_opens h]

/-- A file of a cache is blocked exactly if its place or that of its draft is occupied. -/
theorem blocked_iff_occupied (h : t.Opens c.directory dir) (hn : name ∈ fileNames)
    (hd : draftName name ∈ fileNames) :
    Blocked t (c.directory.child name) ↔ Occupied t dir name := by
  rw [Blocked, Occupied, FileTree.isDirectory_iff_entryAt?, FileTree.isDirectory_iff_entryAt?,
    FileTree.entryAt?_child h (isName_of_mem_fileNames _ hn), entryAt?_draft h hn hd]

/-! ## Stuck or not

Storing is stuck if the directory cannot be made or the document cannot be replaced, and
then no more than the directory has been made.
-/

/-- Where storing is stuck, it fails and replaces nothing. -/
theorem exists_run_store_of_stuck (h : c.Stuck t) (body : String) (stamp? : Option String) :
    ∃ failure t', (c.store body stamp?).run t = (.error failure, t') ∧
    c.SameFiles (c.made t) t' := by
  rcases hmade : t.makeDirectories c.directory with ⟨made, result⟩
  rw [Stuck, Cache.made, hmade] at h
  rw [Cache.made, hmade]
  -- without its directory nothing is written; with it, no more than the draft of the
  -- document
  cases result with
  | error fault =>
    exact ⟨_, made, run_store_of_makeDirectories_error hmade body stamp?, .refl c made⟩
  | ok _ =>
    obtain ⟨dir, hopens⟩ := FileTree.exists_opens_of_makeDirectories hmade
    have hoccupied : Occupied made dir documentName := by
      rcases h with ⟨_, h⟩ | h
      · cases h
      · exact (blocked_iff_occupied hopens (by decide) (by decide)).1 h
    obtain ⟨failure, t', hrun, hopens', hother⟩ :=
      exists_run_replace_error hopens
        (by decide : documentName ∈ fileNames) (by decide) hoccupied body
    refine ⟨failure, t',
      (run_store hmade body stamp?).trans (FileAction.run_bind_error hrun), ?_, ?_⟩
    · rw [entryAt?_documentPath hopens', entryAt?_documentPath hopens,
        hother documentName (by decide)]
    · rw [entryAt?_stampPath hopens', entryAt?_stampPath hopens, hother stampName (by decide)]

/-- Where storing is not stuck, it replaces the document and goes on with the stamp. -/
theorem exists_run_store_of_not_stuck (h : ¬c.Stuck t) (body : String) :
    ∃ dir t₁, t₁.Opens c.directory dir ∧
    t₁.get? (dir ++ [documentName]) = some (.file (.text body)) ∧
      t₁.entryAt? c.stampPath = (c.made t).entryAt? c.stampPath ∧
      (Occupied t₁ dir stampName ↔ Blocked (c.made t) c.stampPath) ∧
      ∀ stamp?, (c.store body stamp?).run t = (c.putStamp stamp?).run t₁ := by
  rcases hmade : t.makeDirectories c.directory with ⟨made, result⟩
  rw [Stuck, Cache.made, hmade, not_or] at h
  rw [Cache.made, hmade]
  cases result with
  | error fault => exact absurd ⟨fault, rfl⟩ h.1
  | ok _ =>
    obtain ⟨dir, hopens⟩ := FileTree.exists_opens_of_makeDirectories hmade
    have hfree : ¬Occupied made dir documentName := fun ho =>
      h.2 ((blocked_iff_occupied hopens (by decide) (by decide)).2 ho)
    obtain ⟨t₁, hrun, hopens₁, hdocument, hstamp, hoccupied⟩ :=
      exists_run_replace_document hopens hfree body
    refine ⟨dir, t₁, hopens₁, hdocument, ?_, ?_, fun stamp? => ?_⟩
    · rw [entryAt?_stampPath hopens₁, entryAt?_stampPath hopens, hstamp]
    · exact hoccupied.trans (blocked_iff_occupied hopens (by decide) (by decide)).symm
    · rw [run_store hmade, FileAction.run_bind_ok hrun]

/-! ## Success and failure

If it is not stuck, the document is replaced, and the stamp decides between success and
a torn cache.
-/

/-- Storing that succeeds leaves what has been stored. -/
theorem stores_of_run_store_ok (hrun : (c.store body stamp?).run t = (.ok (), t')) :
    c.Stores t' body stamp? := by
  by_cases hstuck : c.Stuck t
  · obtain ⟨_, _, hrun', -⟩ := exists_run_store_of_stuck hstuck body stamp?
    cases hrun.symm.trans hrun'
  · obtain ⟨dir, t₁, hopens₁, hdocument, -, -, hstore⟩ := exists_run_store_of_not_stuck hstuck body
    rw [hstore] at hrun
    rcases run_putStamp_cases hopens₁ stamp? with ⟨t₂, hrun₂, hopens₂, hstamp₂, hother₂⟩ | ⟨-, _,
      _, hrun₂, -⟩
    · obtain ⟨-, rfl⟩ := Prod.mk.inj (hrun.symm.trans hrun₂)
      refine ⟨?_, (entryAt?_stampPath hopens₂).trans hstamp₂⟩
      rw [entryAt?_documentPath hopens₂, hother₂ documentName (by decide) (by decide), hdocument]
    · cases hrun.symm.trans hrun₂

/-- Storing that fails is stuck, or torn and has replaced the document. -/
theorem stuck_or_torn_of_run_store_error
    (hrun : (c.store body stamp?).run t = (.error failure, t')) :
    c.Stuck t ∧ c.SameFiles (c.made t) t' ∨ c.Torn t ∧ c.HalfStored body (c.made t) t' := by
  by_cases hstuck : c.Stuck t
  · obtain ⟨_, _, hrun', hsame⟩ := exists_run_store_of_stuck hstuck body stamp?
    obtain ⟨-, rfl⟩ := Prod.mk.inj (hrun.symm.trans hrun')
    exact Or.inl ⟨hstuck, hsame⟩
  · obtain ⟨dir, t₁, hopens₁, hdocument, hstamp, hoccupied, hstore⟩ :=
      exists_run_store_of_not_stuck hstuck body
    rw [hstore] at hrun
    rcases run_putStamp_cases hopens₁ stamp? with ⟨_, hrun₂, -⟩ | ⟨ho, _, t₂, hrun₂,
      hopens₂, hother₂⟩
    · cases hrun.symm.trans hrun₂
    · obtain ⟨-, rfl⟩ := Prod.mk.inj (hrun.symm.trans hrun₂)
      refine Or.inr ⟨⟨hstuck, hoccupied.1 ho⟩, ?_, ?_⟩
      · rw [entryAt?_documentPath hopens₂, hother₂ documentName (by decide), hdocument]
      · rw [← hstamp, entryAt?_stampPath hopens₂, entryAt?_stampPath hopens₁,
          hother₂ stampName (by decide)]

/-- Where storing can be torn, it is when there is a stamp. -/
theorem exists_run_store_of_torn (h : c.Torn t) (body stamp : String) :
    ∃ failure t', (c.store body (some stamp)).run t = (.error failure, t') ∧
    c.HalfStored body (c.made t) t' := by
  obtain ⟨hstuck, hblocked⟩ := h
  obtain ⟨dir, t₁, hopens₁, -, -, hoccupied, hstore⟩ := exists_run_store_of_not_stuck hstuck body
  obtain ⟨failure, t', hrun, -⟩ :=
    exists_run_replace_error hopens₁
      (by decide : stampName ∈ fileNames) (by decide) (hoccupied.2 hblocked) stamp
  have hrun' : (c.store body (some stamp)).run t = (.error failure, t') :=
    (hstore (some stamp)).trans hrun
  rcases stuck_or_torn_of_run_store_error hrun' with h | h
  · exact absurd h.1 hstuck
  · exact ⟨failure, t', hrun', h.2⟩

end Cache

end Classwright.Schema
