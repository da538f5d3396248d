import Classwright.Proofs.Damage
import Classwright.Proofs.Storing

/-!
# Loads that keep the cache

A load that does not end with a download leaves the files as they are, or fails to store
a document (`Loader.run_load_of_not_isDownload`). So it keeps the document and the
stamp, unless storing can be torn, or is stuck and making the directory alone brings one
of the two to light (`Loader.sameFiles_iff`).

There are two ways not to keep the cache without a download: the document is replaced
and the stamp is not, or nothing is stored but the directory that was made for it turns
a path into one that leads to a file. Both are found in the tree before the load.
-/

namespace Classwright.Schema

/-- A document with one object. -/
def userBody : String :=
  "\x7b\"objects\":\x7b\"User\":\x7b\x7d\x7d,\"components\":\x7b\x7d\x7d"

/-- Whatever is there, it is not the text of every document. -/
theorem exists_body_ne (found? : Option FileEntry) :
    ∃ body d, Document.ofText body = .ok d ∧ found? ≠ some (.file (.text body)) := by
  -- two documents are enough: what is there is not the text of both
  by_cases h : found? = some (.file (.text userBody))
  · obtain ⟨d, hd⟩ := Outcome.isSome_toOption.1
      (show (Document.ofText emptyDocumentReply.body).toOption.isSome by decide +kernel)
    exact ⟨emptyDocumentReply.body, d, hd, by rw [h]; decide⟩
  · obtain ⟨d, hd⟩ :=
      Outcome.isSome_toOption.1 (show (Document.ofText userBody).toOption.isSome by decide +kernel)
    exact ⟨userBody, d, hd, h⟩

namespace Loader

variable {l : Loader} {n : Network} {url : String} {s s' : Session} {force : Bool}
  {result : Outcome Loaded} (hl : l.source = .remote url)

include hl

/-- A load that does not end with a download leaves the files as they are, or fails to
store a document. -/
theorem run_load_of_not_isDownload (hrun : (l.load n force).run s = (result, s'))
    (hnot : ¬IsDownload result) :
    s'.files = s.files ∨ ∃ cached? reply d failure, l.cache.read s.files = .ok cached? ∧
    n.fetch url = .ok reply ∧ Document.ofText reply.body = .ok d ∧
      (l.cache.store reply.body reply.stamp?).run s.files = (.error failure, s'.files) := by
  rcases of_run_load hl hrun with ⟨hfiles, -⟩ | ⟨cached?, reply, d, stored, hread, hfetch, hd,
    hstore, rfl⟩
  · exact Or.inl hfiles
  · cases stored with
    | ok _ => exact absurd (isDownload_afterDownload.2 ⟨d, rfl⟩) hnot
    | error failure =>
      exact Or.inr ⟨cached?, reply, d, failure, hread, hfetch, (document_eq_ok.1 hd).2, hstore⟩

/-- Where a cache can be read and a document cannot be stored, a forced load that is
served this document fails to. -/
theorem exists_load_of_run_store_error {cached? : Option Cached}
    (hread : l.cache.read s.files = .ok cached?) {body stamp : String} {d : Document}
    (hparse : Document.ofText body = .ok d) {failure : Failure} {t : FileTree}
    (hstore : (l.cache.store body (some stamp)).run s.files = (.error failure, t)) :
    ∃ n result s', (l.load n true).run s = (result, s') ∧ ¬IsDownload result ∧ s'.files = t := by
  -- The document is served, and storing it fails.
  have hdownload : (l.download (.serving (.json body stamp)) url).run s =
      (.error failure, { s.asked (.fetch url) with files := t }) := by
    rw [run_download_of_fetch_ok rfl]
    exact run_accept_of_store_error (document_eq_ok.2 ⟨rfl, hparse⟩) hstore
  -- What is cached only decides what the load falls back on.
  have hload : (l.load (.serving (.json body stamp)) true).run s =
      Prod.map (afterDownload cached?) id
      ((l.download (.serving (.json body stamp)) url).run s) := by
    cases cached? with
    | none => exact run_load_of_read_none hl hread
    | some cached => exact run_load_of_read_some hl hread
  refine ⟨_, _, _, hload.trans (congrArg _ hdownload), ?_, rfl⟩
  rw [isDownload_afterDownload]
  rintro ⟨_, h⟩
  cases h

/-- Loads that do not end with a download keep the document and the stamp, whatever the
network answers, exactly if the cache cannot be read, or storing cannot be torn and,
where it is stuck, making the directory keeps both. Where they are not kept, no more has
happened than that the directory has been made, and perhaps the document replaced by one
that was served. -/
theorem sameFiles_iff (s : Session) :
    ((∀ n force result s', (l.load n force).run s = (result, s') → ¬IsDownload result →
      l.cache.SameFiles s.files s'.files) ↔
        ¬((∃ cached?, l.cache.read s.files = .ok cached?) ∧
          (l.cache.Torn s.files ∨ l.cache.Stuck s.files ∧
            ¬l.cache.SameFiles s.files (l.cache.made s.files)))) ∧
    ∀ n force result s', (l.load n force).run s = (result, s') → ¬IsDownload result →
      s'.files = s.files ∨ l.cache.SameFiles (l.cache.made s.files) s'.files ∨
        ∃ reply d, n.fetch url = .ok reply ∧ Document.ofText reply.body = .ok d ∧
          l.cache.HalfStored reply.body (l.cache.made s.files) s'.files := by
  refine ⟨⟨?_, ?_⟩, ?_⟩
  · rintro hkept ⟨⟨cached?, hread⟩, htorn | ⟨hstuck, hmade⟩⟩
    · -- a document that differs from the cached one is served, with a stamp, so that the
      -- stamp has to be replaced
      obtain ⟨body, d, hparse, hne⟩ := exists_body_ne (s.files.entryAt? l.cache.documentPath)
      obtain ⟨failure, t, hstore, hhalf⟩ := Cache.exists_run_store_of_torn htorn body ""
      obtain ⟨n, result, s', hrun, hnot, rfl⟩ :=
        exists_load_of_run_store_error hl hread hparse hstore
      exact hne ((hkept n true result s' hrun hnot).document.symm.trans hhalf.document)
    · obtain ⟨body, d, hparse, -⟩ := exists_body_ne none
      obtain ⟨failure, t, hstore, hsame⟩ := Cache.exists_run_store_of_stuck hstuck body (some "")
      obtain ⟨n, result, s', hrun, hnot, rfl⟩ :=
        exists_load_of_run_store_error hl hread hparse hstore
      have hkept := hkept n true result s' hrun hnot
      exact hmade ⟨hsame.document.symm.trans hkept.document, hsame.stamp.symm.trans hkept.stamp⟩
  · intro hsafe n force result s' hrun hnot
    rcases run_load_of_not_isDownload hl hrun hnot with hfiles | ⟨cached?, reply, d, _, hread,
      -, -, hstore⟩
    · exact hfiles ▸ .refl _ _
    · rcases Cache.stuck_or_torn_of_run_store_error hstore with ⟨hstuck, hsame⟩ | ⟨htorn, -⟩
      · have hmade : l.cache.SameFiles s.files (l.cache.made s.files) :=
          Classical.byContradiction fun hmade =>
          hsafe ⟨⟨cached?, hread⟩, Or.inr ⟨hstuck, hmade⟩⟩
        exact ⟨hsame.document.trans hmade.document, hsame.stamp.trans hmade.stamp⟩
      · exact absurd ⟨⟨cached?, hread⟩, Or.inl htorn⟩ hsafe
  · intro n force result s' hrun hnot
    rcases run_load_of_not_isDownload hl hrun hnot with hfiles | ⟨_, reply, d, _, -, hfetch,
      hparse, hstore⟩
    · exact Or.inl hfiles
    · rcases Cache.stuck_or_torn_of_run_store_error hstore with ⟨-, hsame⟩ | ⟨-, hhalf⟩
      · exact Or.inr (Or.inl hsame)
      · exact Or.inr (Or.inr ⟨reply, d, hfetch, hparse, hhalf⟩)

end Loader

/-- The files of a local loader with a document and a stamp. -/
def cachedFiles : FileTree :=
  ⟨[(["cache"], .directory), (["cache", "objects_and_components.json"], .file (.text userBody)),
    (["cache", "last_updated"], .file (.text "v1"))]⟩

/-- A refresh that cannot reach the server falls back to the cached document, and keeps
the files. -/
theorem sameFiles_cachedFiles : ∃ result s',
    (localLoader.load .offline true).run ⟨cachedFiles, []⟩ = (result, s') ∧ ¬IsDownload result ∧
      localLoader.cache.SameFiles cachedFiles s'.files := by
  have hopens : cachedFiles.Opens localLoader.cache.directory ["cache"] :=
    ⟨by unfold Path.IsClean; decide, rfl⟩
  have hmade := Cache.made_of_opens (c := localLoader.cache) hopens
  -- The directory of the cache is there and nothing blocks it.
  have hkept := (Loader.sameFiles_iff (l := localLoader) rfl ⟨cachedFiles, []⟩).1.2 (by
    rintro ⟨-, ⟨-, hblocked⟩ | ⟨-, hchanged⟩⟩
    · rw [hmade] at hblocked
      exact absurd hblocked (by decide)
    · exact hchanged (by rw [hmade]; exact .refl _ _))
  have horigin :
      ((localLoader.load .offline true).run ⟨cachedFiles, []⟩).1.toOption.map Loaded.origin =
        some .staleCache := by
    decide +kernel
  rcases hrun : (localLoader.load .offline true).run ⟨cachedFiles, []⟩ with ⟨result, s'⟩
  rw [hrun] at horigin
  have hnot : ¬IsDownload result := by
    rintro ⟨d, rfl⟩
    cases horigin
  exact ⟨result, s', rfl, hnot, hkept .offline true result s' hrun hnot⟩

/-- The cached files, with a directory in the place of the draft of the stamp. -/
def draftDirectoryFiles : FileTree :=
  cachedFiles.set ["cache", "last_updated.tmp"] .directory

/-- A refresh falls back to the cached document there, and yet the file has the document
that was served. -/
theorem not_sameFiles_draftDirectoryFiles : ∃ result s',
    (localLoader.load (.serving (.json emptyDocumentReply.body "v2")) false).run
      ⟨draftDirectoryFiles, []⟩ = (result, s') ∧
    result.toOption.map Loaded.origin = some .staleCache ∧ ¬IsDownload result ∧
    draftDirectoryFiles.entryAt? localLoader.cache.documentPath = some (.file (.text userBody)) ∧
    s'.files.entryAt? localLoader.cache.documentPath =
      some (.file (.text emptyDocumentReply.body)) ∧
    ¬localLoader.cache.SameFiles draftDirectoryFiles s'.files := by
  -- The three readings are computed: before, the answer, and after.
  have hbefore : draftDirectoryFiles.entryAt? localLoader.cache.documentPath =
      some (.file (.text userBody)) := by
    decide +kernel
  have horigin : ((localLoader.load (.serving (.json emptyDocumentReply.body "v2")) false).run
      ⟨draftDirectoryFiles, []⟩).1.toOption.map Loaded.origin = some .staleCache := by
    decide +kernel
  have hafter : ((localLoader.load (.serving (.json emptyDocumentReply.body "v2")) false).run
      ⟨draftDirectoryFiles, []⟩).2.files.entryAt? localLoader.cache.documentPath =
        some (.file (.text emptyDocumentReply.body)) := by
    decide +kernel
  rcases hrun : (localLoader.load (.serving (.json emptyDocumentReply.body "v2")) false).run
    ⟨draftDirectoryFiles, []⟩ with ⟨result, s'⟩
  rw [hrun] at horigin hafter
  refine ⟨result, s', rfl, horigin, ?_, hbefore, hafter, fun hsame => ?_⟩
  · rintro ⟨d, rfl⟩
    cases horigin
  · have hbodies := hafter.symm.trans (hsame.document.trans hbefore)
    exact absurd hbodies (by decide)

end Classwright.Schema
