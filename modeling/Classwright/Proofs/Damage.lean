import Classwright.Proofs.Availability

/-!
# Damaged documents

A cached document can be damaged: the file is there, and its bytes are not the text of a
document. Damage that is text counts as no document (`Cache.read_damaged_text`), and
bytes that are no text cannot be read at all (`Cache.read_damaged_bytes`). So where a
document is served and can be stored, it replaces a damaged one that is text, and one
that is no text makes every load fail (`Loader.run_load_of_damaged`).

A document that is missing and one whose text is damaged are the same to a load. Bytes
that are no text are found before anything is asked, so no load replaces them, whether
it is forced or not.
-/

namespace Classwright.Schema

/-- Whether bytes are the text of a document. -/
def IsDocument (bytes : List UInt8) : Prop :=
  ∃ text d, String.fromUTF8? bytes.toByteArray = some text ∧ Document.ofText text = .ok d

namespace Cache

variable {c : Cache} {t : FileTree} {bytes : List UInt8}
  (hfile : t.entryAt? c.documentPath = some (.file (.ofBytes bytes)))

include hfile

/-- Damage that is text counts as no document. -/
theorem read_damaged_text {text : String} (hdamaged : ¬IsDocument bytes)
    (htext : String.fromUTF8? bytes.toByteArray = some text) : c.read t = .ok none := by
  rw [Contents.ofBytes, htext] at hfile
  cases hparse : Document.ofText text with
  | error fault => exact read_of_text_error hfile hparse
  | ok d => exact absurd ⟨text, d, htext, hparse⟩ hdamaged

/-- Bytes that are no text cannot be read. -/
theorem read_damaged_bytes (htext : String.fromUTF8? bytes.toByteArray = none) :
    c.read t = .error (.io c.documentPath .notText) := by
  rw [Contents.ofBytes, htext] at hfile
  exact read_of_readText_error (FileTree.has_of_entryAt? hfile)
    (FileTree.readText_of_entryAt? hfile)

end Cache

namespace Loader

variable {l : Loader} {n : Network} {url : String} {reply : Reply} {d : Document}

variable (hl : l.source = .remote url) (hfetch : n.fetch url = .ok reply)
  (hjson : isJsonType reply.contentType? = true) (hparse : Document.ofText reply.body = .ok d)

include hl hfetch hjson hparse

/-- Where nothing is cached, the document that is served is stored and given. -/
theorem run_load_of_served (force : Bool) {s : Session} {t : FileTree}
    (hstore : (l.cache.store reply.body reply.stamp?).run s.files = (.ok (), t))
    (hread : l.cache.read s.files = .ok none) :
    (l.load n force).run s = (.ok ⟨d, .download⟩, { s.asked (.fetch url) with files := t }) := by
  have hdownload : (l.download n url).run s =
      (.ok d, { s.asked (.fetch url) with files := t }) := by
    rw [run_download_of_fetch_ok hfetch]
    exact run_accept_of_store_ok (document_eq_ok.2 ⟨hjson, hparse⟩) hstore
  rw [run_load_of_read_none hl hread, hdownload]
  rfl

/-- Where a document is served and can be stored, a load over damage that is text gives
it, like a load without a cached document. Over damage that is no text a load fails and
asks for nothing. -/
theorem run_load_of_damaged (force : Bool) {s : Session} {t : FileTree} {bytes : List UInt8}
    (hstore : (l.cache.store reply.body reply.stamp?).run s.files = (.ok (), t))
    (hfile : s.files.entryAt? l.cache.documentPath = some (.file (.ofBytes bytes)))
    (hdamaged : ¬IsDocument bytes) : (∀ text, String.fromUTF8? bytes.toByteArray = some text →
      (l.load n force).run s = (.ok ⟨d, .download⟩, { s.asked (.fetch url) with files := t })) ∧
    (String.fromUTF8? bytes.toByteArray = none →
      (l.load n force).run s = (.error (.io l.cache.documentPath .notText), s)) ∧
    ∀ s₀ t₀, s₀.files.has l.cache.documentPath = false →
      (l.cache.store reply.body reply.stamp?).run s₀.files = (.ok (), t₀) →
      (l.load n force).run s₀ =
      (.ok ⟨d, .download⟩, { s₀.asked (.fetch url) with files := t₀ }) := by
  -- Damaged text counts as no document; bytes that are no text make the reading fail.
  refine ⟨fun text htext => ?_, fun htext => ?_, fun s₀ t₀ habsent hstore₀ => ?_⟩
  · exact run_load_of_served hl hfetch hjson hparse force hstore
      (Cache.read_damaged_text hfile hdamaged htext)
  · exact run_load_of_read_error hl (Cache.read_damaged_bytes hfile htext)
  · exact run_load_of_served hl hfetch hjson hparse force hstore₀ (Cache.read_of_absent habsent)

end Loader

/-- The files of a local loader whose document has the given bytes. -/
def damagedFiles (bytes : List UInt8) : FileTree :=
  ⟨[(["cache"], .directory), (["cache", "objects_and_components.json"], .file (.ofBytes bytes))]⟩

/-- A document without objects, as it is served. -/
def emptyDocumentReply : Reply :=
  .json "\x7b\"objects\":\x7b\x7d,\"components\":\x7b\x7d\x7d" "v1"

/-- A document of which nothing but the first byte is left is downloaded again. -/
theorem load_over_openingBrace : ∃ d t,
    (localLoader.load (.serving emptyDocumentReply) false).run ⟨damagedFiles [0x7b], []⟩ =
      (.ok ⟨d, .download⟩, ⟨t, [.fetch defaultUrl]⟩) := by
  have htext : String.fromUTF8? [0x7b].toByteArray = some "\x7b" := by decide +kernel
  have hdamaged : ¬IsDocument [0x7b] := by
    rintro ⟨text, d, h, hparse⟩
    obtain rfl := Option.some.inj (htext.symm.trans h)
    have hnone : (Document.ofText "\x7b").toOption.isNone := by decide +kernel
    rw [hparse] at hnone
    cases hnone
  -- Both the served document and the storing of it are computed.
  obtain ⟨d, hparse⟩ := Outcome.isSome_toOption.1
    (show (Document.ofText emptyDocumentReply.body).toOption.isSome by decide +kernel)
  obtain ⟨t, hstore⟩ : ∃ t, (localLoader.cache.store emptyDocumentReply.body
      emptyDocumentReply.stamp?).run (damagedFiles [0x7b]) = (.ok (), t) := ⟨_, rfl⟩
  have hfile : (damagedFiles [0x7b]).entryAt? localLoader.cache.documentPath =
    some (.file (.ofBytes [0x7b])) := rfl
  exact ⟨d, t, (Loader.run_load_of_damaged (n := .serving emptyDocumentReply) rfl rfl (by decide)
    hparse false (s := ⟨damagedFiles [0x7b], []⟩) hstore hfile hdamaged).1 _ htext⟩

/-- Bytes that are no text block the download: the load fails, although the document is
served and can be stored. -/
theorem not_load_over_invalidByte : ¬IsDocument [0xff, 0x00] ∧
    (damagedFiles [0xff, 0x00]).entryAt? localLoader.cache.documentPath =
      some (.file (.ofBytes [0xff, 0x00])) ∧
    isJsonType emptyDocumentReply.contentType? = true ∧
    (∃ d, Document.ofText emptyDocumentReply.body = .ok d) ∧
    (∃ t, (localLoader.cache.store emptyDocumentReply.body emptyDocumentReply.stamp?).run
      (damagedFiles [0xff, 0x00]) = (.ok (), t)) ∧
    ∀ force,
      (localLoader.load (.serving emptyDocumentReply) force).run ⟨damagedFiles [0xff, 0x00], []⟩ =
      (.error (.io localLoader.cache.documentPath .notText), ⟨damagedFiles [0xff, 0x00], []⟩) := by
  have htext : String.fromUTF8? [0xff, 0x00].toByteArray = none := by decide +kernel
  refine ⟨?_, rfl, by decide, Outcome.isSome_toOption.1 (by decide +kernel), ⟨_, rfl⟩,
    fun force => ?_⟩
  · rintro ⟨text, d, h, -⟩
    rw [htext] at h
    cases h
  · exact Loader.run_load_of_read_error rfl (Cache.read_damaged_bytes rfl htext)

end Classwright.Schema
