import Classwright.Proofs.Freshness
import Classwright.Proofs.Retention

/-!
# What a load decides

A load of a local source reads the file and does nothing else (`Loader.ReadsFile`). A
load of a remote source depends on the cached document, on the cached stamp and on what
the server answers: these decide what is asked for, what is given and what is left in
the cache (`Loader.Decides`). Every load does so, whatever is cached, as long as the
files can be written (`Loader.load_decides`).
-/

namespace Classwright.Schema

/-! ## Replies

A reply is usable if its type names JSON, in letters of any case, and its text is a
document.
-/

/-- Whether a type of content has the word `json` in it, in letters of any case. -/
def NamesJson (type : String) : Prop :=
  ∃ before word after, type.toList = before ++ word ++ after ∧
    word.map Char.toLower = ['j', 's', 'o', 'n']

/-- What comes of a request for a document: the reply with the document in it, or why
there is none. -/
def Network.served (n : Network) (url : String) : Outcome (Reply × Document) := do
  let reply ← (n.fetch url).mapError (Failure.fetch url)
  (reply.document url).map (reply, ·)

/-- The search for a part of a text finds it exactly if it is an infix. -/
theorem occursIn_iff {part cs : List Char} : Text.occursIn part cs ↔ part <:+: cs := by
  induction cs with
  | nil => simp [Text.occursIn]
  | cons c rest ih =>
    rw [Text.occursIn, Bool.or_eq_true, List.isPrefixOf_iff_prefix, ih, List.infix_cons_iff]

/-- A part of the values of a function is made of the values on a part. -/
theorem infix_map_iff {α β : Type} {f : α → β} {part : List β} {as : List α} :
    part <:+: as.map f ↔ ∃ before word after, as = before ++ word ++ after ∧ word.map f = part := by
  constructor
  · rintro ⟨before, after, h⟩
    obtain ⟨front, after', rfl, hfront, -⟩ := List.map_eq_append_iff.1 h.symm
    obtain ⟨before', word, rfl, -, hword⟩ := List.map_eq_append_iff.1 hfront
    exact ⟨before', word, after', rfl, hword⟩
  · rintro ⟨before, word, after, rfl, rfl⟩
    exact ⟨before.map f, after.map f, by simp⟩

/-- A reply counts as JSON if it says of what type it is and the type names JSON. -/
theorem isJsonType_iff {contentType? : Option String} :
    isJsonType contentType? ↔ ∃ type, contentType? = some type ∧ NamesJson type := by
  cases contentType? with
  | none => simp [isJsonType]
  | some type =>
    have hlower : (Text.asciiLower type).toList = type.toList.map Char.toLower := by
      simp [Text.asciiLower]
    rw [isJsonType, occursIn_iff, hlower, infix_map_iff]
    simp [NamesJson]

theorem served_of_fetch_error {n : Network} {url : String} {fault : FetchFault}
    (h : n.fetch url = .error fault) : n.served url = .error (.fetch url fault) := by
  rw [Network.served, h]
  rfl

/-- An answered request serves the document of its reply, if that is one. -/
theorem served_of_fetch_ok {n : Network} {url : String} {reply : Reply}
    (h : n.fetch url = .ok reply) :
    n.served url = (reply.document url).map (reply, ·) := by
  rw [Network.served, h]
  rfl

/-- A request is answered by a document if a reply comes that counts as JSON and whose
body is the text of one. -/
theorem served_eq_ok_iff {n : Network} {url : String} {reply : Reply} {d : Document} :
    n.served url = .ok (reply, d) ↔ n.fetch url = .ok reply ∧
      (∃ type, reply.contentType? = some type ∧ NamesJson type) ∧
      Document.ofText reply.body = .ok d := by
  rw [← isJsonType_iff, ← Loader.document_eq_ok]
  -- Only an answered request can serve, and then as its reply does.
  cases hf : n.fetch url with
  | error fault => simp [served_of_fetch_error hf]
  | ok reply' =>
    rw [served_of_fetch_ok hf]
    constructor
    · intro h
      cases hd : reply'.document url with
      | error failure =>
        rw [hd] at h
        cases h
      | ok d' =>
        rw [hd] at h
        cases h
        exact ⟨rfl, hd⟩
    · rintro ⟨hreply, hd⟩
      cases hreply
      rw [hd]
      rfl

/-- Whether a server gives a stamp that differs from the cached one, as that is read
back. -/
def Network.Outdates (n : Network) (url : String) (stamp? : Option String) : Prop :=
  ∃ stamp, n.lookUp url = .ok (some stamp) ∧ stamp?.bind Cache.stampOf ≠ some stamp

/-- The test for a change asks whether the network outdates the stamp as it is read
back. -/
theorem changed_iff_outdates {n : Network} {url : String} {stamp? : Option String} :
    n.changed url (stamp?.bind Cache.stampOf) ↔ n.Outdates url stamp? := by
  rw [Network.changed, Network.Outdates]
  cases n.lookUp url with
  | error fault => simp
  | ok found? => cases found? <;> simp

/-! ## What a cache keeps

A text that is no document counts as if nothing was cached, and then its stamp does not
count either.
-/

namespace Cache

/-- Whether the document and the stamp of a cache are given texts, or are not there. -/
structure Keeps (c : Cache) (t : FileTree) (document? stamp? : Option String) : Prop where
  /-- The file of the document has the text. -/
  document : t.entryAt? c.documentPath = document?.map fun text => .file (.text text)
  /-- The file of the stamp has the text. -/
  stamp : t.entryAt? c.stampPath = stamp?.map fun text => .file (.text text)

/-- The document that a load can fall back on: a text that is none counts as if it was
not there. -/
def usable? (document? : Option String) : Option Document :=
  document?.bind fun text => (Document.ofText text).toOption

variable {c : Cache} {t : FileTree} {document? stamp? : Option String}

/-- The stamp of a cache, with blank ones read as absent. -/
theorem Keeps.stamp?_eq (h : c.Keeps t document? stamp?) :
    c.stamp? t = .ok (stamp?.bind stampOf) := by
  cases stamp? with
  | none => exact stamp?_of_none h.stamp
  | some text => rw [stamp?_of_text h.stamp, Option.bind_some]

/-- What is kept is read: the document if it is usable, and its stamp without blanks
around it. -/
theorem Keeps.read_eq (h : c.Keeps t document? stamp?) :
    c.read t = .ok ((usable? document?).map fun d => ⟨d, stamp?.bind stampOf⟩) := by
  cases document? with
  | none =>
    have habsent : t.has c.documentPath = false := by
      rw [FileTree.has_eq_isSome_entryAt?, h.document]
      rfl
    exact read_of_absent habsent
  | some text =>
    cases hparse : Document.ofText text with
    | error fault =>
      simpa [usable?, hparse, Except.toOption] using read_of_text_error h.document hparse
    | ok d =>
      rw [read_of_text_ok h.document hparse, h.stamp?_eq]
      simp [usable?, hparse, Except.toOption, Except.map]

end Cache

/-! ## Decisions

The outcome of a load by cases, in terms of what is cached and what the network gives,
and not of the steps that find it out.
-/

namespace Loader

/-- Whether a load of a remote source asks for the document, from what is cached. -/
def Fetches (n : Network) (url : String) (force : Bool) (document? stamp? : Option String) : Prop :=
  Cache.usable? document? = none ∨ force = true ∨ n.Outdates url stamp?

/-- What a load of a remote source decides, from what is cached and from what the server
answers. -/
structure Decides (l : Loader) (n : Network) (url : String) (force : Bool)
    (document? stamp? : Option String) (s : Session) (result : Outcome Loaded) (s' : Session) :
    Prop where
  /-- Without a document to fall back on, the document is fetched at once. -/
  anew : Cache.usable? document? = none → s'.requests = s.requests ++ [.fetch url]
  /-- With force, the document is fetched at once. -/
  forced : force = true → s'.requests = s.requests ++ [.fetch url]
  /-- Otherwise the stamp is asked for, and the document is fetched if that has changed. -/
  outdated : (Cache.usable? document?).isSome → force = false → n.Outdates url stamp? →
    s'.requests = s.requests ++ [.lookUp url, .fetch url]
  /-- Otherwise the stamp is asked for, and nothing else if that has not changed. -/
  current : (Cache.usable? document?).isSome → force = false → ¬n.Outdates url stamp? →
    s'.requests = s.requests ++ [.lookUp url]
  /-- Where the document is not fetched, the cached one is given. -/
  cached : ∀ d, Cache.usable? document? = some d → ¬Fetches n url force document? stamp? →
    result = .ok ⟨d, .cache⟩ ∧ s'.files = s.files
  /-- A document that is served is given and left in the cache, with the stamp that it
  was served with. -/
  accepted : Fetches n url force document? stamp? → ∀ reply d, n.served url = .ok (reply, d) →
    result = .ok ⟨d, .download⟩ ∧ l.cache.Stores s'.files reply.body reply.stamp?
  /-- Where none is served, the files stay, and the document to fall back on is given,
  if there is one. -/
  rejected : Fetches n url force document? stamp? → ∀ failure, n.served url = .error failure →
    s'.files = s.files ∧ result = match Cache.usable? document? with
      | some d => .ok ⟨d, .staleCache⟩
      | none => .error (.downloadFailed failure)

/-- What a load of a local source does: it reads the file, and leaves the files and the
requests as they are. -/
structure ReadsFile (path : Path) (s : Session) (result : Outcome Loaded) (s' : Session) :
    Prop where
  /-- No request is made and no file is touched. -/
  session : s' = s
  /-- A file that cannot be read is reported. -/
  unreadable : ∀ fault, s.files.readText path = .error fault → result = .error (.io path fault)
  /-- A text that is no document is reported. -/
  invalid : ∀ text fault, s.files.readText path = .ok text → Document.ofText text = .error fault →
    result = .error (.schemaInvalid path.text fault)
  /-- A document is given. -/
  valid : ∀ text d, s.files.readText path = .ok text → Document.ofText text = .ok d →
    result = .ok ⟨d, .file⟩

variable {l : Loader} {n : Network} {url : String} {s : Session}

/-! ## Local sources

A file is read anew with every load, and nothing is cached of it.
-/

/-- Loading from a file is loading its document, whatever is cached and forced. -/
theorem run_load_file {path : Path} {result : Outcome Document} (hl : l.source = .file path)
    (h : (Document.load path).run s.files = (result, s.files)) (force : Bool) :
    (l.load n force).run s = (result.map (⟨·, .file⟩), s) := by
  rw [load, hl]
  cases result with
  | error failure => exact SessionAction.run_bind_error (SessionAction.run_onFiles h)
  | ok d => exact SessionAction.run_bind_ok (SessionAction.run_onFiles h)

/-- A load of a local source reads the file and does nothing else. -/
theorem readsFile_of_run_load {path : Path} {force : Bool} {result : Outcome Loaded} {s' : Session}
    (hl : l.source = .file path) (hrun : (l.load n force).run s = (result, s')) :
    ReadsFile path s result s' := by
  -- Either the file cannot be read, or its text decides.
  cases htext : s.files.readText path with
  | error fault =>
    have hload : (Document.load path).run s.files = (.error (.io path fault), s.files) :=
      FileAction.run_bind_error (FileAction.run_readText_of_error htext)
    obtain ⟨rfl, rfl⟩ := Prod.mk.inj (hrun.symm.trans (run_load_file hl hload force))
    refine ⟨rfl, fun _ h => ?_, fun _ _ h => ?_, fun _ _ h => ?_⟩ <;> cases htext.symm.trans h
    rfl
  | ok text =>
    have hload : (Document.load path).run s.files = (Document.ofSource text path.text, s.files) :=
      FileAction.run_bind_ok (FileAction.run_readText_of_ok htext)
    obtain ⟨rfl, rfl⟩ := Prod.mk.inj (hrun.symm.trans (run_load_file hl hload force))
    refine ⟨rfl, fun _ h => ?_, fun _ _ h hparse => ?_, fun _ _ h hparse => ?_⟩ <;>
      cases htext.symm.trans h
    · rw [Document.ofSource, hparse]
      rfl
    · rw [Document.ofSource, hparse]
      rfl

/-! ## Downloads

A download gives the document that is served and stores it, or fails without storing.
-/

/-- A download of what is not served fails after one request and leaves the files. -/
theorem run_download_of_served_error {failure : Failure} (h : n.served url = .error failure) :
    (l.download n url).run s = (.error failure, s.asked (.fetch url)) := by
  -- Serving fails before the reply or at its document; neither writes.
  cases hf : n.fetch url with
  | error fault =>
    cases (served_of_fetch_error hf).symm.trans h
    exact run_download_of_fetch_error hf
  | ok reply =>
    rw [served_of_fetch_ok hf] at h
    cases hd : reply.document url with
    | error failure' =>
      rw [hd] at h
      cases h
      rw [run_download_of_fetch_ok hf, run_accept_of_document_error hd]
    | ok d =>
      rw [hd] at h
      cases h

/-- A download of what is served stores it after one request. -/
theorem run_download_of_served_ok {reply : Reply} {d : Document} {t : FileTree}
    (h : n.served url = .ok (reply, d))
    (hstore : (l.cache.store reply.body reply.stamp?).run s.files = (.ok (), t)) :
    (l.download n url).run s = (.ok d, { s.asked (.fetch url) with files := t }) := by
  obtain ⟨hfetch, hjson, hparse⟩ := served_eq_ok_iff.1 h
  rw [run_download_of_fetch_ok hfetch]
  exact run_accept_of_store_ok (document_eq_ok.2 ⟨isJsonType_iff.2 hjson, hparse⟩) hstore

/-- What comes of a load that ends with a download, by what the server answers. -/
theorem of_run_download {cached? : Option Cached} {s₁ s' : Session} {result : Outcome Loaded}
    (hstore : ∀ reply d, n.served url = .ok (reply, d) →
      ∃ t, (l.cache.store reply.body reply.stamp?).run s₁.files = (.ok (), t))
    (hrun : (result, s') = Prod.map (afterDownload cached?) id ((l.download n url).run s₁)) :
    s'.requests = s₁.requests ++ [Request.fetch url] ∧
    (∀ reply d, n.served url = .ok (reply, d) →
      result = .ok ⟨d, .download⟩ ∧ l.cache.Stores s'.files reply.body reply.stamp?) ∧
    ∀ failure, n.served url = .error failure →
      s'.files = s₁.files ∧ result = afterDownload cached? (.error failure) := by
  -- Whether the document is served decides all three.
  cases hserved : n.served url with
  | error failure =>
    rw [run_download_of_served_error hserved] at hrun
    obtain ⟨rfl, rfl⟩ := Prod.mk.inj hrun
    refine ⟨rfl, fun _ _ h => ?_, fun _ h => ?_⟩
    · cases h
    · cases h
      exact ⟨rfl, rfl⟩
  | ok answer =>
    obtain ⟨reply, d⟩ := answer
    obtain ⟨t, ht⟩ := hstore reply d hserved
    rw [run_download_of_served_ok hserved ht] at hrun
    obtain ⟨rfl, rfl⟩ := Prod.mk.inj hrun
    refine ⟨rfl, fun _ _ h => ?_, fun _ h => ?_⟩
    · cases h
      exact ⟨rfl, Cache.stores_of_run_store_ok ht⟩
    · cases h

/-! ## Remote sources

Three situations are taken one by one: nothing usable is cached, what is cached is
outdated or not wanted, or it is given as it is.
-/

section remote

variable {force : Bool} {document? stamp? : Option String} {result : Outcome Loaded} {s' : Session}
  (hl : l.source = .remote url) (hkeeps : l.cache.Keeps s.files document? stamp?)
  (hrun : (l.load n force).run s = (result, s'))

include hl hkeeps hrun

/-- Without a usable cache the document is downloaded. -/
theorem run_load_of_not_usable (h : Cache.usable? document? = none) :
    (result, s') = Prod.map (afterDownload none) id ((l.download n url).run s) := by
  have hread := hkeeps.read_eq
  rw [h] at hread
  exact hrun.symm.trans (run_load_of_read_none hl hread)

/-- A cache that is out of date, or not to be used, is replaced by a download. -/
theorem run_load_of_wanted {d : Document} (h : Cache.usable? document? = some d)
    (hwanted : force = true ∨ n.Outdates url stamp?) :
    (result, s') = Prod.map (afterDownload (some ⟨d, stamp?.bind Cache.stampOf⟩)) id
      ((l.download n url).run (s.consulted url force)) := by
  have hread := hkeeps.read_eq
  rw [h] at hread
  rw [← hrun, run_load_of_read_some hl hread, if_pos]
  rwa [Bool.or_eq_true, changed_iff_outdates]

/-- A cache that is up to date is the result, and nothing is downloaded. -/
theorem run_load_of_not_wanted {d : Document} (h : Cache.usable? document? = some d)
    (hwanted : ¬(force = true ∨ n.Outdates url stamp?)) :
    (result, s') = (.ok ⟨d, .cache⟩, s.consulted url force) := by
  have hread := hkeeps.read_eq
  rw [h] at hread
  rw [← hrun, run_load_of_read_some hl hread, if_neg]
  rwa [Bool.or_eq_true, changed_iff_outdates]

/-- Without a usable cache the document is fetched, and nothing is asked before. -/
theorem decides_of_not_usable
    (hstore : ∀ reply d, n.served url = .ok (reply, d) →
      ∃ t, (l.cache.store reply.body reply.stamp?).run s.files = (.ok (), t))
    (husable : Cache.usable? document? = none) :
    l.Decides n url force document? stamp? s result s' := by
  obtain ⟨hrequests, haccepted, hrejected⟩ :=
    of_run_download hstore (run_load_of_not_usable hl hkeeps hrun husable)
  refine ⟨fun _ => hrequests, fun _ => hrequests, ?_, ?_, ?_, fun _ => haccepted, fun _ => ?_⟩
  · simp [husable]
  · simp [husable]
  · simp [husable]
  · rw [husable]
    exact hrejected

/-- An outdated cache, and any cache that is not to be used, is fetched anew. The stamp
is asked for first, unless the load is forced. -/
theorem decides_of_wanted {d : Document}
    (hstore : ∀ reply d, n.served url = .ok (reply, d) →
      ∃ t, (l.cache.store reply.body reply.stamp?).run s.files = (.ok (), t))
    (husable : Cache.usable? document? = some d)
    (hwanted : force = true ∨ n.Outdates url stamp?) :
    l.Decides n url force document? stamp? s result s' := by
  obtain ⟨hrequests, haccepted, hrejected⟩ := of_run_download
    (by rwa [Session.files_consulted]) (run_load_of_wanted hl hkeeps hrun husable hwanted)
  rw [Session.files_consulted] at hrejected
  refine ⟨?_, ?_, ?_, ?_, fun _ _ hnot => absurd (Or.inr hwanted) hnot, fun _ => haccepted,
    fun _ => ?_⟩
  · simp [husable]
  · rintro rfl
    exact hrequests
  · rintro - rfl -
    simpa [Session.consulted, Session.asked] using hrequests
  · rintro - rfl hcurrent
    exact absurd hwanted (by simpa using hcurrent)
  · rw [husable]
    exact hrejected

/-- Otherwise the cache answers: nothing forces a download and nothing has changed. -/
theorem decides_of_not_wanted {d : Document} (husable : Cache.usable? document? = some d)
    (hwanted : ¬(force = true ∨ n.Outdates url stamp?)) :
    l.Decides n url force document? stamp? s result s' := by
  obtain ⟨rfl, rfl⟩ := Prod.mk.inj (run_load_of_not_wanted hl hkeeps hrun husable hwanted)
  obtain ⟨hforce, hcurrent⟩ := not_or.1 hwanted
  have hfetches : ¬Fetches n url force document? stamp? := by
    simp [Fetches, husable, hforce, hcurrent]
  refine ⟨?_, fun h => absurd h hforce, fun _ _ h => absurd h hcurrent, ?_, ?_,
    fun h => absurd h hfetches, fun h => absurd h hfetches⟩
  · simp [husable]
  · rintro - rfl -
    rfl
  · intro d' hd' _
    cases husable.symm.trans hd'
    exact ⟨rfl, s.files_consulted url force⟩

/-- A load of a remote source decides by what is cached and what the server answers. -/
theorem decides_of_run_load
    (hstore : ∀ reply d, n.served url = .ok (reply, d) →
      ∃ t, (l.cache.store reply.body reply.stamp?).run s.files = (.ok (), t)) :
    l.Decides n url force document? stamp? s result s' := by
  cases husable : Cache.usable? document? with
  | none => exact decides_of_not_usable hl hkeeps hrun hstore husable
  | some d =>
    by_cases hwanted : force = true ∨ n.Outdates url stamp?
    · exact decides_of_wanted hl hkeeps hrun hstore husable hwanted
    · exact decides_of_not_wanted hl hkeeps hrun husable hwanted

end remote

/-- What a load does with every source, whatever is cached, forced and answered, as long
as the files can be written: a local source is read, and for a remote one what is cached
and what the server answers decide. A request is answered by a document exactly if a
reply comes whose type names JSON and whose body is the text of a document. -/
theorem load_decides (l : Loader) (n : Network) (force : Bool) (s : Session)
    (document? stamp? : Option String) :
    (∀ path, l.source = .file path →
      ∃ result s', (l.load n force).run s = (result, s') ∧ ReadsFile path s result s') ∧
    ∀ url, l.source = .remote url →
      (∀ reply d, n.served url = .ok (reply, d) ↔
        n.fetch url = .ok reply ∧ (∃ type, reply.contentType? = some type ∧ NamesJson type) ∧
          Document.ofText reply.body = .ok d) ∧
      (l.cache.Keeps s.files document? stamp? →
        (∀ reply d, n.served url = .ok (reply, d) →
          ∃ t, (l.cache.store reply.body reply.stamp?).run s.files = (.ok (), t)) →
          ∃ result s', (l.load n force).run s = (result, s') ∧
            l.Decides n url force document? stamp? s result s') := by
  refine ⟨fun path hl => ⟨_, _, rfl, readsFile_of_run_load hl rfl⟩,
    fun url hl => ⟨fun _ _ => served_eq_ok_iff, ?_⟩⟩
  exact fun hkeeps hstore => ⟨_, _, rfl, decides_of_run_load hl hkeeps rfl hstore⟩

end Loader

/-- A document without objects, as it is served without a stamp. -/
def unstampedReply : Reply :=
  { emptyDocumentReply with stamp? := none }

/-- The network that names a stamp and then serves a document without one. -/
def unstampedNetwork : Network where
  lookUp _ := .ok (some "v2")
  fetch _ := .ok unstampedReply

/-- A document whose stamp has changed is fetched again. It takes the place of the
cached one, and the cached stamp is removed if it is served without one. -/
theorem load_decides_unstamped : ∃ d s',
    (localLoader.load unstampedNetwork false).run ⟨cachedFiles, []⟩ = (.ok ⟨d, .download⟩, s') ∧
    s'.requests = [.lookUp defaultUrl, .fetch defaultUrl] ∧
    s'.files.entryAt? localLoader.cache.documentPath = some (.file (.text unstampedReply.body)) ∧
    s'.files.entryAt? localLoader.cache.stampPath = none := by
  obtain ⟨d, hparse⟩ := Outcome.isSome_toOption.1
    (show (Document.ofText unstampedReply.body).toOption.isSome by decide +kernel)
  have husable : (Cache.usable? (some userBody)).isSome := by decide +kernel
  have hkeeps : localLoader.cache.Keeps cachedFiles (some userBody) (some "v1") :=
    ⟨by decide +kernel, by decide +kernel⟩
  have houtdates : unstampedNetwork.Outdates defaultUrl (some "v1") :=
    ⟨"v2", rfl, by decide +kernel⟩
  obtain ⟨t, hstore⟩ : ∃ t, (localLoader.cache.store unstampedReply.body unstampedReply.stamp?).run
    cachedFiles = (.ok (), t) := ⟨_, rfl⟩
  -- The general theorem gives the load, once the cache and the replies are known.
  obtain ⟨hserved, hdecides⟩ := (Loader.load_decides localLoader unstampedNetwork false
    ⟨cachedFiles, []⟩ (some userBody) (some "v1")).2 defaultUrl rfl
  have hwritable : ∀ reply d, unstampedNetwork.served defaultUrl = .ok (reply, d) →
      ∃ t, (localLoader.cache.store reply.body reply.stamp?).run cachedFiles = (.ok (), t) := by
    intro reply d hreply
    have hfetch : unstampedReply = reply := Except.ok.inj ((hserved _ _).1 hreply).1
    exact hfetch ▸ ⟨t, hstore⟩
  obtain ⟨result, s', hrun, h⟩ := hdecides hkeeps hwritable
  have hjson : NamesJson "application/json" :=
    ⟨"application/".toList, "json".toList, [], by decide +kernel, by decide +kernel⟩
  obtain ⟨rfl, hstores⟩ :=
    h.accepted (Or.inr (Or.inr houtdates)) _ d ((hserved _ d).2 ⟨rfl, ⟨_, rfl, hjson⟩, hparse⟩)
  exact ⟨d, s', hrun, h.outdated husable rfl houtdates, hstores.document, hstores.stamp⟩

end Classwright.Schema
