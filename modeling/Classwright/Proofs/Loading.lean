import Classwright.Proofs.Replacement
import Classwright.Schema.Loader

/-!
# What a load does

A load of a remote source starts with the cache. If that cannot be read, the load fails
and does nothing. If a document is cached, it is given, unless the load is forced or the
stamp has changed (`Loader.run_load_of_read_some`); in these cases, and where nothing is
cached (`Loader.run_load_of_read_none`), the document is downloaded, and what then comes
of the load depends on the download only (`afterDownload`). So a load leaves the files
as they are, or ends with what comes of storing a document that was served
(`Loader.of_run_load`).
-/

namespace Classwright.Schema

/-! ## Running actions

An action on a session is run step by step. What it asks for is recorded, and what it
does to files goes through the file actions.
-/

namespace SessionAction

variable {α β : Type} {a : SessionAction α} {f : α → SessionAction β} {s s' : Session}

theorem run_bind_ok {x : α} (h : a.run s = (.ok x, s')) : (a >>= f).run s = (f x).run s' :=
  Outcome.bind_of_ok h

/-- An action that fails ends the sequence. -/
theorem run_bind_error {failure : Failure} (h : a.run s = (.error failure, s')) :
    (a >>= f).run s = (.error failure, s') :=
  Outcome.bind_of_error h

/-- Changing the result does not change what is left behind. -/
theorem run_bind_pure_snd {g : α → β} : ((a >>= fun x => pure (g x)).run s).2 = (a.run s).2 := by
  rcases h : a.run s with ⟨result, s'⟩
  cases result with
  | error failure => rw [run_bind_error h]
  | ok x =>
    rw [run_bind_ok h]
    rfl

theorem run_onFiles {b : FileAction α} {result : Outcome α} {files : FileTree}
    (h : b.run s.files = (result, files)) :
    (onFiles b).run s = (result, { s with files := files }) := by
  simp [run, onFiles, h]

theorem run_look {op : FileTree → Outcome α} {result : Outcome α} (h : op s.files = result) :
    (onFiles (FileAction.look op)).run s = (result, s) :=
  run_onFiles (congrArg (·, s.files) h)

theorem run_attempt {result : Outcome α} (h : a.run s = (result, s')) :
    a.attempt.run s = (.ok result, s') := by
  simp [run, attempt, show a s = (result, s') from h]

end SessionAction

/-- The session after a request. -/
def Session.asked (s : Session) (request : Request) : Session :=
  { s with requests := s.requests ++ [request] }

/-- The session when it is settled whether to download: unless that is forced, the stamp
has been asked for. -/
def Session.consulted (s : Session) (url : String) (force : Bool) : Session :=
  if force then s else s.asked (.lookUp url)

theorem Session.files_consulted (s : Session) (url : String) (force : Bool) :
    (s.consulted url force).files = s.files := by
  cases force <;> rfl

/-- Whether the stamp that the network gives differs from the cached one. -/
def Network.changed (n : Network) (url : String) (cached? : Option String) : Bool :=
  match n.lookUp url with
  | .ok (some stamp) => cached? != some stamp
  | .ok none => false
  | .error _ => false

/-- A reply with JSON and a stamp. -/
def Reply.json (body stamp : String) : Reply :=
  ⟨body, some stamp, some "application/json"⟩

/-- The network that serves one reply everywhere. -/
def Network.serving (reply : Reply) : Network where
  lookUp _ := .ok reply.stamp?
  fetch _ := .ok reply

/-- What comes of a load that ends with a download. Where a document is cached, it takes
the place of one that cannot be had. -/
def afterDownload (cached? : Option Cached) : Outcome Document → Outcome Loaded
  | .ok document => .ok ⟨document, .download⟩
  | .error failure =>
    match cached? with
    | some cached => .ok ⟨cached.document, .staleCache⟩
    | none => .error (.downloadFailed failure)

/-- Whether a load has downloaded the document that it gives. -/
def IsDownload (result : Outcome Loaded) : Prop :=
  ∃ document, result = .ok ⟨document, .download⟩

/-- A load ends with a download exactly if the download succeeds. -/
theorem afterDownload_eq_download {cached? : Option Cached} {result : Outcome Document}
    {d : Document} :
    afterDownload cached? result = .ok ⟨d, .download⟩ ↔ result = .ok d := by
  cases result with
  | ok document => simp [afterDownload]
  | error failure => cases cached? <;> simp [afterDownload]

theorem isDownload_afterDownload {cached? : Option Cached} {result : Outcome Document} :
    IsDownload (afterDownload cached? result) ↔ ∃ document, result = .ok document :=
  exists_congr fun _ => afterDownload_eq_download

namespace Loader

variable {l : Loader} {n : Network} {url : String} {s : Session} {reply : Reply} {failure : Failure}

/-! ## Downloading

A download fails at the request, at the document or at storing it, and otherwise leaves
what storing leaves.
-/

theorem ofSource_eq_ok {text origin : String} {d : Document} :
    Document.ofSource text origin = .ok d ↔ Document.ofText text = .ok d :=
  Outcome.mapError_eq_ok

/-- A reply has a document if it claims to be JSON and its body is the text of one. -/
theorem document_eq_ok {d : Document} :
    reply.document url = .ok d ↔ isJsonType reply.contentType? = true ∧
    Document.ofText reply.body = .ok d := by
  unfold Reply.document
  split
  · next hjson => rw [ofSource_eq_ok, and_iff_right hjson]
  · next hjson => exact iff_of_false (by simp) fun h => hjson h.1

/-- A download that is not answered fails after one request. -/
theorem run_download_of_fetch_error {fault : FetchFault} (h : n.fetch url = .error fault) :
    (l.download n url).run s = (.error (.fetch url fault), s.asked (.fetch url)) := by
  have hask : (SessionAction.ask (.fetch url) ((n.fetch url).mapError (Failure.fetch url))).run s =
      (.error (.fetch url fault), s.asked (.fetch url)) := by
    rw [h]
    rfl
  exact SessionAction.run_bind_error hask

/-- A download that is answered goes on with the reply. -/
theorem run_download_of_fetch_ok (h : n.fetch url = .ok reply) :
    (l.download n url).run s = (l.accept url reply).run (s.asked (.fetch url)) := by
  have hask : (SessionAction.ask (.fetch url) ((n.fetch url).mapError (Failure.fetch url))).run s =
      (.ok reply, s.asked (.fetch url)) := by
    rw [h]
    rfl
  exact SessionAction.run_bind_ok hask

theorem run_accept_of_document_error (h : reply.document url = .error failure) :
    (l.accept url reply).run s = (.error failure, s) :=
  SessionAction.run_bind_error (SessionAction.run_look h)

/-- A document that cannot be stored is not loaded either. -/
theorem run_accept_of_store_error {d : Document} {t : FileTree} (h : reply.document url = .ok d)
    (hstore : (l.cache.store reply.body reply.stamp?).run s.files = (.error failure, t)) :
    (l.accept url reply).run s = (.error failure, { s with files := t }) :=
  (SessionAction.run_bind_ok (SessionAction.run_look h)).trans
    (SessionAction.run_bind_error (SessionAction.run_onFiles hstore))

/-- A document that is stored is loaded. -/
theorem run_accept_of_store_ok {d : Document} {t : FileTree} (h : reply.document url = .ok d)
    (hstore : (l.cache.store reply.body reply.stamp?).run s.files = (.ok (), t)) :
    (l.accept url reply).run s = (.ok d, { s with files := t }) :=
  (SessionAction.run_bind_ok (SessionAction.run_look h)).trans
    (SessionAction.run_bind_ok (SessionAction.run_onFiles hstore))

/-- A download ends before the cache is touched, or with what comes of storing the
document of the reply. -/
theorem run_download_cases (l : Loader) (n : Network) (url : String) (s : Session) :
    (∃ failure, (l.download n url).run s = (.error failure, s.asked (.fetch url))) ∨
    ∃ reply d result t, n.fetch url = .ok reply ∧ reply.document url = .ok d ∧
      (l.cache.store reply.body reply.stamp?).run s.files = (result, t) ∧
      (l.download n url).run s = (result.map fun _ => d,
        { s.asked (.fetch url) with files := t }) := by
  cases hf : n.fetch url with
  | error fault => exact Or.inl ⟨_, run_download_of_fetch_error hf⟩
  | ok reply =>
    rw [run_download_of_fetch_ok hf]
    cases hd : reply.document url with
    | error failure => exact Or.inl ⟨failure, run_accept_of_document_error hd⟩
    | ok d =>
      -- With a document, the outcome is that of storing it.
      rcases hstore : (l.cache.store reply.body reply.stamp?).run s.files with ⟨result, t⟩
      refine Or.inr ⟨reply, d, result, t, rfl, hd, hstore, ?_⟩
      cases result with
      | error failure => exact run_accept_of_store_error hd hstore
      | ok _ => exact run_accept_of_store_ok hd hstore

theorem requests_run_download (l : Loader) (n : Network) (url : String) (s : Session) :
    ((l.download n url).run s).2.requests = s.requests ++ [Request.fetch url] := by
  rcases run_download_cases l n url s with ⟨_, hrun⟩ | ⟨_, _, _, _, -, -, -, hrun⟩ <;>
    rw [hrun] <;> rfl

/-! ## Loading

The cache is read first, and what is in it decides whether a download is tried and what
the load falls back on.
-/

variable {force : Bool} {cached : Cached} (hl : l.source = .remote url)

include hl

theorem run_isStale (cached? : Option String) :
    (l.isStale n cached?).run s = (.ok (n.changed url cached?), s.asked (.lookUp url)) := by
  rw [isStale, hl]
  rfl

/-- A load fails where the cache cannot be read. -/
theorem run_load_of_read_error (h : l.cache.read s.files = .error failure) :
    (l.load n force).run s = (.error failure, s) := by
  rw [load, hl]
  exact SessionAction.run_bind_error (SessionAction.run_look h)

/-- Where nothing is cached, the document is downloaded. -/
theorem run_load_of_read_none (h : l.cache.read s.files = .ok none) :
    (l.load n force).run s = Prod.map (afterDownload none) id ((l.download n url).run s) := by
  rw [load, hl]
  refine (SessionAction.run_bind_ok (SessionAction.run_look h)).trans ?_
  rcases hd : (l.download n url).run s with ⟨result, s'⟩
  refine (SessionAction.run_bind_ok (SessionAction.run_attempt hd)).trans ?_
  cases result <;> rfl

/-- A load over a cached document downloads if forced or if the document has changed. -/
theorem run_loadOver : (l.loadOver n url force cached).run s =
    if force || n.changed url cached.stamp? then
      Prod.map (afterDownload (some cached)) id ((l.download n url).run (s.consulted url force))
    else (.ok ⟨cached.document, .cache⟩, s.consulted url force) := by
  unfold loadOver
  extract_lets proceed
  -- Going on means downloading and falling back to the cache if there is no document.
  have hproceed : ∀ s₁, (proceed true).run s₁ =
      Prod.map (afterDownload (some cached)) id ((l.download n url).run s₁) := by
    intro s₁
    rcases hd : (l.download n url).run s₁ with ⟨result, s'⟩
    refine (SessionAction.run_bind_ok (SessionAction.run_attempt hd)).trans ?_
    cases result <;> rfl
  cases force with
  | true => exact hproceed s
  | false =>
    refine (SessionAction.run_bind_ok (run_isStale hl cached.stamp?)).trans ?_
    cases n.changed url cached.stamp? with
    | true => exact hproceed _
    | false => rfl

/-- Where a document is cached, it is downloaded again if that is asked for or its stamp
has changed. -/
theorem run_load_of_read_some (h : l.cache.read s.files = .ok (some cached)) :
    (l.load n force).run s =
    if force || n.changed url cached.stamp? then
      Prod.map (afterDownload (some cached)) id ((l.download n url).run (s.consulted url force))
    else (.ok ⟨cached.document, .cache⟩, s.consulted url force) := by
  rw [load, hl, ← run_loadOver hl]
  exact SessionAction.run_bind_ok (SessionAction.run_look h)

/-- A load leaves the files as they are and gives no document that was downloaded, or it
ends with a download. -/
theorem run_load_cases (n : Network) (force : Bool) (s : Session) :
    (∃ result s', (l.load n force).run s = (result, s') ∧ s'.files = s.files ∧ ¬IsDownload result) ∨
    ∃ cached? s₁, l.cache.read s.files = .ok cached? ∧ s₁.files = s.files ∧
      (l.load n force).run s = Prod.map (afterDownload cached?) id ((l.download n url).run s₁) := by
  cases hr : l.cache.read s.files with
  | error failure => exact Or.inl ⟨_, s, run_load_of_read_error hl hr, rfl, by simp [IsDownload]⟩
  | ok cached? =>
    cases cached? with
    | none => exact Or.inr ⟨none, s, rfl, rfl, run_load_of_read_none hl hr⟩
    | some cached =>
      rw [run_load_of_read_some hl hr]
      split
      · exact Or.inr ⟨some cached, _, rfl, s.files_consulted url force, rfl⟩
      · exact Or.inl ⟨_, _, rfl, s.files_consulted url force, by simp [IsDownload]⟩

/-- What a load gives and leaves: no document that was downloaded and the files as they
are, or what comes of storing a document that was served. -/
theorem of_run_load {result : Outcome Loaded} {s' : Session}
    (hrun : (l.load n force).run s = (result, s')) :
    s'.files = s.files ∧ ¬IsDownload result ∨
    ∃ cached? reply d stored, l.cache.read s.files = .ok cached? ∧ n.fetch url = .ok reply ∧
      reply.document url = .ok d ∧
      (l.cache.store reply.body reply.stamp?).run s.files = (stored, s'.files) ∧
      result = afterDownload cached? (stored.map fun _ => d) := by
  rcases run_load_cases hl n force s with ⟨result', s₁, hrun', hfiles, hnot⟩ | ⟨cached?, s₁, hread,
    hfiles, hrun'⟩
  · obtain ⟨rfl, rfl⟩ := Prod.mk.inj (hrun.symm.trans hrun')
    exact Or.inl ⟨hfiles, hnot⟩
  · -- a download that gets no document is no download for the load, and has not touched the files
    rw [hrun] at hrun'
    rcases run_download_cases l n url s₁ with
      ⟨failure, hdownload⟩ | ⟨reply, d, stored, t, hfetch, hd, hstore, hdownload⟩
    · rw [hdownload] at hrun'
      obtain ⟨rfl, rfl⟩ := Prod.mk.inj hrun'
      refine Or.inl ⟨hfiles, ?_⟩
      simp [isDownload_afterDownload]
    · rw [hdownload] at hrun'
      obtain ⟨rfl, rfl⟩ := Prod.mk.inj hrun'
      exact Or.inr ⟨cached?, reply, d, stored, hread, hfetch, hd, hfiles ▸ hstore, rfl⟩

end Loader

end Classwright.Schema
