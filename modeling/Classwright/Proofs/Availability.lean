import Classwright.Proofs.Loading
import Classwright.Proofs.Store

/-!
# Availability of the cached document

A loader of a remote source goes through any sequence of operations while the network
answers as it likes. As long as nothing has been downloaded the files stay as they are,
and from the first download on the cache holds a document: the one that the last
successful load gave (`Loader.run_perform_of_startsEmpty`,
`Loader.run_perform_of_holds`). So nothing that is cached is ever lost or damaged
(`Loader.cache_available`).
-/

namespace Classwright.Schema

namespace Loader

variable {l : Loader} {n : Network} {url : String} {s : Session}

/-! ## One operation

What one operation leaves depends on the cache it finds: an empty one stays empty unless
a download succeeds, and one that holds a document holds one afterwards.
-/

/-- A download stores the document that it gives, or fails and leaves the files as they
are. -/
theorem run_download (n : Network) (url : String) (h : l.cache.Prepared s.files) :
    (∃ d s', (l.download n url).run s = (.ok d, s') ∧ l.cache.Holds s'.files d) ∨
    ∃ failure s', (l.download n url).run s = (.error failure, s') ∧ s'.files = s.files := by
  rcases run_download_cases l n url s with ⟨failure, hrun⟩ | ⟨reply, d, result, t, -, hd,
    hstore, hrun⟩
  · exact Or.inr ⟨failure, _, hrun, rfl⟩
  · obtain ⟨made, dir, hmade, hready⟩ := h
    obtain ⟨t', hstore', hready', hdoc, -⟩ :=
      Cache.exists_run_store hmade hready reply.body reply.stamp?
    obtain ⟨rfl, rfl⟩ := Prod.mk.inj (hstore.symm.trans hstore')
    exact Or.inl ⟨d, _, hrun, dir, reply.body, hready', hdoc, (document_eq_ok.1 hd).2⟩

variable (hl : l.source = .remote url)

include hl

/-- Where nothing is cached, a load gives what it stores, or fails and leaves the files
as they are. -/
theorem run_load_of_read_eq_none (n : Network) (force : Bool) (h : l.cache.Prepared s.files)
    (hr : l.cache.read s.files = .ok none) :
    (∃ loaded s', (l.load n force).run s = (.ok loaded, s') ∧
      l.cache.Holds s'.files loaded.document) ∨
    ∃ failure s', (l.load n force).run s = (.error failure, s') ∧ s'.files = s.files := by
  rw [run_load_of_read_none hl hr]
  rcases run_download n url h with ⟨d, s', hrun, hd⟩ | ⟨failure, s', hrun, hs⟩
  · exact Or.inl ⟨⟨d, .download⟩, s', by rw [hrun]; rfl, hd⟩
  · exact Or.inr ⟨.downloadFailed failure, s', by rw [hrun]; rfl, hs⟩

/-- Where a document is cached, a load gives what the cache holds then. -/
theorem exists_run_load_of_holds (n : Network) (force : Bool) {d : Document}
    (h : l.cache.Holds s.files d) :
    ∃ loaded s', (l.load n force).run s = (.ok loaded, s') ∧
    l.cache.Holds s'.files loaded.document := by
  obtain ⟨stamp?, hr⟩ := h.read_eq
  rw [run_load_of_read_some hl hr]
  rw [← s.files_consulted url force] at h
  split
  · rcases run_download n url h.prepared with ⟨d', s', hrun, hd⟩ | ⟨failure, s', hrun, hs⟩
    · exact ⟨⟨d', .download⟩, s', by rw [hrun]; rfl, hd⟩
    · exact ⟨⟨d, .staleCache⟩, s', by rw [hrun]; rfl, hs ▸ h⟩
  · exact ⟨⟨d, .cache⟩, _, rfl, h⟩

/-- What is cached is given without a request. -/
theorem run_loadCached_of_holds {t : FileTree} {d : Document} (h : l.cache.Holds t d) :
    l.loadCached.run t = (.ok d, t) := by
  obtain ⟨stamp?, hr⟩ := h.read_eq
  have hlook : (FileAction.look l.cache.read).run t = (.ok (some ⟨d, stamp?⟩), t) :=
    congrArg (·, t) hr
  rw [loadCached, hl]
  exact FileAction.run_bind_ok hlook

/-- Loading what is cached writes nothing. -/
theorem files_run_loadCached (t : FileTree) : (l.loadCached.run t).2 = t := by
  rw [loadCached, hl]
  cases hr : l.cache.read t with
  | error failure =>
    have hlook : (FileAction.look l.cache.read).run t = (.error failure, t) := congrArg (·, t) hr
    exact congrArg Prod.snd (FileAction.run_bind_error hlook)
  | ok cached? =>
    have hlook : (FileAction.look l.cache.read).run t = (.ok cached?, t) := congrArg (·, t) hr
    refine (congrArg Prod.snd (FileAction.run_bind_ok hlook)).trans ?_
    cases cached? <;> rfl

end Loader

/-- What can be asked of a loader. -/
inductive Operation where
  | load
  | refresh (force : Bool)
  | isStale (cached? : Option String)
  | loadCached
  | status
deriving DecidableEq, Repr

/-- What a loader answers. -/
inductive Answer where
  | document (d : Document)
  | loaded (l : Loaded)
  | stale (b : Bool)
  | status (s : Status)
deriving Repr

/-- The document in an answer. -/
def Answer.document? : Answer → Option Document
  | .document d => some d
  | .loaded l => some l.document
  | _ => none

/-- Whether an operation may download the document. -/
def Operation.mayDownload : Operation → Bool
  | .load => true
  | .refresh _ => true
  | _ => false

/-- Whether an operation gives a document. -/
def Operation.givesDocument : Operation → Bool
  | .loadCached => true
  | op => op.mayDownload

namespace Loader

/-- Carries an operation out. -/
def perform (l : Loader) (n : Network) : Operation → SessionAction Answer
  | .load => return .document (← l.load n false).document
  | .refresh force => return .loaded (← l.load n force)
  | .isStale cached? => return .stale (← l.isStale n cached?)
  | .loadCached => return .document (← SessionAction.onFiles l.loadCached)
  | .status => return .status (← SessionAction.onFiles (FileAction.look l.status))

/-- The session after some operations, each with the network as it is then. -/
def after (l : Loader) (s : Session) : List (Network × Operation) → Session
  | [] => s
  | (n, op) :: rest => l.after ((l.perform n op).run s).2 rest

/-! ## Sequences of operations

The two facts on one operation carry over to any sequence, by induction on it.
-/

variable {l : Loader} {url : String} (hl : l.source = .remote url)

include hl

omit hl in
/-- The operations that may download the document load it. -/
theorem exists_perform_eq (l : Loader) (n : Network) {op : Operation} (h : op.mayDownload) :
    ∃ force, ∃ answer : Loaded → Answer,
    (∀ loaded, (answer loaded).document? = some loaded.document) ∧
      l.perform n op = (l.load n force >>= fun loaded => pure (answer loaded)) := by
  cases op with
  | load => exact ⟨false, fun loaded => .document loaded.document, fun _ => rfl, rfl⟩
  | refresh force => exact ⟨force, .loaded, fun _ => rfl, rfl⟩
  | isStale cached? => cases h
  | loadCached => cases h
  | status => cases h

/-- An operation that cannot download leaves all files as they are. -/
theorem files_run_perform_of_not_mayDownload (n : Network) {op : Operation}
    (h : op.mayDownload = false)
    (s : Session) : ((l.perform n op).run s).2.files = s.files := by
  cases op with
  | load => cases h
  | refresh force => cases h
  | isStale cached? =>
    rw [perform, SessionAction.run_bind_pure_snd, run_isStale hl]
    rfl
  | loadCached =>
    rw [perform, SessionAction.run_bind_pure_snd]
    exact files_run_loadCached hl s.files
  | status =>
    rw [perform, SessionAction.run_bind_pure_snd]
    rfl

/-- As long as nothing is cached, an operation leaves the files as they are, or caches
the document that it gives. -/
theorem run_perform_of_startsEmpty (n : Network) (op : Operation) {s : Session}
    (h : l.cache.StartsEmpty s.files) : (((l.perform n op).run s).2.files = s.files ∧
      (op.mayDownload → ∃ failure, ((l.perform n op).run s).1 = .error failure)) ∨
    ∃ answer d, ((l.perform n op).run s).1 = .ok answer ∧ answer.document? = some d ∧
      l.cache.Holds ((l.perform n op).run s).2.files d := by
  cases hop : op.mayDownload with
  | false =>
    refine Or.inl ⟨files_run_perform_of_not_mayDownload hl n hop s, fun h => ?_⟩
    cases h
  | true =>
    -- Every operation that may download is a load whose result is answered.
    obtain ⟨force, answer, hanswer, hperform⟩ := l.exists_perform_eq n hop
    rw [hperform]
    rcases run_load_of_read_eq_none hl n force h.prepared h.read_eq with
      ⟨loaded, s', hrun, hd⟩ | ⟨failure, s', hrun, hs⟩
    · rw [SessionAction.run_bind_ok hrun]
      exact Or.inr ⟨answer loaded, loaded.document, rfl, hanswer loaded, hd⟩
    · rw [SessionAction.run_bind_error hrun]
      exact Or.inl ⟨hs, fun _ => ⟨failure, rfl⟩⟩

/-- Once something is cached, an operation that gives a document gives the one that is
cached then. -/
theorem run_perform_of_holds (n : Network) (op : Operation) {s : Session} {d : Document}
    (h : l.cache.Holds s.files d) :
    ∃ d', l.cache.Holds ((l.perform n op).run s).2.files d' ∧
      (op.givesDocument → ∃ answer,
        ((l.perform n op).run s).1 = .ok answer ∧ answer.document? = some d') := by
  cases hop : op.mayDownload with
  | true =>
    obtain ⟨force, answer, hanswer, hperform⟩ := l.exists_perform_eq n hop
    obtain ⟨loaded, s', hrun, hd⟩ := exists_run_load_of_holds hl n force h
    rw [hperform, SessionAction.run_bind_ok hrun]
    exact ⟨loaded.document, hd, fun _ => ⟨answer loaded, rfl, hanswer loaded⟩⟩
  | false =>
    refine ⟨d, ?_, fun hgives => ?_⟩
    · rw [files_run_perform_of_not_mayDownload hl n hop s]
      exact h
    · cases op with
      | loadCached =>
        have hrun := SessionAction.run_onFiles (run_loadCached_of_holds hl h)
        rw [perform, SessionAction.run_bind_ok hrun]
        exact ⟨.document d, rfl, rfl⟩
      | load => cases hop
      | refresh force => cases hop
      | isStale cached? => cases hgives
      | status => cases hgives

/-- A usable cache is usable after any further operations: the induction is on these,
with the session at hand. -/
theorem exists_holds_after : ∀ (ops : List (Network × Operation)) {s : Session} {d : Document},
    l.cache.Holds s.files d → ∃ d', l.cache.Holds (l.after s ops).files d'
  | [], _, d, h => ⟨d, h⟩
  | (n, op) :: ops, _, _, h => by
    obtain ⟨d', h', -⟩ := run_perform_of_holds hl n op h
    exact exists_holds_after ops h'

/-- After any operations the cache is empty, or holds a document. -/
theorem startsEmpty_or_holds_after : ∀ (ops : List (Network × Operation)) {s : Session},
    l.cache.StartsEmpty s.files →
      l.cache.StartsEmpty (l.after s ops).files ∨ ∃ d, l.cache.Holds (l.after s ops).files d
  | [], _, h => Or.inl h
  | (n, op) :: ops, s, h => by
    rcases run_perform_of_startsEmpty hl n op h with ⟨hs, -⟩ | ⟨answer, d, -, -, hd⟩
    · exact startsEmpty_or_holds_after ops (hs ▸ h)
    · exact Or.inr (exists_holds_after hl ops hd)

/-- Whatever the network answers, the cached document can be read whenever there is one.
After a load has succeeded, the document that it gave is cached, and every later
operation that gives a document succeeds. -/
theorem cache_available {s : Session} (h : l.cache.StartsEmpty s.files)
    (before : List (Network × Operation)) :
    ((l.after s before).files.has l.cache.documentPath →
      ∃ text d, (l.after s before).files.readText l.cache.documentPath = .ok text ∧
        Document.ofText text = .ok d) ∧
    ∀ n op answer s', op.mayDownload → (l.perform n op).run (l.after s before) = (.ok answer, s') →
      (∃ d, answer.document? = some d ∧ l.loadCached.run s'.files = (.ok d, s'.files)) ∧
      ∀ later n' op', op'.givesDocument →
        ∃ answer', ((l.perform n' op').run (l.after s' later)).1 = .ok answer' := by
  have hstate := startsEmpty_or_holds_after hl before h
  refine ⟨?_, ?_⟩
  · intro hhas
    rcases hstate with hstate | ⟨d, hd⟩
    · rw [hstate.absent] at hhas
      cases hhas
    · obtain ⟨text, hread, hparse⟩ := hd.readText_eq
      exact ⟨text, d, hread, hparse⟩
  · intro n op answer s' hop hrun
    -- Whatever may download gives a document.
    have hgives : op.givesDocument := by
      cases op <;> first | exact hop | cases hop
    -- The answer comes from a cache that now holds its document, whether it was empty
    -- before.
    obtain ⟨d, hdoc, hd⟩ : ∃ d, answer.document? = some d ∧ l.cache.Holds s'.files d := by
      rcases hstate with hstate | ⟨d, hd⟩
      · rcases run_perform_of_startsEmpty hl n op hstate with ⟨-, hfail⟩ | ⟨answer', d,
          ha, hdoc, hd⟩
        · obtain ⟨failure, hf⟩ := hfail hop
          rw [hrun] at hf
          cases hf
        · rw [hrun] at ha hd
          cases ha
          exact ⟨d, hdoc, hd⟩
      · obtain ⟨d', hd', ha⟩ := run_perform_of_holds hl n op hd
        obtain ⟨answer', ha, hdoc⟩ := ha hgives
        rw [hrun] at ha hd'
        cases ha
        exact ⟨d', hdoc, hd'⟩
    refine ⟨⟨d, hdoc, run_loadCached_of_holds hl hd⟩, fun later n' op' hop' => ?_⟩
    obtain ⟨d', hd'⟩ := exists_holds_after hl later hd
    obtain ⟨_, _, ha⟩ := run_perform_of_holds hl n' op' hd'
    obtain ⟨answer', ha, -⟩ := ha hop'
    exact ⟨answer', ha⟩

end Loader

/-- A loader with a cache in the working directory. -/
def localLoader : Loader :=
  ⟨.remote defaultUrl, ⟨⟨"cache"⟩⟩⟩

/-- A network that serves a document without objects. -/
def emptyDocumentNetwork : Network where
  lookUp _ := .ok none
  fetch _ :=
    .ok ⟨"\x7b\"objects\":\x7b\x7d,\"components\":\x7b\x7d\x7d", none, some "application/json"⟩

/-- After one successful refresh the document can be loaded without a network. -/
theorem load_offline_after_refresh : localLoader.source = .remote defaultUrl ∧
    localLoader.cache.StartsEmpty FileTree.empty ∧ ∃ answer s',
      (localLoader.perform emptyDocumentNetwork (.refresh true)).run ⟨.empty, []⟩ =
        (.ok answer, s') ∧
      ∃ answer', ((localLoader.perform .offline .load).run s').1 = .ok answer' := by
  have hstart : localLoader.cache.StartsEmpty FileTree.empty := ⟨by decide, _, rfl, by decide⟩
  have hsome : ((localLoader.perform emptyDocumentNetwork (.refresh true)).run
      ⟨.empty, []⟩).1.toOption.isSome = true := by
    decide +kernel
  rcases hrun : (localLoader.perform emptyDocumentNetwork (.refresh true)).run ⟨.empty, []⟩
    with ⟨result, s'⟩
  rw [hrun] at hsome
  cases result with
  | error failure => cases hsome
  | ok answer =>
    have h :=
      (localLoader.cache_available rfl (s := ⟨.empty, []⟩) hstart []).2 _ _ answer s' rfl hrun
    exact ⟨rfl, hstart, answer, s', rfl, h.2 [] .offline .load rfl⟩

end Classwright.Schema
