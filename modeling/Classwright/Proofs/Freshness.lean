import Classwright.Proofs.Damage
import Classwright.Proofs.Storing

/-!
# Documents that are fresh

A download leaves the document with its stamp in the cache, both as they were served
(`Cache.stores_of_run_store_ok`). As long as the server gives the same stamp, later
loads that are not forced give the document from the cache, if the stamp is read back as
it was stored; otherwise each of them downloads the document again
(`Loader.downloaded_once_iff`).

Between the two loads anything may happen that forces no download while the server gives
the same stamp: none of it changes the files (`Loader.files_after`). Whether the next
load downloads is then up to the stamp, which is stored as it was served and read back
without the blanks around it.
-/

namespace Classwright.Schema

namespace Cache

variable {c : Cache} {t : FileTree} {body : String} {stamp? : Option String}

/-- The stamp is read back without the blanks around it, or as none. -/
theorem Stores.read_eq {d : Document} (h : c.Stores t body stamp?)
    (hparse : Document.ofText body = .ok d) :
    c.read t = .ok (some ⟨d, stamp?.bind stampOf⟩) := by
  have hstamp : c.stamp? t = .ok (stamp?.bind stampOf) := by
    cases stamp? with
    | none => exact stamp?_of_none h.stamp
    | some stamp => rw [stamp?_of_text h.stamp, Option.bind_some]
  rw [read_of_text_ok h.document hparse, hstamp]
  rfl

/-- A stamp is read back as it was stored if it is not empty and has no blanks around
it. -/
theorem stampOf_eq_self_iff {stamp : String} :
    stampOf stamp = some stamp ↔ stamp ≠ "" ∧ Text.trim stamp = stamp := by
  have hempty : (Text.trim stamp).isEmpty ↔ Text.trim stamp = "" := String.isEmpty_iff
  rw [stampOf]
  constructor
  · intro h
    split at h
    · cases h
    · next he =>
      have htrim : Text.trim stamp = stamp := Option.some.inj h
      exact ⟨fun hs => he (hempty.2 (htrim.trans hs)), htrim⟩
  · rintro ⟨hne, htrim⟩
    rw [if_neg fun he => hne (htrim.symm.trans (hempty.1 he)), htrim]

end Cache

/-- Whether an operation forces no download and, where it may download, meets a server
that gives the stamp. -/
def KeepsStamp (url stamp : String) (e : Network × Operation) : Prop :=
  e.2 ≠ .refresh true ∧ (e.2.mayDownload → e.1.lookUp url = .ok (some stamp))

namespace Loader

variable {l : Loader} {n : Network} {url stamp body : String} {s s' : Session} {d : Document}
  (hl : l.source = .remote url)

include hl

/-- A load that ends with a download leaves what was served in the cache. -/
theorem stores_of_run_load {force : Bool} {reply : Reply} (hfetch : n.fetch url = .ok reply)
    (hrun : (l.load n force).run s = (.ok ⟨d, .download⟩, s')) :
    Document.ofText reply.body = .ok d ∧ l.cache.Stores s'.files reply.body reply.stamp? := by
  rcases of_run_load hl hrun with ⟨-, hnot⟩ | ⟨cached?, reply', d', stored, -, hfetch', hd',
    hstore, hresult⟩
  · exact absurd ⟨d, rfl⟩ hnot
  · obtain rfl := Except.ok.inj (hfetch.symm.trans hfetch')
    have hstored := afterDownload_eq_download.1 hresult.symm
    cases stored with
    | error failure => cases hstored
    | ok _ =>
      cases hstored
      exact ⟨(document_eq_ok.1 hd').2, Cache.stores_of_run_store_ok hstore⟩

section stores

variable (hparse : Document.ofText body = .ok d) (hn : n.lookUp url = .ok (some stamp))

include hparse hn

/-- Where the server gives the stamp that was stored, a load that is not forced gives
the document from the cache if the stamp is read back as it was stored, and downloads
the document otherwise. -/
theorem run_load_of_stores (h : l.cache.Stores s.files body (some stamp)) : (l.load n false).run s =
    if Cache.stampOf stamp = some stamp then (.ok ⟨d, .cache⟩, s.asked (.lookUp url))
    else Prod.map (afterDownload (some ⟨d, Cache.stampOf stamp⟩)) id
      ((l.download n url).run (s.asked (.lookUp url))) := by
  have hchanged : n.changed url (Cache.stampOf stamp) ↔ Cache.stampOf stamp ≠ some stamp := by
    rw [Network.changed, hn]
    exact bne_iff_ne
  rw [run_load_of_read_some hl (h.read_eq hparse), Option.bind_some, Bool.false_or]
  by_cases hstamp : Cache.stampOf stamp = some stamp
  · rw [if_pos hstamp, if_neg fun hc => hchanged.1 hc hstamp]
    rfl
  · rw [if_neg hstamp, if_pos (hchanged.2 hstamp)]
    rfl

/-- A stamp that is not read back as it was written is asked for and found changed. -/
theorem requests_run_load_of_stores (h : l.cache.Stores s.files body (some stamp))
    (hstamp : Cache.stampOf stamp ≠ some stamp) :
    ((l.load n false).run s).2.requests = s.requests ++ [Request.lookUp url,
      Request.fetch url] := by
  rw [run_load_of_stores hl hparse hn h, if_neg hstamp]
  refine (requests_run_download l n url (s.asked (.lookUp url))).trans ?_
  simp [Session.asked]

end stores

variable (hparse : Document.ofText body = .ok d) (hstamp : Cache.stampOf stamp = some stamp)

include hparse hstamp

/-- An operation that forces no download leaves the files as they are, as long as the
server gives the stamp. -/
theorem files_run_perform (e : Network × Operation) (he : KeepsStamp url stamp e)
    (h : l.cache.Stores s.files body (some stamp)) : ((l.perform e.1 e.2).run s).2.files =
    s.files := by
  obtain ⟨n, op⟩ := e
  obtain ⟨hforce, hlookUp⟩ := he
  -- A load finds the stamp unchanged and answers from the cache.
  have hload : op.mayDownload → ((l.load n false).run s).2.files = s.files := by
    intro hop
    rw [run_load_of_stores hl hparse (hlookUp hop) h, if_pos hstamp]
    rfl
  cases op with
  | load =>
    rw [perform, SessionAction.run_bind_pure_snd]
    exact hload rfl
  | refresh force =>
    cases force with
    | true => exact absurd rfl hforce
    | false =>
      rw [perform, SessionAction.run_bind_pure_snd]
      exact hload rfl
  | isStale cached? => exact files_run_perform_of_not_mayDownload hl n rfl s
  | loadCached => exact files_run_perform_of_not_mayDownload hl n rfl s
  | status => exact files_run_perform_of_not_mayDownload hl n rfl s

/-- Operations that keep the stamp leave the files as they are: after each of them the
cache still stores the document and its stamp. -/
theorem files_after :
    ∀ (later : List (Network × Operation)) {s : Session}, (∀ e ∈ later, KeepsStamp url stamp e) →
    l.cache.Stores s.files body (some stamp) → (l.after s later).files = s.files
  | [], _, _, _ => rfl
  | (n, op) :: later, s, hkeeps, h => by
    have hfiles := files_run_perform hl hparse hstamp (n, op) (hkeeps _ List.mem_cons_self) h
    have hafter := files_after later (s := ((l.perform n op).run s).2)
      (fun e he => hkeeps e (List.mem_cons_of_mem _ he)) (hfiles ▸ h)
    exact hafter.trans hfiles

omit hparse hstamp in
/-- After a download of a document with a stamp, later loads that are not forced give
that document from the cache, with no request but that for the stamp, as long as the
server gives the same stamp, exactly if that has no blanks around it and is not empty.
Otherwise the next load fetches the document again. -/
theorem downloaded_once_iff {force : Bool} {reply : Reply} (hfetch : n.fetch url = .ok reply)
    (hreply : reply.stamp? = some stamp)
    (hrun : (l.load n force).run s = (.ok ⟨d, .download⟩, s')) :
    ((∀ later : List (Network × Operation), (∀ e ∈ later, KeepsStamp url stamp e) →
      ∀ n' : Network, n'.lookUp url = .ok (some stamp) →
        (l.load n' false).run (l.after s' later) =
          (.ok ⟨d, .cache⟩, (l.after s' later).asked (.lookUp url))) ↔
      stamp ≠ "" ∧ Text.trim stamp = stamp) ∧
    (¬(stamp ≠ "" ∧ Text.trim stamp = stamp) → ∀ n' : Network, n'.lookUp url = .ok (some stamp) →
      ((l.load n' false).run s').2.requests = s'.requests ++ [.lookUp url, .fetch url]) := by
  obtain ⟨hparse, hstores⟩ := stores_of_run_load hl hfetch hrun
  rw [hreply] at hstores
  rw [← Cache.stampOf_eq_self_iff]
  refine ⟨⟨fun hcached => ?_, fun hstamp later hkeeps n' hn' => ?_⟩, fun hstamp n' hn' => ?_⟩
  · -- the requests of the very next load tell whether it has been given the cached document
    refine Decidable.byContradiction fun hstamp => ?_
    have hn : (Network.serving (.json "" stamp)).lookUp url = .ok (some stamp) := rfl
    have hcache : (l.load (.serving (.json "" stamp)) false).run s' =
        (.ok ⟨d, .cache⟩, s'.asked (.lookUp url)) := hcached [] (by simp) _ hn
    have hrequests := requests_run_load_of_stores hl hparse hn hstores hstamp
    rw [hcache] at hrequests
    simp [Session.asked] at hrequests
  · have hfiles := files_after hl hparse hstamp later hkeeps hstores
    rw [run_load_of_stores hl hparse hn' (hfiles ▸ hstores), if_pos hstamp]
  · exact requests_run_load_of_stores hl hparse hn' hstores hstamp

end Loader

/-- A document with the stamp `v1` is downloaded once, whatever is asked after that
while the stamp stays. -/
theorem downloaded_once_v1 : ∃ d s',
    (localLoader.load (.serving emptyDocumentReply) true).run ⟨.empty, []⟩ =
      (.ok ⟨d, .download⟩, s') ∧
    ∀ later : List (Network × Operation), (∀ e ∈ later, KeepsStamp defaultUrl "v1" e) →
      (localLoader.load (.serving emptyDocumentReply) false).run (localLoader.after s' later) =
        (.ok ⟨d, .cache⟩, (localLoader.after s' later).asked (.lookUp defaultUrl)) := by
  have horigin :
      ((localLoader.load (.serving emptyDocumentReply) true).run ⟨.empty, []⟩).1.toOption.map
        Loaded.origin = some .download := by
    decide +kernel
  rcases hrun : (localLoader.load (.serving emptyDocumentReply) true).run ⟨.empty, []⟩
    with ⟨result, s'⟩
  rw [hrun] at horigin
  cases result with
  | error failure => cases horigin
  | ok loaded =>
    obtain ⟨d, origin⟩ := loaded
    obtain rfl : origin = .download := Option.some.inj horigin
    have honce := Loader.downloaded_once_iff (n := .serving emptyDocumentReply) rfl rfl rfl hrun
    exact ⟨d, s', rfl, fun later hkeeps => honce.1.2 (by decide +kernel) later hkeeps _ rfl⟩

/-- A stamp with a blank in front is never found unchanged: the document is downloaded
each time. -/
theorem not_downloaded_once_blank : ∃ first second,
    (localLoader.load (.serving (.json emptyDocumentReply.body " v1")) false).run ⟨.empty, []⟩ =
      first ∧
    (localLoader.load (.serving (.json emptyDocumentReply.body " v1")) false).run first.2 = second ∧
    first.1.toOption.map Loaded.origin = some .download ∧
    second.1.toOption.map Loaded.origin = some .download ∧
    second.2.requests = [.fetch defaultUrl, .lookUp defaultUrl, .fetch defaultUrl] := by
  refine ⟨_, _, rfl, rfl, ?_⟩
  decide +kernel

end Classwright.Schema
