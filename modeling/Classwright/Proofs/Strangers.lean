import Classwright.Proofs.Fragments

/-!
# Files for no place

A file whose path names an entity and no place for it (`IsStranger`) adds nothing to a
catalog. It is read nevertheless, so where its bytes are no text, the scan fails. A scan
has the same outcome without such files if and only if each of them that is no text is
preceded by a file that is no text either and has a place: then the scan fails at that
one (`Catalog.scan_withoutStrangers_iff`). In particular it has the same outcome if all
of them are texts.
-/

namespace Classwright

/-! ## Strangers

Cutting the path of a stranger gives an entity and a word, but the word is none of the
hooks.
-/

/-- Whether the path of a file is cut into an entity and a word that names no place. -/
def IsStranger (extension : String) (names : Key) : Prop :=
  ∃ entity word, Splits extension names entity word ∧ ∀ hook : Hook, word ∉ hook.names

/-- A stranger has the name of a fragment, but not of a hook. -/
theorem isStranger_iff {extension : String} {names : Key} : IsStranger extension names ↔
    ∃ name, FragmentName.ofKey? names extension = some name ∧ Hook.ofName? name.hook = none := by
  simp only [IsStranger, FragmentName.ofKey?_eq_some_iff, Option.eq_none_iff_forall_ne_some, ne_eq,
    Hook.ofName?_eq_some_iff]
  exact ⟨fun ⟨entity, word, h, hw⟩ => ⟨⟨entity, word⟩, h, hw⟩,
    fun ⟨name, h, hw⟩ => ⟨name.entity, name.hook, h, hw⟩⟩

instance (extension : String) : DecidablePred (IsStranger extension) := fun names =>
  decidable_of_iff ((FragmentName.ofKey? names extension).any fun name =>
    (Hook.ofName? name.hook).isNone) (by
    rw [isStranger_iff, Option.any_eq_true]
    simp)

/-- A file has a place if its path is cut and it is no stranger. -/
theorem exists_supplies_iff {extension : String} {names : Key} :
    (∃ entity hook, Supplies extension entity hook names) ↔
    (FragmentName.ofKey? names extension).isSome ∧ ¬IsStranger extension names := by
  rw [isStranger_iff]
  -- A hook that is known is one that supplies, and one that is not makes a stranger.
  constructor
  · rintro ⟨entity, hook, h⟩
    obtain ⟨word, hw, hhook⟩ := supplies_iff.1 h
    refine ⟨by rw [hw]; rfl, ?_⟩
    rintro ⟨name, hname, hnone⟩
    rw [hw] at hname
    obtain rfl := Option.some.inj hname
    rw [hhook] at hnone
    cases hnone
  · rintro ⟨hsome, hnot⟩
    obtain ⟨name, hname⟩ := Option.isSome_iff_exists.1 hsome
    cases hhook : Hook.ofName? name.hook with
    | none => exact absurd ⟨name, hname, hhook⟩ hnot
    | some hook => exact ⟨name.entity, hook, supplies_iff.2 ⟨name.hook, hname, hhook⟩⟩

/-! ## Trees without strangers

Taking files away changes neither the directories nor the order of the walk.
-/

namespace FileTree

variable {t t' : FileTree} {directory : Path} {dir : Key} {extension : String}

/-- Whether an entry stays when the strangers in a directory are removed. -/
def Stays (extension : String) (dir : Key) (e : Key × FileEntry) : Prop :=
  e.2 = .directory ∨ ¬Inside e.1 dir ∨ ¬IsStranger extension (e.1.drop dir.length)

instance (extension : String) (dir : Key) : DecidablePred (Stays extension dir) := fun _ =>
  inferInstanceAs (Decidable (_ ∨ _))

/-- A tree without the strangers in a directory. -/
def withoutStrangers (t : FileTree) (directory : Path) (extension : String) : FileTree :=
  ⟨t.entries.filter fun e => Stays extension directory.destination e⟩

/-- The same directories are found in trees that have the same directories. -/
theorem find_directory_congr
    (h : ∀ key, t'.get? key = some .directory ↔ t.get? key = some .directory) {p : Path} :
    t'.find p = .ok (dir, .directory) ↔ t.find p = .ok (dir, .directory) := by
  -- The steps of a path only depend on the directories.
  have hreach : ∀ (steps : List String) (key : Key), t'.reach key steps = some dir ↔
      t.reach key steps = some dir := by
    intro steps
    induction steps with
    | nil => exact fun _ => Iff.rfl
    | cons step steps ih =>
      intro key
      by_cases hup : step = ".."
      · subst hup
        rw [reach_up, reach_up, ih]
      · rw [reach_name hup, reach_name hup, h, ih]
  have hfind : ∀ {t t' : FileTree},
      (∀ steps key, t'.reach key steps = some dir ↔ t.reach key steps = some dir) →
      t.find p = .ok (dir, .directory) → t'.find p = .ok (dir, .directory) := by
    intro t t' hr hf
    obtain ⟨slash, hl⟩ := find_eq_ok_directory.1 hf
    have ho := opens_of_find hf
    exact Opens.find ⟨ho.clean, (hr _ _).2 ho.reached⟩ (locate_eq_ok hl).1
  exact ⟨hfind fun steps key => (hreach steps key).symm, hfind hreach⟩

section tree

variable (ht : t.IsTree directory.destination)

include ht

/-- Taking strangers out leaves the directories. -/
theorem get?_withoutStrangers (key : Key) :
    (t.withoutStrangers directory extension).get? key = some .directory ↔
    t.get? key = some .directory := by
  by_cases hg : isGiven key
  · simp [get?, hg]
  rw [Bool.not_eq_true] at hg
  rw [get?_of_not_isGiven _ hg, get?_of_not_isGiven _ hg, withoutStrangers]
  -- Below the directory only files are left out, and elsewhere nothing is.
  by_cases hin : Inside key directory.destination
  · simp only [Option.map_eq_some_iff]
    constructor
    · rintro ⟨e, hf, he⟩
      obtain rfl : e.1 = key := by simpa using List.find?_some hf
      exact ⟨e, find?_eq_of_nodup ht.distinct
        (List.mem_of_mem_filter (List.mem_of_find?_eq_some hf)) hin, he⟩
    · rintro ⟨e, hf, he⟩
      obtain rfl : e.1 = key := by simpa using List.find?_some hf
      refine ⟨e,
        find?_eq_of_nodup ?_ (List.mem_filter.2 ⟨List.mem_of_find?_eq_some hf, ?_⟩) hin, he⟩
      · exact ((List.filter_sublist.filter _).map Prod.fst).nodup ht.distinct
      · exact decide_eq_true (Or.inl he)
  -- The entry stays, so looking for its key finds the same.
  · have hstays : ∀ e : Key × FileEntry, (e.1 == key) = true →
        Stays extension directory.destination e :=
      fun e he => Or.inr (Or.inl (eq_of_beq he ▸ hin))
    have hsame : (fun e : Key × FileEntry =>
        decide (decide (Stays extension directory.destination e) = true ∧ (e.1 == key) = true)) =
        fun e => e.1 == key := by
      funext e
      rw [Bool.eq_iff_iff, decide_eq_true_eq, decide_eq_true_eq]
      exact ⟨And.right, fun he => ⟨hstays e he, he⟩⟩
    rw [List.find?_filter, hsame]

end tree

/-- What a walk finds when the strangers are removed. -/
theorem below_withoutStrangers (t : FileTree) (directory : Path) (extension : String) :
    (t.withoutStrangers directory extension).below directory.destination =
      (t.below directory.destination).filter fun e => e.2 = .directory ∨
      ¬IsStranger extension e.1 := by
  -- Leaving out entries does not change the order of the others.
  have htrans : ∀ a b c : Key × FileEntry, keyAtMost a.1 b.1 → keyAtMost b.1 c.1 →
      keyAtMost a.1 c.1 :=
    fun _ _ _ => keyAtMost_trans
  have htotal : ∀ a b : Key × FileEntry, (keyAtMost a.1 b.1 || keyAtMost b.1 a.1) = true :=
    fun _ _ => keyAtMost_total _ _
  rw [below, below, withoutStrangers, filter_mergeSort htrans htotal, List.filter_map,
    List.filter_filter, List.filter_filter]
  congr 2
  refine List.filter_congr fun e _ => ?_
  -- An entry that is not below the directory is in neither list.
  by_cases hin : Inside e.1 directory.destination
  · have hboth :
        (directory.destination.isPrefixOf e.1 &&
          decide (directory.destination.length < e.1.length)) = true := by
      rw [Bool.and_eq_true, List.isPrefixOf_iff_prefix, decide_eq_true_eq]
      exact hin
    simp [hboth, Stays, hin]
  · have hboth :
        (directory.destination.isPrefixOf e.1 &&
          decide (directory.destination.length < e.1.length)) = false := by
      rw [← Bool.not_eq_true, Bool.and_eq_true, List.isPrefixOf_iff_prefix, decide_eq_true_eq]
      exact hin
    simp [hboth]

end FileTree

/-! ## Scans without strangers

A scan fails at the first file that is no text and whose name it cuts into an entity and
a word. Whether this is a stranger or not is all that matters.
-/

namespace Catalog

section files

variable {directory : Path} {extension : String}

/-- Whether an entry of a walk is a stranger that is no text. -/
def IsBadStranger (extension : String) (e : Key × FileEntry) : Prop :=
  IsStranger extension e.1 ∧ ∃ bytes, e.2 = .file (.bytes bytes)

/-- Whether an entry of a walk is a file with a place that is no text. -/
def IsBadFragment (extension : String) (e : Key × FileEntry) : Prop :=
  (∃ entity hook, Supplies extension entity hook e.1) ∧ ∃ bytes, e.2 = .file (.bytes bytes)

/-- A walk stops at a file whose path is cut. -/
theorem exists_of_addFiles_eq_error {failure : Failure} {found : List (Key × FileEntry)}
    {c : Catalog} (h : addFiles directory extension found c = .error failure) :
    ∃ e ∈ found, ∃ name fault,
      e.2 ≠ .directory ∧ failure = .fragmentUnreadable name (pathBelow directory e.1) fault := by
  induction found generalizing c with
  | nil => cases h
  | cons entry rest ih =>
    obtain ⟨names, entry⟩ := entry
    cases entry with
    | directory =>
      obtain ⟨e, he, hrest⟩ := ih h
      exact ⟨e, List.mem_cons_of_mem _ he, hrest⟩
    | file contents =>
      rw [addFiles, Outcome.bind_eq_error] at h
      rcases h with h | ⟨c', -, h⟩
      · refine ⟨_, List.mem_cons_self, ?_⟩
        unfold addFile at h
        -- A file whose name is none of a fragment is passed over.
        split at h
        · cases h
        · split at h
          · cases h
            exact ⟨_, _, FileEntry.noConfusion, rfl⟩
          · split at h <;> cases h
      · obtain ⟨e, he, hrest⟩ := ih h
        exact ⟨e, List.mem_cons_of_mem _ he, hrest⟩

/-- Whether each stranger that is no text has a file with a place that is no text in
front of it. -/
def Shielded (extension : String) (found : List (Key × FileEntry)) : Prop :=
  ∀ before e after, found = before ++ e :: after → IsBadStranger extension e →
    ∃ f ∈ before, IsBadFragment extension f

/-- The rest of a shielded walk is shielded unless it starts with a file with a place
that is no text. -/
theorem Shielded.tail {e : Key × FileEntry} {rest : List (Key × FileEntry)}
    (h : Shielded extension (e :: rest)) (he : ¬IsBadFragment extension e) :
    Shielded extension rest := by
  rintro before e' after rfl hbad
  obtain ⟨f, hf, hfragment⟩ := h (e :: before) e' after rfl hbad
  rcases List.mem_cons.1 hf with rfl | hf
  · exact absurd hfragment he
  · exact ⟨f, hf, hfragment⟩

/-- A walk is shielded if its rest is and it does not start with a stranger that is no
text. -/
theorem Shielded.cons {e : Key × FileEntry} {rest : List (Key × FileEntry)}
    (h : Shielded extension rest) (he : ¬IsBadStranger extension e) :
    Shielded extension (e :: rest) := by
  intro before e' after hsplit hbad
  rcases List.cons_eq_append_iff.1 hsplit with ⟨rfl, heq⟩ | ⟨before', rfl, rfl⟩
  · obtain ⟨rfl, -⟩ := List.cons.inj heq
    exact absurd hbad he
  · obtain ⟨f, hf, hfragment⟩ := h before' e' after rfl hbad
    exact ⟨f, List.mem_cons_of_mem e hf, hfragment⟩

/-- A fragment that cannot be read shields what comes after it. -/
theorem Shielded.of_isBadFragment {e : Key × FileEntry} {rest : List (Key × FileEntry)}
    (he : IsBadFragment extension e) : Shielded extension (e :: rest) := by
  intro before e' after hsplit hbad
  rcases List.cons_eq_append_iff.1 hsplit with ⟨rfl, heq⟩ | ⟨before', rfl, -⟩
  · obtain ⟨rfl, -⟩ := List.cons.inj heq
    exact absurd hbad.1 (exists_supplies_iff.1 he.1).2
  · exact ⟨e, List.mem_cons_self, he⟩

/-- A stranger with a text adds nothing. -/
theorem addFile_of_isStranger {names : Key} (h : IsStranger extension names) (c : Catalog)
    (text : String) :
    addFile directory extension c names (.text text) = .ok c := by
  obtain ⟨name, hname, hnone⟩ := isStranger_iff.1 h
  simp [addFile, hname, FileTree.asText, hnone]

/-- A file whose path is cut and that is no text cannot be added. -/
theorem addFile_bytes {names : Key} {name : FragmentName}
    (h : FragmentName.ofKey? names extension = some name) (c : Catalog) (bytes : List UInt8) :
    addFile directory extension c names (.bytes bytes) =
      .error (.fragmentUnreadable name.entity (pathBelow directory names) .notText) := by
  simp [addFile, h, FileTree.asText]

/-- A file that is no text and cannot be added is a stranger or has a place. -/
theorem exists_addFile_eq_ok (directory : Path) {names : Key} {contents : Contents} (c : Catalog)
    (hs : ¬IsBadStranger extension (names, .file contents))
    (hf : ¬IsBadFragment extension (names, .file contents)) :
    ∃ c', addFile directory extension c names contents = .ok c' := by
  cases contents with
  | text text =>
    obtain ⟨c', hc', -⟩ := addFile_text directory extension c names text
    exact ⟨c', hc'⟩
  | bytes bytes =>
    refine ⟨c, ?_⟩
    -- Bytes that are no text are only read if the name asks for it.
    cases hname : FragmentName.ofKey? names extension with
    | none => simp [addFile, hname]
    | some name =>
      by_cases hstranger : IsStranger extension names
      · exact absurd ⟨hstranger, bytes, rfl⟩ hs
      · exact absurd ⟨exists_supplies_iff.2 ⟨by rw [hname]; rfl, hstranger⟩, bytes, rfl⟩ hf

/-- Without the strangers a shielded walk adds the same or stops at the same file. -/
theorem addFiles_withoutStrangers :
    ∀ {found : List (Key × FileEntry)} (c : Catalog), Shielded extension found → addFiles directory
    extension (found.filter fun e => e.2 = .directory ∨ ¬IsStranger extension e.1) c =
      addFiles directory extension found c
  | [], _, _ => rfl
  | (names, .directory) :: rest, c, h => by
    rw [List.filter_cons_of_pos (by simp)]
    exact addFiles_withoutStrangers c (h.tail fun hf => nomatch hf.2)
  | (names, .file contents) :: rest, c, h => by
    -- A stranger that is a text adds nothing, and one that is none has a fault before
    -- it.
    by_cases hs : IsStranger extension names
    · rw [List.filter_cons_of_neg (by simp [hs]), addFiles]
      have hrest := h.tail fun hf => (exists_supplies_iff.1 hf.1).2 hs
      cases contents with
      | text text =>
        rw [addFile_of_isStranger hs]
        exact addFiles_withoutStrangers c hrest
      | bytes bytes =>
        obtain ⟨f, hf, -⟩ := h [] _ rest rfl ⟨hs, bytes, rfl⟩
        cases hf
    · rw [List.filter_cons_of_pos (by simp [hs]), addFiles, addFiles]
      -- A bad fragment stops both walks with the same fault.
      by_cases hbad : IsBadFragment extension (names, .file contents)
      · obtain ⟨⟨entity, hook, hsupplies⟩, bytes, hbytes⟩ := hbad
        obtain rfl : contents = .bytes bytes := by simpa using hbytes
        obtain ⟨word, hname, -⟩ := supplies_iff.1 hsupplies
        rw [addFile_bytes hname]
        rfl
      · obtain ⟨c', hc'⟩ := exists_addFile_eq_ok directory c (fun hb => hs hb.1) hbad
        rw [hc']
        exact addFiles_withoutStrangers c' (h.tail hbad)

/-- A walk that is not shielded stops at a stranger. -/
theorem exists_addFiles_eq_error (directory : Path) :
    ∀ {found : List (Key × FileEntry)} (c : Catalog), ¬Shielded extension found →
    ∃ names bytes name, (names, .file (.bytes bytes)) ∈ found ∧ IsStranger extension names ∧
      addFiles directory extension found c =
      .error (.fragmentUnreadable name (pathBelow directory names) .notText)
  | [], _, h => absurd (fun _ _ _ hsplit => by simp at hsplit) h
  | (names, .directory) :: rest, c, h => by
    have hnot : ¬Shielded extension rest := fun hr => h (hr.cons fun hb => nomatch hb.2)
    obtain ⟨names', bytes, name, hmem, hrest⟩ := exists_addFiles_eq_error directory c hnot
    exact ⟨names', bytes, name, List.mem_cons_of_mem _ hmem, hrest⟩
  | (names, .file contents) :: rest, c, h => by
    -- The first entry is a stranger that is no text, or one is behind it.
    by_cases hs : IsBadStranger extension (names, .file contents)
    · obtain ⟨hstranger, bytes, hbytes⟩ := hs
      obtain rfl : contents = .bytes bytes := by simpa using hbytes
      obtain ⟨name, hname, -⟩ := isStranger_iff.1 hstranger
      refine ⟨names, bytes, name.entity, List.mem_cons_self, hstranger, ?_⟩
      rw [addFiles, addFile_bytes hname]
      rfl
    · have hf : ¬IsBadFragment extension (names, .file contents) := fun hf =>
        h (.of_isBadFragment hf)
      obtain ⟨c', hc'⟩ := exists_addFile_eq_ok directory c hs hf
      obtain ⟨names', bytes, name, hmem, hstranger, hrest⟩ :=
        exists_addFiles_eq_error directory c' fun hr => h (hr.cons hs)
      refine ⟨names', bytes, name, List.mem_cons_of_mem _ hmem, hstranger, ?_⟩
      rw [addFiles, hc']
      exact hrest

end files

section scans

variable {t : FileTree} {directory : Path} {dir : Key} {extension : String}

/-- Which walks through a tree are shielded, in terms of its paths. -/
theorem shielded_below_iff (ht : t.IsTree dir) (hf : t.find directory = .ok (dir, .directory)) :
    Shielded extension (t.below dir) ↔
      ∀ names bytes, t.FileBelow directory names (.bytes bytes) → IsStranger extension names →
        ∃ names' bytes' entity hook, t.FileBelow directory names' (.bytes bytes') ∧
          Supplies extension entity hook names' ∧ FileTree.Precedes names' names := by
  simp only [← ht.mem_below_iff hf]
  -- What is before an entry of the walk is what precedes its names.
  constructor
  · intro h names bytes hmem hstranger
    obtain ⟨before, after, hsplit⟩ := List.append_of_mem hmem
    obtain ⟨⟨names', entry⟩, hbefore, ⟨entity, hook, hsupplies⟩, bytes', hbytes'⟩ :=
      h before _ after hsplit ⟨hstranger, bytes, rfl⟩
    obtain rfl : entry = .file (.bytes bytes') := hbytes'
    obtain ⟨hmem', hprecedes⟩ := (ht.mem_before_iff hsplit).1 hbefore
    exact ⟨names', bytes', entity, hook, hmem', hsupplies, hprecedes⟩
  · rintro h before ⟨names, entry⟩ after hsplit ⟨hstranger, bytes, hbytes⟩
    obtain rfl : entry = .file (.bytes bytes) := hbytes
    obtain ⟨names', bytes', entity, hook, hmem', hsupplies, hprecedes⟩ :=
      h names bytes (by simp [hsplit]) hstranger
    exact ⟨_, (ht.mem_before_iff hsplit).2 ⟨hmem', hprecedes⟩, ⟨entity, hook, hsupplies⟩,
      bytes', rfl⟩

/-- A scan has the same outcome without the strangers if and only if each of them that
is no text comes after a file that is no text either and has a place. -/
theorem scan_withoutStrangers_iff (ht : t.IsTree directory.destination) (extension : String) :
    scan (t.withoutStrangers directory extension) directory extension = scan t directory extension ↔
      ∀ names bytes, t.FileBelow directory names (.bytes bytes) → IsStranger extension names →
        ∃ names' bytes' entity hook, t.FileBelow directory names' (.bytes bytes') ∧
          Supplies extension entity hook names' ∧ FileTree.Precedes names' names := by
  have hfind :
      ∀ dir, (t.withoutStrangers directory extension).find directory = .ok (dir, .directory) ↔
        t.find directory = .ok (dir, .directory) :=
    fun dir => FileTree.find_directory_congr (FileTree.get?_withoutStrangers ht)
  by_cases hd : t.isDirectory directory
  · obtain ⟨dir, hf⟩ := FileTree.isDirectory_iff.1 hd
    have hdir := (FileTree.opens_of_find hf).destination
    have hbelow := FileTree.below_withoutStrangers t directory extension
    rw [hdir] at ht hbelow
    rw [scan_of_find ((hfind dir).2 hf), scan_of_find hf, hbelow, ← shielded_below_iff ht hf]
    refine ⟨fun hsame => ?_, addFiles_withoutStrangers _⟩
    by_contra hnot
    obtain ⟨names, bytes, name, hmem, hstranger, herror⟩ :=
      exists_addFiles_eq_error directory .empty hnot
    rw [herror] at hsame
    -- The error without the strangers names a file that is none of them.
    obtain ⟨⟨names', entry⟩, he, name', fault, hentry, hfailure⟩ :=
      exists_of_addFiles_eq_error hsame
    obtain ⟨hmem', hkept⟩ := List.mem_filter.1 he
    obtain ⟨c', rfl⟩ : ∃ c', entry = .file c' := by
      cases entry with
      | directory => exact absurd rfl hentry
      | file c' => exact ⟨c', rfl⟩
    have hpath : pathBelow directory names = pathBelow directory names' := by
      injection hfailure
    obtain rfl := pathBelow_injective ((ht.mem_below_iff hf).1 hmem).named
      ((ht.mem_below_iff hf).1 hmem').named hpath
    simp [hstranger] at hkept
  · have hd' : ¬(t.withoutStrangers directory extension).isDirectory directory := by
      rw [FileTree.isDirectory_iff] at hd ⊢
      simpa only [hfind] using hd
    rw [scan_of_not_isDirectory hd, scan_of_not_isDirectory hd']
    exact iff_of_true rfl fun _ _ hfile => absurd hfile.opened hd

end scans

/-- Files for a place that there is not: one is a text, and one comes after a fragment
that is no text either. -/
def shieldedParts : FileTree :=
  ⟨[(["parts"], .directory), (["parts", "Board.footer.js"], .file (.text "later")),
    (["parts", "Medal.class.js"], .file (.bytes [0xff])),
    (["parts", "Medal.footer.js"], .file (.bytes [0xff, 0]))]⟩

/-- With and without them the scan stops at the fragment. -/
theorem scan_withoutStrangers_shieldedParts : shieldedParts.IsTree (⟨"parts"⟩ : Path).destination ∧
    IsStranger ".js" ["Board.footer.js"] ∧ IsStranger ".js" ["Medal.footer.js"] ∧
    (shieldedParts.withoutStrangers ⟨"parts"⟩ ".js").entries.length = 2 ∧
    scan (shieldedParts.withoutStrangers ⟨"parts"⟩ ".js") ⟨"parts"⟩ ".js" =
      scan shieldedParts ⟨"parts"⟩ ".js" := by
  have hdestination : (⟨"parts"⟩ : Path).destination = ["parts"] := by decide
  have ht : shieldedParts.IsTree (⟨"parts"⟩ : Path).destination := by
    rw [hdestination]
    exact ⟨by decide, by decide, by decide⟩
  have hfind : shieldedParts.find ⟨"parts"⟩ = .ok (["parts"], .directory) := by rfl
  have hbelow : ∀ names c, shieldedParts.FileBelow ⟨"parts"⟩ names c ↔
      (names, .file c) ∈ shieldedParts.below ["parts"] :=
    fun _ _ => ((hdestination ▸ ht).mem_below_iff hfind).symm
  refine ⟨ht, by decide, by decide, by decide, (scan_withoutStrangers_iff ht ".js").2 ?_⟩
  intro names bytes hfile hstranger
  -- The file that shields the stranger is found by its place.
  refine ⟨["Medal.class.js"], [0xff], "Medal", .members, ?_, by decide, ?_⟩
  · rw [hbelow, FileTree.mem_below]
    exact ⟨by decide, by decide⟩
  · rw [hbelow, FileTree.mem_below] at hfile
    have hentries : ∀ e ∈ shieldedParts.entries, (∃ text, e.2 = .file (.text text)) ∨
        e.2 = .directory ∨
          e.1.drop 1 = ["Medal.class.js"] ∨ e.1.drop 1 = ["Medal.footer.js"] := by
      simp [shieldedParts]
    rcases hentries _ hfile.2 with ⟨text, htext⟩ | hdirectory | h | rfl
    · cases htext
    · cases hdirectory
    · obtain rfl : names = ["Medal.class.js"] := h
      exact absurd hstranger (by decide)
    · exact ⟨[], "Medal.class.js", [], "Medal.footer.js", [], rfl, rfl, by decide⟩

/-- A file for a place that there is not, which is no text. -/
def strayPart : FileTree :=
  ⟨[(["parts"], .directory), (["parts", "Medal.footer.js"], .file (.bytes [0xff, 0]))]⟩

/-- A scan stops at the file, although it is for no place: without it the scan succeeds. -/
theorem not_scan_withoutStrangers_strayPart : strayPart.IsTree (⟨"parts"⟩ : Path).destination ∧
    IsStranger ".js" ["Medal.footer.js"] ∧
    scan (strayPart.withoutStrangers ⟨"parts"⟩ ".js") ⟨"parts"⟩ ".js" = .ok .empty ∧
    scan strayPart ⟨"parts"⟩ ".js" =
      .error (.fragmentUnreadable "Medal" ⟨"parts/Medal.footer.js"⟩ .notText) := by
  have hdestination : (⟨"parts"⟩ : Path).destination = ["parts"] := by decide
  -- The walk has one file, and none without the stranger.
  have hwalk : strayPart.below ["parts"] = [(["Medal.footer.js"], .file (.bytes [0xff, 0]))] :=
    List.mergeSort_singleton _
  refine ⟨?_, by decide, ?_, ?_⟩
  · rw [hdestination]
    exact ⟨by decide, by decide, by decide⟩
  · have hfind : (strayPart.withoutStrangers ⟨"parts"⟩ ".js").find ⟨"parts"⟩ =
        .ok (["parts"], .directory) := by
      rfl
    have hbelow : (strayPart.withoutStrangers ⟨"parts"⟩ ".js").below ["parts"] = [] := by
      rw [← hdestination, FileTree.below_withoutStrangers, hdestination, hwalk]
      decide
    rw [scan_of_find hfind, hbelow]
    rfl
  · have hfind : strayPart.find ⟨"parts"⟩ = .ok (["parts"], .directory) := by rfl
    rw [scan_of_find hfind, hwalk]
    rfl

end Catalog

end Classwright
