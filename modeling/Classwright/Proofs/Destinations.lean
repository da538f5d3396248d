import Mathlib.Data.List.Infix
import Mathlib.Data.String.Basic
import Classwright.Proofs.Reach

/-!
# Where files end up

The steps of a path lead to a key, whatever is in the tree (`Path.destination`), and on
the way they pass other keys (`Path.passed`). What is found by a path is found at its
destination (`FileTree.key_of_locate`), and making a directory or writing a file changes
nothing but what the path passes. The two grow a tree (`FileTree.Grows`): directories
stay directories, files stay files, and new files stand at the destinations only.

A destination is worked out from the steps alone. Two paths that reach one place by
different ways out of the working directory, one relative and one absolute, or one that
climbs above it, have different destinations, as they have different keys in a
`FileTree`.
-/

namespace Classwright

open Classwright.Path (IsName isStep)

namespace FileTree

/-! ## Destinations

The key of a step is that of the directory with the name behind it, or the directory
above. A path passes the directories that writing to it has to make.
-/

/-- Where a step leads from a key, whatever is there. -/
def along (key : Key) (step : String) : Key :=
  if step == ".." then above key else key ++ [step]

theorem along_up (key : Key) : along key ".." = above key :=
  if_pos (by decide)

theorem along_name (key : Key) {step : String} (h : step ≠ "..") : along key step = key ++ [step] :=
  if_neg (by simpa using h)

end FileTree

namespace Path

/-- Where a path leads, whatever is there. Relative and absolute spellings of one place,
and those that climb above the working directory, lead to different keys, and there are
no links to follow. -/
def destination (p : Path) : Key :=
  p.steps.foldl FileTree.along (FileTree.start p)

/-- The keys that a path passes, from where it starts to where it leads. -/
def passed (p : Path) : List Key :=
  p.steps.inits.map fun front => front.foldl FileTree.along (FileTree.start p)

theorem mem_passed {p : Path} {key : Key} :
    key ∈ p.passed ↔ ∃ front, front <+: p.steps ∧
    front.foldl FileTree.along (FileTree.start p) = key := by
  simp only [passed, List.mem_map, List.mem_inits]

theorem destination_mem_passed (p : Path) : p.destination ∈ p.passed :=
  mem_passed.2 ⟨p.steps, List.prefix_refl _, rfl⟩

/-- The marks of a path are on its pieces, in their order. -/
theorem map_fst_marks (p : Path) : p.marks.map Prod.fst = pieces p.text.toList := by
  unfold marks
  cases pieces p.text.toList with
  | nil => rfl
  | cons first rest => simp [Function.comp_def]

/-- Only the first piece of a path can be its root or stand for the working directory. -/
theorem leading_marks {p : Path} (h : p.text ≠ "") : Leading p.marks := by
  obtain ⟨first, rest, hp⟩ := exists_pieces_eq_cons p.text.toList
  have hslash := slash_notMem_of_mem_pieces p.text.toList
  rw [hp] at hslash
  simp only [marks, hp]
  refine ⟨?_, ?_, ?_, ?_⟩
  · simpa using hslash
  · intro m hm hnone
    rcases List.mem_cons.1 hm with rfl | hm
    · exact firstComponent?_eq_none hnone
    · obtain ⟨piece, -, rfl⟩ := List.mem_map.1 hm
      exact laterComponent?_eq_none hnone
  · intro m hm hr
    rcases List.mem_cons.1 hm with rfl | hm
    · exact firstComponent?_eq_root hr
    · obtain ⟨piece, -, rfl⟩ := List.mem_map.1 hm
      exact absurd hr (laterComponent?_ne_root piece)
  · rintro m ⟨⟩ hf
    obtain rfl : first = [] := hf
    -- An empty text alone has an empty piece with nothing after it.
    have hrest : rest ≠ [] := by
      rintro rfl
      have htext := congrArg joinPieces hp
      rw [joinPieces_pieces] at htext
      exact h (String.toList_eq_nil_iff.1 htext)
    simp [firstComponent?, hrest]

/-- The marks of a parent are those in front of the last one that stands for a
component. -/
theorem exists_marks_of_parent? {p q : Path} (h : p.parent? = some q) : ∃ ms silent m after,
    p.marks = ms ++ (silent ++ m :: after) ∧ q = ofMarks ms ∧ (∀ s ∈ silent, s.2 = none) ∧
      (∀ s ∈ after, s.2 = none) ∧ m.2.isSome ∧ m.2 ≠ some Component.root := by
  obtain ⟨after, hafter, hend⟩ := exists_dropSilentEnd p.marks
  -- The last mark with a component is taken off, with all silent ones around it.
  unfold parent? at h
  rw [dropSilentEnd] at hafter
  split at h
  · cases h
  · cases h
  · next m before hroot hm =>
    cases h
    obtain ⟨silent, hsilent, hnone⟩ := exists_dropSilentEnd before.reverse
    refine ⟨dropSilentEnd before.reverse, silent, m, after, ?_, ?_, hnone, hend, ?_, ?_⟩
    · rw [hafter, hm, List.reverse_cons, ← List.append_assoc, ← hsilent]
      simp
    · rw [dropSilentEnd, List.reverse_reverse]
    · have hhead := List.head?_dropWhile_not (fun m : Mark => m.2.isNone) p.marks.reverse
      rw [← dropSilent, hm] at hhead
      simpa using hhead
    · intro hr
      exact hroot m.1 (by rw [← hr])

/-- A path is absolute exactly if its first mark is the root. -/
theorem isAbsolute_iff_marks {p : Path} (h : p.text ≠ "") :
    p.isAbsolute ↔ ∃ rest, p.marks = ([], some .root) :: rest := by
  have hfirst := (leading_marks h).first
  rw [isAbsolute_iff]
  unfold marks at hfirst ⊢
  cases hp : pieces p.text.toList with
  | nil => exact absurd hp (pieces_ne_nil _)
  | cons first rest =>
    -- An empty first piece means that the text starts with a slash.
    have hnil : first = [] ↔ ∃ cs, p.text.toList = '/' :: cs := by
      have hpieces : (∃ rest, pieces p.text.toList = [] :: rest) ↔ _ := exists_pieces_eq_nil_cons
      rw [or_iff_right (mt String.toList_eq_nil_iff.1 h)] at hpieces
      rw [← hpieces, hp]
      simp
    rw [← hnil]
    rw [hp] at hfirst
    constructor
    · rintro rfl
      have hroot : firstComponent? [] rest = some .root := hfirst _ rfl rfl
      simp [hroot]
    · rintro ⟨after, hafter⟩
      exact congrArg Prod.fst (List.cons.inj hafter).1

/-- A path passes what its parent passes. -/
theorem passed_subset_of_parent? {p q : Path} (h : p.parent? = some q) : q.passed ⊆ p.passed := by
  obtain ⟨ms, silent, m, after, hms, rfl, hnone, -, -, hroot⟩ := exists_marks_of_parent? h
  have hne : p.text ≠ "" := by
    intro he
    have hmarks : p.marks = [([], none)] := by
      simp [marks, he, pieces, firstComponent?, laterComponent?]
    simp [parent?, hmarks, dropSilent] at h
  have hleft : Leading ms := Leading.left (hms ▸ leading_marks hne)
  have hsteps : (ofMarks ms).steps <+: p.steps := by
    rw [hleft.steps_ofMarks, steps, ← map_fst_marks, hms, List.map_append, stepsOf_append]
    exact List.prefix_append _ _
  have hstart : FileTree.start (ofMarks ms) = FileTree.start p := by
    have habsolute : (ofMarks ms).isAbsolute = p.isAbsolute := by
      rw [Bool.eq_iff_iff, hleft.isAbsolute_ofMarks, isAbsolute_iff_marks hne, hms]
      cases ms with
      | cons m' ms => simp
      | nil =>
        -- What comes first is a piece that stands for nothing, or the last one, which
        -- is not the root.
        cases silent with
        | nil =>
          have hm : m ≠ ([], some .root) := by
            rintro rfl
            exact hroot rfl
          simp [hm]
        | cons s silent =>
          have hs : s ≠ ([], some .root) := by
            rintro rfl
            exact absurd (hnone _ List.mem_cons_self) (by simp)
          simp [hs]
    rw [FileTree.start, FileTree.start, habsolute]
  intro key hkey
  obtain ⟨front, hfront, rfl⟩ := mem_passed.1 hkey
  exact mem_passed.2 ⟨front, hfront.trans hsteps, by rw [hstart]⟩

end Path

/-- The key of what was found. -/
def Location.key : Location → Key
  | .taken key _ _ => key
  | .free key _ => key

namespace FileTree

/-- Where steps reach a directory, it is the one they lead to in any tree. -/
theorem foldl_along_of_reach {t : FileTree} {found : Key} : ∀ {steps : List String} {key : Key},
    t.reach key steps = some found → steps.foldl along key = found
  | [], key, h => by simpa [reach] using h
  | step :: steps, key, h => by
    rw [List.foldl_cons]
    by_cases hup : step = ".."
    · subst hup
      rw [reach_up] at h
      rw [along_up, foldl_along_of_reach h]
    · rw [reach_name hup] at h
      rw [along_name key hup, foldl_along_of_reach h.2]

theorem Opens.destination {t : FileTree} {p : Path} {key : Key} (h : t.Opens p key) :
    p.destination = key :=
  foldl_along_of_reach h.reached

/-- Pieces are followed to the place that their steps lead to: the induction is on the
pieces, with the place of the directory at hand. -/
theorem key_of_follow {t : FileTree} {found : Location} :
    ∀ {ps : List String} {key : Key} {entry : FileEntry},
    t.follow key entry ps = .ok found → found.key = (ps.filter isStep).foldl along key
  | [], key, entry, h => by
    cases h
    rfl
  | p :: ps, key, .file c, h => by
    -- A file may be followed by slashes only, which make no step.
    rw [follow] at h
    split at h
    · next hblank =>
      cases h
      rw [filter_isStep_of_all_empty hblank]
      rfl
    · cases h
  | p :: ps, key, .directory, h => by
    -- A piece makes no step, or leads up, or leads to an entry.
    rcases piece_cases p with hp | rfl | ⟨hp, hup⟩
    · rw [List.filter_cons_of_neg (by simp [hp])]
      rw [follow_silent hp] at h
      split at h
      · next he =>
        cases h
        rw [List.isEmpty_iff.1 he]
        rfl
      · exact key_of_follow h
    · rw [filter_isStep_up, List.foldl_cons, along_up]
      exact key_of_follow (follow_up ▸ h)
    · rw [List.filter_cons_of_pos hp, List.foldl_cons, along_name key hup]
      rw [follow_name hp hup] at h
      split at h
      · exact key_of_follow h
      · split at h
        · next hblank =>
          -- The place that is left free is the last one.
          cases h
          rw [filter_isStep_of_all_empty hblank]
          rfl
        · cases h

/-- What is found by a path is found at its destination. -/
theorem key_of_locate {t : FileTree} {p : Path} {found : Location} (h : t.locate p = .ok found) :
    found.key = p.destination := by
  obtain ⟨hne, hc⟩ := locate_eq_ok h
  rw [locate_eq t hne hc] at h
  rw [key_of_follow h, filter_followed, Path.destination]

/-- A file that pieces are followed to is in the tree. -/
theorem get?_of_follow_file {t : FileTree} {found : Key} {c : Contents} {slash : Bool} :
    ∀ {ps : List String} {key : Key},
    t.follow key .directory ps = .ok (.taken found (.file c) slash) →
      t.get? found = some (.file c)
  | [], _, h => by cases h
  | p :: ps, key, h => by
    -- A piece makes no step, or leads up, or leads to an entry.
    rcases piece_cases p with hp | rfl | ⟨hp, hup⟩
    · rw [follow_silent hp] at h
      split at h
      · cases h
      · exact get?_of_follow_file h
    · rw [follow_up] at h
      exact get?_of_follow_file h
    · rw [follow_name hp hup] at h
      split at h
      · next entry hf =>
        cases entry with
        | directory => exact get?_of_follow_file h
        | file c' =>
          cases ps with
          | nil =>
            cases h
            exact hf
          | cons p' ps =>
            cases follow_file_eq_ok h
            exact hf
      · split at h <;> cases h

/-- A file that a path is found to name is in the tree. -/
theorem get?_of_locate_file {t : FileTree} {p : Path} {found : Key} {c : Contents} {slash : Bool}
    (h : t.locate p = .ok (.taken found (.file c) slash)) : t.get? found = some (.file c) := by
  obtain ⟨hne, hc⟩ := locate_eq_ok h
  rw [locate_eq t hne hc] at h
  exact get?_of_follow_file h

/-- A place that a path is found to leave free is not in the tree. -/
theorem get?_of_locate_free {t : FileTree} {p : Path} {found : Key} {slash : Bool}
    (h : t.locate p = .ok (.free found slash)) : t.get? found = none := by
  obtain ⟨hne, hc⟩ := locate_eq_ok h
  rw [locate_eq t hne hc] at h
  exact get?_of_follow_free h

/-- What a file holds does not matter for what is found. -/
theorem follow_other_file {t t' : FileTree} {key found : Key} {c c' c'' : Contents} {slash : Bool}
    {ps : List String} (h : t.follow key (.file c) ps = .ok (.taken found (.file c'') slash)) :
    t'.follow key (.file c') ps = .ok (.taken found (.file c') slash) := by
  cases ps with
  | nil =>
    cases h
    rfl
  | cons p ps =>
    rw [follow] at h ⊢
    split at h
    · next hblank =>
      cases h
      rw [if_pos hblank]
    · cases h

/-! ## Files below a directory

Putting an entry elsewhere leaves the sorted list of the files below a directory as it
is.
-/

/-- The order of the walk is transitive. -/
theorem keyAtMost_trans : ∀ {a b c : Key}, keyAtMost a b → keyAtMost b c → keyAtMost a c
  | [], _, _, _, _ => by rw [keyAtMost]
  | _ :: _, [], _, h, _ => by simp [keyAtMost] at h
  | _ :: _, _ :: _, [], _, h => by simp [keyAtMost] at h
  | x :: as, y :: bs, z :: cs, h, h' => by
    unfold keyAtMost at h h' ⊢
    -- The first names decide, unless they are equal.
    by_cases hxy : x = y
    · subst hxy
      by_cases hxz : x = z
      · subst hxz
        simp only [beq_self_eq_true, if_true] at h h' ⊢
        exact keyAtMost_trans h h'
      · simpa [hxz] using h'
    · by_cases hyz : y = z
      · subst hyz
        simpa [hxy] using h
      · simp only [beq_iff_eq, hxy, hyz, if_false, decide_eq_true_eq] at h h'
        have hlt : x < z := lt_trans h h'
        simp [hlt, hlt.ne]

/-- The order of the walk is total, so that sorting by it is well defined. -/
theorem keyAtMost_total : ∀ a b : Key, (keyAtMost a b || keyAtMost b a) = true
  | [], _ => by simp [keyAtMost]
  | _ :: _, [] => by simp [keyAtMost]
  | x :: as, y :: bs => by
    have ih := keyAtMost_total as bs
    unfold keyAtMost
    rcases lt_trichotomy x y with h | rfl | h
    · simp [h, h.ne]
    · simpa using ih
    · simp [h, h.ne]

/-- Where a list is split between elements with a property and elements without it, the
first part is known. -/
theorem eq_of_append_eq {α : Type} {q : α → Bool} {l₁ l₂ m₁ m₂ : List α} (h : l₁ ++ l₂ = m₁ ++ m₂)
    (hl₁ : ∀ x ∈ l₁, q x) (hl₂ : ∀ x ∈ l₂, ¬q x) (hm₁ : ∀ x ∈ m₁, q x) (hm₂ : ∀ x ∈ m₂, ¬q x) :
    l₁ = m₁ ∧ l₂ = m₂ := by
  have hfirst : l₁ = m₁ := by
    have hf := congrArg (List.filter q) h
    rwa [List.filter_append, List.filter_append, List.filter_eq_self.2 hl₁,
      List.filter_eq_self.2 hm₁, List.filter_eq_nil_iff.2 hl₂, List.filter_eq_nil_iff.2 hm₂,
      List.append_nil, List.append_nil] at hf
  exact ⟨hfirst, List.append_cancel_left (hfirst ▸ h)⟩

/-- Sorting keeps equals in order, so it does not matter whether one sorts or drops
elements first. -/
theorem filter_mergeSort {α : Type} {le : α → α → Bool} (htrans : ∀ a b c, le a b → le b c → le a c)
    (htotal : ∀ a b, (le a b || le b a) = true) (p : α → Bool) :
    ∀ l : List α, (l.mergeSort le).filter p = (l.filter p).mergeSort le
  | [] => by simp
  | a :: l => by
    have ih := filter_mergeSort htrans htotal p l
    -- Sorting puts the first element between those that are not above it and those
    -- above.
    obtain ⟨l₁, l₂, hal, hl, hl₁⟩ := List.mergeSort_cons htrans htotal a l
    by_cases hp : p a
    · obtain ⟨m₁, m₂, ham, hm, hm₁⟩ := List.mergeSort_cons htrans htotal a (l.filter p)
      -- What comes after the element is not below it.
      have hafter : ∀ {k : List α} {k₁ k₂ : List α}, (a :: k).mergeSort le = k₁ ++ a :: k₂ →
          ∀ x ∈ k₂, le a x := by
        intro k k₁ k₂ hk x hx
        have hsorted := List.pairwise_mergeSort htrans htotal (a :: k)
        rw [hk, List.pairwise_append, List.pairwise_cons] at hsorted
        exact hsorted.2.1.1 x hx
      -- Without the element the two ways to sort agree by induction.
      have hsplit : l₁.filter p ++ l₂.filter p = m₁ ++ m₂ := by
        rw [← List.filter_append, ← hl, ih, hm]
      obtain ⟨h₁, h₂⟩ := eq_of_append_eq (q := fun x => !le a x) hsplit
        (fun x hx => hl₁ x (List.mem_of_mem_filter hx))
        (fun x hx => by simpa using hafter hal x (List.mem_of_mem_filter hx)) hm₁
        (fun x hx => by simpa using hafter ham x hx)
      rw [List.filter_cons_of_pos hp, hal, ham, List.filter_append,
        List.filter_cons_of_pos hp, h₁, h₂]
    · rw [List.filter_cons_of_neg hp, ← ih, hal, hl, List.filter_append, List.filter_append,
        List.filter_cons_of_neg hp]

/-- Whether a key lies inside a directory. -/
def Inside (key dir : Key) : Prop :=
  dir <+: key ∧ dir.length < key.length

instance (key dir : Key) : Decidable (Inside key dir) :=
  inferInstanceAs (Decidable (_ ∧ _))

/-- The files below a directory, with their names from there on, in the order of a walk
through it. -/
def filesBelow (t : FileTree) (dir : Key) : List (Key × FileEntry) :=
  (t.below dir).filter fun e => e.2 != .directory

/-- The files below a directory, as the sorted list of the entries inside it. -/
theorem filesBelow_eq (t : FileTree) (dir : Key) : t.filesBelow dir =
    ((t.entries.filter fun e => e.2 != .directory && decide (Inside e.1 dir)).map fun e =>
      (e.1.drop dir.length, e.2)).mergeSort fun a b => keyAtMost a.1 b.1 := by
  have htrans : ∀ a b c : Key × FileEntry, keyAtMost a.1 b.1 → keyAtMost b.1 c.1 →
      keyAtMost a.1 c.1 :=
    fun _ _ _ => keyAtMost_trans
  have htotal : ∀ a b : Key × FileEntry, (keyAtMost a.1 b.1 || keyAtMost b.1 a.1) = true :=
    fun _ _ => keyAtMost_total _ _
  rw [filesBelow, below, filter_mergeSort htrans htotal, List.filter_map, List.filter_filter]
  congr 2
  refine List.filter_congr fun e _ => ?_
  rw [Bool.eq_iff_iff]
  simp only [Function.comp_apply, Bool.and_eq_true, decide_eq_true_eq, List.isPrefixOf_iff_prefix]
  exact Iff.rfl

/-- An entry that does not count for a filter may be put anywhere. -/
theorem filter_putEntry {key : Key} {entry : FileEntry} {p : Key × FileEntry → Bool}
    (hnew : p (key, entry) = false) :
    ∀ {entries : List (Key × FileEntry)}, (∀ e ∈ entries, e.1 = key → p e = false) →
      (putEntry key entry entries).filter p = entries.filter p
  | [], _ => by simp [putEntry, hnew]
  | e :: rest, h => by
    obtain ⟨hfirst, hrest⟩ := List.forall_mem_cons.1 h
    have ih := filter_putEntry hnew hrest
    obtain ⟨k, old⟩ := e
    rw [putEntry]
    by_cases hk : k = key
    · subst hk
      rw [if_pos (by simp), List.filter_cons_of_neg (by simp [hnew]),
        List.filter_cons_of_neg (by simp [hfirst rfl])]
    · rw [if_neg (by simpa using hk), List.filter_cons, List.filter_cons, ih]

/-- An entry that is no file inside a directory, in the place of one that is none, does
not change what is below. -/
theorem filesBelow_set {t : FileTree} {key dir : Key} {entry : FileEntry}
    (h : Inside key dir → entry = .directory ∧ t.get? key = none) :
    (t.set key entry).filesBelow dir = t.filesBelow dir := by
  rw [filesBelow_eq, filesBelow_eq, set]
  congr 2
  refine filter_putEntry ?_ fun e he hk => ?_
  · by_cases hin : Inside key dir
    · simp [(h hin).1]
    · simp [hin]
  · by_cases hin : Inside key dir
    · have hnone := (h hin).2
      rw [get?_of_not_isGiven t (isGiven_of_get?_eq_none hnone), Option.map_eq_none_iff,
        List.find?_eq_none] at hnone
      exact absurd (hk ▸ beq_self_eq_true e.1) (hnone e he)
    · simp [hk, hin]

/-! ## Growing trees

The relation has the keys of directories that may be made and of files that may be
written as parameters, so growths one after the other compose.
-/

/-- The contents of the file at a key. -/
def contents? (t : FileTree) (key : Key) : Option Contents :=
  match t.get? key with
  | some (.file c) => some c
  | _ => none

/-- What making directories at some keys and writing files at others does to a tree. -/
structure Grows (made written : List Key) (t t' : FileTree) : Prop where
  /-- Directories stay directories. -/
  directory : ∀ {key}, t.get? key = some .directory → t'.get? key = some .directory
  /-- Files stay files. -/
  file : ∀ {key c}, t.get? key = some (.file c) → ∃ c', t'.get? key = some (.file c')
  /-- What is elsewhere stays as it is. -/
  elsewhere : ∀ {key}, key ∉ made → key ∉ written → t'.get? key = t.get? key
  /-- The files that are not written stay as they are. -/
  contents : ∀ {key}, key ∉ written → t'.contents? key = t.contents? key
  /-- A walk through a directory inside which nothing is written finds the same files. -/
  filesBelow : ∀ {dir}, (∀ key ∈ written, ¬Inside key dir) → t'.filesBelow dir = t.filesBelow dir

namespace Grows

variable {made made' written written' : List Key} {t t' t'' : FileTree}

theorem refl (made written : List Key) (t : FileTree) : t.Grows made written t :=
  ⟨id, fun h => ⟨_, h⟩, fun _ _ => rfl, fun _ => rfl, fun _ => rfl⟩

/-- Growing twice is growing by what was made and written either time. -/
theorem trans (h : Grows made written t t') (h' : Grows made' written' t' t'') :
    Grows (made ++ made') (written ++ written') t t'' where
  directory hd := h'.directory (h.directory hd)
  file hf := by
    obtain ⟨c, hc⟩ := h.file hf
    exact h'.file hc
  elsewhere hm hw := by
    rw [List.mem_append, not_or] at hm hw
    rw [h'.elsewhere hm.2 hw.2, h.elsewhere hm.1 hw.1]
  contents hw := by
    rw [List.mem_append, not_or] at hw
    rw [h'.contents hw.2, h.contents hw.1]
  filesBelow hw := by
    rw [List.forall_mem_append] at hw
    rw [h'.filesBelow hw.2, h.filesBelow hw.1]

/-- A tree that grows by little grows by more. -/
theorem mono (h : Grows made written t t') (hm : made ⊆ made') (hw : written ⊆ written') :
    Grows made' written' t t' where
  directory := h.directory
  file := h.file
  elsewhere hk hk' := h.elsewhere (fun hmem => hk (hm hmem)) fun hmem => hk' (hw hmem)
  contents hk := h.contents fun hmem => hk (hw hmem)
  filesBelow hk := h.filesBelow fun key hmem => hk key (hw hmem)

/-- Making a directory where nothing is. -/
theorem set_directory {key : Key} (h : t.get? key = none) :
    t.Grows [key] [] (t.set key .directory) := by
  -- The place was free, so nothing else has changed.
  have hset := t.get?_set (isGiven_of_get?_eq_none h) .directory
  have hne : ∀ {other entry}, t.get? other = some entry → key ≠ other := by
    rintro other entry ho rfl
    rw [h] at ho
    cases ho
  constructor
  · intro other ho
    rw [hset, if_neg (hne ho), ho]
  · intro other c ho
    exact ⟨c, by rw [hset, if_neg (hne ho), ho]⟩
  · intro other hm _
    rw [hset, if_neg (by simpa [eq_comm] using hm)]
  · intro other _
    by_cases ho : key = other
    · subst ho
      simp [contents?, hset, h]
    · rw [contents?, contents?, hset, if_neg ho]
  · intro dir _
    exact filesBelow_set fun _ => ⟨rfl, h⟩

/-- Writing a file where no directory is. -/
theorem set_file {key : Key} (hg : isGiven key = false) (h : t.get? key ≠ some .directory)
    (c : Contents) :
    t.Grows [] [key] (t.set key (.file c)) := by
  -- Only the place of the file has changed, and it was no directory.
  have hset := t.get?_set hg (.file c)
  constructor
  · intro other ho
    rw [hset, if_neg, ho]
    rintro rfl
    exact h ho
  · intro other c' ho
    by_cases hk : key = other
    · exact ⟨c, by rw [hset, if_pos hk]⟩
    · exact ⟨c', by rw [hset, if_neg hk, ho]⟩
  · intro other _ hw
    rw [hset, if_neg (by simpa [eq_comm] using hw)]
  · intro other hw
    rw [contents?, contents?, hset, if_neg (by simpa [eq_comm] using hw)]
  · intro dir hw
    exact filesBelow_set fun hin => absurd hin (hw key List.mem_cons_self)

/-- Where only files are written that were there, everything else stays as it is. -/
theorem reach_eq_some (h : Grows made written t t') {found : Key} :
    ∀ {steps : List String} {key : Key},
    t.reach key steps = some found → t'.reach key steps = some found
  | [], _, hr => hr
  | step :: steps, key, hr => by
    by_cases hup : step = ".."
    · subst hup
      rw [reach_up] at hr ⊢
      exact h.reach_eq_some hr
    · rw [reach_name hup] at hr ⊢
      exact ⟨h.directory hr.1, h.reach_eq_some hr.2⟩

/-- A directory that a path leads to stays there. -/
theorem opens (h : Grows made written t t') {p : Path} {dir : Key} (ho : t.Opens p dir) :
    t'.Opens p dir :=
  ⟨ho.clean, h.reach_eq_some ho.reached⟩

/-- Directories stay when a tree grows. -/
theorem isDirectory (h : Grows made written t t') {p : Path} (hd : t.isDirectory p) :
    t'.isDirectory p := by
  obtain ⟨dir, hf⟩ := isDirectory_iff.1 hd
  obtain ⟨_, hl⟩ := find_eq_ok_directory.1 hf
  exact isDirectory_iff.2 ⟨dir, (h.opens (opens_of_find hf)).find (locate_eq_ok hl).1⟩

/-- What leads to a file still does when the tree grows, whatever has been written to
it. -/
theorem follow_file (h : Grows made written t t') {found : Key} {c : Contents} {slash : Bool} :
    ∀ {ps : List String} {key : Key},
    t.follow key .directory ps = .ok (.taken found (.file c) slash) →
      ∃ c', t'.follow key .directory ps = .ok (.taken found (.file c') slash)
  | [], _, hf => by cases hf
  | p :: ps, key, hf => by
    -- A piece makes no step, or leads up, or leads to an entry, which is still there.
    rcases piece_cases p with hp | rfl | ⟨hp, hup⟩
    · rw [follow_silent hp] at hf ⊢
      split at hf
      · cases hf
      · next hne =>
        rw [if_neg hne]
        exact h.follow_file hf
    · rw [follow_up] at hf ⊢
      exact h.follow_file hf
    · rw [follow_name hp hup] at hf ⊢
      split at hf
      · next entry he =>
        cases entry with
        | directory =>
          rw [h.directory he]
          exact h.follow_file hf
        | file c' =>
          obtain ⟨c'', hc''⟩ := h.file he
          rw [hc'']
          exact ⟨c'', follow_other_file hf⟩
      · split at hf <;> cases hf

/-- A file that a path leads to stays there, with what is written to it. -/
theorem locate_file (h : Grows made written t t') {p : Path} {found : Key} {c : Contents}
    {slash : Bool} (hl : t.locate p = .ok (.taken found (.file c) slash)) :
    ∃ c', t'.locate p = .ok (.taken found (.file c') slash) := by
  obtain ⟨hne, hc⟩ := locate_eq_ok hl
  rw [locate_eq t hne hc] at hl
  obtain ⟨c', hc'⟩ := h.follow_file hl
  exact ⟨c', by rw [locate_eq t' hne hc, hc']⟩

end Grows

end FileTree

end Classwright
