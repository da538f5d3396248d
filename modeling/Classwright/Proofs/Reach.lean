import Classwright.FileTree
import Classwright.Proofs.Outcome
import Classwright.Proofs.Steps

/-!
# Where paths lead

The steps of a path lead from directory to directory (`FileTree.reach`). A path that
leads to a directory (`Opens`) has the names in it as its children
(`FileTree.locate_child`), and keeps leading there as long as the entries of the
directories on the way are not touched (`FileTree.Opens.of_agreesOff`).

Following a path is a recursion over its pieces, in which a piece may be silent, go up
or go down, and several things can fail. `FileTree.reach` keeps the steps only and the
directories that they lead to; where it leads somewhere, following the path comes to the
same directory (`FileTree.follow_of_reach`), and the other way round
(`FileTree.reach_of_follow`).
-/

namespace Classwright.FileTree

open Classwright.Path (IsName isStep)

/-! ## Entries

A key is looked up in a list of entries, of which the first one counts. Putting an entry
changes what is found at its key only.
-/

theorem get?_of_not_isGiven (t : FileTree) {key : Key} (h : isGiven key = false) :
    t.get? key = (t.entries.find? fun e => e.1 == key).map Prod.snd := by
  simp [get?, h]

/-- Putting an entry replaces the one of the same place. -/
theorem find?_putEntry (key key' : Key) (entry : FileEntry) : ∀ entries : List (Key × FileEntry),
    ((putEntry key entry entries).find? fun e => e.1 == key').map Prod.snd =
      if key = key' then some entry else (entries.find? fun e => e.1 == key').map Prod.snd
  | [] => by by_cases h : key = key' <;> simp [putEntry, h]
  | (k, e) :: rest => by
    have ih := find?_putEntry key key' entry rest
    by_cases hk : k = key
    · subst hk
      by_cases h : k = key' <;> simp [putEntry, h]
    · rw [putEntry, if_neg (by simpa using hk)]
      by_cases h : k = key'
      · subst h
        simp [Ne.symm hk]
      · simp [h, ih]

/-- Setting an entry changes its place only. -/
theorem get?_set (t : FileTree) {key : Key} (h : isGiven key = false) (entry : FileEntry)
    (key' : Key) :
    (t.set key entry).get? key' = if key = key' then some entry else t.get? key' := by
  unfold get? set
  by_cases hg : isGiven key'
  · have hne : key ≠ key' := by
      rintro rfl
      simp [h] at hg
    simp [hg, hne]
  · simp [hg, find?_putEntry]

/-- Erasing leaves all places outside. -/
theorem get?_erase (t : FileTree) {key key' : Key} (h : ¬key <+: key') :
    (t.erase key).get? key' = t.get? key' := by
  unfold get? erase
  split
  · rfl
  · have hp : key.isPrefixOf key' = false := by
      rwa [← Bool.not_eq_true, List.isPrefixOf_iff_prefix]
    rw [List.find?_filter]
    congr 2
    funext e
    by_cases he : e.1 = key'
    · simp [he, hp]
    · simp [he]

/-- A place is empty after its entry has been erased. -/
theorem get?_erase_self (t : FileTree) {key : Key} (h : isGiven key = false) :
    (t.erase key).get? key = none := by
  rw [get?_of_not_isGiven _ h, erase, Option.map_eq_none_iff, List.find?_filter, List.find?_eq_none]
  intro e _
  by_cases he : e.1 = key <;> simp [he]

/-- Whether two trees have the same entries except at a key and below it. -/
def AgreesOff (t t' : FileTree) (key : Key) : Prop :=
  ∀ other, ¬key <+: other → t'.get? other = t.get? other

/-- Setting an entry leaves the places elsewhere. -/
theorem agreesOff_set (t : FileTree) {key : Key} (h : isGiven key = false) (entry : FileEntry) :
    t.AgreesOff (t.set key entry) key := by
  intro other hne
  rw [t.get?_set h, if_neg]
  rintro rfl
  exact hne (List.prefix_refl key)

theorem agreesOff_erase (t : FileTree) (key : Key) : t.AgreesOff (t.erase key) key :=
  fun _ => t.get?_erase

/-! ## Directories

What `Opens` says of a path is all that the files below it depend on: it has no zero
character, and its steps reach a directory.
-/

/-- The directory that steps lead to from another one. -/
def reach (t : FileTree) (key : Key) : List String → Option Key
  | [] => some key
  | step :: rest =>
    if step == ".." then reach t (above key) rest
    else
      match t.get? (key ++ [step]) with
      | some .directory => reach t (key ++ [step]) rest
      | _ => none

/-- The directory at which a path starts. -/
def start (p : Path) : Key :=
  if p.isAbsolute then ["/"] else []

/-- Whether a path leads to a directory; the empty path leads to the working directory. -/
structure Opens (t : FileTree) (p : Path) (key : Key) : Prop where
  /-- The path can be looked up. -/
  clean : p.IsClean
  /-- The steps of the path lead to the directory. -/
  reached : t.reach (start p) p.steps = some key

theorem Opens.of_sameSteps {t : FileTree} {p q : Path} {key : Key} (h : t.Opens p key)
    (hs : p.SameSteps q) :
    t.Opens q key :=
  ⟨hs.clean h.clean, by rw [start, ← hs.absolute, ← hs.steps]; exact h.reached⟩

/-- What is at a key, as the outcome of a search. -/
def locationOf (t : FileTree) (key : Key) : Location :=
  match t.get? key with
  | some entry => .taken key entry false
  | none => .free key false

/-! ## Following one piece

The three kinds of pieces, and what they do to the key.
-/

section follow

variable {t : FileTree} {key : Key} {piece : String} {rest : List String}

/-- A piece that makes no step is passed over. -/
theorem follow_silent (h : isStep piece = false) : t.follow key .directory (piece :: rest) =
    if rest.isEmpty then .ok (.taken key .directory true) else t.follow key .directory rest := by
  have hp : (piece == "" || piece == ".") = true := by
    simpa [isStep, Classical.or_iff_not_imp_left] using h
  rw [follow, if_pos hp]

theorem follow_up :
    t.follow key .directory (".." :: rest) = t.follow (above key) .directory rest := by
  rw [follow, if_neg (by decide), if_pos (by decide)]

/-- A name is followed to the entry of that name, or leaves it free if it comes last. -/
theorem follow_name (h : isStep piece) (hup : piece ≠ "..") :
    t.follow key .directory (piece :: rest) =
    match t.get? (key ++ [piece]) with
    | some found => t.follow (key ++ [piece]) found rest
    | none =>
      if rest.all (· == "") then .ok (.free (key ++ [piece]) !rest.isEmpty)
        else .error .notFound := by
  have hp : (piece == "" || piece == ".") = false := by simpa [isStep] using h
  rw [follow]
  exact (if_neg (by simp [hp])).trans (if_neg (by simpa using hup))

theorem reach_up : t.reach key (".." :: rest) = t.reach (above key) rest := by
  rw [reach, if_pos (by decide)]

/-- A step down goes on from a directory of that name. -/
theorem reach_name (hup : piece ≠ "..") {dir : Key} : t.reach key (piece :: rest) = some dir ↔
    t.get? (key ++ [piece]) = some .directory ∧ t.reach (key ++ [piece]) rest = some dir := by
  rw [reach, if_neg (by simpa using hup)]
  split
  · next h => simp [h]
  · next h =>
    constructor
    · intro hn
      cases hn
    · exact fun hd => absurd hd.1 h

/-- A piece counts for nothing, leads upwards, or is a name. -/
theorem piece_cases (piece : String) :
    isStep piece = false ∨ piece = ".." ∨ isStep piece ∧ piece ≠ ".." := by
  by_cases hup : piece = ".."
  · exact Or.inr (Or.inl hup)
  · cases h : isStep piece
    · exact Or.inl rfl
    · exact Or.inr (Or.inr ⟨rfl, hup⟩)

theorem filter_isStep_up : (".." :: rest).filter isStep = ".." :: rest.filter isStep :=
  List.filter_cons_of_pos (by decide)

/-- Nothing is below a file; only slashes may follow it. -/
theorem follow_file_eq_ok {c : Contents} {found : Location}
    (h : t.follow key (.file c) (piece :: rest) = .ok found) :
    found = .taken key (.file c) true := by
  rw [follow] at h
  split at h
  · cases h
    rfl
  · cases h

end follow

/-- A name behind a path is looked up in the directory that the path reaches. -/
theorem follow_append (t : FileTree) {dir : Key} {name : String} (hn : IsName name) :
    ∀ {ps : List String} {key : Key}, t.reach key (ps.filter isStep) = some dir →
      t.follow key .directory (ps ++ [name]) = .ok (t.locationOf (dir ++ [name]))
  | [], key, h => by
    obtain rfl : key = dir := by simpa [reach] using h
    rw [List.nil_append, follow_name hn.step hn.up, locationOf]
    cases t.get? (key ++ [name]) with
    | none => rfl
    | some entry => cases entry <;> rfl
  | p :: ps, key, h => by
    rw [List.cons_append]
    -- A piece makes no step, or leads up, or leads to an entry.
    rcases piece_cases p with hp | rfl | ⟨hp, hup⟩
    · rw [List.filter_cons_of_neg (by simp [hp])] at h
      rw [follow_silent hp, if_neg (by simp), follow_append t hn h]
    · rw [filter_isStep_up, reach_up] at h
      rw [follow_up, follow_append t hn h]
    · rw [List.filter_cons_of_pos hp, reach_name hup] at h
      rw [follow_name hp hup, h.1]
      exact follow_append t hn h.2

/-- Steps lead to the directory that is found. -/
theorem reach_of_follow (t : FileTree) {dir : Key} {slash : Bool} :
    ∀ {ps : List String} {key : Key},
    t.follow key .directory ps = .ok (.taken dir .directory slash) →
    t.reach key (ps.filter isStep) = some dir
  | [], key, h => by
    cases h
    rfl
  | p :: ps, key, h => by
    -- A piece makes no step, or leads up, or leads to an entry.
    rcases piece_cases p with hp | rfl | ⟨hp, hup⟩
    · rw [List.filter_cons_of_neg (by simp [hp])]
      rw [follow_silent hp] at h
      split at h
      · next he =>
        cases h
        rw [List.isEmpty_iff.1 he]
        rfl
      · exact reach_of_follow t h
    · rw [filter_isStep_up, reach_up]
      exact reach_of_follow t (follow_up ▸ h)
    · rw [List.filter_cons_of_pos hp, reach_name hup]
      rw [follow_name hp hup] at h
      split at h
      · next found hf =>
        cases found with
        | directory => exact ⟨hf, reach_of_follow t h⟩
        | file c =>
          cases ps with
          | nil => cases h
          | cons p' ps => cases follow_file_eq_ok h
      · split at h <;> cases h

/-- What is found at the end of steps that lead to a directory. -/
theorem follow_of_reach (t : FileTree) {dir : Key} : ∀ {ps : List String} {key : Key},
    t.reach key (ps.filter isStep) = some dir → ∃ slash,
    t.follow key .directory ps = .ok (.taken dir .directory slash)
  | [], key, h => by
    obtain rfl : key = dir := by simpa [reach] using h
    exact ⟨false, rfl⟩
  | p :: ps, key, h => by
    -- A piece makes no step, or leads up, or leads to an entry.
    rcases piece_cases p with hp | rfl | ⟨hp, hup⟩
    · rw [List.filter_cons_of_neg (by simp [hp])] at h
      rw [follow_silent hp]
      split
      · next he =>
        rw [List.isEmpty_iff.1 he] at h
        obtain rfl : key = dir := by simpa [reach] using h
        exact ⟨true, rfl⟩
      · exact follow_of_reach t h
    · rw [filter_isStep_up, reach_up] at h
      rw [follow_up]
      exact follow_of_reach t h
    · rw [List.filter_cons_of_pos hp, reach_name hup] at h
      rw [follow_name hp hup, h.1]
      exact follow_of_reach t h.2

/-! ## Looking paths up

A path is looked up by following its pieces from the directory it starts at. A slash at
its end asks for a directory.
-/

/-- The pieces of a path that are followed from where it starts. -/
def followed (p : Path) : List String :=
  ((Path.pieces p.text.toList).map String.ofList).drop (if p.isAbsolute then 1 else 0)

/-- A clean path is located by following its pieces. -/
theorem locate_eq (t : FileTree) {p : Path} (hne : p.text ≠ "") (hc : p.IsClean) :
    t.locate p = t.follow (start p) .directory (followed p) := by
  have hn : p.text.toList.contains '\x00' = false := by
    simpa [Path.IsClean] using hc
  rw [locate, if_neg (by simpa [Path.isEmpty] using hne), if_neg (by simp only [hn]; decide)]
  unfold start followed
  cases p.isAbsolute <;> rfl

/-- The pieces of a path that make a step are its steps. -/
theorem filter_followed (p : Path) : (followed p).filter isStep = p.steps := by
  unfold followed Path.steps Path.stepsOf
  cases h : p.isAbsolute with
  | false => rfl
  | true =>
    obtain ⟨cs, hcs⟩ := Path.isAbsolute_iff.1 h
    simp [hcs, Path.pieces, isStep]

theorem text_child_ne_empty (p : Path) {name : String} (hn : IsName name) :
    (p.child name).text ≠ "" := by
  intro he
  rcases p.text_child hn.slash with ⟨-, hc⟩ | ⟨cs, -, hc⟩
  · rw [he] at hc
    exact hn.toList_ne_nil hc.symm
  · simp [he] at hc

/-- A child is followed like its parent and then by name. -/
theorem followed_child (p : Path) {name : String} (hn : IsName name) :
    ∃ ps, followed (p.child name) = ps ++ [name] ∧ ps.filter isStep = p.steps := by
  obtain ⟨ps, hc, hs, ha⟩ := p.exists_pieces_child hn
  unfold followed
  rw [hc, p.isAbsolute_child hn]
  cases h : p.isAbsolute with
  | false => exact ⟨ps.map String.ofList, by simp, hs⟩
  | true =>
    obtain ⟨rest, rfl⟩ := ha.1 h
    refine ⟨rest.map String.ofList, by simp, ?_⟩
    rw [← hs]
    simp [Path.stepsOf, isStep]

/-- A name below a path that leads to a directory is looked up in that directory. -/
theorem locate_child {t : FileTree} {p : Path} {dir : Key} (h : t.Opens p dir) {name : String}
    (hn : IsName name) : t.locate (p.child name) = .ok (t.locationOf (dir ++ [name])) := by
  obtain ⟨ps, hf, hs⟩ := followed_child p hn
  rw [locate_eq t (text_child_ne_empty p hn) ((Path.isClean_child hn).2 h.clean), hf, start,
    p.isAbsolute_child hn]
  exact follow_append t hn (hs ▸ h.reached)

/-- Only a clean path that is not empty can be located. -/
theorem locate_eq_ok {t : FileTree} {p : Path} {found : Location} (h : t.locate p = .ok found) :
    p.text ≠ "" ∧ p.IsClean := by
  unfold locate at h
  split at h
  · cases h
  · next hne =>
    split at h
    · cases h
    · next hc => exact ⟨by simpa [Path.isEmpty] using hne, by simpa [Path.IsClean] using hc⟩

/-- A path finds a directory if it is located at one. -/
theorem find_eq_ok_directory {t : FileTree} {p : Path} {dir : Key} :
    t.find p = .ok (dir, .directory) ↔ ∃ slash, t.locate p = .ok (.taken dir .directory slash) := by
  unfold find
  cases t.locate p with
  | error fault => simp [bind, Except.bind]
  | ok found =>
    cases found with
    | free key slash => simp [bind, Except.bind]
    | taken key entry slash =>
      cases entry with
      | directory => simp [bind, Except.bind, pure, Except.pure]
      | file c => cases slash <;> simp [bind, Except.bind, pure, Except.pure]

/-- A path that finds a directory opens it. -/
theorem opens_of_find {t : FileTree} {p : Path} {dir : Key} (h : t.find p = .ok (dir, .directory)) :
    t.Opens p dir := by
  obtain ⟨slash, h⟩ := find_eq_ok_directory.1 h
  obtain ⟨hne, hc⟩ := locate_eq_ok h
  rw [locate_eq t hne hc] at h
  exact ⟨hc, filter_followed p ▸ reach_of_follow t h⟩

theorem Opens.find {t : FileTree} {p : Path} {dir : Key} (h : t.Opens p dir) (hne : p.text ≠ "") :
    t.find p = .ok (dir, .directory) := by
  obtain ⟨slash, hf⟩ := follow_of_reach t (filter_followed p ▸ h.reached)
  exact find_eq_ok_directory.2 ⟨slash, by rw [locate_eq t hne h.clean, hf]⟩

/-! ## Files in a directory

The operations on a file by its name, in terms of the entry under the name.
-/

/-- What is at a path. -/
def entryAt? (t : FileTree) (p : Path) : Option FileEntry :=
  (t.find p).toOption.map Prod.snd

section child

variable {t : FileTree} {p q : Path} {dir : Key} {name : String} {c : Contents}

/-- The place of a named entry is not always there. -/
theorem isGiven_append (dir : Key) (hn : IsName name) : isGiven (dir ++ [name]) = false := by
  have hslash : name ≠ "/" := by
    rintro rfl
    exact hn.slash (by decide)
  cases dir <;> simp [isGiven, hn.up, hslash]

/-- A child is found where the directory has an entry of its name. -/
theorem find_child (h : t.Opens p dir) (hn : IsName name) : t.find (p.child name) =
    match t.get? (dir ++ [name]) with
    | some entry => .ok (dir ++ [name], entry)
    | none => .error .notFound := by
  rw [find, locate_child h hn, locationOf]
  cases t.get? (dir ++ [name]) with
  | none => rfl
  | some entry => cases entry <;> rfl

theorem entryAt?_child (h : t.Opens p dir) (hn : IsName name) :
    t.entryAt? (p.child name) = t.get? (dir ++ [name]) := by
  rw [entryAt?, find_child h hn]
  cases t.get? (dir ++ [name]) <;> rfl

theorem has_eq_isSome_entryAt? : t.has p = (t.entryAt? p).isSome := by
  rw [has, entryAt?, Option.isSome_map]

theorem has_of_entryAt? {entry : FileEntry} (h : t.entryAt? p = some entry) : t.has p = true := by
  rw [has_eq_isSome_entryAt?, h]
  rfl

/-- Where there is a file, its contents are read. -/
theorem readText_of_entryAt? (h : t.entryAt? p = some (.file c)) : t.readText p = asText c := by
  rw [entryAt?] at h
  rw [readText]
  cases hfind : t.find p with
  | error fault =>
    rw [hfind] at h
    cases h
  | ok found =>
    rw [hfind] at h
    obtain ⟨key, entry⟩ := found
    cases h
    rfl

theorem has_child (h : t.Opens p dir) (hn : IsName name) :
    t.has (p.child name) = (t.get? (dir ++ [name])).isSome := by
  rw [has, find_child h hn]
  cases t.get? (dir ++ [name]) <;> rfl

/-- Writing a child sets its entry. -/
theorem write_child (h : t.Opens p dir) (hn : IsName name)
    (hd : t.get? (dir ++ [name]) ≠ some .directory) :
    t.write (p.child name) c = .ok (t.set (dir ++ [name]) (.file c)) := by
  rw [write, locate_child h hn, locationOf]
  cases hg : t.get? (dir ++ [name]) with
  | none => rfl
  | some entry =>
    cases entry with
    | directory => exact absurd hg hd
    | file c' => rfl

/-- Removing a child that is a file erases its entry. -/
theorem removeFile_child (h : t.Opens p dir) (hn : IsName name)
    (hf : t.get? (dir ++ [name]) = some (.file c)) :
    t.removeFile (p.child name) = .ok (t.erase (dir ++ [name])) := by
  rw [removeFile, find_child h hn, hf]
  rfl

/-- Renaming a child moves its entry, over any file that is there. -/
theorem rename_child (hp : t.Opens p dir) (hq : t.Opens q dir) {other : String} (hn : IsName name)
    (ho : IsName other) (hf : t.get? (dir ++ [name]) = some (.file c))
    (hd : t.get? (dir ++ [other]) ≠ some .directory) :
    t.rename (p.child name) (q.child other) =
    .ok ((t.erase (dir ++ [name])).set (dir ++ [other]) (.file c)) := by
  rw [rename, find_child hp hn, hf]
  simp only [bind, Except.bind]
  rw [locate_child hq ho, locationOf]
  cases hg : t.get? (dir ++ [other]) with
  | none => rfl
  | some entry =>
    cases entry with
    | directory => exact absurd hg hd
    | file c' => rfl

/-! A directory is neither written over, nor removed like a file. -/

/-- A directory cannot be written over. -/
theorem write_child_directory (h : t.Opens p dir) (hn : IsName name)
    (hd : t.get? (dir ++ [name]) = some .directory) :
    t.write (p.child name) c = .error .isDirectory := by
  rw [write, locate_child h hn, locationOf, hd]
  rfl

/-- Nor can it be removed like a file. -/
theorem removeFile_child_directory (h : t.Opens p dir) (hn : IsName name)
    (hd : t.get? (dir ++ [name]) = some .directory) : t.removeFile (p.child name) =
    .error .isDirectory := by
  rw [removeFile, find_child h hn, hd]
  rfl

/-- Nor can a file be moved over it. -/
theorem rename_child_directory (hp : t.Opens p dir) (hq : t.Opens q dir) {other : String}
    (hn : IsName name) (ho : IsName other) (hf : t.get? (dir ++ [name]) = some (.file c))
    (hd : t.get? (dir ++ [other]) = some .directory) :
    t.rename (p.child name) (q.child other) = .error .isDirectory := by
  rw [rename, find_child hp hn, hf]
  simp only [bind, Except.bind]
  rw [locate_child hq ho, locationOf, hd]
  rfl

end child

/-! ## Changes elsewhere

A change at one name neither opens nor closes a directory that is not below it.
-/

/-- Going up does not lead into a place that was not passed. -/
theorem not_prefix_above {dir key : Key} {name : String} (hn : IsName name)
    (h : ¬dir ++ [name] <+: key) :
    ¬dir ++ [name] <+: above key := by
  unfold above
  split
  · exact h
  · split
    · rw [List.prefix_concat_iff, not_or]
      refine ⟨fun he => ?_, h⟩
      exact hn.up (List.singleton_inj.1 (List.append_inj' he rfl).2)
    · exact fun hp => h (hp.trans (List.dropLast_prefix key))

/-- No path starts inside a named entry. -/
theorem not_prefix_start {dir : Key} {name : String} (hn : IsName name) (p : Path) :
    ¬dir ++ [name] <+: start p := by
  have hslash : name ≠ "/" := by
    rintro rfl
    exact hn.slash (by decide)
  unfold start
  cases dir <;> split <;> simp [hslash]

/-- Steps that lead to a directory do so whatever happens to a name that is none. -/
theorem reach_of_agreesOff {t t' : FileTree} {dir : Key} {name : String} (hn : IsName name)
    (hd : t.get? (dir ++ [name]) ≠ some .directory) (ha : t.AgreesOff t' (dir ++ [name]))
    {found : Key} :
    ∀ {steps : List String} {key : Key}, ¬dir ++ [name] <+: key → t.reach key steps = some found →
      t'.reach key steps = some found
  | [], _, _, h => h
  | step :: steps, key, hk, h => by
    by_cases hup : step = ".."
    · subst hup
      rw [reach_up] at h ⊢
      exact reach_of_agreesOff hn hd ha (not_prefix_above hn hk) h
    · rw [reach_name hup] at h ⊢
      -- A step never enters the changed place, as that is no directory.
      have hk' : ¬dir ++ [name] <+: key ++ [step] := by
        rw [List.prefix_concat_iff, not_or]
        refine ⟨fun he => hd ?_, hk⟩
        rw [he]
        exact h.1
      exact ⟨(ha _ hk').trans h.1, reach_of_agreesOff hn hd ha hk' h.2⟩

/-- A path still opens its directory after a change at a place that was none. -/
theorem Opens.of_agreesOff {t t' : FileTree} {p : Path} {found dir : Key} {name : String}
    (h : t.Opens p found) (hn : IsName name) (hd : t.get? (dir ++ [name]) ≠ some .directory)
    (ha : t.AgreesOff t' (dir ++ [name])) :
    t'.Opens p found :=
  ⟨h.clean, reach_of_agreesOff hn hd ha (not_prefix_start hn p) h.reached⟩

/-! ## Making directories

The directories on the way to a path are made from the outermost one on. Afterwards the
path is open.
-/

theorem not_free_of_follow_file {t : FileTree} {key made : Key} {c : Contents} {slash : Bool} :
    ∀ {ps : List String}, t.follow key (.file c) ps ≠ .ok (.free made slash)
  | [], h => by cases h
  | p :: ps, h => by cases follow_file_eq_ok h

/-- A place that pieces leave free has no entry. -/
theorem get?_of_follow_free {t : FileTree} {made : Key} {slash : Bool} :
    ∀ {ps : List String} {key : Key},
    t.follow key .directory ps = .ok (.free made slash) → t.get? made = none
  | [], _, h => by cases h
  | p :: ps, key, h => by
    -- A piece makes no step, or leads up, or leads to an entry.
    rcases piece_cases p with hp | rfl | ⟨hp, hup⟩
    · rw [follow_silent hp] at h
      split at h
      · cases h
      · exact get?_of_follow_free h
    · rw [follow_up] at h
      exact get?_of_follow_free h
    · rw [follow_name hp hup] at h
      split at h
      · next found hf =>
        cases found with
        | directory => exact get?_of_follow_free h
        | file c => exact absurd h not_free_of_follow_file
      · next hf =>
        split at h
        · cases h
          exact hf
        · cases h

/-- A place without an entry is not one that is always there. -/
theorem isGiven_of_get?_eq_none {t : FileTree} {key : Key} (h : t.get? key = none) :
    isGiven key = false := by
  rw [← Bool.not_eq_true]
  intro hg
  simp [get?, hg] at h

theorem filter_isStep_of_all_empty {ps : List String} (h : ps.all (· == "")) :
    ps.filter isStep = [] := by
  refine List.filter_eq_nil_iff.2 fun step hstep => ?_
  rw [eq_of_beq (List.all_eq_true.1 h step hstep)]
  decide

/-- An entry that is put at a free path is found there, in front of the separators at
the end of the path. -/
theorem follow_set_of_free {t : FileTree} {made : Key} {slash : Bool} (entry : FileEntry) :
    ∀ {ps : List String} {key : Key}, t.follow key .directory ps = .ok (.free made slash) →
      ∃ rest : List String, rest.all (· == "") ∧ slash = !rest.isEmpty ∧
        (t.set made entry).follow key .directory ps = (t.set made entry).follow made entry rest
  | [], _, h => by cases h
  | p :: ps, key, h => by
    have hfree := get?_of_follow_free h
    -- A piece makes no step, or leads up, or leads to an entry.
    rcases piece_cases p with hp | rfl | ⟨hp, hup⟩
    · rw [follow_silent hp] at h ⊢
      split at h
      · cases h
      · next hne =>
        rw [if_neg hne]
        exact follow_set_of_free entry h
    · rw [follow_up] at h ⊢
      exact follow_set_of_free entry h
    · rw [follow_name hp hup] at h ⊢
      rw [get?_set t (isGiven_of_get?_eq_none hfree)]
      split at h
      · next found hf =>
        -- The free place has no entry, so this one is another.
        have hne : made ≠ key ++ [p] := by
          rintro rfl
          rw [hf] at hfree
          cases hfree
        rw [if_neg hne, hf]
        cases found with
        | directory => exact follow_set_of_free entry h
        | file c => exact absurd h not_free_of_follow_file
      · split at h
        · next hblank =>
          cases h
          rw [if_pos rfl]
          exact ⟨ps, hblank, rfl, rfl⟩
        · cases h

/-- A directory that is made at a free path is found there. -/
theorem follow_set_directory_of_free {t : FileTree} {made key : Key} {slash : Bool}
    {ps : List String} (h : t.follow key .directory ps = .ok (.free made slash)) :
    ∃ slash', (t.set made .directory).follow key .directory ps =
    .ok (.taken made .directory slash') := by
  obtain ⟨rest, hblank, -, hfollow⟩ := follow_set_of_free .directory h
  rw [hfollow]
  refine follow_of_reach _ ?_
  rw [filter_isStep_of_all_empty hblank]
  rfl

/-- A directory that has been made is found. -/
theorem find_of_makeDirectory {t made : FileTree} {p : Path} (h : t.makeDirectory p = .ok made) :
    ∃ dir, made.find p = .ok (dir, .directory) := by
  obtain ⟨found, hl, h⟩ := Outcome.bind_eq_ok.1 h
  cases found with
  | taken key entry slash => cases entry <;> cases h
  | free key slash =>
    cases h
    obtain ⟨hne, hc⟩ := locate_eq_ok hl
    rw [locate_eq t hne hc] at hl
    obtain ⟨slash', hf⟩ := follow_set_directory_of_free hl
    exact ⟨key, find_eq_ok_directory.2 ⟨slash', by rw [locate_eq _ hne hc, hf]⟩⟩

/-- A path is a directory exactly if it finds one. -/
theorem isDirectory_iff {t : FileTree} {p : Path} :
    t.isDirectory p ↔ ∃ dir, t.find p = .ok (dir, .directory) := by
  unfold isDirectory
  split
  · next dir h => simp [h]
  · next h =>
    simp only [Bool.false_eq_true, false_iff, not_exists]
    exact h

theorem isDirectory_iff_entryAt? {t : FileTree} {p : Path} :
    t.isDirectory p ↔ t.entryAt? p = some .directory := by
  rw [isDirectory_iff, entryAt?]
  rcases t.find p with fault | ⟨key, entry⟩ <;> simp [Except.toOption]

theorem opens_of_isEmpty (t : FileTree) {p : Path} (h : p.isEmpty) : t.Opens p [] := by
  have he : p.text = "" := by simpa [Path.isEmpty] using h
  refine ⟨by simp [Path.IsClean, he], ?_⟩
  simp [start, Path.isAbsolute, Path.steps, Path.stepsOf, Path.pieces, isStep, he, reach]

/-- A step of making directories leaves one that its path opens, new or not. -/
theorem exists_opens_of_makeDirectory {t made : FileTree} {p : Path}
    (h : (match t.makeDirectory p with
      | .ok made => (made, .ok ())
      | .error fault =>
        (t, if t.isDirectory p then .ok () else .error fault)) = (made, Except.ok ())) :
    ∃ dir, made.Opens p dir := by
  split at h
  · next hm =>
    cases h
    obtain ⟨dir, hf⟩ := find_of_makeDirectory hm
    exact ⟨dir, opens_of_find hf⟩
  -- It could not be made, but it is there.
  · rw [Prod.mk.injEq] at h
    obtain ⟨rfl, h⟩ := h
    split at h
    · next hd =>
      obtain ⟨dir, hf⟩ := isDirectory_iff.1 hd
      exact ⟨dir, opens_of_find hf⟩
    · cases h

/-- A directory that could be made, with those above it, is there. -/
theorem exists_opens_of_makeDirectoriesWithin : ∀ {fuel : Nat} {t made : FileTree} {p : Path},
    t.makeDirectoriesWithin fuel p = (made, .ok ()) → ∃ dir, made.Opens p dir
  | 0, _, _, _, h => by cases h
  | fuel + 1, t, made, p, h => by
    rw [makeDirectoriesWithin] at h
    split at h
    · next he =>
      cases h
      exact ⟨[], opens_of_isEmpty t he⟩
    -- Made at once, or after its parents.
    · split at h
      · next hm =>
        cases h
        obtain ⟨dir, hf⟩ := find_of_makeDirectory hm
        exact ⟨dir, opens_of_find hf⟩
      · split at h
        · cases h
        · split at h
          · cases h
          · exact exists_opens_of_makeDirectory h
      · next hm => exact exists_opens_of_makeDirectory (by rw [hm]; exact h)

theorem exists_opens_of_makeDirectories {t made : FileTree} {p : Path}
    (h : t.makeDirectories p = (made, .ok ())) : ∃ dir, made.Opens p dir :=
  exists_opens_of_makeDirectoriesWithin h

/-- A directory that is there is not made again. -/
theorem makeDirectories_of_opens {t : FileTree} {p : Path} {dir : Key} (h : t.Opens p dir) :
    t.makeDirectories p = (t, .ok ()) := by
  unfold makeDirectories makeDirectoriesWithin
  by_cases hne : p.text = ""
  · rw [if_pos (by simpa [Path.isEmpty] using hne)]
  · have hfind := h.find hne
    obtain ⟨slash, hl⟩ := find_eq_ok_directory.1 hfind
    have hd : t.isDirectory p = true := isDirectory_iff.2 ⟨dir, hfind⟩
    rw [if_neg (by simpa [Path.isEmpty] using hne)]
    simp [makeDirectory, hl, hd, bind, Except.bind, throw, throwThe, MonadExceptOf.throw]

end Classwright.FileTree
