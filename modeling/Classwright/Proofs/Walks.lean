import Classwright.Proofs.Repetition
import Classwright.Render.FragmentFiles
import Mathlib.Data.List.Nodup

/-!
# Walks through a directory

A walk through a directory comes to every file below it (`FileTree.FileBelow`) once. It
takes the names in a directory in their order, and what is in a directory where its name
comes: where the ways to two files part, the one with the lesser name comes first
(`FileTree.Precedes`). The list of a walk has exactly the files that paths below the
directory lead to, in this order (`FileTree.IsTree.mem_below_iff`,
`FileTree.IsTree.precedes_of_below`), if the entries below the directory make up a tree
(`FileTree.IsTree`).
-/

namespace Classwright

open Classwright.Path (IsName isStep)

instance : DecidablePred IsName := fun name =>
  decidable_of_iff ('/' ∉ name.toList ∧ '\x00' ∉ name.toList ∧ isStep name ∧ name ≠ "..")
    ⟨fun ⟨hs, hc, hn, hu⟩ => ⟨hs, hc, hn, hu⟩, fun h => ⟨h.slash, h.clean, h.step, h.up⟩⟩

/-! ## Paths below a directory

A path below a directory has the steps of the directory with the names behind them.
-/

theorem pathBelow_nil (directory : Path) : pathBelow directory [] = directory :=
  rfl

theorem pathBelow_concat (directory : Path) (names : Key) (name : String) :
    pathBelow directory (names ++ [name]) = (pathBelow directory names).child name := by
  rw [pathBelow, List.foldl_append, pathBelow]
  rfl

/-- The steps of a path below a directory are those of the directory and its names. -/
theorem steps_pathBelow (directory : Path) (names : Key) :
    (∀ name ∈ names, IsName name) →
    (pathBelow directory names).steps = directory.steps ++ names := by
  induction names using List.reverseRecOn with
  | nil => simp [pathBelow_nil]
  | append_singleton names name ih =>
    intro hn
    rw [List.forall_mem_append, List.forall_mem_singleton] at hn
    rw [pathBelow_concat, Path.steps_child _ hn.2, ih hn.1, List.append_assoc]

/-- So is its destination. -/
theorem destination_pathBelow (directory : Path) (names : Key) :
    (∀ name ∈ names, IsName name) →
    (pathBelow directory names).destination = directory.destination ++ names := by
  induction names using List.reverseRecOn with
  | nil => simp [pathBelow_nil]
  | append_singleton names name ih =>
    intro hn
    rw [List.forall_mem_append, List.forall_mem_singleton] at hn
    rw [pathBelow_concat, Path.destination_child _ hn.2, ih hn.1, List.append_assoc]

/-- Different names lead to different paths below a directory. -/
theorem pathBelow_injective {directory : Path} {names names' : Key}
    (hn : ∀ name ∈ names, IsName name) (hn' : ∀ name ∈ names', IsName name)
    (h : pathBelow directory names = pathBelow directory names') :
    names = names' := by
  have hs := steps_pathBelow directory names hn
  rw [h, steps_pathBelow directory names' hn'] at hs
  exact (List.append_cancel_left hs).symm

namespace FileTree

variable {t : FileTree} {directory : Path} {dir key : Key} {names : Key} {c : Contents}

/-! ## The order of a walk

Keys are sorted name by name, so a directory comes in front of what is in it.
-/

/-- Whether a walk comes to one file before another: where the ways to them part, its
name is the lesser one. -/
def Precedes (names names' : Key) : Prop :=
  ∃ common first rest first' rest',
    names = common ++ first :: rest ∧ names' = common ++ first' :: rest' ∧ first < first'

theorem Precedes.cons {names names' : Key} (h : Precedes names names') (name : String) :
    Precedes (name :: names) (name :: names') := by
  obtain ⟨common, first, rest, first', rest', rfl, rfl, hlt⟩ := h
  exact ⟨name :: common, first, rest, first', rest', rfl, rfl, hlt⟩

/-- A file comes after what is on the way to it, and after what precedes it. -/
theorem prefix_or_precedes_of_keyAtMost : ∀ {names names' : Key}, keyAtMost names names' →
    names <+: names' ∨ Precedes names names'
  | [], _, _ => Or.inl List.nil_prefix
  | _ :: _, [], h => by simp [keyAtMost] at h
  | name :: names, name' :: names', h => by
    rw [keyAtMost] at h
    split at h
    · next heq =>
      obtain rfl := eq_of_beq heq
      rcases prefix_or_precedes_of_keyAtMost h with hp | hp
      · exact Or.inl (List.cons_prefix_cons.2 ⟨rfl, hp⟩)
      · exact Or.inr (hp.cons name)
    · exact Or.inr ⟨[], name, names, name', names', rfl, rfl, by simpa using h⟩

/-- The walk sorts by what precedes. -/
theorem keyAtMost_of_precedes {names names' : Key} (h : Precedes names names') :
    keyAtMost names names' := by
  obtain ⟨common, first, rest, first', rest', rfl, rfl, hlt⟩ := h
  induction common with
  | nil => simp [keyAtMost, hlt, hlt.ne]
  | cons name common ih => simpa [keyAtMost] using ih

/-- Of two places only one precedes the other. -/
theorem not_precedes_of_precedes {names names' : Key} (h : Precedes names names') :
    ¬Precedes names' names := by
  intro h'
  obtain ⟨common, first, rest, first', rest', rfl, rfl, hlt⟩ := h
  have hat := keyAtMost_of_precedes h'
  have hnot : ∀ common : Key, ¬keyAtMost (common ++ first' :: rest') (common ++ first :: rest) := by
    intro common
    induction common with
    | nil => simpa [keyAtMost, hlt.ne'] using not_lt.2 hlt.le
    | cons name common ih => simpa [keyAtMost] using ih
  exact hnot common hat

/-! ## The files below a directory

In a tree every entry has its directories above it, so the entries below a directory are
what paths lead to.
-/

/-- Whether names lead from a directory to a file with the given contents. -/
structure FileBelow (t : FileTree) (directory : Path) (names : Key) (c : Contents) : Prop where
  /-- The directory is there. -/
  opened : t.isDirectory directory
  /-- There are names. -/
  nonempty : names ≠ []
  /-- The names are names of files and directories. -/
  named : ∀ name ∈ names, IsName name
  /-- The path with these names leads to the file. -/
  found : t.entryAt? (pathBelow directory names) = some (.file c)

/-- Whether the entries below a key make up a tree. -/
structure IsTree (t : FileTree) (dir : Key) : Prop where
  /-- No two of them have the same key. -/
  distinct : ((t.entries.filter fun e => Inside e.1 dir).map Prod.fst).Nodup
  /-- Their keys are made of names. -/
  named : ∀ e ∈ t.entries, Inside e.1 dir → ∀ name ∈ e.1.drop dir.length, IsName name
  /-- Each of them is in a directory. -/
  above : ∀ e ∈ t.entries, Inside e.1 dir → t.get? e.1.dropLast = some .directory

/-- The entries below a directory are those inside it, by the rest of their places. -/
theorem mem_below {entry : FileEntry} :
    (names, entry) ∈ t.below dir ↔ names ≠ [] ∧ (dir ++ names, entry) ∈ t.entries := by
  rw [below, List.mem_mergeSort, List.mem_map]
  -- An entry is below the directory if its key goes on behind that of the directory.
  constructor
  · rintro ⟨⟨key, entry'⟩, he, heq⟩
    obtain ⟨rfl, rfl⟩ := Prod.mk.inj heq
    rw [List.mem_filter, Bool.and_eq_true, List.isPrefixOf_iff_prefix, decide_eq_true_eq] at he
    obtain ⟨hmem, ⟨names, rfl⟩, hlt⟩ := he
    rw [List.drop_left]
    refine ⟨?_, hmem⟩
    rintro rfl
    simp at hlt
  · rintro ⟨hne, hmem⟩
    refine ⟨(dir ++ names, entry), List.mem_filter.2 ⟨hmem, ?_⟩, by simp⟩
    simpa [List.length_pos_iff] using hne

theorem inside_append (dir : Key) (hne : names ≠ []) : Inside (dir ++ names) dir :=
  ⟨List.prefix_append dir names, by simpa [List.length_pos_iff] using hne⟩

/-- The directory that a name leads to. -/
theorem Opens.child (h : t.Opens directory dir) {name : String} (hn : IsName name)
    (hd : t.get? (dir ++ [name]) = some .directory) :
    t.Opens (directory.child name) (dir ++ [name]) :=
  opens_of_find (by rw [find_child h hn, hd])

/-- The place of named entries is not always there. -/
theorem isGiven_append_of_named (hne : names ≠ []) (hn : ∀ name ∈ names, IsName name) :
    isGiven (dir ++ names) = false := by
  obtain ⟨front, name, rfl⟩ := List.eq_nil_or_concat' names |>.resolve_left hne
  rw [← List.append_assoc]
  exact isGiven_append _ (hn name (by simp))

/-- Where the keys inside a directory are distinct, an entry inside it is the one that
is found by its key. -/
theorem find?_eq_of_nodup {entries : List (Key × FileEntry)} {e : Key × FileEntry}
    (h : ((entries.filter fun e => Inside e.1 dir).map Prod.fst).Nodup) (hmem : e ∈ entries)
    (hin : Inside e.1 dir) : (entries.find? fun e' => e'.1 == e.1) = some e := by
  cases hf : entries.find? fun e' => e'.1 == e.1 with
  | none => exact absurd (beq_self_eq_true _) (List.find?_eq_none.1 hf _ hmem)
  | some found =>
    have hkey : found.1 = e.1 := by simpa using List.find?_some hf
    have hinside : ∀ {e'}, e' ∈ entries → e'.1 = e.1 → e' ∈ entries.filter fun e =>
        Inside e.1 dir := by
      intro e' he hk
      exact List.mem_filter.2 ⟨he, by simpa [hk] using hin⟩
    rw [List.inj_on_of_nodup_map h (hinside (List.mem_of_find?_eq_some hf) hkey)
      (hinside hmem rfl) hkey]

namespace IsTree

variable (ht : t.IsTree dir)

include ht

/-- An entry below the key is what is found there. -/
theorem get?_of_mem {entry : FileEntry} (hne : names ≠ [])
    (hmem : (dir ++ names, entry) ∈ t.entries) :
    t.get? (dir ++ names) = some entry := by
  have hin := inside_append dir hne
  have hn := ht.named _ hmem hin
  rw [List.drop_left] at hn
  rw [get?_of_not_isGiven t (isGiven_append_of_named hne hn),
    find?_eq_of_nodup ht.distinct hmem hin]
  rfl

omit ht in
/-- An entry that is found below a directory is entered there. -/
theorem mem_of_get? {entry : FileEntry} (hne : names ≠ []) (hn : ∀ name ∈ names, IsName name)
    (h : t.get? (dir ++ names) = some entry) : (dir ++ names, entry) ∈ t.entries := by
  rw [get?_of_not_isGiven t (isGiven_append_of_named hne hn), Option.map_eq_some_iff] at h
  obtain ⟨e, hf, rfl⟩ := h
  have hkey : e.1 = dir ++ names := by simpa using List.find?_some hf
  exact hkey ▸ List.mem_of_find?_eq_some hf

/-- The names of an entry lead from directory to directory. -/
theorem opens_pathBelow (ho : t.Opens directory dir) :
    t.get? (dir ++ names) = some .directory → (∀ name ∈ names, IsName name) →
      t.Opens (pathBelow directory names) (dir ++ names) := by
  induction names using List.reverseRecOn with
  | nil => simpa [pathBelow_nil] using fun _ => ho
  | append_singleton front name ih =>
    intro hd hn
    have hmem := mem_of_get? (by simp) hn hd
    have habove := ht.above _ hmem (inside_append dir (by simp))
    rw [← List.append_assoc, List.dropLast_concat] at habove
    rw [List.forall_mem_append, List.forall_mem_singleton] at hn
    rw [pathBelow_concat, ← List.append_assoc]
    exact (ih habove hn.1).child hn.2 (by rwa [List.append_assoc])

/-- The files of a walk are those that paths below the directory lead to. -/
theorem mem_below_iff (hf : t.find directory = .ok (dir, .directory)) :
    (names, .file c) ∈ t.below dir ↔ t.FileBelow directory names c := by
  have ho := opens_of_find hf
  rw [mem_below]
  constructor
  · rintro ⟨hne, hmem⟩
    have hin := inside_append dir hne
    have hn := ht.named _ hmem hin
    rw [List.drop_left] at hn
    refine ⟨isDirectory_iff.2 ⟨dir, hf⟩, hne, hn, ?_⟩
    have hget := ht.get?_of_mem hne hmem
    -- All directories above the entry are there, so its path leads to it.
    have habove := ht.above _ hmem hin
    obtain ⟨front, name, rfl⟩ := List.eq_nil_or_concat' names |>.resolve_left hne
    rw [List.forall_mem_append, List.forall_mem_singleton] at hn
    rw [← List.append_assoc] at hget habove
    rw [List.dropLast_concat] at habove
    rw [pathBelow_concat, entryAt?_child (ht.opens_pathBelow ho habove hn.1) hn.2, hget]
  · rintro ⟨-, hne, hn, hfound⟩
    refine ⟨hne, mem_of_get? hne hn ?_⟩
    obtain ⟨front, name, rfl⟩ := List.eq_nil_or_concat' names |>.resolve_left hne
    rw [List.forall_mem_append, List.forall_mem_singleton] at hn
    rw [pathBelow_concat] at hfound
    -- The directory that the path leads to is the one that the key names.
    obtain ⟨above, habove⟩ := exists_opens_of_has_child hn.2 (has_of_entryAt? hfound)
    have hkey : above = dir ++ front := by
      rw [← habove.destination, destination_pathBelow directory front hn.1, ho.destination]
    rw [entryAt?_child habove hn.2, hkey, List.append_assoc] at hfound
    exact hfound

/-- What is below the key is listed once. -/
theorem nodup_below : ((t.below dir).map Prod.fst).Nodup := by
  -- Cutting the same directory off different keys leaves different names.
  have hmap :
      ((t.entries.filter fun e => dir.isPrefixOf e.1 && dir.length < e.1.length).map fun e =>
        (e.1.drop dir.length, e.2)).map Prod.fst =
          ((t.entries.filter fun e => Inside e.1 dir).map Prod.fst).map (List.drop dir.length) := by
    rw [List.map_map, List.map_map]
    refine congrArg (List.map _) (List.filter_congr fun e _ => ?_)
    rw [Bool.eq_iff_iff, Bool.and_eq_true, List.isPrefixOf_iff_prefix, decide_eq_true_eq,
      decide_eq_true_eq]
    exact Iff.rfl
  rw [below, ((List.mergeSort_perm _ _).map Prod.fst).nodup_iff, hmap]
  refine List.Nodup.map_on ?_ ht.distinct
  intro key hkey key' hkey' hdrop
  obtain ⟨e, he, rfl⟩ := List.mem_map.1 hkey
  obtain ⟨e', he', rfl⟩ := List.mem_map.1 hkey'
  have hin : Inside e.1 dir := by simpa using (List.mem_filter.1 he).2
  have hin' : Inside e'.1 dir := by simpa using (List.mem_filter.1 he').2
  obtain ⟨⟨names, hnames⟩, -⟩ := hin
  obtain ⟨⟨names', hnames'⟩, -⟩ := hin'
  rw [← hnames, ← hnames', List.drop_left, List.drop_left] at hdrop
  rw [← hnames, ← hnames', hdrop]

/-- A file is not on the way to another entry. -/
theorem eq_of_prefix {names' : Key} {entry : FileEntry} (hmem : (names, .file c) ∈ t.below dir)
    (hmem' : (names', entry) ∈ t.below dir) (hp : names <+: names') : names = names' := by
  rw [mem_below] at hmem hmem'
  have hget := ht.get?_of_mem hmem.1 hmem.2
  have hn' := ht.named _ hmem'.2 (inside_append dir hmem'.1)
  rw [List.drop_left] at hn'
  obtain ⟨rest, rfl⟩ := hp
  induction rest using List.reverseRecOn generalizing entry with
  | nil => simp
  | append_singleton rest name ih =>
    -- What is in front of the last name is a directory, and so no file.
    exfalso
    have habove := ht.above _ hmem'.2 (inside_append dir hmem'.1)
    rw [← List.append_assoc, ← List.append_assoc, List.dropLast_concat] at habove
    by_cases hrest : rest = []
    · rw [hrest, List.append_nil, hget] at habove
      cases habove
    · have hne : names ++ rest ≠ [] := by simp [hmem.1]
      rw [← List.append_assoc, List.forall_mem_append] at hn'
      rw [List.append_assoc] at habove
      have hfront := mem_of_get? hne hn'.1 habove
      have hsame := ih ⟨hne, hfront⟩ hn'.1
      simp [hrest] at hsame

/-- Of two files of a walk the one that comes first precedes the other one. -/
theorem precedes_of_below {names' : Key} {c' : Contents} {before after : List (Key × FileEntry)}
    (h : t.below dir = before ++ (names, .file c) :: after) (hmem : (names', .file c') ∈ after) :
    Precedes names names' := by
  have hfile : (names, .file c) ∈ t.below dir := by simp [h]
  have hfile' : (names', .file c') ∈ t.below dir := by simp [h, hmem]
  have hsorted := @List.pairwise_mergeSort _ (fun a b : Key × FileEntry => keyAtMost a.1 b.1)
    (fun _ _ _ => keyAtMost_trans) (fun _ _ => keyAtMost_total _ _)
    ((t.entries.filter fun e => dir.isPrefixOf e.1 && dir.length < e.1.length).map fun e =>
      (e.1.drop dir.length, e.2))
  rw [← below, h, List.pairwise_append, List.pairwise_cons] at hsorted
  refine (prefix_or_precedes_of_keyAtMost (hsorted.2.1.1 _ hmem)).resolve_left fun hp => ?_
  have hnodup := ht.nodup_below
  rw [h, List.map_append, List.map_cons, List.nodup_append, List.nodup_cons] at hnodup
  exact hnodup.2.1.1 (List.mem_map.2 ⟨_, hmem, (ht.eq_of_prefix hfile hfile' hp).symm⟩)

/-- The files in front of a file of a walk are those that precede it. -/
theorem mem_before_iff {names' : Key} {c' : Contents} {before after : List (Key × FileEntry)}
    (h : t.below dir = before ++ (names, .file c) :: after) :
    (names', .file c') ∈ before ↔ (names', .file c') ∈ t.below dir ∧ Precedes names' names := by
  -- The walk is in order, so what is before an entry precedes it.
  constructor
  · intro hmem
    obtain ⟨first, between, rfl⟩ := List.append_of_mem hmem
    rw [List.append_assoc, List.cons_append] at h
    have hlater : (names, .file c) ∈ between ++ (names, .file c) :: after := by simp
    exact ⟨by simp [h], ht.precedes_of_below h hlater⟩
  · rintro ⟨hmem, hp⟩
    rw [h, List.mem_append, List.mem_cons] at hmem
    rcases hmem with hmem | heq | hmem
    · exact hmem
    · obtain ⟨rfl, -⟩ := Prod.mk.inj heq
      exact absurd hp (not_precedes_of_precedes hp)
    · exact absurd hp (not_precedes_of_precedes (ht.precedes_of_below h hmem))

end IsTree

end FileTree

end Classwright
