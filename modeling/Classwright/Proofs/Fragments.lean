import Classwright.Proofs.Insertions
import Classwright.Proofs.Keys
import Classwright.Proofs.Walks
import Mathlib.Data.Set.Card

/-!
# What a scan for fragments finds

The path of a file below the directory of fragments, with dots for the slashes, says
what the file is for: an entity, a dot, a name of a place, and the suffix of source
files (`Supplies`). An entity can have dots itself, so files in different directories
can be for the same place of the same entity; a scan keeps the text of the last one in
the order of a walk. The texts in its result are exactly these, and only entities with a
text are in it (`Catalog.scan_keeps_last`).
-/

namespace Classwright

/-! ## Cutting texts at their ends

A name ends in a suffix if the suffix can be taken off, and a text is cut at the last
dot if no dot is behind it.
-/

namespace Text

/-- Dropping an ending succeeds on the texts that have it. -/
theorem dropEnd?_eq_some_iff {ending cs stem : List Char} :
    dropEnd? ending cs = some stem ↔ cs = stem ++ ending := by
  unfold dropEnd?
  constructor
  · intro h
    split at h
    · next hs =>
      obtain ⟨front, rfl⟩ := List.isSuffixOf_iff_suffix.1 hs
      simpa using h
    · cases h
  · rintro rfl
    rw [if_pos (List.isSuffixOf_iff_suffix.2 (List.suffix_append stem ending))]
    simp

/-- A text is cut at the last of its marks. -/
theorem cutAtLast?_eq_some_iff {mark : Char} {cs before after : List Char} :
    cutAtLast? mark cs = some (before, after) ↔ cs = before ++ mark :: after ∧ mark ∉ after := by
  unfold cutAtLast?
  constructor
  -- Cut from the end: the characters behind the last mark come first in reverse.
  · intro h
    split at h
    · cases h
    · next c rest hd =>
      obtain ⟨rfl, rfl⟩ := Prod.mk.inj (Option.some.inj h)
      have hsplit := List.takeWhile_append_dropWhile (p := (· != mark)) (l := cs.reverse)
      have hc : c = mark := by
        have hhead := List.head?_dropWhile_not (· != mark) cs.reverse
        rw [hd] at hhead
        simpa using hhead
      rw [hd, hc] at hsplit
      refine ⟨?_, fun hm => ?_⟩
      · rw [← List.reverse_reverse cs]
        conv_lhs => rw [← hsplit]
        simp
      · have hall := List.all_takeWhile (p := (· != mark)) (l := cs.reverse)
        exact absurd (List.all_eq_true.1 hall mark (List.mem_reverse.1 hm)) (by simp)
  · rintro ⟨rfl, hm⟩
    -- No mark is among the characters behind it, so the cut goes no further.
    have hall : ∀ c ∈ after.reverse, (c != mark) = true := by
      intro c hc
      rw [bne_iff_ne]
      rintro rfl
      exact hm (List.mem_reverse.1 hc)
    have hreverse : (before ++ mark :: after).reverse = after.reverse ++
        mark :: before.reverse := by
      simp
    rw [hreverse, List.takeWhile_append_of_pos hall, List.dropWhile_append_of_pos hall,
      List.takeWhile_cons_of_neg (by simp), List.dropWhile_cons_of_neg (by simp)]
    simp

end Text

/-! ## Names of fragments

What a path supplies is read off its dotted form: the suffix goes, then the word behind
the last dot, and what is left names the entity.
-/

/-- The path of a file from the directory of fragments, with dots for the slashes. -/
def dotted (names : Key) : String :=
  Text.joinWith "." names

/-- Whether the path of a file is cut into an entity and a word that names a place. -/
structure Splits (extension : String) (names : Key) (entity word : String) : Prop where
  /-- The path is the entity, a dot, the word, and the suffix. -/
  reads : dotted names = entity ++ "." ++ word ++ extension
  /-- There is an entity. -/
  hasEntity : entity ≠ ""
  /-- There is a word. -/
  hasWord : word ≠ ""
  /-- The dot in front of the word is the last one. -/
  last : '.' ∉ word.toList
  /-- The path does not start with a dot. -/
  visible : (dotted names).toList.head? ≠ some '.'

/-- A path is cut in at most one way, which is the one that is read from it. -/
theorem FragmentName.ofKey?_eq_some_iff {names : Key} {extension : String} {name : FragmentName} :
    ofKey? names extension = some name ↔ Splits extension names name.entity name.hook := by
  -- The stem, the entity and the word make up the text of the name again.
  have htext : ∀ stem entity word : List Char, (dotted names).toList = stem ++ extension.toList →
      stem = entity ++ '.' :: word →
        dotted names = String.ofList entity ++ "." ++ String.ofList word ++ extension := by
    intro stem entity word hstem hcut
    rw [← String.toList_inj, hstem, hcut]
    simp
  rw [ofKey?]
  constructor
  · intro h
    dsimp only at h
    split at h
    · cases h
    · next hvisible =>
      obtain ⟨stem, hstem, h⟩ := Option.bind_eq_some_iff.1 h
      -- The name has the ending, a last dot, and something on either side of it.
      obtain ⟨⟨entity, word⟩, hcut, h⟩ := Option.bind_eq_some_iff.1 h
      rw [Text.dropEnd?_eq_some_iff] at hstem
      rw [Text.cutAtLast?_eq_some_iff] at hcut
      split at h
      · cases h
      · next hne =>
        obtain rfl := Option.some.inj h
        rw [Bool.not_eq_true, Bool.or_eq_false_iff, List.isEmpty_eq_false_iff,
          List.isEmpty_eq_false_iff] at hne
        exact ⟨htext stem entity word hstem hcut.1, by simpa using hne.1, by simpa using hne.2,
          by simpa using hcut.2, by simpa [dotted] using hvisible⟩
  -- A name that is split in this way passes each of the tests.
  · rintro ⟨hreads, hentity, hword, hlast, hvisible⟩
    have hstem : Text.dropEnd? extension.toList (dotted names).toList =
        some (name.entity.toList ++ '.' :: name.hook.toList) := by
      rw [Text.dropEnd?_eq_some_iff, hreads]
      simp
    have hcut : Text.cutAtLast? '.' (name.entity.toList ++ '.' :: name.hook.toList) =
        some (name.entity.toList, name.hook.toList) :=
      Text.cutAtLast?_eq_some_iff.2 ⟨rfl, hlast⟩
    rw [dotted] at hstem hvisible
    rw [if_neg (by simpa using hvisible)]
    simp [hstem, hcut, hentity, hword]

/-- The names of a place. -/
def Hook.names : Hook → List String
  | .imports => ["import", "using"]
  | .properties => ["properties"]
  | .statements => ["constructor"]
  | .members => ["class"]

/-- A word names a hook if it is one of the names of the hook. -/
theorem Hook.ofName?_eq_some_iff {word : String} {hook : Hook} :
    ofName? word = some hook ↔ word ∈ hook.names := by
  unfold ofName?
  constructor
  · intro h
    split at h <;> cases h <;> decide
  · cases hook <;> simp only [names, List.mem_cons, List.not_mem_nil, or_false]
    · rintro (rfl | rfl) <;> rfl
    all_goals
      rintro rfl
      rfl

/-- Whether the path of a file says that it is for a place of an entity: it is the
entity, a dot, a name of the place, and the suffix, and does not start with a dot. -/
structure Supplies (extension : String) (entity : String) (hook : Hook) (names : Key) : Prop where
  /-- The path is the entity, a dot, a name of the place, and the suffix. -/
  reads : ∃ word ∈ hook.names, dotted names = entity ++ "." ++ word ++ extension
  /-- There is an entity. -/
  hasEntity : entity ≠ ""
  /-- The path does not start with a dot. -/
  visible : (dotted names).toList.head? ≠ some '.'

instance (extension entity : String) (hook : Hook) (names : Key) :
    Decidable (Supplies extension entity hook names) :=
  decidable_of_iff ((∃ word ∈ hook.names, dotted names = entity ++ "." ++ word ++ extension) ∧
      entity ≠ "" ∧ (dotted names).toList.head? ≠ some '.') ⟨fun ⟨hr, he, hv⟩ => ⟨hr, he, hv⟩,
      fun h => ⟨h.reads, h.hasEntity, h.visible⟩⟩

/-- A file supplies a hook if its name is taken apart into the entity and a name of the
hook. -/
theorem supplies_iff {extension entity : String} {hook : Hook} {names : Key} :
    Supplies extension entity hook names ↔
      ∃ word, FragmentName.ofKey? names extension = some ⟨entity, word⟩ ∧
      Hook.ofName? word = some hook := by
  simp only [FragmentName.ofKey?_eq_some_iff, Hook.ofName?_eq_some_iff]
  constructor
  · rintro ⟨⟨word, hw, hreads⟩, hentity, hvisible⟩
    have hplain : word ≠ "" ∧ '.' ∉ word.toList := by
      cases hook <;> simp only [Hook.names, List.mem_cons, List.not_mem_nil, or_false] at hw
      · rcases hw with rfl | rfl <;> decide
      all_goals
        subst hw
        decide
    exact ⟨word, ⟨hreads, hentity, hplain.1, hplain.2, hvisible⟩, hw⟩
  · rintro ⟨word, h, hw⟩
    exact ⟨⟨word, hw, h.reads⟩, h.hasEntity, h.visible⟩

/-- A file with a name that is taken apart supplies the entity and the hook in its name,
and nothing else. -/
theorem supplies_iff_of_ofKey? {extension entity : String} {hook : Hook} {names : Key}
    {name : FragmentName} (h : FragmentName.ofKey? names extension = some name) :
    Supplies extension entity hook names ↔
      name.entity = entity ∧ Hook.ofName? name.hook = some hook := by
  rw [supplies_iff, h]
  constructor
  · rintro ⟨word, hw, hhook⟩
    obtain rfl := Option.some.inj hw
    exact ⟨rfl, hhook⟩
  · rintro ⟨rfl, hhook⟩
    exact ⟨name.hook, rfl, hhook⟩

/-! ## Catalogs

A catalog keeps entities that have a text only, each of them once, so its size is the
number of these.
-/

theorem Hooks.get?_set (h : Hooks) (hook : Hook) (text : String) (other : Hook) :
    (h.set hook text).get? other = if hook = other then some text else h.get? other := by
  cases hook <;> cases other <;> rfl

namespace Catalog

/-- The text for a place of an entity. -/
def textFor? (c : Catalog) (entity : String) (hook : Hook) : Option String :=
  (c.hooksFor entity).get? hook

theorem textFor?_empty (entity : String) (hook : Hook) : empty.textFor? entity hook = none := by
  cases hook <;> rfl

/-- An insertion replaces the text of one hook of one entity. -/
theorem textFor?_insert (c : Catalog) (entity : String) (hook : Hook) (text : String)
    (entity' : String) (hook' : Hook) : (c.insert entity hook text).textFor? entity' hook' =
      if entity = entity' ∧ hook = hook' then some text else c.textFor? entity' hook' := by
  by_cases he : entity = entity'
  · subst he
    have hself : (c.insert entity hook text).hooksFor entity =
        (c.hooksFor entity).set hook text := by
      rw [hooksFor, insert, OrderedMap.get?_insert, if_pos rfl]
      rfl
    rw [textFor?, hself, Hooks.get?_set, textFor?]
    simp
  · rw [textFor?, hooksFor_insert_of_ne c he, if_neg fun h => he h.1, textFor?]

/-- Whether the entities of a catalog are different from one another, and those that
have a text. -/
structure Tidy (c : Catalog) : Prop where
  /-- No entity is there twice. -/
  distinct : c.hooks.keys.Nodup
  /-- The entities are those that have a text. -/
  filled : ∀ entity, entity ∈ c.hooks.keys ↔ ∃ hook, (c.textFor? entity hook).isSome

theorem tidy_empty : empty.Tidy := by
  refine ⟨List.nodup_nil, fun entity => ?_⟩
  simp only [textFor?_empty, Option.isSome_none, exists_const]
  simp [empty, OrderedMap.empty, OrderedMap.keys]

/-- A catalog stays tidy under insertion. -/
theorem Tidy.insert {c : Catalog} (h : c.Tidy) (entity : String) (hook : Hook) (text : String) :
    (c.insert entity hook text).Tidy := by
  -- The entity is the only key that may be new.
  have hkeys : (c.insert entity hook text).hooks.keys =
      if entity ∈ c.hooks.keys then c.hooks.keys else c.hooks.keys ++ [entity] :=
    OrderedMap.map_fst_put entity _ _
  constructor
  · rw [hkeys]
    split
    · exact h.distinct
    · next hn =>
      exact List.nodup_append'.2 ⟨h.distinct, List.nodup_singleton _, List.disjoint_singleton.2 hn⟩
  · intro entity'
    have hmem : entity' ∈ (c.insert entity hook text).hooks.keys ↔ entity' ∈ c.hooks.keys ∨
        entity = entity' := by
      rw [hkeys]
      split
      · next hin => exact ⟨Or.inl, fun h => h.elim id fun he => he ▸ hin⟩
      · rw [List.mem_append, List.mem_singleton, eq_comm]
    -- An entity is listed exactly if some hook of it is filled.
    simp only [hmem, h.filled, textFor?_insert]
    constructor
    · rintro (⟨hook', hf⟩ | rfl)
      · refine ⟨hook', ?_⟩
        split
        · rfl
        · exact hf
      · exact ⟨hook, by simp⟩
    · rintro ⟨hook', hf⟩
      split at hf
      · next hboth => exact Or.inr hboth.1
      · exact Or.inl ⟨hook', hf⟩

/-- The size of a tidy catalog is the number of entities that have a text. -/
theorem Tidy.size_eq {c : Catalog} (h : c.Tidy) :
    c.size = {entity | ∃ hook, (c.textFor? entity hook).isSome}.ncard := by
  have hset : {entity | ∃ hook, (c.textFor? entity hook).isSome} =
      (c.hooks.keys.toFinset : Set String) := by
    ext entity
    rw [Set.mem_ofPred_eq, List.coe_toFinset, Set.mem_ofPred_eq, h.filled]
  rw [hset, Set.ncard_coe_finset, List.toFinset_card_of_nodup h.distinct]
  simp [size, OrderedMap.size, OrderedMap.keys]

/-! ## Adding files

Adding a text changes one place of one entity. After a list of files each place has what
the last of its files had.
-/

section files

variable {directory : Path} {extension : String}

/-- The text that a file has for a place of an entity. -/
def offer? (extension entity : String) (hook : Hook) : Key × FileEntry → Option String
  | (names, .file (.text text)) => if Supplies extension entity hook names then some text else none
  | _ => none

/-- A file offers its text for the hook that its name supplies. -/
theorem offer?_eq_some_iff {entity text : String} {hook : Hook} {e : Key × FileEntry} :
    offer? extension entity hook e = some text ↔
      e.2 = .file (.text text) ∧ Supplies extension entity hook e.1 := by
  unfold offer?
  split
  · next names text' =>
    by_cases h : Supplies extension entity hook names <;> simp [h]
  · next hno =>
    constructor
    · intro h
      cases h
    · rintro ⟨he, -⟩
      exact absurd (Prod.ext rfl he : e = (e.1, .file (.text text))) (hno e.1 text)

/-- A file with a text adds what it has, and nothing else. -/
theorem addFile_text (directory : Path) (extension : String) (c : Catalog) (names : Key)
    (text : String) :
    ∃ c', addFile directory extension c names (.text text) = .ok c' ∧ (c.Tidy → c'.Tidy) ∧
      ∀ entity hook, c'.textFor? entity hook =
        (offer? extension entity hook (names, .file (.text text))).or (c.textFor? entity hook) := by
  -- A file that supplies nothing leaves the catalog as it is.
  have hsilent : (∀ entity hook, ¬Supplies extension entity hook names) →
      ∀ entity hook, c.textFor? entity hook =
      (offer? extension entity hook (names, .file (.text text))).or (c.textFor? entity hook) := by
    intro hnone entity hook
    rw [offer?, if_neg (hnone entity hook), Option.none_or]
  unfold addFile
  cases hname : FragmentName.ofKey? names extension with
  | none =>
    refine ⟨c, rfl, id, hsilent fun entity hook h => ?_⟩
    obtain ⟨word, hw, -⟩ := supplies_iff.1 h
    rw [hname] at hw
    cases hw
  | some name =>
    simp only [FileTree.asText]
    cases hhook : Hook.ofName? name.hook with
    | none =>
      refine ⟨c, rfl, id, hsilent fun entity hook h => ?_⟩
      have hsome := ((supplies_iff_of_ofKey? hname).1 h).2
      rw [hhook] at hsome
      cases hsome
    -- The text replaces that of its own hook and leaves all others.
    | some hook =>
      refine ⟨c.insert name.entity hook text, rfl, fun h => h.insert _ _ _, fun entity' hook' => ?_⟩
      have hboth : Supplies extension entity' hook' names ↔ name.entity = entity' ∧
          hook = hook' := by
        rw [supplies_iff_of_ofKey? hname, hhook, Option.some.injEq]
      rw [textFor?_insert, offer?]
      by_cases h : name.entity = entity' ∧ hook = hook'
      · rw [if_pos h, if_pos (hboth.2 h), Option.some_or]
      · rw [if_neg h, if_neg (mt hboth.1 h), Option.none_or]

/-- Files with texts add what they have, and later ones take the place of earlier ones. -/
theorem addFiles_texts (directory : Path) (extension : String) : ∀ {found : List (Key × FileEntry)}
    (c : Catalog), (∀ e ∈ found, ∀ contents, e.2 = .file contents → ∃ text, contents = .text text) →
      ∃ c', addFiles directory extension found c = .ok c' ∧ (c.Tidy → c'.Tidy) ∧
        ∀ entity hook, c'.textFor? entity hook =
          (found.reverse.findSome? (offer? extension entity hook)).or (c.textFor? entity hook)
  | [], c, _ => ⟨c, rfl, id, fun _ _ => rfl⟩
  | (names, .directory) :: rest, c, h => by
    obtain ⟨c', hc', htidy, htext⟩ :=
      addFiles_texts directory extension c (List.forall_mem_cons.1 h).2
    refine ⟨c', hc', htidy, fun entity hook => ?_⟩
    rw [htext, List.reverse_cons, List.findSome?_append]
    -- A directory itself offers nothing.
    simp [offer?]
  | (names, .file contents) :: rest, c, h => by
    obtain ⟨hfirst, hrest⟩ := List.forall_mem_cons.1 h
    obtain ⟨text, rfl⟩ := hfirst contents rfl
    obtain ⟨c₁, hc₁, htidy₁, htext₁⟩ := addFile_text directory extension c names text
    obtain ⟨c', hc', htidy, htext⟩ := addFiles_texts directory extension c₁ hrest
    refine ⟨c', ?_, htidy ∘ htidy₁, fun entity hook => ?_⟩
    · rw [addFiles, hc₁]
      exact hc'
    -- The later files come before this one, and what was there before comes last.
    · rw [htext, htext₁, List.reverse_cons, List.findSome?_append, List.findSome?_singleton,
        Option.or_assoc]

end files

/-! ## Scans

The files are in the order of a walk, so the last one in the list is the one that no
other file for its place follows.
-/

section scans

variable {t : FileTree} {directory : Path} {extension : String}

theorem scan_of_find {dir : Key} (h : t.find directory = .ok (dir, .directory)) :
    scan t directory extension = addFiles directory extension (t.below dir) .empty := by
  rw [scan, h]

/-- The scan of what is no directory finds nothing. -/
theorem scan_of_not_isDirectory (h : ¬t.isDirectory directory) :
    scan t directory extension = .ok .empty := by
  unfold scan
  split
  · next key hf => exact absurd (FileTree.isDirectory_iff.2 ⟨key, hf⟩) h
  · rfl

section walk

variable {dir : Key} (ht : t.IsTree dir) (hf : t.find directory = .ok (dir, .directory))
  (htext : ∀ names c, t.FileBelow directory names c → ∃ text, c = .text text) {entity : String}
  {hook : Hook}

include ht hf htext

/-- The last text that the files of a walk have for a place is that of the file that all
others precede. -/
theorem findSome?_offer?_eq_some_iff {text : String} :
    (t.below dir).reverse.findSome? (offer? extension entity hook) = some text ↔
      ∃ names, t.FileBelow directory names (.text text) ∧ Supplies extension entity hook names ∧
        ∀ names' c', t.FileBelow directory names' c' → Supplies extension entity hook names' →
          names' = names ∨ FileTree.Precedes names' names := by
  rw [List.findSome?_eq_some_iff]
  constructor
  · rintro ⟨after, ⟨names, entry⟩, before, hsplit, hoffer, hafter⟩
    -- The hook has the last offer of the walk, so every file that supplies it comes
    -- before.
    obtain ⟨rfl, hsupplies⟩ := offer?_eq_some_iff.1 hoffer
    rw [List.reverse_eq_iff, List.reverse_append, List.reverse_cons, List.append_assoc,
      List.singleton_append] at hsplit
    refine ⟨names, (ht.mem_below_iff hf).1 (by simp [hsplit]), hsupplies,
      fun names' c' hfile' hsupplies' => ?_⟩
    have hmem := (ht.mem_below_iff hf).2 hfile'
    have hmem' := hsplit ▸ hmem
    rw [List.mem_append, List.mem_cons] at hmem'
    rcases hmem' with hbefore | heq | hmem'
    · exact Or.inr ((ht.mem_before_iff hsplit).1 hbefore).2
    · exact Or.inl (congrArg Prod.fst heq)
    · obtain ⟨text', rfl⟩ := htext _ _ hfile'
      have hnone := hafter _ (List.mem_reverse.1 hmem')
      rw [offer?_eq_some_iff.2 ⟨rfl, hsupplies'⟩] at hnone
      cases hnone
  · rintro ⟨names, hfile, hsupplies, hlast⟩
    -- The file comes up in the walk, and what comes after it offers nothing.
    obtain ⟨before, after, hsplit⟩ := List.append_of_mem ((ht.mem_below_iff hf).2 hfile)
    refine ⟨after.reverse, (names, .file (.text text)), before.reverse, by simp [hsplit],
      offer?_eq_some_iff.2 ⟨rfl, hsupplies⟩, fun e he => ?_⟩
    rw [Option.eq_none_iff_forall_ne_some]
    intro text' hoffer
    obtain ⟨hentry, hsupplies'⟩ := offer?_eq_some_iff.1 hoffer
    obtain ⟨names', entry⟩ := e
    obtain rfl : entry = .file (.text text') := hentry
    have hmem := List.mem_reverse.1 he
    have hprecedes := ht.precedes_of_below hsplit hmem
    have hbelow : (names', .file (.text text')) ∈ t.below dir := by simp [hsplit, hmem]
    -- Another file behind it would precede it and come after it at once.
    rcases hlast names' _ ((ht.mem_below_iff hf).1 hbelow) hsupplies' with rfl | h
    · exact FileTree.not_precedes_of_precedes hprecedes hprecedes
    · exact FileTree.not_precedes_of_precedes hprecedes h

/-- Nothing is offered for a hook exactly if no file below the directory supplies it. -/
theorem findSome?_offer?_eq_none_iff :
    (t.below dir).reverse.findSome? (offer? extension entity hook) = none ↔
      ∀ names c', t.FileBelow directory names c' → ¬Supplies extension entity hook names := by
  simp only [List.findSome?_eq_none_iff, List.mem_reverse]
  constructor
  · intro h names c hfile hsupplies
    obtain ⟨text, rfl⟩ := htext names c hfile
    have hnone := h _ ((ht.mem_below_iff hf).2 hfile)
    rw [offer?_eq_some_iff.2 ⟨rfl, hsupplies⟩] at hnone
    cases hnone
  · rintro h ⟨names, entry⟩ hmem
    rw [Option.eq_none_iff_forall_ne_some]
    intro text hoffer
    obtain ⟨hentry, hsupplies⟩ := offer?_eq_some_iff.1 hoffer
    obtain rfl : entry = .file (.text text) := hentry
    exact h names _ ((ht.mem_below_iff hf).1 hmem) hsupplies

end walk

/-- A scan of readable files succeeds. For each place of an entity it finds the text of
the last file for it in the order of a walk, and none if there is no such file; and its
size is the number of entities for which it finds a text. -/
theorem scan_keeps_last (ht : t.IsTree directory.destination)
    (htext : ∀ names c, t.FileBelow directory names c → ∃ text, c = .text text)
    (extension : String) :
    ∃ c, scan t directory extension = .ok c ∧
      (∀ entity hook,
        (∀ text, (c.hooksFor entity).get? hook = some text ↔
          ∃ names, t.FileBelow directory names (.text text) ∧ Supplies extension entity hook names ∧
            ∀ names' c', t.FileBelow directory names' c' → Supplies extension entity hook names' →
              names' = names ∨ FileTree.Precedes names' names) ∧
        ((c.hooksFor entity).get? hook = none ↔
          ∀ names c', t.FileBelow directory names c' → ¬Supplies extension entity hook names)) ∧
      c.size = {entity | ∃ hook, ((c.hooksFor entity).get? hook).isSome}.ncard := by
  by_cases hd : t.isDirectory directory
  · obtain ⟨dir, hf⟩ := FileTree.isDirectory_iff.1 hd
    rw [(FileTree.opens_of_find hf).destination] at ht
    -- All files are texts, so none stops the scan.
    have hreadable : ∀ e ∈ t.below dir, ∀ contents, e.2 = .file contents → ∃ text,
        contents = .text text := by
      rintro ⟨names, entry⟩ hmem contents rfl
      exact htext names contents ((ht.mem_below_iff hf).1 hmem)
    obtain ⟨c, hc, htidy, hfor⟩ := addFiles_texts directory extension .empty hreadable
    simp only [textFor?_empty, Option.or_none] at hfor
    refine ⟨c, (scan_of_find hf).trans hc, fun entity hook => ⟨fun text => ?_, ?_⟩,
      (htidy tidy_empty).size_eq⟩
    · rw [← textFor?, hfor, findSome?_offer?_eq_some_iff ht hf htext]
    · rw [← textFor?, hfor, findSome?_offer?_eq_none_iff ht hf htext]
  -- What is no directory has no files and no fragments.
  · refine ⟨.empty, scan_of_not_isDirectory hd, fun entity hook => ⟨fun text => ?_, ?_⟩,
      tidy_empty.size_eq⟩
    · rw [← textFor?, textFor?_empty]
      exact ⟨nofun, fun ⟨_, hfile, _⟩ => absurd hfile.opened hd⟩
    · rw [← textFor?, textFor?_empty]
      exact iff_of_true rfl fun _ _ hfile => absurd hfile.opened hd

end scans

/-- Fragments for the same place of one method, in a directory of its namespace and
beside it. -/
def nestedParts : FileTree :=
  ⟨[(["parts"], .directory), (["parts", "Medal.class.js"], .file (.text "unlock() {}")),
    (["parts", "Score"], .directory), (["parts", "Score", "get.class.js"],
      .file (.text "nested() {}")), (["parts", "Score.get.class.js"], .file (.text "flat() {}")),
    (["parts", "notes.txt"], .file (.text "later"))]⟩

/-- The name of the directory comes before that of the file beside it, so the file
beside it is the last one. -/
theorem scan_keeps_last_nestedParts : nestedParts.IsTree (⟨"parts"⟩ : Path).destination ∧
    (∀ names c, nestedParts.FileBelow ⟨"parts"⟩ names c → ∃ text, c = .text text) ∧
    ∃ c, scan nestedParts ⟨"parts"⟩ ".js" = .ok c ∧
    (c.hooksFor "Score.get").get? .members = some "flat() {}" ∧
    c.size = {entity | ∃ hook, ((c.hooksFor entity).get? hook).isSome}.ncard ∧
    ∃ names, nestedParts.FileBelow ⟨"parts"⟩ names (.text "flat() {}") ∧
      Supplies ".js" "Score.get" .members names ∧
      ∀ names' c',
        nestedParts.FileBelow ⟨"parts"⟩ names' c' → Supplies ".js" "Score.get" .members names' →
          names' = names ∨ FileTree.Precedes names' names := by
  have hdestination : (⟨"parts"⟩ : Path).destination = ["parts"] := by decide
  have ht : nestedParts.IsTree (⟨"parts"⟩ : Path).destination := by
    rw [hdestination]
    exact ⟨by decide, by decide, by decide⟩
  have hfind : nestedParts.find ⟨"parts"⟩ = .ok (["parts"], .directory) := by rfl
  -- The files of the tree are all texts, as its entries show.
  have htext : ∀ names c, nestedParts.FileBelow ⟨"parts"⟩ names c → ∃ text, c = .text text := by
    intro names c hfile
    have hmem := ((hdestination ▸ ht).mem_below_iff hfind).2 hfile
    have hentries : ∀ e ∈ nestedParts.entries, ∀ c, e.2 = .file c → ∃ text, c = .text text := by
      simp [nestedParts]
    exact hentries _ (FileTree.mem_below.1 hmem).2 c rfl
  have hbelow : ∀ names c, nestedParts.FileBelow ⟨"parts"⟩ names c ↔
      (names, .file c) ∈ nestedParts.below ["parts"] :=
    fun _ _ => (FileTree.IsTree.mem_below_iff (hdestination ▸ ht) hfind).symm
  obtain ⟨c, hc, hfor, hsize⟩ := scan_keeps_last ht htext ".js"
  have hlast : ∃ names, nestedParts.FileBelow ⟨"parts"⟩ names (.text "flat() {}") ∧
      Supplies ".js" "Score.get" .members names ∧ ∀ names' c',
      nestedParts.FileBelow ⟨"parts"⟩ names' c' →
        Supplies ".js" "Score.get" .members names' → names' = names ∨
        FileTree.Precedes names' names := by
    -- Of the two files that supply the hook, the flat one comes last in the walk.
    refine ⟨["Score.get.class.js"], ?_, ⟨⟨"class", by decide, by decide⟩, by decide, by decide⟩, ?_⟩
    · rw [hbelow, FileTree.mem_below]
      exact ⟨by decide, by decide⟩
    · intro names' c' hfile hsupplies
      rw [hbelow, FileTree.mem_below] at hfile
      obtain ⟨-, hmem⟩ := hfile
      have hentries : ∀ e ∈ nestedParts.entries, Supplies ".js" "Score.get" .members (e.1.drop 1) →
          e.1.drop 1 = ["Score", "get.class.js"] ∨ e.1.drop 1 = ["Score.get.class.js"] := by decide
      rcases hentries _ hmem hsupplies with rfl | h
      · exact Or.inr ⟨[], "Score", ["get.class.js"], "Score.get.class.js", [], rfl, rfl, by decide⟩
      · exact Or.inl h
  exact ⟨ht, htext, c, hc, ((hfor "Score.get" .members).1 _).2 hlast, hsize, hlast⟩

end Catalog

end Classwright
