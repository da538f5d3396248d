import Classwright.Config
import Classwright.Proofs.Outcome
import Mathlib.Data.List.Nodup
import Mathlib.Data.List.Pairwise

/-!
# Targets by their names

The targets of a project stand in the order of their names, and no name is there twice,
but two names can differ in the case of letters only. A name means the first target with
this name in any case, whatever other names there are
(`Config.findTarget?_eq_some_iff`). So a target is found by its own name as long as no
target in front of it has the same name in another case, and naming all targets selects
all of them if and only if no two names are the same up to the case of letters
(`Config.select_targetNames_iff`).
-/

namespace Classwright

open Text (sameIgnoringAsciiCase)

theorem sameIgnoringAsciiCase_iff {s t : String} :
    sameIgnoringAsciiCase s t ↔ Text.asciiLower s = Text.asciiLower t := by
  rw [sameIgnoringAsciiCase, beq_iff_eq]

theorem sameIgnoringAsciiCase_refl (s : String) : sameIgnoringAsciiCase s s :=
  sameIgnoringAsciiCase_iff.2 rfl

instance : Std.Symm fun s t => ¬sameIgnoringAsciiCase s t :=
  ⟨fun _ _ h h' => h (sameIgnoringAsciiCase_iff.2 (sameIgnoringAsciiCase_iff.1 h').symm)⟩

/-! ## Entries in order

A sorted map is a list of entries with growing keys, which insertion keeps.
-/

namespace SortedMap

variable {α : Type} {key : String} {value : α}

/-- The entries stand in the order of their keys, and every key is there once. -/
def Ordered (m : SortedMap α) : Prop :=
  m.keys.Pairwise (· < ·)

/-- The keys after an insertion. -/
theorem mem_keys_insertSorted {k : String} : ∀ {entries : List (String × α)},
    k ∈ (insertSorted key value entries).map Prod.fst ↔ k = key ∨ k ∈ entries.map Prod.fst
  | [] => by simp [insertSorted]
  | (k', v') :: rest => by
    rw [insertSorted]
    split
    · simp
    · split
      · next heq =>
        rw [beq_iff_eq] at heq
        simp [heq]
      · rw [List.map_cons, List.mem_cons, mem_keys_insertSorted, List.map_cons, List.mem_cons]
        exact or_left_comm

/-- Insertion keeps the keys in order. -/
theorem pairwise_insertSorted :
    ∀ {entries : List (String × α)}, (entries.map Prod.fst).Pairwise (· < ·) →
    ((insertSorted key value entries).map Prod.fst).Pairwise (· < ·)
  | [], _ => by simp [insertSorted]
  | (k', v') :: rest, h => by
    obtain ⟨hfirst, hrest⟩ := List.pairwise_cons.1 h
    rw [insertSorted]
    -- The key belongs before the first one, is the first one, or goes behind it.
    split
    · next hlt =>
      refine List.pairwise_cons.2 ⟨fun k hk => ?_, h⟩
      rcases List.mem_cons.1 hk with rfl | hk
      · exact hlt
      · exact String.lt_trans hlt (hfirst k hk)
    · next hlt =>
      split
      · next heq =>
        rw [beq_iff_eq] at heq
        subst heq
        exact List.pairwise_cons.2 ⟨hfirst, hrest⟩
      · next hne =>
        have hgt : k' < key := Std.lt_of_le_of_ne (String.not_lt.1 hlt) fun heq =>
          hne (by rw [heq, beq_self_eq_true])
        refine List.pairwise_cons.2 ⟨fun k hk => ?_, pairwise_insertSorted hrest⟩
        rcases mem_keys_insertSorted.1 hk with rfl | hk
        · exact hgt
        · exact hfirst k hk

theorem ordered_empty : (empty : SortedMap α).Ordered :=
  List.Pairwise.nil

theorem Ordered.insert {m : SortedMap α} (h : m.Ordered) : (m.insert key value).Ordered :=
  pairwise_insertSorted h

theorem Ordered.foldl_insert : ∀ (pairs : List (String × α)) {m : SortedMap α}, m.Ordered →
    (pairs.foldl (fun m p => m.insert p.1 p.2) m).Ordered
  | [], _, h => h
  | _ :: rest, _, h => foldl_insert rest (SortedMap.Ordered.insert h)

/-- However a map is made from pairs, its entries are in order. -/
theorem ordered_ofList (pairs : List (String × α)) : (ofList pairs).Ordered :=
  ordered_empty.foldl_insert pairs

end SortedMap

/-! ## The targets of settings

Targets are read from a table into a sorted map, and nothing else changes them.
-/

namespace Toml.Decode

variable {α β : Type}

/-- A map of settings is read into order. -/
theorem ordered_of_map {read : Item → Decoded α} {x : Item} {m : SortedMap α}
    (h : map read x = .ok m) :
    m.Ordered := by
  rw [map] at h
  split at h
  · next entries _ =>
    rw [within, Outcome.mapError_eq_ok] at h
    -- A table that is read is made by insertions.
    cases hv : values read entries with
    | error e =>
      rw [hv] at h
      cases h
    | ok pairs =>
      rw [hv] at h
      cases h
      exact SortedMap.ordered_ofList pairs
  · cases h

/-- What every entry keeps holds of the draft in the end. -/
theorem fold_keeps {P : β → Prop} {read : β → Entry → Decoded β}
    (hstep : ∀ {draft draft' : β} {e : Entry}, read draft e = .ok draft' → P draft → P draft') :
    ∀ {entries : List Entry} {draft draft' : β}, fold read entries draft = .ok draft' →
    P draft → P draft'
  | [], _, _, h, hP => by
    cases h
    exact hP
  | e :: rest, draft, draft', h, hP => by
    obtain ⟨next, hnext, h⟩ := Outcome.bind_eq_ok.1 h
    exact fold_keeps hstep h (hstep hnext hP)

end Toml.Decode

namespace Settings

/-- An entry leaves the targets in order: it replaces all of them or none. -/
theorem ordered_targets_of_set {s s' : Settings} {e : Toml.Entry} (h : s.set e = .ok s')
    (hs : s.targets.Ordered) : s'.targets.Ordered := by
  rw [set] at h
  -- Only the third of the settings sets the targets.
  split at h
  · obtain ⟨_, -, h⟩ := Outcome.bind_eq_ok.1 h
    cases h
    exact hs
  · obtain ⟨_, -, h⟩ := Outcome.bind_eq_ok.1 h
    cases h
    exact hs
  · obtain ⟨targets, htargets, h⟩ := Outcome.bind_eq_ok.1 h
    cases h
    exact Toml.Decode.ordered_of_map (Outcome.mapError_eq_ok.1 htargets)
  · cases h
    exact hs

/-- So are the targets of settings. -/
theorem ordered_targets_of_ofText {text : String} {s : Settings} (h : ofText text = .ok s) :
    s.targets.Ordered := by
  rw [ofText, Toml.decodeText] at h
  split at h
  · cases h
  · have hstart : ({} : Settings).targets.Ordered := SortedMap.ordered_empty
    exact Toml.Decode.fold_keeps (P := fun s => s.targets.Ordered) ordered_targets_of_set
      (Outcome.mapError_eq_ok.1 h) hstart

end Settings

/-! ## The target of a name

The first target whose name is the same without regard to case is the one that is found.
-/

namespace Config

variable {c : Config} {text name : String} {path : Path} {t : String × TargetSettings}

/-- So are the targets of a project. -/
theorem ordered_of_ofText (h : ofText text path = .ok c) : c.settings.targets.Ordered := by
  rw [ofText] at h
  split at h
  · next settings hs =>
    cases h
    exact Settings.ordered_targets_of_ofText hs
  · cases h

/-- The target that a name means is the first one with this name in any case. -/
theorem findTarget?_eq_some_iff (hc : c.settings.targets.Ordered) :
    c.findTarget? name = some t ↔ t ∈ c.settings.targets.entries ∧ sameIgnoringAsciiCase t.1 name ∧
      ∀ other ∈ c.targetNames, other < t.1 → ¬sameIgnoringAsciiCase other name := by
  rw [findTarget?, List.find?_eq_some_iff_append]
  -- Names before the one that is found are smaller, and those behind it greater.
  constructor
  · rintro ⟨hname, before, after, hentries, hbefore⟩
    refine ⟨by simp [hentries], hname, fun other hother hlt => ?_⟩
    rw [SortedMap.Ordered, SortedMap.keys, hentries, List.map_append, List.map_cons] at hc
    rw [targetNames, SortedMap.keys, hentries, List.map_append, List.map_cons, List.mem_append,
      List.mem_cons] at hother
    rcases hother with hother | rfl | hother
    · obtain ⟨u, hu, rfl⟩ := List.mem_map.1 hother
      simpa using hbefore u hu
    · exact absurd hlt (String.lt_irrefl _)
    · exact absurd (String.lt_trans hlt
        (List.rel_of_pairwise_cons (List.pairwise_append.1 hc).2.1 hother)) (String.lt_irrefl _)
  · rintro ⟨hmem, hname, hfirst⟩
    obtain ⟨before, after, hentries⟩ := List.append_of_mem hmem
    refine ⟨hname, before, after, hentries, fun u hu => ?_⟩
    rw [SortedMap.Ordered, SortedMap.keys, hentries, List.map_append, List.pairwise_append] at hc
    have hlt : u.1 < t.1 := hc.2.2 u.1 (List.mem_map_of_mem hu) t.1 List.mem_cons_self
    have hother : u.1 ∈ c.targetNames := List.mem_map_of_mem (by simp [hentries, hu])
    simpa using hfirst u.1 hother hlt

/-- Every name of a target finds one, and other names for targets do not get in its way. -/
theorem exists_target_eq (hname : name ∈ c.targetNames) :
    ∃ t, c.findTarget? name = some t ∧ c.target name = c.resolveTarget t.1 t.2 := by
  obtain ⟨u, hu, rfl⟩ := List.mem_map.1 hname
  have hsome : (c.findTarget? u.1).isSome :=
    List.find?_isSome.2 ⟨u, hu, sameIgnoringAsciiCase_refl u.1⟩
  obtain ⟨t, ht⟩ := Option.isSome_iff_exists.1 hsome
  exact ⟨t, ht, by rw [target, ht, Option.some_or]⟩

/-- A resolved target has the name that it was found by. -/
theorem name_of_resolveTarget {s : TargetSettings} {target : Target}
    (h : c.resolveTarget name s = .ok target) : target.name = name := by
  unfold resolveTarget at h
  dsimp only at h
  split at h
  · cases h
  · cases h
    rfl

/-- A target is found by its own name if and only if no target in front of it has this
name in another case. -/
theorem target_name_eq_iff (hc : c.settings.targets.Ordered) (ht : t ∈ c.settings.targets.entries)
    {target : Target} (h : c.target t.1 = .ok target) :
    target.name = t.1 ↔ ∀ other ∈ c.targetNames, other < t.1 →
    ¬sameIgnoringAsciiCase other t.1 := by
  obtain ⟨u, hu, hresolve⟩ := exists_target_eq (List.mem_map_of_mem ht)
  obtain ⟨hmem, -, hfirst⟩ := (findTarget?_eq_some_iff hc).1 hu
  rw [hresolve] at h
  rw [name_of_resolveTarget h]
  -- The first of several names that differ in case only is the one that is found.
  constructor
  · intro heq
    rwa [heq] at hfirst
  · intro hnone
    have hfound := (findTarget?_eq_some_iff hc).2 ⟨ht, sameIgnoringAsciiCase_refl t.1, hnone⟩
    rw [hu] at hfound
    cases hfound
    rfl

/-- Naming all targets goes through the names; without any target, no name is given. -/
theorem select_targetNames (c : Config) :
    c.select c.targetNames = c.settings.targets.entries.mapM fun t => c.target t.1 := by
  rw [select, targetNames, SortedMap.keys]
  cases c.settings.targets.entries with
  | nil => rfl
  | cons t rest =>
    rw [if_neg (by simp), List.mapM_map]
    rfl

/-- Naming all targets selects all of them if and only if no two names are the same up
to the case of letters, whatever other names there are. The name of a target always
means one of the targets: of those that have this name in some case, the first. -/
theorem select_targetNames_iff {targets : List Target} (hp : ofText text path = .ok c)
    (hs : c.select [] = .ok targets) :
    (c.select c.targetNames = .ok targets ↔
      c.targetNames.Pairwise fun a b => ¬sameIgnoringAsciiCase a b) ∧
    ∀ name ∈ c.targetNames, ∃ target ∈ targets, c.target name = .ok target ∧
      sameIgnoringAsciiCase target.name name ∧
      (∀ other ∈ c.targetNames, sameIgnoringAsciiCase other name → target.name ≤ other) ∧
      (target.name = name ↔ ∀ other ∈ c.targetNames,
        other < name → ¬sameIgnoringAsciiCase other name) := by
  have hc := ordered_of_ofText hp
  have hall : c.settings.targets.entries.mapM (fun t => c.resolveTarget t.1 t.2) = .ok targets := hs
  -- A name leads to one of the targets that are resolved without names.
  have hresolved : ∀ name ∈ c.targetNames, ∃ t ∈ c.settings.targets.entries, ∃ target ∈ targets,
      c.findTarget? name = some t ∧ c.resolveTarget t.1 t.2 = .ok target ∧
      c.target name = .ok target := by
    intro name hname
    obtain ⟨t, ht, htarget⟩ := exists_target_eq hname
    have hmem := ((findTarget?_eq_some_iff hc).1 ht).1
    obtain ⟨target, htargets, hresolve⟩ := Outcome.exists_of_mapM_eq_ok hall t hmem
    exact ⟨t, hmem, target, htargets, ht, hresolve, htarget.trans hresolve⟩
  constructor
  -- Both lists are the same if each name leads to its own target.
  · rw [select_targetNames, Outcome.mapM_eq_ok_iff_forall_eq hall]
    constructor
    · intro hsame
      refine List.Pairwise.imp_of_mem (fun {a b} ha hb hlt => ?_) hc
      obtain ⟨t, ht, rfl⟩ := List.mem_map.1 hb
      obtain ⟨u, hu, target, -, hfind, hresolve, htarget⟩ := hresolved t.1 hb
      have hname := hsame t ht
      rw [htarget] at hname
      exact (target_name_eq_iff hc ht htarget).1 (name_of_resolveTarget hname.symm) a ha hlt
    · intro hapart t ht
      have hname : t.1 ∈ c.targetNames := List.mem_map_of_mem ht
      have hfirst : ∀ other ∈ c.targetNames, other < t.1 → ¬sameIgnoringAsciiCase other t.1 :=
        fun other hother hlt => hapart.forall hother hname fun heq => String.lt_irrefl _ (heq ▸ hlt)
      have hfind := (findTarget?_eq_some_iff hc).2 ⟨ht, sameIgnoringAsciiCase_refl t.1, hfirst⟩
      rw [target, hfind, Option.some_or]
  · intro name hname
    obtain ⟨t, ht, target, htargets, hfind, hresolve, htarget⟩ := hresolved name hname
    obtain ⟨-, hsame, hfirst⟩ := (findTarget?_eq_some_iff hc).1 hfind
    obtain ⟨u, hu, rfl⟩ := List.mem_map.1 hname
    have hcase := name_of_resolveTarget hresolve
    refine ⟨target, htargets, htarget, hcase ▸ hsame, fun other hother hother' => ?_,
      target_name_eq_iff hc hu htarget⟩
    rw [hcase]
    exact String.not_lt.1 fun hlt => hfirst other hother hlt hother'

/-- Settings with two targets, each of which has the name of the other one in another
case as another name. -/
def crossedText : String :=
  Text.unlines [
    "[aliases]", "JS = \"as2\"", "AS2 = \"js\"",
    "[targets.as2.output_dirs]", "objects = \"a\"", "components = \"b\"", "results = \"c\"",
    "[targets.js.output_dirs]", "objects = \"d\"", "components = \"e\"", "results = \"f\""]

/-- Names that also stand for other targets select the targets that have them. -/
theorem select_targetNames_crossedText : ∃ c targets, ofText crossedText ⟨"modgen.toml"⟩ = .ok c ∧
    c.select [] = .ok targets ∧ targets.map Target.name = ["as2", "js"] ∧
    c.select c.targetNames = .ok targets := by
  have hcheck : (ofText crossedText ⟨"modgen.toml"⟩).toOption.any (fun c =>
      (c.select []).toOption.any fun targets =>
        decide (targets.map Target.name = ["as2", "js"] ∧
          c.targetNames.Pairwise fun a b => ¬sameIgnoringAsciiCase a b)) = true := by decide +kernel
  obtain ⟨c, hp, hcheck⟩ := Outcome.exists_of_any_toOption hcheck
  obtain ⟨targets, hs, hcheck⟩ := Outcome.exists_of_any_toOption hcheck
  obtain ⟨hnames, hapart⟩ := of_decide_eq_true hcheck
  exact ⟨c, targets, hp, hs, hnames, (select_targetNames_iff hp hs).1.2 hapart⟩

/-- Settings with two targets whose names differ in the case of letters. -/
def twinsText : String :=
  Text.unlines [
    "[targets.JS.output_dirs]", "objects = \"a\"", "components = \"b\"", "results = \"c\"",
    "[targets.js.output_dirs]", "objects = \"d\"", "components = \"e\"", "results = \"f\""]

/-- The second of two such targets cannot be selected: its name means the first one. -/
theorem not_select_targetNames_twinsText :
    ∃ c targets target, ofText twinsText ⟨"modgen.toml"⟩ = .ok c ∧
    c.select [] = .ok targets ∧ c.select c.targetNames ≠ .ok targets ∧
    "js" ∈ c.targetNames ∧ c.target "js" = .ok target ∧ target.name = "JS" := by
  -- All of it is computed from the text at once.
  have hcheck : (ofText twinsText ⟨"modgen.toml"⟩).toOption.any (fun c =>
      (c.select []).toOption.any fun targets =>
      (c.target "js").toOption.any fun target =>
        decide ((c.select c.targetNames).toOption ≠ some targets ∧ "js" ∈ c.targetNames ∧
          target.name = "JS")) =
      true := by decide +kernel
  obtain ⟨c, hp, hcheck⟩ := Outcome.exists_of_any_toOption hcheck
  obtain ⟨targets, hs, hcheck⟩ := Outcome.exists_of_any_toOption hcheck
  obtain ⟨target, ht, hcheck⟩ := Outcome.exists_of_any_toOption hcheck
  obtain ⟨hother, hmem, hname⟩ := of_decide_eq_true hcheck
  exact ⟨c, targets, target, hp, hs, fun h => hother (by rw [h]; rfl), hmem, ht, hname⟩

end Config

end Classwright
