import Classwright.Proofs.Links

/-!
# The routes of specifiers

A specifier between two paths below one root is read step by step from the directory of
its module. Its steps up come first. Each of them cancels a name that the directory does
not share with the target, and the names after them lead down to the target
(`Path.specifier_returns`). From a relative path to an absolute one there is no such
route. The specifier then repeats the components of the target, the root among them, so
that two slashes stand before the first name and a reader takes it for a host
(`Path.specifier_of_isAbsolute`).
-/

namespace Classwright.Path

open Component (IsNamed Written)

/-! ## Between paths below one root

Reading a specifier step by step is a fold over its steps, and what it has reached after
its steps up is what both paths share.
-/

/-- Whether a specifier leads from a module to a target and goes up no further than to
what the two share. -/
structure Returns (source target : Path) (specifier : String) : Prop where
  /-- It starts like a relative specifier. -/
  relative : Text.startsWith "./" specifier || Text.startsWith "../" specifier
  /-- It leads from the directory of the module to the target. -/
  arrives : resolve? source.components.dropLast specifier = some target.components
  /-- A step up cancels the name before it, and what is kept begins with all that both
  paths begin with. -/
  cancels : ∀ before after, specifierSteps specifier = before ++ .up :: after → ∃ kept name,
    before.foldl enter source.components.dropLast = kept ++ [.name name] ∧
      (before ++ [.up]).foldl enter source.components.dropLast = kept ∧
        ∀ shared, shared <+: source.components → shared <+: target.components → shared <+: kept

/-- Where two lists part, what both begin with ends. -/
theorem prefix_of_apart {shared common left right : List Component} (hl : shared <+: common ++ left)
    (hr : shared <+: common ++ right) (apart : ∀ c ∈ right.head?, c ∉ left.head?) :
    shared <+: common := by
  rcases List.prefix_or_prefix_of_prefix hl (List.prefix_append common left) with h | ⟨tail, rfl⟩
  · exact h
  · rw [List.prefix_append_right_inj] at hl hr
    cases tail with
    | nil => rw [List.append_nil]
    | cons c tail =>
      obtain ⟨left', rfl⟩ := hl
      obtain ⟨right', rfl⟩ := hr
      exact absurd rfl (apart c rfl)

/-- Steps up from names, up to one of them: as many names are left, counted from the
inside. -/
theorem exists_of_up_mem {below rest before after : List Component} (hrest : ∀ c ∈ rest, c.IsNamed)
    (h : (below.map fun _ => Component.up) ++ rest = before ++ .up :: after) :
    ∃ outer c inner, below = outer ++ c :: inner ∧ before = inner.map fun _ => Component.up := by
  have hup : Component.up ∉ rest := fun hmem => absurd (hrest _ hmem) (by decide)
  -- All steps up are the same, so that they may be counted off from the last name of
  -- the directory.
  have hreverse : (below.map fun _ => Component.up) = below.reverse.map fun _ => Component.up := by
    simp [List.map_const']
  rw [hreverse] at h
  rcases List.append_eq_append_iff.1 h with ⟨steps, -, hsteps⟩ | ⟨steps, hsteps, htail⟩
  · exact (hup (by simp [hsteps])).elim
  · cases steps with
    | nil =>
      rw [List.nil_append] at htail
      exact (hup (by simp [← htail])).elim
    | cons step steps =>
      obtain ⟨inner, others, hbelow, rfl, hothers⟩ := List.map_eq_append_iff.1 hsteps
      obtain ⟨c, outer, rfl, -, -⟩ := List.map_eq_cons_iff.1 hothers
      refine ⟨outer.reverse, c, inner.reverse, ?_, by simp [List.map_const']⟩
      rw [← List.reverse_reverse below, hbelow]
      simp

/-- Between paths below one start, the specifier climbs no higher than it has to and
arrives. -/
theorem returns_of_namedBelow {source target : Path} {start : List Component}
    (hs : source.NamedBelow start) (ht : target.NamedBelow start) :
    Returns source target (source.specifier target) := by
  obtain ⟨common, below, rest, hfork, hrest, hspecifier⟩ := exists_specifier_eq hs ht
  obtain ⟨hrelative, hsteps⟩ := specifierSteps_specifierOf (hfork.written hrest)
  refine ⟨by rw [hspecifier, hrelative], resolve?_specifier hs ht, fun before after h => ?_⟩
  rw [hspecifier, hsteps] at h
  obtain ⟨outer, c, inner, rfl, rfl⟩ := exists_of_up_mem hrest h
  obtain ⟨houter, hc, hinner⟩ : (∀ c ∈ outer, c.IsNamed) ∧ c.IsNamed ∧ ∀ c ∈ inner, c.IsNamed := by
    simpa [or_imp, forall_and] using hfork.named
  obtain ⟨s, rfl⟩ := hc
  -- A step up stands for a component of the directory of the source.
  have hdir : source.components.dropLast = common ++ outer ++ [Component.name s] ++ inner := by
    rw [hfork.base_eq]
    simp
  -- The steps before it have left all that is inside that component.
  have hclimb : (inner.map fun _ => Component.up).foldl enter source.components.dropLast =
      common ++ outer ++ [Component.name s] := by
    rw [hdir, foldl_enter_up hinner]
  refine ⟨common ++ outer, s, hclimb, ?_, fun shared hsource htarget => ?_⟩
  · rw [List.foldl_append, hclimb]
    simp [enter]
  -- What both paths begin with ends before the component that is left.
  · obtain ⟨last, hlast⟩ : ∃ last, source.components =
      common ++ (outer ++ .name s :: inner ++ [last]) := by
      obtain ⟨front, last, hcomponents, -⟩ := hs
      refine ⟨.name last, ?_⟩
      rw [← List.append_assoc common, ← hfork.base_eq, hcomponents, ← List.append_assoc,
        List.dropLast_concat]
    rw [hlast] at hsource
    rw [hfork.target_eq] at htarget
    refine (prefix_of_apart hsource htarget fun c hc => ?_).trans (List.prefix_append common outer)
    have happart := hfork.apart c hc
    cases outer <;> simpa using happart

/-- A specifier between two paths of names below one root, whatever the root is, leads
from the directory of the one to the other, and no step up leaves what both paths begin
with. -/
theorem specifier_returns (root source target : Path) (hs : source.IsOrdinary)
    (ht : target.IsOrdinary) :
    Returns (root.join source) (root.join target)
      ((root.join source).specifier (root.join target)) :=
  returns_of_namedBelow (RootedAt.namedBelow ⟨source, hs,
    rfl⟩) (RootedAt.namedBelow ⟨target, ht, rfl⟩)

/-- A root that is itself reached upwards stays out of the specifier. -/
theorem specifier_returns_upwards :
    (⟨"out/objects/User.js"⟩ : Path).IsOrdinary ∧ (⟨"out/lib/runtime.js"⟩ : Path).IsOrdinary ∧
      Returns ⟨".././api/../out/objects/User.js"⟩ ⟨".././api/../out/lib/runtime.js"⟩
      "../lib/runtime.js" :=
  ⟨by decide, by decide,
    specifier_returns ⟨".././api/.."⟩ ⟨"out/objects/User.js"⟩ ⟨"out/lib/runtime.js"⟩ (by decide)
    (by decide)⟩

/-! ## From a relative path to an absolute one

There is no way from a relative directory to an absolute path, so the target itself is
written, with a slash between the root and the first name.
-/

/-- The text of an absolute path that has one slash in front and one between each two
components. -/
def absoluteText (p : Path) : String :=
  "/" ++ Text.joinWith "/" (p.components.tail.map componentText)

/-- Behind the root of an absolute path there are only components that can be written as
pieces. -/
theorem exists_components_of_isAbsolute {p : Path} (h : p.isAbsolute) :
    ∃ cs, p.components = .root :: cs ∧ ∀ c ∈ cs, c.Written := by
  obtain ⟨first, rest, hp⟩ := exists_pieces_eq_cons p.text.toList
  have hslash := slash_notMem_of_mem_pieces p.text.toList
  rw [hp, List.forall_mem_cons] at hslash
  -- Pieces have no slash, so what they stand for can be written.
  have hwritten : ∀ c ∈ rest.filterMap laterComponent?, c.Written := by
    intro c hc
    obtain ⟨piece, hpiece, hc⟩ := List.mem_filterMap.1 hc
    exact written_of_laterComponent? (hslash.2 piece hpiece) hc
  have hhead := isAbsolute_iff_components.1 h
  rw [components_of_pieces hp] at hhead ⊢
  -- The root is the first component, and no later piece stands for it.
  cases hfirst : firstComponent? first rest with
  | none =>
    rw [hfirst, Option.toList_none, List.nil_append] at hhead
    obtain ⟨piece, -, hroot⟩ := List.mem_filterMap.1 (List.mem_of_mem_head? hhead)
    exact absurd hroot (laterComponent?_ne_root piece)
  | some c =>
    rw [hfirst, Option.toList_some, List.singleton_append, List.head?_cons,
      Option.some.injEq] at hhead
    exact ⟨rest.filterMap laterComponent?, by rw [hhead]; rfl, hwritten⟩

/-- A path is absolute if its parent is. -/
theorem isAbsolute_of_parent? {p q : Path} (h : p.parent? = some q) (hq : q.isAbsolute) :
    p.isAbsolute := by
  obtain ⟨ms, silent, m, after, hmarks, rfl, -, -, hm, -⟩ := exists_marks_of_parent? h
  have hne : p.text ≠ "" := by
    intro he
    have hsilent := components_of_text_eq he
    rw [components, List.filterMap_eq_nil_iff] at hsilent
    have hnone : m.2 = none := hsilent m (by simp [hmarks])
    simp [hnone] at hm
  rw [isAbsolute_iff_components, components_ofMarks hmarks hne] at hq
  rw [isAbsolute_iff_components, components, hmarks, List.filterMap_append, List.head?_append, hq,
    Option.some_or]

/-- From a relative path, the specifier of an absolute one is made of its components. -/
theorem specifier_eq_specifierOf {source target : Path} (hs : ¬source.isAbsolute)
    (ht : target.isAbsolute) : source.specifier target = specifierOf target.components := by
  have hbase : (source.parent?.getD ⟨""⟩).isAbsolute = false := by
    cases hp : source.parent? with
    | none => rfl
    | some base => simpa using fun hb => hs (isAbsolute_of_parent? hp hb)
  have hrelative : target.relativeTo? (source.parent?.getD ⟨""⟩) = some target := by
    simp [relativeTo?, hbase, ht]
  rw [specifier_eq, hrelative, Option.getD_some]

/-- The root is a component with a slash of its own, to which another one is joined. -/
theorem specifierOf_root (cs : List Component) : specifierOf (.root :: cs) =
    (if cs = [] then "/" else "//") ++ Text.joinWith "/" (cs.map componentText) := by
  have htext : Text.joinWith "/" ((Component.root :: cs).map componentText) =
      (if cs = [] then "/" else "//") ++ Text.joinWith "/" (cs.map componentText) := by
    cases cs with
    | nil => rfl
    | cons c cs => rfl
  have hslash :
      Text.startsWith "/" (Text.joinWith "/" ((Component.root :: cs).map componentText)) := by
    rw [htext, Text.startsWith, String.toList_append]
    split <;> rfl
  rw [specifierOf, hslash, Bool.or_true, if_pos rfl, htext]

/-- The specifier of an absolute path in a relative one has one slash more than the
path, unless the path is the root alone. So it is the absolute path for the root alone,
and starts with two slashes for any other path. -/
theorem specifier_of_isAbsolute (source target : Path) (hs : ¬source.isAbsolute)
    (ht : target.isAbsolute) :
    source.specifier target =
      (if target.components = [.root] then "" else "/") ++ target.absoluteText ∧
    (source.specifier target = target.absoluteText ↔ target.components = [.root]) ∧
    (Text.startsWith "//" (source.specifier target) ↔ target.components ≠ [.root]) ∧
    ¬Text.startsWith "//" target.absoluteText := by
  obtain ⟨cs, hcs, hwritten⟩ := exists_components_of_isAbsolute ht
  have htext : target.absoluteText = "/" ++ Text.joinWith "/" (cs.map componentText) := by
    rw [absoluteText, hcs, List.tail_cons]
  -- One slash is in front of the components, and none of them starts with one.
  have hone : Text.startsWith "//" target.absoluteText = false := by
    have hslash := not_startsWith_slash_joinWith hwritten
    rw [Text.startsWith] at hslash
    simpa [htext, Text.startsWith, String.toList_append] using hslash
  have hspecifier : source.specifier target =
      (if target.components = [.root] then "" else "/") ++ target.absoluteText := by
    rw [specifier_eq_specifierOf hs ht, hcs, specifierOf_root, htext]
    by_cases h : cs = []
    · simp [h]
    · simp [h, ← String.append_assoc]
  -- The slash that is put in front makes two, unless there is only the root.
  have htwo : Text.startsWith "//" (source.specifier target) ↔ target.components ≠ [.root] := by
    rw [hspecifier]
    by_cases h : target.components = [.root]
    · simp [h, hone]
    · simp [h, htext, Text.startsWith, String.toList_append]
  refine ⟨hspecifier, ⟨fun h => ?_, fun h => by rw [hspecifier, if_pos h, String.empty_append]⟩,
    htwo, by simp [hone]⟩
  by_contra hne
  have hstarts := htwo.2 hne
  rw [h, hone] at hstarts
  cases hstarts

/-- The specifier of a module outside the project starts with two slashes. -/
theorem specifier_of_isAbsolute_runtime :
    ¬(⟨"out/objects/User.js"⟩ : Path).isAbsolute ∧ (⟨"/srv/./lib//runtime.js"⟩ : Path).isAbsolute ∧
      (⟨"out/objects/User.js"⟩ : Path).specifier ⟨"/srv/./lib//runtime.js"⟩ =
      "//srv/lib/runtime.js" :=
  ⟨by decide, by decide, (specifier_of_isAbsolute ⟨"out/objects/User.js"⟩ ⟨"/srv/./lib//runtime.js"⟩
    (by decide) (by decide)).1.trans (by decide)⟩

/-- It is not the absolute path of the module. -/
theorem not_specifier_eq_absoluteText_runtime :
    ¬∀ source target : Path, ¬source.isAbsolute → target.isAbsolute →
      source.specifier target = target.absoluteText := by
  intro h
  have htext := h ⟨"out/objects/User.js"⟩ ⟨"/srv/lib/runtime.js"⟩ (by decide) (by decide)
  exact absurd htext (by decide)

end Classwright.Path
