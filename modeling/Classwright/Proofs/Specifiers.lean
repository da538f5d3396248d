import Classwright.Proofs.Destinations
import Classwright.Proofs.Places

/-!
# Module specifiers

A specifier is read piece by piece from the directory of the importing module: `..`
leaves a directory and a name enters one (`Path.resolve?`). It is written from the way
between two paths (`Path.way?`), which drops what the directory and the target share,
climbs out of the rest of the directory and goes down to the target. Where both paths
end in names below a shared start, whatever that is, they part at some name
(`Path.exists_fork`), and reading the specifier leads to the components of the target
(`Path.resolve?_specifier`).
-/

namespace Classwright

namespace Component

/-- Whether a component is a name. -/
def IsNamed (c : Component) : Prop :=
  ∃ s, c = .name s

instance : DecidablePred IsNamed
  | .name s => .isTrue ⟨s, rfl⟩
  | .root => .isFalse nofun
  | .here => .isFalse nofun
  | .up => .isFalse nofun

theorem head?_ne_of_isNamed {cs : List Component} (h : ∀ c ∈ cs, c.IsNamed) {c : Component}
    (hc : ¬c.IsNamed) : cs.head? ≠ some c :=
  fun hh => hc (h c (List.mem_of_mem_head? hh))

/-- Whether the text of a component is a piece that stands for the component anywhere
but in front. -/
structure Written (c : Component) : Prop where
  /-- The text has no slash. -/
  slash : '/' ∉ (Path.componentText c).toList
  /-- The text stands for the component. -/
  itself : Path.laterComponent? (Path.componentText c).toList = some c

theorem written_up : Written .up :=
  ⟨by decide, by decide⟩

end Component

namespace Path

open Component (IsNamed Written head?_ne_of_isNamed written_up)

/-! ## Components

A component that is named stands in a path as a piece of its own, and the parent of a
path has all components but the last one.
-/

/-- A component of a piece without a slash is written as one piece. -/
theorem written_of_laterComponent? {piece : List Char} {c : Component} (hs : '/' ∉ piece)
    (h : laterComponent? piece = some c) : c.Written := by
  have hpiece := h
  unfold laterComponent? at h
  split_ifs at h with hsilent hup
  · cases h
    exact written_up
  · cases h
    constructor
    · simpa [componentText] using hs
    · simpa [componentText] using hpiece

/-- The names of a path can be written as pieces. -/
theorem written_of_mem_components {p : Path} {c : Component} (h : c ∈ p.components)
    (hc : c.IsNamed) : c.Written := by
  obtain ⟨first, rest, hp⟩ := exists_pieces_eq_cons p.text.toList
  have hslash := slash_notMem_of_mem_pieces p.text.toList
  rw [hp, List.forall_mem_cons] at hslash
  rw [components_of_pieces hp] at h
  -- The component comes from the first piece or from a later one.
  rcases List.mem_append.1 h with h | h
  · have h : firstComponent? first rest = some c := Option.mem_toList.1 h
    obtain ⟨s, rfl⟩ := hc
    unfold firstComponent? at h
    split_ifs at h with hroot hdot
    · cases h
    · cases h
    · exact written_of_laterComponent? hslash.1 h
  · obtain ⟨piece, hpiece, h⟩ := List.mem_filterMap.1 h
    exact written_of_laterComponent? (hslash.2 piece hpiece) h

/-- A path is absolute exactly if its first component is the root. -/
theorem isAbsolute_iff_components {p : Path} : p.isAbsolute ↔ p.components.head? = some .root := by
  by_cases hne : p.text = ""
  · simp [isAbsolute, hne, components_of_text_eq hne]
  · obtain ⟨first, rest, hp⟩ := exists_pieces_eq_cons p.text.toList
    rw [isAbsolute_iff_marks hne, marks, hp, components_of_pieces hp]
    -- Only the first piece can stand for the root.
    cases hfirst : firstComponent? first rest with
    | none =>
      have hroot : ∀ c ∈ rest.filterMap laterComponent?, c ≠ .root := by
        rintro c hc rfl
        obtain ⟨piece, -, hpiece⟩ := List.mem_filterMap.1 hc
        exact laterComponent?_ne_root piece hpiece
      have hhead : (rest.filterMap laterComponent?).head? ≠ some .root := fun h =>
        hroot _ (List.mem_of_mem_head? h) rfl
      simpa [hfirst] using hhead
    | some c =>
      have hnil : c = .root → first = [] := by
        rintro rfl
        exact firstComponent?_eq_root hfirst
      simpa [hfirst] using hnil

/-- Marks after the first one carry the components of their pieces. -/
theorem filterMap_map_fst {rest : List (List Char)} {ms after : List Mark}
    (h : rest.map (fun piece => (piece, laterComponent? piece)) = ms ++ after) :
    (ms.map Prod.fst).filterMap laterComponent? = ms.filterMap Prod.snd := by
  rw [List.filterMap_map]
  refine List.filterMap_congr fun m hm => ?_
  have hm : m ∈ rest.map fun piece => (piece, laterComponent? piece) :=
    h ▸ List.mem_append_left _ hm
  obtain ⟨piece, -, rfl⟩ := List.mem_map.1 hm
  rfl

/-- The marks in front of a path, taken as a path, have their components. -/
theorem components_ofMarks {p : Path} {ms after : List Mark} (h : p.marks = ms ++ after)
    (hne : p.text ≠ "") : (ofMarks ms).components = ms.filterMap Prod.snd := by
  have hl : Leading ms := Leading.left (h ▸ leading_marks hne)
  cases ms with
  | nil => rfl
  | cons m ms =>
    obtain ⟨first, rest, hp⟩ := exists_pieces_eq_cons p.text.toList
    rw [marks, hp, List.cons_append, List.cons.injEq] at h
    obtain ⟨rfl, hrest⟩ := h
    -- The pieces that are joined are those that are cut again, as none has a slash.
    have hpieces : pieces (joinPieces (first :: ms.map Prod.fst)) = first :: ms.map Prod.fst := by
      refine pieces_joinPieces (by simp) fun piece hpiece => ?_
      rw [← List.map_cons (f := Prod.fst) (a := (first, firstComponent? first rest))] at hpiece
      obtain ⟨m, hm, rfl⟩ := List.mem_map.1 hpiece
      exact hl.slash m hm
    unfold ofMarks
    split
    · next piece hsingle =>
      simp only [List.cons.injEq, Prod.mk.injEq] at hsingle
      obtain ⟨⟨-, hroot⟩, rfl⟩ := hsingle
      rw [hroot]
      rfl
    · next hsingle =>
      -- The first piece stands for the same, whatever is behind it.
      have hfirst : firstComponent? first (ms.map Prod.fst) = firstComponent? first rest := by
        refine firstComponent?_congr fun hf => ?_
        have hroot : firstComponent? first rest = some .root := hl.first _ rfl hf
        have hms : ms ≠ [] := by
          rintro rfl
          exact hsingle first (by rw [hroot])
        have hne : rest ≠ [] := by
          rintro rfl
          cases ms with
          | nil => exact hms rfl
          | cons m ms => cases hrest
        simp [hms, hne]
      have htext :
          pieces (⟨String.ofList (joinPieces (first :: ms.map Prod.fst))⟩ : Path).text.toList =
            first :: ms.map Prod.fst := by
        rw [String.toList_ofList, hpieces]
      rw [List.map_cons, components_of_pieces htext, hfirst, filterMap_map_fst hrest]
      cases hc : firstComponent? first rest <;> simp

/-- The pieces at the end that stand for no component do not count. -/
theorem components_eq_dropSilent (p : Path) :
    p.components = ((dropSilent p.marks.reverse).filterMap Prod.snd).reverse := by
  obtain ⟨rest, hrest, hnone⟩ := exists_dropSilentEnd p.marks
  have hsilent : rest.filterMap Prod.snd = [] := List.filterMap_eq_nil_iff.2 hnone
  rw [components]
  conv_lhs => rw [hrest]
  rw [List.filterMap_append, hsilent, List.append_nil, dropSilentEnd, List.filterMap_reverse]

/-- The parent of a path has all its components but the last one. -/
theorem exists_parent? {p : Path} {cs : List Component} {c : Component}
    (h : p.components = cs ++ [c]) (hc : c ≠ .root) :
    ∃ q, p.parent? = some q ∧ q.components = cs := by
  -- Without a parent the last component would be the root.
  cases hq : p.parent? with
  | none =>
    -- What is silent gives no component, so the last one comes from the mark that is
    -- cut.
    have hcomponents := h.symm.trans p.components_eq_dropSilent
    unfold parent? at hq
    split at hq
    · next hd => simp [hd] at hcomponents
    · next piece before hd =>
      have hlast : cs ++ [c] = (before.filterMap Prod.snd).reverse ++ [Component.root] := by
        simpa [hd] using hcomponents
      exact absurd (List.append_inj_right' hlast rfl) (by simpa using hc)
    · cases hq
  | some q =>
    obtain ⟨ms, silent, m, after, hms, rfl, hsilent, hafter, hm, -⟩ := exists_marks_of_parent? hq
    obtain ⟨c', hc'⟩ := Option.isSome_iff_exists.1 hm
    have hne : p.text ≠ "" := by
      intro he
      simp [components_of_text_eq he] at h
    have hcomponents : p.components = ms.filterMap Prod.snd ++ [c'] := by
      rw [components, hms, List.filterMap_append, List.filterMap_append,
        List.filterMap_eq_nil_iff.2 hsilent, List.filterMap_cons_some hc',
        List.filterMap_eq_nil_iff.2 hafter, List.nil_append]
    refine ⟨_, rfl, ?_⟩
    rw [components_ofMarks hms hne]
    exact (List.append_inj_left' (h.symm.trans hcomponents) rfl).symm

/-! ## The way between two paths

Both lists of components are gone through together as long as they agree. `Fork` is
where they part.
-/

/-- What two paths share does not matter to the way between them. -/
theorem way?_shared (shared target base : List Component) :
    way? [] (shared ++ target) (shared ++ base) = way? [] target base := by
  induction shared with
  | nil => rfl
  | cons c shared ih => simp [way?, ih]

/-- The way to the start climbs once for each component. -/
theorem way?_nil : ∀ (base moved : List Component),
    way? moved [] base = some (moved ++ base.map fun _ => Component.up)
  | [], moved => by simp [way?]
  | b :: base, moved => by
    rw [way?, way?_nil base]
    simp

/-- Whether a directory and a target have a start in common and part after it, the
directory going on with names. -/
structure Fork (base target common below rest : List Component) : Prop where
  /-- The directory is the common start and what is below it. -/
  base_eq : base = common ++ below
  /-- The target is the common start and the rest. -/
  target_eq : target = common ++ rest
  /-- The directory goes on with names. -/
  named : ∀ c ∈ below, c.IsNamed
  /-- The two part at once. -/
  apart : ∀ c ∈ rest.head?, c ∉ below.head?

/-- A fork is one below any start. -/
theorem Fork.below_start {base target common below rest : List Component}
    (h : Fork base target common below rest) (start : List Component) :
    Fork (start ++ base) (start ++ target) (start ++ common) below rest where
  base_eq := by rw [h.base_eq, List.append_assoc]
  target_eq := by rw [h.target_eq, List.append_assoc]
  named := h.named
  apart := h.apart

/-- The way from a directory of names climbs out of what the directory does not share
with the target. -/
theorem exists_way? : ∀ (target : List Component) {base : List Component}, (∀ c ∈ base, c.IsNamed) →
    ∃ common below rest, Fork base target common below rest ∧
      way? [] target base = some ((below.map fun _ => Component.up) ++ rest)
  | [], base, h => by
    refine ⟨[], base, [], ⟨rfl, rfl, h, by simp⟩, ?_⟩
    rw [way?_nil, List.nil_append, List.append_nil]
  | t :: target, [], h => ⟨[], [], t :: target, ⟨rfl, rfl, h, by simp⟩, rfl⟩
  | t :: target, b :: base, h => by
    -- A shared component is passed over, and the first one that differs ends what is
    -- shared.
    by_cases ht : t = b
    · obtain ⟨common, below, rest, hfork, hway⟩ := exists_way? target (List.forall_mem_cons.1 h).2
      refine ⟨b :: common, below, rest, ?_, ?_⟩
      · rw [ht]
        exact hfork.below_start [b]
      · rw [way?, ← hway]
        simp [ht]
    · refine ⟨[], b :: base, t :: target, ⟨rfl, rfl, h, by simpa using Ne.symm ht⟩, ?_⟩
      obtain ⟨s, rfl⟩ := h b List.mem_cons_self
      simp [way?, ht]

/-- A path built from written components has these components. -/
theorem components_foldl_child : ∀ {cs : List Component}, (∀ c ∈ cs, c.Written) → ∀ p : Path,
    (cs.foldl (fun p c => p.child (componentText c)) p).components = p.components ++ cs
  | [], _, p => (List.append_nil _).symm
  | c :: cs, h, p => by
    rw [List.forall_mem_cons] at h
    rw [List.foldl_cons, components_foldl_child h.2,
      p.components_child_of_later h.1.slash h.1.itself, List.append_assoc, List.singleton_append]

theorem components_ofComponents {cs : List Component} (h : ∀ c ∈ cs, c.Written) :
    (ofComponents cs).components = cs :=
  components_foldl_child h ⟨""⟩

/-! ## Resolution

Entering the steps of a specifier one by one undoes the way that it was written from.
-/

/-- Where a component leads from a directory. The way up from a directory without a name
is kept as it is. -/
def enter (dir : List Component) : Component → List Component
  | .root => [.root]
  | .here => dir
  | .up =>
    match dir.getLast? with
    | some (.name _) => dir.dropLast
    | some .root => dir
    | _ => dir ++ [.up]
  | .name s => dir ++ [.name s]

/-- The components of the module that a specifier denotes in the modules of a directory.
A specifier that starts with neither `./` nor `../` denotes no path. -/
def resolve? (dir : List Component) (specifier : String) : Option (List Component) :=
  if Text.startsWith "./" specifier || Text.startsWith "../" specifier then
    some (((pieces specifier.toList).filterMap laterComponent?).foldl enter dir)
  else none

/-- Climbing once for each name comes back. -/
theorem foldl_enter_up {dir below : List Component} (h : ∀ c ∈ below, c.IsNamed) :
    (below.map fun _ => Component.up).foldl enter (dir ++ below) = dir := by
  induction below using List.reverseRecOn with
  | nil => simp
  | append_singleton below c ih =>
    rw [List.forall_mem_append, List.forall_mem_singleton] at h
    obtain ⟨h, s, rfl⟩ := h
    -- The first step up leaves the innermost component, and by induction the others
    -- follow.
    have hup : enter (dir ++ (below ++ [Component.name s])) .up = dir ++ below := by
      rw [← List.append_assoc]
      simp [enter]
    have hmap : ((below ++ [Component.name s]).map fun _ => Component.up) =
        .up :: below.map fun _ => .up := by
      rw [List.map_const', List.map_const', List.length_append, List.length_singleton,
        List.replicate_succ]
    rw [hmap, List.foldl_cons, hup, ih h]

/-- Names are entered one after the other. -/
theorem foldl_enter_names : ∀ {names dir : List Component}, (∀ c ∈ names, c.IsNamed) →
    names.foldl enter dir = dir ++ names
  | [], dir, _ => (List.append_nil dir).symm
  | c :: names, dir, h => by
    rw [List.forall_mem_cons] at h
    obtain ⟨⟨s, rfl⟩, h⟩ := h
    rw [List.foldl_cons, foldl_enter_names h, enter, List.append_assoc, List.singleton_append]

theorem toList_joinWith (texts : List String) :
    (Text.joinWith "/" texts).toList = joinPieces (texts.map String.toList) := by
  rw [Text.joinWith_eq_intercalate, String.toList_intercalate, joinPieces_eq_intercalate]
  rfl

/-- Written components joined by slashes are the pieces of the text. -/
theorem pieces_joinWith {c : Component} {cs : List Component} (h : ∀ x ∈ c :: cs, x.Written) :
    pieces (Text.joinWith "/" ((c :: cs).map componentText)).toList =
      (c :: cs).map fun x => (componentText x).toList := by
  rw [toList_joinWith, List.map_map, pieces_joinPieces (by simp)]
  · rfl
  · intro piece hpiece
    obtain ⟨x, hx, rfl⟩ := List.mem_map.1 hpiece
    exact (h x hx).slash

/-- Components that are written with slashes between them are read back. -/
theorem filterMap_pieces_joinWith {cs : List Component} (h : ∀ c ∈ cs, c.Written) :
    (pieces (Text.joinWith "/" (cs.map componentText)).toList).filterMap laterComponent? = cs := by
  cases cs with
  | nil => rfl
  | cons c cs =>
    rw [pieces_joinWith h, List.filterMap_map]
    calc (c :: cs).filterMap (laterComponent? ∘ fun x => (componentText x).toList)
        = (c :: cs).filterMap some := List.filterMap_congr fun x hx => (h x hx).itself
      _ = c :: cs := List.filterMap_some

/-- Written components make no absolute text. -/
theorem not_startsWith_slash_joinWith {cs : List Component} (h : ∀ c ∈ cs, c.Written) :
    Text.startsWith "/" (Text.joinWith "/" (cs.map componentText)) = false := by
  cases cs with
  | nil => rfl
  | cons c cs =>
    rw [← Bool.not_eq_true, Text.startsWith, List.isPrefixOf_iff_prefix]
    rintro ⟨ds, hds⟩
    obtain ⟨rest, hrest⟩ := exists_pieces_eq_nil_cons.2 (Or.inr ⟨ds, hds.symm⟩)
    rw [pieces_joinWith h, List.map_cons, List.cons.injEq] at hrest
    have hc := (h c List.mem_cons_self).itself
    rw [hrest.1] at hc
    cases hc

/-- The specifier that is made of components. -/
def specifierOf (cs : List Component) : String :=
  let text := Text.joinWith "/" (cs.map componentText)
  if Text.startsWith "../" text || Text.startsWith "/" text then text else "./" ++ text

theorem specifier_eq (source target : Path) : source.specifier target =
    specifierOf ((target.relativeTo? (source.parent?.getD ⟨""⟩)).getD target).components :=
  rfl

/-- The steps that a specifier is read in. -/
def specifierSteps (specifier : String) : List Component :=
  (pieces specifier.toList).filterMap laterComponent?

/-- What is made of components is a relative specifier, and is read in their steps. -/
theorem specifierSteps_specifierOf {cs : List Component} (h : ∀ c ∈ cs, c.Written) :
    (Text.startsWith "./" (specifierOf cs) || Text.startsWith "../" (specifierOf cs)) = true ∧
      specifierSteps (specifierOf cs) = cs := by
  have hread := filterMap_pieces_joinWith h
  simp only [specifierOf, not_startsWith_slash_joinWith h, Bool.or_false]
  split_ifs with hup
  · exact ⟨by rw [hup, Bool.or_true], hread⟩
  -- A dot in front is a piece that stands for no step.
  · have htext : ("./" ++ Text.joinWith "/" (cs.map componentText)).toList =
        ['.'] ++ '/' :: (Text.joinWith "/" (cs.map componentText)).toList := String.toList_append
    have hdot : Text.startsWith "./" ("./" ++ Text.joinWith "/" (cs.map componentText)) := by
      rw [Text.startsWith, htext]
      rfl
    have hfirst : [['.']].filterMap laterComponent? = [] := rfl
    refine ⟨by rw [hdot, Bool.true_or], ?_⟩
    rw [specifierSteps, htext, pieces_append_slash, pieces_of_notMem (by decide),
      List.filterMap_append, hfirst, List.nil_append, hread]

/-- What is made of components leads where they do. -/
theorem resolve?_specifierOf {cs : List Component} (h : ∀ c ∈ cs, c.Written)
    (dir : List Component) :
    resolve? dir (specifierOf cs) = some (cs.foldl enter dir) := by
  obtain ⟨hrelative, hsteps⟩ := specifierSteps_specifierOf h
  rw [specifierSteps] at hsteps
  rw [resolve?, if_pos hrelative, hsteps]

/-! ## Paths below a shared start

What is in front of the names does not matter, as the way drops it.
-/

/-- Whether a path ends in names below a start, one of them at least. -/
def NamedBelow (p : Path) (start : List Component) : Prop :=
  ∃ front last, p.components = start ++ (front ++ [.name last]) ∧ ∀ c ∈ front, c.IsNamed

/-- A child is below what its parent is below. -/
theorem NamedBelow.child {p : Path} {start : List Component} (hp : p.NamedBelow start)
    {name : String} (h : IsPart name) : (p.child name).NamedBelow start := by
  obtain ⟨front, last, hcomponents, hfront⟩ := hp
  refine ⟨front ++ [Component.name last], name, ?_, ?_⟩
  · rw [p.components_child h, hcomponents, List.append_assoc]
  · exact List.forall_mem_append.2 ⟨hfront, List.forall_mem_singleton.2 ⟨last, rfl⟩⟩

/-- Between a directory and a path that end in names below a shared start there is a
fork, and the path is reached over it. -/
theorem exists_fork {target base : Path} {start front behind : List Component}
    (hb : base.components = start ++ front) (hfront : ∀ c ∈ front, c.IsNamed)
    (ht : target.components = start ++ behind) (hbehind : ∀ c ∈ behind, c.IsNamed) :
    ∃ common below rest, Fork base.components target.components common below rest ∧
      (∀ c ∈ rest, c.IsNamed) ∧ target.relativeTo? base =
      some (ofComponents ((below.map fun _ => Component.up) ++ rest)) := by
  -- Both paths are absolute or neither is: their first components are shared or named.
  have habsolute : target.isAbsolute = base.isAbsolute := by
    rw [Bool.eq_iff_iff, isAbsolute_iff_components, isAbsolute_iff_components, ht, hb]
    cases start with
    | nil =>
      exact iff_of_false (head?_ne_of_isNamed hbehind (by decide))
        (head?_ne_of_isNamed hfront (by decide))
    | cons c start => rfl
  obtain ⟨common, below, rest, hfork, hway⟩ := exists_way? behind hfront
  refine ⟨start ++ common, below, rest, ?_, ?_, ?_⟩
  · rw [hb, ht]
    exact hfork.below_start start
  · exact fun c hc => hbehind c (by rw [hfork.target_eq]; exact List.mem_append_right _ hc)
  · simp [relativeTo?, habsolute, ht, hb, way?_shared, hway]

/-- The steps over a fork can be written. -/
theorem Fork.written {base common below rest : List Component} {target : Path}
    (h : Fork base target.components common below rest) (hrest : ∀ c ∈ rest, c.IsNamed) :
    ∀ c ∈ (below.map fun _ => Component.up) ++ rest, c.Written := by
  intro c hc
  rw [List.mem_append, List.mem_map] at hc
  rcases hc with ⟨-, -, rfl⟩ | hc
  · exact written_up
  · exact written_of_mem_components (by rw [h.target_eq]; exact List.mem_append_right _ hc)
      (hrest c hc)

/-- The steps over a fork lead from the directory to the target. -/
theorem Fork.foldl_enter {base target common below rest : List Component}
    (h : Fork base target common below rest) (hrest : ∀ c ∈ rest, c.IsNamed) :
    ((below.map fun _ => Component.up) ++ rest).foldl enter base = target := by
  rw [h.base_eq, h.target_eq, List.foldl_append, foldl_enter_up h.named, foldl_enter_names hrest]

/-- A specifier is made of the steps over a fork between the directory of its module and
the target, where both paths end in names below a shared start. -/
theorem exists_specifier_eq {source target : Path} {start : List Component}
    (hs : source.NamedBelow start) (ht : target.NamedBelow start) :
    ∃ common below rest, Fork source.components.dropLast target.components common below rest ∧
      (∀ c ∈ rest, c.IsNamed) ∧
      source.specifier target = specifierOf ((below.map fun _ => Component.up) ++ rest) := by
  obtain ⟨front, last, hs, hfront⟩ := hs
  obtain ⟨behind, file, ht, hbehind⟩ := ht
  -- The name of the file is behind the named components of its directory.
  have hnamed : ∀ c ∈ behind ++ [Component.name file], c.IsNamed :=
    List.forall_mem_append.2 ⟨hbehind, List.forall_mem_singleton.2 ⟨file, rfl⟩⟩
  obtain ⟨base, hbase, hdir⟩ : ∃ base, source.parent? = some base ∧
    base.components = start ++ front :=
    exists_parent? (hs.trans (List.append_assoc _ _ _).symm) (by simp)
  have hdropLast : source.components.dropLast = base.components := by
    rw [hs, hdir, ← List.append_assoc, List.dropLast_concat]
  obtain ⟨common, below, rest, hfork, hrest, hrelative⟩ := exists_fork hdir hfront ht hnamed
  refine ⟨common, below, rest, hdropLast ▸ hfork, hrest, ?_⟩
  rw [specifier_eq, hbase, Option.getD_some, hrelative, Option.getD_some,
    components_ofComponents (hfork.written hrest)]

/-- A specifier leads from the directory of its module to the components of the target,
where both paths end in names below a shared start. -/
theorem resolve?_specifier {source target : Path} {start : List Component}
    (hs : source.NamedBelow start) (ht : target.NamedBelow start) :
    resolve? source.components.dropLast (source.specifier target) = some target.components := by
  obtain ⟨common, below, rest, hfork, hrest, hspecifier⟩ := exists_specifier_eq hs ht
  rw [hspecifier, resolve?_specifierOf (hfork.written hrest), hfork.foldl_enter hrest]

example : resolve? [.name "out", .name "objects"] "../runtime.js" =
    some [.name "out", .name "runtime.js"] := by
  decide

end Path

end Classwright
