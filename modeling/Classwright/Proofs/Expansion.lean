import Classwright.Proofs.Descriptions

/-!
# References in a line

A line falls into references and single characters in one way only
(`Text.CutsAtReferences.unique`), if a reference goes on as far as its name can and no
number sign before a letter is left as a character. Expansion puts what a reference
stands for in its place and leaves all characters where they are
(`Text.expandReferences_replaces`).
-/

namespace Classwright.Text

/-- A reference in a line, or a character that belongs to none. -/
inductive Segment where
  | reference (name : List Char)
  | character (c : Char)
deriving DecidableEq, Repr

namespace Segment

/-- What a segment is in the line. -/
def source : Segment → List Char
  | reference name => '#' :: name
  | character c => [c]

/-- What a segment is in the expanded line. -/
def expanded (qualify : String → String) : Segment → List Char
  | reference name => (qualify (String.ofList name)).toList
  | character c => [c]

/-- Whether a segment may stand before the rest of a line. The name of a reference
starts with a letter and has all the letters, digits and underscores that follow. A
number sign that is no reference has no letter behind it. -/
def StandsBefore (rest : List Char) : Segment → Prop
  | reference name =>
    (∃ c ∈ name.head?, c.isAlpha) ∧ (∀ c ∈ name, isReferencePart c) ∧ ∀ c ∈ rest.head?,
      ¬isReferencePart c
  | character c => c = '#' → ∀ d ∈ rest.head?, ¬d.isAlpha

end Segment

/-- Whether segments make up a line and each may stand where it does. -/
structure CutsAtReferences (line : List Char) (segments : List Segment) : Prop where
  /-- The segments make up the line. -/
  source : segments.flatMap Segment.source = line
  /-- Every segment may stand before those after it. -/
  stands : ∀ before s after, segments = before ++ s :: after →
    s.StandsBefore (after.flatMap Segment.source)

/-! ## One way to cut a line

Two ways to cut a line have the same first segment, and by induction the same others.
-/

theorem cutsAtReferences_nil_iff {line : List Char} : CutsAtReferences line [] ↔ line = [] :=
  ⟨fun h => h.source.symm, fun h => ⟨h.symm, by simp⟩⟩

/-- A line is cut into a first segment, which stands before what follows it, and those
of the rest. -/
theorem cutsAtReferences_cons_iff {line : List Char} {s : Segment} {segments : List Segment} :
    CutsAtReferences line (s :: segments) ↔
      ∃ rest, line = s.source ++ rest ∧ s.StandsBefore rest ∧ CutsAtReferences rest segments := by
  constructor
  · rintro ⟨hsource, hstands⟩
    refine ⟨segments.flatMap Segment.source, hsource.symm, hstands [] s segments rfl, rfl, ?_⟩
    rintro before t after rfl
    exact hstands (s :: before) t after rfl
  · rintro ⟨rest, rfl, hs, rfl, hstands⟩
    refine ⟨rfl, fun before t after h => ?_⟩
    cases before with
    | nil =>
      obtain ⟨rfl, rfl⟩ := List.cons.inj h
      exact hs
    | cons b before => exact hstands before t after (List.cons.inj h).2

/-- Taking stops at the end of a text whose successor does not meet the condition. -/
theorem takeWhile_append_of_head? {p : Char → Bool} {cs rest : List Char} (h : ∀ c ∈ cs, p c)
    (hrest : ∀ c ∈ rest.head?, ¬p c) : (cs ++ rest).takeWhile p = cs := by
  rw [List.takeWhile_append_of_pos h]
  cases rest with
  | nil => rw [List.takeWhile_nil, List.append_nil]
  | cons c rest => rw [List.takeWhile_cons_of_neg (hrest c rfl), List.append_nil]

/-- The first segment of a line is the same however the line is cut. -/
theorem Segment.eq_of_standsBefore {s t : Segment} {rest rest' : List Char}
    (h : s.source ++ rest = t.source ++ rest') (hs : s.StandsBefore rest)
    (ht : t.StandsBefore rest') :
    s = t ∧ rest = rest' := by
  -- A number sign before a letter is no character of its own.
  have hmixed : ∀ {name : List Char} {c : Char} {rest rest' : List Char},
      (reference name).source ++ rest = (character c).source ++ rest' →
        (reference name).StandsBefore rest → ¬(character c).StandsBefore rest' := by
    rintro name c rest rest' h ⟨⟨d, hd, halpha⟩, -⟩ hc
    obtain ⟨rfl, rfl⟩ := List.cons.inj h
    exact hc rfl d (by simp [Option.mem_def.1 hd]) halpha
  cases s with
  | character c =>
    cases t with
    | character d => simpa [source] using h
    | reference name => exact absurd hs (hmixed h.symm ht)
  | reference name =>
    cases t with
    | character d => exact absurd ht (hmixed h hs)
    | reference name' =>
      have hnames : name ++ rest = name' ++ rest' := (List.cons.inj h).2
      have hname : name = name' := by
        rw [← takeWhile_append_of_head? hs.2.1 hs.2.2, hnames,
          takeWhile_append_of_head? ht.2.1 ht.2.2]
      subst hname
      exact ⟨rfl, List.append_cancel_left hnames⟩

/-- There is one way at most to cut a line at its references. -/
theorem CutsAtReferences.unique {line : List Char} : ∀ {segments others : List Segment},
    CutsAtReferences line segments → CutsAtReferences line others → segments = others
  | [], [], _, _ => rfl
  | [], t :: others, h, h' => by
    obtain ⟨rest, hline, -⟩ := cutsAtReferences_cons_iff.1 h'
    rw [cutsAtReferences_nil_iff.1 h] at hline
    cases t <;> cases hline
  | s :: segments, [], h, h' => by
    obtain ⟨rest, hline, -⟩ := cutsAtReferences_cons_iff.1 h
    rw [cutsAtReferences_nil_iff.1 h'] at hline
    cases s <;> cases hline
  | s :: segments, t :: others, h, h' => by
    obtain ⟨rest, hline, hs, hrest⟩ := cutsAtReferences_cons_iff.1 h
    obtain ⟨rest', hline', ht, hrest'⟩ := cutsAtReferences_cons_iff.1 h'
    -- The first segments of two cuts are equal, and so are the rests.
    obtain ⟨rfl, rfl⟩ := Segment.eq_of_standsBefore (hline.symm.trans hline') hs ht
    rw [hrest.unique hrest']

/-! ## Expansion

The segments that the expansion itself walks through are one way to cut the line, so
they are the way.
-/

/-- Characters that are no number signs are segments of their own. -/
theorem CutsAtReferences.append {rest : List Char} {segments : List Segment}
    (h : CutsAtReferences rest segments) : ∀ {cs : List Char}, (∀ c ∈ cs, c ≠ '#') →
    CutsAtReferences (cs ++ rest) (cs.map .character ++ segments)
  | [], _ => h
  | c :: cs, hcs => by
    rw [List.forall_mem_cons] at hcs
    exact cutsAtReferences_cons_iff.2 ⟨cs ++ rest, rfl, fun hc => absurd hc hcs.1, h.append hcs.2⟩

/-- A line can be cut at its references, and expansion replaces these. -/
theorem exists_cutsAtReferences (line : List Char) : ∃ segments, CutsAtReferences line segments ∧
    ∀ qualify, expandChars qualify line = segments.flatMap (Segment.expanded qualify) := by
  induction line using references.induct with
  | case1 => exact ⟨[], cutsAtReferences_nil_iff.2 rfl, fun qualify => expandChars_nil⟩
  | case2 c cs hc ih =>
    obtain rfl : c = '#' := eq_of_beq hc
    obtain ⟨segments, hcut, hexpand⟩ := ih
    have hname : ∀ c ∈ cs.takeWhile isReferencePart, isReferencePart c := fun c =>
      isReferencePart_of_mem_takeWhile
    -- The text behind the mark is a reference if it starts with a letter.
    by_cases halpha : (cs.head?.map Char.isAlpha).getD false
    · refine ⟨.reference (cs.takeWhile isReferencePart) :: segments, ?_, fun qualify => ?_⟩
      · refine cutsAtReferences_cons_iff.2 ⟨cs.dropWhile isReferencePart, ?_, ⟨?_, hname, ?_⟩, hcut⟩
        · rw [Segment.source, List.cons_append, List.takeWhile_append_dropWhile]
        · cases cs with
          | nil => cases halpha
          | cons d cs =>
            have hd : d.isAlpha := halpha
            rw [List.takeWhile_cons_of_pos (isReferencePart_of_isAlpha hd)]
            exact ⟨d, rfl, hd⟩
        · intro d hd
          have hnot := List.head?_dropWhile_not isReferencePart cs
          rw [Option.mem_def.1 hd] at hnot
          simpa using hnot
      · rw [expandChars_mark, expandName_takeWhile, if_pos halpha, hexpand, List.flatMap_cons,
          Segment.expanded]
    -- Otherwise the mark and the characters after it stand for themselves.
    · refine ⟨.character '#' :: ((cs.takeWhile isReferencePart).map .character ++ segments), ?_,
        fun qualify => ?_⟩
      · refine cutsAtReferences_cons_iff.2 ⟨cs, rfl, fun _ d hd hd' => halpha ?_, ?_⟩
        · rw [Option.mem_def.1 hd, Option.map_some, Option.getD_some, hd']
        · have hplain := hcut.append fun c hc => isReferencePart_ne (hname c hc) (by decide)
          rwa [List.takeWhile_append_dropWhile] at hplain
      · rw [expandChars_mark, expandName_takeWhile, if_neg halpha, hexpand, List.flatMap_cons,
          Segment.expanded, List.flatMap_append, List.flatMap_map]
        simp [Segment.expanded]
  | case3 c cs hc ih =>
    have hc : c ≠ '#' := by simpa using hc
    obtain ⟨segments, hcut, hexpand⟩ := ih
    refine ⟨.character c :: segments, ?_, fun qualify => ?_⟩
    · exact cutsAtReferences_cons_iff.2 ⟨cs, rfl, fun h => absurd h hc, hcut⟩
    · rw [expandChars_cons hc, hexpand, List.flatMap_cons, Segment.expanded, List.singleton_append]

/-- Replacing a reference by itself restores the line. -/
theorem Segment.expanded_mark : Segment.expanded (fun name => "#" ++ name) = Segment.source := by
  funext s
  cases s with
  | reference name => simp [expanded, source, String.toList_append]
  | character c => rfl

/-- There is one way to cut a line at its references, and in the expanded line each of
them is replaced, and every other character stays in its place. So a line in which each
reference stands for itself is the same when it is expanded. -/
theorem expandReferences_replaces (line : String) :
    ∃ segments, (∀ others, CutsAtReferences line.toList others ↔ others = segments) ∧
      (∀ qualify, expandReferences qualify line =
        String.ofList (segments.flatMap (Segment.expanded qualify))) ∧
      expandReferences (fun name => "#" ++ name) line = line := by
  obtain ⟨segments, hcut, hexpand⟩ := exists_cutsAtReferences line.toList
  refine ⟨segments, fun others => ⟨fun h => h.unique hcut, fun h => h ▸ hcut⟩,
    fun qualify => ?_, ?_⟩
  · rw [expandReferences, hexpand]
  · rw [expandReferences, hexpand, Segment.expanded_mark, hcut.source, String.ofList_toList]

/-- The first of two number signs, one before a digit and one before a letter outside
ASCII stay as they are. -/
example :
    expandReferences (fun name => "ns." ++ name) "##Score_1, #1a #é#" = "#ns.Score_1, #1a #é#" := by
  cbv

end Classwright.Text
