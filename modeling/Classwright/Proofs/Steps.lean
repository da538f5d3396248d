import Classwright.Path

/-!
# The steps of a path

Where a path leads depends on whether it starts at the root and on its steps: the pieces
between slashes that are neither empty nor a single dot. A name below a path adds one
step (`Path.steps_child`), and putting another name in its place changes that step only
(`Path.exists_withFileName_child`), whatever slashes and dots the path has besides.
-/

namespace Classwright.Path

/-! ## Pieces

A text is cut at its slashes, and joined with slashes it is the text again.
-/

/-- Cutting a text at its slashes, by the library. -/
theorem pieces_eq_splitOn : ∀ cs : List Char, pieces cs = cs.splitOn '/'
  | [] => rfl
  | c :: cs => by
    have ih := pieces_eq_splitOn cs
    rw [pieces, List.splitOn_cons_eq_if_modifyHead, ih]
    cases h : cs.splitOn '/' with
    | nil => exact absurd h (List.splitOn_ne_nil _ _)
    | cons piece others => rfl

/-- Joining pieces with slashes, by the library. -/
theorem joinPieces_eq_intercalate : ∀ ps : List (List Char), joinPieces ps = ['/'].intercalate ps
  | [] => rfl
  | [piece] => by simp [joinPieces]
  | piece :: next :: rest => by
    have ih := joinPieces_eq_intercalate (next :: rest)
    rw [joinPieces, ih, List.intercalate_cons_cons]
    · simp
    · simp

theorem pieces_ne_nil (cs : List Char) : pieces cs ≠ [] :=
  pieces_eq_splitOn cs ▸ List.splitOn_ne_nil _ _

theorem exists_pieces_eq_cons (cs : List Char) : ∃ first rest, pieces cs = first :: rest :=
  List.exists_cons_of_ne_nil (pieces_ne_nil cs)

theorem pieces_append_slash (cs ds : List Char) :
    pieces (cs ++ '/' :: ds) = pieces cs ++ pieces ds := by
  simp only [pieces_eq_splitOn, List.splitOn_append_cons_self]

theorem pieces_of_notMem {cs : List Char} (h : '/' ∉ cs) : pieces cs = [cs] := by
  rw [pieces_eq_splitOn, List.splitOn_eq_singleton h]

theorem pieces_joinPieces {ps : List (List Char)} (hne : ps ≠ []) (h : ∀ piece ∈ ps, '/' ∉ piece) :
    pieces (joinPieces ps) = ps := by
  rw [pieces_eq_splitOn, joinPieces_eq_intercalate, List.splitOn_intercalate '/' h hne]

theorem joinPieces_pieces (cs : List Char) : joinPieces (pieces cs) = cs := by
  rw [pieces_eq_splitOn, joinPieces_eq_intercalate, List.intercalate_splitOn]

/-- No piece has a slash. -/
theorem slash_notMem_of_mem_pieces (cs : List Char) : ∀ piece ∈ pieces cs, '/' ∉ piece := by
  induction cs with
  | nil => simp [pieces]
  | cons c cs ih =>
    rw [pieces_eq_splitOn] at ih ⊢
    rw [List.splitOn_cons_eq_if_modifyHead]
    by_cases hc : c = '/'
    · simpa [hc] using ih
    · cases hp : cs.splitOn '/' with
      | nil => exact absurd hp (List.splitOn_ne_nil _ _)
      | cons first others =>
        rw [hp, List.forall_mem_cons] at ih
        rw [if_neg (by simpa using hc), List.modifyHead_cons, List.forall_mem_cons]
        exact ⟨by simp [Ne.symm hc, ih.1], ih.2⟩

/-- The first piece is empty exactly if the text is or starts with a slash. -/
theorem exists_pieces_eq_nil_cons {cs : List Char} :
    (∃ rest, pieces cs = [] :: rest) ↔ cs = [] ∨ ∃ ds, cs = '/' :: ds := by
  cases cs with
  | nil => simp [pieces]
  | cons c cs =>
    rw [pieces_eq_splitOn, List.splitOn_cons_eq_if_modifyHead]
    by_cases hc : c = '/'
    · simp [hc]
    · cases hp : cs.splitOn '/' with
      | nil => exact absurd hp (List.splitOn_ne_nil _ _)
      | cons first others => simp [hc]

/-- A character other than a slash is in a joined text if it is in a piece. -/
theorem mem_joinPieces {c : Char} (h : c ≠ '/') :
    ∀ ps : List (List Char), c ∈ joinPieces ps ↔ ∃ piece ∈ ps, c ∈ piece
  | [] => by simp [joinPieces]
  | [piece] => by simp [joinPieces]
  | piece :: next :: rest => by
    have ih := mem_joinPieces h (next :: rest)
    rw [joinPieces, List.mem_append, List.mem_cons, ih, or_iff_right h]
    · simp
    · simp

/-! ## Steps

Silent pieces are dropped, and what is left are the steps.
-/

/-- Whether a piece counts for where a path leads. -/
def isStep (piece : String) : Bool :=
  piece != "" && piece != "."

/-- The steps among pieces. -/
def stepsOf (ps : List (List Char)) : List String :=
  (ps.map String.ofList).filter isStep

/-- The steps of a path. -/
def steps (p : Path) : List String :=
  stepsOf (pieces p.text.toList)

/-- Whether a path has no NUL character. -/
def IsClean (p : Path) : Prop :=
  '\x00' ∉ p.text.toList

/-- Whether a text is one name, other than those that stand for a directory itself or
the one above it. -/
structure IsName (name : String) : Prop where
  /-- It has no slash. -/
  slash : '/' ∉ name.toList
  /-- It has no NUL character. -/
  clean : '\x00' ∉ name.toList
  /-- It is a step. -/
  step : isStep name
  /-- It does not lead upwards. -/
  up : name ≠ ".."

@[simp] theorem stepsOf_append (ps qs : List (List Char)) :
    stepsOf (ps ++ qs) = stepsOf ps ++ stepsOf qs := by
  simp [stepsOf]

theorem stepsOf_singleton {name : String} (h : isStep name) : stepsOf [name.toList] = [name] := by
  simp [stepsOf, h]

theorem isAbsolute_iff {p : Path} : p.isAbsolute ↔ ∃ cs, p.text.toList = '/' :: cs := by
  cases h : p.text.toList with
  | nil => simp [isAbsolute, h]
  | cons c cs => simp [isAbsolute, h]

/-- A NUL character is in a step. -/
theorem isClean_iff {p : Path} : p.IsClean ↔ ∀ step ∈ p.steps, '\x00' ∉ step.toList := by
  -- A zero character in the text is one in a piece, as it is no slash.
  have hmem : '\x00' ∈ joinPieces (pieces p.text.toList) ↔ ∃ piece ∈ pieces p.text.toList,
      '\x00' ∈ piece :=
    mem_joinPieces (by decide) _
  rw [joinPieces_pieces] at hmem
  rw [IsClean, hmem]
  constructor
  · intro h step hstep hnul
    obtain ⟨piece, hpiece, rfl⟩ := List.mem_map.1 (List.mem_filter.1 hstep).1
    exact h ⟨piece, hpiece, by simpa using hnul⟩
  · rintro h ⟨piece, hpiece, hnul⟩
    -- The silent pieces are dots or nothing, and have no such character.
    have hstep : isStep (String.ofList piece) := by
      rw [isStep, Bool.and_eq_true, bne_iff_ne, bne_iff_ne]
      constructor <;> intro he <;> rw [← String.toList_inj, String.toList_ofList] at he <;>
        simp [he] at hnul
    exact h _ (List.mem_filter.2 ⟨List.mem_map_of_mem hpiece, hstep⟩) (by simpa using hnul)

/-- What is joined to a path is put after what the path has up to a slash. -/
theorem text_join (p : Path) {q : Path} (h : q.isAbsolute = false) :
    p.text.toList = [] ∧ p.join q = q ∨
    ∃ cs, (cs ≠ [] ∧ p.text.toList = cs ∨ p.text.toList = cs ++ ['/']) ∧
      (p.join q).text.toList = cs ++ '/' :: q.text.toList := by
  -- Nothing, a slash or no slash may stand at the end of the first path.
  by_cases he : p.text = ""
  · refine Or.inl ⟨by rw [he]; rfl, ?_⟩
    simp [join, h, isEmpty, he]
  · refine Or.inr ?_
    have hp : p.isEmpty = false := by simpa [isEmpty] using he
    by_cases hl : p.text.toList.getLast? = some '/'
    · obtain ⟨cs, hcs⟩ := List.getLast?_eq_some_iff.1 hl
      refine ⟨cs, Or.inr hcs, ?_⟩
      simp [join, h, hcs]
    · refine ⟨p.text.toList, Or.inl ⟨by simpa using he, rfl⟩, ?_⟩
      simp [join, h, hp, hl]

/-- A name below a path is put after what the path has up to a slash. -/
theorem text_child (p : Path) {name : String} (h : '/' ∉ name.toList) :
    p.text.toList = [] ∧ (p.child name).text.toList = name.toList ∨
    ∃ cs, (cs ≠ [] ∧ p.text.toList = cs ∨ p.text.toList = cs ++ ['/']) ∧
      (p.child name).text.toList = cs ++ '/' :: name.toList := by
  have ha : (⟨name⟩ : Path).isAbsolute = false := by
    rw [← Bool.not_eq_true, isAbsolute_iff]
    rintro ⟨cs, hcs⟩
    exact h (by simp [show name.toList = '/' :: cs from hcs])
  rcases p.text_join ha with ⟨hp, hc⟩ | hc
  · exact Or.inl ⟨hp, by rw [child, hc]⟩
  · exact Or.inr hc

/-- The pieces of a path and a name below it. -/
theorem exists_pieces_child (p : Path) {name : String} (h : IsName name) :
    ∃ ps, pieces (p.child name).text.toList = ps ++ [name.toList] ∧ stepsOf ps = p.steps ∧
      (p.isAbsolute ↔ ∃ rest, ps = [] :: rest) := by
  -- The name is alone, or a slash stands between it and the path.
  rcases p.text_child h.slash with ⟨hp, hc⟩ | ⟨cs, hp, hc⟩
  · refine ⟨[], ?_, ?_, ?_⟩
    · rw [hc, pieces_of_notMem h.slash, List.nil_append]
    · simp [steps, hp, pieces, stepsOf, isStep]
    · simp [isAbsolute_iff, hp]
  · refine ⟨pieces cs, ?_, ?_, ?_⟩
    · rw [hc, pieces_append_slash, pieces_of_notMem h.slash]
    · rcases hp with ⟨-, hp⟩ | hp
      · rw [steps, hp]
      · rw [steps, hp, pieces_append_slash]
        simp [pieces, stepsOf, isStep]
    · rw [isAbsolute_iff, exists_pieces_eq_nil_cons]
      rcases hp with ⟨hne, hp⟩ | hp
      · simp [hp, hne]
      · cases cs <;> simp [hp]

theorem steps_child (p : Path) {name : String} (h : IsName name) :
    (p.child name).steps = p.steps ++ [name] := by
  obtain ⟨ps, hc, hs, -⟩ := p.exists_pieces_child h
  rw [steps, hc, stepsOf_append, hs, stepsOf_singleton h.step]

/-- A child is absolute if its parent is. -/
theorem isAbsolute_child (p : Path) {name : String} (h : IsName name) :
    (p.child name).isAbsolute = p.isAbsolute := by
  rcases p.text_child h.slash with ⟨hp, hc⟩ | ⟨cs, hp, hc⟩
  · have hn : name.toList.head? ≠ some '/' := fun hn => h.slash (List.mem_of_mem_head? hn)
    simp [isAbsolute, hp, hc, hn]
  · cases cs <;> rcases hp with ⟨hne, hp⟩ | hp <;> simp_all [isAbsolute]

theorem isClean_child {p : Path} {name : String} (h : IsName name) :
    (p.child name).IsClean ↔ p.IsClean := by
  rw [isClean_iff, isClean_iff, p.steps_child h, List.forall_mem_append, List.forall_mem_singleton]
  exact and_iff_left h.clean

/-! ## Another name

The name at the end of a path is found by dropping the silent marks at its end, and the
marks before it make the parent.
-/

/-- A piece without a component makes no step. -/
theorem laterComponent?_eq_none {piece : List Char} (h : laterComponent? piece = none) :
    isStep (String.ofList piece) = false := by
  unfold laterComponent? at h
  split at h
  · next hp =>
    rcases Bool.or_eq_true_iff.1 hp with hp | hp <;> rw [eq_of_beq hp] <;> decide
  · split at h <;> cases h

namespace IsName

variable {name : String} (h : IsName name)

include h

/-- A name is not empty. -/
theorem toList_ne_nil : name.toList ≠ [] := by
  intro hn
  have hs := h.step
  rw [String.toList_eq_nil_iff.1 hn] at hs
  exact absurd hs (by decide)

/-- A name is not the dot for the same directory. -/
theorem toList_ne_dot : name.toList ≠ ['.'] := by
  intro hn
  have hs := h.step
  rw [← String.ofList_toList (s := name), hn] at hs
  exact absurd hs (by decide)

/-- Nor the two for the one above. -/
theorem toList_ne_up : name.toList ≠ ['.', '.'] := by
  intro hn
  have hu := h.up
  rw [← String.ofList_toList (s := name), hn] at hu
  exact hu (by decide)

theorem laterComponent? : laterComponent? name.toList = some (.name name) := by
  simp [Path.laterComponent?, h.toList_ne_nil, h.toList_ne_dot, h.toList_ne_up]

theorem firstComponent? : firstComponent? name.toList [] = some (.name name) := by
  simp [Path.firstComponent?, h.toList_ne_dot, h.laterComponent?]

end IsName

/-- A first piece without a component makes no step. -/
theorem firstComponent?_eq_none {piece : List Char} {rest : List (List Char)}
    (h : firstComponent? piece rest = none) : isStep (String.ofList piece) = false := by
  unfold firstComponent? at h
  split at h
  · cases h
  · split at h
    · cases h
    · exact laterComponent?_eq_none h

/-- The root is no later component. -/
theorem laterComponent?_ne_root (piece : List Char) : laterComponent? piece ≠ some .root := by
  unfold laterComponent?
  split
  · simp
  · split <;> simp

/-- Nor is the working directory. -/
theorem laterComponent?_ne_here (piece : List Char) : laterComponent? piece ≠ some .here := by
  unfold laterComponent?
  split
  · simp
  · split <;> simp

/-- The root is an empty first piece. -/
theorem firstComponent?_eq_root {piece : List Char} {rest : List (List Char)}
    (h : firstComponent? piece rest = some .root) : piece = [] := by
  unfold firstComponent? at h
  split at h
  · next hp => exact eq_of_beq (Bool.and_eq_true_iff.1 hp).1
  · split at h
    · cases h
    · exact absurd h (laterComponent?_ne_root piece)

/-- Whether marks are those of a path up to some slash. -/
structure Leading (ms : List Mark) : Prop where
  /-- Pieces have no slash. -/
  slash : ∀ m ∈ ms, '/' ∉ m.1
  /-- A piece that stands for no component is no step. -/
  silent : ∀ m ∈ ms, m.2 = none → isStep (String.ofList m.1) = false
  /-- The root has an empty piece. -/
  root : ∀ m ∈ ms, m.2 = some .root → m.1 = []
  /-- An empty piece in front stands for the root. -/
  first : ∀ m ∈ ms.head?, m.1 = [] → m.2 = some .root

namespace Leading

/-- The first marks of a path have what all of them have. -/
theorem left {ms ns : List Mark} (h : Leading (ms ++ ns)) : Leading ms := by
  refine ⟨fun m hm => h.slash m (by simp [hm]), fun m hm => h.silent m (by simp [hm]),
    fun m hm => h.root m (by simp [hm]), fun m hm => h.first m ?_⟩
  cases ms with
  | nil => cases hm
  | cons m' ms => simpa using hm

variable {ms : List Mark} (h : Leading ms)

include h

/-- The steps of a path made of marks are those of their pieces. -/
theorem steps_ofMarks : (ofMarks ms).steps = stepsOf (ms.map Prod.fst) := by
  unfold ofMarks
  split
  · next piece =>
    have hp : piece = [] := h.root _ List.mem_cons_self rfl
    simp [hp, Path.steps, pieces, stepsOf, isStep]
  · by_cases hms : ms = []
    · simp [hms, Path.steps, joinPieces, pieces, stepsOf, isStep]
    · rw [Path.steps, String.toList_ofList, pieces_joinPieces (by simpa using hms)]
      intro piece hp
      obtain ⟨m, hm, rfl⟩ := List.mem_map.1 hp
      exact h.slash m hm

/-- A path made of marks is absolute exactly if the first is the root. -/
theorem isAbsolute_ofMarks : (ofMarks ms).isAbsolute ↔ ∃ rest, ms = ([], some .root) :: rest := by
  unfold ofMarks
  split
  · next piece =>
    have hp : piece = [] := h.root _ List.mem_cons_self rfl
    simp [hp, isAbsolute]
  · next hsingle =>
    cases ms with
    | nil => simp [isAbsolute, joinPieces]
    | cons m rest =>
      -- An empty first piece stands for the root, and any other starts with no slash.
      obtain ⟨piece, c?⟩ := m
      have hfirst : piece = [] → c? = some .root := h.first (piece, c?) rfl
      have hslash : '/' ∉ piece := h.slash (piece, c?) List.mem_cons_self
      cases piece with
      | nil =>
        obtain rfl := hfirst rfl
        cases rest with
        | nil => exact absurd rfl (hsingle [])
        | cons m' rest => simp [isAbsolute, joinPieces]
      | cons c cs =>
        rw [List.mem_cons, not_or] at hslash
        have hc : c ≠ '/' := Ne.symm hslash.1
        cases rest <;> simp [isAbsolute, joinPieces, hc]

end Leading

/-- The marks of a path and a name below it. -/
theorem exists_marks_child (p : Path) {name : String} (h : IsName name) :
    ∃ ms, (p.child name).marks = ms ++ [(name.toList, some (.name name))] ∧ Leading ms ∧
      stepsOf (ms.map Prod.fst) = p.steps ∧
      (p.isAbsolute ↔ ∃ rest, ms = ([], some .root) :: rest) := by
  obtain ⟨ps, hc, hs, ha⟩ := p.exists_pieces_child h
  have hslash : ∀ piece ∈ ps, '/' ∉ piece := fun piece hp =>
    slash_notMem_of_mem_pieces (p.child name).text.toList piece (by simp [hc, hp])
  cases ps with
  | nil =>
    refine ⟨[], ?_, ⟨by simp, by simp, by simp, by simp⟩, hs, by simpa using ha⟩
    simp [marks, hc, h.firstComponent?]
  | cons first rest =>
    -- With the name behind it, an empty first piece stands for the root.
    have hroot : first = [] → Path.firstComponent? first (rest ++ [name.toList]) = some .root := by
      rintro rfl
      simp [Path.firstComponent?]
    refine ⟨(first, Path.firstComponent? first (rest ++ [name.toList])) ::
      rest.map fun piece => (piece, Path.laterComponent? piece), ?_, ⟨?_, ?_, ?_, ?_⟩, ?_, ?_⟩
    · simp [marks, hc, h.laterComponent?]
    · simpa using hslash
    · intro m hm hnone
      rcases List.mem_cons.1 hm with rfl | hm
      · exact firstComponent?_eq_none hnone
      · obtain ⟨piece, -, rfl⟩ := List.mem_map.1 hm
        exact laterComponent?_eq_none hnone
    · intro m hm hr
      rcases List.mem_cons.1 hm with rfl | hm
      · exact firstComponent?_eq_root hr
      · obtain ⟨piece, -, rfl⟩ := List.mem_map.1 hm
        exact absurd hr (laterComponent?_ne_root piece)
    · intro m hm
      cases hm
      exact hroot
    · simpa [Function.comp_def] using hs
    · rw [ha]
      by_cases hf : first = []
      · simp [hf, Path.firstComponent?]
      · simp [hf]

theorem fileName?_child (p : Path) {name : String} (h : IsName name) :
    (p.child name).fileName? = some name := by
  obtain ⟨ms, hm, -⟩ := p.exists_marks_child h
  simp [fileName?, components, hm]

/-- Whether two paths lead to the same place, wherever they start. -/
structure SameSteps (p q : Path) : Prop where
  /-- Both start at the root, or neither does. -/
  absolute : p.isAbsolute = q.isAbsolute
  /-- Their steps are the same. -/
  steps : p.steps = q.steps
  /-- The second can be looked up if the first can. -/
  clean : p.IsClean → q.IsClean

theorem sameSteps_of_steps_eq {p q : Path} (ha : p.isAbsolute = q.isAbsolute)
    (hs : p.steps = q.steps) :
    p.SameSteps q :=
  ⟨ha, hs, by rw [isClean_iff, isClean_iff, hs]; exact id⟩

theorem SameSteps.refl (p : Path) : p.SameSteps p :=
  sameSteps_of_steps_eq rfl rfl

/-- What is dropped at the end stands for no component. -/
theorem exists_dropSilentEnd (ms : List Mark) :
    ∃ rest, ms = dropSilentEnd ms ++ rest ∧ ∀ m ∈ rest, m.2 = none := by
  refine ⟨(ms.reverse.takeWhile fun m => m.2.isNone).reverse, ?_, ?_⟩
  · rw [dropSilentEnd, dropSilent, ← List.reverse_append, List.takeWhile_append_dropWhile,
      List.reverse_reverse]
  · intro m hm
    have hall := List.all_takeWhile (p := fun m : Mark => m.2.isNone) (l := ms.reverse)
    simpa using List.all_eq_true.1 hall m (List.mem_reverse.1 hm)

/-- The parent of a path and a name below it leads where the path does. -/
theorem exists_parent?_child (p : Path) {name : String} (h : IsName name) :
    ∃ q, (p.child name).parent? = some q ∧ p.SameSteps q := by
  obtain ⟨ms, hm, hl, hs, ha⟩ := p.exists_marks_child h
  obtain ⟨rest, hr, hnone⟩ := exists_dropSilentEnd ms
  -- The parent is made of the marks before the name, without the silent ones at their
  -- end.
  have hleft : Leading (dropSilentEnd ms) := Leading.left (hr ▸ hl)
  refine ⟨ofMarks (dropSilentEnd ms), ?_, sameSteps_of_steps_eq ?_ ?_⟩
  · simp [parent?, hm, dropSilent, dropSilentEnd]
  · rw [Bool.eq_iff_iff, ha, hleft.isAbsolute_ofMarks]
    cases hd : dropSilentEnd ms with
    | nil =>
      have hms : ∀ m ∈ ms, m.2 = none := by
        rw [hr, hd]
        exact hnone
      constructor
      · rintro ⟨after, rfl⟩
        exact absurd (hms _ List.mem_cons_self) (by simp)
      · rintro ⟨after, hafter⟩
        cases hafter
    | cons m before =>
      rw [hd] at hr
      simp [hr]
  -- The marks that were cut are no steps.
  · have hsilent : stepsOf (rest.map Prod.fst) = [] := by
      refine List.filter_eq_nil_iff.2 fun step hstep => ?_
      simp only [List.map_map, List.mem_map, Function.comp_apply] at hstep
      obtain ⟨m, hm, rfl⟩ := hstep
      have hmem : m ∈ ms := by
        rw [hr]
        exact List.mem_append_right _ hm
      simp [hl.silent m hmem (hnone m hm)]
    calc p.steps = stepsOf ((dropSilentEnd ms ++ rest).map Prod.fst) := by rw [← hr, hs]
      _ = stepsOf ((dropSilentEnd ms).map Prod.fst) := by
        rw [List.map_append, stepsOf_append, hsilent, List.append_nil]
      _ = (ofMarks (dropSilentEnd ms)).steps := hleft.steps_ofMarks.symm

/-- Another name in the place of one below a path is a name below a path that leads to
the same place. -/
theorem exists_withFileName_child (p : Path) {name : String} (h : IsName name) (other : String) :
    ∃ q, (p.child name).withFileName other = q.child other ∧ p.SameSteps q := by
  obtain ⟨q, hq, hsame⟩ := p.exists_parent?_child h
  exact ⟨q, by simp [withFileName, p.fileName?_child h, hq], hsame⟩

end Classwright.Path
