import Classwright.Text.Described

/-!
# What descriptions leave in comments

The comment lines of a description are its lines as line feeds cut it, without blank
ends and blank lines (`trimmed_linesOf`), and with references expanded. None of this
removes the end of a block comment (`exists_closes_descriptionLines_iff`), nor a line
terminator that something follows on its line
(`exists_terminator_descriptionLines_iff`), and expanding references to plain names adds
neither (`closes_expandChars`, `not_exists_terminator_references`).
-/

namespace Classwright.Text

/-- Whether a character ends a line in C#. -/
def isTerminator (c : Char) : Bool :=
  c == '\n' || c == '\r' || c == '\u0085' || c == '\u2028' || c == '\u2029'

/-- Whether a text has the end of a block comment. -/
def Closes (cs : List Char) : Prop :=
  ['*', '/'] <:+: cs

/-- Whether on some line of a text, as line feeds cut it, a terminator has something
other than blanks after it. -/
def Breaks (cs : List Char) : Prop :=
  ∃ line ∈ cs.splitOn '\n', ∃ before t after, line = before ++ t :: after ∧ isTerminator t ∧
    ∃ c ∈ after, ¬isBlank c

/-! ## Trimming

Cutting a text at its line feeds and then trimming every line comes to the same as
trimming what splitting gives, since blanks at the ends include the carriage return.
-/

theorem isBlank_of_isTerminator {c : Char} (h : isTerminator c) : isBlank c := by
  simp only [isTerminator, Bool.or_eq_true, beq_iff_eq] at h
  rcases h with (((rfl | rfl) | rfl) | rfl) | rfl <;> decide

theorem trimEndChars_concat_of_isBlank {c : Char} (h : isBlank c) (cs : List Char) :
    trimEndChars (cs ++ [c]) = trimEndChars cs := by
  simp [trimEndChars, dropEndWhile, h]

/-- Nothing before the last visible character is trimmed. -/
theorem trimEndChars_append_cons {c : Char} (h : ¬isBlank c) (cs ds : List Char) :
    trimEndChars (cs ++ c :: ds) = cs ++ c :: trimEndChars ds := by
  have hc : isBlank c = false := by simpa using h
  have hdrop : (ds.reverse ++ c :: cs.reverse).dropWhile isBlank = ds.reverse.dropWhile isBlank ++
      c :: cs.reverse := by
    rw [List.dropWhile_append]
    split
    · next he =>
      rw [List.isEmpty_iff.1 he, List.dropWhile_cons_of_neg (by simp [hc]), List.nil_append]
    · rfl
  simp [trimEndChars, dropEndWhile, hdrop]

/-- What is left at the end of a trimmed text is not blank. -/
theorem exists_trimEndChars_eq_concat {cs : List Char} (h : trimEndChars cs ≠ []) :
    ∃ init c, trimEndChars cs = init ++ [c] ∧ ¬isBlank c := by
  have hhead := List.head?_dropWhile_not isBlank cs.reverse
  rw [trimEndChars, dropEndWhile] at h ⊢
  cases hd : cs.reverse.dropWhile isBlank with
  | nil => simp [hd] at h
  | cons c rest =>
    rw [hd] at hhead
    exact ⟨rest.reverse, c, by simp, by simpa using hhead⟩

/-- A text is its trimmed form and blanks. -/
theorem exists_eq_trimEndChars_append (cs : List Char) :
    ∃ blanks, cs = trimEndChars cs ++ blanks ∧ ∀ c ∈ blanks, isBlank c := by
  refine ⟨(cs.reverse.takeWhile isBlank).reverse, ?_, fun c hc => ?_⟩
  · rw [trimEndChars, dropEndWhile, ← List.reverse_append, List.takeWhile_append_dropWhile,
      List.reverse_reverse]
  · exact List.all_eq_true.1 List.all_takeWhile c (List.mem_reverse.1 hc)

/-- The carriage return that ends a line is trimmed with its other blanks. -/
theorem trimEndChars_finishLine (before : List Char) :
    trimEndChars (finishLine before) = trimEndChars before.reverse := by
  unfold finishLine
  split
  · rw [List.reverse_cons, trimEndChars_concat_of_isBlank (by decide)]
  · rfl

/-- The lines that say something, without their blank ends. -/
def trimmed (lines : List (List Char)) : List (List Char) :=
  (lines.map trimEndChars).filter fun line => !line.all isBlank

theorem trimmed_cons (line : List Char) (lines : List (List Char)) :
    trimmed (line :: lines) = trimmed [line] ++ trimmed lines := by
  simp [trimmed, List.filter_cons]
  split <;> rfl

/-- Cutting a text into lines and trimming them comes to the same as cutting it at its
line feeds. -/
theorem trimmed_linesAfter : ∀ cs before : List Char,
    trimmed (linesAfter before cs) = trimmed (cs.splitOnPPrepend (· == '\n') before)
  | [], before => by
    cases before with
    | nil => rfl
    | cons c before => simp [linesAfter]
  | c :: cs, before => by
    by_cases hc : c = '\n'
    · subst hc
      have hline : trimmed [finishLine before] = trimmed [before.reverse] := by
        simp [trimmed, trimEndChars_finishLine]
      rw [linesAfter, List.splitOnPPrepend_cons_pos rfl, trimmed_cons, trimmed_cons before.reverse,
        hline, trimmed_linesAfter cs [], List.splitOnPPrepend_nil_right]
    · rw [List.splitOnPPrepend_cons_neg (by simpa using hc), ← trimmed_linesAfter cs (c :: before)]
      simp [linesAfter]

/-- Without blank ends and blank lines, the lines of a text are those that line feeds
cut. -/
theorem trimmed_linesOf (cs : List Char) : trimmed (linesOf cs) = trimmed (cs.splitOn '\n') := by
  rw [linesOf, trimmed_linesAfter, List.splitOnPPrepend_nil_right, List.splitOn_eq_splitOnP]

/-- The lines of a description are its trimmed lines with their references expanded. -/
theorem descriptionLines_eq (qualify : String → String) (text : String) :
    descriptionLines qualify text = (trimmed (text.toList.splitOn '\n')).map fun line =>
    String.ofList (expandChars qualify line) := by
  rw [← trimmed_linesOf]
  rfl

/-- The trimmed lines are the visible ones without their blank ends. -/
theorem mem_trimmed {lines : List (List Char)} {line : List Char} :
    line ∈ trimmed lines ↔ ∃ whole ∈ lines, line = trimEndChars whole ∧ ¬line.all isBlank := by
  simp only [trimmed, List.mem_filter, List.mem_map, Bool.not_eq_true']
  constructor
  · rintro ⟨⟨whole, hw, rfl⟩, hb⟩
    exact ⟨whole, hw, rfl, by simp [hb]⟩
  · rintro ⟨whole, hw, rfl, hb⟩
    exact ⟨⟨whole, hw, rfl⟩, by simpa using hb⟩

/-! ## The end of a block comment

The end of a comment has no blank in it, so it is in one line or in none.
-/

theorem not_closes_nil : ¬Closes [] := by
  simp [Closes]

/-- A comment is closed by the first two characters or later. -/
theorem closes_cons {c : Char} {cs : List Char} :
    Closes (c :: cs) ↔ c = '*' ∧ cs.head? = some '/' ∨ Closes cs := by
  have hslash : ['/'] <+: cs ↔ cs.head? = some '/' := by
    cases cs with
    | nil => simp
    | cons d ds =>
      simp only [List.cons_prefix_cons, List.nil_prefix, and_true, List.head?_cons,
        Option.some.injEq]
      exact eq_comm
  rw [Closes, List.infix_cons_iff, List.cons_prefix_cons, hslash, eq_comm (a := '*')]
  rfl

/-- Characters other than `*` do not help to close a comment. -/
theorem closes_append_of_forall_ne {cs : List Char} (ds : List Char) (h : ∀ c ∈ cs, c ≠ '*') :
    Closes (cs ++ ds) ↔ Closes ds := by
  induction cs with
  | nil => rfl
  | cons c cs ih =>
    rw [List.cons_append, closes_cons, ih fun c hc => h c (List.mem_cons_of_mem _ hc)]
    simp [h c List.mem_cons_self]

/-- A character that is in no end of a comment separates those on its left from those on
its right. -/
theorem closes_append_cons {c : Char} (h : c ≠ '*') (h' : c ≠ '/') (cs ds : List Char) :
    Closes (cs ++ c :: ds) ↔ Closes cs ∨ Closes ds := by
  induction cs with
  | nil => simp [closes_cons, h, not_closes_nil]
  | cons d cs ih =>
    rw [List.cons_append, closes_cons, closes_cons, ih, or_assoc]
    cases cs <;> simp [h']

/-- No comment is closed across a line feed. -/
theorem closes_intercalate : ∀ lines : List (List Char),
    Closes (['\n'].intercalate lines) ↔ ∃ line ∈ lines, Closes line
  | [] => by simp [not_closes_nil]
  | [line] => by simp
  | line :: next :: lines => by
    have ih := closes_intercalate (next :: lines)
    rw [List.intercalate_cons_cons, List.append_assoc, List.singleton_append,
      closes_append_cons (by decide) (by decide), ih]
    simp

/-! ## References

Expanding looks at one character at a time and takes the name behind a number sign with
it.
-/

/-- The names of the references in a line. -/
def references : List Char → List String
  | [] => []
  | c :: rest =>
    if c == '#' then
      (if (rest.head?.map Char.isAlpha).getD false
        then [String.ofList (rest.takeWhile isReferencePart)] else []) ++
        references (rest.dropWhile isReferencePart)
    else references rest
termination_by cs => cs.length
decreasing_by
  · have := (List.dropWhile_sublist (l := rest) isReferencePart).length_le
    simp only [List.length_cons]
    omega
  · simp

section expand

variable {qualify : String → String}

@[simp] theorem expandChars_nil : expandChars qualify [] = [] := by
  rw [expandChars]

theorem expandChars_cons {c : Char} (h : c ≠ '#') (cs : List Char) :
    expandChars qualify (c :: cs) = c :: expandChars qualify cs := by
  rw [expandChars, if_neg (by simpa using h)]

theorem expandChars_mark (cs : List Char) : expandChars qualify ('#' :: cs) =
    expandName qualify (cs.takeWhile isReferencePart) ++
    expandChars qualify (cs.dropWhile isReferencePart) := by
  rw [expandChars, if_pos (by decide)]

@[simp] theorem references_nil : references [] = [] := by
  rw [references]

theorem references_cons {c : Char} (h : c ≠ '#') (cs : List Char) :
    references (c :: cs) = references cs := by
  rw [references, if_neg (by simpa using h)]

theorem references_mark (cs : List Char) : references ('#' :: cs) =
    (if (cs.head?.map Char.isAlpha).getD false then [String.ofList (cs.takeWhile isReferencePart)]
      else []) ++ references (cs.dropWhile isReferencePart) := by
  rw [references, if_pos (by decide)]

theorem isReferencePart_of_isAlpha {c : Char} (h : c.isAlpha) : isReferencePart c := by
  simp [isReferencePart, Char.isAlphanum, h]

/-- The name after a number sign is replaced if it is that of a reference. -/
theorem expandName_takeWhile (cs : List Char) : expandName qualify (cs.takeWhile isReferencePart) =
    if (cs.head?.map Char.isAlpha).getD false
      then (qualify (String.ofList (cs.takeWhile isReferencePart))).toList
    else '#' :: cs.takeWhile isReferencePart := by
  cases cs with
  | nil => rfl
  | cons c cs =>
    by_cases hc : isReferencePart c
    · rw [List.takeWhile_cons_of_pos hc]
      rfl
    · have ha : c.isAlpha = false := by
        cases h : c.isAlpha with
        | false => rfl
        | true => exact absurd (isReferencePart_of_isAlpha h) hc
      rw [List.takeWhile_cons_of_neg hc]
      simp [expandName, ha]

theorem isReferencePart_of_mem_takeWhile {cs : List Char} {c : Char}
    (h : c ∈ cs.takeWhile isReferencePart) : isReferencePart c :=
  List.all_eq_true.1 List.all_takeWhile c h

/-- The names that references give are made of reference characters. -/
theorem isReferencePart_of_mem_references {cs : List Char} {name : String}
    (h : name ∈ references cs) :
    ∀ c ∈ name.toList, isReferencePart c := by
  -- The induction follows the marks of the text: at a mark the name is cut off.
  induction cs using references.induct with
  | case1 => simp at h
  | case2 c cs hc ih =>
    obtain rfl : c = '#' := eq_of_beq hc
    rw [references_mark, List.mem_append] at h
    rcases h with h | h
    · split at h
      · obtain rfl := List.mem_singleton.1 h
        rw [String.toList_ofList]
        exact fun c => isReferencePart_of_mem_takeWhile
      · cases h
    · exact ih h
  | case3 c cs hc ih =>
    rw [references_cons (by simpa using hc)] at h
    exact ih h

/-! A character that is in no reference cuts a text in two whose references are expanded
on their own. -/

section cut

variable {sep : Char} (hsep : isReferencePart sep = false)
include hsep

/-- A reference does not run over a character that cannot be part of one. -/
theorem takeWhile_append_cons (cs ds : List Char) :
    (cs ++ sep :: ds).takeWhile isReferencePart = cs.takeWhile isReferencePart := by
  rw [List.takeWhile_append]
  split
  · next h =>
    rw [List.takeWhile_cons_of_neg (by simp [hsep]), List.append_nil]
    exact ((List.takeWhile_prefix _).eq_of_length h).symm
  · rfl

/-- Nor is anything beyond that character lost. -/
theorem dropWhile_append_cons (cs ds : List Char) :
    (cs ++ sep :: ds).dropWhile isReferencePart = cs.dropWhile isReferencePart ++ sep :: ds := by
  rw [List.dropWhile_append]
  split
  · next h =>
    rw [List.isEmpty_iff.1 h, List.dropWhile_cons_of_neg (by simp [hsep]), List.nil_append]
  · rfl

/-- Whether a letter follows a mark does not depend on what is beyond that character. -/
theorem head?_map_append_cons (cs ds : List Char) :
    (((cs ++ sep :: ds).head?.map Char.isAlpha).getD false) =
    (cs.head?.map Char.isAlpha).getD false := by
  cases cs with
  | nil =>
    have ha : sep.isAlpha = false := by
      cases h : sep.isAlpha with
      | false => rfl
      | true => simp [isReferencePart_of_isAlpha h] at hsep
    simp [ha]
  | cons c cs => rfl

/-- The two sides of such a character are expanded on their own. -/
theorem expandChars_append_cons (hmark : sep ≠ '#') (cs ds : List Char) :
    expandChars qualify (cs ++ sep :: ds) = expandChars qualify cs ++
    sep :: expandChars qualify ds := by
  induction cs using references.induct with
  | case1 => simp [expandChars_cons hmark]
  | case2 c cs hc ih =>
    obtain rfl : c = '#' := eq_of_beq hc
    rw [List.cons_append, expandChars_mark, expandChars_mark, takeWhile_append_cons hsep,
      dropWhile_append_cons hsep, ih, List.append_assoc]
  | case3 c cs hc ih =>
    have hc : c ≠ '#' := by simpa using hc
    rw [List.cons_append, expandChars_cons hc, expandChars_cons hc, ih, List.cons_append]

/-- And each side has its own references. -/
theorem references_append_cons (hmark : sep ≠ '#') (cs ds : List Char) :
    references (cs ++ sep :: ds) = references cs ++ references ds := by
  induction cs using references.induct with
  | case1 => simp [references_cons hmark]
  | case2 c cs hc ih =>
    obtain rfl : c = '#' := eq_of_beq hc
    rw [List.cons_append, references_mark, references_mark, takeWhile_append_cons hsep,
      dropWhile_append_cons hsep, head?_map_append_cons hsep, ih, List.append_assoc]
  | case3 c cs hc ih =>
    have hc : c ≠ '#' := by simpa using hc
    rw [List.cons_append, references_cons hc, references_cons hc, ih]

end cut

/-- A text without marks is not changed. -/
theorem expandChars_of_forall_ne :
    ∀ {cs : List Char}, (∀ c ∈ cs, c ≠ '#') → expandChars qualify cs = cs
  | [], _ => expandChars_nil
  | c :: cs, h => by
    rw [expandChars_cons (h c List.mem_cons_self),
      expandChars_of_forall_ne fun d hd => h d (List.mem_cons_of_mem c hd)]

/-- A text without marks has no references. -/
theorem references_of_forall_ne : ∀ {cs : List Char}, (∀ c ∈ cs, c ≠ '#') → references cs = []
  | [], _ => references_nil
  | c :: cs, h => by
    rw [references_cons (h c List.mem_cons_self),
      references_of_forall_ne fun d hd => h d (List.mem_cons_of_mem c hd)]

theorem isBlank_ne_mark {c : Char} (h : isBlank c) : c ≠ '#' := by
  rintro rfl
  exact absurd h (by decide)

/-- No blank is part of a reference. -/
theorem not_isReferencePart_of_isBlank {c : Char} (h : isBlank c) : isReferencePart c = false := by
  simp only [isBlank, Bool.or_eq_true, Bool.and_eq_true, decide_eq_true_eq, beq_iff_eq] at h
  have hu : (c == '_') = false := by
    simp only [beq_eq_false_iff_ne, ne_eq]
    rintro rfl
    exact absurd h (by decide)
  have hn : c.val.toNat = c.toNat := rfl
  have hpart : isReferencePart c = ((decide (65 ≤ c.val ∧ c.val ≤ 90) ||
      decide (97 ≤ c.val) && decide (c.val ≤ 122)) || decide (48 ≤ c.val) && decide (c.val ≤ 57) ||
        c == '_') := rfl
  simp only [hpart, hu, Bool.or_eq_false_iff, Bool.and_eq_false_iff, decide_eq_false_iff_not,
    UInt32.le_iff_toNat_le, hn, UInt32.reduceToNat, and_true]
  omega

/-- Blanks at the end stay where they are. -/
theorem expandChars_append_blanks {blanks : List Char} (h : ∀ c ∈ blanks, isBlank c)
    (cs : List Char) :
    expandChars qualify (cs ++ blanks) = expandChars qualify cs ++ blanks := by
  cases blanks with
  | nil => simp
  | cons c blanks =>
    have hc := h c List.mem_cons_self
    rw [expandChars_append_cons (not_isReferencePart_of_isBlank hc) (isBlank_ne_mark hc),
      expandChars_of_forall_ne fun d hd => isBlank_ne_mark (h d (List.mem_cons_of_mem c hd))]

/-- Blanks at the end are no references. -/
theorem references_append_blanks {blanks : List Char} (h : ∀ c ∈ blanks, isBlank c)
    (cs : List Char) :
    references (cs ++ blanks) = references cs := by
  cases blanks with
  | nil => simp
  | cons c blanks =>
    have hc := h c List.mem_cons_self
    rw [references_append_cons (not_isReferencePart_of_isBlank hc) (isBlank_ne_mark hc),
      references_of_forall_ne fun d hd => isBlank_ne_mark (h d (List.mem_cons_of_mem c hd)),
      List.append_nil]

theorem references_trimEndChars (cs : List Char) :
    references (trimEndChars cs) = references cs := by
  obtain ⟨blanks, hcs, hblanks⟩ := exists_eq_trimEndChars_append cs
  conv => rhs; rw [hcs, references_append_blanks hblanks]

theorem not_closes_of_forall_isBlank {blanks : List Char} (h : ∀ c ∈ blanks, isBlank c) :
    ¬Closes blanks := by
  intro hc
  exact absurd (h '*' (hc.subset (by simp))) (by decide)

/-- Trimming takes no end of a comment away. -/
theorem closes_expandChars_trimEndChars (cs : List Char) :
    Closes (expandChars qualify (trimEndChars cs)) ↔ Closes (expandChars qualify cs) := by
  obtain ⟨blanks, hcs, hblanks⟩ := exists_eq_trimEndChars_append cs
  conv => rhs; rw [hcs, expandChars_append_blanks hblanks]
  cases blanks with
  | nil => simp
  | cons c blanks =>
    have hc := hblanks c List.mem_cons_self
    have hstar : c ≠ '*' := fun h => absurd (h ▸ hc) (by decide)
    have hslash : c ≠ '/' := fun h => absurd (h ▸ hc) (by decide)
    rw [closes_append_cons hstar hslash, or_iff_left]
    exact not_closes_of_forall_isBlank fun d hd => hblanks d (List.mem_cons_of_mem c hd)

/-- Lines are expanded one by one, as no reference runs over a line feed. -/
theorem expandChars_intercalate : ∀ lines : List (List Char),
    expandChars qualify (['\n'].intercalate lines) =
    ['\n'].intercalate (lines.map (expandChars qualify))
  | [] => by simp
  | [line] => by simp
  | line :: next :: lines => by
    have ih := expandChars_intercalate (next :: lines)
    rw [List.intercalate_cons_cons, List.append_assoc, List.singleton_append,
      expandChars_append_cons (by decide) (by decide), ih]
    simp

/-- The references of a text are those of its lines. -/
theorem references_intercalate : ∀ lines : List (List Char),
    references (['\n'].intercalate lines) = lines.flatMap references
  | [] => by simp
  | [line] => by simp
  | line :: next :: lines => by
    have ih := references_intercalate (next :: lines)
    rw [List.intercalate_cons_cons, List.append_assoc, List.singleton_append,
      references_append_cons (by decide) (by decide), ih]
    simp

/-- What is left of a blank line is nothing. -/
theorem trimEndChars_eq_nil {cs : List Char} (h : (trimEndChars cs).all isBlank) :
    trimEndChars cs = [] := by
  by_cases hcs : trimEndChars cs = []
  · exact hcs
  · obtain ⟨init, c, hlast, hc⟩ := exists_trimEndChars_eq_concat hcs
    exact absurd (List.all_eq_true.1 h c (by simp [hlast])) hc

/-- The comment lines of a description with a property that the empty text does not
have. -/
theorem exists_mem_descriptionLines {p : List Char → Prop} (hp : ¬p []) (text : String) :
    (∃ line ∈ descriptionLines qualify text, p line.toList) ↔
      ∃ line ∈ text.toList.splitOn '\n', p (expandChars qualify (trimEndChars line)) := by
  rw [descriptionLines_eq]
  simp only [List.mem_map]
  constructor
  · rintro ⟨_, ⟨trim, htrim, rfl⟩, hline⟩
    obtain ⟨line, hl, rfl, -⟩ := mem_trimmed.1 htrim
    rw [String.toList_ofList] at hline
    exact ⟨line, hl, hline⟩
  · rintro ⟨line, hl, hline⟩
    refine ⟨_, ⟨trimEndChars line, mem_trimmed.2 ⟨line, hl, rfl, fun hall => ?_⟩, rfl⟩, ?_⟩
    · rw [trimEndChars_eq_nil hall, expandChars_nil] at hline
      exact hp hline
    · rwa [String.toList_ofList]

/-- The comment lines of a description have the end of a comment exactly when it does
with its references expanded. -/
theorem exists_closes_descriptionLines_iff (qualify : String → String) (text : String) :
    (∃ line ∈ descriptionLines qualify text, Closes line.toList) ↔
    Closes (expandChars qualify text.toList) := by
  have hlines := closes_intercalate ((text.toList.splitOn '\n').map (expandChars qualify))
  rw [← expandChars_intercalate, List.intercalate_splitOn] at hlines
  rw [exists_mem_descriptionLines not_closes_nil, hlines]
  simp only [closes_expandChars_trimEndChars, List.mem_map]
  constructor
  · rintro ⟨line, hl, hc⟩
    exact ⟨_, ⟨line, hl, rfl⟩, hc⟩
  · rintro ⟨_, ⟨line, hl, rfl⟩, hc⟩
    exact ⟨line, hl, hc⟩

/-- What expanded text has that no name of a reference has is in the text, or in what a
reference is replaced by. -/
theorem exists_mem_expandChars {p : Char → Prop} (hmark : ¬p '#')
    (hpart : ∀ c, isReferencePart c → ¬p c) (cs : List Char) : (∃ c ∈ expandChars qualify cs, p c) ↔
      (∃ c ∈ cs, p c) ∨ ∃ name ∈ references cs, ∃ c ∈ (qualify name).toList, p c := by
  induction cs using references.induct with
  | case1 => simp
  | case2 c cs hc ih =>
    obtain rfl : c = '#' := eq_of_beq hc
    -- Nothing in the reference itself has the property, neither its mark nor its name.
    have hname : ∀ c ∈ cs.takeWhile isReferencePart, ¬p c := fun c hc =>
      hpart c (isReferencePart_of_mem_takeWhile hc)
    -- So what of the text has the property is behind the reference.
    have hsource : (∃ c ∈ '#' :: cs, p c) ↔ ∃ c ∈ cs.dropWhile isReferencePart, p c := by
      conv => lhs; rw [← List.takeWhile_append_dropWhile (p := isReferencePart) (l := cs)]
      simp only [List.mem_cons, List.mem_append, or_and_right, exists_or, exists_eq_left]
      rw [or_iff_right hmark, or_iff_right]
      rintro ⟨c, hc, hp⟩
      exact hname c hc hp
    rw [expandChars_mark, expandName_takeWhile, references_mark, hsource]
    simp only [List.mem_append, or_and_right, exists_or, ih]
    split
    · simp only [List.mem_singleton, exists_eq_left]
      exact or_left_comm
    · simp only [List.not_mem_nil, false_and, exists_false, false_or, or_iff_right_iff_imp]
      rintro ⟨c, hc, hp⟩
      rcases List.mem_cons.1 hc with rfl | hc
      · exact absurd hp hmark
      · exact absurd hp (hname c hc)
  | case3 c cs hc ih =>
    have hc : c ≠ '#' := by simpa using hc
    rw [expandChars_cons hc, references_cons hc]
    simp [ih, or_assoc]

/-- A trimmed line has a terminator exactly if something visible follows one. -/
theorem exists_mem_trimEndChars_isTerminator {line : List Char} :
    (∃ t ∈ trimEndChars line, isTerminator t) ↔
    ∃ before t after, line = before ++ t :: after ∧ isTerminator t ∧ ∃ c ∈ after, ¬isBlank c := by
  constructor
  · rintro ⟨t, hmem, ht⟩
    -- What is trimmed are blanks, and the last character that is kept is visible.
    obtain ⟨blanks, hline, -⟩ := exists_eq_trimEndChars_append line
    obtain ⟨init, c, hlast, hc⟩ := exists_trimEndChars_eq_concat (List.ne_nil_of_mem hmem)
    obtain ⟨before, after, hsplit⟩ := List.append_of_mem hmem
    refine ⟨before, t, after ++ blanks, ?_, ht, c, List.mem_append_left _ ?_, hc⟩
    · rw [← List.cons_append, ← List.append_assoc, ← hsplit]
      exact hline
    -- The terminator is not that last character, since terminators are blanks.
    · rw [hlast] at hsplit
      rcases List.eq_nil_or_concat after with rfl | ⟨after', d, rfl⟩
      · have hcd : c = t := List.singleton_inj.1 (List.append_inj' hsplit rfl).2
        exact absurd (isBlank_of_isTerminator ht) (hcd ▸ hc)
      · have hcd : [c] = [d] := by
          rw [List.concat_eq_append, ← List.cons_append, ← List.append_assoc] at hsplit
          exact (List.append_inj' hsplit rfl).2
        simp [List.singleton_inj.1 hcd]
  · rintro ⟨before, t, after, rfl, ht, c, hmem, hc⟩
    -- Up to the visible character nothing is trimmed.
    obtain ⟨left, right, rfl⟩ := List.append_of_mem hmem
    refine ⟨t, ?_, ht⟩
    have htrim := trimEndChars_append_cons hc (before ++ t :: left) right
    rw [List.append_assoc, List.cons_append] at htrim
    rw [htrim]
    simp

/-- No line terminator is part of a reference. -/
theorem not_isTerminator_of_isReferencePart {c : Char} (h : isReferencePart c) :
    ¬isTerminator c := by
  intro ht
  rw [not_isReferencePart_of_isBlank (isBlank_of_isTerminator ht)] at h
  cases h

/-- The comment lines of a description have a line terminator exactly when something
follows one on its line, or when what a reference is replaced by has one. -/
theorem exists_terminator_descriptionLines_iff (qualify : String → String) (text : String) :
    (∃ line ∈ descriptionLines qualify text, ∃ c ∈ line.toList, isTerminator c) ↔
      Breaks text.toList ∨ ∃ name ∈ references text.toList, ∃ c ∈ (qualify name).toList,
      isTerminator c := by
  -- The terminators in a line are its own and those of what its references become.
  have hline : ∀ line, (∃ c ∈ expandChars qualify (trimEndChars line), isTerminator c) ↔
      (∃ t ∈ trimEndChars line, isTerminator t) ∨
        ∃ name ∈ references line, ∃ c ∈ (qualify name).toList, isTerminator c := by
    intro line
    rw [exists_mem_expandChars (by decide) fun c => not_isTerminator_of_isReferencePart,
      references_trimEndChars]
  have htext : references text.toList = (text.toList.splitOn '\n').flatMap references := by
    rw [← references_intercalate, List.intercalate_splitOn]
  rw [exists_mem_descriptionLines (p := fun cs => ∃ c ∈ cs, isTerminator c) (by simp),
    htext, Breaks]
  simp only [hline, ← exists_mem_trimEndChars_isTerminator, List.mem_flatMap]
  constructor
  · rintro ⟨line, hl, hc | ⟨name, hn, hc⟩⟩
    · exact Or.inl ⟨line, hl, hc⟩
    · exact Or.inr ⟨name, ⟨line, hl, hn⟩, hc⟩
  · rintro (⟨line, hl, hc⟩ | ⟨name, ⟨line, hl, hn⟩, hc⟩)
    · exact ⟨line, hl, Or.inl hc⟩
    · exact ⟨line, hl, Or.inr ⟨name, hn, hc⟩⟩

/-! ## Plain names

Where names are replaced by plain ones, no slash and no star comes from a reference. A
slash that follows a star in the result followed it before.
-/

/-- Whether the names that references are replaced by are not empty and have a property
in all their characters. -/
structure Qualifies (qualify : String → String) (p : Char → Prop) : Prop where
  /-- They are not empty. -/
  ne_nil : ∀ name, (qualify name).toList ≠ []
  /-- Their characters have the property. -/
  all : ∀ name : String, (∀ c ∈ name.toList, isReferencePart c) → ∀ c ∈ (qualify name).toList, p c

/-- What replaces a number sign and the name after it. -/
theorem Qualifies.expandName {p : Char → Prop} (h : Qualifies qualify p) (hmark : p '#')
    (hpart : ∀ c, isReferencePart c → p c) (cs : List Char) :
    Text.expandName qualify (cs.takeWhile isReferencePart) ≠ [] ∧
      ∀ c ∈ Text.expandName qualify (cs.takeWhile isReferencePart), p c := by
  rw [expandName_takeWhile]
  split
  · refine ⟨h.ne_nil _, h.all _ fun c hc => ?_⟩
    rw [String.toList_ofList] at hc
    exact isReferencePart_of_mem_takeWhile hc
  · refine ⟨by simp, fun c hc => ?_⟩
    rcases List.mem_cons.1 hc with rfl | hc
    · exact hmark
    · exact hpart c (isReferencePart_of_mem_takeWhile hc)

theorem isReferencePart_ne {c d : Char} (h : isReferencePart c) (hd : isReferencePart d = false) :
    c ≠ d := by
  rintro rfl
  rw [h] at hd
  cases hd

/-- Expansion does not change whether a text starts with a slash, as no replacement
does. -/
theorem head?_expandChars_eq_slash (hq : Qualifies qualify fun c => c ≠ '*' ∧ c ≠ '/')
    (cs : List Char) : (expandChars qualify cs).head? = some '/' ↔ cs.head? = some '/' := by
  have hspec := hq.expandName (by decide) fun c hc =>
    ⟨isReferencePart_ne hc (by decide), isReferencePart_ne hc (by decide)⟩
  cases cs with
  | nil => simp
  | cons c cs =>
    by_cases hc : c = '#'
    · subst hc
      rw [expandChars_mark]
      cases hn : expandName qualify (cs.takeWhile isReferencePart) with
      | nil => exact absurd hn (hspec cs).1
      | cons d ds =>
        have hd : d ≠ '/' := ((hspec cs).2 d (by simp [hn])).2
        simp [hd]
    · simp [expandChars_cons hc]

/-- With names that have no asterisk and no slash, a text has the end of a comment
whether its references are expanded or not. -/
theorem closes_expandChars (hq : Qualifies qualify fun c => c ≠ '*' ∧ c ≠ '/') (cs : List Char) :
    Closes (expandChars qualify cs) ↔ Closes cs := by
  -- What a reference becomes neither closes a comment nor starts with a slash.
  have hspec := hq.expandName (by decide) fun c hc =>
    ⟨isReferencePart_ne hc (by decide), isReferencePart_ne hc (by decide)⟩
  induction cs using references.induct with
  | case1 => simp
  | case2 c cs hc ih =>
    obtain rfl : c = '#' := eq_of_beq hc
    -- The mark and the name of a reference close nothing.
    have hsource : Closes ('#' :: cs) ↔ Closes (cs.dropWhile isReferencePart) := by
      conv => lhs; rw [← List.takeWhile_append_dropWhile (p := isReferencePart) (l := cs),
        ← List.cons_append]
      refine closes_append_of_forall_ne _ fun c hc => ?_
      rcases List.mem_cons.1 hc with rfl | hc
      · decide
      · exact isReferencePart_ne (isReferencePart_of_mem_takeWhile hc) (by decide)
    rw [expandChars_mark, closes_append_of_forall_ne _ fun c hc => ((hspec cs).2 c hc).1, hsource]
    exact ih
  | case3 c cs hc ih =>
    rw [expandChars_cons (by simpa using hc), closes_cons, closes_cons,
      head?_expandChars_eq_slash hq]
    exact or_congr_right ih

/-- With names that have no line terminator, no reference is replaced by one that has. -/
theorem not_exists_terminator_references (hq : Qualifies qualify fun c => ¬isTerminator c)
    (cs : List Char) :
    ¬∃ name ∈ references cs, ∃ c ∈ (qualify name).toList, isTerminator c := by
  rintro ⟨name, hn, c, hc, ht⟩
  exact hq.all name (isReferencePart_of_mem_references hn) c hc ht

end expand

end Classwright.Text
