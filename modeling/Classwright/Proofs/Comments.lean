import Classwright.Proofs.Descriptions
import Classwright.Render.Generate

/-!
# Where comments end

A block comment ends at the first end that follows its beginning (`commentEnd?`), and a
comment of the other kind at the first line terminator. A comment between `/**` and `*/`
ends where it was meant to exactly when none of its lines has the end of a comment
(`closesAtEnd_blockComment_iff`), and summaries have no line outside of comments when
none of their lines has a line terminator (`onlyComments_summary`).
-/

namespace Classwright

open Text (Closes isTerminator closes_append_cons)

/-! ## Block comments

A text is looked through for the first end of a comment. The margin, the star and the
line feed between two lines can neither be nor complete one.
-/

/-- What follows the first end of a block comment. -/
def commentEnd? : List Char → Option (List Char)
  | [] => none
  | c :: rest => if c == '*' && rest.head? == some '/' then some rest.tail else commentEnd? rest

/-- A text that does not close a comment is passed over, if no slash follows it. -/
theorem commentEnd?_append_of_not_closes {c : Char} (hc : c ≠ '/') (ds : List Char) :
    ∀ {cs : List Char}, ¬Closes cs → commentEnd? (cs ++ c :: ds) = commentEnd? (c :: ds)
  | [], _ => rfl
  | d :: cs, h => by
    rw [Text.closes_cons, not_or] at h
    have hhead : (d == '*' && (cs ++ c :: ds).head? == some '/') = false := by
      cases cs with
      | nil => simp [hc]
      | cons e cs => simpa using h.1
    rw [List.cons_append, commentEnd?, if_neg (by rw [hhead]; decide),
      commentEnd?_append_of_not_closes hc ds h.2]

/-- A text that closes a comment does so whatever follows it. -/
theorem exists_commentEnd?_append (ds : List Char) : ∀ {cs : List Char}, Closes cs →
    ∃ rest, commentEnd? (cs ++ ds) = some (rest ++ ds)
  | [], h => absurd h Text.not_closes_nil
  -- The comment ends at the first pair that closes it, here or later.
  | d :: cs, h => by
    rw [Text.closes_cons] at h
    rw [List.cons_append, commentEnd?]
    split
    · next hend =>
      cases cs with
      | nil =>
        rcases h with ⟨-, h⟩ | h
        · cases h
        · exact absurd h Text.not_closes_nil
      | cons e cs => exact ⟨cs, rfl⟩
    · next hend =>
      rcases h with ⟨rfl, h⟩ | h
      · cases cs with
        | nil => cases h
        | cons e cs =>
          obtain rfl : e = '/' := Option.some.inj h
          exact absurd rfl hend
      · exact exists_commentEnd?_append ds h

/-- Whether lines are one block comment, that is, whether the first end after its
beginning is at the very end. -/
def ClosesAtEnd (block : List String) : Prop :=
  ∃ rest, (Text.unlines block).toList.dropWhile (· == '\t') = '/' :: '*' :: rest ∧
    commentEnd? rest = some ['\n']

/-- Lines put together, as characters. -/
theorem toList_unlines : ∀ lines : List String,
    (Text.unlines lines).toList = lines.flatMap fun line => line.toList ++ ['\n']
  | [] => rfl
  | line :: lines => by
    have ih := toList_unlines lines
    rw [Text.unlines] at ih ⊢
    simp [String.join_cons, ih]

/-- A margin of tabs, as characters. -/
theorem toList_copies_tab (depth : Nat) :
    (Text.copies depth "\t").toList = List.replicate depth '\t' := by
  induction depth with
  | zero => rfl
  | succ depth ih =>
    rw [Text.copies] at ih ⊢
    simp [List.replicate_succ, String.join_cons, ih]

theorem not_closes_of_notMem {cs : List Char} (h : '/' ∉ cs) : ¬Closes cs :=
  fun hc => h (hc.subset (by simp))

/-- Tabs after a text do not close a comment. -/
theorem closes_append_replicate (cs : List Char) (depth : Nat) :
    Closes (cs ++ List.replicate depth '\t') ↔ Closes cs := by
  cases depth with
  | zero => simp
  | succ depth =>
    have htabs : ¬Closes (List.replicate depth '\t') := not_closes_of_notMem (by simp)
    rw [List.replicate_succ, closes_append_cons (by decide) (by decide)]
    simp [htabs]

/-- The lines inside a comment have its end exactly when one of the texts in them has. -/
theorem closes_starred (depth : Nat) : ∀ lines : List String,
    Closes (lines.flatMap fun line =>
      List.replicate depth '\t' ++ [' ', '*', ' '] ++ line.toList ++ ['\n']) ↔
        ∃ line ∈ lines, Closes line.toList
  | [] => by simp [Text.not_closes_nil]
  | line :: lines => by
    have ih := closes_starred depth lines
    -- Neither the margin nor the star closes a comment, so only the line itself can.
    have hstar : ¬Closes (List.replicate depth '\t' ++ [' ', '*']) := not_closes_of_notMem (by simp)
    have hsplit : ((line :: lines).flatMap fun line =>
          List.replicate depth '\t' ++ [' ', '*', ' '] ++ line.toList ++ ['\n']) =
        (List.replicate depth '\t' ++ [' ', '*']) ++
          ' ' :: (line.toList ++ '\n' :: lines.flatMap fun line =>
          List.replicate depth '\t' ++ [' ', '*', ' '] ++ line.toList ++ ['\n']) := by
      simp
    rw [hsplit, closes_append_cons (by decide) (by decide), or_iff_right hstar,
      closes_append_cons (by decide) (by decide), ih]
    simp

/-- A block comment ends where it was meant to exactly when no text in it has the end of
a comment. -/
theorem closesAtEnd_blockComment_iff (depth : Nat) (lines : List String) :
    ClosesAtEnd (blockComment depth lines) ↔ ∀ line ∈ lines, ¬Closes line.toList := by
  -- Behind the margin and the opening, the comment is its lines and the closing.
  let starred := lines.flatMap fun line => List.replicate depth '\t' ++ [' ', '*', ' '] ++
    line.toList ++ ['\n']
  let before := ['*'] ++ '\n' :: (starred ++ List.replicate depth '\t')
  have htext : (Text.unlines (blockComment depth lines)).toList =
      List.replicate depth '\t' ++ '/' :: '*' :: (before ++ ' ' :: ['*', '/', '\n']) := by
    simp [toList_unlines, blockComment, toList_copies_tab, before, starred, List.flatMap_map]
  have hdrop : (Text.unlines (blockComment depth lines)).toList.dropWhile (· == '\t') =
      '/' :: '*' :: (before ++ ' ' :: ['*', '/', '\n']) := by
    rw [htext, List.dropWhile_append]
    simp
  have hbefore : Closes before ↔ ∃ line ∈ lines, Closes line.toList := by
    rw [← closes_starred depth lines, ← closes_append_replicate starred depth]
    rw [closes_append_cons (by decide) (by decide), or_iff_right (not_closes_of_notMem (by simp))]
  -- The closing ends the comment for sure, so the question is whether something before
  -- it does.
  have hend : commentEnd? (before ++ ' ' :: ['*', '/', '\n']) = some ['\n'] ↔ ¬Closes before := by
    constructor
    · intro h hc
      obtain ⟨rest, hr⟩ := exists_commentEnd?_append (' ' :: ['*', '/', '\n']) hc
      rw [h, Option.some.injEq] at hr
      simpa using congrArg List.length hr
    · intro hc
      rw [commentEnd?_append_of_not_closes (by decide) _ hc]
      rfl
  rw [ClosesAtEnd, hdrop]
  constructor
  · rintro ⟨rest, hrest, h⟩ line hl hc
    obtain rfl : before ++ ' ' :: ['*', '/', '\n'] = rest := by simpa using hrest
    exact hend.1 h (hbefore.2 ⟨line, hl, hc⟩)
  · intro h
    refine ⟨_, rfl, hend.2 fun hc => ?_⟩
    obtain ⟨line, hl, hc⟩ := hbefore.1 hc
    exact h line hl hc

theorem blockComment_ne_nil (depth : Nat) (lines : List String) :
    blockComment depth lines ≠ [] := by
  simp [blockComment]

/-- A comment that may be absent closes only at its end if no line closes it before. -/
theorem closesAtEnd_blockCommentIfAny_iff (depth : Nat) (lines : List String) :
    (blockCommentIfAny depth lines = [] ∨ ClosesAtEnd (blockCommentIfAny depth lines)) ↔
      ∀ line ∈ lines, ¬Closes line.toList := by
  unfold blockCommentIfAny
  split
  · next h => simp [List.isEmpty_iff.1 h]
  · rw [or_iff_right (blockComment_ne_nil depth lines), closesAtEnd_blockComment_iff]

/-! ## Comments up to the end of a line

Every line is put behind slashes of its own, so only a terminator inside a line can
leave the comment.
-/

/-- Whether every line of a text, as terminators cut it, is a comment or empty. -/
def OnlyComments (block : List String) : Prop :=
  ∀ line ∈ (Text.unlines block).toList.splitOnP isTerminator,
    line = [] ∨ ['/', '/', '/'] <+: line.dropWhile (· == '\t')

/-- Terminators cut texts without terminators where the lines end. -/
theorem splitOnP_unlines :
    ∀ {block : List String}, (∀ line ∈ block, ∀ c ∈ line.toList, ¬isTerminator c) →
    (Text.unlines block).toList.splitOnP isTerminator = block.map String.toList ++ [[]]
  | [], _ => rfl
  | line :: block, h => by
    have ih := splitOnP_unlines fun l hl => h l (List.mem_cons_of_mem line hl)
    have hline : ∀ c ∈ line.toList, isTerminator c = false := fun c hc => by
      simpa using h line List.mem_cons_self c hc
    have hsplit : (Text.unlines (line :: block)).toList = line.toList ++
        '\n' :: (Text.unlines block).toList := by
      simp [toList_unlines]
    rw [hsplit, List.splitOnP_append_cons_of_forall_mem hline '\n' (by decide), ih]
    rfl

/-- Escaping for XML keeps line terminators and adds none. -/
theorem exists_isTerminator_escapeChar {d : Char} :
    (∃ c ∈ CSharp.escapeChar d, isTerminator c) ↔ isTerminator d := by
  unfold CSharp.escapeChar
  split
  · simp [isTerminator]
  · simp [isTerminator]
  · simp [isTerminator]
  · simp

/-- A text has a line terminator exactly if its escaped form has one. -/
theorem exists_isTerminator_escape {s : String} :
    (∃ c ∈ (CSharp.escape s).toList, isTerminator c) ↔ ∃ c ∈ s.toList, isTerminator c := by
  rw [CSharp.escape, String.toList_ofList]
  constructor
  · rintro ⟨c, hc, ht⟩
    obtain ⟨d, hd, hc⟩ := List.mem_flatMap.1 hc
    exact ⟨d, hd, exists_isTerminator_escapeChar.1 ⟨c, hc, ht⟩⟩
  · rintro ⟨d, hd, ht⟩
    obtain ⟨c, hc, ht⟩ := exists_isTerminator_escapeChar.2 ht
    exact ⟨c, List.mem_flatMap.2 ⟨d, hd, hc⟩, ht⟩

/-- The lines of a summary are comments. -/
theorem exists_toList_eq_of_mem_summary {depth : Nat} {lines : List String}
    (h : ∀ line ∈ lines, ∀ c ∈ line.toList, ¬isTerminator c) {line : String}
    (hl : line ∈ CSharp.summary depth lines) : ∃ text,
      line.toList = List.replicate depth '\t' ++ '/' :: '/' :: '/' :: text ∧ ∀ c ∈ text,
      ¬isTerminator c := by
  unfold CSharp.summary at hl
  dsimp only at hl
  split at hl
  · cases hl
  -- The lines of the summary are its frame and the escaped lines of the description.
  · simp only [List.mem_append, List.mem_singleton, List.mem_map] at hl
    rcases hl with (rfl | ⟨text, ht, rfl⟩) | rfl
    · exact ⟨" <summary>".toList, by simp [toList_copies_tab], by simp [isTerminator]⟩
    · refine ⟨' ' :: (CSharp.escape text).toList, by simp [toList_copies_tab], fun c hc hterm => ?_⟩
      rcases List.mem_cons.1 hc with rfl | hc
      · exact absurd hterm (by decide)
      · obtain ⟨d, hd, hterm⟩ := exists_isTerminator_escape.1 ⟨c, hc, hterm⟩
        exact h text ht d hd hterm
    · exact ⟨" </summary>".toList, by simp [toList_copies_tab], by simp [isTerminator]⟩

/-- A summary has nothing but comments when no text in it has a line terminator. -/
theorem onlyComments_summary (depth : Nat) {lines : List String}
    (h : ∀ line ∈ lines, ∀ c ∈ line.toList, ¬isTerminator c) :
    OnlyComments (CSharp.summary depth lines) := by
  intro line hline
  rw [splitOnP_unlines] at hline
  · rcases List.mem_append.1 hline with hline | hline
    · obtain ⟨l, hl, rfl⟩ := List.mem_map.1 hline
      obtain ⟨text, htext, -⟩ := exists_toList_eq_of_mem_summary h hl
      refine Or.inr ⟨text, ?_⟩
      rw [htext, List.dropWhile_append]
      simp
    · exact Or.inl (List.mem_singleton.1 hline)
  -- No line of the summary has a terminator, so cutting the text at them gives the
  -- lines back.
  · intro l hl c hc hterm
    obtain ⟨text, htext, hfree⟩ := exists_toList_eq_of_mem_summary h hl
    rw [htext] at hc
    simp only [List.mem_append, List.mem_replicate, List.mem_cons] at hc
    rcases hc with ⟨-, rfl⟩ | rfl | rfl | rfl | hc
    · exact absurd hterm (by decide)
    · exact absurd hterm (by decide)
    · exact absurd hterm (by decide)
    · exact absurd hterm (by decide)
    · exact hfree c hc hterm

end Classwright
