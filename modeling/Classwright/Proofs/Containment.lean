import Classwright.Proofs.Comments
import Classwright.Proofs.DocBlocks

/-!
# What keeps descriptions in their comments

Descriptions come from outside and are written into comments as they are. A block
comment ends at the first end of a comment in it, and a comment of C# at the first line
terminator, so that a description can end the comment that it stands in.
`Backend.Escapes` tells which descriptions do, from their text alone. All others stay
inside their comments (`Backend.descriptions_contained`).
-/

namespace Classwright

open Text (Closes Breaks isTerminator references)

namespace Backend

/-- The lines of a description as they are written into comments. -/
def commentLines (b : Backend) (o : Options) (description : String) : List String :=
  match b with
  | .cSharp => (Text.descriptionLines (b.types o).object description).map CSharp.escape
  | _ => Text.descriptionLines (b.types o).object description

/-- Whether a line does not end the comment that it is written into. -/
def LineStays (b : Backend) (line : String) : Prop :=
  match b with
  | .cSharp => ∀ c ∈ line.toList, ¬isTerminator c
  | _ => ¬Closes line.toList

/-- Whether a description ends the comment that it is written into. With its references
expanded it has the end of a block comment; in C#, something follows a terminator on one
of its lines, or a class that it refers to has a terminator in its name. -/
def Escapes (b : Backend) (o : Options) (description : String) : Prop :=
  match b with
  | .cSharp => Breaks description.toList ∨
      ∃ name ∈ references description.toList, ∃ c ∈ ((b.types o).object name).toList, isTerminator c
  | _ => Closes (Text.expandChars (b.types o).object description.toList)

/-- Whether the lines of a comment are nothing but a comment. -/
def Contained (b : Backend) (block : List String) : Prop :=
  match b with
  | .cSharp => OnlyComments block
  | _ => block = [] ∨ ClosesAtEnd block

/-- All lines of a description stay in their comment exactly if the description does not
escape. -/
theorem forall_descriptionLines_iff (b : Backend) (o : Options) (description : String) :
    (∀ line ∈ Text.descriptionLines (b.types o).object description, b.LineStays line) ↔
      ¬b.Escapes o description := by
  have hclose :
      (∀ line ∈ Text.descriptionLines (b.types o).object description, ¬Closes line.toList) ↔
        ¬Closes (Text.expandChars (b.types o).object description.toList) := by
    rw [← Text.exists_closes_descriptionLines_iff]
    simp
  cases b with
  | javaScript => exact hclose
  | actionScript => exact hclose
  | cSharp =>
    unfold Escapes
    rw [← Text.exists_terminator_descriptionLines_iff]
    simp [LineStays]

theorem lineStays_escape {line : String} :
    cSharp.LineStays (CSharp.escape line) ↔ cSharp.LineStays line := by
  have h := exists_isTerminator_escape (s := line)
  simpa [LineStays] using not_congr h

/-- The lines of a description stay in their comments exactly when it does not escape. -/
theorem forall_commentLines_iff (b : Backend) (o : Options) (description : String) :
    (∀ line ∈ b.commentLines o description, b.LineStays line) ↔ ¬b.Escapes o description := by
  rw [← forall_descriptionLines_iff]
  cases b with
  | javaScript => rfl
  | actionScript => rfl
  | cSharp => simp [commentLines, lineStays_escape]

/-! ## Comments of an entity

Beside the description, the comment of a class may say what the class is used for, and
that of a property that it is required and of which type it is. There is nothing but
names in these lines that comes from outside.
-/

section contained

variable {b : Backend} {o : Options} {e : Entity} {p : Property}

/-- The lines of a description that may be absent. -/
theorem forall_docLines_iff {description? : Option String} :
    (∀ line ∈ docLines (b.types o) description?, b.LineStays line) ↔
      ∀ d ∈ description?, ¬b.Escapes o d := by
  cases description? with
  | none => simp [docLines]
  | some d => simp [docLines, forall_descriptionLines_iff]

/-- The note on a required property closes no comment and has no line terminator. -/
theorem forall_requiredNote :
    ∀ line ∈ requiredNote e p, ¬Closes line.toList ∧ ∀ c ∈ line.toList, ¬isTerminator c := by
  intro line hl
  unfold requiredNote at hl
  split at hl
  · obtain rfl := List.mem_singleton.1 hl
    exact ⟨not_closes_of_notMem (by decide), by simp [isTerminator]⟩
  · cases hl

/-- In a script, the comment of a class is contained exactly if its description does not
escape and the rest of it is contained. -/
theorem contained_classDoc_iff (hb : b ≠ .cSharp) : b.Contained (b.classDoc o e) ↔
    (∀ d ∈ e.description?, ¬b.Escapes o d) ∧ b.Contained (b.classDoc o e.undescribed) := by
  rw [← forall_docLines_iff]
  cases b with
  | cSharp => exact absurd rfl hb
  | javaScript =>
    -- Without its description the comment keeps the lines on the kind of class.
    have hu : JavaScript.classDoc o e.undescribed = blockCommentIfAny 0 (JavaScript.summary e) := by
      simp [JavaScript.classDoc, docLines, Entity.undescribed, JavaScript.summary]
    simp only [Contained, classDoc, hu, closesAtEnd_blockCommentIfAny_iff, LineStays]
    rw [JavaScript.classDoc, closesAtEnd_blockCommentIfAny_iff]
    simp only [List.forall_mem_append]
    exact And.comm
  | actionScript =>
    -- Without its description there is no comment.
    have hu : ActionScript.classDoc o e.undescribed = [] := rfl
    simp only [Contained, classDoc, hu, LineStays, true_or, and_true]
    unfold ActionScript.classDoc
    split
    · next h => simp [h, docLines]
    · rw [or_iff_right (blockComment_ne_nil _ _), closesAtEnd_blockComment_iff]
      rfl

/-- The same for the comment of a property, whose note and type come from the schema. -/
theorem contained_propertyDoc_iff (hb : b ≠ .cSharp) : b.Contained (b.propertyDoc o e p) ↔
    (∀ d ∈ p.description?, ¬b.Escapes o d) ∧
      b.Contained (b.propertyDoc o e.undescribed p.undescribed) := by
  rw [← forall_docLines_iff]
  cases b with
  | cSharp => exact absurd rfl hb
  | javaScript =>
    -- Without its description the comment keeps the note and the type.
    have hu : (JavaScript.memberDocs o e.undescribed p.undescribed).own =
        blockComment 1
        (requiredNote e p ++ [JavaScript.typeNote ((JavaScript.types o).shape p.shape)]) := rfl
    simp only [Contained, propertyDoc, hu, LineStays]
    rw [or_iff_right (blockComment_ne_nil _ _), closesAtEnd_blockComment_iff, JavaScript.memberDocs,
      or_iff_right (blockComment_ne_nil _ _), closesAtEnd_blockComment_iff, List.append_assoc,
      List.forall_mem_append]
    rfl
  | actionScript =>
    -- Without its description the comment keeps the note.
    have hu : (ActionScript.memberDocs o e.undescribed p.undescribed).own =
        blockCommentIfAny 1 (requiredNote e p) := rfl
    simp only [Contained, propertyDoc, hu, LineStays, closesAtEnd_blockCommentIfAny_iff]
    rw [ActionScript.memberDocs, closesAtEnd_blockCommentIfAny_iff]
    simp only [List.forall_mem_append]
    rfl

/-- In C# nothing but the description can end the comment of a class. -/
theorem contained_classDoc_cSharp (h : ∀ d ∈ e.description?, ¬cSharp.Escapes o d) :
    cSharp.Contained (cSharp.classDoc o e) := by
  have hdoc : ∀ line ∈ docLines (cSharp.types o) e.description?, cSharp.LineStays line :=
    forall_docLines_iff.2 h
  exact onlyComments_summary 1 hdoc

/-- In C# nothing but the description can end the comment of a property. -/
theorem contained_propertyDoc_cSharp (h : ∀ d ∈ p.description?, ¬cSharp.Escapes o d) :
    cSharp.Contained (cSharp.propertyDoc o e p) := by
  have hdoc : ∀ line ∈ docLines (cSharp.types o) p.description?, cSharp.LineStays line :=
    forall_docLines_iff.2 h
  refine onlyComments_summary 2 fun line hl => ?_
  rcases List.mem_append.1 hl with hl | hl
  · exact hdoc line hl
  · exact (forall_requiredNote line hl).2

theorem mem_descriptions {d : String} :
    d ∈ e.descriptions ↔ d ∈ e.description? ∨ ∃ p ∈ e.properties, d ∈ p.description? := by
  simp [Entity.descriptions]

/-- Block comments of an entity are contained exactly when no description escapes and
they are without descriptions. -/
theorem forall_contained_iff (hb : b ≠ .cSharp) : (∀ block ∈ b.docBlocks o e, b.Contained block) ↔
    (∀ d ∈ e.descriptions, ¬b.Escapes o d) ∧ ∀ block ∈ b.docBlocks o e.undescribed,
    b.Contained block := by
  -- The comments without descriptions are those of the same class and properties.
  have hu : b.docBlocks o e.undescribed = b.classDoc o e.undescribed ::
      e.properties.map fun p => b.propertyDoc o e.undescribed p.undescribed := by
    simp [docBlocks, Entity.undescribed]
  rw [hu, docBlocks, List.forall_mem_cons, List.forall_mem_cons, List.forall_mem_map,
    List.forall_mem_map, contained_classDoc_iff hb]
  constructor
  · rintro ⟨⟨hd, hc⟩, hp⟩
    refine ⟨fun d hm => ?_, hc, fun p hm => ((contained_propertyDoc_iff hb).1 (hp p hm)).2⟩
    rcases mem_descriptions.1 hm with hm | ⟨p, hp', hm⟩
    · exact hd d hm
    · exact ((contained_propertyDoc_iff hb).1 (hp p hp')).1 d hm
  · rintro ⟨hd, hc, hp⟩
    refine ⟨⟨fun d hm => hd d (mem_descriptions.2 (Or.inl hm)), hc⟩, fun p hm => ?_⟩
    exact (contained_propertyDoc_iff hb).2
      ⟨fun d hd' => hd d (mem_descriptions.2 (Or.inr ⟨p, hm, hd'⟩)), hp p hm⟩

/-- In ActionScript the comments without descriptions are contained. -/
theorem forall_contained_undescribed_actionScript :
    ∀ block ∈ actionScript.docBlocks o e.undescribed, actionScript.Contained block := by
  intro block hm
  rcases List.mem_cons.1 hm with rfl | hm
  · exact Or.inl rfl
  · obtain ⟨p, hp, rfl⟩ := List.mem_map.1 hm
    obtain ⟨q, -, rfl⟩ := List.mem_map.1 hp
    exact (closesAtEnd_blockCommentIfAny_iff 1 _).2 fun line hl => (forall_requiredNote line hl).1

/-- The comments of C# are contained when no description escapes. -/
theorem forall_contained_cSharp (h : ∀ d ∈ e.descriptions, ¬cSharp.Escapes o d) :
    ∀ block ∈ cSharp.docBlocks o e, cSharp.Contained block := by
  intro block hm
  rcases List.mem_cons.1 hm with rfl | hm
  · exact contained_classDoc_cSharp fun d hd => h d (mem_descriptions.2 (Or.inl hd))
  · obtain ⟨p, hp, rfl⟩ := List.mem_map.1 hm
    exact contained_propertyDoc_cSharp fun d hd => h d (mem_descriptions.2 (Or.inr ⟨p, hp, hd⟩))

end contained

/-! ## Plain names

A reference in a description is written as the type that it stands for. Types of names
without a slash, a star or a terminator add no end of a comment.
-/

end Backend

/-- Whether a character takes part in the end of some comment. -/
def EndsComments (c : Char) : Prop :=
  c = '*' ∨ c = '/' ∨ isTerminator c

/-- Whether no chosen name has a character that takes part in the end of some comment. -/
structure Options.Plain (o : Options) : Prop where
  /-- The namespace has none. -/
  rootNamespace : ∀ c ∈ o.rootNamespace.toList, ¬EndsComments c
  /-- The class names have none. -/
  classNames : ∀ entry ∈ o.classNames.entries, ∀ c ∈ entry.2.toList, ¬EndsComments c

namespace Options.Plain

variable {o : Options} (ho : o.Plain)
include ho

/-- A class name made of reference characters and plain settings ends no comment. -/
theorem className {name : String} (hname : ∀ c ∈ name.toList, Text.isReferencePart c) :
    ∀ c ∈ (o.className name).toList, ¬EndsComments c := by
  unfold Options.className
  cases hg : o.classNames.get? name with
  | some class_ =>
    obtain ⟨entry, hm, rfl⟩ := Option.map_eq_some_iff.1 hg
    exact ho.classNames entry (List.mem_of_find?_eq_some hm)
  | none =>
    intro c hc
    have hp : Text.isReferencePart c := hname c hc
    rintro (rfl | rfl | ht)
    · exact absurd hp (by decide)
    · exact absurd hp (by decide)
    · exact Text.not_isTerminator_of_isReferencePart hp ht

/-- So references are replaced by texts that end no comment. -/
theorem qualifies (b : Backend) : Text.Qualifies (b.types o).object fun c => ¬EndsComments c := by
  have hjoin : ∀ between : String, between.toList ≠ [] → (∀ c ∈ between.toList, ¬EndsComments c) →
      Text.Qualifies (fun name => o.rootNamespace ++ between ++ o.className name) fun c =>
      ¬EndsComments c := by
    intro between hne hb
    refine ⟨fun name => by simp [hne], fun name hname c hc => ?_⟩
    rw [String.toList_append, String.toList_append, List.mem_append, List.mem_append] at hc
    rcases hc with (hc | hc) | hc
    · exact ho.rootNamespace c hc
    · exact hb c hc
    · exact ho.className hname c hc
  cases b with
  | javaScript => exact hjoin "_objects_" (by decide) (by simp [EndsComments, isTerminator])
  | cSharp => exact hjoin ".objects." (by decide) (by simp [EndsComments, isTerminator])
  | actionScript => exact hjoin ".objects." (by decide) (by simp [EndsComments, isTerminator])

/-- With plain names, a description escapes by itself, whatever it refers to. -/
theorem escapes_iff (b : Backend) (description : String) : b.Escapes o description ↔
    match b with
    | .cSharp => Breaks description.toList
    | _ => Closes description.toList := by
  have hq := ho.qualifies b
  -- References are replaced by class names, which neither close a comment nor end a
  -- line.
  have hclose : Closes (Text.expandChars (b.types o).object description.toList) ↔
      Closes description.toList := by
    refine Text.closes_expandChars ⟨hq.ne_nil, fun name hname c hc => ?_⟩ _
    have hc' := hq.all name hname c hc
    exact ⟨fun h => hc' (Or.inl h), fun h => hc' (Or.inr (Or.inl h))⟩
  cases b with
  | javaScript => exact hclose
  | actionScript => exact hclose
  | cSharp =>
    refine or_iff_left (Text.not_exists_terminator_references ⟨hq.ne_nil,
      fun name hname c hc ht => ?_⟩ _)
    exact hq.all name hname c hc (Or.inr (Or.inr ht))

end Options.Plain

namespace Backend

/-- The files of entities that differ in nothing but descriptions are the same code
around their comments, and what a description can do to its comment is decided by its
text: its lines stay in the comment exactly when it does not escape. If none of an
entity escapes, the comments in its file end where they were meant to, as they do
without descriptions; in languages with block comments they do not if some description
escapes. -/
theorem descriptions_contained (b : Backend) (l : Layout) (o : Options) (f : Fragments)
    (e : Entity) :
    (∃ (code : List (String × String)) (ending : String), ∀ (e' : Entity) (file : SourceFile),
      e'.undescribed = e.undescribed → b.generateEntity l o f e' = .ok file →
        code.length = (b.docBlocks o e').length ∧
        file.contents = weave code ((b.docBlocks o e').map Text.unlines) ++ ending) ∧
    (∀ d, (∀ line ∈ b.commentLines o d, b.LineStays line) ↔ ¬b.Escapes o d) ∧
    ((∀ d ∈ e.descriptions, ¬b.Escapes o d) →
      (b = .javaScript → ∀ block ∈ b.docBlocks o e.undescribed, b.Contained block) →
        ∀ block ∈ b.docBlocks o e, b.Contained block) ∧
    (b ≠ .cSharp → (∀ block ∈ b.docBlocks o e, b.Contained block) →
      ∀ d ∈ e.descriptions, ¬b.Escapes o d) := by
  -- In C# the condition on the descriptions is enough; scripts also need the other
  -- lines.
  refine ⟨exists_code b l o f e, forall_commentLines_iff b o, fun hd hu => ?_, fun hb h => ?_⟩
  · cases b with
    | javaScript => exact (forall_contained_iff (by decide)).2 ⟨hd, hu rfl⟩
    | cSharp => exact forall_contained_cSharp hd
    | actionScript =>
      exact (forall_contained_iff (by decide)).2 ⟨hd, forall_contained_undescribed_actionScript⟩
  · exact ((forall_contained_iff hb).1 h).1

/-! ## Three descriptions

One with harmless stars and slashes, one that closes a block comment, and one that ends
a line of C#.
-/

/-- An object with a description and no properties. -/
def describedUser (description : String) : Entity where
  kind := .object
  name := "User"
  inNamespace? := none
  method? := none
  description? := some description
  properties := []
  required := []
  objectMap := []
  objectLists := []
  flags := {}

theorem mem_descriptions_describedUser {description d : String} :
    d ∈ (describedUser description).descriptions ↔ d = description := by
  simp [describedUser, Entity.descriptions]

theorem plain_app : Options.Plain ⟨"App", .empty⟩ where
  rootNamespace := by simp [EndsComments, isTerminator]
  classNames _ h := by cases h

/-- A description stays in its comment if its asterisks and slashes do not meet. -/
theorem contained_describedUser_team :
    ∀ block ∈ javaScript.docBlocks ⟨"App", .empty⟩ (describedUser "Wins * / losses of a #Team."),
      javaScript.Contained block := by
  refine (descriptions_contained .javaScript ⟨⟨"objects"⟩, ⟨"components"⟩, ⟨"results"⟩, none, ".js",
    none⟩ ⟨"App", .empty⟩ {} (describedUser "Wins * / losses of a #Team.")).2.2.1 ?_ ?_
  · intro d hd
    rw [mem_descriptions_describedUser.1 hd, plain_app.escapes_iff]
    simp [Closes, List.infix_cons_iff]
  · rintro - block h
    obtain rfl := List.mem_singleton.1 h
    exact Or.inl rfl

/-- Descriptions of usable entities do not all stay in their comments. -/
theorem not_contained_describedUser :
    (checkNames (describedUser "*/ alert(1); /*") = .ok () ∧
      ∀ b : Backend, b ≠ .cSharp →
        ¬∀ block ∈ b.docBlocks ⟨"App", .empty⟩ (describedUser "*/ alert(1); /*"),
          b.Contained block) ∧
    checkNames (describedUser "One.\rclass Other \x7b\x7d") = .ok () ∧
      ¬∀ block ∈ cSharp.docBlocks ⟨"App", .empty⟩ (describedUser "One.\rclass Other \x7b\x7d"),
        cSharp.Contained block := by
  -- The stars and slashes reach the block comments as they are; the carriage return
  -- reaches the summary.
  refine ⟨⟨rfl, fun b hb h => ?_⟩, rfl, fun h => ?_⟩
  · refine ((forall_contained_iff hb).1 h).1 _ (mem_descriptions_describedUser.2 rfl) ?_
    rw [plain_app.escapes_iff]
    cases b with
    | cSharp => exact absurd rfl hb
    | javaScript => exact ⟨[], " alert(1); /*".toList, by decide⟩
    | actionScript => exact ⟨[], " alert(1); /*".toList, by decide⟩
  · have hlines : docLines (CSharp.types ⟨"App", .empty⟩) (some "One.\rclass Other \x7b\x7d") =
        ["One.\rclass Other \x7b\x7d"] := by
      simp only [docLines, Option.map_some, Option.getD_some, Text.descriptionLines]
      decide +kernel
    have hdoc : OnlyComments (CSharp.summary 1 ["One.\rclass Other \x7b\x7d"]) :=
      hlines ▸ h _ List.mem_cons_self
    exact absurd (hdoc "class Other \x7b\x7d".toList (by decide +kernel)) (by decide)

end Backend

end Classwright
