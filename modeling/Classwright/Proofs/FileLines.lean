import Classwright.Proofs.Generation

/-!
# Lines of a file

A file is generated as lines with hand-written texts between them. A text that is put in
is made of whole lines (`WholeLines`), so every line of a template is a line of the file
that is made of it, whatever is put in (`Template.hasLine_of_mem`).

Hand-written texts come from outside and may end anywhere. Before one is put in, its
last line is ended, which is what keeps the lines behind it whole.
-/

namespace Classwright

/-- Whether a text consists of whole lines. -/
def WholeLines (s : String) : Prop :=
  s = "" ∨ ∃ t, s = t ++ "\n"

namespace WholeLines

theorem append {s t : String} (hs : WholeLines s) (ht : WholeLines t) : WholeLines (s ++ t) := by
  rcases ht with rfl | ⟨t, rfl⟩
  · rwa [String.append_empty]
  · exact Or.inr ⟨s ++ t, by rw [String.append_assoc]⟩

/-- Lines that are put together are whole lines. -/
theorem unlines : ∀ lines : List String, WholeLines (Text.unlines lines)
  | [] => Or.inl rfl
  | line :: lines => by
    rw [Text.unlines, List.map_cons, String.join_cons]
    exact append (Or.inr ⟨line, rfl⟩) (unlines lines)

/-- A hand-written text is ended by a line feed. -/
theorem terminated (text : String) : WholeLines (terminated text) := by
  unfold Classwright.terminated
  split
  · next h =>
    obtain ⟨cs, hcs⟩ := List.getLast?_eq_some_iff.1 (eq_of_beq h)
    exact Or.inr ⟨String.ofList cs, by
      rw [← String.ofList_toList (s := text), hcs, String.ofList_append]⟩
  · exact Or.inr ⟨text, rfl⟩

/-- So it is with its margin, and where there is no text. -/
theorem block (margin : Margin) (text? : Option String) : WholeLines (margin.block text?) := by
  have hif : ∀ b : Bool, WholeLines (if b then "\n" else "") := by
    intro b
    cases b
    · exact Or.inl rfl
    · exact Or.inr ⟨"", rfl⟩
  cases text? with
  | none => exact Or.inl rfl
  | some text => exact append (append (hif margin.before) (terminated text)) (hif margin.after)

end WholeLines

/-- Whether a file has a line. -/
def SourceFile.HasLine (file : SourceFile) (line : String) : Prop :=
  ∃ before after, file.contents = before ++ line ++ "\n" ++ after ∧ WholeLines before

/-- Lines that stand behind whole lines are lines of the file. -/
theorem SourceFile.hasLine_of_mem {file : SourceFile} {before : String} {lines : List String}
    (hf : ∃ after, file.contents = before ++ Text.unlines lines ++ after) (hb : WholeLines before)
    {line : String} (h : line ∈ lines) : file.HasLine line := by
  obtain ⟨after, hf⟩ := hf
  obtain ⟨first, rest, rfl⟩ := List.append_of_mem h
  refine ⟨before ++ Text.unlines first, Text.unlines rest ++ after, ?_, hb.append (.unlines first)⟩
  simp [hf, Text.unlines, String.join_cons, String.join_append, String.append_assoc]

namespace Template

variable {t : Template} {line : String}

/-- The lines of a template, without what is put in between. -/
def lines (t : Template) : List String :=
  t.opening ++ t.fields ++ t.constructor ++ t.members ++ t.closing

theorem opening_subset_lines (t : Template) : t.opening ⊆ t.lines := by
  intro line h
  simp [lines, h]

theorem fields_subset_lines (t : Template) : t.fields ⊆ t.lines := by
  intro line h
  simp [lines, h]

theorem members_subset_lines (t : Template) : t.members ⊆ t.lines := by
  intro line h
  simp [lines, h]

/-- The lines of a template are lines of its file, whatever is put in between. -/
theorem hasLine_of_mem (h : line ∈ t.lines) (path : Path) (hooks : Hooks) :
    SourceFile.HasLine ⟨path, t.fill hooks⟩ line := by
  -- The front of the text, up to each of the five parts, is made of whole lines.
  have hfields := (WholeLines.unlines t.opening).append (.block t.importsMargin hooks.imports?)
  have hconstructor :=
    (hfields.append (.unlines t.fields)).append (.block t.propertiesMargin hooks.properties?)
  have hmembers :=
    (hconstructor.append (.unlines t.constructor)).append
      (.block t.statementsMargin hooks.statements?)
  have hclosing :=
    (hmembers.append (.unlines t.members)).append (.block t.membersMargin hooks.members?)
  simp only [lines, List.mem_append] at h
  rcases h with (((h | h) | h) | h) | h
  · refine SourceFile.hasLine_of_mem ?_ (Or.inl rfl : WholeLines "") h
    simp only [fill, String.append_assoc, String.empty_append]
    exact ⟨_, rfl⟩
  · refine SourceFile.hasLine_of_mem ?_ hfields h
    simp only [fill, String.append_assoc]
    exact ⟨_, rfl⟩
  · refine SourceFile.hasLine_of_mem ?_ hconstructor h
    simp only [fill, String.append_assoc]
    exact ⟨_, rfl⟩
  · refine SourceFile.hasLine_of_mem ?_ hmembers h
    simp only [fill, String.append_assoc]
    exact ⟨_, rfl⟩
  · exact SourceFile.hasLine_of_mem ⟨"", String.append_empty.symm⟩ hclosing h

end Template

/-- The file of an entity has the lines of the entity's template, whatever is put in. -/
theorem Backend.hasLine_of_renderEntity {b : Backend} {l : Layout} {o : Options}
    {e : Entity} {h : Hooks}
    {t : Template} {file : SourceFile} (ht : b.template l o e = .ok t)
    (hr : b.renderEntity l o e h = .ok file) {line : String} (hl : line ∈ t.lines) :
    file.HasLine line := by
  obtain ⟨t', ht', rfl⟩ := exists_template_of_renderEntity hr
  obtain rfl : t = t' := Except.ok.inj (ht.symm.trans ht')
  exact Template.hasLine_of_mem hl _ _

end Classwright
