import Classwright.Proofs.Decoding

/-!
# Reports of values of the wrong kind

The code that decodes a property reports values of the wrong kind. Only where any value
is right does it report nothing (`Script.reports_cast_eq_nil_iff`,
`Conversion.reports_convert_eq_nil_iff`); elsewhere it reports something for every level
that it decodes and that may hold a list. So the code of a property has reports in the
languages where its values are checked, and these are all languages or none
(`Backend.reports_ne_nil_iff_isChecked`).
-/

namespace Classwright

/-- Whether any value is right for a shape. -/
def Shape.IsFree (s : Shape) : Prop :=
  s = .single (.primitive .mixed) ∨ s = .single .unknown

instance (s : Shape) : Decidable s.IsFree :=
  inferInstanceAs (Decidable (s = .single (.primitive .mixed) ∨ s = .single .unknown))

theorem Shape.IsFree.listLevels {s : Shape} (h : s.IsFree) : s.listLevels = 0 := by
  obtain rfl | rfl := h <;> rfl

theorem Property.isChecked_iff {p : Property} : p.isChecked ↔ ¬p.shape.IsFree := by
  simp [isChecked, Shape.IsFree]

/-! ## Setters

A report stands for every test that can fail. There is one unless any value is right, by
induction on the shape.
-/

namespace Script

/-- What a statement reports. -/
def Statement.report? : Statement → Option Report
  | .report r => some r
  | .check _ r => some r
  | .elseCheck _ r => some r
  | .elseReport r => some r
  | _ => none

/-- The reports in lines. -/
def reports (ls : List Line) : List Report :=
  ls.filterMap fun line => line.statement.report?

/-- A statement that reports ends with the report. -/
theorem Statement.code_of_report? (d : Dialect) {s : Statement} {r : Report}
    (h : s.report? = some r) :
    ∃ before, s.code d = before ++ r.code d := by
  cases s <;> cases h
  · exact ⟨"", String.empty_append.symm⟩
  · exact ⟨_, rfl⟩
  · exact ⟨_, rfl⟩
  · exact ⟨_, rfl⟩

/-- Every report is the end of a line. -/
theorem exists_of_mem_reports (d : Dialect) {ls : List Line} {r : Report} (h : r ∈ reports ls) :
    ∃ text ∈ codeLines d ls, ∃ before, text = before ++ r.code d := by
  obtain ⟨line, hline, hr⟩ := List.mem_filterMap.1 h
  obtain ⟨before, hcode⟩ := Statement.code_of_report? d hr
  refine ⟨_, List.mem_map_of_mem hline, Text.copies line.depth "\t" ++ before, ?_⟩
  rw [Line.code, hcode, String.append_assoc]

@[simp] theorem reports_nil : reports [] = [] :=
  rfl

@[simp] theorem reports_cons (line : Line) (ls : List Line) :
    reports (line :: ls) = line.statement.report?.toList ++ reports ls := by
  cases h : line.statement.report? <;> simp [reports, h]

@[simp] theorem reports_append (ls ms : List Line) :
    reports (ls ++ ms) = reports ls ++ reports ms :=
  List.filterMap_append

variable (c : Caster)

/-- Checking a single value reports nothing exactly if any value will do. -/
theorem reports_castAtom_eq_nil_iff (atom : Atom) (value target label : String) (indent : Nat) :
    reports (c.castAtom atom value target label indent) = [] ↔ (Shape.single atom).IsFree := by
  cases atom with
  | primitive p => cases p <;> simp [Caster.castAtom, Statement.report?, Shape.IsFree]
  | object name => simp [Caster.castAtom, Statement.report?, Shape.IsFree]
  | result => simp [Caster.castAtom, Statement.report?, Shape.IsFree]
  | unknown => simp [Caster.castAtom, Statement.report?, Shape.IsFree]

@[simp] theorem reports_castList (value target label : String) (indent depth : Nat)
    (inner : List Line) :
    reports (Caster.castList value target label indent depth inner) =
      .expects label "an array" value :: reports inner := by
  simp [Caster.castList, Statement.report?]

/-- The checks of a shape report nothing exactly if any value is right. -/
theorem reports_cast_eq_nil_iff (shape : Shape) (value target label : String) (indent depth : Nat) :
    reports (c.cast shape value target label indent depth) = [] ↔ shape.IsFree := by
  cases shape with
  | single atom => exact reports_castAtom_eq_nil_iff c atom ..
  | list element => simp [Caster.cast, Shape.IsFree]
  | either atom element => simp [Caster.cast, Statement.report?, Shape.IsFree]

/-- The checks of a shape report something for every level that may hold a list. -/
theorem listLevels_le_reports_cast :
    ∀ (shape : Shape) (value target label : String) (indent depth : Nat),
    shape.listLevels ≤ (reports (c.cast shape value target label indent depth)).length
  | .single _, _, _, _, _, _ => Nat.zero_le _
  | .list element, _, _, _, _, _ => by
    rw [Caster.cast, reports_castList, List.length_cons, Shape.listLevels]
    exact Nat.succ_le_succ (listLevels_le_reports_cast element ..)
  | .either _ element, _, _, label, indent, depth => by
    have ih := listLevels_le_reports_cast element (numbered "val" depth) (numbered "item" depth)
      (label ++ "[]") (indent + 3) (depth + 1)
    simp only [Caster.cast, reports_append, reports_castList, List.length_append, List.length_cons,
      Shape.listLevels]
    omega

/-- The lines of the setters among accessors. -/
def setterLines (ms : List Member) : List Line :=
  ms.flatMap fun m =>
    match m.kind with
    | .getter _ => []
    | .setter => m.body

@[simp] theorem reports_missingGuard (name : String) (clear : List Statement) :
    reports (missingGuard name clear) = reports (clear.map (⟨3, ·⟩)) := by
  simp [missingGuard, Statement.report?]

variable (slots : Slots) (label : String)

/-- A setter reports what the check of its shape does. -/
theorem reports_plainSetter (p : Property) : reports (plainSetter c slots p label) =
    if p.isChecked then reports (c.cast p.shape (parameter p.name) slots.value label 2 0)
      else [] := by
  unfold plainSetter
  split <;> simp [Statement.report?]

theorem reports_singleSetter (name : String) (atom : Atom) :
    reports (singleSetter c slots name atom label) =
    reports (c.cast (.single atom) (parameter name) slots.value label 2 0) := by
  simp [singleSetter, Slots.clear, Statement.report?]

theorem reports_listSetter (name : String) (element : Shape) :
    reports (listSetter c slots name element label) =
    reports (c.cast (.list element) (parameter (listName name)) slots.list label 2 0) := by
  simp [listSetter, Slots.clear, Statement.report?]

/-- The setters of a property report nothing exactly if any value is right. -/
theorem reports_setterLines_eq_nil_iff (d : Dialect) (docs : MemberDocs) (entity : String)
    (p : Property) :
    reports (setterLines (membersOf d c docs entity p)) = [] ↔ p.shape.IsFree := by
  have hplain : ∀ slots label, reports (plainSetter c slots p label) = [] ↔ p.shape.IsFree := by
    intro slots label
    rw [reports_plainSetter, ite_eq_right_iff, Property.isChecked_iff, reports_cast_eq_nil_iff]
    exact Decidable.not_imp_self
  unfold membersOf
  cases hs : p.shape with
  | single atom => simpa [setterLines, hs] using hplain ..
  | list element => simpa [setterLines, hs] using hplain ..
  | either atom element =>
    simp [setterLines, reports_listSetter, reports_cast_eq_nil_iff, Shape.IsFree]

/-- The setters of a property report something for every level that may hold a list. -/
theorem listLevels_le_reports_setterLines (d : Dialect) (docs : MemberDocs) (entity : String)
    (p : Property) :
    p.shape.listLevels ≤ (reports (setterLines (membersOf d c docs entity p))).length := by
  -- A property with one form is checked for each level, or is free and has none.
  have hplain : ∀ slots label,
      p.shape.listLevels ≤ (reports (plainSetter c slots p label)).length := by
    intro slots label
    rw [reports_plainSetter]
    split
    · exact listLevels_le_reports_cast c p.shape ..
    · next h =>
      rw [Property.isChecked_iff, Decidable.not_not] at h
      exact h.listLevels ▸ Nat.zero_le _
  unfold membersOf
  cases hs : p.shape with
  | single atom => exact Nat.zero_le _
  | list element => simpa [setterLines, hs] using hplain ..
  | either atom element =>
    -- Of the two setters the one for the list checks every level.
    have hlist := listLevels_le_reports_cast c (.list element) (parameter (listName p.name))
      (slotsOf d p.name).list (entity ++ "." ++ p.name) 2 0
    refine Nat.le_trans hlist ?_
    simp [setterLines, reports_singleSetter, reports_listSetter]

end Script

/-! ## Conversions

The same for C#, of whose choices below the first level the single form is decoded.
-/

namespace Conversion

/-- What a statement reports. -/
def Statement.report? : Statement → Option Report
  | .report r => some r
  | .reportUnless _ r => some r
  | _ => none

/-- The reports in lines. -/
def reports (ls : List Line) : List Report :=
  ls.filterMap fun line => line.statement.report?

/-- A statement that reports ends with the report. -/
theorem Statement.code_of_report? {s : Statement} {r : Report} (h : s.report? = some r) :
    ∃ before, s.code = before ++ r.code := by
  cases s <;> cases h
  · exact ⟨"", String.empty_append.symm⟩
  · exact ⟨_, rfl⟩

/-- Every report is the end of a line. -/
theorem exists_of_mem_reports {ls : List Line} {r : Report} (h : r ∈ reports ls) :
    ∃ text ∈ ls.map Line.code, ∃ before, text = before ++ r.code := by
  obtain ⟨line, hline, hr⟩ := List.mem_filterMap.1 h
  obtain ⟨before, hcode⟩ := Statement.code_of_report? hr
  refine ⟨_, List.mem_map_of_mem hline, Text.copies line.depth "\t" ++ before, ?_⟩
  rw [Line.code, hcode, String.append_assoc]

@[simp] theorem reports_nil : reports [] = [] :=
  rfl

@[simp] theorem reports_cons (line : Line) (ls : List Line) :
    reports (line :: ls) = line.statement.report?.toList ++ reports ls := by
  cases h : line.statement.report? <;> simp [reports, h]

@[simp] theorem reports_append (ls ms : List Line) :
    reports (ls ++ ms) = reports ls ++ reports ms :=
  List.filterMap_append

@[simp] theorem reports_braced (indent : Nat) (inner : List Line) :
    reports (braced indent inner) = reports inner := by
  simp [braced, Statement.report?]

@[simp] theorem reports_refuse (value target label expected : String) (indent : Nat) :
    reports (refuse value target label expected indent) = [⟨label, expected, value⟩] := by
  simp [refuse, Statement.report?]

variable (c : Converter)

/-- Converting a single value reports nothing exactly if any value will do. -/
theorem reports_convertAtom_eq_nil_iff (atom : Atom) (value target label : String)
    (indent depth : Nat) :
    reports (c.convertAtom atom value target label indent depth) = [] ↔
    (Shape.single atom).IsFree := by
  cases atom with
  | primitive p =>
    cases p <;> simp [Converter.convertAtom, convertCast, Statement.report?, Shape.IsFree]
  | object name => simp [Converter.convertAtom, Statement.report?, Shape.IsFree]
  | result => simp [Converter.convertAtom, Statement.report?, Shape.IsFree]
  | unknown => simp [Converter.convertAtom, Statement.report?, Shape.IsFree]

@[simp] theorem reports_convertListWith (element : Shape) (value target label : String)
    (indent depth : Nat) (inner : List Line) :
    reports (c.convertListWith element value target label indent depth inner) =
      reports inner ++ [⟨label, "a list", value⟩] := by
  simp [Converter.convertListWith, Statement.report?]

/-- The conversion to a shape reports nothing exactly if any value is right when the
shape is narrowed. -/
theorem reports_convert_eq_nil_iff (shape : Shape) (value target label : String)
    (indent depth : Nat) :
    reports (c.convert shape value target label indent depth) = [] ↔ shape.narrowed.IsFree := by
  cases shape with
  | single atom => exact reports_convertAtom_eq_nil_iff c atom ..
  | list element => simp [Converter.convert, Shape.narrowed, Shape.IsFree]
  | either atom element => exact reports_convertAtom_eq_nil_iff c atom ..

/-- The conversion to a shape reports something for every level that is left when the
shape is narrowed. -/
theorem listLevels_le_reports_convert :
    ∀ (shape : Shape) (value target label : String) (indent depth : Nat),
    shape.narrowed.listLevels ≤ (reports (c.convert shape value target label indent depth)).length
  | .single _, _, _, _, _, _ => Nat.zero_le _
  | .list element, _, _, _, _, _ => by
    rw [Converter.convert, reports_convertListWith, List.length_append, Shape.narrowed,
      Shape.listLevels]
    exact Nat.succ_le_succ (listLevels_le_reports_convert element ..)
  | .either _ _, _, _, _, _, _ => Nat.zero_le _

end Conversion

namespace CSharp

open Conversion (reports)

@[simp] theorem reports_nullCase (statements : List Conversion.Statement) :
    reports (nullCase statements) = reports (statements.map (⟨6, ·⟩)) := by
  simp [nullCase, Conversion.Statement.report?]

variable (o : Options) (entity : String) (p : Property)

/-- The case of a property reports nothing exactly if any value is right. -/
theorem reports_caseBody_eq_nil_iff : reports (caseBody o entity p) = [] ↔ p.shape.IsFree := by
  unfold caseBody
  -- Lists are always checked, and single values only if they can be wrong.
  cases hs : p.shape with
  | single atom =>
    by_cases hc : p.isChecked
    · simp [hc, Conversion.Statement.report?, Conversion.reports_convert_eq_nil_iff, Shape.narrowed]
    · have hfree : p.shape.IsFree := Decidable.not_not.1 fun h => hc (Property.isChecked_iff.2 h)
      simp [hc, Conversion.Statement.report?, ← hs, hfree]
  | list element =>
    have hc : p.isChecked = true := by simp [Property.isChecked, hs]
    simp [hc, Conversion.Statement.report?, Conversion.Converter.convert, Shape.IsFree]
  | either atom element =>
    simp [Conversion.Converter.convertList, Conversion.Converter.convert,
      Conversion.Statement.report?, Shape.IsFree]

/-- The case of a property reports something for every level that is converted and may
hold a list. -/
theorem listLevels_le_reports_caseBody :
    p.shape.converted.listLevels ≤ (reports (caseBody o entity p)).length := by
  have hconvert := Conversion.listLevels_le_reports_convert (converter o)
  unfold caseBody
  -- Only a list has levels, be it the one form or one of two.
  cases hs : p.shape with
  | single atom => exact Nat.zero_le _
  | list element =>
    have hc : p.isChecked = true := by simp [Property.isChecked, hs]
    have hlist := hconvert (.list element) "value" (slotName p.name) (entity ++ "." ++ p.name) 5 0
    refine Nat.le_trans hlist ?_
    simp [hc, Conversion.Statement.report?]
  | either atom element =>
    have hlist :=
      hconvert (.list element) "value" (slotName (listName p.name)) (entity ++ "." ++ p.name) 6 0
    refine Nat.le_trans hlist ?_
    simp [Conversion.Converter.convertList, Conversion.Statement.report?]

end CSharp

/-! ## All languages

Reports are compared as they stand in the lines of a file.
-/

namespace Backend

/-- The lines that decode a property: those of its setters, or of its case of
`SetProperty`. -/
def decodingLines (b : Backend) (o : Options) (e : Entity) (p : Property) : List String :=
  match b with
  | .javaScript => Script.codeLines .javaScript (Script.setterLines (JavaScript.members o e p))
  | .cSharp => (CSharp.caseBody o e.name p).map Conversion.Line.code
  | .actionScript =>
    Script.codeLines .actionScript (Script.setterLines (ActionScript.members o e p))

/-- The texts of the reports in these lines. -/
def reports (b : Backend) (o : Options) (e : Entity) (p : Property) : List String :=
  match b with
  | .javaScript =>
    (Script.reports (Script.setterLines (JavaScript.members o e p))).map (·.code .javaScript)
  | .cSharp => (Conversion.reports (CSharp.caseBody o e.name p)).map Conversion.Report.code
  | .actionScript =>
    (Script.reports (Script.setterLines (ActionScript.members o e p))).map (·.code .actionScript)

/-- What a report starts with. -/
def reportStart : Backend → String
  | .javaScript => "console.warn("
  | .cSharp => "TypeMismatch("
  | .actionScript => "throw new Error("

/-- A report starts in the way of its language, and is the end of a line that decodes
the property. -/
theorem exists_of_mem_reports {b : Backend} {o : Options} {e : Entity} {p : Property}
    {report : String} (h : report ∈ b.reports o e p) : (∃ after, report = b.reportStart ++ after) ∧
      ∃ line ∈ b.decodingLines o e p, ∃ before, line = before ++ report := by
  -- The code of a report has a fixed start, and is the end of a line.
  cases b with
  | javaScript =>
    obtain ⟨r, hr, rfl⟩ := List.mem_map.1 h
    refine ⟨⟨r.messageCode ++ ");", ?_⟩, Script.exists_of_mem_reports _ hr⟩
    unfold Script.Report.code
    simp only [reportStart, String.append_assoc]
  | cSharp =>
    obtain ⟨r, hr, rfl⟩ := List.mem_map.1 h
    refine ⟨⟨Text.quote r.label ++ ", " ++ Text.quote r.expected ++ ", " ++ r.value ++ ");", ?_⟩,
      Conversion.exists_of_mem_reports hr⟩
    unfold Conversion.Report.code
    simp only [reportStart, String.append_assoc]
  | actionScript =>
    obtain ⟨r, hr, rfl⟩ := List.mem_map.1 h
    refine ⟨⟨r.messageCode ++ ");", ?_⟩, Script.exists_of_mem_reports _ hr⟩
    unfold Script.Report.code
    simp only [reportStart, String.append_assoc]

/-- In every language, the code that decodes a property has reports exactly if its
values are checked, and these are not checked only for the shapes of which any value is
right. Then there is a report for every level that is decoded and may hold a list. -/
theorem reports_ne_nil_iff_isChecked (b : Backend) (o : Options) (e : Entity) (p : Property) :
    (b.reports o e p ≠ [] ↔ p.isChecked) ∧
    (p.isChecked ↔ p.shape ≠ .single (.primitive .mixed) ∧ p.shape ≠ .single .unknown) ∧
    (b.decoded p.shape).listLevels ≤ (b.reports o e p).length ∧
    ∀ report ∈ b.reports o e p, (∃ after, report = b.reportStart ++ after) ∧
      ∃ line ∈ b.decodingLines o e p, ∃ before, line = before ++ report := by
  -- The two scripts report alike, and C# in the case of the property.
  have hnil : b.reports o e p = [] ↔ p.shape.IsFree := by
    cases b with
    | javaScript => exact List.map_eq_nil_iff.trans (Script.reports_setterLines_eq_nil_iff ..)
    | cSharp => exact List.map_eq_nil_iff.trans (CSharp.reports_caseBody_eq_nil_iff ..)
    | actionScript => exact List.map_eq_nil_iff.trans (Script.reports_setterLines_eq_nil_iff ..)
  have hlevels : (b.decoded p.shape).listLevels ≤ (b.reports o e p).length := by
    cases b with
    | javaScript =>
      rw [reports, List.length_map]
      exact Script.listLevels_le_reports_setterLines ..
    | cSharp =>
      rw [reports, List.length_map]
      exact CSharp.listLevels_le_reports_caseBody ..
    | actionScript =>
      rw [reports, List.length_map]
      exact Script.listLevels_le_reports_setterLines ..
  refine ⟨?_, ?_, hlevels, fun _ => exists_of_mem_reports⟩
  · rw [Property.isChecked_iff, Ne, hnil]
  · rw [Property.isChecked_iff, Shape.IsFree, not_or]

end Backend

end Classwright
