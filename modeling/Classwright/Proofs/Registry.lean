import Classwright.Proofs.Comments
import Classwright.Proofs.Links

/-!
# The lines of the index module

The modules of entities import the index, and the index imports them in turn, so it may
read a class only after all modules are there: in an import, or inside the function that
fills the tables. Every class has an underscore in its name
(`JavaScript.underscore_mem_className`), and no other line of the index has one. The
lines of the file can be told from its text, since no part of them has a line feed where
the settings and the names have none (`JavaScript.lines_of_renderIndex`). The tables are
read back from them (`JavaScript.rowsOf`): each has a row for every entry of its kind,
in order (`JavaScript.registry_reads_classes`).
-/

namespace Classwright

/-! ## Texts on one line

Lines are joined with line feeds and cut at them again. This gives the same lines back
if none of them has a line feed or ends in a carriage return.
-/

namespace Text

/-- Whether a text has no line feed. -/
def OneLine (s : String) : Prop :=
  '\n' ∉ s.toList

instance (s : String) : Decidable (OneLine s) :=
  inferInstanceAs (Decidable ('\n' ∉ s.toList))

@[simp] theorem oneLine_append {s t : String} : OneLine (s ++ t) ↔ OneLine s ∧ OneLine t := by
  simp [OneLine, String.toList_append]

/-- A literal is on one line, as line feeds in it are escaped. -/
theorem oneLine_quote (s : String) : OneLine (quote s) := by
  have hchar : ∀ c, '\n' ∉ Quoted.encodeChar c := by
    intro c
    unfold Quoted.encodeChar
    split <;> simp_all [eq_comm]
  simp [OneLine, quote, Quoted.encode, hchar]

/-- Texts on one line are so together, if what is between them is. -/
theorem oneLine_joinWith {separator : String} (hs : OneLine separator) : ∀ {texts : List String},
    (∀ s ∈ texts, OneLine s) → OneLine (joinWith separator texts)
  | [], _ => List.not_mem_nil
  | [s], h => h s List.mem_cons_self
  | s :: next :: rest, h => by
    rw [List.forall_mem_cons] at h
    rw [joinWith, oneLine_append, oneLine_append]
    · exact ⟨⟨h.1, hs⟩, oneLine_joinWith hs h.2⟩
    · simp

/-- A line ends at its line feed. -/
theorem linesAfter_append {rest : List Char} : ∀ {line before : List Char}, '\n' ∉ line →
    linesAfter before (line ++ '\n' :: rest) = finishLine (line.reverse ++ before) ::
    linesAfter [] rest
  | [], before, _ => rfl
  | c :: line, before, h => by
    rw [List.mem_cons, not_or] at h
    have hc : c ≠ '\n' := Ne.symm h.1
    rw [List.cons_append, linesAfter, linesAfter_append h.2]
    · simp
    · simpa using hc

/-- A line without a carriage return at its end is taken as it is. -/
theorem finishLine_reverse {line : List Char} (h : line.getLast? ≠ some '\r') :
    finishLine line.reverse = line := by
  rw [List.getLast?_eq_head?_reverse] at h
  unfold finishLine
  split
  · next before hb => simp [hb] at h
  · exact List.reverse_reverse line

/-- Whether a text is one line, to which a carriage return at its end would not belong. -/
def IsLine (s : String) : Prop :=
  OneLine s ∧ s.toList.getLast? ≠ some '\r'

instance (s : String) : Decidable (IsLine s) :=
  inferInstanceAs (Decidable (_ ∧ _))

/-- A line may start with any text on one line. -/
theorem IsLine.append {s t : String} (hs : OneLine s) (ht : IsLine t) (hne : t ≠ "") :
    IsLine (s ++ t) := by
  refine ⟨oneLine_append.2 ⟨hs, ht.1⟩, ?_⟩
  have hlast := List.getLast?_eq_some_getLast (mt String.toList_eq_nil_iff.1 hne)
  rw [String.toList_append, List.getLast?_append, hlast, Option.some_or, ← hlast]
  exact ht.2

/-- Lines that are written one after the other are read back. -/
theorem linesOf_unlines : ∀ {lines : List String}, (∀ line ∈ lines, IsLine line) →
    (linesOf (unlines lines).toList).map String.ofList = lines
  | [], _ => rfl
  | line :: rest, h => by
    rw [List.forall_mem_cons] at h
    have ih := linesOf_unlines h.2
    rw [linesOf, toList_unlines] at ih ⊢
    rw [List.flatMap_cons, List.append_assoc, List.singleton_append, linesAfter_append h.1.1,
      List.append_nil, finishLine_reverse h.1.2, List.map_cons, String.ofList_toList, ih]

end Text

open Text (OneLine oneLine_append)

/-! ## Paths and specifiers on one line

A specifier is made of steps up and of components of the target, and those come from the
path of a file.
-/

namespace Path

/-- Joined paths are on one line. -/
theorem oneLine_join {p q : Path} (hp : OneLine p.text) (hq : OneLine q.text) :
    OneLine (p.join q).text := by
  unfold join
  split_ifs
  · exact hq
  · exact oneLine_append.2 ⟨hp, hq⟩
  · exact oneLine_append.2 ⟨oneLine_append.2 ⟨hp, by decide⟩, hq⟩

theorem oneLine_child {p : Path} {name : String} (hp : OneLine p.text) (hn : OneLine name) :
    OneLine (p.child name).text :=
  oneLine_join hp hn

/-- A component of a piece is on one line. -/
theorem oneLine_of_laterComponent? {piece : List Char} {c : Component} (hp : '\n' ∉ piece)
    (h : laterComponent? piece = some c) : OneLine (componentText c) := by
  unfold laterComponent? at h
  split_ifs at h
  · cases h
    decide
  · cases h
    simpa [componentText, OneLine] using hp

/-- The components of a path are on one line. -/
theorem oneLine_componentText {p : Path} (hp : OneLine p.text) {c : Component}
    (h : c ∈ p.components) :
    OneLine (componentText c) := by
  obtain ⟨first, rest, hpieces⟩ := exists_pieces_eq_cons p.text.toList
  -- A line feed in a piece would be one in the text.
  have hall : ∀ piece ∈ first :: rest, '\n' ∉ piece := by
    intro piece hpiece hmem
    refine hp ?_
    rw [← joinPieces_pieces p.text.toList, mem_joinPieces (by decide), hpieces]
    exact ⟨piece, hpiece, hmem⟩
  rw [List.forall_mem_cons] at hall
  rw [components_of_pieces hpieces] at h
  rcases List.mem_append.1 h with h | h
  · have h : firstComponent? first rest = some c := Option.mem_toList.1 h
    unfold firstComponent? at h
    split_ifs at h
    · cases h
      decide
    · cases h
      decide
    · exact oneLine_of_laterComponent? hall.1 h
  · obtain ⟨piece, hpiece, h⟩ := List.mem_filterMap.1 h
    exact oneLine_of_laterComponent? (hall.2 piece hpiece) h

/-- The way to a place has no other components than the place, and ways up. -/
theorem forall_mem_way? {P : Component → Prop} (hup : P .up) : ∀ (base target : List Component)
    {moved cs : List Component}, way? moved target base = some cs → (∀ c ∈ moved, P c) →
      (∀ c ∈ target, P c) → ∀ c ∈ cs, P c
  | [], [], _, _, h, hm, _ => by
    cases h
    exact hm
  | [], _ :: _, _, _, h, hm, ht => by
    cases h
    exact List.forall_mem_append.2 ⟨hm, ht⟩
  -- What is left of the base only adds steps upwards.
  | _ :: base, [], _, _, h, hm, ht =>
    forall_mem_way? hup base [] h (List.forall_mem_append.2 ⟨hm,
      List.forall_mem_singleton.2 hup⟩) ht
  | b :: base, t :: target, moved, cs, h, hm, ht => by
    obtain ⟨hfirst, hrest⟩ := List.forall_mem_cons.1 ht
    rw [way?] at h
    split_ifs at h
    · exact forall_mem_way? hup base target h hm hrest
    · exact forall_mem_way? hup base target h
        (List.forall_mem_append.2 ⟨hm, List.forall_mem_singleton.2 hfirst⟩) hrest
    · cases h
      have hback : ∀ c ∈ Component.up :: base.map fun _ => Component.up, P c :=
        List.forall_mem_cons.2 ⟨hup, List.forall_mem_map.2 fun _ _ => hup⟩
      exact List.forall_mem_append.2 ⟨List.forall_mem_append.2 ⟨hm, hback⟩, ht⟩

/-- A path put together from components is on one line. -/
theorem oneLine_foldl_child :
    ∀ (cs : List Component) {p : Path}, (∀ c ∈ cs, OneLine (componentText c)) →
    OneLine p.text → OneLine (cs.foldl (fun p c => p.child (componentText c)) p).text
  | [], _, _, hp => hp
  | c :: cs, p, hcs, hp => by
    rw [List.forall_mem_cons] at hcs
    exact oneLine_foldl_child cs hcs.2 (oneLine_child hp hcs.1)

/-- A module specifier is on one line if the path that it leads to is. -/
theorem oneLine_specifier (source : Path) {target : Path} (h : OneLine target.text) :
    OneLine (source.specifier target) := by
  -- The way from a directory has steps upwards and components of the target.
  have hrelative : ∀ base : Path, OneLine ((target.relativeTo? base).getD target).text := by
    intro base
    unfold relativeTo?
    split_ifs
    · exact h
    · exact h
    · cases hway : way? [] target.components base.components with
      | none => exact h
      | some cs =>
        have hall : ∀ c ∈ cs, OneLine (componentText c) :=
          forall_mem_way? (by decide) _ _ hway (by simp) fun c hc => oneLine_componentText h hc
        exact oneLine_foldl_child cs hall (by decide)
  have hslash : OneLine "/" := by decide
  have hjoined := Text.oneLine_joinWith hslash
    (List.forall_mem_map.2 fun c hc =>
      oneLine_componentText (hrelative (source.parent?.getD ⟨""⟩)) hc)
  rw [specifier]
  split_ifs
  · exact hjoined
  · exact oneLine_append.2 ⟨by decide, hjoined⟩

end Path

/-! ## Names on one line

The settings and the names of the model are all that comes from outside.
-/

/-- The lines of a file. -/
def SourceFile.lines (file : SourceFile) : List String :=
  (Text.linesOf file.contents.toList).map String.ofList

namespace JavaScript

variable {l : Layout} {o : Options} {m : Model} {e : Entity} {i : Index} {path : Path}

/-- Whether no path of a layout, no name that a target chooses and no name of an entity
has a line feed. -/
structure Unbroken (l : Layout) (o : Options) (m : Model) : Prop where
  /-- The directories have none. -/
  dirs : ∀ dir ∈ l.dirs, OneLine dir.text
  /-- The suffix of files has none. -/
  fileExtension : OneLine l.fileExtension
  /-- The namespace has none. -/
  rootNamespace : OneLine o.rootNamespace
  /-- Other class names have none. -/
  classNames : ∀ entry ∈ o.classNames.entries, OneLine entry.2
  /-- Names of entities have none, nor have those of their namespaces and methods. -/
  names : ∀ e ∈ m.entities,
    OneLine e.name ∧ (∀ ns ∈ e.inNamespace?, OneLine ns) ∧ ∀ method ∈ e.method?, OneLine method

namespace Unbroken

variable (h : Unbroken l o m) (he : e ∈ m.entities)

include h he

/-- The name that the options give a class is on one line. -/
theorem oneLine_optionName : OneLine (o.className e.name) := by
  unfold Options.className SortedMap.get?
  cases hx : o.classNames.entries.find? fun entry => entry.1 == e.name with
  | none => exact (h.names e he).1
  | some entry => exact h.classNames entry (List.mem_of_find?_eq_some hx)

/-- So is the name of the class. -/
theorem oneLine_className : OneLine (className o e) := by
  obtain ⟨-, hns, hmethod⟩ := h.names e he
  have hroot := h.rootNamespace
  unfold className
  split
  · next hn hm =>
    simp only [oneLine_append]
    exact ⟨⟨⟨⟨hroot, by decide⟩, hns _ hn⟩, by decide⟩, hmethod _ hm⟩
  · next hn hm =>
    simp only [oneLine_append]
    exact ⟨⟨⟨⟨hroot, by decide⟩, hns _ hn⟩, by decide⟩, hmethod _ hm⟩
  · simp only [types, oneLine_append]
    exact ⟨⟨hroot, by decide⟩, h.oneLine_optionName he⟩

/-- So is the path of its file. -/
theorem oneLine_fileOf : OneLine (fileOf l o e).text := by
  obtain ⟨-, hns, hmethod⟩ := h.names e he
  have hsource : ∀ {dir : Path} {name : String}, OneLine dir.text → OneLine name →
      OneLine (l.sourceIn dir name).text := fun hd hn =>
    Path.oneLine_child hd (oneLine_append.2 ⟨hn, h.fileExtension⟩)
  unfold fileOf Layout.fileFor
  split
  · next hn hm =>
    exact hsource (Path.oneLine_child (h.dirs _ (by simp [Layout.dirs])) (hns _ hn)) (hmethod _ hm)
  · next hn hm =>
    exact hsource (Path.oneLine_child (h.dirs _ (by simp [Layout.dirs])) (hns _ hn)) (hmethod _ hm)
  · exact hsource (h.dirs _ (by simp [Layout.dirs])) (h.oneLine_optionName he)

end Unbroken

/-! ## The lines of the index

All other lines are fixed. What is needed of them is checked on their characters, for
all of them at once.
-/

/-- The lines inside the function that fills the tables. -/
def insideLines (o : Options) (i : Index) : List String :=
  ["\tif (tables === null) \x7b", "\t\ttables = \x7b"] ++
  tableLines o "objects" i.objects ++ tableLines o "components" i.components ++
    tableLines o "results" i.results ++
  ["\t\t\x7d;", "\t\x7d", "\treturn tables;"]

/-- The lines around the rows of the tables. -/
def tableFrame : List String := [
  "\tif (tables === null) \x7b", "\t\ttables = \x7b", "\t\t\tobjects: \x7b",
  "\t\t\tcomponents: \x7b", "\t\t\tresults: \x7b", "\t\t\t\x7d,", "\t\t\x7d;", "\t\x7d",
  "\treturn tables;"]

/-- The lines in front of the function that fills the tables. -/
def linesBefore (l : Layout) (o : Options) (path : Path) (i : Index) : List String :=
  [banner, ""] ++ i.entries.map (fun entry => (entryImport l o path entry).line) ++
    ["", "let tables = null;", ""]

/-- The lines after that function. -/
def linesBehind : List String :=
  "" :: lookupLines

/-- Whether a line has no class in it: it has no underscore, and is no row of a table. -/
structure IsFixed (line : String) : Prop where
  /-- It is one line. -/
  isLine : Text.IsLine line
  /-- It has no underscore. -/
  underscore : '_' ∉ line.toList
  /-- It is set off by less than four tabs. -/
  row : Text.startsWith "\t\t\t\t" line = false

/-- A fixed line, checked on its characters. -/
theorem isFixed_ofList {cs : List Char} (h : '\n' ∉ cs ∧ cs.getLast? ≠ some '\r' ∧ '_' ∉ cs ∧
    ['\t', '\t', '\t', '\t'].isPrefixOf cs = false) : IsFixed (String.ofList cs) := by
  have htabs : "\t\t\t\t".toList = ['\t', '\t', '\t', '\t'] := by decide
  refine ⟨⟨?_, ?_⟩, ?_, ?_⟩
  · simpa [OneLine] using h.1
  · simpa using h.2.1
  · simpa using h.2.2.1
  · simpa [Text.startsWith, htabs] using h.2.2.2

-- The lines are taken as lists of characters: to check a literal itself, its bytes
-- would have to be decoded.
theorem isFixed_start : ∀ line ∈ [banner, "", "let tables = null;"], IsFixed line := by
  simp only [List.forall_mem_cons, List.not_mem_nil, false_imp_iff, implies_true, and_true]
  and_intros <;> exact isFixed_ofList (by decide)

theorem isFixed_tableFrame : ∀ line ∈ tableFrame, IsFixed line := by
  simp only [tableFrame, List.forall_mem_cons, List.not_mem_nil, false_imp_iff,
    implies_true, and_true]
  and_intros <;> exact isFixed_ofList (by decide)

theorem isFixed_linesBehind :
    ∀ line ∈ "function registry() \x7b" :: "\x7d" :: linesBehind, IsFixed line := by
  simp only [linesBehind, lookupLines, List.forall_mem_cons, List.not_mem_nil, false_imp_iff,
    implies_true, and_true]
  and_intros <;> exact isFixed_ofList (by decide)

theorem indexLines_eq (l : Layout) (o : Options) (path : Path) (i : Index) : indexLines l o path i =
    linesBefore l o path i ++ "function registry() \x7b" ::
    (insideLines o i ++ "\x7d" :: linesBehind) := by
  simp [indexLines, linesBefore, registryLines, insideLines, linesBehind]

/-- What holds of the fixed lines and of the imports holds of the lines before the
registry. -/
theorem forall_mem_linesBefore {P : String → Prop}
    (hfixed : ∀ line ∈ [banner, "", "let tables = null;"], P line)
    (himport : ∀ entry ∈ i.entries, P (entryImport l o path entry).line) :
    ∀ line ∈ linesBefore l o path i, P line := by
  simp only [List.forall_mem_cons] at hfixed
  obtain ⟨hbanner, hblank, htables, -⟩ := hfixed
  simp only [linesBefore, List.forall_mem_append, List.forall_mem_map]
  exact ⟨⟨by simp [hbanner, hblank], himport⟩, by simp [hblank, htables]⟩

/-- What holds of the frame of a table and of its rows holds of its lines. -/
theorem forall_mem_tableLines {P : String → Prop} {name : String} {entries : List IndexEntry}
    (hopen : P ("\t\t\t" ++ name ++ ": \x7b")) (hrow : ∀ entry ∈ entries, P (entryRow o entry))
    (hclose : P "\t\t\t\x7d,") : ∀ line ∈ tableLines o name entries, P line := by
  simp only [tableLines, List.forall_mem_append, List.forall_mem_map, List.forall_mem_singleton]
  exact ⟨⟨hopen, hrow⟩, hclose⟩

/-- What holds of every line around the rows and of every row holds inside the function. -/
theorem forall_mem_insideLines {P : String → Prop} (hframe : ∀ line ∈ tableFrame, P line)
    (hrow : ∀ entry ∈ i.entries, P (entryRow o entry)) : ∀ line ∈ insideLines o i, P line := by
  -- A table is its first line, its rows and its last line.
  have htable : ∀ {name : String} {entries : List IndexEntry},
    "\t\t\t" ++ name ++ ": \x7b" ∈ tableFrame →
      entries ⊆ i.entries → ∀ line ∈ tableLines o name entries, P line := fun hname hsub =>
    forall_mem_tableLines (hframe _ hname) (fun entry he => hrow entry (hsub he))
      (hframe _ (by decide))
  simp only [insideLines, List.forall_mem_append]
  refine ⟨⟨⟨⟨fun line hl => hframe line ?_, htable (by decide) ?_⟩, htable (by decide) ?_⟩,
    htable (by decide) ?_⟩, fun line hl => hframe line ?_⟩
  · revert line
    decide
  · simp [Index.entries]
  · simp [Index.entries]
  · simp [Index.entries]
  · revert line
    decide

/-- The class of every entity has an underscore in its name. -/
theorem underscore_mem_className (o : Options) (e : Entity) : '_' ∈ (className o e).toList := by
  unfold className
  split <;> simp [types]

theorem isRow_entryRow (o : Options) (entry : IndexEntry) :
    Text.startsWith "\t\t\t\t" (entryRow o entry) := by
  simp [Text.startsWith, entryRow]

theorem startsWith_import_line (imported : Import) : Text.startsWith "import " imported.line := by
  simp [Text.startsWith, Import.line]

/-- The file of the index cut into lines: no name in it breaks one. -/
theorem lines_of_renderIndex {file : SourceFile} (h : Unbroken l o m)
    (hr : Backend.javaScript.renderIndex l o (.ofModel m) = .ok file) :
    file.lines = indexLines l o file.path (.ofModel m) := by
  cases hindex : l.indexFile? with
  | none => simp [Backend.renderIndex, hindex] at hr
  | some index =>
    rw [Backend.renderIndex_eq_ok hindex] at hr
    cases hr
    -- What is registered was collected, so its class and its file are without line
    -- feeds.
    have hentity : ∀ entry ∈ (Index.ofModel m).entries, entry.entity ∈ m.entities := fun entry he =>
      (Index.entries_sublist m).subset (List.mem_map_of_mem he)
    -- The text is cut where its lines were joined, if each of them is one line.
    refine Text.linesOf_unlines ?_
    rw [Backend.indexLines, indexLines_eq]
    have hafter := isFixed_linesBehind
    simp only [List.forall_mem_append, List.forall_mem_cons] at hafter ⊢
    refine ⟨
      forall_mem_linesBefore (fun line hl => (isFixed_start line hl).isLine) fun entry he => ?_,
      hafter.1.isLine,
      forall_mem_insideLines (fun line hl => (isFixed_tableFrame line hl).isLine)
        fun entry he => ?_,
      hafter.2.1.isLine, fun line hl => (hafter.2.2 line hl).isLine⟩
    · have hclass := h.oneLine_className (hentity entry he)
      have hspecifier := Path.oneLine_specifier index (h.oneLine_fileOf (hentity entry he))
      refine Text.IsLine.append ?_ (by decide) (by decide)
      simp only [entryImport, oneLine_append]
      exact ⟨⟨⟨by decide, hclass⟩, by decide⟩, hspecifier⟩
    · refine Text.IsLine.append ?_ (by decide) (by decide)
      simp only [oneLine_append]
      exact ⟨⟨⟨by decide, Text.oneLine_quote _⟩, by decide⟩, h.oneLine_className (hentity entry he)⟩

/-! ## Reading the tables back

A table starts at its first line and ends at the line that closes it, and neither is
found anywhere else.
-/

/-- The rows of the table with a name. -/
def rowsOf (name : String) (lines : List String) : List String :=
  ((lines.dropWhile (· != "\t\t\t" ++ name ++ ": \x7b")).drop 1).takeWhile (· != "\t\t\t\x7d,")

/-- The rows of a table are found behind its opening line. -/
theorem rowsOf_append {name : String} {before after : List String} {entries : List IndexEntry}
    (h : "\t\t\t" ++ name ++ ": \x7b" ∉ before) :
    rowsOf name (before ++ (tableLines o name entries ++ after)) = entries.map (entryRow o) := by
  -- No row ends the table.
  have hrow : ∀ row ∈ entries.map (entryRow o), (row != "\t\t\t\x7d,") = true := by
    rw [List.forall_mem_map]
    intro entry _
    rw [bne_iff_ne]
    intro heq
    have hrow := isRow_entryRow o entry
    rw [heq] at hrow
    exact absurd hrow (by decide)
  -- The table does not start before its first line.
  have hbefore : ∀ line ∈ before, (line != "\t\t\t" ++ name ++ ": \x7b") = true := by
    intro line hline
    rw [bne_iff_ne]
    rintro rfl
    exact h hline
  rw [rowsOf, tableLines, List.dropWhile_append_of_pos hbefore, List.append_assoc,
    List.append_assoc, List.singleton_append, List.dropWhile_cons_of_neg (by simp), List.drop_one,
    List.tail_cons, List.takeWhile_append_of_pos hrow, List.singleton_append,
    List.takeWhile_cons_of_neg (by simp), List.append_nil]

/-- A line that is neither fixed nor an import is not before the registry. -/
theorem notMem_linesBefore {line : String}
    (hfixed : ∀ other ∈ [banner, "", "let tables = null;"], other ≠ line)
    (himport : Text.startsWith "import " line = false) :
    line ∉ linesBefore l o path i := by
  intro hline
  refine forall_mem_linesBefore (P := (· ≠ line)) hfixed (fun entry _ heq => ?_) line hline rfl
  rw [← heq, startsWith_import_line] at himport
  cases himport

/-- A line that is neither of the frame nor a row is not in the table. -/
theorem notMem_tableLines {name line : String} {entries : List IndexEntry}
    (hopen : "\t\t\t" ++ name ++ ": \x7b" ≠ line) (hrow : Text.startsWith "\t\t\t\t" line = false)
    (hclose : "\t\t\t\x7d," ≠ line) : line ∉ tableLines o name entries := by
  intro hline
  refine forall_mem_tableLines (P := (· ≠ line)) hopen (fun entry _ heq => ?_) hclose line hline rfl
  rw [← heq, isRow_entryRow] at hrow
  cases hrow

/-- The lines between those in front of the function and the first table. -/
def tablesOpening : List String :=
  ["function registry() \x7b", "\tif (tables === null) \x7b", "\t\ttables = \x7b"]

/-- The lines of the index, cut at its three tables. -/
theorem exists_indexLines_eq (l : Layout) (o : Options) (path : Path) (i : Index) :
    ∃ after, indexLines l o path i =
    (linesBefore l o path i ++ tablesOpening) ++ (tableLines o "objects" i.objects ++
      (tableLines o "components" i.components ++ (tableLines o "results" i.results ++ after))) :=
  ⟨["\t\t\x7d;", "\t\x7d", "\treturn tables;", "\x7d"] ++ linesBehind, by
    simp [indexLines_eq, insideLines, tablesOpening]⟩

/-- The rows of each table are read back from the lines of the index. -/
theorem rowsOf_indexLines (l : Layout) (o : Options) (path : Path) (i : Index) :
    rowsOf "objects" (indexLines l o path i) = i.objects.map (entryRow o) ∧
    rowsOf "components" (indexLines l o path i) = i.components.map (entryRow o) ∧
    rowsOf "results" (indexLines l o path i) = i.results.map (entryRow o) := by
  obtain ⟨after, hlines⟩ := exists_indexLines_eq l o path i
  -- No line in front of the tables starts one of them.
  have hfront : ∀ {line : String},
      (∀ other ∈ [banner, "", "let tables = null;"] ++ tablesOpening, other ≠ line) →
      Text.startsWith "import " line = false → line ∉ linesBefore l o path i ++ tablesOpening := by
    intro line hfixed himport
    rw [List.forall_mem_append] at hfixed
    rw [List.mem_append, not_or]
    exact ⟨notMem_linesBefore hfixed.1 himport, fun hmem => hfixed.2 line hmem rfl⟩
  rw [hlines]
  refine ⟨?_, ?_, ?_⟩
  · exact rowsOf_append (hfront (by decide) (by decide))
  · rw [← List.append_assoc]
    refine rowsOf_append ?_
    rw [List.mem_append, not_or]
    exact ⟨hfront (by decide) (by decide), notMem_tableLines (by decide) (by decide) (by decide)⟩
  · rw [← List.append_assoc, ← List.append_assoc]
    refine rowsOf_append ?_
    rw [List.mem_append, not_or, List.mem_append, not_or]
    exact ⟨⟨hfront (by decide) (by decide), notMem_tableLines (by decide) (by decide) (by decide)⟩,
      notMem_tableLines (by decide) (by decide) (by decide)⟩

/-- The imports of the index are its lines that begin like one. -/
theorem filter_import_indexLines (l : Layout) (o : Options) (path : Path) (i : Index) :
    (indexLines l o path i).filter (Text.startsWith "import ") =
      i.entries.map fun entry => (entryImport l o path entry).line := by
  have hrest := startsWith_import_registrationLines o i
  have hlines : indexLines l o path i =
      [banner, ""] ++ (i.entries.map fun entry => (entryImport l o path entry).line) ++
      registrationLines o i := by
    simp [indexLines, registrationLines]
  -- The imports stay, and no line of the registration is taken for one.
  have himports :=
    List.filter_eq_self.2 (List.forall_mem_map.2 fun (entry : IndexEntry) (_ : entry ∈ i.entries) =>
    startsWith_import_line (entryImport l o path entry))
  have hnone : (registrationLines o i).filter (Text.startsWith "import ") = [] :=
    List.filter_eq_nil_iff.2 fun line hl => by simp [hrest line hl]
  rw [hlines, List.filter_append, List.filter_append, himports, hnone, List.append_nil]
  rfl

/-- The rows of a table are the lines with the margin of one. -/
theorem filter_row_tableLines {name : String} {entries : List IndexEntry}
    (hopen : Text.startsWith "\t\t\t\t" ("\t\t\t" ++ name ++ ": \x7b") = false) :
    (tableLines o name entries).filter (Text.startsWith "\t\t\t\t") = entries.map (entryRow o) := by
  have hrows :=
    List.filter_eq_self.2 (List.forall_mem_map.2 fun (entry : IndexEntry) (_ : entry ∈ entries) =>
    isRow_entryRow o entry)
  rw [tableLines, List.filter_append, List.filter_append, hrows,
    List.filter_cons_of_neg (by simp [hopen])]
  exact List.append_nil _

/-- The rows of the index are its lines that are set off by four tabs. -/
theorem filter_row_indexLines (l : Layout) (o : Options) (path : Path) (i : Index) :
    (indexLines l o path i).filter (Text.startsWith "\t\t\t\t") = i.entries.map (entryRow o) := by
  -- Before and behind the tables no line has the margin of a row.
  have hbefore : (linesBefore l o path i).filter (Text.startsWith "\t\t\t\t") = [] := by
    refine List.filter_eq_nil_iff.2 (forall_mem_linesBefore (fun line hl => ?_) fun entry _ => ?_)
    · simp [(isFixed_start line hl).row]
    · simp [Text.startsWith, Import.line]
  have hinside : (insideLines o i).filter (Text.startsWith "\t\t\t\t") =
      i.entries.map (entryRow o) := by
    rw [insideLines, List.filter_append, List.filter_append, List.filter_append, List.filter_append,
      filter_row_tableLines (by decide), filter_row_tableLines (by decide),
      filter_row_tableLines (by decide), Index.entries, List.map_append, List.map_append]
    exact List.append_nil _
  have hafter : ("\x7d" :: linesBehind).filter (Text.startsWith "\t\t\t\t") = [] :=
    List.filter_eq_nil_iff.2 fun line hl => by
      simp [(isFixed_linesBehind line (List.mem_cons_of_mem _ hl)).row]
  rw [indexLines_eq, List.filter_append, hbefore, List.nil_append,
    List.filter_cons_of_neg (by decide), List.filter_append, hinside, hafter, List.append_nil]

/-- The index reads classes in its imports and in the function that fills its tables
only. Every other line of the file, before the function, after it, or its first or last
one, has no class of the index in it, and the lines inside the function are set off by a
tab. The file has an import for every entry and a row in the table of its kind, in the
order of the index, and no others. -/
theorem registry_reads_classes {file : SourceFile} (h : Unbroken l o m)
    (hr : Backend.javaScript.renderIndex l o (.ofModel m) = .ok file) :
    (∃ before inside after,
      file.lines = before ++ "function registry() \x7b" :: (inside ++ "\x7d" :: after) ∧
      "function registry() \x7b" ∉ before ++ inside ++ after ∧ "\x7d" ∉ inside ∧
      (∀ line ∈ inside, Text.startsWith "\t" line) ∧
      ∀ line ∈ before ++ "function registry() \x7b" :: "\x7d" :: after,
        ∀ entry ∈ (Index.ofModel m).entries, (className o entry.entity).toList <:+: line.toList →
          Text.startsWith "import " line) ∧
    file.lines.filter (Text.startsWith "import ") =
      (Index.ofModel m).entries.map (fun entry => (entryImport l o file.path entry).line) ∧
    file.lines.filter (Text.startsWith "\t\t\t\t") = (Index.ofModel m).entries.map (entryRow o) ∧
    rowsOf "objects" file.lines = (Index.ofModel m).objects.map (entryRow o) ∧
    rowsOf "components" file.lines = (Index.ofModel m).components.map (entryRow o) ∧
    rowsOf "results" file.lines = (Index.ofModel m).results.map (entryRow o) := by
  obtain ⟨hobjects, hcomponents, hresults⟩ := rowsOf_indexLines l o file.path (.ofModel m)
  -- What is inside the function is indented, unlike its first and last line.
  have hinside : ∀ line ∈ insideLines o (.ofModel m), Text.startsWith "\t" line :=
    forall_mem_insideLines (by decide) fun entry _ => by simp [Text.startsWith, entryRow]
  rw [lines_of_renderIndex h hr]
  refine ⟨⟨_, _, _, indexLines_eq l o file.path (.ofModel m), ?_, ?_, hinside, ?_⟩,
    filter_import_indexLines l o _ _, filter_row_indexLines l o _ _, hobjects,
    hcomponents, hresults⟩
  · rw [List.mem_append, not_or, List.mem_append, not_or]
    exact ⟨⟨notMem_linesBefore (by decide) (by decide),
      fun hmem => absurd (hinside _ hmem) (by decide)⟩,
      by decide⟩
  · exact fun hmem => absurd (hinside _ hmem) (by decide)
  -- A class name has an underscore, and outside the function only imports have one.
  · have houtside : ∀ line ∈
        linesBefore l o file.path (.ofModel m) ++ "function registry() \x7b" :: "\x7d" ::
        linesBehind,
        '_' ∈ line.toList → Text.startsWith "import " line := by
      rw [List.forall_mem_append]
      refine ⟨forall_mem_linesBefore (fun line hl h => ?_) fun entry _ _ =>
        startsWith_import_line _,
        fun line hl h => ?_⟩
      · exact absurd h (isFixed_start line hl).underscore
      · exact absurd h (isFixed_linesBehind line hl).underscore
    intro line hline entry _ hclass
    exact houtside line hline (hclass.subset (underscore_mem_className o entry.entity))

/-- The imports and rows of an index of two objects and a method, one of the objects
with another class name. -/
theorem registry_reads_classes_scatteredDirs : ∃ file,
    Backend.javaScript.renderIndex scatteredDirs (appNaming "Team" "Squad")
      (.ofModel (.collect replyDocument true)) = .ok file ∧
    file.lines.filter (Text.startsWith "import ") =
      ["import \x7b App_objects_Reply \x7d from './objects/Reply.js';",
        "import \x7b App_objects_Squad \x7d from './objects/Squad.js';",
        "import \x7b App_components_Gateway_ping \x7d from './lib/components/Gateway/ping.js';",
        "import \x7b App_results_Gateway_ping \x7d from '../results/Gateway/ping.js';"] ∧
    rowsOf "objects" file.lines =
      ["\t\t\t\t\"reply\": App_objects_Reply,", "\t\t\t\t\"team\": App_objects_Squad,"] ∧
    rowsOf "components" file.lines = ["\t\t\t\t\"gateway.ping\": App_components_Gateway_ping,"] ∧
    rowsOf "results" file.lines = ["\t\t\t\t\"gateway.ping\": App_results_Gateway_ping,"] := by
  have h : Unbroken scatteredDirs (appNaming "Team" "Squad") (.collect replyDocument true) := by
    constructor <;> decide +kernel
  have hr := Backend.renderIndex_eq_ok (b := .javaScript) (l := scatteredDirs) (o :=
    appNaming "Team" "Squad") (i := .ofModel (.collect replyDocument true)) rfl
  obtain ⟨-, himports, -, hobjects, hcomponents, hresults⟩ := registry_reads_classes h hr
  exact ⟨_, hr, himports.trans (by decide +kernel), hobjects.trans (by decide +kernel),
    hcomponents.trans (by decide +kernel), hresults.trans (by decide +kernel)⟩

end JavaScript

end Classwright
