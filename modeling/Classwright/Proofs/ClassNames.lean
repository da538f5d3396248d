import Classwright.Proofs.Closure
import Classwright.Proofs.Keys
import Classwright.Proofs.Members
import Classwright.Proofs.Recognition

/-!
# Names of classes

A JavaScript module knows the classes that it imports by their flat names, in which
namespace and method stand side by side with an underscore between them. Objects,
components and results have different names, and so have different objects. Of two
methods the names may be the same, because an underscore may stand in a namespace and in
the name of a method as well (`Overlap`). Without such methods all classes of a document
have different names, and all imports of its index have
(`JavaScript.className_nodup_iff`).
-/

namespace Classwright

open Schema (Document MethodDef)

/-! ## Flat names

Two flat names are the same if the methods are, or if the longer of the two namespaces
starts with the shorter one, an underscore and the start of a method name.
-/

/-- Namespace and name of a method, as one name. -/
def flatName (m : String × String × MethodDef) : String :=
  m.1 ++ "_" ++ m.2.1

/-- Whether some text stands at the end of the second namespace and at the beginning of
the first name, so that the flat names of two methods are the same. -/
def Overlap (m m' : String × String × MethodDef) : Prop :=
  ∃ s, m'.1 = m.1 ++ "_" ++ s ∧ m.2.1 = s ++ "_" ++ m'.2.1

/-- A method does not share its class name with itself. -/
theorem not_overlap_self (m : String × String × MethodDef) : ¬Overlap m m := by
  rintro ⟨s, h, -⟩
  have hlength := congrArg String.length h
  simp only [String.length_append] at hlength
  have : "_".length = 1 := rfl
  omega

/-- What is between the underscores of two equal flat names overlaps, if there is
anything. -/
theorem same_or_overlap_of_toList {m m' : String × String × MethodDef} {t : List Char}
    (h : m'.1.toList = m.1.toList ++ t) (h' : '_' :: m.2.1.toList = t ++ '_' :: m'.2.1.toList) :
    (m.1, m.2.1) = (m'.1, m'.2.1) ∨ Overlap m m' := by
  cases t with
  | nil =>
    rw [List.append_nil, String.toList_inj] at h
    rw [List.nil_append, List.cons.injEq, String.toList_inj] at h'
    exact Or.inl (Prod.ext h.symm h'.2)
  | cons c t =>
    rw [List.cons_append, List.cons.injEq] at h'
    obtain ⟨rfl, h'⟩ := h'
    refine Or.inr ⟨String.ofList t, String.toList_inj.1 ?_, String.toList_inj.1 ?_⟩
    · simp [h]
    · simp [h']

/-- Two flat names are the same if the methods are, or if the methods overlap. -/
theorem flatName_eq_iff {m m' : String × String × MethodDef} :
    flatName m = flatName m' ↔ (m.1, m.2.1) = (m'.1, m'.2.1) ∨ Overlap m m' ∨ Overlap m' m := by
  have hmark : "_".toList = ['_'] := rfl
  constructor
  · intro h
    have hchars := congrArg String.toList h
    simp only [flatName, String.toList_append, hmark, List.append_assoc,
      List.singleton_append] at hchars
    -- The underscore on the right is the later one in the first case, and the earlier
    -- one in the second.
    rcases List.append_eq_append_iff.1 hchars with ⟨t, h, h'⟩ | ⟨t, h, h'⟩
    · exact (same_or_overlap_of_toList h h').imp id Or.inl
    · exact (same_or_overlap_of_toList h h').imp Eq.symm Or.inr
  · rintro (h | ⟨s, h, h'⟩ | ⟨s, h, h'⟩)
    · rw [Prod.mk.injEq] at h
      rw [flatName, flatName, h.1, h.2]
    · rw [flatName, flatName, h, h']
      simp only [String.append_assoc]
    · rw [flatName, flatName, h, h']
      simp only [String.append_assoc]

/-- Methods of a document have different flat names exactly if they do not overlap. -/
theorem nodup_map_flatName_iff {d : Document} (hd : d.KeysDistinct) :
    ((Model.methods d).map flatName).Nodup ↔
    ∀ m ∈ Model.methods d, ∀ m' ∈ Model.methods d, ¬Overlap m m' := by
  have hsame : ∀ m m', flatName m ≠ flatName m' ↔
      ¬((m.1, m.2.1) = (m'.1, m'.2.1) ∨ Overlap m m' ∨ Overlap m' m) :=
    fun m m' => not_congr flatName_eq_iff
  rw [List.Nodup, List.pairwise_map, List.Pairwise.iff hsame,
    pairwise_not_same_iff not_overlap_self]
  exact and_iff_right (Model.nodup_map_methods hd)

/-! ## Classes

The mark of the kind stands in front of the flat name and keeps the kinds apart, so the
classes of a model differ where the flat names of its methods do.
-/

/-- What stands between the root namespace and the rest of a class name. -/
def classMark : EntityKind → String
  | .object => "_objects_"
  | .component => "_components_"
  | .result => "_results_"

/-- Names of different kinds of classes are different. -/
theorem append_classMark_inj {root x y : String} {kind kind' : EntityKind}
    (h : root ++ classMark kind ++ x = root ++ classMark kind' ++ y) : kind = kind' ∧ x = y := by
  rw [String.append_assoc, String.append_assoc, String.append_right_inj] at h
  have hchars := congrArg String.toList h
  cases kind <;> cases kind' <;> simp [classMark] at hchars ⊢
  all_goals exact String.toList_inj.1 hchars

namespace JavaScript

variable {o : Options} {d : Document} {permissive : Bool}

/-- The class of a method is named by the root namespace, the mark of its kind and its
flat name. -/
theorem className_ofMethod {kind : EntityKind} (hk : kind ≠ .object)
    (m : String × String × MethodDef) (defs? : Option (OrderedMap Schema.PropertyDef)) :
    className o (Entity.ofMethod kind m.1 m.2.1 m.2.2 defs?) = o.rootNamespace ++ classMark kind ++
    flatName m := by
  cases kind with
  | object => exact absurd rfl hk
  | component | result =>
    simp only [className, Entity.ofMethod, Entity.ofProperties, classMark, flatName,
      String.append_assoc]

/-- The classes of the entities of a document, kind after kind. -/
theorem map_className_entities : (Model.collect d permissive).entities.map (className o) =
    ((Model.generated d.objects).map fun object => o.className object.1).map
        (o.rootNamespace ++ classMark .object ++ ·) ++
      ((Model.methods d).map flatName).map (o.rootNamespace ++ classMark .component ++ ·) ++
      (((Model.methods d).filter fun m => m.2.2.returns?.isSome || permissive).map flatName).map
        (o.rootNamespace ++ classMark .result ++ ·) := by
  have hcomponent : EntityKind.component ≠ .object := by decide
  have hresult : EntityKind.result ≠ .object := by decide
  simp only [Model.entities, Model.collect, List.map_append, List.map_map, Function.comp_def,
    className_ofMethod hcomponent, className_ofMethod hresult]
  rfl

/-- All classes have different names exactly if those of the objects have, and the
methods have different flat names. -/
theorem nodup_map_className_iff : ((Model.collect d permissive).entities.map (className o)).Nodup ↔
    ((Model.generated d.objects).map fun object => o.className object.1).Nodup ∧
      ((Model.methods d).map flatName).Nodup := by
  have hinjective : ∀ kind, Function.Injective (o.rootNamespace ++ classMark kind ++ ·) :=
    fun kind x y h => (append_classMark_inj h).2
  have hdisjoint : ∀ {kind kind' : EntityKind}, kind ≠ kind' → ∀ xs ys : List String,
      (xs.map (o.rootNamespace ++ classMark kind ++ ·)).Disjoint
        (ys.map (o.rootNamespace ++ classMark kind' ++ ·)) := by
    intro kind kind' hne xs ys x hx hy
    obtain ⟨x, -, rfl⟩ := List.mem_map.1 hx
    obtain ⟨y, -, h⟩ := List.mem_map.1 hy
    exact hne (append_classMark_inj h).1.symm
  rw [map_className_entities, List.nodup_append', List.nodup_append', List.disjoint_append_left,
    List.nodup_map_iff (hinjective .object), List.nodup_map_iff (hinjective .component),
    List.nodup_map_iff (hinjective .result)]
  constructor
  · rintro ⟨⟨ho, hm, -⟩, -⟩
    exact ⟨ho, hm⟩
  · rintro ⟨ho, hm⟩
    -- The results are results of some of the methods.
    refine ⟨⟨ho, hm, ?_⟩, (List.filter_sublist.map flatName).nodup hm, ?_, ?_⟩
    all_goals exact hdisjoint (by decide) _ _

/-- The names that the index imports are the class names of its entries, in their order. -/
theorem names_entryImport (l : Layout) (index : Path) (i : Index) :
    (i.entries.flatMap fun entry => (entryImport l o index entry).names) =
      (i.entries.map IndexEntry.entity).map (className o) := by
  rw [List.map_map, List.map_eq_flatMap]
  rfl

/-- In a document with distinct keys and without other names, all classes have different
names exactly if no two methods overlap. Then the index imports classes of different
names only. -/
theorem className_nodup_iff (hd : d.KeysDistinct) (ho : o.classNames.entries = []) :
    (((Model.collect d permissive).entities.map (className o)).Nodup ↔
      ∀ m ∈ Model.methods d, ∀ m' ∈ Model.methods d, ¬Overlap m m') ∧
    ((∀ m ∈ Model.methods d, ∀ m' ∈ Model.methods d, ¬Overlap m m') → ∀ l index,
      ((Index.ofModel (Model.collect d permissive)).entries.flatMap fun entry =>
        (entryImport l o index entry).names).Nodup) := by
  have hobjects : ((Model.generated d.objects).map fun object => o.className object.1).Nodup := by
    simpa [Options.className, SortedMap.get?, ho] using Model.nodup_map_fst_generated hd.objects
  have hiff : ((Model.collect d permissive).entities.map (className o)).Nodup ↔
      ∀ m ∈ Model.methods d, ∀ m' ∈ Model.methods d, ¬Overlap m m' := by
    rw [nodup_map_className_iff, nodup_map_flatName_iff hd]
    exact and_iff_right hobjects
  refine ⟨hiff, fun h l index => ?_⟩
  rw [names_entryImport]
  exact ((Index.entries_sublist _).map (className o)).nodup (hiff.2 h)

end JavaScript

/-! ## Two documents

One with many underscores and no overlap, which is read from its text, and one with an
overlap.
-/

/-- A document with two methods. -/
def twoMethods (ns method ns' method' : String) : Document where
  objects := ⟨[]⟩
  components := ⟨[(ns, ⟨⟨[(method, ⟨none, false, false, false, none, none⟩)]⟩⟩),
    (ns', ⟨⟨[(method', ⟨none, false, false, false, none, none⟩)]⟩⟩)]⟩

/-- The text of a document whose methods have underscores in their names. -/
def underscoresText : String :=
  "\x7b\"objects\":\x7b\x7d,\"components\":\x7b\"A_b\":\x7b\"methods\":" ++
    "\x7b\"c\":\x7b\x7d\x7d\x7d,\"A\":\x7b\"methods\":\x7b\"c_b\":\x7b\x7d\x7d\x7d\x7d\x7d"

/-- A namespace with one method that says nothing of itself, as a value. -/
def methodValue (method : Json.Literal) : Json.Raw :=
  .object [(.plain ['m', 'e', 't', 'h', 'o', 'd', 's'] (by decide), .object [(method, .object [])])]

/-- It is read as that document. -/
theorem ofText_underscoresText :
    Document.ofText underscoresText = .ok (twoMethods "A_b" "c" "A" "c_b") := by
  let value : Json.Raw := .object [
    (.plain ['o', 'b', 'j', 'e', 'c', 't', 's'] (by decide), .object []),
    (.plain ['c', 'o', 'm', 'p', 'o', 'n', 'e', 'n', 't', 's'] (by decide), .object [
      (.plain ['A', '_', 'b'] (by decide), methodValue (.plain ['c'] (by decide))),
      (.plain ['A'] (by decide), methodValue (.plain ['c', '_', 'b'] (by decide)))])]
  have hvalue : value.Spells underscoresText := Json.Raw.spells_of_flatten (by decide +kernel)
  exact (Schema.ofText_eq_ok_iff_of_spells hvalue).2 rfl

namespace JavaScript

/-- Underscores alone do no harm: the classes of a document that was read have different
names. -/
theorem className_nodup_twoMethods :
    Document.ofText underscoresText = .ok (twoMethods "A_b" "c" "A" "c_b") ∧
    (twoMethods "A_b" "c" "A" "c_b").KeysDistinct ∧
    ((Model.collect (twoMethods "A_b" "c" "A" "c_b") true).entities.map
      (className ⟨"App", .empty⟩)).Nodup := by
  have hd := Schema.keysDistinct_of_ofText ofText_underscoresText
  exact ⟨ofText_underscoresText, hd,
    (className_nodup_iff hd rfl).1.2 ((nodup_map_flatName_iff hd).1 (by decide))⟩

/-- A namespace and a method may share the text between two underscores, and then a name
is imported twice. -/
theorem not_className_nodup_twoMethods : (twoMethods "A_b" "c" "A" "b_c").KeysDistinct ∧
    (∀ e ∈ (Model.collect (twoMethods "A_b" "c" "A" "b_c") true).entities, checkNames e = .ok ()) ∧
    ¬((Model.collect (twoMethods "A_b" "c" "A" "b_c") true).entities.map
      (className ⟨"App", .empty⟩)).Nodup ∧
    ∀ l index,
      ¬((Index.ofModel (Model.collect (twoMethods "A_b" "c" "A" "b_c") true)).entries.flatMap
        fun entry => (entryImport l ⟨"App", .empty⟩ index entry).names).Nodup := by
  refine ⟨⟨by decide, by decide, by decide⟩, by decide, by decide, fun l index => ?_⟩
  rw [names_entryImport]
  decide

end JavaScript

end Classwright
