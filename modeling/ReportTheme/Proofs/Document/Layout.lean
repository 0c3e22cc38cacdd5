import Mathlib.Data.List.Nodup
import ReportTheme.Proofs.Resolution
import ReportTheme.Proofs.Style.Written

/-!
The record that a compiled document is written as. Structural colors stand between the data colors
and the styles under keys of their own: whatever their names, none takes the key of a fixed part,
and inserting one entry after the other replaces none.
-/
namespace ReportTheme

namespace Document

def firstEntries (d : Document) : Entries Json :=
  [("name", .string d.name), ("dataColors", .ofStrings d.dataColors)]

def lastEntries (d : Document) : Entries Json := ("visualStyles", d.styles.toJson) :: d.classEntries

def entries (d : Document) : Entries Json :=
  d.firstEntries ++ Entries.mapValues Value.toJson d.shownColors ++ d.lastEntries

theorem toJson_eq_entries (d : Document) : d.toJson = .object d.entries := by
  rw [toJson_eq, List.append_assoc]
  rfl

theorem mem_entries_of_first (d : Document) {e : String × Json} (h : e ∈ d.firstEntries) :
    e ∈ d.entries :=
  List.mem_append_left _ (List.mem_append_left _ h)

theorem mem_entries_of_last (d : Document) {e : String × Json} (h : e ∈ d.lastEntries) :
    e ∈ d.entries :=
  List.mem_append_right _ h

theorem mem_entries_of_classes {d : Document} (h : d.textClasses.isEmpty = false) :
    ("textClasses", bagsToJson d.textClasses) ∈ d.entries := by
  have hentry : d.classEntries = [("textClasses", bagsToJson d.textClasses)] := by
    rw [classEntries, h]
    rfl
  refine d.mem_entries_of_last ?_
  rw [lastEntries, hentry]
  exact List.mem_cons_of_mem _ (List.mem_cons_self ..)

theorem keys_lastEntries (d : Document) : Entries.keys d.lastEntries =
    "visualStyles" :: if d.textClasses.isEmpty then [] else ["textClasses"] := by
  rw [lastEntries, classEntries]
  split <;> rfl

theorem keys_entries (d : Document) : Entries.keys d.entries =
    ["name", "dataColors"] ++ Entries.keys d.shownColors ++ Entries.keys d.lastEntries := by
  rw [← Entries.keys_mapValues Value.toJson d.shownColors]
  simp only [entries, firstEntries, Entries.keys, List.map_append, List.map_cons, List.map_nil]

theorem mem_of_mem_keys_lastEntries {d : Document} {key : String}
    (h : key ∈ Entries.keys d.lastEntries) : key ∈ ["visualStyles", "textClasses"] := by
  rw [keys_lastEntries] at h
  split at h
  · exact List.mem_cons.mpr (.inl (List.mem_singleton.mp h))
  · exact h

theorem not_mem_keys_shownColors (d : Document) {key : String} (h : key ∈ reservedKeys) :
    key ∉ Entries.keys d.shownColors := by
  intro hm
  obtain ⟨e, he, rfl⟩ := List.mem_map.mp hm
  have hfree := (List.mem_filter.mp he).2
  simp [h] at hfree

/-- No key stands twice if no structural color does. -/
theorem distinct_entries {d : Document} (h : Entries.Distinct d.structuralColors) :
    Entries.Distinct d.entries := by
  rw [Entries.Distinct, keys_entries]
  refine List.Nodup.append (List.Nodup.append (by decide) ?colors ?first) ?last ?both
  case colors => exact h.sublist (List.Sublist.map Prod.fst List.filter_sublist)
  case first =>
    exact fun key hfixed => d.not_mem_keys_shownColors (List.mem_append_left _ hfixed)
  case last =>
    rw [keys_lastEntries]
    split <;> decide
  case both =>
    intro key hbefore hlast
    have hfixed := mem_of_mem_keys_lastEntries hlast
    rcases List.mem_append.mp hbefore with hfirst | hcolor
    · have hother : ∀ key ∈ ["name", "dataColors"], key ∉ ["visualStyles", "textClasses"] := by
        decide
      exact hother key hfirst hfixed
    · exact d.not_mem_keys_shownColors (List.mem_append_right ["name", "dataColors"] hfixed) hcolor

/-- Under a key that is not reserved stands the structural color of that name. -/
theorem get?_entries_of_free (d : Document) {key : String} (h : key ∉ reservedKeys) :
    Entries.get? d.entries key = (Entries.get? d.shownColors key).map Value.toJson := by
  have hfirst : Entries.get? d.firstEntries key = none :=
    Entries.get?_eq_none_iff.mpr fun hm => h (List.mem_append_left _ hm)
  have hlast : Entries.get? d.lastEntries key = none :=
    Entries.get?_eq_none_iff.mpr fun hm =>
      h (List.mem_append_right ["name", "dataColors"] (mem_of_mem_keys_lastEntries hm))
  rw [entries, Entries.get?_append, Entries.get?_append, hfirst, hlast, Option.none_or,
    Option.or_none, Entries.get?_mapValues]

end Document

namespace Source

theorem keys_shownColors_compile (s : Source) : Entries.keys s.compile.shownColors =
    (Entries.keys s.structuralColors).filter fun key => key ∉ reservedKeys := by
  rw [shownColors_compile, Entries.keys_mapValues, freeColors_eq, Entries.keys, Entries.keys,
    List.filter_map]
  rfl

theorem distinct_structuralColors_compile {s : Source} (h : Entries.Distinct s.structuralColors) :
    Entries.Distinct s.compile.structuralColors := by
  have hkeys : Entries.keys s.compile.structuralColors = Entries.keys s.freeColors :=
    Entries.keys_mapValues s.value s.freeColors
  rw [Entries.Distinct, hkeys]
  exact h.sublist (List.Sublist.map Prod.fst List.filter_sublist)

theorem get?_shownColors_compile {s : Source} (h : Entries.Distinct s.structuralColors)
    {key : String} (hfree : key ∉ reservedKeys) :
    Entries.get? s.compile.shownColors key =
      (Entries.get? s.structuralColors key).map s.value := by
  rw [shownColors_compile, Entries.get?_mapValues, freeColors_eq, Entries.get?_filter h]
  simp only [hfree, not_false_eq_true, decide_true]
  cases Entries.get? s.structuralColors key <;> rfl

/-- The structural colors of a source may have any names, each once. Its document is written as a
record of the name, the data colors, the structural colors under keys that are not reserved, the
styles, and the text classes if there are any, in this order and no key twice. Each fixed part is
found under its own key, spelled out entry by entry, and so is the compiled color of each structural
key. -/
theorem document_record {s : Source} (h : Entries.Distinct s.structuralColors) :
    ∃ es, s.compile.toJson = .object es ∧
      Entries.keys es = ["name", "dataColors"] ++
        (Entries.keys s.structuralColors).filter (fun key => key ∉ reservedKeys) ++
        "visualStyles" :: (if s.textClasses.isEmpty then [] else ["textClasses"]) ∧
      Entries.Distinct es ∧ Entries.ofList es = es ∧
      Entries.get? es "name" = some (.string s.compile.name) ∧
      Entries.get? es "dataColors" = some (.list (s.compile.dataColors.map .string)) ∧
      (∃ j, Entries.get? es "visualStyles" = some j ∧ s.compile.styles.Written j) ∧
      (s.textClasses ≠ [] →
        ∃ j, Entries.get? es "textClasses" = some j ∧ Bag.AllWritten s.compile.textClasses j) ∧
      ∀ key, key ∉ reservedKeys → ∀ v, Entries.get? s.structuralColors key = some v →
        ∃ w j, Value.Resolves s.resolve v w ∧
          Entries.get? s.compile.structuralColors key = some w ∧
          Entries.get? es key = some j ∧ w.Written j := by
  have hdistinct := Document.distinct_entries (distinct_structuralColors_compile h)
  have hclasses : s.compile.textClasses.isEmpty = s.textClasses.isEmpty := List.isEmpty_map
  -- each fixed part is an entry, and an entry is found under its key as no key stands twice
  have hfound : ∀ e ∈ s.compile.entries, Entries.get? s.compile.entries e.1 = some e.2 :=
    fun e => Entries.get?_of_mem hdistinct
  refine ⟨s.compile.entries, s.compile.toJson_eq_entries, ?keys, hdistinct,
    Entries.ofList_eq_self hdistinct, ?name, ?dataColors, ?styles, ?textClasses, ?colors⟩
  case keys =>
    rw [Document.keys_entries, keys_shownColors_compile, Document.keys_lastEntries, hclasses]
  case name => exact hfound _ (s.compile.mem_entries_of_first (List.mem_cons_self ..))
  case dataColors =>
    exact hfound _ (s.compile.mem_entries_of_first (List.mem_cons_of_mem _ (List.mem_cons_self ..)))
  case styles =>
    exact ⟨s.compile.styles.toJson,
      hfound _ (s.compile.mem_entries_of_last (List.mem_cons_self ..)),
      (StyleTree.written_iff _ _).mpr rfl⟩
  case textClasses =>
    intro hsome
    have hmem := Document.mem_entries_of_classes
      (hclasses.trans (List.isEmpty_eq_false_iff.mpr hsome))
    exact ⟨_, hfound _ hmem, (Bag.allWritten_iff _ _).mpr rfl⟩
  case colors =>
    intro key hfree v hv
    have hcompiled : Entries.get? s.compile.shownColors key = some (s.value v) := by
      rw [get?_shownColors_compile h hfree, hv, Option.map_some]
    refine ⟨s.value v, (s.value v).toJson, s.resolves_value v, ?_, ?_, Value.written_toJson _⟩
    · rw [← hcompiled, shownColors_compile]
      rfl
    · rw [Document.get?_entries_of_free _ hfree, hcompiled, Option.map_some]

/-- Structural colors named like every fixed part, one without a name and one named like a field of
the theme, beside a style with a list, a token, a number and a data color of the surface, and a text
class without a font. -/
def shadowing : Source where
  name := "Shadowing"
  mode := .light
  dataColors := ["#118DFF", "#12239E"]
  neutralColors := []
  fontFamily := "Segoe UI"
  styles := ⟨[("card", [("*", [("border", .list [.group [("show", .bool true),
      ("color", Value.solid (.ofToken .accent)), ("radius", .number (.integer 8 (by decide)))]]),
    ("title", .color (.themeData 3 (.integer 25 (by decide))))])])]⟩
  structuralColors := [("visualStyles", .null), ("good", .color (.ofToken .accent)),
    ("textClasses", .bool true), ("", .text "plain"), ("name", .text "Other"),
    ("dataColors", .list []), ("mode", .color (.token "@mode"))]
  textClasses := [("title", [("color", .color (.hex "#252423"))])]

theorem document_record_shadowing :
    Entries.Distinct shadowing.structuralColors ∧
    ∃ es, shadowing.compile.toJson = .object es ∧
      Entries.keys es =
        ["name", "dataColors", "good", "", "mode", "visualStyles", "textClasses"] ∧
      Entries.get? es "name" = some (.string "Shadowing") ∧
      Entries.get? es "dataColors" = some (.list [.string "#118DFF", .string "#12239E"]) ∧
      Entries.get? es "good" = some (.string "#118DFF") ∧
      Entries.get? es "visualStyles" = some (.object [("card", .object [("*", .object
        [("border", .list [.object [("show", .bool true),
            ("color", .object [("solid", .object [("color", .string "#118DFF")])]),
            ("radius", .number (.integer 8 (by decide)))]]),
          ("title", .object [("expr", .object [("ThemeDataColor", .object
            [("ColorId", .number (.integer 3 (by decide))),
              ("Percent", .number (.integer 25 (by decide)))])])])])])]) ∧
      Entries.get? es "textClasses" = some (.object [("title", .object
        [("color", .string "#252423"), ("fontFace", .string "Segoe UI")])]) := by
  have hd : Entries.Distinct shadowing.structuralColors := by decide
  obtain ⟨es, hes, hkeys, -, -, hname, hdata, hstyles, hclasses, hcolors⟩ := document_record hd
  obtain ⟨styles, hvisuals, hstyles⟩ := hstyles
  obtain ⟨classes, htexts, hclasses⟩ := hclasses (List.cons_ne_nil _ _)
  obtain ⟨good, color, hgood, -, hcolor, hwritten⟩ :=
    hcolors "good" (by decide) (.color (.ofToken .accent)) rfl
  rw [(StyleTree.written_iff _ _).mp hstyles] at hvisuals
  rw [(Bag.allWritten_iff _ _).mp hclasses] at htexts
  rw [(Value.written_iff _ _).mp hwritten, (shadowing.resolves_iff _ _).mp hgood] at hcolor
  exact ⟨hd, es, hes, hkeys, hname, hdata, hcolor, hvisuals, htexts⟩

end Source

end ReportTheme
