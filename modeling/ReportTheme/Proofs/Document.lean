import ReportTheme.Document
import ReportTheme.Proofs.Style.Unsigned

/-!
What a document keeps of its source. Sources that look alike compile to documents with the same
diagnostics that differ in signs of zero only, and whatever shows of a source can be told from the
document.
-/
namespace ReportTheme

namespace Source

theorem valueEntries_eq (s : Source) (es : Bag) :
    s.valueEntries es = Entries.mapValues s.value es := by
  induction es with
  | nil => rfl
  | cons e es ih => rw [valueEntries, ih, Entries.mapValues_cons]

section
variable {s t : Source}

mutual

/-- A compiled value depends on the source by the colors of the tokens only. -/
theorem value_congr (h : ∀ reference, s.resolve reference = t.resolve reference) :
    (v : Value) → s.value v = t.value v
  | .color c => by cases c <;> simp [value, h]
  | .list vs => by simp [value, valueItems_congr h vs]
  | .group es => by simp [value, valueEntries_congr h es]
  | .number _ | .bool _ | .text _ | .null => by simp [value]

theorem valueItems_congr (h : ∀ reference, s.resolve reference = t.resolve reference) :
    (vs : List Value) → s.valueItems vs = t.valueItems vs
  | [] => rfl
  | v :: vs => by simp [valueItems, value_congr h v, valueItems_congr h vs]

theorem valueEntries_congr (h : ∀ reference, s.resolve reference = t.resolve reference) :
    (es : List (String × Value)) → s.valueEntries es = t.valueEntries es
  | [] => rfl
  | (k, v) :: es => by simp [valueEntries, value_congr h v, valueEntries_congr h es]

end

mutual

/-- Signs of zero change no diagnostic. -/
theorem fallbacks_unsigned (h : ∀ path reference,
      s.fallbackAt path reference = t.fallbackAt path reference) :
    (path : List String) → (v : Value) → s.fallbacks path v.unsigned = t.fallbacks path v
  | path, .color c => by cases c <;> simp [Value.unsigned, Color.unsigned, fallbacks, h]
  | path, .list vs => by
    simp [Value.unsigned, fallbacks, fallbacksItems_unsigned h path 0 vs]
  | path, .group es => by
    simp [Value.unsigned, fallbacks, fallbacksEntries_unsigned h path es]
  | path, .number _ | path, .bool _ | path, .text _ | path, .null => by
    simp [Value.unsigned, fallbacks]

theorem fallbacksItems_unsigned (h : ∀ path reference,
      s.fallbackAt path reference = t.fallbackAt path reference) :
    (path : List String) → (index : Nat) → (vs : List Value) →
      s.fallbacksItems path index (Value.unsignedItems vs) = t.fallbacksItems path index vs
  | _, _, [] => rfl
  | path, index, v :: vs => by
    simp [Value.unsignedItems, fallbacksItems, fallbacks_unsigned h _ v,
      fallbacksItems_unsigned h path (index + 1) vs]

theorem fallbacksEntries_unsigned (h : ∀ path reference,
      s.fallbackAt path reference = t.fallbackAt path reference) :
    (path : List String) → (es : List (String × Value)) →
      s.fallbacksEntries path (Value.unsignedEntries es) = t.fallbacksEntries path es
  | _, [] => rfl
  | path, (k, v) :: es => by
    simp [Value.unsignedEntries, fallbacksEntries, fallbacks_unsigned h _ v,
      fallbacksEntries_unsigned h path es]

end

end

mutual

theorem value_unsigned (s : Source) : (v : Value) → s.value v.unsigned = (s.value v).unsigned
  | .color c => by cases c <;> simp [Value.unsigned, Color.unsigned, value]
  | .list vs => by simp [Value.unsigned, value, valueItems_unsigned s vs]
  | .group es => by simp [Value.unsigned, value, valueEntries_unsigned s es]
  | .number _ | .bool _ | .text _ | .null => by simp [Value.unsigned, value]

theorem valueItems_unsigned (s : Source) : (vs : List Value) →
    s.valueItems (Value.unsignedItems vs) = Value.unsignedItems (s.valueItems vs)
  | [] => rfl
  | v :: vs => by
    simp [Value.unsignedItems, valueItems, value_unsigned s v, valueItems_unsigned s vs]

theorem valueEntries_unsigned (s : Source) : (es : List (String × Value)) →
    s.valueEntries (Value.unsignedEntries es) = Value.unsignedEntries (s.valueEntries es)
  | [] => rfl
  | (k, v) :: es => by
    simp [Value.unsignedEntries, valueEntries, value_unsigned s v, valueEntries_unsigned s es]

end

mutual

/-- A compiled value shows every sign that its source has. -/
theorem eq_of_value (s t : Source) : (v w : Value) → v.unsigned = w.unsigned →
    (s.value v).toJson = (t.value w).toJson → v = w
  | .color c, w, h, hj => by
    cases w <;> simp only [Value.unsigned, reduceCtorEq, Value.color.injEq] at h
    rename_i d
    cases c <;> cases d <;> simp only [Color.unsigned, reduceCtorEq, Color.token.injEq,
      Color.hex.injEq, Color.themeData.injEq] at h
    · rw [h]
    · rw [h]
    · simp only [value, Value.toJson, Color.toJson, Json.object.injEq, List.cons.injEq,
        Prod.mk.injEq, Json.number.injEq, and_true, true_and] at hj
      rw [h.1, hj.2]
  | .number m, w, h, hj => by
    cases w <;> simp only [Value.unsigned, reduceCtorEq] at h
    simpa [value, Value.toJson] using hj
  | .bool b, w, h, _ => by
    cases w <;> simp only [Value.unsigned, reduceCtorEq, Value.bool.injEq] at h
    rw [h]
  | .text u, w, h, _ => by
    cases w <;> simp only [Value.unsigned, reduceCtorEq, Value.text.injEq] at h
    rw [h]
  | .null, w, h, _ => by
    cases w <;> simp only [Value.unsigned, reduceCtorEq] at h
    rfl
  | .list xs, w, h, hj => by
    cases w <;> simp only [Value.unsigned, reduceCtorEq, Value.list.injEq] at h
    simp only [value, Value.toJson, Json.list.injEq] at hj
    rw [eq_of_valueItems s t xs _ h hj]
  | .group a, w, h, hj => by
    cases w <;> simp only [Value.unsigned, reduceCtorEq, Value.group.injEq] at h
    simp only [value, Value.toJson, Json.object.injEq] at hj
    rw [eq_of_valueEntries s t a _ h hj]

theorem eq_of_valueItems (s t : Source) : (xs ys : List Value) →
    Value.unsignedItems xs = Value.unsignedItems ys →
    Value.toItems (s.valueItems xs) = Value.toItems (t.valueItems ys) → xs = ys
  | [], ys, h, _ => by
    cases ys with
    | nil => rfl
    | cons y ys => simp [Value.unsignedItems] at h
  | x :: xs, [], h, _ => by simp [Value.unsignedItems] at h
  | x :: xs, y :: ys, h, hj => by
    simp only [Value.unsignedItems, List.cons.injEq] at h
    simp only [valueItems, Value.toItems, List.cons.injEq] at hj
    rw [eq_of_value s t x y h.1 hj.1, eq_of_valueItems s t xs ys h.2 hj.2]

theorem eq_of_valueEntries (s t : Source) : (a b : List (String × Value)) →
    Value.unsignedEntries a = Value.unsignedEntries b →
    Value.toEntries (s.valueEntries a) = Value.toEntries (t.valueEntries b) → a = b
  | [], b, h, _ => by
    cases b with
    | nil => rfl
    | cons e b => simp [Value.unsignedEntries] at h
  | e :: a, [], h, _ => by simp [Value.unsignedEntries] at h
  | (k, v) :: a, (l, w) :: b, h, hj => by
    simp only [Value.unsignedEntries, List.cons.injEq, Prod.mk.injEq] at h
    simp only [valueEntries, Value.toEntries, List.cons.injEq, Prod.mk.injEq] at hj
    rw [h.1.1, eq_of_value s t v w h.1.2 hj.1.2, eq_of_valueEntries s t a b h.2 hj.2]

end

theorem bag_unsigned (s : Source) (b : Bag) : s.bag b.unsigned = (s.bag b).unsigned :=
  s.valueEntries_unsigned b

theorem contains_bag (s : Source) (b : Bag) (key : String) :
    Entries.contains (s.bag b) key = Entries.contains b key := by
  rw [bag, valueEntries_eq, Entries.contains, Entries.get?_mapValues, Option.isSome_map,
    Entries.contains]

theorem contains_unsigned (b : Bag) (key : String) :
    Entries.contains b.unsigned key = Entries.contains b key := by
  rw [Bag.unsigned, Value.unsignedEntries_eq, Entries.contains, Entries.get?_mapValues,
    Option.isSome_map, Entries.contains]

theorem textClass_unsigned (s : Source) (b : Bag) :
    s.textClass b.unsigned = (s.textClass b).unsigned := by
  simp only [textClass, contains_bag, contains_unsigned]
  split
  · exact s.bag_unsigned b
  · rw [bag_unsigned, Bag.unsigned, Value.unsignedEntries_eq, Bag.unsigned,
      Value.unsignedEntries_eq]
    exact Entries.insert_mapValues Value.unsigned (s.bag b) "fontFace" (.text s.fontFamily)

theorem textClass_congr {s t : Source} (h : ∀ reference, s.resolve reference = t.resolve reference)
    (hf : s.fontFamily = t.fontFamily) (b : Bag) : s.textClass b = t.textClass b := by
  rw [textClass, textClass, bag, bag, valueEntries_congr h, hf]

theorem eq_of_bag (s t : Source) {a b : Bag} (h : a.unsigned = b.unsigned)
    (hj : (s.bag a).toJson = (t.bag b).toJson) : a = b :=
  eq_of_valueEntries s t a b h (Json.object.inj hj)

theorem eq_of_textClass {s t : Source} (hf : s.fontFamily = t.fontFamily) {a b : Bag}
    (h : a.unsigned = b.unsigned) (hj : (s.textClass a).toJson = (t.textClass b).toJson) :
    a = b := by
  have hc : Entries.contains a "fontFace" = Entries.contains b "fontFace" := by
    rw [← contains_unsigned, h, contains_unsigned]
  simp only [textClass, contains_bag, hf, hc] at hj
  split at hj
  · exact eq_of_bag s t h hj
  · rename_i hfree
    simp only [Bool.or_eq_true, not_or, Bool.not_eq_true] at hfree
    have hnone : ∀ (u : Source) (c : Bag), Entries.contains c "fontFace" = false →
        Entries.get? (u.bag c) "fontFace" = none := fun u c hu => by
      rw [← contains_bag u] at hu
      exact Option.isNone_iff_eq_none.mp (by simpa [Entries.contains] using hu)
    rw [Entries.insert_of_get?_none (hnone s a (hc ▸ hfree.2)),
      Entries.insert_of_get?_none (hnone t b hfree.2), Bag.toJson, Bag.toJson, Json.object.injEq,
      Value.toEntries_eq, Value.toEntries_eq] at hj
    simp only [Entries.mapValues, List.map_append, List.map_cons, List.map_nil] at hj
    refine eq_of_bag s t h ?_
    rw [Bag.toJson, Bag.toJson, Value.toEntries_eq, Value.toEntries_eq]
    exact congrArg Json.object (List.append_cancel_right hj)

/-- What is compared of a source: all but the name, and zeros without their signs. -/
def look (s : Source) : Source :=
  { s with
    name := ""
    styles := s.styles.unsigned
    structuralColors := Bag.unsigned s.structuralColors
    textClasses := Entries.mapValues Bag.unsigned s.textClasses }

theorem look_eq_iff {s t : Source} :
    s.look = t.look ↔ s.mode = t.mode ∧ s.dataColors = t.dataColors ∧
      s.neutralColors = t.neutralColors ∧ s.fontFamily = t.fontFamily ∧
      s.styles.unsigned = t.styles.unsigned ∧
      Bag.unsigned s.structuralColors = Bag.unsigned t.structuralColors ∧
      Entries.mapValues Bag.unsigned s.textClasses =
        Entries.mapValues Bag.unsigned t.textClasses := by
  simp only [look, Source.mk.injEq, true_and]

theorem looksLike_iff (s t : Source) : s.looksLike t = true ↔ s.look = t.look := by
  simp only [looksLike, Bool.and_eq_true, beq_iff_eq, Bag.identical_iff,
    Entries.identicalBy_iff Bag.identical_iff, StyleTree.identical_iff, look_eq_iff]
  constructor
  · rintro ⟨⟨⟨⟨⟨⟨hm, hf⟩, hd⟩, hn⟩, hc⟩, ht⟩, hs⟩
    exact ⟨hm, hd, hn, hf, hs, hc, ht⟩
  · rintro ⟨hm, hd, hn, hf, hs, hc, ht⟩
    exact ⟨⟨⟨⟨⟨⟨hm, hf⟩, hd⟩, hn⟩, hc⟩, ht⟩, hs⟩

theorem freeColors_look (s : Source) :
    s.look.freeColors = Entries.mapValues Value.unsigned s.freeColors := by
  simp only [freeColors, look, Bag.unsigned, Value.unsignedEntries_eq, Entries.mapValues,
    List.filter_map]
  rfl

theorem diagnostics_look (s : Source) : s.look.diagnostics = s.diagnostics := by
  have hfall : ∀ path reference, s.look.fallbackAt path reference = s.fallbackAt path reference :=
    fun _ _ => rfl
  have hstyles : s.look.styles.bags = s.styles.bags.map fun b => (b.1, b.2.1, b.2.2.unsigned) :=
    StyleTree.bags_mapBags Bag.unsigned s.styles
  have hclasses : s.look.textClasses = Entries.mapValues Bag.unsigned s.textClasses := rfl
  rw [diagnostics, hstyles, freeColors_look, hclasses, diagnostics]
  simp only [Entries.mapValues, List.flatMap_map, Bag.unsigned, fallbacksEntries_unsigned hfall,
    fallbacks_unsigned hfall]

theorem styles_compile (s : Source) :
    s.compile.styles = (StyleTree.ofBags s.styles.bags).mapBags s.bag :=
  StyleTree.ofBags_map s.bag s.styles.bags

end Source

namespace Document

def unsigned (d : Document) : Document :=
  { d with
    structuralColors := Bag.unsigned d.structuralColors
    styles := d.styles.unsigned
    textClasses := Entries.mapValues Bag.unsigned d.textClasses }

/-- The structural colors that become keys. -/
def shownColors (d : Document) : Entries Value :=
  d.structuralColors.filter fun e => !reservedKeys.contains e.1

def classEntries (d : Document) : Entries Json :=
  if d.textClasses.isEmpty then [] else [("textClasses", bagsToJson d.textClasses)]

theorem toJson_eq (d : Document) :
    d.toJson = .object ([("name", .string d.name), ("dataColors", .ofStrings d.dataColors)] ++
      Entries.mapValues Value.toJson d.shownColors ++ [("visualStyles", d.styles.toJson)] ++
      d.classEntries) := rfl

/-- Equal records have equal parts, one after the other. -/
theorem parts_of_toJson {d e : Document} (hlen : d.shownColors.length = e.shownColors.length)
    (h : d.toJson = e.toJson) :
    Entries.mapValues Value.toJson d.shownColors = Entries.mapValues Value.toJson e.shownColors ∧
      d.styles.toJson = e.styles.toJson ∧ d.classEntries = e.classEntries := by
  rw [toJson_eq, toJson_eq, Json.object.injEq] at h
  simp only [List.cons_append, List.nil_append, List.append_assoc, List.cons.injEq] at h
  have hmapped : (Entries.mapValues Value.toJson d.shownColors).length =
      (Entries.mapValues Value.toJson e.shownColors).length := by
    simpa [Entries.mapValues] using hlen
  obtain ⟨hcolors, hrest⟩ := List.append_inj h.2.2 hmapped
  simp only [List.cons.injEq, Prod.mk.injEq, true_and] at hrest
  exact ⟨hcolors, hrest⟩

theorem classes_of_classEntries {d e : Document} (h : d.classEntries = e.classEntries) :
    Entries.mapValues Bag.toJson d.textClasses = Entries.mapValues Bag.toJson e.textClasses := by
  unfold classEntries at h
  split at h <;> split at h
  · rename_i hd he
    rw [List.isEmpty_iff.mp hd, List.isEmpty_iff.mp he]
  · simp at h
  · simp at h
  · simp only [List.cons.injEq, Prod.mk.injEq, true_and, and_true] at h
    exact Json.object.inj h

theorem shownColors_unsigned (d : Document) :
    d.unsigned.shownColors = Entries.mapValues Value.unsigned d.shownColors := by
  simp only [shownColors, unsigned, Bag.unsigned, Value.unsignedEntries_eq, Entries.mapValues,
    List.filter_map]
  rfl

theorem classEntries_unsigned (d : Document) :
    d.unsigned.classEntries = Entries.mapValues Json.unsigned d.classEntries := by
  have hempty : d.unsigned.textClasses.isEmpty = d.textClasses.isEmpty := List.isEmpty_map
  have hclasses : bagsToJson d.unsigned.textClasses = (bagsToJson d.textClasses).unsigned :=
    Bag.bagsToJson_unsigned d.textClasses
  rw [classEntries, classEntries, hempty, hclasses]
  split <;> rfl

theorem toJson_unsigned (d : Document) : d.unsigned.toJson = d.toJson.unsigned := by
  have hdata : (Json.ofStrings d.dataColors).unsigned = Json.ofStrings d.dataColors := by
    rw [Json.ofStrings, Json.unsigned, Json.unsignedItems_eq, List.map_map]
    rfl
  have hcolors : (fun v : Value => v.unsigned.toJson) = fun v => v.toJson.unsigned :=
    funext Value.toJson_unsigned
  have hstyles : d.unsigned.styles.toJson = d.styles.toJson.unsigned :=
    StyleTree.toJson_unsigned d.styles
  rw [toJson_eq, toJson_eq, Json.unsigned, Json.unsignedEntries_eq, shownColors_unsigned,
    classEntries_unsigned, hstyles, Entries.mapValues_mapValues, hcolors]
  simp only [Entries.mapValues, List.map_append, List.map_cons, List.map_nil, List.map_map, hdata]
  rfl

end Document

namespace Source

/-- The look of a source decides its document up to the name and the signs of zero. -/
theorem compile_look (s : Source) :
    s.look.compile = { s.compile.unsigned with name := "" } := by
  have hresolve : ∀ reference, s.look.resolve reference = s.resolve reference := fun _ => rfl
  have hvalue : (fun v : Value => s.look.value v.unsigned) = fun v => (s.value v).unsigned :=
    funext fun v => by rw [value_congr hresolve, value_unsigned]
  have hbag : (fun b : Bag => s.look.bag b.unsigned) = fun b => (s.bag b).unsigned :=
    funext fun b => by rw [bag, valueEntries_congr hresolve, ← bag, bag_unsigned]
  have hclass : (fun b : Bag => s.look.textClass b.unsigned) = fun b => (s.textClass b).unsigned :=
    funext fun b => by rw [textClass_congr hresolve rfl, textClass_unsigned]
  have hcolors : s.look.compile.structuralColors = s.compile.unsigned.structuralColors :=
    calc s.look.compile.structuralColors
        = Entries.mapValues s.look.value s.look.freeColors := rfl
      _ = Entries.mapValues Value.unsigned (Entries.mapValues s.value s.freeColors) := by
        rw [freeColors_look, Entries.mapValues_mapValues, hvalue, Entries.mapValues_mapValues]
      _ = s.compile.unsigned.structuralColors := (Value.unsignedEntries_eq _).symm
  have hbags : s.look.styles.bags = s.styles.bags.map fun b => (b.1, b.2.1, b.2.2.unsigned) :=
    StyleTree.bags_mapBags Bag.unsigned s.styles
  have hstyles : s.look.compile.styles = s.compile.unsigned.styles :=
    calc s.look.compile.styles
        = ((StyleTree.ofBags s.styles.bags).mapBags Bag.unsigned).mapBags s.look.bag := by
          rw [styles_compile, hbags, StyleTree.ofBags_map]
      _ = ((StyleTree.ofBags s.styles.bags).mapBags s.bag).mapBags Bag.unsigned := by
        rw [StyleTree.mapBags_mapBags, hbag, StyleTree.mapBags_mapBags]
      _ = s.compile.unsigned.styles := by rw [← styles_compile]; rfl
  have hclasses : s.look.compile.textClasses = s.compile.unsigned.textClasses :=
    calc s.look.compile.textClasses
        = Entries.mapValues s.look.textClass
            (Entries.mapValues Bag.unsigned s.textClasses) := rfl
      _ = Entries.mapValues Bag.unsigned (Entries.mapValues s.textClass s.textClasses) := by
        rw [Entries.mapValues_mapValues, hclass, Entries.mapValues_mapValues]
      _ = s.compile.unsigned.textClasses := rfl
  exact (Document.mk.injEq ..).mpr
    ⟨rfl, rfl, hcolors, hstyles, hclasses, s.diagnostics_look⟩

/-- The parts of a source that its document shows as they are written, tokens apart: the structural
colors under free keys, the styles with a bag, and the text classes. -/
def shown (s : Source) : Entries Value × StyleTree × Entries Bag :=
  (s.freeColors, .ofBags s.styles.bags, s.textClasses)

theorem shownColors_compile (s : Source) :
    s.compile.shownColors = Entries.mapValues s.value s.freeColors := by
  simp only [Document.shownColors, compile, freeColors, Entries.mapValues, List.filter_map,
    Function.comp_def, List.filter_filter, Bool.and_self]

section
variable {s t : Source}

theorem resolve_of_look (h : s.look = t.look) (reference : String) :
    s.resolve reference = t.resolve reference := by
  obtain ⟨hm, hd, hn, -⟩ := look_eq_iff.mp h
  rw [resolve, resolve, swatches, swatches, hm, hn, hd]

/-- A document of a source that looks the same, under the right name, is the document of the source
up to signs of zero. -/
theorem renamed_unsigned (h : s.look = t.look) :
    ({ s.compile with name := t.name } : Document).unsigned = t.compile.unsigned := by
  have hd := s.compile_look.symm.trans ((congrArg compile h).trans t.compile_look)
  simp only [Document.mk.injEq, true_and] at hd
  obtain ⟨hdata, hcolors, hstyles, hclasses, hdiagnostics⟩ := hd
  exact (Document.mk.injEq ..).mpr ⟨rfl, hdata, hcolors, hstyles, hclasses, hdiagnostics⟩

/-- Such a document is the one of the source if the two show the same. -/
theorem renamed_of_shown (h : s.look = t.look) (hs : s.shown = t.shown) :
    ({ s.compile with name := t.name } : Document) = t.compile := by
  simp only [shown, Prod.mk.injEq] at hs
  obtain ⟨hfree, hstyles, hclasses⟩ := hs
  obtain ⟨-, hdata, -, hfont, -⟩ := look_eq_iff.mp h
  have hresolve := resolve_of_look h
  have hvalue : s.value = t.value := funext (value_congr hresolve)
  have hbag : s.bag = t.bag := funext (valueEntries_congr hresolve)
  have hclass : s.textClass = t.textClass := funext (textClass_congr hresolve hfont)
  have hd : s.compile.diagnostics = t.compile.diagnostics :=
    s.diagnostics_look.symm.trans ((congrArg diagnostics h).trans t.diagnostics_look)
  have hcolors : s.compile.structuralColors = t.compile.structuralColors := by
    simp only [compile, hfree, hvalue]
  have htree : s.compile.styles = t.compile.styles := by
    rw [styles_compile, styles_compile, hstyles, hbag]
  have htext : s.compile.textClasses = t.compile.textClasses := by
    simp only [compile, hclasses, hclass]
  exact (Document.mk.injEq ..).mpr
    ⟨rfl, hdata, hcolors, htree, htext, hd⟩

/-- What shows of a source can be told from the text of its document. -/
theorem shown_of_toJson (h : s.look = t.look)
    (hj : ({ s.compile with name := t.name } : Document).toJson = t.compile.toJson) :
    s.shown = t.shown := by
  obtain ⟨-, -, -, hfont, hstyles, -, htexts⟩ := look_eq_iff.mp h
  have hresolve := resolve_of_look h
  have hvalue : s.value = t.value := funext (value_congr hresolve)
  have hbag : s.bag = t.bag := funext (valueEntries_congr hresolve)
  have hclass : s.textClass = t.textClass := funext (textClass_congr hresolve hfont)
  have hfree : Entries.mapValues Value.unsigned s.freeColors =
      Entries.mapValues Value.unsigned t.freeColors := by
    rw [← freeColors_look, h, freeColors_look]
  have htree : (StyleTree.ofBags s.styles.bags).unsigned =
      (StyleTree.ofBags t.styles.bags).unsigned := by
    rw [StyleTree.unsigned, ← StyleTree.ofBags_map, ← StyleTree.bags_mapBags]
    rw [StyleTree.unsigned, ← StyleTree.ofBags_map, ← StyleTree.bags_mapBags]
    exact congrArg (fun u => StyleTree.ofBags u.bags) hstyles
  have hlen : s.compile.shownColors.length = t.compile.shownColors.length := by
    have hl := congrArg List.length hfree
    simpa [shownColors_compile, Entries.mapValues] using hl
  obtain ⟨hjcolors, hjstyles, hjclasses⟩ := Document.parts_of_toJson
    (d := { s.compile with name := t.name }) hlen hj
  have hcolors : s.freeColors = t.freeColors := by
    refine Entries.eq_of_mapValues (eq_of_value t t) hfree ?_
    have hs : Entries.mapValues Value.toJson s.compile.shownColors =
        Entries.mapValues Value.toJson t.compile.shownColors := hjcolors
    rwa [shownColors_compile, shownColors_compile, Entries.mapValues_mapValues,
      Entries.mapValues_mapValues, hvalue] at hs
  have hbags : StyleTree.ofBags s.styles.bags = StyleTree.ofBags t.styles.bags := by
    have hs : s.compile.styles.toJson = t.compile.styles.toJson := hjstyles
    rw [styles_compile, styles_compile, hbag] at hs
    exact StyleTree.eq_of_mapBags (fun _ _ => eq_of_bag t t) htree hs
  have hclasses : s.textClasses = t.textClasses := by
    have hs : Entries.mapValues Bag.toJson (Entries.mapValues s.textClass s.textClasses) =
        Entries.mapValues Bag.toJson (Entries.mapValues t.textClass t.textClasses) :=
      Document.classes_of_classEntries hjclasses
    rw [Entries.mapValues_mapValues, Entries.mapValues_mapValues, hclass] at hs
    exact Entries.eq_of_mapValues (fun _ _ => eq_of_textClass rfl) htexts hs
  rw [shown, hcolors, hbags, hclasses, shown]

/-- Under the right name, the document of a source that looks the same has the text of the source
just if the two show the same. -/
theorem renamed_text_iff (h : s.look = t.look) :
    ({ s.compile with name := t.name } : Document).text false = t.compile.text false ↔
      s.shown = t.shown := by
  refine ⟨fun ht => shown_of_toJson h (Json.compact_injective ?_ ht), fun hs => ?_⟩
  · rw [← Document.toJson_unsigned, renamed_unsigned h, Document.toJson_unsigned]
  · rw [renamed_of_shown h hs]

end

end Source

end ReportTheme
