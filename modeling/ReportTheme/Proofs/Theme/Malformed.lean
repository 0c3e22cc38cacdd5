import ReportTheme.Proofs.Json.Record
import ReportTheme.Proofs.Theme

/-!
Theme records with malformed styles or text classes. Whatever stands in the place of these two
fields, the record can be read, and no other field changes with them.
-/
namespace ReportTheme.Theme

section
variable {es : Entries Json} {t : Theme} {x y : Json}

theorem decode_insert_styles (h : decode (.ofJson (.object es)) = .ok t) (hx : x.keyed = true) :
    decode (.ofJson (.object (Entries.insert es "visualStyles" x))) =
      .ok { t with styles := .ofJson x } := by
  have hfield : shape.field? "visualStyles" = some (.mkOptional "visualStyles" Decoder.json
    fun j t => { t with styles := .ofJson j }) := rfl
  refine RecordShape.decode_insert (by decide) hfield ?_ (fun _ _ => rfl)
    (Decoder.ofJson_json hx) h
  simp only [shape, List.forall_mem_cons]
  refine ⟨?id, ?name, ?mode, ?colorPaletteId, ?neutralPaletteId, ?fontFamily, ?styles,
    ?structuralColors, ?textClasses, ?selection, by simp⟩
  case styles => exact fun hname => absurd rfl hname
  all_goals exact fun _ => Field.spares_mkOptional fun _ _ => rfl

theorem decode_insert_textClasses (h : decode (.ofJson (.object es)) = .ok t)
    (hy : y.keyed = true) :
    decode (.ofJson (.object (Entries.insert es "textClasses" y))) =
      .ok { t with textClasses := bagsOfJson y } := by
  have hfield : shape.field? "textClasses" = some (.mkOptional "textClasses" Decoder.json
    fun j t => { t with textClasses := bagsOfJson j }) := rfl
  refine RecordShape.decode_insert (by decide) hfield ?_ (fun _ _ => rfl)
    (Decoder.ofJson_json hy) h
  simp only [shape, List.forall_mem_cons]
  refine ⟨?id, ?name, ?mode, ?colorPaletteId, ?neutralPaletteId, ?fontFamily, ?styles,
    ?structuralColors, ?textClasses, ?selection, by simp⟩
  case textClasses => exact fun hname => absurd rfl hname
  all_goals exact fun _ => Field.spares_mkOptional fun _ _ => rfl

/-- Any two values, in which no key stands twice, in the place of the styles and the text classes of
a record that can be read. The record is read, its other fields as before. Of the styles what is an
object in an object in an object is kept, of the text classes what is an object in an object, both
in order; a visual type is kept if one of its variants is. -/
theorem malformed_dropped (ht : ofJson? (.object es) = some t) (hx : x.keyed = true)
    (hy : y.keyed = true) :
    ∃ styles textClasses,
      ofJson? (.object (Entries.insert (Entries.insert es "visualStyles" x) "textClasses" y)) =
        some { t with styles, textClasses } ∧
      (∀ visual variant bag, styles.bag? visual variant = some bag ↔
        ∃ entries, (x.get? visual).bind (·.get? variant) = some (.object entries) ∧
          bag = Entries.mapValues Value.ofJson entries) ∧
      styles.visualTypes = Entries.keys (x.members.filter fun v => !v.2.objects.isEmpty) ∧
      (∀ v ∈ styles.visuals, ∃ variants,
        x.get? v.1 = some variants ∧ Entries.keys v.2 = Entries.keys variants.objects) ∧
      textClasses = Entries.mapValues (Entries.mapValues Value.ofJson) y.objects := by
  have hstyles := decode_insert_styles (ofJson?_eq_some_iff.mp ht) hx
  have hclasses := decode_insert_textClasses hstyles hy
  refine ⟨.ofJson x, bagsOfJson y, ofJson?_eq_some_iff.mpr hclasses, fun visual variant bag => ?_,
    StyleTree.visualTypes_ofJson x, fun v hv => StyleTree.variants_ofJson hx hv, bagsOfJson_eq y⟩
  rw [StyleTree.bag?_ofJson hx, Option.map_eq_some_iff]
  constructor
  · rintro ⟨entries, hentries, rfl⟩
    obtain ⟨j, hj, hobject⟩ := Option.bind_eq_some_iff.mp hentries
    exact ⟨entries, by rw [hj, Json.entries?_eq_some_iff.mp hobject], rfl⟩
  · rintro ⟨entries, hentries, rfl⟩
    exact ⟨entries, by rw [hentries]; rfl, rfl⟩

end

/-- A record with a key that is no field, and without text classes. -/
def record : Entries Json :=
  [("version", .bool true), ("name", .string "Draft"), ("visualStyles", .null),
    ("quickCustomizations", .object [("borderRadius", .string "large")])]

/-- One malformed visual type, one with a malformed variant only, and one with a variant of each
kind. -/
def wornStyles : Json :=
  .object [("lineChart", .string "nope"), ("gauge", .object [("*", .bool true)]),
    ("card", .object [("compact", .list []), ("*", .object [("show", .bool true)])])]

def wornClasses : Json := .object [("title", .null), ("label", .object [("color", .string "#FFF")])]

theorem malformed_dropped_record :
    ∃ t, ofJson? (.object record) = some t ∧ wornStyles.keyed = true ∧ wornClasses.keyed = true ∧
    ∃ styles textClasses,
      ofJson? (.object (Entries.insert (Entries.insert record "visualStyles" wornStyles)
        "textClasses" wornClasses)) = some { t with styles, textClasses } ∧
      styles.bag? "card" "*" = some [("show", .bool true)] ∧ styles.visualTypes = ["card"] ∧
      textClasses = [("label", [("color", .color (.hex "#FFF"))])] := by
  have hread : ∃ t, ofJson? (.object record) = some t := ⟨_, rfl⟩
  obtain ⟨t, ht⟩ := hread
  have hstyles : wornStyles.keyed = true := by decide
  have hclasses : wornClasses.keyed = true := by decide
  obtain ⟨styles, textClasses, hread, hbags, hvisuals, -, htext⟩ :=
    malformed_dropped ht hstyles hclasses
  have hbag := (hbags "card" "*" _).mpr ⟨_, rfl, rfl⟩
  exact ⟨t, ht, hstyles, hclasses, styles, textClasses, hread, hbag, hvisuals, htext⟩

end ReportTheme.Theme
