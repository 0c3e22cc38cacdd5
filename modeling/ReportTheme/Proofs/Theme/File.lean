import ReportTheme.Command.Run
import ReportTheme.Proofs.Json.RecordByValue
import ReportTheme.Proofs.Theme

/-!
Theme texts read directly, and by way of a JSON value as the commands read theme files. Both give
the same theme, but a record refuses a field that is given twice, of which a value keeps the last,
and passes over what stands in the place of no field, for which a text may hold no value.
-/
namespace ReportTheme

namespace Selection

/-- Whether a category is given twice, or its choice as an object of several members. -/
def Doubles : Reading → Prop := shape.Doubles fun _ => Decoder.Crowded

/-- Whether something that belongs to no category holds no value. -/
def Overlooks : Reading → Prop := shape.Overlooks fun _ _ => False

theorem byValue_decode : Decoder.ByValue decode Doubles Overlooks := by
  refine RecordShape.byValue_decode (by decide) ?_
  simp only [RecordShape.FieldsByValue, shape, List.forall_mem_cons]
  refine ⟨fun _ => ?padding, fun _ => ?radius, fun _ => ?border, fun _ => ?background, by simp⟩
  all_goals exact ((Decoder.byValue_choice _).optional not_false).map _

end Selection

theorem Bag.byValue_decode : Decoder.ByValue decode (fun _ => False) fun _ => False :=
  Decoder.byValue_entries.map _

theorem Mode.byValue_decode : Decoder.ByValue decode Decoder.Crowded fun _ => False :=
  Decoder.byValue_choice _

namespace Theme

/-- What a field of a theme may not double inside. -/
def doublesInside : String → Reading → Prop
  | "mode" => Decoder.Crowded
  | "quickCustomizations" => Selection.Doubles
  | _ => fun _ => False

def overlooksInside : String → Reading → Prop
  | "quickCustomizations" => Selection.Overlooks
  | _ => fun _ => False

/-- Whether a field is given twice, or what only comes once within the mode or the selection. -/
def Doubles : Reading → Prop := shape.Doubles doublesInside

/-- Whether something that belongs to no field, of the theme or of its selection, holds no value. -/
def Overlooks : Reading → Prop := shape.Overlooks overlooksInside

theorem byValue_decode : Decoder.ByValue decode Doubles Overlooks := by
  refine RecordShape.byValue_decode (by decide) ?_
  simp only [RecordShape.FieldsByValue, shape, List.forall_mem_cons]
  refine ⟨fun _ => ?id, fun _ => ?name, fun _ => ?mode, fun _ => ?colorPaletteId,
    fun _ => ?neutralPaletteId, fun _ => ?fontFamily, fun _ => ?styles, fun _ => ?structuralColors,
    fun _ => ?textClasses, fun _ => ?selection, by simp⟩
  case mode => exact Mode.byValue_decode.map _
  case styles | textClasses => exact Decoder.byValue_json.map _
  case structuralColors => exact Bag.byValue_decode.map _
  case selection => exact Selection.byValue_decode.map _
  all_goals exact Decoder.byValue_string.map _

end Theme

theorem Json.ofText_eq_ok_iff {text : String} {j : Json} :
    ofText text = .ok j ↔
      ofReading (Scanned.ofText text).root = .ok j ∧ (Scanned.ofText text).trailing = false := by
  rw [ofText, bind_throw_if_eq_ok_iff]

theorem Decoder.ofText_eq_ok_iff {α : Type} {decode : Decoder α} {text : String} {a : α} :
    decode.ofText text = .ok a ↔
      decode (Scanned.ofText text).root = .ok a ∧ (Scanned.ofText text).trailing = false := by
  rw [ofText, bind_throw_if_eq_ok_iff]

namespace Command.ThemeFile

theorem ofText_eq_ok_iff {path text : String} {file : ThemeFile} :
    ofText path text = .ok file ↔ ∃ j, Json.ofText text = .ok j ∧
      Theme.ofJson? j = some file.theme ∧ (j.get? "mode").isSome = file.hasMode := by
  rw [ofText]
  cases Json.ofText text with
  | error f => simp
  | ok j =>
    obtain ⟨theme, hasMode⟩ := file
    cases hread : Theme.ofJson? j <;> simp [hread]

theorem theme_eq_ok_iff {path text : String} {t : Theme} :
    (ofText path text).map (·.theme) = .ok t ↔
      ∃ j, Json.ofText text = .ok j ∧ Theme.decode (.ofJson j) = .ok t := by
  simp only [map_eq_ok_iff, ofText_eq_ok_iff, ← Theme.ofJson?_eq_some_iff]
  constructor
  · rintro ⟨file, ⟨j, hj, ht, -⟩, rfl⟩
    exact ⟨j, hj, ht⟩
  · rintro ⟨j, hj, ht⟩
    exact ⟨⟨t, (j.get? "mode").isSome⟩, ⟨j, hj, ht, rfl⟩, rfl⟩

/-- A text that doubles something is no theme, one that overlooks something is no theme file, and of
all others the same are theme files that are themes, and hold the same theme. -/
theorem readers_agree (path text : String) :
    (Theme.Doubles (Scanned.ofText text).root → ∀ t, Theme.ofText text ≠ .ok t) ∧
    (Theme.Overlooks (Scanned.ofText text).root → ∀ file, ofText path text ≠ .ok file) ∧
    ∀ t, Theme.ofText text = .ok t ∧ ¬Theme.Overlooks (Scanned.ofText text).root ↔
      (ofText path text).map (·.theme) = .ok t ∧ ¬Theme.Doubles (Scanned.ofText text).root := by
  have hroot := Theme.byValue_decode
  refine ⟨fun hdoubles t ht => ?_, fun hoverlooks file hfile => ?_, fun t => ?_⟩
  · exact hroot.refuses hdoubles t (Decoder.ofText_eq_ok_iff.mp ht).1
  · have htheme : (ofText path text).map (·.theme) = .ok file.theme := by rw [hfile, Except.map]
    obtain ⟨j, hj, -⟩ := theme_eq_ok_iff.mp htheme
    exact hroot.empty hoverlooks j (Json.ofText_eq_ok_iff.mp hj).1
  · rw [theme_eq_ok_iff, Theme.ofText, Decoder.ofText_eq_ok_iff]
    simp only [Json.ofText_eq_ok_iff]
    constructor
    · rintro ⟨⟨ht, hend⟩, hoverlooks⟩
      have hdoubles : ¬Theme.Doubles (Scanned.ofText text).root := fun hd =>
        hroot.refuses hd t ht
      obtain ⟨j, hj⟩ := hroot.holds hoverlooks ht
      exact ⟨⟨j, ⟨hj, hend⟩, (hroot.same hdoubles hj t).mp ht⟩, hdoubles⟩
    · rintro ⟨⟨j, ⟨hj, hend⟩, ht⟩, hdoubles⟩
      exact ⟨⟨(hroot.same hdoubles hj t).mpr ht, hend⟩, fun ho => hroot.empty ho j hj⟩

/-- A record that gives its name twice. -/
def renamed : String := "\x7b\"name\":\"a\",\"name\":\"b\"\x7d"

/-- A record with half a surrogate pair in the place of no field. -/
def unpaired : String := "\x7b\"x\":\"\\ud800\"\x7d"

theorem readers_differ :
    (Theme.ofText renamed = .error (.duplicateField "name") ∧
      (ofText "theme.json" renamed).map (·.theme) = .ok { Theme.blank with name := "b" }) ∧
    Theme.ofText unpaired = .ok Theme.blank ∧
      ofText "theme.json" unpaired = .error (.malformed "theme.json") := by
  have hrenamed : Scanned.ofText renamed = ⟨.object
      [(.string (some "name"), .leaf (.string (some "a"))),
        (.string (some "name"), .leaf (.string (some "b")))] none, false⟩ := by
    have htext : renamed.toList = ['\x7b', '"', 'n', 'a', 'm', 'e', '"', ':', '"', 'a', '"', ',',
        '"', 'n', 'a', 'm', 'e', '"', ':', '"', 'b', '"', '\x7d'] := rfl
    rw [Scanned.ofText, htext]
    rfl
  have hunpaired : Scanned.ofText unpaired =
      ⟨.object [(.string (some "x"), .leaf (.string none))] none, false⟩ := by
    have htext : unpaired.toList =
        ['\x7b', '"', 'x', '"', ':', '"', '\\', 'u', 'd', '8', '0', '0', '"', '\x7d'] := rfl
    rw [Scanned.ofText, htext]
    rfl
  refine ⟨⟨?_, ?_⟩, ?_, ?_⟩
  · rw [Theme.ofText, Decoder.ofText, hrenamed]
    rfl
  · refine theme_eq_ok_iff.mpr ⟨.object [("name", .string "b")], ?_, rfl⟩
    rw [Json.ofText_eq_ok_iff, hrenamed]
    exact ⟨rfl, rfl⟩
  · rw [Theme.ofText, Decoder.ofText, hunpaired]
    rfl
  · rw [ofText, Json.ofText, hunpaired]
    rfl

end Command.ThemeFile

end ReportTheme
