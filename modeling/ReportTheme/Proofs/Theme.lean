import ReportTheme.Theme
import ReportTheme.Proofs.Json.Printed
import ReportTheme.Proofs.Style.Reread

/-!
Themes written as JSON and read again. Every field comes back as it was, the styles and the document
colors value by value; what is read of a theme repeats no key, tells colors from text and has no
visual type without variants.
-/
namespace ReportTheme

/-- All values of a theme have a property, and no key stands twice in a map that holds them. -/
structure Theme.Holds (P : Value → Prop) (t : Theme) : Prop where
  styles : t.styles.Holds P
  structuralColors : Entries.Keyed P t.structuralColors
  textClasses : Entries.Keyed (Entries.Keyed P) t.textClasses

instance {P : Value → Prop} [DecidablePred P] (t : Theme) : Decidable (t.Holds P) :=
  decidable_of_iff (t.styles.Holds P ∧ Entries.Keyed P t.structuralColors ∧
      Entries.Keyed (Entries.Keyed P) t.textClasses)
    ⟨fun h => ⟨h.1, h.2.1, h.2.2⟩, fun h => ⟨h.styles, h.structuralColors, h.textClasses⟩⟩

namespace RecordShape

variable {σ α : Type} {name : String} {value : Decoder α} {put : α → σ → σ}
  {fields : List (Field σ)} {values : List (Option Json)} {s : σ} {j : Json} {a : α}

theorem readAll_some (h : value (.ofJson j) = .ok a) :
    readAll (.mkOptional name value put :: fields) (some j :: values) s =
      readAll fields values (put a s) := by
  have hread : (Field.mkOptional name value put).read (.ofJson j) s = .ok (put a s) :=
    congrArg (Except.map (put · s)) h
  rw [readAll, hread]
  rfl

/-- A field may be left out if it would change nothing. -/
theorem readAll_unless {skip : Bool} (h : value (.ofJson j) = .ok a)
    (hskip : skip = true → put a s = s) :
    readAll (.mkOptional name value put :: fields) ((if skip then none else some j) :: values) s =
      readAll fields values (put a s) := by
  cases skip with
  | true => rw [if_pos rfl, readAll, hskip rfl]
  | false => exact readAll_some h

theorem readAll_option {value : Decoder α} {put : Option α → σ → σ} {text : α → String}
    {o : Option α} (h : ∀ a, Decoder.optional value (.ofJson (.string (text a))) = .ok (some a))
    (hskip : put none s = s) :
    readAll (.mkOptional name (Decoder.optional value) put :: fields)
        (o.map (fun a => .string (text a)) :: values) s = readAll fields values (put o s) := by
  cases o with
  | none => rw [Option.map_none, readAll, hskip]
  | some a => exact readAll_some (h a)

end RecordShape

theorem Decoder.ofJson_entries {es : Entries Json} (h : Json.KeyedEntries es) :
    Decoder.entries (.ofJson (.object es)) = .ok es := by
  have hes := Json.ofMembers_ofEntries es [] h.distinct ((Json.keyedEntries_iff es).mpr h.each)
  rw [Reading.ofJson, entries, hes]
  rfl

theorem Decoder.ofJson_json {j : Json} (h : j.keyed = true) : Decoder.json (.ofJson j) = .ok j := by
  rw [json, Json.ofReading_ofJson j h]
  rfl

theorem Decoder.keyed_of_json {r : Reading} {j : Json} (h : json r = .ok j) : j.keyed = true :=
  Json.keyed_of_ofReading r j (ok_of_ofFault h)

theorem Decoder.keyed_of_entries {r : Reading} {es : Entries Json} (h : entries r = .ok es) :
    Json.KeyedEntries es := by
  unfold entries at h
  split at h
  · exact Json.keyed_of_ofMembers _ _ _ _ (Entries.keyed_nil _) (ok_of_ofFault h)
  · exact absurd h (refuse_ne_ok _ _ es)

theorem Decoder.ofJson_string (s : String) : string (.ofJson (.string s)) = .ok s := rfl

theorem Mode.decode_toJson (m : Mode) : decode (.ofJson m.toJson) = .ok m := by cases m <;> rfl

namespace Selection

/-- The fields of a selection, those of unset categories left out. -/
def values (s : Selection) : List (Option Json) :=
  [s.padding.map fun p => .string p.name, s.radius.map fun r => .string r.name,
    s.border.map fun b => .string b.name, s.background.map fun b => .string b.name]

theorem toJson_eq_written (s : Selection) :
    s.toJson = .object (RecordShape.written shape.fields s.values) := by
  obtain ⟨p, r, b, g⟩ := s
  cases p <;> cases r <;> cases b <;> cases g <;> rfl

theorem decode_toJson (s : Selection) : decode (.ofJson s.toJson) = .ok s := by
  have hpadding : ∀ p : Padding, Decoder.optional (Decoder.choice Padding.variants)
      (.ofJson (.string p.name)) = .ok (some p) := by intro p; cases p <;> rfl
  have hradius : ∀ r : Radius, Decoder.optional (Decoder.choice Radius.variants)
      (.ofJson (.string r.name)) = .ok (some r) := by intro r; cases r <;> rfl
  have hborder : ∀ b : Border, Decoder.optional (Decoder.choice Border.variants)
      (.ofJson (.string b.name)) = .ok (some b) := by intro b; cases b <;> rfl
  have hbackground : ∀ b : Background, Decoder.optional (Decoder.choice Background.variants)
      (.ofJson (.string b.name)) = .ok (some b) := by intro b; cases b <;> rfl
  rw [toJson_eq_written, decode, RecordShape.decode_written (by decide) (by decide)]
  simp only [shape, values]
  rw [RecordShape.readAll_option hpadding rfl, RecordShape.readAll_option hradius rfl,
    RecordShape.readAll_option hborder rfl, RecordShape.readAll_option hbackground rfl]
  rfl

end Selection

namespace Theme

/-- The theme that is read from a written theme. -/
def reread (t : Theme) : Theme :=
  { t with
    styles := t.styles.mapBags Bag.reread
    structuralColors := Bag.reread t.structuralColors
    textClasses := Entries.mapValues Bag.reread t.textClasses }

/-- The fields of a written theme. -/
def values (t : Theme) : List (Option Json) :=
  [some (.string t.id), some (.string t.name), some t.mode.toJson, some (.string t.colorPaletteId),
    some (.string t.neutralPaletteId), some (.string t.fontFamily), some t.styles.toJson,
    if t.structuralColors.isEmpty then none else some (Bag.toJson t.structuralColors),
    if t.textClasses.isEmpty then none else some (bagsToJson t.textClasses),
    if t.selection.isUnset then none else some t.selection.toJson]

theorem toJson_eq_written (t : Theme) :
    t.toJson = .object (RecordShape.written shape.fields t.values) := by
  rw [toJson, values]
  cases t.structuralColors.isEmpty <;> cases t.textClasses.isEmpty <;>
    cases t.selection.isUnset <;> rfl

/-- A theme without repeated keys is read back from its JSON. -/
theorem decode_toJson {t : Theme} (h : t.Holds fun v => v.keyed = true) (hp : t.styles.Populated) :
    decode (.ofJson t.toJson) = .ok t.reread := by
  have hstyles : Decoder.json (.ofJson t.styles.toJson) = .ok t.styles.toJson :=
    Decoder.ofJson_json (StyleTree.keyed_toJson h.styles)
  have hcolors : Bag.decode (.ofJson (Bag.toJson t.structuralColors)) =
      .ok (Bag.reread t.structuralColors) := by
    have hentries : Json.KeyedEntries (Value.toEntries t.structuralColors) :=
      (Json.keyed_object_iff _).mp (Bag.keyed_toJson h.structuralColors)
    rw [Bag.decode, Bag.toJson, Decoder.ofJson_entries hentries]
    rfl
  have hclasses : Decoder.json (.ofJson (bagsToJson t.textClasses)) =
      .ok (bagsToJson t.textClasses) := Decoder.ofJson_json (keyed_bagsToJson h.textClasses)
  rw [toJson_eq_written, decode, RecordShape.decode_written (by decide) (by decide)]
  simp only [shape, values]
  rw [RecordShape.readAll_some (Decoder.ofJson_string t.id),
    RecordShape.readAll_some (Decoder.ofJson_string t.name),
    RecordShape.readAll_some t.mode.decode_toJson,
    RecordShape.readAll_some (Decoder.ofJson_string t.colorPaletteId),
    RecordShape.readAll_some (Decoder.ofJson_string t.neutralPaletteId),
    RecordShape.readAll_some (Decoder.ofJson_string t.fontFamily),
    RecordShape.readAll_some hstyles]
  dsimp only [blank]
  refine (RecordShape.readAll_unless hcolors ?_).trans ?_
  · intro hempty
    rw [List.isEmpty_iff.mp hempty]
    rfl
  refine (RecordShape.readAll_unless hclasses ?_).trans ?_
  · intro hempty
    rw [List.isEmpty_iff.mp hempty]
    rfl
  refine (RecordShape.readAll_unless t.selection.decode_toJson ?_).trans ?_
  · intro hunset
    have hselection : t.selection = .unset := of_decide_eq_true hunset
    rw [hselection]
  · rw [StyleTree.ofJson_toJson hp, bagsOfJson_bagsToJson]
    rfl

/-- A saved theme can be loaded. -/
theorem ofText_text {t : Theme} (h : t.Holds fun v => v.keyed = true) (hp : t.styles.Populated)
    (hdepth : t.toJson.depth ≤ Reading.depthLimit) (hnumbers : t.toJson.legible = true) :
    ofText t.text = .ok t.reread := by
  rw [ofText, Decoder.ofText, text, Scanned.ofText_pretty hdepth hnumbers]
  dsimp only
  rw [decode_toJson h hp]
  rfl

theorem equal_reread_iff {t : Theme} (h : t.Holds Value.Readable) :
    t.reread.equal t = true ↔ t.Holds fun v => v.plain = true := by
  have hcolors := Bag.equal_reread_iff h.structuralColors
  have hstyles := StyleTree.equal_reread_iff h.styles
  have hclasses : Entries.equalBy Bag.equal (Entries.mapValues Bag.reread t.textClasses)
      t.textClasses = true ↔ _ :=
    Entries.equalBy_mapValues_iff (fun _ => Bag.equal_reread_iff) h.textClasses
  simp only [equal, reread, beq_self_eq_true, Bool.true_and, Bool.and_true, Bool.and_eq_true,
    hcolors, hstyles, hclasses]
  exact ⟨fun h => ⟨h.1.1, h.1.2, h.2⟩, fun h => ⟨⟨h.styles, h.structuralColors⟩, h.textClasses⟩⟩

theorem reread_eq_self {t : Theme} (h : t.Holds Value.Readable)
    (hp : t.Holds fun v => v.plain = true) : t.reread = t := by
  have hclasses : Entries.mapValues Bag.reread t.textClasses = t.textClasses :=
    Entries.mapValues_eq_self fun e he =>
      Bag.reread_eq_self (h.textClasses.each e he) (hp.textClasses.each e he)
  rw [reread, StyleTree.reread_eq_self h.styles hp.styles,
    Bag.reread_eq_self h.structuralColors hp.structuralColors, hclasses]

/-- A theme that was read, from a text or from a JSON value. -/
def Loaded (t : Theme) : Prop := ∃ r, decode r = .ok t

theorem Holds.mono {P Q : Value → Prop} {t : Theme} (h : t.Holds P) (hPQ : ∀ v, P v → Q v) :
    t.Holds Q :=
  ⟨h.styles.mono hPQ, h.structuralColors.mono hPQ, h.textClasses.mono fun _ hb => hb.mono hPQ⟩

theorem ofJson?_eq_some_iff {j : Json} {t : Theme} :
    ofJson? j = some t ↔ decode (.ofJson j) = .ok t := by
  rw [ofJson?]
  cases decode (.ofJson j) with
  | error e => simp [Except.toOption]
  | ok u => simp [Except.toOption]

theorem loaded_of_ofJson? {j : Json} {t : Theme} (h : ofJson? j = some t) : t.Loaded :=
  ⟨_, ofJson?_eq_some_iff.mp h⟩

theorem loaded_of_ofText {text : String} {t : Theme} (h : ofText text = .ok t) : t.Loaded := by
  obtain ⟨u, hu, h⟩ := ok_of_bind h
  split at h
  · cases h
  · exact ⟨_, Except.ok.inj h ▸ hu⟩

/-- What every value that is read has, a theme that is read has. -/
theorem Loaded.holds {P : Value → Prop} (hP : ∀ j : Json, j.keyed = true → P (.ofJson j))
    {t : Theme} (h : t.Loaded) : t.Holds P ∧ t.styles.Populated := by
  let I : Theme → Prop := fun t => t.Holds P ∧ t.styles.Populated
  obtain ⟨r, hr⟩ := h
  refine RecordShape.invariant_of_decode (P := I) ?_ ?_ hr
  · exact ⟨⟨Entries.keyed_nil _, Entries.keyed_nil _, Entries.keyed_nil _⟩,
      StyleTree.populated_empty⟩
  · have hother : ∀ s u : Theme, u.styles = s.styles → u.structuralColors = s.structuralColors →
        u.textClasses = s.textClasses → I s → I u := fun s u hstyles hcolors hclasses hs =>
      ⟨⟨hstyles ▸ hs.1.styles, hcolors ▸ hs.1.structuralColors, hclasses ▸ hs.1.textClasses⟩,
        hstyles ▸ hs.2⟩
    simp only [shape, List.forall_mem_cons]
    refine ⟨?id, ?name, ?mode, ?colorPaletteId, ?neutralPaletteId, ?fontFamily, ?styles,
      ?structuralColors, ?textClasses, ?selection, by simp⟩
    case styles =>
      refine Field.invariant_of_read fun r j hj s hs => ?_
      have hkeyed := Decoder.keyed_of_json hj
      exact ⟨⟨StyleTree.holds_ofJson hP hkeyed, hs.1.structuralColors, hs.1.textClasses⟩,
        StyleTree.populated_ofJson j⟩
    case structuralColors =>
      refine Field.invariant_of_read fun r b hb s hs => ?_
      obtain ⟨es, hes, rfl⟩ := ok_of_map hb
      have hcolors := Bag.holds_ofEntries hP (Decoder.keyed_of_entries hes)
      exact ⟨⟨hs.1.styles, hcolors, hs.1.textClasses⟩, hs.2⟩
    case textClasses =>
      refine Field.invariant_of_read fun r j hj s hs => ?_
      have hclasses := holds_bagsOfJson hP (Decoder.keyed_of_json hj)
      exact ⟨⟨hs.1.styles, hs.1.structuralColors, hclasses⟩, hs.2⟩
    all_goals exact Field.invariant_of_read fun _ _ _ s => hother s _ rfl rfl rfl

theorem Loaded.readable {t : Theme} (h : t.Loaded) :
    t.Holds Value.Readable ∧ t.styles.Populated := h.holds Value.readable_ofJson

end Theme

end ReportTheme
