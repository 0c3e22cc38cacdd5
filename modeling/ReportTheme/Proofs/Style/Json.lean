import ReportTheme.Proofs.Json.Decode
import ReportTheme.Proofs.Preset.Detect
import ReportTheme.Proofs.Style.Equal

/-!
Style values written as JSON and read again. What reading makes of a JSON value repeats no key and
tells colors from text, and such a value comes back as it was, unless a group in it has the form of
a data color reference: this one comes back as a color.
-/
namespace ReportTheme

namespace Entries

variable {α : Type} {f : α → α} {P Q : α → Prop} {es : Entries α}

/-- A map changed value by value equals itself just if its values do. -/
theorem equalBy_mapValues_iff {eq : α → α → Bool} (h : ∀ v, P v → (eq (f v) v = true ↔ Q v))
    (hes : Keyed P es) : equalBy eq (mapValues f es) es = true ↔ Keyed Q es := by
  have hall : (mapValues f es).all (fun e => (get? es e.1).any (eq e.2)) = true ↔
      ∀ e ∈ es, Q e.2 := by
    rw [mapValues, List.all_map, List.all_eq_true]
    refine forall₂_congr fun e he => ?_
    rw [Function.comp_apply, get?_of_mem hes.distinct he, Option.any_some]
    exact h e.2 (hes.each e he)
  have hlen : ((mapValues f es).length == es.length) = true := by simp [mapValues]
  rw [equalBy, hlen, Bool.true_and, hall]
  exact ⟨fun hq => ⟨hes.distinct, hq⟩, Keyed.each⟩

theorem mapValues_eq_self (h : ∀ e ∈ es, f e.2 = e.2) : mapValues f es = es := by
  have hid : ∀ e ∈ es, (e.1, f e.2) = e := fun e he => by rw [h e he]
  rw [mapValues, List.map_congr_left hid, List.map_id']

end Entries

/-- Whether a group has exactly the form of a data color reference. -/
def Bag.isColorReference : Bag → Bool
  | [(outer, .group [(inner, .group data)])] =>
    outer == "expr" && inner == "ThemeDataColor" && data.length == 2 &&
      match Entries.get? data "ColorId", Entries.get? data "Percent" with
      | some (.number (.integer i _)), some (.number _) => decide (0 ≤ i)
      | _, _ => false
  | _ => false

namespace Value

mutual

/-- Whether every string of a value is of the kind that reading would take it for. -/
def classified : Value → Bool
  | .color (.token s) => Token.isReference s
  | .color (.hex s) => !Token.isReference s && isHexLiteral s
  | .text s => !Token.isReference s && !isHexLiteral s
  | .list items => classifiedItems items
  | .group entries => classifiedEntries entries
  | _ => true

def classifiedItems : List Value → Bool
  | [] => true
  | v :: vs => classified v && classifiedItems vs

def classifiedEntries : List (String × Value) → Bool
  | [] => true
  | (_, v) :: es => classified v && classifiedEntries es

end

mutual

/-- Whether no group of a value has the form of a data color reference. -/
def plain : Value → Bool
  | .list items => plainItems items
  | .group entries => !Bag.isColorReference entries && plainEntries entries
  | _ => true

def plainItems : List Value → Bool
  | [] => true
  | v :: vs => plain v && plainItems vs

def plainEntries : List (String × Value) → Bool
  | [] => true
  | (_, v) :: es => plain v && plainEntries es

end

/-- What reading guarantees of a value. -/
structure Readable (v : Value) : Prop where
  keyed : v.keyed = true
  classified : v.classified = true

theorem classifiedItems_iff (vs : List Value) :
    classifiedItems vs = true ↔ ∀ v ∈ vs, v.classified = true := by
  induction vs with
  | nil => simp [classifiedItems]
  | cons v vs ih => simp [classifiedItems, ih]

theorem classifiedEntries_iff (es : List (String × Value)) :
    classifiedEntries es = true ↔ ∀ e ∈ es, e.2.classified = true := by
  induction es with
  | nil => simp [classifiedEntries]
  | cons e es ih => simp [classifiedEntries, ih]

theorem hereditary_readable : Hereditary Readable where
  null := ⟨rfl, rfl⟩
  list vs := by
    constructor
    · intro h v hv
      have hc := h.classified
      rw [classified, classifiedItems_iff] at hc
      exact ⟨(keyed_list_iff vs).mp h.keyed v hv, hc v hv⟩
    · intro h
      refine ⟨(keyed_list_iff vs).mpr fun v hv => (h v hv).keyed, ?_⟩
      rw [classified, classifiedItems_iff]
      exact fun v hv => (h v hv).classified
  group b := by
    constructor
    · intro h
      have hb := (keyed_group_iff b).mp h.keyed
      have hc := h.classified
      rw [classified, classifiedEntries_iff] at hc
      exact ⟨hb.distinct, fun e he => ⟨hb.each e he, hc e he⟩⟩
    · intro h
      refine ⟨(keyed_group_iff b).mpr ⟨h.distinct, fun e he => (h.each e he).keyed⟩, ?_⟩
      rw [classified, classifiedEntries_iff]
      exact fun e he => (h.each e he).classified

theorem readable_ofPresets : OfPresets Readable where
  whole _ := ⟨rfl, rfl⟩
  fill t :=
    ⟨rfl, by
      simp [fill, solid, Color.ofToken, classified, classifiedEntries, t.isReference_name]⟩
  bool _ := ⟨rfl, rfl⟩

theorem ofEntries_eq (es : Entries Json) : ofEntries es = Entries.mapValues ofJson es := by
  induction es with
  | nil => rfl
  | cons e es ih => rw [ofEntries, ih, Entries.mapValues_cons]

theorem themeData_of_ofJson? {es : Entries Json} {c : Color} (h : Color.ofJson? es = some c) :
    ∃ index percent, c = .themeData index percent := by
  unfold Color.ofJson? at h
  split at h
  · split at h
    · split at h
      · split at h
        · exact ⟨_, _, (Option.some.inj h).symm⟩
        · cases h
      · cases h
    · cases h
  · cases h

theorem classified_ofString (s : String) : (ofString s).classified = true := by
  rw [ofString]
  split
  · assumption
  · rename_i href
    split
    · rename_i hhex
      simp [classified, href, hhex]
    · rename_i hhex
      simp [classified, href, hhex]

theorem keyed_ofString (s : String) : (ofString s).keyed = true := by
  rw [ofString]
  split
  · rfl
  · split <;> rfl

mutual

theorem classified_ofJson : (j : Json) → (ofJson j).classified = true
  | .null | .bool _ | .number _ => rfl
  | .string s => classified_ofString s
  | .list js => by
    rw [ofJson, classified]
    exact classified_ofItems js
  | .object es => by
    rw [ofJson]
    split
    · rename_i c hc
      obtain ⟨index, percent, rfl⟩ := themeData_of_ofJson? hc
      rfl
    · rw [classified]
      exact classified_ofEntries es

theorem classified_ofItems : (js : List Json) → classifiedItems (ofItems js) = true
  | [] => rfl
  | j :: js => by
    rw [ofItems, classifiedItems, classified_ofJson j, classified_ofItems js]
    rfl

theorem classified_ofEntries : (es : List (String × Json)) →
    classifiedEntries (ofEntries es) = true
  | [] => rfl
  | (k, j) :: es => by
    rw [ofEntries, classifiedEntries, classified_ofJson j, classified_ofEntries es]
    rfl

end

mutual

theorem keyed_ofJson : (j : Json) → j.keyed = true → (ofJson j).keyed = true
  | .null, _ | .bool _, _ | .number _, _ => rfl
  | .string s, _ => keyed_ofString s
  | .list js, h => by
    rw [Json.keyed] at h
    rw [ofJson, keyed]
    exact keyed_ofItems js h
  | .object es, h => by
    rw [Json.keyed, Bool.and_eq_true, decide_eq_true_eq] at h
    rw [ofJson]
    split
    · rfl
    · have hkeys : Entries.keys (ofEntries es) = Entries.keys es := by
        rw [ofEntries_eq, Entries.keys_mapValues]
      rw [keyed, Bool.and_eq_true, decide_eq_true_eq, Entries.Distinct, hkeys]
      exact ⟨h.1, keyed_ofEntries es h.2⟩

theorem keyed_ofItems : (js : List Json) → Json.keyedItems js = true →
    keyedItems (ofItems js) = true
  | [], _ => rfl
  | j :: js, h => by
    rw [Json.keyedItems, Bool.and_eq_true] at h
    rw [ofItems, keyedItems, keyed_ofJson j h.1, keyed_ofItems js h.2]
    rfl

theorem keyed_ofEntries : (es : List (String × Json)) → Json.keyedEntries es = true →
    keyedEntries (ofEntries es) = true
  | [], _ => rfl
  | (k, j) :: es, h => by
    rw [Json.keyedEntries, Bool.and_eq_true] at h
    rw [ofEntries, keyedEntries, keyed_ofJson j h.1, keyed_ofEntries es h.2]
    rfl

end

theorem readable_ofJson (j : Json) (h : j.keyed = true) : (ofJson j).Readable :=
  ⟨keyed_ofJson j h, classified_ofJson j⟩

mutual

theorem keyed_toJson : (v : Value) → v.keyed = true → v.toJson.keyed = true
  | .color c, _ => by
    cases c <;> simp [toJson, Color.toJson, Json.keyed, Json.keyedEntries, Entries.Distinct,
      Entries.keys]
  | .number _, _ | .bool _, _ | .text _, _ | .null, _ => rfl
  | .list vs, h => by
    rw [keyed] at h
    rw [toJson, Json.keyed]
    exact keyed_toItems vs h
  | .group es, h => by
    rw [keyed, Bool.and_eq_true, decide_eq_true_eq] at h
    have hkeys : Entries.keys (toEntries es) = Entries.keys es := by
      rw [toEntries_eq, Entries.keys_mapValues]
    rw [toJson, Json.keyed, Bool.and_eq_true, decide_eq_true_eq, Entries.Distinct, hkeys]
    exact ⟨h.1, keyed_toEntries es h.2⟩

theorem keyed_toItems : (vs : List Value) → keyedItems vs = true →
    Json.keyedItems (toItems vs) = true
  | [], _ => rfl
  | v :: vs, h => by
    rw [keyedItems, Bool.and_eq_true] at h
    rw [toItems, Json.keyedItems, keyed_toJson v h.1, keyed_toItems vs h.2]
    rfl

theorem keyed_toEntries : (es : List (String × Value)) → keyedEntries es = true →
    Json.keyedEntries (toEntries es) = true
  | [], _ => rfl
  | (k, v) :: es, h => by
    rw [keyedEntries, Bool.and_eq_true] at h
    rw [toEntries, Json.keyedEntries, keyed_toJson v h.1, keyed_toEntries es h.2]
    rfl

end

theorem isSome_ofJson?_nested (outer key : String) (data : Bag) :
    (Color.ofJson? [(outer, .object [(key, .object (toEntries data))])]).isSome =
      Bag.isColorReference [(outer, .group [(key, .group data)])] := by
  have hlen : (toEntries data).length = data.length := by
    rw [toEntries_eq, Entries.mapValues, List.length_map]
  rw [Color.ofJson?, Bag.isColorReference, hlen]
  by_cases h : outer = "expr" ∧ key = "ThemeDataColor" ∧ data.length = 2
  · obtain ⟨rfl, rfl, hdata⟩ := h
    rw [if_pos ⟨rfl, rfl, hdata⟩, hdata, toEntries_eq, Entries.get?_mapValues,
      Entries.get?_mapValues]
    -- Only a number is written as a number, so the cases of values and of their JSON agree.
    cases Entries.get? data "ColorId" with
    | none => rfl
    | some index =>
      cases index with
      | number n =>
        cases n with
        | double x => rfl
        | integer i fits =>
          cases Entries.get? data "Percent" with
          | none => rfl
          | some percent =>
            cases percent with
            | number m => by_cases hi : 0 ≤ i <;> simp [toJson, hi]
            | color c => cases c <;> rfl
            | _ => rfl
      | color c => cases c <;> rfl
      | _ => rfl
  · have hno : (outer == "expr" && key == "ThemeDataColor" && data.length == 2) = false := by
      rw [Bool.eq_false_iff]
      intro hyes
      simp only [Bool.and_eq_true, beq_iff_eq] at hyes
      exact h ⟨hyes.1.1, hyes.1.2, hyes.2⟩
    rw [if_neg h, hno]
    rfl

/-- A written group is read as a color just if it has the form of a reference. -/
theorem isSome_ofJson?_toEntries (es : Bag) :
    (Color.ofJson? (toEntries es)).isSome = Bag.isColorReference es := by
  rcases es with _ | ⟨⟨outer, v⟩, _ | ⟨e, es⟩⟩
  · rfl
  · cases v with
    | group inner =>
      rcases inner with _ | ⟨⟨key, w⟩, _ | ⟨e, inner⟩⟩
      · rfl
      · cases w with
        | group data => exact isSome_ofJson?_nested outer key data
        | color c =>
          cases c <;> simp [toEntries, toJson, Color.toJson, Color.ofJson?, Bag.isColorReference]
        | _ => rfl
      · simp [toEntries, toJson, Color.ofJson?, Bag.isColorReference]
    | color c =>
      cases c <;> simp [toEntries, toJson, Color.toJson, Color.ofJson?, Bag.isColorReference]
    | _ => rfl
  · simp [toEntries, Color.ofJson?, Bag.isColorReference]

theorem ofJson_toJson_color (c : Color) : ofJson c.toJson =
    match c with
    | .token s | .hex s => ofString s
    | .themeData index percent => .color (.themeData index percent) := by
  cases c with
  | themeData index percent =>
    simp [Color.toJson, ofJson, Color.ofJson?, Number.ofUInt64, Entries.get?]
  | _ => rfl

theorem ofString_eq_token {s : String} (h : Token.isReference s = true) :
    ofString s = .color (.token s) := by
  rw [ofString, if_pos h]

theorem ofString_eq_hex {s : String} (hr : Token.isReference s = false)
    (hh : isHexLiteral s = true) : ofString s = .color (.hex s) := by
  simp [ofString, hr, hh]

theorem ofString_eq_text {s : String} (hr : Token.isReference s = false)
    (hh : isHexLiteral s = false) : ofString s = .text s := by
  simp [ofString, hr, hh]

mutual

/-- A value that reading could have made comes back, unless a group in it looks like a color. -/
theorem ofJson_toJson : (v : Value) → v.classified = true → v.plain = true → ofJson v.toJson = v
  | .color c, h, _ => by
    rw [toJson, ofJson_toJson_color]
    cases c with
    | token s => exact ofString_eq_token h
    | hex s =>
      simp only [classified, Bool.and_eq_true, Bool.not_eq_true'] at h
      exact ofString_eq_hex h.1 h.2
    | themeData index percent => rfl
  | .text s, h, _ => by
    simp only [classified, Bool.and_eq_true, Bool.not_eq_true'] at h
    exact ofString_eq_text h.1 h.2
  | .number _, _, _ | .bool _, _, _ | .null, _, _ => rfl
  | .list vs, h, hp => by
    rw [classified] at h
    rw [plain] at hp
    rw [toJson, ofJson, ofItems_toItems vs h hp]
  | .group es, h, hp => by
    rw [classified] at h
    rw [plain, Bool.and_eq_true, Bool.not_eq_true', ← isSome_ofJson?_toEntries,
      Option.isSome_eq_false_iff, Option.isNone_iff_eq_none] at hp
    rw [toJson, ofJson, hp.1, ofEntries_toEntries es h hp.2]

theorem ofItems_toItems : (vs : List Value) → classifiedItems vs = true → plainItems vs = true →
    ofItems (toItems vs) = vs
  | [], _, _ => rfl
  | v :: vs, h, hp => by
    rw [classifiedItems, Bool.and_eq_true] at h
    rw [plainItems, Bool.and_eq_true] at hp
    rw [toItems, ofItems, ofJson_toJson v h.1 hp.1, ofItems_toItems vs h.2 hp.2]

theorem ofEntries_toEntries : (es : List (String × Value)) → classifiedEntries es = true →
    plainEntries es = true → ofEntries (toEntries es) = es
  | [], _, _ => rfl
  | (k, v) :: es, h, hp => by
    rw [classifiedEntries, Bool.and_eq_true] at h
    rw [plainEntries, Bool.and_eq_true] at hp
    rw [toEntries, ofEntries, ofJson_toJson v h.1 hp.1, ofEntries_toEntries es h.2 hp.2]

end

/-- A string that is read as a value like the written one is of its kind. -/
theorem classified_of_equal_ofString {s : String} {v : Value}
    (hv : v = .color (.token s) ∨ v = .color (.hex s) ∨ v = .text s)
    (h : (ofString s).equal v = true) : v.classified = true := by
  cases hr : Token.isReference s with
  | true =>
    rw [ofString_eq_token hr] at h
    rcases hv with rfl | rfl | rfl
    · exact hr
    · simp [equal, Color.equal] at h
    · simp [equal] at h
  | false =>
    cases hh : isHexLiteral s with
    | true =>
      rw [ofString_eq_hex hr hh] at h
      rcases hv with rfl | rfl | rfl
      · simp [equal, Color.equal] at h
      · simp [classified, hr, hh]
      · simp [equal] at h
    | false =>
      rw [ofString_eq_text hr hh] at h
      rcases hv with rfl | rfl | rfl
      · simp [equal] at h
      · simp [equal] at h
      · simp [classified, hr, hh]

mutual

/-- Only such a value comes back as an equal one. -/
theorem plain_of_equal : (v : Value) → v.keyed = true → (ofJson v.toJson).equal v = true →
    v.classified = true ∧ v.plain = true
  | .color c, _, h => by
    rw [toJson, ofJson_toJson_color] at h
    refine ⟨?_, rfl⟩
    cases c with
    | token s => exact classified_of_equal_ofString (by simp) h
    | hex s => exact classified_of_equal_ofString (by simp) h
    | themeData index percent => rfl
  | .text s, _, h => by
    rw [toJson, ofJson] at h
    exact ⟨classified_of_equal_ofString (by simp) h, rfl⟩
  | .number _, _, _ | .bool _, _, _ | .null, _, _ => ⟨rfl, rfl⟩
  | .list vs, hv, h => by
    rw [keyed] at hv
    rw [toJson, ofJson, equal] at h
    rw [classified, plain]
    exact plain_of_equalItems vs hv h
  | .group es, hv, h => by
    have hes := (keyed_group_iff es).mp hv
    rw [keyed, Bool.and_eq_true] at hv
    rw [toJson, ofJson] at h
    split at h
    · cases h
    · rename_i hnone
      rw [equal_group, toEntries_eq, ofEntries_eq, Entries.mapValues_mapValues,
        Entries.equalBy_mapValues_iff (fun _ _ => Iff.rfl) hes] at h
      obtain ⟨hc, hp⟩ := plain_of_equalEntries es hv.2 h.each
      rw [classified, plain, ← isSome_ofJson?_toEntries, hnone]
      exact ⟨hc, hp⟩

theorem plain_of_equalItems : (vs : List Value) → keyedItems vs = true →
    equalItems (ofItems (toItems vs)) vs = true → classifiedItems vs = true ∧ plainItems vs = true
  | [], _, _ => ⟨rfl, rfl⟩
  | v :: vs, hv, h => by
    rw [keyedItems, Bool.and_eq_true] at hv
    rw [toItems, ofItems, equalItems, Bool.and_eq_true] at h
    obtain ⟨hc, hp⟩ := plain_of_equal v hv.1 h.1
    obtain ⟨hcs, hps⟩ := plain_of_equalItems vs hv.2 h.2
    simp [classifiedItems, plainItems, hc, hp, hcs, hps]

theorem plain_of_equalEntries : (es : List (String × Value)) → keyedEntries es = true →
    (∀ e ∈ es, (ofJson e.2.toJson).equal e.2 = true) →
    classifiedEntries es = true ∧ plainEntries es = true
  | [], _, _ => ⟨rfl, rfl⟩
  | (k, v) :: es, hv, h => by
    rw [keyedEntries, Bool.and_eq_true] at hv
    obtain ⟨hc, hp⟩ := plain_of_equal v hv.1 (h (k, v) (by simp))
    obtain ⟨hcs, hps⟩ := plain_of_equalEntries es hv.2 fun e he => h e (by simp [he])
    simp [classifiedEntries, plainEntries, hc, hp, hcs, hps]

end

theorem equal_ofJson_toJson_iff {v : Value} (h : v.Readable) :
    (ofJson v.toJson).equal v = true ↔ v.plain = true := by
  refine ⟨fun he => (plain_of_equal v h.keyed he).2, fun hp => ?_⟩
  rw [ofJson_toJson v h.classified hp]
  exact equal_refl h.keyed

end Value

end ReportTheme
