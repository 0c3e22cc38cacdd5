import ReportTheme.Proofs.Style.Json

/-!
The form of a data color reference, said at once of JSON objects and of groups. Reading takes
exactly the objects of this form for colors, so no value that was read has a group of this form left
in it.
-/
namespace ReportTheme

/-- Entries of the form of a data color reference, where `group` makes a value of entries and
`number` one of a number. -/
def Entries.RefersTo {α : Type} (group : Entries α → α) (number : Number → α) (es : Entries α)
    (index : UInt64) (percent : Number) : Prop :=
  ∃ data, es = [("expr", group [("ThemeDataColor", group data)])] ∧
    (data = [("ColorId", number (.ofUInt64 index)), ("Percent", number percent)] ∨
      data = [("Percent", number percent), ("ColorId", number (.ofUInt64 index))])

theorem Number.integer_eq_ofUInt64 {i : Int}
    (fits : -9223372036854775808 ≤ i ∧ i < 18446744073709551616) (h : 0 ≤ i) :
    Number.integer i fits = .ofUInt64 (.ofNat i.toNat) := by
  have hlt : i.toNat < UInt64.size := by
    rw [UInt64.size]
    omega
  have hi : ((UInt64.ofNat i.toNat).toNat : Int) = i := by
    rw [UInt64.toNat_ofNat_of_lt' hlt]
    omega
  simp only [ofUInt64, hi]

/-- An object of the form of a data color reference. -/
abbrev Json.RefersTo (es : Entries Json) (index : UInt64) (percent : Number) : Prop :=
  Entries.RefersTo Json.object Json.number es index percent

/-- A group of the form of a data color reference. -/
abbrev Bag.RefersTo (b : Bag) (index : UInt64) (percent : Number) : Prop :=
  Entries.RefersTo Value.group Value.number b index percent

theorem Color.ofJson?_of_refersTo {es : Entries Json} {index : UInt64} {percent : Number}
    (h : Json.RefersTo es index percent) : ofJson? es = some (.themeData index percent) := by
  obtain ⟨data, rfl, rfl | rfl⟩ := h <;> simp [ofJson?, Entries.get?, Number.ofUInt64]

theorem Json.refersTo_of_ofJson? {es : Entries Json} {c : Color} (h : Color.ofJson? es = some c) :
    ∃ index percent, c = .themeData index percent ∧ RefersTo es index percent := by
  unfold Color.ofJson? at h
  split at h
  · rename_i outer inner data
    split at h
    · rename_i hform
      obtain ⟨rfl, rfl, hlen⟩ := hform
      split at h
      · rename_i i fits percent hindex hpercent
        split at h
        · rename_i hi
          rw [Number.integer_eq_ofUInt64 fits hi] at hindex
          have hdata := Entries.eq_pair_of_get? hlen (by decide) hindex hpercent
          exact ⟨_, percent, (Option.some.inj h).symm, data, rfl, hdata⟩
        · cases h
      · cases h
    · cases h
  · cases h

theorem Bag.isColorReference_of_refersTo {b : Bag} {index : UInt64} {percent : Number}
    (h : b.RefersTo index percent) : b.isColorReference = true := by
  obtain ⟨data, rfl, rfl | rfl⟩ := h <;> simp [isColorReference, Entries.get?, Number.ofUInt64]

theorem Bag.refersTo_of_isColorReference {b : Bag} (h : b.isColorReference = true) :
    ∃ index percent, b.RefersTo index percent := by
  unfold isColorReference at h
  split at h
  · rename_i outer inner data
    simp only [Bool.and_eq_true, beq_iff_eq] at h
    obtain ⟨⟨⟨rfl, rfl⟩, hlen⟩, hmatch⟩ := h
    split at hmatch
    · rename_i i fits percent hindex hpercent
      rw [Number.integer_eq_ofUInt64 fits (of_decide_eq_true hmatch)] at hindex
      exact ⟨_, percent, data, rfl, Entries.eq_pair_of_get? hlen (by decide) hindex hpercent⟩
    · cases hmatch
  · cases h

theorem Bag.isColorReference_iff (b : Bag) :
    b.isColorReference = true ↔ ∃ index percent, b.RefersTo index percent :=
  ⟨refersTo_of_isColorReference, fun ⟨_, _, h⟩ => isColorReference_of_refersTo h⟩

namespace Value

theorem eq_number_of_ofJson {j : Json} {n : Number} (h : ofJson j = .number n) : j = .number n := by
  cases j with
  | number m => exact congrArg Json.number (Value.number.inj h)
  | string s =>
    rw [ofJson, ofString] at h
    split at h
    · cases h
    · split at h <;> cases h
  | object es =>
    rw [ofJson] at h
    split at h <;> cases h
  | _ => cases h

theorem eq_object_of_ofJson {j : Json} {b : Bag} (h : ofJson j = .group b) :
    ∃ es, j = .object es ∧ ofEntries es = b := by
  cases j with
  | object es =>
    rw [ofJson] at h
    split at h
    · cases h
    · exact ⟨es, rfl, Value.group.inj h⟩
  | string s =>
    rw [ofJson, ofString] at h
    split at h
    · cases h
    · split at h <;> cases h
  | _ => cases h

/-- A group is read from an object of its own form. -/
theorem refersTo_of_ofEntries {es : Entries Json} {index : UInt64} {percent : Number}
    (h : Bag.RefersTo (ofEntries es) index percent) : Json.RefersTo es index percent := by
  obtain ⟨data, hes, hdata⟩ := h
  rw [ofEntries_eq] at hes
  obtain ⟨expr, rfl, hexpr⟩ := Entries.mapValues_eq_singleton hes
  obtain ⟨inner, rfl, hinner⟩ := eq_object_of_ofJson hexpr
  rw [ofEntries_eq] at hinner
  obtain ⟨color, rfl, hcolor⟩ := Entries.mapValues_eq_singleton hinner
  obtain ⟨fields, rfl, rfl⟩ := eq_object_of_ofJson hcolor
  rw [ofEntries_eq] at hdata
  refine ⟨fields, rfl, ?_⟩
  rcases hdata with hdata | hdata
  · obtain ⟨v, w, rfl, hv, hw⟩ := Entries.mapValues_eq_pair hdata
    left
    rw [eq_number_of_ofJson hv, eq_number_of_ofJson hw]
  · obtain ⟨v, w, rfl, hv, hw⟩ := Entries.mapValues_eq_pair hdata
    right
    rw [eq_number_of_ofJson hv, eq_number_of_ofJson hw]

mutual

/-- No group of a value that was read has the form of a reference. -/
theorem plain_ofJson : (j : Json) → (ofJson j).plain = true
  | .null | .bool _ | .number _ => rfl
  | .string s => by
    rw [ofJson, ofString]
    split
    · rfl
    · split <;> rfl
  | .list js => by
    rw [ofJson, plain]
    exact plain_ofItems js
  | .object es => by
    rw [ofJson]
    split
    · rfl
    · rename_i hnone
      have href : Bag.isColorReference (ofEntries es) = false := by
        rw [Bool.eq_false_iff]
        intro hyes
        obtain ⟨index, percent, h⟩ := Bag.refersTo_of_isColorReference hyes
        rw [Color.ofJson?_of_refersTo (refersTo_of_ofEntries h)] at hnone
        cases hnone
      rw [plain, href, plain_ofEntries es]
      rfl

theorem plain_ofItems : (js : List Json) → plainItems (ofItems js) = true
  | [] => rfl
  | j :: js => by
    rw [ofItems, plainItems, plain_ofJson j, plain_ofItems js]
    rfl

theorem plain_ofEntries : (es : List (String × Json)) → plainEntries (ofEntries es) = true
  | [] => rfl
  | (k, j) :: es => by
    rw [ofEntries, plainEntries, plain_ofJson j, plain_ofEntries es]
    rfl

end

end Value

end ReportTheme
