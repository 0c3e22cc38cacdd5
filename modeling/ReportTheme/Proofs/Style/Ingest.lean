import Mathlib.Data.List.Forall2
import ReportTheme.Proofs.Style.Reference

/-!
What becomes of JSON that is read as a style value and written again. `Json.Restates` says it
without reader and writer: everything stays as it is, at every depth, but for data color references,
which name the index of the color first.
-/
namespace ReportTheme

namespace Json

/-- Whether a value is neither a list nor an object. -/
def isLeaf : Json → Bool
  | .list _ | .object _ => false
  | _ => true

/-- One value is another with the index first in every data color reference; all else stands as it
did. -/
inductive Restates : Json → Json → Prop
  | leaf {j : Json} : j.isLeaf = true → Restates j j
  | list {js ks : List Json} : List.Forall₂ Restates js ks → Restates (.list js) (.list ks)
  | reference {es : Entries Json} {index : UInt64} {percent : Number} :
      RefersTo es index percent →
        Restates (.object es) (.object [("expr", .object [("ThemeDataColor", .object
          [("ColorId", .number (.ofUInt64 index)), ("Percent", .number percent)])])])
  | object {a b : List (String × Json)} :
      (∀ index percent, ¬RefersTo a index percent) → Entries.Aligned Restates a b →
        Restates (.object a) (.object b)

end Json

namespace Value

theorem toJson_ofString (s : String) : (ofString s).toJson = .string s := by
  rw [ofString]
  split
  · rfl
  · split <;> rfl

theorem ofJson?_eq_none {es : Entries Json}
    (h : ∀ index percent, ¬Json.RefersTo es index percent) : Color.ofJson? es = none := by
  cases hc : Color.ofJson? es with
  | none => rfl
  | some c =>
    obtain ⟨index, percent, -, href⟩ := Json.refersTo_of_ofJson? hc
    exact absurd href (h index percent)

mutual

theorem restates_toJson_ofJson : (j : Json) → Json.Restates j (ofJson j).toJson
  | .null | .bool _ | .number _ => .leaf rfl
  | .string s => by
    rw [ofJson, toJson_ofString]
    exact .leaf rfl
  | .list js => .list (restates_toItems js)
  | .object es => by
    rw [ofJson]
    split
    · rename_i c hc
      obtain ⟨index, percent, rfl, href⟩ := Json.refersTo_of_ofJson? hc
      exact .reference href
    · rename_i hnone
      refine .object (fun index percent href => ?_) (restates_toEntries es)
      rw [Color.ofJson?_of_refersTo href] at hnone
      cases hnone

theorem restates_toItems : (js : List Json) →
    List.Forall₂ Json.Restates js (toItems (ofItems js))
  | [] => .nil
  | j :: js => .cons (restates_toJson_ofJson j) (restates_toItems js)

theorem restates_toEntries : (es : List (String × Json)) →
    Entries.Aligned Json.Restates es (toEntries (ofEntries es))
  | [] => .nil
  | (_, j) :: es => .cons (restates_toJson_ofJson j) (restates_toEntries es)

end

theorem toJson_ofJson_of_isLeaf {j : Json} (h : j.isLeaf = true) : (ofJson j).toJson = j := by
  cases j with
  | string s => rw [ofJson, toJson_ofString]
  | list js => cases h
  | object es => cases h
  | _ => rfl

mutual

theorem eq_toJson_of_restates : (j : Json) → {k : Json} → Json.Restates j k →
    k = (ofJson j).toJson
  | .list js, _, h => by
    cases h with
    | leaf hleaf => cases hleaf
    | list hjs => rw [ofJson, toJson, ← eq_toItems_of_restates js hjs]
  | .object es, _, h => by
    cases h with
    | leaf hleaf => cases hleaf
    | reference href => rw [ofJson, Color.ofJson?_of_refersTo href]; rfl
    | object hno hes =>
      rw [ofJson, ofJson?_eq_none hno, toJson, ← eq_toEntries_of_restates es hes]
  | .null, _, h | .bool _, _, h | .number _, _, h | .string _, _, h => by
    cases h with
    | leaf hleaf => exact (toJson_ofJson_of_isLeaf hleaf).symm

theorem eq_toItems_of_restates : (js : List Json) → {ks : List Json} →
    List.Forall₂ Json.Restates js ks → ks = toItems (ofItems js)
  | [], _, .nil => rfl
  | j :: js, _, .cons h hs => by
    rw [ofItems, toItems, ← eq_toJson_of_restates j h, ← eq_toItems_of_restates js hs]

theorem eq_toEntries_of_restates : (es : List (String × Json)) → {fs : List (String × Json)} →
    Entries.Aligned Json.Restates es fs → fs = toEntries (ofEntries es)
  | [], _, .nil => rfl
  | (_, j) :: es, _, .cons h hs => by
    rw [ofEntries, toEntries, ← eq_toJson_of_restates j h, ← eq_toEntries_of_restates es hs]

end

/-- A JSON value that is read and written again is what restates it and nothing else; read once more
it gives the same style value. -/
theorem ingestion_keeps (j : Json) :
    (∀ k, Json.Restates j k ↔ k = (ofJson j).toJson) ∧
    ofJson (ofJson j).toJson = ofJson j := by
  refine ⟨fun k => ⟨eq_toJson_of_restates j, fun hk => ?_⟩, ?_⟩
  · rw [hk]
    exact restates_toJson_ofJson j
  · exact ofJson_toJson (ofJson j) (classified_ofJson j) (plain_ofJson j)

end Value

end ReportTheme
