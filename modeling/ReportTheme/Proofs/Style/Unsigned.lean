import ReportTheme.Proofs.Json.Unsigned
import ReportTheme.Proofs.Style.Tree

/-!
Style values and style trees up to the sign of zero, which is what the comparison with the order of
keys leaves out; and changes of all bags of a tree at a time.
-/
namespace ReportTheme

namespace Json

theorem unsignedItems_eq (js : List Json) : unsignedItems js = js.map unsigned := by
  induction js with
  | nil => rfl
  | cons j js ih => rw [unsignedItems, ih, List.map_cons]

theorem unsignedEntries_eq (es : Entries Json) :
    unsignedEntries es = Entries.mapValues unsigned es := by
  induction es with
  | nil => rfl
  | cons e es ih => rw [unsignedEntries, ih, Entries.mapValues_cons]

end Json

namespace Color

def unsigned : Color → Color
  | .themeData index percent => .themeData index percent.unsigned
  | c => c

theorem equal_iff (c d : Color) : c.equal d = true ↔ c.unsigned = d.unsigned := by
  cases c <;> cases d <;> simp [equal, unsigned, Number.equal_iff]

theorem toJson_unsigned (c : Color) : c.unsigned.toJson = c.toJson.unsigned := by
  cases c <;> rfl

end Color

namespace Value

mutual

/-- The value with every zero taken as positive. -/
def unsigned : Value → Value
  | .color c => .color c.unsigned
  | .number n => .number n.unsigned
  | .list items => .list (unsignedItems items)
  | .group entries => .group (unsignedEntries entries)
  | v => v

def unsignedItems : List Value → List Value
  | [] => []
  | v :: vs => unsigned v :: unsignedItems vs

def unsignedEntries : List (String × Value) → List (String × Value)
  | [] => []
  | (k, v) :: es => (k, unsigned v) :: unsignedEntries es

end

theorem unsignedEntries_eq (es : Bag) : unsignedEntries es = Entries.mapValues unsigned es := by
  induction es with
  | nil => rfl
  | cons e es ih => rw [unsignedEntries, ih, Entries.mapValues_cons]

theorem toEntries_eq (es : Bag) : toEntries es = Entries.mapValues toJson es := by
  induction es with
  | nil => rfl
  | cons e es ih => rw [toEntries, ih, Entries.mapValues_cons]

mutual

/-- Identical values differ in signs of zero only. -/
theorem identical_iff : (v w : Value) → (v.identical w = true ↔ v.unsigned = w.unsigned)
  | .color c, w => by cases w <;> simp [identical, unsigned, Color.equal_iff]
  | .number n, w => by cases w <;> simp [identical, unsigned, Number.equal_iff]
  | .bool b, w => by cases w <;> simp [identical, unsigned]
  | .text s, w => by cases w <;> simp [identical, unsigned]
  | .null, w => by cases w <;> simp [identical, unsigned]
  | .list xs, w => by
    cases w with
    | list ys => simp [identical, unsigned, identicalItems_iff xs ys]
    | _ => simp [identical, unsigned]
  | .group a, w => by
    cases w with
    | group b => simp [identical, unsigned, identicalEntries_iff a b]
    | _ => simp [identical, unsigned]

theorem identicalItems_iff : (xs ys : List Value) →
    (identicalItems xs ys = true ↔ unsignedItems xs = unsignedItems ys)
  | [], ys => by cases ys <;> simp [identicalItems, unsignedItems]
  | x :: xs, [] => by simp [identicalItems, unsignedItems]
  | x :: xs, y :: ys => by
    simp [identicalItems, unsignedItems, identical_iff x y, identicalItems_iff xs ys]

theorem identicalEntries_iff : (a b : List (String × Value)) →
    (identicalEntries a b = true ↔ unsignedEntries a = unsignedEntries b)
  | [], b => by cases b <;> simp [identicalEntries, unsignedEntries]
  | e :: a, [] => by simp [identicalEntries, unsignedEntries]
  | (k, v) :: a, (l, w) :: b => by
    simp [identicalEntries, unsignedEntries, identical_iff v w, identicalEntries_iff a b, and_assoc]

end

mutual

theorem toJson_unsigned : (v : Value) → v.unsigned.toJson = v.toJson.unsigned
  | .color c => by simp [unsigned, toJson, Color.toJson_unsigned]
  | .number n => by simp [unsigned, toJson, Json.unsigned]
  | .bool b => by simp [unsigned, toJson, Json.unsigned]
  | .text s => by simp [unsigned, toJson, Json.unsigned]
  | .null => by simp [unsigned, toJson, Json.unsigned]
  | .list vs => by simp [unsigned, toJson, Json.unsigned, toItems_unsigned vs]
  | .group es => by simp [unsigned, toJson, Json.unsigned, toEntries_unsigned es]

theorem toItems_unsigned : (vs : List Value) →
    toItems (unsignedItems vs) = Json.unsignedItems (toItems vs)
  | [] => rfl
  | v :: vs => by
    simp [unsignedItems, toItems, Json.unsignedItems, toJson_unsigned v, toItems_unsigned vs]

theorem toEntries_unsigned : (es : List (String × Value)) →
    toEntries (unsignedEntries es) = Json.unsignedEntries (toEntries es)
  | [] => rfl
  | (k, v) :: es => by
    simp [unsignedEntries, toEntries, Json.unsignedEntries, toJson_unsigned v,
      toEntries_unsigned es]

end

end Value

namespace Bag

def unsigned (b : Bag) : Bag := Value.unsignedEntries b

theorem identical_iff (a b : Bag) : a.identical b = true ↔ a.unsigned = b.unsigned :=
  Value.identicalEntries_iff a b

theorem toJson_unsigned (b : Bag) : b.unsigned.toJson = b.toJson.unsigned := by
  rw [toJson, unsigned, Value.toEntries_unsigned, toJson, Json.unsigned]

theorem bagsToJson_unsigned (bags : Entries Bag) :
    bagsToJson (Entries.mapValues unsigned bags) = (bagsToJson bags).unsigned := by
  have h : (fun b : Bag => b.unsigned.toJson) = fun b => b.toJson.unsigned :=
    funext toJson_unsigned
  calc bagsToJson (Entries.mapValues unsigned bags)
      = .object (Entries.mapValues toJson (Entries.mapValues unsigned bags)) := rfl
    _ = .object (Entries.mapValues Json.unsigned (Entries.mapValues toJson bags)) := by
      rw [Entries.mapValues_mapValues, Entries.mapValues_mapValues, h]
    _ = (bagsToJson bags).unsigned := by rw [← Json.unsignedEntries_eq]; rfl

end Bag

namespace StyleTree

def unsigned (t : StyleTree) : StyleTree := t.mapBags Bag.unsigned

theorem identical_iff (s t : StyleTree) : s.identical t = true ↔ s.unsigned = t.unsigned := by
  rw [identical, Entries.identicalBy_iff (Entries.identicalBy_iff Bag.identical_iff)]
  exact ⟨congrArg StyleTree.mk, fun h => (StyleTree.mk.injEq _ _).mp h⟩

theorem toJson_unsigned (t : StyleTree) : t.unsigned.toJson = t.toJson.unsigned := by
  have h : (fun bags => bagsToJson (Entries.mapValues Bag.unsigned bags)) =
      fun bags => (bagsToJson bags).unsigned := funext Bag.bagsToJson_unsigned
  calc t.unsigned.toJson
      = .object (Entries.mapValues bagsToJson
          (Entries.mapValues (Entries.mapValues Bag.unsigned) t.visuals)) := rfl
    _ = .object (Entries.mapValues Json.unsigned (Entries.mapValues bagsToJson t.visuals)) := by
      rw [Entries.mapValues_mapValues, Entries.mapValues_mapValues, h]
    _ = t.toJson.unsigned := by rw [← Json.unsignedEntries_eq]; rfl

/-- Trees that agree up to signs of zero are the same if their bags, all changed alike, show it. -/
theorem eq_of_mapBags {f : Bag → Bag}
    (hf : ∀ a b : Bag, a.unsigned = b.unsigned → (f a).toJson = (f b).toJson → a = b)
    {s t : StyleTree} (h : s.unsigned = t.unsigned)
    (hj : (s.mapBags f).toJson = (t.mapBags f).toJson) : s = t := by
  have hvisuals := (StyleTree.mk.injEq _ _).mp h
  have hjson : Entries.mapValues bagsToJson (Entries.mapValues (Entries.mapValues f) s.visuals) =
      Entries.mapValues bagsToJson (Entries.mapValues (Entries.mapValues f) t.visuals) :=
    Json.object.inj hj
  rw [Entries.mapValues_mapValues, Entries.mapValues_mapValues] at hjson
  refine congrArg StyleTree.mk (Entries.eq_of_mapValues (fun a b hab hj => ?_) hvisuals hjson)
  have hbags : Entries.mapValues Bag.toJson (Entries.mapValues f a) =
      Entries.mapValues Bag.toJson (Entries.mapValues f b) := Json.object.inj hj
  rw [Entries.mapValues_mapValues, Entries.mapValues_mapValues] at hbags
  exact Entries.eq_of_mapValues hf hab hbags

end StyleTree

end ReportTheme
