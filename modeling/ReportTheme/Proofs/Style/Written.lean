import Mathlib.Data.List.Forall2
import ReportTheme.Proofs.Style.Unsigned

/-!
The JSON of a style value, said without the writer: a color is the string of its literal, or the
object that refers to a data color of the surface, lists and groups are written entry by entry, and
all else stands for itself. Bags, variants and visual types are objects of such objects.
-/
namespace ReportTheme

/-- An object with one entry for each entry of a map, in the same order and under the same key. -/
def Entries.WrittenBy {α : Type} (W : α → Json → Prop) (es : Entries α) (j : Json) : Prop :=
  ∃ fs, j = .object fs ∧ Aligned W es fs

inductive Value.Written : Value → Json → Prop
  | null : Written .null .null
  | bool (b : Bool) : Written (.bool b) (.bool b)
  | number (n : Number) : Written (.number n) (.number n)
  | text (s : String) : Written (.text s) (.string s)
  | token (reference : String) : Written (.color (.token reference)) (.string reference)
  | hex (literal : String) : Written (.color (.hex literal)) (.string literal)
  | themeData (index : UInt64) (percent : Number)
      (fits : -9223372036854775808 ≤ (index.toNat : Int) ∧
        (index.toNat : Int) < 18446744073709551616) :
      Written (.color (.themeData index percent))
        (.object [("expr", .object [("ThemeDataColor", .object
          [("ColorId", .number (.integer index.toNat fits)), ("Percent", .number percent)])])])
  | list {vs : List Value} {js : List Json} :
      List.Forall₂ Written vs js → Written (.list vs) (.list js)
  | group {es : List (String × Value)} {fs : List (String × Json)} :
      Entries.Aligned Written es fs → Written (.group es) (.object fs)

def Bag.Written (b : Bag) (j : Json) : Prop := Entries.WrittenBy Value.Written b j

/-- Bags under their names. -/
def Bag.AllWritten (bags : Entries Bag) (j : Json) : Prop := Entries.WrittenBy Bag.Written bags j

def StyleTree.Written (t : StyleTree) (j : Json) : Prop :=
  Entries.WrittenBy Bag.AllWritten t.visuals j

theorem Entries.writtenBy_iff {α : Type} {W : α → Json → Prop} {f : α → Json}
    (h : ∀ v j, W v j ↔ j = f v) (es : Entries α) (j : Json) :
    WrittenBy W es j ↔ j = .object (mapValues f es) := by
  simp only [WrittenBy, aligned_iff h, exists_eq_right]

namespace Value

theorem written_color (c : Color) : Written (.color c) c.toJson := by
  cases c with
  | token reference => exact .token reference
  | hex literal => exact .hex literal
  | themeData index percent => exact .themeData index percent _

mutual

theorem written_toJson : (v : Value) → Written v v.toJson
  | .color c => written_color c
  | .number n => .number n
  | .bool b => .bool b
  | .text s => .text s
  | .list vs => .list (written_toItems vs)
  | .group es => .group (written_toEntries es)
  | .null => .null

theorem written_toItems : (vs : List Value) → List.Forall₂ Written vs (toItems vs)
  | [] => .nil
  | v :: vs => .cons (written_toJson v) (written_toItems vs)

theorem written_toEntries : (es : List (String × Value)) →
    Entries.Aligned Written es (toEntries es)
  | [] => .nil
  | (_, v) :: es => .cons (written_toJson v) (written_toEntries es)

end

mutual

theorem eq_toJson_of_written : (v : Value) → {j : Json} → Written v j → j = v.toJson
  | .color _, _, h => by cases h <;> rfl
  | .list vs, _, .list h => congrArg Json.list (eq_toItems_of_written vs h)
  | .group es, _, .group h => congrArg Json.object (eq_toEntries_of_written es h)
  | .number _, _, .number _ | .bool _, _, .bool _ | .text _, _, .text _ | .null, _, .null => rfl

theorem eq_toItems_of_written : (vs : List Value) → {js : List Json} →
    List.Forall₂ Written vs js → js = toItems vs
  | [], _, .nil => rfl
  | v :: vs, _, .cons h hs => by
    rw [toItems, ← eq_toJson_of_written v h, ← eq_toItems_of_written vs hs]

theorem eq_toEntries_of_written : (es : List (String × Value)) → {fs : List (String × Json)} →
    Entries.Aligned Written es fs → fs = toEntries es
  | [], _, .nil => rfl
  | (_, v) :: es, _, .cons h hs => by
    rw [toEntries, ← eq_toJson_of_written v h, ← eq_toEntries_of_written es hs]

end

/-- A value is written in one way. -/
theorem written_iff (v : Value) (j : Json) : Written v j ↔ j = v.toJson := by
  constructor
  · exact eq_toJson_of_written v
  · rintro rfl
    exact written_toJson v

end Value

theorem Bag.written_iff (b : Bag) (j : Json) : b.Written j ↔ j = b.toJson := by
  rw [Bag.Written, Entries.writtenBy_iff Value.written_iff, Bag.toJson, Value.toEntries_eq]

theorem Bag.allWritten_iff (bags : Entries Bag) (j : Json) :
    Bag.AllWritten bags j ↔ j = bagsToJson bags := Entries.writtenBy_iff Bag.written_iff bags j

theorem StyleTree.written_iff (t : StyleTree) (j : Json) : t.Written j ↔ j = t.toJson :=
  Entries.writtenBy_iff Bag.allWritten_iff t.visuals j

end ReportTheme
