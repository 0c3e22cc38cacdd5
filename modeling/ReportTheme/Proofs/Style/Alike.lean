import Mathlib.Data.List.Forall2
import ReportTheme.Proofs.Style.Unsigned

/-!
Values, bags and style trees that are equal with their keys in the same order, said leaf by leaf.
Like the equality of values this leaves out the sign of a zero, and nothing else.
-/
namespace ReportTheme

/-- Equal values in which the keys of every group stand in the same order. -/
inductive Value.Alike : Value → Value → Prop
  | color {c d : Color} : c.equal d = true → Alike (.color c) (.color d)
  | number {m n : Number} : m.equal n = true → Alike (.number m) (.number n)
  | bool (b : Bool) : Alike (.bool b) (.bool b)
  | text (s : String) : Alike (.text s) (.text s)
  | null : Alike .null .null
  | list {vs ws : List Value} : List.Forall₂ Alike vs ws → Alike (.list vs) (.list ws)
  | group {a b : List (String × Value)} : Entries.Aligned Alike a b → Alike (.group a) (.group b)

abbrev Bag.Alike (a b : Bag) : Prop := Entries.Aligned Value.Alike a b

/-- The same visual types and variants in the same order, with bags that are alike. -/
abbrev StyleTree.Alike (s t : StyleTree) : Prop :=
  Entries.Aligned (Entries.Aligned Bag.Alike) s.visuals t.visuals

namespace Value

mutual

theorem unsigned_of_alike : (v : Value) → {w : Value} → Alike v w → v.unsigned = w.unsigned
  | .color c, _, .color h => congrArg Value.color ((c.equal_iff _).mp h)
  | .number m, _, .number h => congrArg Value.number ((m.equal_iff _).mp h)
  | .bool _, _, .bool _ => rfl
  | .text _, _, .text _ => rfl
  | .null, _, .null => rfl
  | .list vs, _, .list h => congrArg Value.list (unsignedItems_of_alike vs h)
  | .group a, _, .group h => congrArg Value.group (unsignedEntries_of_alike a h)

theorem unsignedItems_of_alike : (vs : List Value) → {ws : List Value} →
    List.Forall₂ Alike vs ws → unsignedItems vs = unsignedItems ws
  | [], _, .nil => rfl
  | v :: vs, _, .cons h hs => by
    rw [unsignedItems, unsigned_of_alike v h, unsignedItems_of_alike vs hs, unsignedItems]

theorem unsignedEntries_of_alike : (a : List (String × Value)) → {b : List (String × Value)} →
    Entries.Aligned Alike a b → unsignedEntries a = unsignedEntries b
  | [], _, .nil => rfl
  | (_, v) :: a, _, .cons h hs => by
    rw [unsignedEntries, unsigned_of_alike v h, unsignedEntries_of_alike a hs, unsignedEntries]

end

mutual

theorem alike_of_unsigned : (v w : Value) → v.unsigned = w.unsigned → Alike v w
  | .color c, w, h => by
    cases w <;> simp only [unsigned, reduceCtorEq, Value.color.injEq] at h
    exact .color ((c.equal_iff _).mpr h)
  | .number m, w, h => by
    cases w <;> simp only [unsigned, reduceCtorEq, Value.number.injEq] at h
    exact .number ((m.equal_iff _).mpr h)
  | .bool b, w, h => by
    cases w <;> simp only [unsigned, reduceCtorEq, Value.bool.injEq] at h
    exact h ▸ .bool b
  | .text s, w, h => by
    cases w <;> simp only [unsigned, reduceCtorEq, Value.text.injEq] at h
    exact h ▸ .text s
  | .null, w, h => by
    cases w <;> simp only [unsigned, reduceCtorEq] at h
    exact .null
  | .list vs, w, h => by
    cases w <;> simp only [unsigned, reduceCtorEq, Value.list.injEq] at h
    exact .list (alike_of_unsignedItems vs _ h)
  | .group a, w, h => by
    cases w <;> simp only [unsigned, reduceCtorEq, Value.group.injEq] at h
    exact .group (alike_of_unsignedEntries a _ h)

theorem alike_of_unsignedItems : (vs ws : List Value) → unsignedItems vs = unsignedItems ws →
    List.Forall₂ Alike vs ws
  | [], ws, h => by
    cases ws with
    | nil => exact .nil
    | cons w ws => simp [unsignedItems] at h
  | v :: vs, [], h => by simp [unsignedItems] at h
  | v :: vs, w :: ws, h => by
    simp only [unsignedItems, List.cons.injEq] at h
    exact .cons (alike_of_unsigned v w h.1) (alike_of_unsignedItems vs ws h.2)

theorem alike_of_unsignedEntries : (a b : List (String × Value)) →
    unsignedEntries a = unsignedEntries b → Entries.Aligned Alike a b
  | [], b, h => by
    cases b with
    | nil => exact .nil
    | cons e b => simp [unsignedEntries] at h
  | e :: a, [], h => by simp [unsignedEntries] at h
  | (k, v) :: a, (l, w) :: b, h => by
    simp only [unsignedEntries, List.cons.injEq, Prod.mk.injEq] at h
    obtain ⟨⟨rfl, hvw⟩, hrest⟩ := h
    exact .cons (alike_of_unsigned v w hvw) (alike_of_unsignedEntries a b hrest)

end

end Value

theorem Bag.alike_iff (a b : Bag) : a.Alike b ↔ a.unsigned = b.unsigned :=
  ⟨Value.unsignedEntries_of_alike a, Value.alike_of_unsignedEntries a b⟩

theorem Bag.aligned_alike_iff (a b : Entries Bag) :
    Entries.Aligned Bag.Alike a b ↔
      Entries.mapValues Bag.unsigned a = Entries.mapValues Bag.unsigned b :=
  Entries.aligned_iff_mapValues Bag.alike_iff

theorem StyleTree.alike_iff (s t : StyleTree) : s.Alike t ↔ s.unsigned = t.unsigned :=
  (Entries.aligned_iff_mapValues Bag.aligned_alike_iff).trans
    ⟨congrArg StyleTree.mk, fun h => (StyleTree.mk.injEq _ _).mp h⟩

end ReportTheme
