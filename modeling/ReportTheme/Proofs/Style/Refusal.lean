import ReportTheme.Proofs.Style.Parting

/-!
Writes that are refused. A list takes a write only where it has an item already, so a path is
refused if it leads into a list by anything but the index of an item, and for no other reason but
that it is empty. The list stood there before the write, with all that leads to it; so the bag is as
it was.
-/
namespace ReportTheme

namespace Value

/-- A list has no child where a segment is the index of none of its items. -/
theorem child?_list_eq_none_iff (items : List Value) (segment : String) :
    (Value.list items).child? segment = none ↔
      ¬∃ i < items.length, listIndex? segment = some i := by
  cases hi : listIndex? segment with
  | none => simp [child?, hi]
  | some i => simp [child?, hi]

end Value

namespace Bag

/-- The list that refuses a path is read at a part of the path that is not empty. -/
theorem refuses_iff (b : Bag) (path : List String) :
    b.Refuses path ↔ path = [] ∨ ∃ before segment after items,
      path = before ++ segment :: after ∧ before ≠ [] ∧ b.getPath? before = some (.list items) ∧
        ¬∃ i < items.length, listIndex? segment = some i := by
  refine or_congr_right ⟨?_, ?_⟩
  · rintro ⟨before, segment, after, items, hpath, hlist, hnone⟩
    have hbefore : before ≠ [] := by
      rintro rfl
      cases hlist
    exact ⟨before, segment, after, items, hpath, hbefore, (getPath?_eq hbefore).trans hlist,
      (Value.child?_list_eq_none_iff items segment).mp hnone⟩
  · rintro ⟨before, segment, after, items, hpath, hbefore, hlist, hnone⟩
    exact ⟨before, segment, after, items, hpath, (getPath?_eq hbefore).symm.trans hlist,
      (Value.child?_list_eq_none_iff items segment).mpr hnone⟩

/-- A write is not done at a path that is refused. -/
theorem not_refuses_of_done {b : Bag} {path : List String} {v : Value}
    (h : (b.setPath path v).1 = .ok ()) : ¬b.Refuses path := by
  rintro (rfl | hmisses)
  · cases h
  · have hrefused := (Value.write_refused_iff v (.group b) path).mpr hmisses
    rw [write_group h] at hrefused
    cases hrefused

/-- A write fails exactly if its path is empty or reads as a list before a segment that is not the
index of an item. The error shows all segments with dots between them, and nothing has changed. -/
theorem setPath_eq_error_iff (b : Bag) (path : List String) (v : Value) (e : Error) (left : Bag) :
    b.setPath path v = (.error e, left) ↔
      (path = [] ∨ ∃ before segment after items,
        path = before ++ segment :: after ∧ before ≠ [] ∧ b.getPath? before = some (.list items) ∧
          ¬∃ i < items.length, listIndex? segment = some i) ∧
      e = .invalidPath path ∧
      e.message? = some ("invalid property path: " ++ ".".intercalate path) ∧
      left = b := by
  rw [← refuses_iff]
  constructor
  · intro h
    rcases setPath_cases b path v with ⟨hpath, hrefused⟩ | ⟨hdone, -⟩
    · obtain ⟨he, rfl⟩ := Prod.mk.inj (h.symm.trans hrefused)
      obtain rfl := Except.error.inj he
      exact ⟨hpath, rfl, rfl, rfl⟩
    · rw [h] at hdone
      cases hdone
  · rintro ⟨hpath, rfl, -, rfl⟩
    rcases setPath_cases left path v with ⟨-, hrefused⟩ | ⟨hdone, -⟩
    · exact hrefused
    · exact absurd hpath (not_refuses_of_done hdone)

/-- There are two borders, and neither a third one is made nor the title touched. -/
example : borderedBag.setPath ["border", "2", "color"] .null =
    (.error (.invalidPath ["border", "2", "color"]), borderedBag) := rfl

end Bag

end ReportTheme
