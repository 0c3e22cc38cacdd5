import ReportTheme.Proofs.Preset.Detect

/-!
A preset does what it reports and no more. A hidden border that moves is written after the
background and from what the background is then, but all writes go to places of their own, so that
each is read in the end; they reshape the properties they name, up to the first entry, and reach no
other.
-/
namespace ReportTheme

namespace StyleTree

/-- After a choice every write that was reported is read at its place, every property that none of
them names is as it was, and of a list that one of them names all entries after the first are kept.
-/
theorem applyChoice_frame (t : StyleTree) (c : Choice) :
    (∀ w ∈ (t.applyChoice c).2,
      ((t.applyChoice c).1.defaultBag? w.visual).bind (·.field? w.property w.field) =
        some w.value) ∧
    (∀ visual variant property,
      (∀ w ∈ (t.applyChoice c).2,
        ¬(w.visual = visual ∧ defaultVariant = variant ∧ w.property = property)) →
      (t.applyChoice c).1.property? visual variant property =
        t.property? visual variant property) ∧
    (∀ w ∈ (t.applyChoice c).2, ∀ items,
      t.property? w.visual defaultVariant w.property = some (.list items) →
      ∃ entry, (t.applyChoice c).1.property? w.visual defaultVariant w.property =
        some (.list (.group entry :: items.tail))) := by
  have hlanded := t.landed_reported c
  refine ⟨fun w hw => (hlanded w hw).valueAt?, ?_, ?_⟩
  · intro visual variant property h
    rw [applyChoice_eq_applyWrites]
    exact property?_applyWrites h
  · intro w hw items hitems
    obtain ⟨entry, hentry, -⟩ := hlanded w hw
    have hlater : (t.applyChoice c).1.laterItems w.visual w.property = items.tail := by
      rw [applyChoice_eq_applyWrites, laterItems_applyWrites, laterItems, hitems]
      cases items <;> rfl
    exact ⟨entry, by rw [property?_of_firstGroup? hentry, hlater]⟩

/-- A hidden border with a second entry, and a title. -/
def notedStyles : StyleTree :=
  empty.setBag globalVisual defaultVariant
    [("border", .list [.group [("show", .bool true), ("width", whole 1), ("color", fill .surface)],
      .text "note"]), ("title", .bool true)]

/-- The border moves with the background: it is read where it was reported, and keeps its second
entry; the title is not touched. -/
theorem applyChoice_frame_noted :
    (⟨globalVisual, "border", "color", fill .surface⟩ : Write) ∈
      (notedStyles.applyChoice (.background .tinted)).2 ∧
    ((notedStyles.applyChoice (.background .tinted)).1.defaultBag? globalVisual).bind
      (·.field? "border" "color") = some (fill .surface) ∧
    (∀ w ∈ (notedStyles.applyChoice (.background .tinted)).2,
      ¬(w.visual = globalVisual ∧ defaultVariant = defaultVariant ∧ w.property = "title")) ∧
    (notedStyles.applyChoice (.background .tinted)).1.property? globalVisual defaultVariant
      "title" = notedStyles.property? globalVisual defaultVariant "title" ∧
    ∃ entry, (notedStyles.applyChoice (.background .tinted)).1.property? globalVisual defaultVariant
      "border" = some (.list [.group entry, .text "note"]) := by
  obtain ⟨hread, hkept, htail⟩ := applyChoice_frame notedStyles (.background .tinted)
  have hmem : (⟨globalVisual, "border", "color", fill .surface⟩ : Write) ∈
      (notedStyles.applyChoice (.background .tinted)).2 := List.mem_of_getElem? (i := 7) rfl
  have htitle : ∀ w ∈ (notedStyles.applyChoice (.background .tinted)).2,
      ¬(w.visual = globalVisual ∧ defaultVariant = defaultVariant ∧ w.property = "title") := by
    decide
  exact ⟨hmem, hread _ hmem, htitle, hkept _ _ _ htitle, htail _ hmem _ rfl⟩

end StyleTree

end ReportTheme
