import ReportTheme.Proofs.Style.Reference
import ReportTheme.Proofs.Theme

/-!
Loading brings a theme into a normal form, and once is enough: the themes that can be loaded are
those in normal form, and each of them is what is loaded from its own JSON.
-/
namespace ReportTheme.Theme

/-- No key stands twice, every string is of the kind that its form stands for, no group has the form
of a data color reference, and every visual type has a variant. -/
structure Normal (t : Theme) : Prop where
  readable : t.Holds Value.Readable
  plain : t.Holds fun v => v.plain = true
  populated : t.styles.Populated

theorem Loaded.normal {t : Theme} (h : t.Loaded) : t.Normal :=
  ⟨h.readable.1, (h.holds fun j _ => Value.plain_ofJson j).1, h.readable.2⟩

section
variable {t : Theme}

theorem Normal.keyed (h : t.Normal) : t.Holds fun v => v.keyed = true :=
  h.readable.mono fun _ hv => hv.keyed

theorem Normal.ofJson?_toJson (h : t.Normal) : ofJson? t.toJson = some t := by
  rw [ofJson?_eq_some_iff, decode_toJson h.keyed h.populated, reread_eq_self h.readable h.plain]

theorem Normal.ofText_text (h : t.Normal) (hdepth : t.toJson.depth ≤ Reading.depthLimit)
    (hnumbers : t.toJson.legible = true) : ofText t.text = .ok t := by
  rw [Theme.ofText_text h.keyed h.populated hdepth hnumbers, reread_eq_self h.readable h.plain]

theorem Normal.equal_refl (h : t.Normal) : t.equal t = true := by
  have hequal := (equal_reread_iff h.readable).mpr h.plain
  rwa [reread_eq_self h.readable h.plain] at hequal

/-- Loading normalises once. The themes that some JSON value is loaded as are those in normal form.
What a theme that was loaded, from a value or from a text, is saved as is loaded as an equal theme,
every key in its place, which is saved as the same JSON; through a text this is so within the limits
of what is read back. -/
theorem loading_settles (t : Theme) :
    ((∃ j, ofJson? j = some t) ↔ t.Normal) ∧
    ((∃ j, ofJson? j = some t) ∨ (∃ text, ofText text = .ok t) →
      (∃ u, ofJson? t.toJson = some u ∧ u.equal t = true ∧ u = t ∧ u.toJson = t.toJson) ∧
      (t.toJson.depth ≤ Reading.depthLimit → t.toJson.legible = true → ofText t.text = .ok t)) := by
  constructor
  · constructor
    · rintro ⟨j, hj⟩
      exact (loaded_of_ofJson? hj).normal
    · intro h
      exact ⟨t.toJson, h.ofJson?_toJson⟩
  · intro hloaded
    have h : t.Normal := by
      rcases hloaded with ⟨j, hj⟩ | ⟨text, htext⟩
      · exact (loaded_of_ofJson? hj).normal
      · exact (loaded_of_ofText htext).normal
    exact ⟨⟨t, h.ofJson?_toJson, h.equal_refl, rfl, rfl⟩, h.ofText_text⟩

end

/-- The theme record as a list that leaves out the selection. The mode is an object; a visual type,
one of its variants and a text class are malformed, and a data color names its shade first. -/
def listed : Json :=
  .list [.string "t1", .string "Draft", .object [("dark", .null)], .string "default",
    .string "neutral-gray", .string "Segoe UI",
    .object [
      ("lineChart", .string "nope"),
      ("gauge", .object [("*", .bool true)]),
      ("card", .object [("compact", .null), ("*", .object [("fill", .object [("expr", .object
        [("ThemeDataColor", .object [("Percent", .number (.integer 40 (by decide))),
          ("ColorId", .number (.integer 5 (by decide)))])])])])])],
    .object [("background", .string "#FFF")],
    .object [("title", .null), ("label", .object [("bold", .bool true)])]]

def draft : Theme :=
  { Theme.new "t1" "Draft" with
    mode := .dark
    styles := ⟨[("card", [("*", [("fill", .color (.themeData 5 (.integer 40 (by decide))))])])]⟩
    structuralColors := [("background", .color (.hex "#FFF"))]
    textClasses := [("label", [("bold", .bool true)])] }

theorem loading_settles_listed :
    ofJson? listed = some draft ∧ draft.Normal ∧ ofJson? draft.toJson = some draft ∧
    ofText draft.text = .ok draft := by
  have hlisted : ofJson? listed = some draft := rfl
  obtain ⟨hnormal, hsettles⟩ := loading_settles draft
  obtain ⟨⟨u, hu, -, rfl, -⟩, htext⟩ := hsettles (Or.inl ⟨listed, hlisted⟩)
  exact ⟨hlisted, hnormal.mp ⟨listed, hlisted⟩, hu, htext (by decide) (by decide)⟩

end ReportTheme.Theme
