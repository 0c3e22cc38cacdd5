import ReportTheme.Editor
import ReportTheme.Proofs.Document
import ReportTheme.Proofs.Style.Bags
import ReportTheme.Proofs.Style.Merge

/-!
Previewing a variant as the default of its visual type. Tokens may be resolved before or after the
variant is laid over the default: either way the preview shows the same bag, and everything else as
the document of the theme does.
-/
namespace ReportTheme

namespace Source

theorem keepsGroups_value (s : Source) : Value.KeepsGroups s.value where
  group es := by rw [value, valueEntries_eq]
  other {v} h := by
    cases v with
    | color c => cases c <;> rfl
    | group es => cases h
    | list vs => rfl
    | _ => rfl

theorem bag_merge (s : Source) (base overlay : Bag) :
    s.bag (base.merge overlay) = (s.bag base).merge (s.bag overlay) := by
  rw [bag, bag, bag, valueEntries_eq, valueEntries_eq, valueEntries_eq,
    Bag.map_merge s.keepsGroups_value]

/-- A bag of a document is the compiled bag of its source. -/
theorem bag?_compile {s : Source} (h : s.styles.Distinct) (visual variant : String) :
    s.compile.styles.bag? visual variant = (s.styles.bag? visual variant).map s.bag := by
  rw [styles_compile, StyleTree.bag?_mapBags, StyleTree.ofBags_bags h, StyleTree.bag?_populated h]

theorem getD_bag?_compile {s : Source} (h : s.styles.Distinct) (visual variant : String) :
    (s.compile.styles.bag? visual variant).getD [] =
      s.bag ((s.styles.bag? visual variant).getD []) := by
  rw [bag?_compile h]
  cases s.styles.bag? visual variant <;> rfl

end Source

namespace Editor

/-- In the preview of a variant the default of its visual type is the compiled variant laid over the
compiled default. All other bags, colors and text classes are those of the document. -/
theorem previewVariant_merges {e : Editor} (h : e.theme.styles.Keyed) (store : PaletteStore)
    (visual variant : String) :
    (e.previewVariant store visual variant).styles.bag? visual defaultVariant =
        some ((((e.source store).compile.styles.bag? visual defaultVariant).getD []).merge
          (((e.source store).compile.styles.bag? visual variant).getD [])) ∧
      (∀ v w, ¬(v = visual ∧ w = defaultVariant) →
        (e.previewVariant store visual variant).styles.bag? v w =
          (e.source store).compile.styles.bag? v w) ∧
      (e.previewVariant store visual variant).structuralColors =
        (e.source store).compile.structuralColors ∧
      (e.previewVariant store visual variant).textClasses =
        (e.source store).compile.textClasses ∧
      (e.previewVariant store visual variant).dataColors =
        (e.source store).compile.dataColors ∧
      (e.previewVariant store visual variant).name = (e.source store).compile.name := by
  let s := e.source store
  let bag := s.styles.effective visual variant
  let projected : Source := { s with styles := s.styles.setBag visual defaultVariant bag }
  have hs : s.styles.Distinct := StyleTree.Keyed.distinct h
  have hprojected : projected.styles.Distinct := hs.modify visual defaultVariant _
  -- The colors of tokens do not depend on the styles, so both sources compile bags alike.
  have hresolve : ∀ reference, projected.resolve reference = s.resolve reference := fun _ => rfl
  have hvalue : projected.value = s.value := funext (Source.value_congr hresolve)
  have hbag : projected.bag = s.bag := funext (Source.valueEntries_congr hresolve)
  have hclass : projected.textClass = s.textClass := funext (Source.textClass_congr hresolve rfl)
  refine ⟨?_, fun v w hvw => ?_, ?_, ?_, rfl, rfl⟩
  · calc projected.compile.styles.bag? visual defaultVariant
        = (projected.styles.bag? visual defaultVariant).map s.bag := by
          rw [Source.bag?_compile hprojected, hbag]
      _ = some (s.bag bag) :=
        congrArg (Option.map s.bag) (s.styles.bag?_modify_self visual defaultVariant _)
      _ = some ((s.bag ((s.styles.bag? visual defaultVariant).getD [])).merge
            (s.bag ((s.styles.bag? visual variant).getD []))) := by
        rw [← Source.bag_merge]
        exact congrArg (fun b => some (s.bag b)) (StyleTree.effective_eq ⟨_, h⟩ visual variant)
      _ = _ := by rw [← Source.getD_bag?_compile hs, ← Source.getD_bag?_compile hs]
  · have hne : ¬(visual = v ∧ defaultVariant = w) := fun hw => hvw ⟨hw.1.symm, hw.2.symm⟩
    calc projected.compile.styles.bag? v w
        = (projected.styles.bag? v w).map s.bag := by
          rw [Source.bag?_compile hprojected, hbag]
      _ = (s.styles.bag? v w).map s.bag :=
        congrArg (Option.map s.bag) (StyleTree.bag?_modify_of_ne _ hne)
      _ = s.compile.styles.bag? v w := (Source.bag?_compile hs v w).symm
  · exact congrArg (fun f => Entries.mapValues f s.freeColors) hvalue
  · exact congrArg (fun f => Entries.mapValues f s.textClasses) hclass

/-- A default with a token in a group, and a variant that changes another key of the group and puts
a list in the place of a number. -/
def cardStyles : StyleTree :=
  ⟨[("card", [("*", [("title", .group [("color", .color (.ofToken .accent)), ("show", .bool true)]),
      ("padding", whole 8)]),
    ("compact", [("title", .group [("show", .bool false), ("wrap", .bool true)]),
      ("padding", .list [.color (.ofToken .accentSecondary)])])])]⟩

theorem previewVariant_cardStyles :
    cardStyles.Keyed ∧
    ((new { Theme.new "id" "name" with styles := cardStyles }).previewVariant .builtIn "card"
      "compact").styles.bag? "card" defaultVariant =
        some [("title", .group [("color", .color (.hex "#118DFF")), ("show", .bool false),
          ("wrap", .bool true)]), ("padding", .list [.color (.hex "#12239E")])] :=
  have h : cardStyles.Keyed := by decide
  ⟨h, (previewVariant_merges (e := new { Theme.new "id" "name" with styles := cardStyles }) h
    .builtIn "card" "compact").1⟩

end Editor

end ReportTheme
