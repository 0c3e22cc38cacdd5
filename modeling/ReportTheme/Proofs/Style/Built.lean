import ReportTheme.Proofs.Preset.Detect
import ReportTheme.Proofs.Style.Reread

/-!
The style trees that can be made at all: read from JSON or put together from bags, then changed in
any order. Changes only ever make a bag or remove one, and what both keep holds of every tree: none
has a visual type without variants, so a tree is told by the list of its bags.
-/
namespace ReportTheme.StyleTree

/-- Trees that come of the ways to make a tree and to change it. A bag is modified in any way that
there is, writing a field of it among them. -/
inductive Built : StyleTree → Prop
  | empty : Built empty
  | ofJson {j : Json} : j.keyed = true → Built (ofJson j)
  | ofBags (bags : List (String × String × Bag)) : Built (ofBags bags)
  | modify {t : StyleTree} (visual variant : String) (f : Bag → Bag) :
      Built t → Built (t.modify visual variant f)
  | setBag {t : StyleTree} (visual variant : String) (bag : Bag) :
      Built t → Built (t.setBag visual variant bag)
  | setPath {t : StyleTree} (visual variant : String) (path : List String) (v : Value) :
      Built t → Built (t.setPath visual variant path v).2
  | removeBag {t : StyleTree} (visual variant : String) :
      Built t → Built (t.removeBag visual variant)
  | applyChoice {t : StyleTree} (c : Choice) : Built t → Built (t.applyChoice c).1

/-- Every change of a tree comes down to modifying bags and removing them. -/
theorem Built.invariant {P : StyleTree → Prop} (hempty : P .empty)
    (hjson : ∀ j : Json, j.keyed = true → P (.ofJson j))
    (hmodify : ∀ t visual variant f, P t → P (t.modify visual variant f))
    (hremove : ∀ t visual variant, P t → P (t.removeBag visual variant)) {t : StyleTree}
    (h : t.Built) : P t := by
  induction h with
  | empty => exact hempty
  | ofJson hj => exact hjson _ hj
  | ofBags bags => exact List.foldlRecOn bags _ hempty fun t ht b _ => hmodify t b.1 b.2.1 _ ht
  | modify visual variant f _ ih => exact hmodify _ visual variant f ih
  | setBag visual variant bag _ ih => exact hmodify _ visual variant (fun _ => bag) ih
  | @setPath t visual variant path v _ ih =>
    exact hmodify _ visual variant
      (fun _ => (Bag.setPath ((t.bag? visual variant).getD []) path v).2) ih
  | removeBag visual variant _ ih => exact hremove _ visual variant ih
  | @applyChoice t c _ ih =>
    rw [applyChoice_eq_applyWrites]
    exact List.foldlRecOn (t.applyChoice c).2 _ ih fun u hu w _ =>
      hmodify u w.visual defaultVariant _ hu

theorem Distinct.removeBag {t : StyleTree} (h : t.Distinct) (visual variant : String) :
    (t.removeBag visual variant).Distinct := by
  unfold StyleTree.removeBag
  split
  · exact h
  · rename_i variants hv
    have hleft := Entries.distinct_erase (Entries.Keyed.get? h hv) variant
    dsimp only
    split
    · exact Entries.Keyed.erase h visual
    · exact Entries.Keyed.insert h visual hleft

theorem distinct_ofJson {j : Json} (h : j.keyed = true) : (ofJson j).Distinct := by
  rw [ofJson_eq]
  exact (distinct_ofMembers h).filter _

theorem Built.distinct {t : StyleTree} (h : t.Built) : t.Distinct :=
  h.invariant (Entries.keyed_nil _) (fun _ => distinct_ofJson)
    (fun _ visual variant f ht => ht.modify visual variant f)
    fun _ visual variant ht => ht.removeBag visual variant

theorem Built.populated {t : StyleTree} (h : t.Built) : t.Populated :=
  h.invariant populated_empty (fun j _ => populated_ofJson j)
    (fun _ visual variant f ht => ht.modify visual variant f)
    fun _ visual variant ht => ht.removeBag visual variant

/-- The visual types with the names of their variants, in order. -/
def outline (t : StyleTree) : List (String × List String) :=
  Entries.mapValues Entries.keys t.visuals

theorem outline_mapBags (f : Bag → Bag) (t : StyleTree) : (t.mapBags f).outline = t.outline := by
  simp only [outline, mapBags, Entries.mapValues_mapValues, Entries.keys_mapValues]

theorem Populated.isEmpty_iff {t : StyleTree} (h : t.Populated) :
    t.isEmpty = true ↔ ∀ visual variant, t.bag? visual variant = none := by
  obtain ⟨visuals⟩ := t
  rw [isEmpty, List.isEmpty_iff]
  constructor
  · rintro rfl visual variant
    rfl
  · intro hnone
    rcases visuals with _ | ⟨⟨visual, _ | ⟨⟨variant, bag⟩, variants⟩⟩, visuals⟩
    · rfl
    · exact absurd rfl (h (visual, []) (by simp))
    · have hbag := hnone visual variant
      simp [bag?, Entries.get?] at hbag

/-- However a tree was made, each of its visual types has a variant. So a tree is empty just if it
has no bag at all, it is put together again from its bags as it was, and read from its own JSON it
has the same visual types and variants, all in the same order. -/
theorem Built.holds_variants {t : StyleTree} (h : t.Built) :
    (∀ v ∈ t.visuals, v.2 ≠ []) ∧
    (t.isEmpty = true ↔ ∀ visual variant, t.bag? visual variant = none) ∧
    StyleTree.ofBags t.bags = t ∧ (StyleTree.ofJson t.toJson).outline = t.outline := by
  refine ⟨h.populated, h.populated.isEmpty_iff, ?_, ?_⟩
  · rw [ofBags_bags h.distinct, h.populated.populated_eq]
  · rw [ofJson_toJson h.populated, outline_mapBags]

/-- A visual type without a readable variant, one whose only variant is removed, and one of which a
variant is removed that was never there. -/
def mixed : Json :=
  .object [("gauge", .object [("*", .bool true)]), ("slicer", .object [("*", .object [])]),
    ("card", .object [("compact", .object [("show", .bool true)]), ("*", .object [])])]

def remodelled : StyleTree :=
  ((((ofJson mixed).removeBag "slicer" "*").removeBag "card" "wide").applyChoice (.radius .small)).1

theorem remodelled_holds_variants :
    remodelled.Built ∧ (∀ v ∈ remodelled.visuals, v.2 ≠ []) ∧
    StyleTree.ofBags remodelled.bags = remodelled ∧
    (StyleTree.ofJson remodelled.toJson).outline = [("card", ["compact", "*"]), ("*", ["*"])] := by
  have hbuilt : remodelled.Built :=
    ((Built.ofJson (j := mixed) (by decide)).removeBag "slicer" "*").removeBag "card" "wide"
      |>.applyChoice (.radius .small)
  obtain ⟨hvariants, -, hbags, houtline⟩ := hbuilt.holds_variants
  have hremodelled : remodelled.outline = [("card", ["compact", "*"]), ("*", ["*"])] := by decide
  exact ⟨hbuilt, hvariants, hbags, houtline.trans hremodelled⟩

end ReportTheme.StyleTree
