import ReportTheme.Proofs.Preset.Detect
import ReportTheme.Proofs.Style.Unordered

/-!
The order of keys has no meaning. Trees that are equal when it is ignored match the same choices,
are changed alike by every choice, and show equal bags under every visual type and variant.
-/
namespace ReportTheme

namespace Value

theorem withField_leaf (field : String) (v : Value) {old : Value} (h : old.isLeaf = true) :
    withField field v (some old) = .list [.group [(field, v)]] := by
  cases old with
  | list vs => cases h
  | _ => rfl

theorem withField_leaf_item (field : String) (v : Value) {item : Value} (h : item.isLeaf = true)
    (items : List Value) :
    withField field v (some (.list (item :: items))) = .list (.group [(field, v)] :: items) := by
  cases item with
  | group es => cases h
  | _ => rfl

theorem Same.withField {v w : Value} (hvw : Same v w) (field : String) {o p : Option Value}
    (hop : Option.Rel Same o p) : Same (withField field v o) (withField field w p) := by
  have hone : Same (.group [(field, v)]) (.group [(field, w)]) :=
    same_group_iff.mpr ((Entries.same_nil _).insert field hvw)
  have hnew : Same (.list [.group [(field, v)]]) (.list [.group [(field, w)]]) :=
    .list (.cons hone .nil)
  cases hop with
  | none => exact hnew
  | some hold =>
    cases hold with
    | leaf hx hy _ =>
      rw [withField_leaf field v hx, withField_leaf field w hy]
      exact hnew
    | group => exact hnew
    | list h =>
      cases h with
      | nil => exact hnew
      | cons hitem hitems =>
        cases hitem with
        | leaf hx hy _ =>
          rw [withField_leaf_item field v hx, withField_leaf_item field w hy]
          exact .list (.cons hone hitems)
        | list => exact .list (.cons hone hitems)
        | group ha hb hab =>
          have hentry := Entries.Same.insert ⟨ha, hb, hab⟩ field hvw
          exact .list (.cons (same_group_iff.mpr hentry) hitems)

end Value

theorem Bag.Same.setField {a b : Bag} (hab : Same a b) (property field : String) {v w : Value}
    (hvw : v.Same w) : Same (a.setField property field v) (b.setField property field w) := by
  rw [setField_eq, setField_eq]
  exact hab.upsert (hvw.withField field (hab.under property))

namespace Write

def equal (v w : Write) : Bool :=
  v.visual == w.visual && v.property == w.property && v.field == w.field && v.value.equal w.value

/-- Writes to the same place of values that are the same. -/
structure Same (v w : Write) : Prop where
  target : v.target = w.target
  value : v.value.Same w.value

theorem Same.equal {v w : Write} (h : Same v w) : v.equal w = true := by
  obtain ⟨hvisual, hproperty, hfield⟩ : v.visual = w.visual ∧ v.property = w.property ∧
      v.field = w.field := by simpa [Write.target] using h.target
  have hvalue := ((Value.same_iff _ _).mp h.value).2.2
  simp [Write.equal, hvisual, hproperty, hfield, hvalue]

theorem same_refl {w : Write} (h : w.value.keyed = true) : Same w w := ⟨rfl, Value.same_refl h⟩

end Write

namespace StyleTree

variable {s t : StyleTree}

theorem Same.valueAt? (h : s.Same t) (target : String × String × String) :
    Option.Rel Value.Same (s.valueAt? target) (t.valueAt? target) := by
  rw [valueAt?_eq, valueAt?_eq]
  exact Entries.rel_bind (h.property? _ _ _) fun _ _ hvalue => hvalue.get? _

theorem Same.apply (h : s.Same t) {v w : Write} (hvw : v.Same w) :
    (v.apply s).Same (w.apply t) := by
  obtain ⟨hvisual, hproperty, hfield⟩ : v.visual = w.visual ∧ v.property = w.property ∧
      v.field = w.field := by simpa [Write.target] using hvw.target
  rw [Write.apply, Write.apply, hvisual, hproperty, hfield]
  exact h.modify w.visual defaultVariant fun _ _ hab =>
    hab.setField w.property w.field hvw.value

theorem Same.applyWrites (h : s.Same t) {vs ws : List Write} (hvw : List.Forall₂ Write.Same vs ws) :
    (s.applyWrites vs).Same (t.applyWrites ws) := by
  induction hvw generalizing s t with
  | nil => exact h
  | cons hvw _ ih => exact ih (h.apply hvw)

theorem Same.backgroundFill (h : s.Same t) : s.backgroundFill.Same t.backgroundFill :=
  Entries.rel_getD (h.valueAt? (globalVisual, "background", "color")) (Value.same_refl rfl)

/-- A choice plans the same writes; only a hidden border takes a value from the tree. -/
theorem Same.writes (h : s.Same t) (c : Choice) :
    List.Forall₂ Write.Same (c.writes s) (c.writes t) := by
  have hkeyed := c.writes_hold Value.hereditary_keyed Value.keyed_ofPresets
    ((same_iff s t).mp h).2.1.holds
  have hrefl : List.Forall₂ Write.Same (c.writes t) (c.writes t) :=
    List.forall₂_same.mpr fun w hw => Write.same_refl (hkeyed w hw)
  cases c with
  | border b =>
    cases b with
    | none =>
      exact .cons (Write.same_refl rfl) (.cons (Write.same_refl rfl)
        (.cons ⟨rfl, h.backgroundFill⟩ .nil))
    | _ => exact hrefl
  | _ => exact hrefl

theorem Same.isSatisfied (h : s.Same t) {v w : Write} (hvw : v.Same w) :
    v.isSatisfied s = w.isSatisfied t := by
  rw [Write.isSatisfied_eq, Write.isSatisfied_eq, hvw.target]
  have hvalue := h.valueAt? w.target
  generalize s.valueAt? w.target = o, t.valueAt? w.target = p at hvalue ⊢
  cases hvalue with
  | none => rfl
  | some hvalue => exact hvalue.equal_congr hvw.value

theorem Same.all_isSatisfied (h : s.Same t) {vs ws : List Write}
    (hvw : List.Forall₂ Write.Same vs ws) :
    vs.all (·.isSatisfied s) = ws.all (·.isSatisfied t) := by
  induction hvw with
  | nil => rfl
  | cons hvw _ ih => rw [List.all_cons, List.all_cons, h.isSatisfied hvw, ih]

theorem Same.detectIn (h : s.Same t) (c : Category) : s.detectIn c = t.detectIn c := by
  rw [StyleTree.detectIn, StyleTree.detectIn]
  congr 1
  funext choice
  exact h.all_isSatisfied (h.writes choice)

theorem Same.detect (h : s.Same t) : s.detect = t.detect :=
  Selection.ext_get? fun c => by rw [get?_detect, get?_detect, h.detectIn]

theorem Same.applyChoice (h : s.Same t) (c : Choice) :
    (s.applyChoice c).1.Same (t.applyChoice c).1 ∧
      List.Forall₂ Write.Same (s.applyChoice c).2 (t.applyChoice c).2 := by
  have hplanned := h.writes c
  have hchanged := h.applyWrites hplanned
  have hhides : s.hidesBorder c = t.hidesBorder c := by
    rw [hidesBorder, hidesBorder, h.detectIn]
  rw [StyleTree.applyChoice, StyleTree.applyChoice, hhides]
  dsimp only
  split
  · have hagain := hchanged.writes (.border .none)
    exact ⟨hchanged.applyWrites hagain, List.rel_append hplanned hagain⟩
  · exact ⟨hchanged, hplanned⟩

/-- Trees that are equal when the order of keys is ignored match the same choices, are changed alike
by every choice with equal writes, leave the same of a stored selection, and show equal bags. -/
theorem indistinguishable_of_equal {s t : KeyedTree} (h : s.equal t.toStyleTree = true) :
    s.detect = t.detect ∧
    (∀ c, (s.applyChoice c).1.equal (t.applyChoice c).1 = true ∧
      List.Forall₂ (fun v w => v.equal w = true) (s.applyChoice c).2 (t.applyChoice c).2) ∧
    (∀ stored : Selection, stored.reconcile s.toStyleTree = stored.reconcile t.toStyleTree) ∧
    ∀ visual variant, (s.effective visual variant).equal (t.effective visual variant) = true := by
  have hsame : s.Same t.toStyleTree := (same_iff _ _).mpr ⟨s.keyed, t.keyed, h⟩
  refine ⟨hsame.detect, fun c => ?_, fun stored => ?_, fun visual variant => ?_⟩
  · obtain ⟨htree, hwrites⟩ := hsame.applyChoice c
    exact ⟨((same_iff _ _).mp htree).2.2, hwrites.imp fun _ _ => Write.Same.equal⟩
  · rw [Selection.reconcile, Selection.reconcile, hsame.detect]
  · exact ((Bag.same_iff _ _).mp (hsame.effective visual variant)).2.2

/-- A hidden border, a variant over the default and a group in a list. -/
def layered : StyleTree :=
  ⟨[("*", [
      ("*", [
        ("background", .list [.group [("show", .bool true), ("color", fill .surface)]]),
        ("border", .list [.group [("show", .bool true), ("width", whole 1),
          ("color", fill .surface)]])]),
      ("dark", [("legend", .group [("title", .group [("size", whole 9), ("bold", .bool true)]),
        ("show", .bool false)])])]),
    ("card", [("*", [("padding", .list [])])])]⟩

/-- The same tree with the keys of its visual types, variants, bags and groups in another order. -/
def shuffled : StyleTree :=
  ⟨[("card", [("*", [("padding", .list [])])]),
    ("*", [
      ("dark", [("legend", .group [("show", .bool false),
        ("title", .group [("bold", .bool true), ("size", whole 9)])])]),
      ("*", [
        ("border", .list [.group [("color", fill .surface), ("width", whole 1),
          ("show", .bool true)]]),
        ("background", .list [.group [("color", fill .surface), ("show", .bool true)]])])])]⟩

theorem layered_indistinguishable :
    layered.Keyed ∧ shuffled.Keyed ∧ layered.equal shuffled = true ∧
    layered.identical shuffled = false ∧ layered.detect.border = some .none ∧
    layered.detect = shuffled.detect ∧
    (layered.applyChoice (.background .tinted)).1.equal
      (shuffled.applyChoice (.background .tinted)).1 = true ∧
    List.Forall₂ (fun v w => v.equal w = true) (layered.applyChoice (.background .tinted)).2
      (shuffled.applyChoice (.background .tinted)).2 ∧
    layered.detect.reconcile layered = layered.detect.reconcile shuffled ∧
    (layered.effective "*" "dark").equal (shuffled.effective "*" "dark") = true :=
  have hs : layered.Keyed := by decide
  have ht : shuffled.Keyed := by decide
  have h : layered.equal shuffled = true := by decide
  have hall := indistinguishable_of_equal (s := ⟨layered, hs⟩) (t := ⟨shuffled, ht⟩) h
  ⟨hs, ht, h, by decide, by decide, hall.1, (hall.2.1 _).1, (hall.2.1 _).2, hall.2.2.1 _,
    hall.2.2.2 _ _⟩

end StyleTree

end ReportTheme
