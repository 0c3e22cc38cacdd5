import ReportTheme.Preset.Apply
import ReportTheme.Proofs.Style.Field
import ReportTheme.Proofs.Style.Tree

/-!
What the writes of a preset leave in the tree. A write always lands: whatever stood at its place,
the first entry of its property holds its value afterwards, and a write with another target does not
take it away.
-/
namespace ReportTheme

/-- The first entry of a property in the default bag of a visual type. -/
def StyleTree.firstGroup? (t : StyleTree) (visual property : String) : Option Bag :=
  (t.property? visual defaultVariant property).bind Value.firstGroup?

/-- The entries after the first, of a property in the default bag of a visual type. -/
def StyleTree.laterItems (t : StyleTree) (visual property : String) : List Value :=
  ((t.property? visual defaultVariant property).map Value.laterItems).getD []

namespace Write

def target (w : Write) : String × String × String := (w.visual, w.property, w.field)

/-- The first entry of the property holds the value. -/
def Landed (t : StyleTree) (w : Write) : Prop :=
  ∃ entry, t.firstGroup? w.visual w.property = some entry ∧
    Entries.get? entry w.field = some w.value

theorem property?_apply_of_ne {t : StyleTree} {w : Write} {visual variant property : String}
    (h : ¬(w.visual = visual ∧ defaultVariant = variant ∧ w.property = property)) :
    (w.apply t).property? visual variant property = t.property? visual variant property := by
  by_cases hv : w.visual = visual ∧ defaultVariant = variant
  · obtain ⟨rfl, rfl⟩ := hv
    have hp : property ≠ w.property := fun hp => h ⟨rfl, rfl, hp.symm⟩
    exact StyleTree.property?_modify_of_get? (Bag.get?_setField_of_ne w.field w.value hp)
  · exact StyleTree.property?_modify_of_ne _ property hv

theorem property?_apply_self (t : StyleTree) (w : Write) :
    (w.apply t).property? w.visual defaultVariant w.property =
      some (.list (.group
          (Entries.insert ((t.firstGroup? w.visual w.property).getD []) w.field w.value) ::
        t.laterItems w.visual w.property)) := by
  rw [StyleTree.property?, apply, StyleTree.bag?_modify_self, Option.bind_some,
    Bag.get?_setField_self, StyleTree.firstGroup?, StyleTree.laterItems, StyleTree.property?]
  cases t.bag? w.visual defaultVariant <;> rfl

theorem firstGroup?_apply (t : StyleTree) (w : Write) (visual property : String) :
    (w.apply t).firstGroup? visual property =
      if w.visual = visual ∧ w.property = property then
        some (Entries.insert ((t.firstGroup? visual property).getD []) w.field w.value)
      else t.firstGroup? visual property := by
  split
  · rename_i h
    obtain ⟨rfl, rfl⟩ := h
    rw [StyleTree.firstGroup?, property?_apply_self]
    rfl
  · rename_i h
    rw [StyleTree.firstGroup?, property?_apply_of_ne fun hp => h ⟨hp.1, hp.2.2⟩,
      StyleTree.firstGroup?]

theorem laterItems_apply (t : StyleTree) (w : Write) (visual property : String) :
    (w.apply t).laterItems visual property = t.laterItems visual property := by
  by_cases h : w.visual = visual ∧ w.property = property
  · obtain ⟨rfl, rfl⟩ := h
    rw [StyleTree.laterItems, property?_apply_self]
    rfl
  · rw [StyleTree.laterItems, property?_apply_of_ne fun hp => h ⟨hp.1, hp.2.2⟩,
      StyleTree.laterItems]

theorem landed_apply (t : StyleTree) (w : Write) : w.Landed (w.apply t) := by
  refine ⟨_, by rw [firstGroup?_apply, if_pos ⟨rfl, rfl⟩], ?_⟩
  rw [Entries.get?_insert, if_pos rfl]

/-- What has landed is not written again. -/
theorem Landed.apply_eq_self {t : StyleTree} {w : Write} (h : w.Landed t) : w.apply t = t := by
  obtain ⟨entry, hfirst, hfield⟩ := h
  obtain ⟨v, hv, hentry⟩ := Option.bind_eq_some_iff.mp hfirst
  obtain ⟨bag, hb, hv⟩ := Option.bind_eq_some_iff.mp hv
  exact StyleTree.modify_eq_self hb (Bag.setField_eq_self hv hentry hfield)

theorem Landed.apply {t : StyleTree} {v : Write} (hv : v.Landed t) {w : Write}
    (h : w.target ≠ v.target) : v.Landed (w.apply t) := by
  obtain ⟨entry, he, hf⟩ := hv
  rw [Landed, firstGroup?_apply]
  split
  · rename_i hp
    have hfield : w.field ≠ v.field := fun hf => h (by rw [target, hp.1, hp.2, hf, target])
    refine ⟨_, rfl, ?_⟩
    rw [he, Option.getD_some, Entries.get?_insert, if_neg hfield, hf]
  · exact ⟨entry, he, hf⟩

end Write

namespace StyleTree

/-- A property that begins with a group is told by that group and its later entries. -/
theorem property?_of_firstGroup? {t : StyleTree} {visual property : String} {entry : Bag}
    (h : t.firstGroup? visual property = some entry) :
    t.property? visual defaultVariant property =
      some (.list (.group entry :: t.laterItems visual property)) := by
  obtain ⟨v, hv, hentry⟩ := Option.bind_eq_some_iff.mp h
  rw [laterItems, hv, Option.map_some, Option.getD_some, ← Value.eq_of_firstGroup? hentry]

/-- The value that a write with the given target would replace. -/
def valueAt? (t : StyleTree) (target : String × String × String) : Option Value :=
  (t.defaultBag? target.1).bind fun bag => bag.field? target.2.1 target.2.2

theorem valueAt?_eq (t : StyleTree) (target : String × String × String) :
    t.valueAt? target = (t.property? target.1 defaultVariant target.2.1).bind
      fun v => v.get? ["0", target.2.2] := by
  rw [valueAt?, defaultBag?, property?]
  cases t.bag? target.1 defaultVariant <;> rfl

theorem valueAt?_of_firstGroup? {t : StyleTree} {target : String × String × String} {entry : Bag}
    (h : t.firstGroup? target.1 target.2.1 = some entry) :
    t.valueAt? target = Entries.get? entry target.2.2 := by
  obtain ⟨v, hv, hentry⟩ := Option.bind_eq_some_iff.mp h
  rw [valueAt?_eq, hv, Option.bind_some, Value.get?_of_firstGroup? hentry]

end StyleTree

namespace Write

theorem isSatisfied_eq (t : StyleTree) (w : Write) :
    w.isSatisfied t = (t.valueAt? w.target).any fun v => v.equal w.value := by
  rw [isSatisfied, StyleTree.valueAt?]
  dsimp only [target]
  cases (t.defaultBag? w.visual).bind fun bag => bag.field? w.property w.field <;> rfl

theorem Landed.valueAt? {t : StyleTree} {w : Write} (h : w.Landed t) :
    t.valueAt? w.target = some w.value := by
  obtain ⟨entry, hentry, hfield⟩ := h
  exact (StyleTree.valueAt?_of_firstGroup? hentry).trans hfield

/-- A write leaves a place empty that is not its target. -/
theorem valueAt?_apply_of_none {t : StyleTree} {place : String × String × String}
    (h : t.valueAt? place = none) {w : Write} (hw : w.target ≠ place) :
    (w.apply t).valueAt? place = none := by
  by_cases hp : w.visual = place.1 ∧ w.property = place.2.1
  · have hfield : w.field ≠ place.2.2 := by
      intro hf
      exact hw (by rw [target, hp.1, hp.2, hf])
    have hnew := firstGroup?_apply t w place.1 place.2.1
    rw [if_pos hp] at hnew
    rw [StyleTree.valueAt?_of_firstGroup? hnew, Entries.get?_insert, if_neg hfield]
    cases hold : t.firstGroup? place.1 place.2.1 with
    | none => rfl
    | some entry => rw [Option.getD_some, ← StyleTree.valueAt?_of_firstGroup? hold, h]
  · have hkept : (w.apply t).property? place.1 defaultVariant place.2.1 =
        t.property? place.1 defaultVariant place.2.1 :=
      property?_apply_of_ne fun hwp => hp ⟨hwp.1, hwp.2.2⟩
    rw [StyleTree.valueAt?_eq, hkept, ← StyleTree.valueAt?_eq, h]

/-- A write is satisfied where another with the same target has put an equal value. -/
theorem isSatisfied_of_landed {t : StyleTree} {v w : Write} (hv : v.Landed t)
    (h : v.target = w.target) : w.isSatisfied t = v.value.equal w.value := by
  rw [isSatisfied_eq, ← h, hv.valueAt?, Option.any_some]

end Write

namespace StyleTree

/-- Writes with targets of their own keep what has landed. -/
theorem landed_applyWrites_of_landed {t : StyleTree} {v : Write} (hv : v.Landed t)
    {writes : List Write} (h : ∀ w ∈ writes, w.target ≠ v.target) :
    v.Landed (t.applyWrites writes) := by
  induction writes generalizing t with
  | nil => exact hv
  | cons w writes ih =>
    exact ih (hv.apply (h w (by simp))) fun u hu => h u (by simp [hu])

theorem landed_applyWrites {t : StyleTree} {writes : List Write}
    (h : (writes.map Write.target).Nodup) : ∀ w ∈ writes, w.Landed (t.applyWrites writes) := by
  induction writes generalizing t with
  | nil => simp
  | cons v writes ih =>
    obtain ⟨hv, hd⟩ := List.nodup_cons.mp h
    intro w hw
    rcases List.mem_cons.mp hw with rfl | hw
    · refine landed_applyWrites_of_landed (Write.landed_apply t w) fun u hu he => ?_
      exact hv (he ▸ List.mem_map_of_mem hu)
    · exact ih hd w hw

theorem applyWrites_of_landed {t : StyleTree} {writes : List Write}
    (h : ∀ w ∈ writes, w.Landed t) : t.applyWrites writes = t := by
  induction writes with
  | nil => rfl
  | cons w writes ih =>
    have hw : w.apply t = t := (h w (by simp)).apply_eq_self
    have hrest := ih fun u hu => h u (by simp [hu])
    rwa [applyWrites, List.foldl_cons, hw]

theorem laterItems_applyWrites (t : StyleTree) (writes : List Write) (visual property : String) :
    (t.applyWrites writes).laterItems visual property = t.laterItems visual property := by
  induction writes generalizing t with
  | nil => rfl
  | cons w writes ih =>
    exact (ih (w.apply t)).trans (Write.laterItems_apply t w visual property)

theorem valueAt?_applyWrites_of_none {t : StyleTree} {place : String × String × String}
    (h : t.valueAt? place = none) {writes : List Write} (hw : ∀ w ∈ writes, w.target ≠ place) :
    (t.applyWrites writes).valueAt? place = none := by
  induction writes generalizing t with
  | nil => exact h
  | cons w writes ih =>
    have hnext := Write.valueAt?_apply_of_none h (hw w (by simp))
    exact ih hnext fun u hu => hw u (by simp [hu])

theorem property?_applyWrites {t : StyleTree} {writes : List Write}
    {visual variant property : String}
    (h : ∀ w ∈ writes, ¬(w.visual = visual ∧ defaultVariant = variant ∧ w.property = property)) :
    (t.applyWrites writes).property? visual variant property =
      t.property? visual variant property := by
  induction writes generalizing t with
  | nil => rfl
  | cons w writes ih =>
    have hrest := ih (t := w.apply t) fun u hu => h u (by simp [hu])
    exact hrest.trans (Write.property?_apply_of_ne (h w (by simp)))

/-- A property that has changed was written. -/
theorem exists_write_of_ne {t : StyleTree} {writes : List Write}
    {visual variant property : String}
    (h : (t.applyWrites writes).property? visual variant property ≠
      t.property? visual variant property) :
    ∃ w ∈ writes, w.visual = visual ∧ defaultVariant = variant ∧ w.property = property := by
  by_cases hw : ∃ w ∈ writes,
      w.visual = visual ∧ defaultVariant = variant ∧ w.property = property
  · exact hw
  · exact absurd (property?_applyWrites fun w hm hp => hw ⟨w, hm, hp⟩) h

theorem Holds.applyWrites {P : Value → Prop} (hP : Value.Hereditary P) {t : StyleTree}
    (ht : t.Holds P) {writes : List Write} (h : ∀ w ∈ writes, P w.value) :
    (t.applyWrites writes).Holds P := by
  induction writes generalizing t with
  | nil => exact ht
  | cons w writes ih =>
    have hw : (w.apply t).Holds P := ht.modify w.visual defaultVariant fun _ hb =>
      Bag.setField_holds hP hb w.property w.field (h w (by simp))
    exact ih hw fun u hu => h u (by simp [hu])

end StyleTree

end ReportTheme
