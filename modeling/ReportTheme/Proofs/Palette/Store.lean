import Mathlib.Data.List.Induction
import ReportTheme.Config

/-!
Palette collections by their history. Whatever was inserted and removed before, an id finds the
palette that was inserted under it last and not removed since; every change gives the palette that
it displaces, and the palettes of a kind are listed by increasing id. The built-in palettes, those
of a configuration and those of a file are insertions one after the other.
-/
namespace ReportTheme

namespace Shelf

/-- From one palette to the next the id increases, so none stands twice. -/
def Ordered (shelf : Shelf) : Prop := List.Pairwise (fun p q => p.id < q.id) shelf

theorem mem_of_mem_insert {shelf : Shelf} {p q : Palette} (h : q ∈ shelf.insert p) :
    q = p ∨ q ∈ shelf := by
  induction shelf with
  | nil => exact .inl (List.mem_singleton.mp h)
  | cons r shelf ih =>
    rw [insert] at h
    split at h
    · exact (List.mem_cons.mp h).imp_right (List.mem_cons_of_mem r)
    · split at h
      · exact List.mem_cons.mp h
      · rcases List.mem_cons.mp h with rfl | h
        · exact .inr List.mem_cons_self
        · exact (ih h).imp_right (List.mem_cons_of_mem r)

theorem Ordered.insert {shelf : Shelf} (h : shelf.Ordered) (p : Palette) :
    (shelf.insert p).Ordered := by
  induction shelf with
  | nil => exact List.pairwise_singleton _ p
  | cons r shelf ih =>
    obtain ⟨hfirst, hrest⟩ := List.pairwise_cons.mp h
    rw [Shelf.insert]
    by_cases hsame : p.id = r.id
    · rw [if_pos hsame]
      exact List.pairwise_cons.mpr ⟨fun q hq => hsame ▸ hfirst q hq, hrest⟩
    · rw [if_neg hsame]
      by_cases hless : p.id < r.id
      · rw [if_pos hless]
        refine List.pairwise_cons.mpr ⟨fun q hq => ?_, h⟩
        rcases List.mem_cons.mp hq with rfl | hq
        · exact hless
        · exact String.lt_trans hless (hfirst q hq)
      · rw [if_neg hless]
        have hgreater : r.id < p.id := by
          by_contra hle
          exact hsame (String.le_antisymm (String.not_lt.mp hle) (String.not_lt.mp hless))
        refine List.pairwise_cons.mpr ⟨fun q hq => ?_, ih hrest⟩
        rcases mem_of_mem_insert hq with rfl | hq
        · exact hgreater
        · exact hfirst q hq

theorem Ordered.remove {shelf : Shelf} (h : shelf.Ordered) (id : String) :
    (shelf.remove id).Ordered := h.filter _

theorem find?_cons (p : Palette) (shelf : Shelf) (id : String) :
    find? (p :: shelf) id = if p.id = id then some p else shelf.find? id := by
  rw [find?, List.find?_cons, find?]
  by_cases h : p.id = id
  · rw [if_pos h, beq_iff_eq.mpr h]
  · rw [if_neg h, beq_eq_false_iff_ne.mpr h]

theorem find?_insert (shelf : Shelf) (p : Palette) (id : String) :
    (shelf.insert p).find? id = if p.id = id then some p else shelf.find? id := by
  induction shelf with
  | nil => rw [insert, find?_cons]
  | cons r shelf ih =>
    rw [insert]
    by_cases hsame : p.id = r.id
    · rw [if_pos hsame, find?_cons, find?_cons, hsame]
      split <;> rfl
    · rw [if_neg hsame]
      by_cases hless : p.id < r.id
      · rw [if_pos hless, find?_cons]
      · rw [if_neg hless, find?_cons, ih, find?_cons]
        by_cases hr : r.id = id
        · rw [if_pos hr, if_neg fun hp => hsame (hp.trans hr.symm), if_pos hr]
        · rw [if_neg hr, if_neg hr]

theorem find?_remove (shelf : Shelf) (id other : String) :
    (shelf.remove id).find? other = if id = other then none else shelf.find? other := by
  induction shelf with
  | nil => simp [remove, find?]
  | cons r shelf ih =>
    by_cases hr : r.id = id
    · have hdrop : remove (r :: shelf) id = remove shelf id := by simp [remove, hr]
      rw [hdrop, ih, find?_cons, hr]
      split <;> rfl
    · have hkeep : remove (r :: shelf) id = r :: remove shelf id := by simp [remove, hr]
      rw [hkeep, find?_cons, ih, find?_cons]
      by_cases hother : r.id = other
      · rw [if_pos hother, if_neg fun h => hr (hother.trans h.symm), if_pos hother]
      · rw [if_neg hother, if_neg hother]

theorem Ordered.find?_eq_some_iff {shelf : Shelf} (h : shelf.Ordered) {id : String} {p : Palette} :
    shelf.find? id = some p ↔ p ∈ shelf ∧ p.id = id := by
  induction shelf with
  | nil => simp [find?]
  | cons r shelf ih =>
    obtain ⟨hfirst, hrest⟩ := List.pairwise_cons.mp h
    rw [find?_cons, List.mem_cons]
    by_cases hr : r.id = id
    · rw [if_pos hr, Option.some.injEq]
      constructor
      · rintro rfl
        exact ⟨.inl rfl, hr⟩
      · rintro ⟨rfl | hp, hid⟩
        · rfl
        · exact absurd (hr.trans hid.symm ▸ hfirst p hp) (String.lt_irrefl _)
    · rw [if_neg hr, ih hrest]
      constructor
      · exact fun hp => ⟨.inr hp.1, hp.2⟩
      · rintro ⟨rfl | hp, hid⟩
        · exact absurd hid hr
        · exact ⟨hp, hid⟩

end Shelf

namespace PaletteStore

def shelf (s : PaletteStore) : PaletteKind → Shelf
  | .color => s.colors
  | .neutral => s.neutrals

inductive Change where
  | insert (kind : PaletteKind) (p : Palette)
  | remove (kind : PaletteKind) (id : String)
  deriving DecidableEq, Repr

namespace Change

def kind : Change → PaletteKind
  | .insert kind _ | .remove kind _ => kind

/-- The id under which something changes. -/
def id : Change → String
  | .insert _ p => p.id
  | .remove _ id => id

/-- What is under that id afterwards. -/
def placed? : Change → Option Palette
  | .insert _ p => some p
  | .remove _ _ => none

def Concerns (c : Change) (kind : PaletteKind) (id : String) : Prop := c.kind = kind ∧ c.id = id

instance (c : Change) (kind : PaletteKind) (id : String) : Decidable (c.Concerns kind id) :=
  inferInstanceAs (Decidable (_ ∧ _))

end Change

/-- The palette that a change displaces, and the store after it. -/
def change (s : PaletteStore) : Change → Option Palette × PaletteStore
  | .insert .color p => s.insertColor p
  | .insert .neutral p => s.insertNeutral p
  | .remove .color id => s.removeColor id
  | .remove .neutral id => s.removeNeutral id

def run (s : PaletteStore) (history : List Change) : PaletteStore :=
  history.foldl (fun s c => (s.change c).2) s

theorem run_append (s : PaletteStore) (a b : List Change) : s.run (a ++ b) = (s.run a).run b :=
  List.foldl_append

theorem run_concat (s : PaletteStore) (history : List Change) (c : Change) :
    s.run (history ++ [c]) = ((s.run history).change c).2 := run_append s history [c]

theorem change_fst (s : PaletteStore) (c : Change) :
    (s.change c).1 = (s.shelf c.kind).find? c.id := by
  cases c with
  | insert kind p => cases kind <;> rfl
  | remove kind id => cases kind <;> rfl

theorem find?_change (s : PaletteStore) (c : Change) (kind : PaletteKind) (id : String) :
    ((s.change c).2.shelf kind).find? id =
      if c.Concerns kind id then c.placed? else (s.shelf kind).find? id := by
  cases c with
  | insert changed p =>
    cases changed <;> cases kind <;>
      simp [change, insertColor, insertNeutral, shelf, Change.Concerns, Change.kind, Change.id,
        Change.placed?, Shelf.find?_insert]
  | remove changed removed =>
    cases changed <;> cases kind <;>
      simp [change, removeColor, removeNeutral, shelf, Change.Concerns, Change.kind, Change.id,
        Change.placed?, Shelf.find?_remove]

theorem ordered_change {s : PaletteStore} (h : ∀ kind, (s.shelf kind).Ordered) (c : Change)
    (kind : PaletteKind) : ((s.change c).2.shelf kind).Ordered := by
  cases c with
  | insert changed p =>
    cases changed <;> cases kind
    case color.color => exact (h .color).insert p
    case neutral.neutral => exact (h .neutral).insert p
    case color.neutral => exact h .neutral
    case neutral.color => exact h .color
  | remove changed id =>
    cases changed <;> cases kind
    case color.color => exact (h .color).remove id
    case neutral.neutral => exact (h .neutral).remove id
    case color.neutral => exact h .neutral
    case neutral.color => exact h .color

/-- A palette was inserted under an id, and no later change concerns that id. -/
def Stands (history : List Change) (kind : PaletteKind) (id : String) (p : Palette) : Prop :=
  ∃ before after, history = before ++ .insert kind p :: after ∧ p.id = id ∧
    ∀ c ∈ after, ¬c.Concerns kind id

theorem not_stands_nil (kind : PaletteKind) (id : String) (p : Palette) :
    ¬Stands [] kind id p := by
  rintro ⟨before, after, hsplit, -⟩
  exact List.append_ne_nil_of_right_ne_nil before (List.cons_ne_nil _ _) hsplit.symm

/-- Whether a palette stands is decided by the last change if that concerns the id, and by those
before it if not. -/
theorem stands_concat_iff (history : List Change) (c : Change) (kind : PaletteKind) (id : String)
    (p : Palette) : Stands (history ++ [c]) kind id p ↔
      if c.Concerns kind id then c.placed? = some p else Stands history kind id p := by
  constructor
  · rintro ⟨before, after, hsplit, hid, hlater⟩
    rcases after.eq_nil_or_concat with rfl | ⟨later, last, rfl⟩
    · obtain ⟨-, hlast⟩ := List.append_inj' hsplit rfl
      obtain rfl := List.singleton_inj.mp hlast
      rw [if_pos ⟨rfl, hid⟩]
      rfl
    · rw [List.concat_eq_append, ← List.cons_append, ← List.append_assoc] at hsplit
      obtain ⟨rfl, hlast⟩ := List.append_inj' hsplit rfl
      obtain rfl := List.singleton_inj.mp hlast
      rw [if_neg (hlater c (by simp))]
      exact ⟨before, later, rfl, hid, fun d hd => hlater d (by simp [hd])⟩
  · by_cases hc : c.Concerns kind id
    · rw [if_pos hc]
      intro hplaced
      cases c with
      | insert changed q =>
        obtain ⟨rfl, hid⟩ := hc
        obtain rfl := Option.some.inj hplaced
        exact ⟨history, [], rfl, hid, List.forall_mem_nil _⟩
      | remove changed removed => cases hplaced
    · rw [if_neg hc]
      rintro ⟨before, after, rfl, hid, hlater⟩
      refine ⟨before, after ++ [c], by rw [List.append_assoc, List.cons_append], hid, ?_⟩
      intro d hd
      rcases List.mem_append.mp hd with hd | hd
      · exact hlater d hd
      · exact List.mem_singleton.mp hd ▸ hc

theorem find?_run (history : List Change) (kind : PaletteKind) (id : String) (p : Palette) :
    ((empty.run history).shelf kind).find? id = some p ↔ Stands history kind id p := by
  induction history using List.reverseRecOn with
  | nil =>
    have hempty : (empty.run []).shelf kind = [] := by cases kind <;> rfl
    rw [hempty]
    exact iff_of_false (by simp [Shelf.find?]) (not_stands_nil kind id p)
  | append_singleton history c ih =>
    rw [run_concat, find?_change, stands_concat_iff]
    split
    · exact Iff.rfl
    · exact ih

theorem ordered_run (history : List Change) (kind : PaletteKind) :
    ((empty.run history).shelf kind).Ordered := by
  induction history using List.reverseRecOn generalizing kind with
  | nil => cases kind <;> exact List.Pairwise.nil
  | append_singleton history c ih =>
    rw [run_concat]
    exact ordered_change ih c kind

/-- A store answers everything it is asked by what stands after a history. -/
structure Reflects (s : PaletteStore) (history : List Change) : Prop where
  found : ∀ kind id p, (s.shelf kind).find? id = some p ↔ Stands history kind id p
  /-- What a further change gives. -/
  displaced : ∀ c p, (s.change c).1 = some p ↔ Stands history c.kind c.id p
  listed : ∀ kind p, p ∈ s.shelf kind ↔ Stands history kind p.id p
  increasing : ∀ kind, List.Pairwise (fun p q => p.id < q.id) (s.shelf kind)
  /-- The default is the built-in palette, whatever is in the store under its id. -/
  color : ∀ colorId neutralId p, (s.resolve colorId neutralId).color = p ↔
    Stands history .color colorId p ∨
      (∀ q, ¬Stands history .color colorId q) ∧ p = ColorPreset.default.palette
  neutral : ∀ colorId neutralId p, (s.resolve colorId neutralId).neutral = p ↔
    Stands history .neutral neutralId p ∨
      (∀ q, ¬Stands history .neutral neutralId q) ∧ p = NeutralPreset.gray.palette

theorem getD_eq_iff {α : Type} {o : Option α} {P : α → Prop} (h : ∀ a, o = some a ↔ P a)
    (default a : α) : o.getD default = a ↔ P a ∨ (∀ b, ¬P b) ∧ a = default := by
  cases o with
  | none =>
    have hnone : ∀ b, ¬P b := fun b hb => by cases (h b).mpr hb
    simp [hnone, eq_comm]
  | some b =>
    have hb : P b := (h b).mp rfl
    have hnot : ¬∀ b, ¬P b := fun hn => hn b hb
    rw [← h a]
    simp [hnot]

theorem reflects_run (history : List Change) : (empty.run history).Reflects history where
  found := find?_run history
  displaced c p := by rw [change_fst, find?_run]
  listed kind p := by
    rw [← find?_run, (ordered_run history kind).find?_eq_some_iff]
    exact (and_iff_left rfl).symm
  increasing := ordered_run history
  color colorId _ := getD_eq_iff (find?_run history .color colorId) _
  neutral _ neutralId := getD_eq_iff (find?_run history .neutral neutralId) _

def builtInHistory : List Change :=
  ColorPreset.all.map (fun p => .insert .color p.palette) ++
    NeutralPreset.all.map fun p => .insert .neutral p.palette

theorem addColors_eq (s : PaletteStore) (ps : List Palette) :
    s.addColors ps = s.run (ps.map (.insert .color)) := by
  rw [run, List.foldl_map]
  rfl

theorem addNeutrals_eq (s : PaletteStore) (ps : List Palette) :
    s.addNeutrals ps = s.run (ps.map (.insert .neutral)) := by
  rw [run, List.foldl_map]
  rfl

theorem builtIn_eq : builtIn = empty.run builtInHistory := rfl

end PaletteStore

open PaletteStore in
/-- The insertions of palette records, in order. -/
def PaletteRecords.history (r : PaletteRecords) : List Change :=
  r.color.map (.insert .color) ++ r.neutral.map (.insert .neutral)

namespace PaletteStore

theorem addTo_eq (r : PaletteRecords) (s : PaletteStore) : r.addTo s = s.run r.history := by
  rw [PaletteRecords.addTo, addColors_eq, addNeutrals_eq, PaletteRecords.history, run_append]

/-- A store reflects the changes that were made to it, from the empty one on and as well from the
one that the commands work with: the built-in palettes, over them those of the configuration, and
over these the ones of a file. -/
theorem reflects_history (config : Config) (file : PaletteRecords) (history : List Change) :
    (empty.run history).Reflects history ∧
    ((file.addTo config.store).run history).Reflects
      (builtInHistory ++ config.palettes.history ++ file.history ++ history) := by
  have hstore : (file.addTo config.store).run history =
      empty.run (builtInHistory ++ config.palettes.history ++ file.history ++ history) := by
    rw [run_append, run_append, run_append, ← builtIn_eq, ← addTo_eq, ← addTo_eq, Config.store]
  refine ⟨reflects_run history, ?_⟩
  rw [hstore]
  exact reflects_run _

end PaletteStore

end ReportTheme
