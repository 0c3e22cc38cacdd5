import Mathlib.Data.List.Nodup
import Mathlib.Logic.Function.Basic
import ReportTheme.Proofs.Palette.Store

/-!
Palette collections as unordered maps. A shelf is kept sorted; a map that knows no order, and whose
palettes are sorted when they are listed, answers everything as the shelf does: what is under an id,
what a change displaces, and the list, whatever order the map gives its palettes out in.
-/
namespace ReportTheme

/-- The order in which palettes are listed. -/
def Palette.idLe (p q : Palette) : Bool := decide (p.id ≤ q.id)

/-- What an unordered map holds under each id. -/
abbrev PaletteMap := String → Option Palette

namespace PaletteMap

/-- The palettes of a map, each once, in whatever order. -/
structure Enumerates (map : PaletteMap) (values : List Palette) : Prop where
  nodup : values.Nodup
  mem_iff : ∀ p, p ∈ values ↔ map p.id = some p

end PaletteMap

namespace Shelf

/-- A sorted shelf that finds what a map holds. -/
structure Refines (shelf : Shelf) (map : PaletteMap) : Prop where
  ordered : shelf.Ordered
  found : ∀ id, shelf.find? id = map id

variable {shelf : Shelf} {map : PaletteMap}

theorem refines_nil : Refines [] fun _ => none := ⟨List.Pairwise.nil, fun _ => rfl⟩

theorem Refines.insert (h : shelf.Refines map) (p : Palette) :
    (shelf.insert p).Refines (Function.update map p.id (some p)) where
  ordered := h.ordered.insert p
  found id := by
    rw [find?_insert, h.found, Function.update_apply]
    exact if_congr eq_comm rfl rfl

theorem Refines.remove (h : shelf.Refines map) (id : String) :
    (shelf.remove id).Refines (Function.update map id none) where
  ordered := h.ordered.remove id
  found other := by
    rw [find?_remove, h.found, Function.update_apply]
    exact if_congr eq_comm rfl rfl

theorem Refines.mem_iff (h : shelf.Refines map) (p : Palette) : p ∈ shelf ↔ map p.id = some p := by
  rw [← h.found, h.ordered.find?_eq_some_iff, and_iff_left rfl]

theorem Refines.enumerates (h : shelf.Refines map) : map.Enumerates shelf where
  nodup := by
    refine List.Pairwise.imp (fun {p q} hless => ?_) h.ordered
    rintro rfl
    exact String.lt_irrefl p.id hless
  mem_iff := h.mem_iff

/-- Sorted by id, the palettes of a map are the shelf. -/
theorem Refines.mergeSort_eq (h : shelf.Refines map) {values : List Palette}
    (hvalues : map.Enumerates values) : values.mergeSort Palette.idLe = shelf := by
  have hperm : values.Perm shelf :=
    (List.perm_ext_iff_of_nodup hvalues.nodup h.enumerates.nodup).mpr fun p =>
      (hvalues.mem_iff p).trans (h.mem_iff p).symm
  have htrans : ∀ p q r : Palette, p.idLe q = true → q.idLe r = true → p.idLe r = true :=
    fun p q r hpq hqr =>
      decide_eq_true (String.le_trans (of_decide_eq_true hpq) (of_decide_eq_true hqr))
  have htotal : ∀ p q : Palette, (p.idLe q || q.idLe p) = true := fun p q =>
    (String.le_total p.id q.id).elim (fun hle => by rw [Palette.idLe, decide_eq_true hle]; rfl)
      fun hle => by rw [Bool.or_comm, Palette.idLe, decide_eq_true hle]; rfl
  have hsorted : List.Pairwise (fun p q : Palette => p.id ≤ q.id)
      (values.mergeSort Palette.idLe) :=
    (List.pairwise_mergeSort htrans htotal values).imp of_decide_eq_true
  refine List.Perm.eq_of_pairwise (fun p q hp hq hpq hqp => ?_) hsorted
    (h.ordered.imp fun hlt => String.not_lt.mp (String.lt_asymm hlt))
    ((List.mergeSort_perm _ _).trans hperm)
  have hp := (hvalues.mem_iff p).mp (List.mem_mergeSort.mp hp)
  have hq := (h.mem_iff q).mp hq
  rw [String.le_antisymm hpq hqp] at hp
  exact Option.some.inj (hp.symm.trans hq)

end Shelf

namespace PaletteStore

/-- A map of palettes for either kind. -/
abbrev Maps := PaletteKind → PaletteMap

namespace Maps

/-- The palette that a change displaces, and the maps after it. -/
def change (maps : Maps) (c : Change) : Option Palette × Maps :=
  (maps c.kind c.id, Function.update maps c.kind (Function.update (maps c.kind) c.id c.placed?))

def run (maps : Maps) (history : List Change) : Maps :=
  history.foldl (fun maps c => (maps.change c).2) maps

end Maps

def Refines (s : PaletteStore) (maps : Maps) : Prop := ∀ kind, (s.shelf kind).Refines (maps kind)

theorem Refines.change {s : PaletteStore} {maps : Maps} (h : s.Refines maps) (c : Change) :
    (s.change c).1 = (maps.change c).1 ∧ (s.change c).2.Refines (maps.change c).2 := by
  refine ⟨(change_fst s c).trans ((h c.kind).found c.id), fun kind => ?_⟩
  cases c with
  | insert changed p =>
    cases changed <;> cases kind
    case color.color => exact (h .color).insert p
    case neutral.neutral => exact (h .neutral).insert p
    case color.neutral => exact h .neutral
    case neutral.color => exact h .color
  | remove changed id =>
    cases changed <;> cases kind
    case color.color => exact (h .color).remove id
    case neutral.neutral => exact (h .neutral).remove id
    case color.neutral => exact h .neutral
    case neutral.color => exact h .color

theorem Refines.run {s : PaletteStore} {maps : Maps} (h : s.Refines maps) (history : List Change) :
    (s.run history).Refines (maps.run history) := by
  induction history generalizing s maps with
  | nil => exact h
  | cons c history ih => exact ih (h.change c).2

theorem refines_empty : empty.Refines fun _ _ => none
  | .color | .neutral => Shelf.refines_nil

/-- After any changes a store and a pair of unordered maps answer alike: under every id they hold
the same palette, a further change displaces the same one, and the palettes that a map gives out in
any order are, sorted by id, the list of the store. -/
theorem refines_run (history : List Change) :
    let maps := Maps.run (fun _ _ => none) history
    (∀ kind id, ((empty.run history).shelf kind).find? id = maps kind id) ∧
    (∀ c, ((empty.run history).change c).1 = (maps.change c).1) ∧
    ∀ kind values, (maps kind).Enumerates values →
      values.mergeSort Palette.idLe = (empty.run history).shelf kind := by
  have h := refines_empty.run history
  exact ⟨fun kind => (h kind).found, fun c => (h.change c).1,
    fun kind values hvalues => (h kind).mergeSort_eq hvalues⟩

end PaletteStore

end ReportTheme
