import ReportTheme.Proofs.Style.Bags
import ReportTheme.Proofs.Style.Json

/-!
What is read as bags and as a style tree. An entry that is not an object is dropped alone: the others
keep their order and their values, and a visual type goes only when no variant of it is an object.
-/
namespace ReportTheme

namespace Json

/-- The members of an object; nothing else has any. -/
def members (j : Json) : Entries Json := j.entries?.getD []

/-- The members that are objects themselves, in order. -/
def objects (j : Json) : Entries (Entries Json) := Entries.filterMapValues entries? j.members

theorem get?_eq (j : Json) (key : String) : j.get? key = Entries.get? j.members key := by
  cases j <;> rfl

theorem entries?_eq_some_iff {j : Json} {es : Entries Json} :
    j.entries? = some es ↔ j = .object es := by
  cases j <;> simp [entries?]

section
variable {j : Json} (h : j.keyed = true)
include h

theorem keyed_members : KeyedEntries j.members := by
  cases j with
  | object es => exact (keyed_object_iff es).mp h
  | _ => exact Entries.keyed_nil _

theorem keyed_objects : Entries.Keyed KeyedEntries j.objects := by
  refine (keyed_members h).filterMapValues fun k es hk hes => ?_
  rw [entries?_eq_some_iff] at hes
  exact (keyed_object_iff es).mp (hes ▸ hk)

theorem get?_objects (key : String) :
    Entries.get? j.objects key = (j.get? key).bind entries? := by
  rw [objects, Entries.get?_filterMapValues (keyed_members h).distinct, get?_eq]

end

end Json

theorem bagsOfEntries_eq (es : Entries Json) :
    bagsOfEntries es =
      Entries.mapValues (Entries.mapValues Value.ofJson)
        (Entries.filterMapValues Json.entries? es) := by
  induction es with
  | nil => rfl
  | cons e es ih =>
    obtain ⟨name, j⟩ := e
    rw [Entries.filterMapValues_cons]
    cases j with
    | object entries =>
      rw [bagsOfEntries, ih, Bag.ofEntries, Value.ofEntries_eq]
      rfl
    | _ => exact ih

/-- The bags that are read are the members that are objects. -/
theorem bagsOfJson_eq (j : Json) :
    bagsOfJson j = Entries.mapValues (Entries.mapValues Value.ofJson) j.objects := by
  cases j with
  | object es => exact bagsOfEntries_eq es
  | _ => rfl

section
variable {P : Value → Prop} (hP : ∀ j : Json, j.keyed = true → P (.ofJson j))
include hP

/-- What every value that is read has, a bag that is read has. -/
theorem Bag.holds_ofEntries {es : Entries Json} (h : Json.KeyedEntries es) :
    Entries.Keyed P (ofEntries es) := by
  rw [ofEntries, Value.ofEntries_eq]
  exact h.mapValues hP

theorem holds_bagsOfJson {j : Json} (h : j.keyed = true) :
    Entries.Keyed (Entries.Keyed P) (bagsOfJson j) := by
  rw [bagsOfJson_eq]
  exact (Json.keyed_objects h).mapValues fun _ hes => hes.mapValues hP

end

namespace StyleTree

/-- The members of an object as visual types, also those that have no variants. -/
def ofMembers (j : Json) : StyleTree := ⟨Entries.mapValues bagsOfJson j.members⟩

theorem ofEntries_eq (es : Entries Json) :
    ofEntries es = (Entries.mapValues bagsOfJson es).filter fun v => !v.2.isEmpty := by
  induction es with
  | nil => rfl
  | cons e es ih =>
    obtain ⟨visual, variants⟩ := e
    rw [ofEntries, Entries.mapValues_cons, List.filter_cons, ih]
    cases (bagsOfJson variants).isEmpty <;> rfl

theorem ofJson_eq (j : Json) : ofJson j = (ofMembers j).populated :=
  congrArg StyleTree.mk (ofEntries_eq j.members)

theorem populated_ofJson (j : Json) : (ofJson j).Populated := by
  rw [ofJson_eq]
  exact populated_populated _

section
variable {P : Value → Prop} (hP : ∀ j : Json, j.keyed = true → P (.ofJson j))
include hP

theorem holds_ofMembers {j : Json} (h : j.keyed = true) : (ofMembers j).Holds P :=
  (Json.keyed_members h).mapValues fun _ => holds_bagsOfJson hP

theorem holds_ofJson {j : Json} (h : j.keyed = true) : (ofJson j).Holds P := by
  rw [ofJson_eq]
  exact Entries.Keyed.filter (holds_ofMembers hP h) _

end

theorem visualTypes_ofJson (j : Json) :
    (ofJson j).visualTypes = Entries.keys (j.members.filter fun v => !v.2.objects.isEmpty) := by
  have hempty : ∀ k : Json, (bagsOfJson k).isEmpty = k.objects.isEmpty := by
    intro k
    rw [bagsOfJson_eq, Entries.mapValues, List.isEmpty_map]
  rw [ofJson_eq, visualTypes, populated, ofMembers, Entries.mapValues, List.filter_map,
    Entries.keys, List.map_map]
  simp only [Function.comp_def, hempty]
  rfl

variable {j : Json} (h : j.keyed = true)
include h

theorem distinct_ofMembers : (ofMembers j).Distinct :=
  Keyed.distinct (holds_ofMembers Value.keyed_ofJson h)

/-- A bag is read exactly where an object stands in an object in an object. -/
theorem bag?_ofJson (visual variant : String) :
    (ofJson j).bag? visual variant =
      (((j.get? visual).bind (·.get? variant)).bind Json.entries?).map
        (Entries.mapValues Value.ofJson) := by
  rw [ofJson_eq, bag?_populated (distinct_ofMembers h), bag?, ofMembers, Entries.get?_mapValues,
    ← Json.get?_eq]
  cases hvisual : j.get? visual with
  | none => rfl
  | some variants =>
    have hkeyed : variants.keyed = true := by
      rw [Json.get?_eq] at hvisual
      exact (Json.keyed_members h).get? hvisual
    rw [Option.map_some, Option.bind_some, Option.bind_some, bagsOfJson_eq, Entries.get?_mapValues,
      Json.get?_objects hkeyed]

theorem variants_ofJson {v : String × Entries Bag} (hv : v ∈ (ofJson j).visuals) :
    ∃ variants, j.get? v.1 = some variants ∧ Entries.keys v.2 = Entries.keys variants.objects := by
  rw [ofJson_eq] at hv
  obtain ⟨⟨visual, variants⟩, hmem, rfl⟩ := List.mem_map.mp (List.mem_filter.mp hv).1
  refine ⟨variants, ?_, ?_⟩
  · rw [Json.get?_eq]
    exact Entries.get?_of_mem (Json.keyed_members h).distinct hmem
  · rw [bagsOfJson_eq, Entries.keys_mapValues]

end StyleTree

end ReportTheme
