import ReportTheme.Proofs.Style.Malformed

/-!
Bags and style trees written as JSON and read again. They come back with the same keys in the same
order, and each value as it comes back on its own.
-/
namespace ReportTheme

/-- The bag that is read from a written bag. -/
def Bag.reread (b : Bag) : Bag := Bag.ofEntries (Value.toEntries b)

namespace Bag

theorem reread_eq (b : Bag) : b.reread = Entries.mapValues (fun v => Value.ofJson v.toJson) b := by
  rw [reread, ofEntries, Value.ofEntries_eq, Value.toEntries_eq, Entries.mapValues_mapValues]

theorem equal_reread_iff {b : Bag} (h : Entries.Keyed Value.Readable b) :
    b.reread.equal b = true ↔ Entries.Keyed (fun v => v.plain = true) b := by
  rw [equal, Value.equal_group, reread_eq]
  exact Entries.equalBy_mapValues_iff (fun _ => Value.equal_ofJson_toJson_iff) h

theorem reread_eq_self {b : Bag} (h : Entries.Keyed Value.Readable b)
    (hp : Entries.Keyed (fun v => v.plain = true) b) : b.reread = b := by
  rw [reread_eq]
  exact Entries.mapValues_eq_self fun e he =>
    Value.ofJson_toJson e.2 (h.each e he).classified (hp.each e he)

theorem keyed_toJson {b : Bag} (h : b.Keyed) : b.toJson.keyed = true := by
  rw [toJson, Json.keyed_object_iff, Value.toEntries_eq]
  exact h.mapValues Value.keyed_toJson

end Bag

theorem bagsOfJson_bagsToJson (bags : Entries Bag) :
    bagsOfJson (bagsToJson bags) = Entries.mapValues Bag.reread bags := by
  rw [bagsToJson, bagsOfJson]
  induction bags with
  | nil => rfl
  | cons b bags ih => rw [List.map_cons, Bag.toJson, bagsOfEntries, ih]; rfl

theorem keyed_bagsToJson {bags : Entries Bag} (h : Entries.Keyed Bag.Keyed bags) :
    (bagsToJson bags).keyed = true :=
  (Json.keyed_object_iff _).mpr (h.mapValues fun _ => Bag.keyed_toJson)

namespace StyleTree

theorem ofMembers_toJson (t : StyleTree) : ofMembers t.toJson = t.mapBags Bag.reread := by
  refine congrArg StyleTree.mk ?_
  change Entries.mapValues bagsOfJson (Entries.mapValues bagsToJson t.visuals) = _
  rw [Entries.mapValues_mapValues]
  simp only [bagsOfJson_bagsToJson]

theorem ofJson_toJson {t : StyleTree} (h : t.Populated) :
    ofJson t.toJson = t.mapBags Bag.reread := by
  rw [ofJson_eq, ofMembers_toJson, (h.mapBags _).populated_eq]

theorem keyed_toJson {t : StyleTree} (h : t.Keyed) : t.toJson.keyed = true :=
  (Json.keyed_object_iff _).mpr (Entries.Keyed.mapValues (fun _ => keyed_bagsToJson) h)

theorem equal_reread_iff {t : StyleTree} (h : t.Holds Value.Readable) :
    (t.mapBags Bag.reread).equal t = true ↔ t.Holds fun v => v.plain = true :=
  Entries.equalBy_mapValues_iff
    (fun _ => Entries.equalBy_mapValues_iff fun _ => Bag.equal_reread_iff) h

theorem reread_eq_self {t : StyleTree} (h : t.Holds Value.Readable)
    (hp : t.Holds fun v => v.plain = true) : t.mapBags Bag.reread = t := by
  refine congrArg StyleTree.mk (Entries.mapValues_eq_self fun v hv => ?_)
  exact Entries.mapValues_eq_self fun w hw => Bag.reread_eq_self
    ((Entries.Keyed.each h v hv).each w hw) ((Entries.Keyed.each hp v hv).each w hw)

end StyleTree

end ReportTheme
