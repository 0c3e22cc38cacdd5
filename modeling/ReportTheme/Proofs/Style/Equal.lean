import ReportTheme.Proofs.Style.Unsigned

/-!
The equality that ignores the order of keys. Values that differ in signs of zero only are equal, in
whichever order they are compared, if no key stands twice; so are bags and style trees.
-/
namespace ReportTheme

namespace Entries

variable {α β : Type} {f : α → β} {a b : Entries α}

/-- Maps whose values look alike hold values that look alike under every key. -/
theorem exists_get?_of_mapValues (hd : Distinct b) (h : mapValues f a = mapValues f b)
    {e : String × α} (he : e ∈ a) : ∃ w, get? b e.1 = some w ∧ f e.2 = f w := by
  have hm : (e.1, f e.2) ∈ mapValues f b := h ▸ List.mem_map_of_mem he
  obtain ⟨d, hdb, hde⟩ := List.mem_map.mp hm
  obtain ⟨hkey, hvalue⟩ := Prod.mk.inj hde
  exact ⟨d.2, hkey ▸ get?_of_mem hd hdb, hvalue.symm⟩

theorem equalBy_of_mapValues {P : α → Prop} {eq : α → α → Bool}
    (heq : ∀ v w, P w → f v = f w → eq v w = true) (hb : Keyed P b)
    (h : mapValues f a = mapValues f b) : equalBy eq a b = true := by
  have hlen : a.length = b.length := by
    have hl := congrArg List.length h
    simpa [mapValues] using hl
  have hall : ∀ e ∈ a, (get? b e.1).any (eq e.2) = true := by
    intro e he
    obtain ⟨w, hw, hf⟩ := exists_get?_of_mapValues hb.distinct h he
    rw [hw, Option.any_some]
    exact heq e.2 w (hb.get? hw) hf
  rw [equalBy, hlen, beq_self_eq_true, Bool.true_and, List.all_eq_true]
  exact hall

end Entries

namespace Value

theorem equalEntries_eq_all (a : List (String × Value)) (b : Bag) :
    equalEntries a b = a.all fun e => (Entries.get? b e.1).any (equal e.2) := by
  induction a with
  | nil => rw [equalEntries, List.all_nil]
  | cons e a ih =>
    obtain ⟨k, v⟩ := e
    rw [equalEntries, List.all_cons, ih]
    cases Entries.get? b k <;> rfl

theorem equal_group (a b : Bag) : (Value.group a).equal (.group b) = Entries.equalBy equal a b := by
  rw [equal, equalEntries_eq_all, Entries.equalBy]

mutual

theorem equal_of_unsigned : (v w : Value) → w.keyed = true → v.unsigned = w.unsigned →
    v.equal w = true
  | .color c, w, _, h => by
    cases w <;> simp only [unsigned, reduceCtorEq, Value.color.injEq] at h
    rw [equal, Color.equal_iff, h]
  | .number n, w, _, h => by
    cases w <;> simp only [unsigned, reduceCtorEq, Value.number.injEq] at h
    rw [equal, Number.equal_iff, h]
  | .bool b, w, _, h => by
    cases w <;> simp only [unsigned, reduceCtorEq, Value.bool.injEq] at h
    rw [equal, h, beq_self_eq_true]
  | .text s, w, _, h => by
    cases w <;> simp only [unsigned, reduceCtorEq, Value.text.injEq] at h
    rw [equal, h, beq_self_eq_true]
  | .null, w, _, h => by
    cases w <;> simp only [unsigned, reduceCtorEq] at h
    rw [equal]
  | .list vs, w, hw, h => by
    cases w <;> simp only [unsigned, reduceCtorEq, Value.list.injEq] at h
    rw [keyed] at hw
    rw [equal]
    exact equalItems_of_unsigned vs _ hw h
  | .group a, w, hw, h => by
    cases w <;> simp only [unsigned, reduceCtorEq, Value.group.injEq] at h
    rename_i b
    have hb := (keyed_group_iff b).mp hw
    rw [unsignedEntries_eq, unsignedEntries_eq] at h
    have hlen := congrArg List.length h
    have hentries := equalEntries_of_unsigned a b hb fun e he =>
      Entries.exists_get?_of_mapValues hb.distinct h he
    rw [equal, hentries, Bool.and_true, beq_iff_eq]
    simpa [Entries.mapValues] using hlen

theorem equalItems_of_unsigned : (vs ws : List Value) → keyedItems ws = true →
    unsignedItems vs = unsignedItems ws → equalItems vs ws = true
  | [], ws, _, h => by
    cases ws with
    | nil => rw [equalItems]
    | cons w ws => simp [unsignedItems] at h
  | v :: vs, [], _, h => by simp [unsignedItems] at h
  | v :: vs, w :: ws, hw, h => by
    rw [keyedItems, Bool.and_eq_true] at hw
    simp only [unsignedItems, List.cons.injEq] at h
    rw [equalItems, equal_of_unsigned v w hw.1 h.1, equalItems_of_unsigned vs ws hw.2 h.2]
    rfl

/-- Entries that have their like in a map have their equal there. -/
theorem equalEntries_of_unsigned : (es : List (String × Value)) → (b : Bag) → b.Keyed →
    (∀ e ∈ es, ∃ w, Entries.get? b e.1 = some w ∧ e.2.unsigned = w.unsigned) →
    equalEntries es b = true
  | [], _, _, _ => by rw [equalEntries]
  | (k, v) :: es, b, hb, h => by
    obtain ⟨w, hw, hv⟩ := h (k, v) (by simp)
    have hes := equalEntries_of_unsigned es b hb fun e he => h e (by simp [he])
    have hequal := equal_of_unsigned v w (hb.get? hw) hv
    simp [equalEntries, hw, hequal, hes]

end

theorem equal_refl {v : Value} (h : v.keyed = true) : v.equal v = true :=
  equal_of_unsigned v v h rfl

end Value

theorem Bag.equal_of_unsigned {a b : Bag} (hb : b.Keyed) (h : a.unsigned = b.unsigned) :
    a.equal b = true :=
  Value.equal_of_unsigned (.group a) (.group b) ((Value.keyed_group_iff b).mpr hb)
    (congrArg Value.group h)

/-- Bags by name, as they stand in a document or below a visual type. -/
theorem Bag.equalBy_of_unsigned {a b : Entries Bag} (hb : Entries.Keyed Bag.Keyed b)
    (h : Entries.mapValues Bag.unsigned a = Entries.mapValues Bag.unsigned b) :
    Entries.equalBy Bag.equal a b = true :=
  Entries.equalBy_of_mapValues (fun _ _ => Bag.equal_of_unsigned) hb h

theorem StyleTree.equal_of_unsigned {s t : StyleTree} (ht : t.Keyed) (h : s.unsigned = t.unsigned) :
    s.equal t = true :=
  Entries.equalBy_of_mapValues (fun _ _ => Bag.equalBy_of_unsigned) ht
    ((StyleTree.mk.injEq _ _).mp h)

end ReportTheme
