import ReportTheme.Style.Merge
import ReportTheme.Proofs.Style.Tree

/-!
Laws of merging. The keys of a bag keep their places and the keys that only the overlay has come
after them; each value of the overlay is laid over what stands under its key. A change of values
that keeps groups groups can be made before or after merging, and an overlay that is laid over a bag
once more, or a bag over itself, changes nothing.
-/
namespace ReportTheme

def Value.isGroup : Value → Bool
  | .group _ => true
  | _ => false

/-- A change of values that changes groups entry by entry and makes a group of nothing else. -/
structure Value.KeepsGroups (f : Value → Value) : Prop where
  group : ∀ es, f (.group es) = .group (Entries.mapValues f es)
  other : ∀ {v : Value}, v.isGroup = false → (f v).isGroup = false

namespace Value

theorem over_of_not_group {v : Value} (h : v.isGroup = false) (old : Option Value) :
    Value.over old v = v := by
  cases v with
  | group es => cases h
  | _ => rfl

/-- A group takes the place of whatever is no group. -/
theorem over_group_of_not_group {old : Value} (h : old.isGroup = false) (overlay : Bag) :
    Value.over (some old) (.group overlay) = .group overlay := by
  cases old with
  | group es => cases h
  | _ => rfl

theorem map_over_of_not_group {f : Value → Value} (hf : KeepsGroups f) {v : Value}
    (h : v.isGroup = false) (old : Option Value) :
    f (Value.over old v) = Value.over (old.map f) (f v) := by
  rw [over_of_not_group h, over_of_not_group (hf.other h)]

theorem map_over_group_of_not_group {f : Value → Value} (hf : KeepsGroups f) {old : Value}
    (h : old.isGroup = false) (overlay : Bag) :
    f (Value.over (some old) (.group overlay)) =
      Value.over (some (f old)) (f (.group overlay)) := by
  rw [over_group_of_not_group h, hf.group, over_group_of_not_group (hf.other h)]

mutual

theorem map_over {f : Value → Value} (hf : KeepsGroups f) :
    (v : Value) → (old : Option Value) → f (Value.over old v) = Value.over (old.map f) (f v)
  | .group overlay, some (.group base) => by
    rw [Value.over, hf.group, Option.map_some, hf.group, hf.group, Value.over,
      map_mergeFrom hf overlay base]
  | .group overlay, none => by
    rw [Option.map_none, hf.group]
    exact hf.group overlay
  | .group overlay, some (.color _) | .group overlay, some (.number _)
  | .group overlay, some (.bool _) | .group overlay, some (.text _)
  | .group overlay, some (.list _) | .group overlay, some .null =>
    map_over_group_of_not_group hf rfl overlay
  | .color _, old | .number _, old | .bool _, old | .text _, old | .list _, old | .null, old =>
    map_over_of_not_group hf rfl old

/-- Merging first and changing the values then is changing the values first. -/
theorem map_mergeFrom {f : Value → Value} (hf : KeepsGroups f) :
    (overlay : List (String × Value)) → (base : Bag) →
      Entries.mapValues f (Bag.mergeFrom base overlay) =
        Bag.mergeFrom (Entries.mapValues f base) (Entries.mapValues f overlay)
  | [], _ => rfl
  | (k, v) :: overlay, base => by
    rw [Bag.mergeFrom, map_mergeFrom hf overlay, Entries.mapValues_cons, Bag.mergeFrom,
      Entries.get?_mapValues, ← map_over hf v, Entries.insert_mapValues]

end

end Value

namespace Bag

/-- Of an overlay without a repeated key, merging lays each value over what stands under its key. -/
theorem get?_mergeFrom {overlay : List (String × Value)} (h : Entries.Distinct overlay) (base : Bag)
    (key : String) : Entries.get? (mergeFrom base overlay) key =
      ((Entries.get? overlay key).map (Value.over (Entries.get? base key))).or
        (Entries.get? base key) := by
  induction overlay generalizing base with
  | nil => rfl
  | cons e overlay ih =>
    obtain ⟨k, v⟩ := e
    obtain ⟨hk, h⟩ := List.nodup_cons.mp h
    rw [mergeFrom, ih h, Entries.get?_insert, Entries.get?]
    split
    · rename_i hkey
      have hnone : Entries.get? overlay key = none := Entries.get?_eq_none_iff.mpr (hkey ▸ hk)
      rw [hnone, hkey]
      rfl
    · rfl

theorem distinct_mergeFrom {base : Bag} (h : Entries.Distinct base)
    (overlay : List (String × Value)) : Entries.Distinct (mergeFrom base overlay) := by
  induction overlay generalizing base with
  | nil => exact h
  | cons e overlay ih => exact ih (Entries.distinct_upsert h e.1 _)

theorem get?_mergeFrom_of_mem {overlay : List (String × Value)} (h : Entries.Distinct overlay)
    {e : String × Value} (he : e ∈ overlay) (base : Bag) :
    Entries.get? (mergeFrom base overlay) e.1 =
      some (Value.over (Entries.get? base e.1) e.2) := by
  rw [get?_mergeFrom h, Entries.get?_of_mem h he, Option.map_some, Option.some_or]

/-- The keys of the overlay that the bag does not have are added in their order. -/
theorem keys_mergeFrom {overlay : List (String × Value)} (h : Entries.Distinct overlay)
    (base : Bag) : Entries.keys (mergeFrom base overlay) =
      Entries.keys base ++ (Entries.keys overlay).filter fun key => key ∉ Entries.keys base := by
  induction overlay generalizing base with
  | nil => exact (List.append_nil _).symm
  | cons e overlay ih =>
    obtain ⟨k, v⟩ := e
    obtain ⟨hk, h⟩ := List.nodup_cons.mp h
    have hkeys : Entries.keys ((k, v) :: overlay) = k :: Entries.keys overlay := rfl
    rw [mergeFrom, ih h, Entries.keys_insert, hkeys]
    split
    · rename_i hmem
      rw [List.filter_cons_of_neg (by simpa using hmem)]
    · rename_i hmem
      rw [List.filter_cons_of_pos (by simpa using hmem), List.append_assoc, List.singleton_append]
      refine congrArg (fun rest => Entries.keys base ++ k :: rest) (List.filter_congr ?_)
      intro key hkey
      have hne : key ≠ k := fun hkk => hk (hkk ▸ hkey)
      simp [hne]

end Bag

namespace Value

theorem over_none (v : Value) : Value.over none v = v := by cases v <;> rfl

/-- A group is merged into a group and takes the place of everything else. -/
theorem over_group_cases (old : Option Value) (overlay : Bag) :
    (∃ base, old = some (.group base)) ∨ Value.over old (.group overlay) = .group overlay := by
  rcases old with _ | old
  · exact .inr (over_none _)
  · cases old with
    | group base => exact .inl ⟨base, rfl⟩
    | _ => exact .inr rfl

mutual

/-- A value that is laid once more over what it was laid over changes nothing. -/
theorem over_over : (v : Value) → v.keyed = true → (old : Option Value) →
    Value.over (some (Value.over old v)) v = Value.over old v
  | .group overlay, h, old => by
    rw [keyed, Bool.and_eq_true, decide_eq_true_eq] at h
    rcases over_group_cases old overlay with ⟨base, rfl⟩ | hold
    · rw [Value.over, Value.over, mergeFrom_of_shown overlay base _ h.2 fun e he =>
        Bag.get?_mergeFrom_of_mem h.1 he base]
    · rw [hold, Value.over, mergeFrom_of_shown overlay [] _ h.2 fun e he => by
        rw [Entries.get?_of_mem h.1 he, Entries.get?, over_none]]
  | .color _, _, _ | .number _, _, _ | .bool _, _, _ | .text _, _, _ | .list _, _, _
  | .null, _, _ => over_of_not_group rfl _

/-- An overlay changes nothing in a bag that shows each of its values already, laid over the one
that some other bag has there. -/
theorem mergeFrom_of_shown : (overlay : List (String × Value)) → (base bag : Bag) →
    keyedEntries overlay = true →
    (∀ e ∈ overlay, Entries.get? bag e.1 = some (Value.over (Entries.get? base e.1) e.2)) →
    Bag.mergeFrom bag overlay = bag
  | [], _, _, _, _ => rfl
  | (k, v) :: overlay, base, bag, h, hb => by
    rw [keyedEntries, Bool.and_eq_true] at h
    have hv : Entries.get? bag k = some (Value.over (Entries.get? base k) v) :=
      hb (k, v) List.mem_cons_self
    rw [Bag.mergeFrom, hv, over_over v h.1, Entries.insert_eq_self hv,
      mergeFrom_of_shown overlay base bag h.2 fun e he => hb e (List.mem_cons_of_mem _ he)]

end

end Value

namespace Bag

theorem map_merge {f : Value → Value} (hf : Value.KeepsGroups f) (base overlay : Bag) :
    Entries.mapValues f (base.merge overlay) =
      merge (Entries.mapValues f base) (Entries.mapValues f overlay) :=
  Value.map_mergeFrom hf overlay base

theorem merge_merge (base : Bag) (overlay : KeyedBag) :
    (base.merge overlay).merge overlay = base.merge overlay :=
  Value.mergeFrom_of_shown overlay base _ ((Value.keyedEntries_iff _).mpr overlay.2.each)
    fun _ he => get?_mergeFrom_of_mem overlay.2.distinct he base

theorem merge_self (b : KeyedBag) : merge b b = b :=
  Value.mergeFrom_of_shown b [] b ((Value.keyedEntries_iff _).mpr b.2.each) fun e he => by
    rw [Entries.get?_of_mem b.2.distinct he, Entries.get?, Value.over_none]

end Bag

namespace StyleTree

theorem effective_default (t : StyleTree) (visual : String) :
    t.effective visual defaultVariant = (t.defaultBag? visual).getD [] := by
  rw [effective]
  exact if_pos rfl

theorem effective_of_ne (t : StyleTree) (visual : String) {variant : String}
    (h : variant ≠ defaultVariant) : t.effective visual variant =
      (t.bag? visual variant).elim ((t.defaultBag? visual).getD [])
        ((t.defaultBag? visual).getD []).merge := by
  rw [effective]
  refine (if_neg h).trans ?_
  cases t.bag? visual variant <;> rfl

/-- What a variant shows is its bag laid over the default one, also if one or both are missing or
the variant is the default itself. -/
theorem effective_eq (t : KeyedTree) (visual variant : String) :
    t.effective visual variant = ((t.defaultBag? visual).getD []).merge
      ((t.bag? visual variant).getD []) := by
  by_cases hvariant : variant = defaultVariant
  · subst hvariant
    rw [effective_default]
    exact (Bag.merge_self (t.bagD visual defaultVariant)).symm
  · rw [effective_of_ne t.toStyleTree visual hvariant]
    cases t.bag? visual variant <;> rfl

end StyleTree

end ReportTheme
