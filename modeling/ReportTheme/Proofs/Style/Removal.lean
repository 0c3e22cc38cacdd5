import ReportTheme.Proofs.Style.Parting

/-!
Removing what stands at a path. Reading, finding the holder of a value and taking it out go the same
way down: what is taken out is what was read, its holder loses it and closes the gap, and around the
holder all is as it was. So it can also be done in two steps, the holder first and then what it
holds.
-/
namespace ReportTheme

namespace Value

/-- A group loses the entry that a segment is the key of, and a list the item that it is the index
of. What else they hold stays in order. -/
inductive Loses (segment : String) (old : Value) : Value → Value → Prop
  | key {es : List (String × Value)} : Entries.get? es segment = some old →
      Loses segment old (.group es) (.group (es.filter fun e => e.1 ≠ segment))
  | item {before after : List Value} : listIndex? segment = some before.length →
      Loses segment old (.list (before ++ old :: after)) (.list (before ++ after))

/-- Two values that are the same around a path, where the one has `old` and the other `new`. -/
inductive Exchange (old new : Value) : List String → Value → Value → Prop
  | here : Exchange old new [] old new
  | key {before after : List (String × Value)} {key : String} {path : List String} {v w : Value} :
      key ∉ Entries.keys before → Exchange old new path v w →
      Exchange old new (key :: path) (.group (before ++ (key, v) :: after))
        (.group (before ++ (key, w) :: after))
  | item {before after : List Value} {segment : String} {path : List String} {v w : Value} :
      listIndex? segment = some before.length → Exchange old new path v w →
      Exchange old new (segment :: path) (.list (before ++ v :: after))
        (.list (before ++ w :: after))

theorem Exchange.symm {old new v w : Value} {path : List String}
    (h : Exchange old new path v w) : Exchange new old path w v := by
  induction h with
  | here => exact .here
  | key hkey _ ih => exact .key hkey ih
  | item hindex _ ih => exact .item hindex ih

theorem child?_group_append {before : Bag} {key : String} (h : key ∉ Entries.keys before)
    (v : Value) (after : Bag) :
    (Value.group (before ++ (key, v) :: after)).child? key = some v := by
  rw [child?, Entries.get?_append_of_not_mem h, Entries.get?, if_pos rfl]

theorem child?_list_append {before : List Value} {segment : String}
    (h : listIndex? segment = some before.length) (v : Value) (after : List Value) :
    (Value.list (before ++ v :: after)).child? segment = some v := by
  rw [child?, h, Option.bind_some, List.getElem?_append_right (Nat.le_refl _), Nat.sub_self,
    List.getElem?_cons_zero]

/-- What is exchanged is read at the path. -/
theorem Exchange.get? {old new v w : Value} {path : List String}
    (h : Exchange old new path v w) : v.get? path = some old := by
  induction h with
  | here => rfl
  | key hkey _ ih => rw [get?_cons, child?_group_append hkey, Option.bind_some, ih]
  | item hindex _ ih => rw [get?_cons, child?_list_append hindex, Option.bind_some, ih]

theorem split_of_getElem? {vs : List Value} {i : Nat} {v : Value} (h : vs[i]? = some v) :
    ∃ before after, vs = before ++ v :: after ∧ before.length = i := by
  obtain ⟨hlt, rfl⟩ := List.getElem?_eq_some_iff.mp h
  refine ⟨vs.take i, vs.drop (i + 1), ?_, List.length_take_of_le (Nat.le_of_lt hlt)⟩
  rw [List.getElem_cons_drop, List.take_append_drop]

/-- Takes a child out of the group or the list that holds it. -/
def takeChild? (v : Value) (segment : String) : Option (Value × Value) :=
  match v with
  | .group es => (Entries.get? es segment).map fun old => (old, .group (Entries.erase es segment))
  | .list vs =>
    (listIndex? segment).bind fun i => vs[i]?.map fun old => (old, .list (vs.eraseIdx i))
  | _ => none

theorem take?_singleton (v : Value) (segment : String) :
    v.take? [segment] = v.takeChild? segment := by
  cases v with
  | group es => exact take?_group_last es segment
  | list vs => exact take?_list_last vs segment
  | _ => rfl

theorem write_group_of_get? {es : Bag} {segment : String} {child : Value}
    (h : Entries.get? es segment = some child) (new : Value) (path : List String) :
    (write new (.group es) (segment :: path)).2 =
      .group (Entries.insert es segment (write new child path).2) := by
  simp only [write, h, Option.getD_some]

theorem write_list_of_getElem? {vs : List Value} {segment : String} {i : Nat} {item : Value}
    (hi : listIndex? segment = some i) (hitem : vs[i]? = some item) (new : Value)
    (path : List String) :
    (write new (.list vs) (segment :: path)).2 = .list (vs.set i (write new item path).2) := by
  simp only [write, hi, hitem, Option.bind_some, Option.map_some]

/-- Taking out by way of the holder: the segments but the last lead to it, and what is left of it is
written where it stood. -/
theorem take?_concat (v : Value) (parents : List String) (last : String) :
    v.take? (parents ++ [last]) = (v.get? parents).bind fun holder =>
      (holder.takeChild? last).map fun t => (t.1, (write t.2 v parents).2) := by
  induction parents generalizing v with
  | nil =>
    rw [List.nil_append, take?_singleton, get?, Option.bind_some]
    exact Option.map_id'.symm
  | cons segment parents ih =>
    obtain ⟨next, path, hnext⟩ : ∃ next path, parents ++ [last] = next :: path :=
      List.exists_cons_of_ne_nil (by simp)
    rw [List.cons_append, hnext, get?_cons]
    cases v with
    | group es =>
      rw [take?_group_cons, child?, ← hnext]
      cases hchild : Entries.get? es segment with
      | none => rfl
      | some child =>
        rw [Option.bind_some, Option.bind_some, ih, Option.map_bind]
        simp only [Function.comp_def, Option.map_map, write_group_of_get? hchild]
    | list vs =>
      rw [take?_list_cons, child?, ← hnext]
      cases hi : listIndex? segment with
      | none => rfl
      | some i =>
        cases hitem : vs[i]? with
        | none => simp [hitem]
        | some item =>
          rw [Option.bind_some, Option.bind_some, hitem, Option.bind_some, Option.bind_some, ih,
            Option.map_bind]
          simp only [Function.comp_def, Option.map_map, write_list_of_getElem? hi hitem]
    | _ => rfl

/-- At the end of the path the holder loses the value. -/
theorem loses_of_take? {v : Value} {segment : String} {t : Value × Value}
    (ht : v.take? [segment] = some t) : Loses segment t.1 v t.2 := by
  cases v with
  | group es =>
    rw [take?_group_last] at ht
    obtain ⟨old, hold, rfl⟩ := Option.map_eq_some_iff.mp ht
    exact .key hold
  | list vs =>
    rw [take?_list_last] at ht
    obtain ⟨i, hi, ht⟩ := Option.bind_eq_some_iff.mp ht
    obtain ⟨old, hold, rfl⟩ := Option.map_eq_some_iff.mp ht
    obtain ⟨before, after, rfl, rfl⟩ := split_of_getElem? hold
    rw [List.eraseIdx_append_of_length_le (Nat.le_refl _), Nat.sub_self, List.eraseIdx_cons_zero]
    exact .item hi
  | _ => cases ht

/-- Above that, one child gives way to what is left of it. -/
theorem exchange_of_take?_cons {v : Value} {segment next : String} {path : List String}
    {t : Value × Value} (ht : v.take? (segment :: next :: path) = some t) :
    ∃ child left, child.take? (next :: path) = some (t.1, left) ∧
      ∀ {old new : Value} {parents : List String}, Exchange old new parents child left →
        Exchange old new (segment :: parents) v t.2 := by
  cases v with
  | group es =>
    rw [take?_group_cons] at ht
    obtain ⟨child, hchild, ht⟩ := Option.bind_eq_some_iff.mp ht
    obtain ⟨u, hu, rfl⟩ := Option.map_eq_some_iff.mp ht
    obtain ⟨before, after, rfl, hkey⟩ := Entries.split_of_get? hchild
    refine ⟨child, u.2, hu, fun hexchange => ?_⟩
    rw [Entries.insert_append_cons hkey]
    exact .key hkey hexchange
  | list vs =>
    rw [take?_list_cons] at ht
    obtain ⟨i, hi, ht⟩ := Option.bind_eq_some_iff.mp ht
    obtain ⟨child, hchild, ht⟩ := Option.bind_eq_some_iff.mp ht
    obtain ⟨u, hu, rfl⟩ := Option.map_eq_some_iff.mp ht
    obtain ⟨before, after, rfl, rfl⟩ := split_of_getElem? hchild
    refine ⟨child, u.2, hu, fun hexchange => ?_⟩
    rw [List.set_append_right _ _ (Nat.le_refl _), Nat.sub_self, List.set_cons_zero]
    exact .item hi hexchange
  | _ => cases ht

/-- Taking a value out is an exchange of what holds it. -/
theorem exchange_of_take? {path : List String} {v : Value} {t : Value × Value}
    (ht : v.take? path = some t) :
    ∃ parents last holder left, path = parents ++ [last] ∧ Loses last t.1 holder left ∧
      Exchange holder left parents v t.2 := by
  induction path generalizing v t with
  | nil => cases ht
  | cons segment path ih =>
    cases path with
    | nil => exact ⟨[], segment, v, t.2, rfl, loses_of_take? ht, .here⟩
    | cons next path =>
      obtain ⟨child, rest, hchild, habove⟩ := exchange_of_take?_cons ht
      obtain ⟨parents, last, holder, left, hpath, hloses, hexchange⟩ := ih hchild
      refine ⟨segment :: parents, last, holder, left, ?_, hloses, habove hexchange⟩
      rw [hpath, List.cons_append]

end Value

namespace Bag

/-- Removal as a change of the holder in place: the last segment is split off, and the others lead
to the value that loses it. -/
def removeAtHolder (b : Bag) (path : List String) : Option Value × Bag :=
  match path.getLast?, path.dropLast with
  | none, _ => (none, b)
  | some last, [] => (Entries.get? b last, Entries.erase b last)
  | some last, key :: parents =>
    match (b.getPath? (key :: parents)).bind (·.takeChild? last) with
    | some (old, left) => (some old, (b.setPath (key :: parents) left).2)
    | none => (none, b)

theorem removePath_eq_removeAtHolder (b : Bag) (path : List String) :
    b.removePath path = b.removeAtHolder path := by
  rcases path.eq_nil_or_concat with rfl | ⟨parents, last, rfl⟩
  · rfl
  · rw [List.concat_eq_append, removePath, removeAtHolder, Value.take?_concat,
      List.getLast?_concat, List.dropLast_concat]
    cases parents with
    | nil =>
      rw [Value.get?, Option.bind_some, Value.takeChild?]
      dsimp only
      cases hold : Entries.get? b last with
      | none => exact congrArg (Prod.mk none) (Entries.erase_eq_self hold).symm
      | some old => rfl
    | cons key parents =>
      have hget : b.getPath? (key :: parents) = (Value.group b).get? (key :: parents) := rfl
      dsimp only
      rw [hget]
      cases (Value.group b).get? (key :: parents) with
      | none => rfl
      | some holder =>
        rw [Option.bind_some, Option.bind_some]
        cases holder.takeChild? last <;> rfl

/-- A removal finds nothing and changes nothing, or it gives what is read at the path. Then the
group or list that holds the value at the last segment loses it, and keeps its own place although it
may be empty now; nothing around it has changed. -/
theorem path_removal_frame (b : Bag) (path : List String) :
    (b.getPath? path = none ∧ b.removePath path = (none, b)) ∨
    ∃ parents last old rest holder left, path = parents ++ [last] ∧
      b.getPath? path = some old ∧ b.removePath path = (some old, rest) ∧
      (Value.group b).get? parents = some holder ∧
      (Value.group rest).get? parents = some left ∧
      Value.Loses last old holder left ∧
      Value.Exchange holder left parents (.group b) (.group rest) := by
  have hread := b.removePath_fst path
  cases path with
  | nil => exact Or.inl ⟨rfl, rfl⟩
  | cons segment path =>
    rcases removePath_cases b segment path with hnone | ⟨old, rest, ht, hremoved⟩
    · rw [hnone] at hread
      exact Or.inl ⟨hread.symm, hnone⟩
    · rw [hremoved] at hread
      obtain ⟨parents, last, holder, left, hpath, hloses, hexchange⟩ := Value.exchange_of_take? ht
      exact Or.inr ⟨parents, last, old, rest, holder, left, hpath, hread.symm, hremoved,
        hexchange.get?, hexchange.symm.get?, hloses, hexchange⟩

/-- A list that has lost its only item stays. -/
example : removePath [("border", .list [.bool true]), ("title", .null)] ["border", "00"] =
    (some (.bool true), [("border", .list []), ("title", .null)]) := rfl

end Bag

end ReportTheme
