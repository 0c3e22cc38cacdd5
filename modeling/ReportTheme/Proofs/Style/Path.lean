import ReportTheme.Proofs.Style.Keyed

/-!
What addressing by path does to a bag: what was written stands at its path, and what is removed
stood there; a refused write and a removal that finds nothing leave the bag as it is, no other
top-level property changes, and what holds at every depth still does.
-/
namespace ReportTheme

namespace Value

theorem get?_cons (v : Value) (segment : String) (path : List String) :
    v.get? (segment :: path) = (v.child? segment).bind (·.get? path) := rfl

/-- The item that a segment addresses in a list. -/
theorem item_of_segment {vs : List Value} {segment : String} {i : Nat} {v : Value}
    (h : ((listIndex? segment).bind fun i => vs[i]?.map fun v => (i, v)) = some (i, v)) :
    vs[i]? = some v := by
  obtain ⟨j, -, hj⟩ := Option.bind_eq_some_iff.mp h
  obtain ⟨u, hu, he⟩ := Option.map_eq_some_iff.mp hj
  obtain ⟨rfl, rfl⟩ := Prod.mk.inj he
  exact hu

/-- Nothing can refuse a write below a place where nothing stands. -/
theorem write_null_fst (new : Value) (path : List String) : (write new .null path).1 = true := by
  induction path with
  | nil => rfl
  | cons segment path ih => simpa [write] using ih

/-- A write that is refused changes nothing on its way: what it would have made holds no list. -/
theorem write_snd_of_refused {new : Value} {path : List String} {v : Value}
    (h : (write new v path).1 = false) : (write new v path).2 = v := by
  induction path generalizing v with
  | nil => simp [write] at h
  | cons segment path ih =>
    cases v with
    | list vs =>
      simp only [write] at h ⊢
      split at h
      · rename_i i item hi
        have hget := item_of_segment hi
        obtain ⟨hlt, rfl⟩ := List.getElem?_eq_some_iff.mp hget
        rw [ih h, List.set_getElem_self]
      · rfl
    | group es =>
      simp only [write] at h ⊢
      cases hget : Entries.get? es segment with
      | none =>
        rw [hget, Option.getD_none, write_null_fst] at h
        cases h
      | some child =>
        rw [hget, Option.getD_some] at h
        rw [Option.getD_some, ih h, Entries.insert_eq_self hget]
    | _ =>
      simp only [write, write_null_fst] at h
      cases h

/-- Whether a path leads past the end of a list, or into one by what is no index. -/
def Misses (v : Value) (path : List String) : Prop :=
  ∃ before segment after items, path = before ++ segment :: after ∧
    v.get? before = some (.list items) ∧ (Value.list items).child? segment = none

theorem not_misses_nil (v : Value) : ¬v.Misses [] := by
  rintro ⟨before, segment, after, items, hpath, -⟩
  simp at hpath

theorem misses_cons_iff (v : Value) (segment : String) (path : List String) :
    v.Misses (segment :: path) ↔
      (∃ items, v = .list items ∧ v.child? segment = none) ∨
        ∃ child, v.child? segment = some child ∧ child.Misses path := by
  constructor
  · rintro ⟨before, s, after, items, hpath, hlist, hnone⟩
    cases before with
    | nil =>
      obtain ⟨rfl, rfl⟩ := List.cons.inj hpath
      obtain rfl := Option.some.inj hlist
      exact Or.inl ⟨items, rfl, hnone⟩
    | cons first before =>
      obtain ⟨rfl, rfl⟩ := List.cons.inj hpath
      obtain ⟨child, hchild, hlist⟩ := Option.bind_eq_some_iff.mp hlist
      exact Or.inr ⟨child, hchild, before, s, after, items, rfl, hlist, hnone⟩
  · rintro (⟨items, rfl, hnone⟩ | ⟨child, hchild, before, s, after, items, rfl, hlist, hnone⟩)
    · exact ⟨[], segment, path, items, rfl, rfl, hnone⟩
    · refine ⟨segment :: before, s, after, items, rfl, ?_, hnone⟩
      rw [get?_cons, hchild]
      exact hlist

/-- Where a segment addresses a value the write goes on in it; where it addresses none, only a list
refuses. -/
theorem write_refused_cons_iff (new v : Value) (segment : String) (path : List String) :
    (write new v (segment :: path)).1 = false ↔
      (∃ items, v = .list items ∧ v.child? segment = none) ∨
        ∃ child, v.child? segment = some child ∧ (write new child path).1 = false := by
  cases v with
  | list vs =>
    cases hi : listIndex? segment with
    | none => simp [write, child?, hi]
    | some i => cases hv : vs[i]? <;> simp [write, child?, hi, hv]
  | group es =>
    cases hget : Entries.get? es segment with
    | none => simp [write, child?, hget, write_null_fst]
    | some child => simp [write, child?, hget]
  | _ => simp [write, child?, write_null_fst]

theorem write_refused_iff (new v : Value) (path : List String) :
    (write new v path).1 = false ↔ v.Misses path := by
  induction path generalizing v with
  | nil => exact iff_of_false (by simp [write]) v.not_misses_nil
  | cons segment path ih =>
    rw [write_refused_cons_iff, misses_cons_iff]
    simp only [ih]

/-- What a segment stands for in a value: an index, where it is one into a list, else a key. -/
def step (v : Value) (segment : String) : Nat ⊕ String :=
  match v, listIndex? segment with
  | .list _, some i => .inl i
  | _, _ => .inr segment

theorem child?_of_step_eq {v : Value} {s r : String} (h : v.step s = v.step r) :
    v.child? s = v.child? r := by
  cases v with
  | list vs => cases hs : listIndex? s <;> cases hr : listIndex? r <;> simp_all [step, child?]
  | _ =>
    obtain rfl := Sum.inr.inj h
    rfl

/-- A write that is done is done below its first segment too. -/
theorem write_fst_of_cons {new v : Value} {segment : String} {path : List String}
    (h : (write new v (segment :: path)).1 = true) :
    (write new ((v.child? segment).getD .null) path).1 = true := by
  rw [← Bool.not_eq_false, write_refused_cons_iff, not_or] at h
  cases hchild : v.child? segment with
  | none => exact write_null_fst new path
  | some child =>
    rw [Option.getD_some, ← Bool.not_eq_false]
    exact fun hrefused => h.2 ⟨child, hchild, hrefused⟩

/-- A write that is done changes what its first segment stands for, and no other child. -/
theorem child?_write {new v : Value} {segment : String} {path : List String}
    (h : (write new v (segment :: path)).1 = true) (other : String) :
    (write new v (segment :: path)).2.child? other =
      if v.step segment = v.step other then
        some (write new ((v.child? segment).getD .null) path).2
      else v.child? other := by
  cases v with
  | list vs =>
    simp only [write] at h ⊢
    split at h
    · rename_i i item hi
      obtain ⟨j, hj, hitem⟩ := Option.bind_eq_some_iff.mp hi
      obtain ⟨u, hu, he⟩ := Option.map_eq_some_iff.mp hitem
      obtain ⟨rfl, rfl⟩ := Prod.mk.inj he
      obtain ⟨hlt, rfl⟩ := List.getElem?_eq_some_iff.mp hu
      cases ho : listIndex? other with
      | none => simp [child?, step, hj, ho]
      | some k =>
        by_cases hk : j = k
        · subst hk
          simp [child?, step, hj, ho, hlt]
        · simp [child?, step, hj, ho, hk]
    · cases h
  | group es => simp [write, child?, step, Entries.get?_insert]
  | _ => simp [write, child?, step, Entries.get?]

/-- What was written is read at the same path. -/
theorem get?_write {new : Value} {path : List String} {v : Value}
    (h : (write new v path).1 = true) : (write new v path).2.get? path = some new := by
  induction path generalizing v with
  | nil => rfl
  | cons segment path ih =>
    rw [get?_cons, child?_write h, if_pos rfl, Option.bind_some]
    exact ih (write_fst_of_cons h)

/-- A written value has what its parts have. -/
theorem Hereditary.write {P : Value → Prop} (hP : Hereditary P) {new : Value} (hn : P new)
    {path : List String} {v : Value} (h : P v) : P (Value.write new v path).2 := by
  induction path generalizing v with
  | nil => exact hn
  | cons segment path ih =>
    cases v with
    | list vs =>
      simp only [Value.write]
      split
      · rename_i i item hi
        have hitem := (hP.list vs).mp h item (List.mem_of_getElem? (item_of_segment hi))
        exact hP.list_set h i (ih hitem)
      · exact h
    | group es =>
      have hes := (hP.group es).mp h
      exact (hP.group _).mpr (hes.insert segment (ih (hP.getD_get? hes segment)))
    | _ => exact (hP.group _).mpr ((Entries.keyed_nil P).insert segment (ih hP.null))

theorem take?_group_last (es : Bag) (segment : String) :
    (Value.group es).take? [segment] =
      (Entries.get? es segment).map fun old => (old, .group (Entries.erase es segment)) := by
  cases h : Entries.get? es segment <;> simp [take?, child?, h]

theorem take?_group_cons (es : Bag) (segment next : String) (path : List String) :
    (Value.group es).take? (segment :: next :: path) =
      (Entries.get? es segment).bind fun child => (child.take? (next :: path)).map fun t =>
        (t.1, .group (Entries.insert es segment t.2)) := by
  cases h : Entries.get? es segment with
  | none => simp [take?, child?, h]
  | some child => cases ht : child.take? (next :: path) <;> simp [take?, child?, h, ht]

theorem take?_list_last (vs : List Value) (segment : String) :
    (Value.list vs).take? [segment] =
      (listIndex? segment).bind fun i => vs[i]?.map fun old => (old, .list (vs.eraseIdx i)) := by
  cases hi : listIndex? segment with
  | none => simp [take?, child?, hi]
  | some i => cases hv : vs[i]? <;> simp [take?, child?, hi, hv]

theorem take?_list_cons (vs : List Value) (segment next : String) (path : List String) :
    (Value.list vs).take? (segment :: next :: path) =
      (listIndex? segment).bind fun i => vs[i]?.bind fun child =>
        (child.take? (next :: path)).map fun t => (t.1, .list (vs.set i t.2)) := by
  cases hi : listIndex? segment with
  | none => simp [take?, child?, hi]
  | some i =>
    cases hv : vs[i]? with
    | none => simp [take?, child?, hi, hv]
    | some child => cases ht : child.take? (next :: path) <;> simp [take?, child?, hi, hv, ht]

/-- Nothing can be taken out of a scalar. -/
theorem take?_scalar {v : Value} (hc : ∀ segment, v.child? segment = none) (path : List String) :
    v.take? path = none := by
  rcases path with _ | ⟨segment, _ | ⟨next, path⟩⟩ <;> simp [take?, hc]

theorem map_fst_take?_last (v : Value) (segment : String) :
    (v.take? [segment]).map Prod.fst = v.child? segment := by
  cases v with
  | group es =>
    rw [take?_group_last]
    cases h : Entries.get? es segment <;> simp [child?, h]
  | list vs =>
    rw [take?_list_last]
    cases hi : listIndex? segment with
    | none => simp [child?, hi]
    | some i => cases hv : vs[i]? <;> simp [child?, hi, hv]
  | _ => rfl

theorem map_fst_take?_cons (v : Value) (segment next : String) (path : List String) :
    (v.take? (segment :: next :: path)).map Prod.fst =
      (v.child? segment).bind fun child => (child.take? (next :: path)).map Prod.fst := by
  cases v with
  | group es =>
    rw [take?_group_cons]
    cases h : Entries.get? es segment <;> simp [child?, h, Function.comp_def]
  | list vs =>
    rw [take?_list_cons]
    cases hi : listIndex? segment with
    | none => simp [child?, hi]
    | some i => cases hv : vs[i]? <;> simp [child?, hi, hv, Function.comp_def]
  | _ => rfl

/-- What is taken out is what stood at the path. -/
theorem map_fst_take? (v : Value) {path : List String} (hp : path ≠ []) :
    (v.take? path).map Prod.fst = v.get? path := by
  induction path generalizing v with
  | nil => exact absurd rfl hp
  | cons segment path ih =>
    cases path with
    | nil =>
      rw [map_fst_take?_last, get?_cons]
      exact (Option.bind_fun_some _).symm
    | cons next path =>
      rw [map_fst_take?_cons, get?_cons]
      exact Option.bind_congr fun child _ => ih child (List.cons_ne_nil next path)

theorem Hereditary.take? {P : Value → Prop} (hP : Hereditary P) {path : List String} {v : Value}
    {t : Value × Value} (h : P v) (ht : v.take? path = some t) : P t.2 := by
  induction path generalizing v t with
  | nil => simp [Value.take?] at ht
  | cons segment path ih =>
    cases v with
    | group es =>
      have hes := (hP.group es).mp h
      cases path with
      | nil =>
        rw [take?_group_last] at ht
        obtain ⟨old, -, rfl⟩ := Option.map_eq_some_iff.mp ht
        exact (hP.group _).mpr (hes.erase segment)
      | cons next path =>
        rw [take?_group_cons] at ht
        obtain ⟨child, hchild, ht⟩ := Option.bind_eq_some_iff.mp ht
        obtain ⟨u, hu, rfl⟩ := Option.map_eq_some_iff.mp ht
        exact (hP.group _).mpr (hes.insert segment (ih (hes.get? hchild) hu))
    | list vs =>
      cases path with
      | nil =>
        rw [take?_list_last] at ht
        obtain ⟨i, -, ht⟩ := Option.bind_eq_some_iff.mp ht
        obtain ⟨old, -, rfl⟩ := Option.map_eq_some_iff.mp ht
        exact hP.list_eraseIdx h i
      | cons next path =>
        rw [take?_list_cons] at ht
        obtain ⟨i, -, ht⟩ := Option.bind_eq_some_iff.mp ht
        obtain ⟨child, hchild, ht⟩ := Option.bind_eq_some_iff.mp ht
        obtain ⟨u, hu, rfl⟩ := Option.map_eq_some_iff.mp ht
        have hitem := (hP.list vs).mp h child (List.mem_of_getElem? hchild)
        exact hP.list_set h i (ih hitem hu)
    | _ =>
      rw [take?_scalar fun segment => rfl] at ht
      cases ht

/-- What is left of a group is a group, in which only the first segment of the path is touched. -/
theorem take?_group {es : Bag} {segment : String} {path : List String} {t : Value × Value}
    (ht : (Value.group es).take? (segment :: path) = some t) :
    ∃ left, t.2 = .group left ∧
      ∀ key, key ≠ segment → Entries.get? left key = Entries.get? es key := by
  cases path with
  | nil =>
    rw [take?_group_last] at ht
    obtain ⟨old, -, rfl⟩ := Option.map_eq_some_iff.mp ht
    exact ⟨_, rfl, fun key hkey => by rw [Entries.get?_erase, if_neg hkey.symm]⟩
  | cons next path =>
    rw [take?_group_cons] at ht
    obtain ⟨child, -, ht⟩ := Option.bind_eq_some_iff.mp ht
    obtain ⟨u, -, rfl⟩ := Option.map_eq_some_iff.mp ht
    exact ⟨_, rfl, fun key hkey => by rw [Entries.get?_insert, if_neg hkey.symm]⟩

end Value

namespace Bag

theorem getPath?_cons (b : Bag) (key : String) (rest : List String) :
    b.getPath? (key :: rest) = (Entries.get? b key).bind (·.get? rest) := rfl

theorem setPath_of_refused {b : Bag} {path : List String} {v : Value}
    (h : (b.setPath path v).1 ≠ .ok ()) : (b.setPath path v).2 = b := by
  cases path with
  | nil => rfl
  | cons key rest =>
    simp only [setPath] at h ⊢
    have hw : (Value.write v ((Entries.get? b key).getD .null) rest).1 = false := by
      rw [Bool.eq_false_iff]
      intro hw
      simp [hw] at h
    cases hget : Entries.get? b key with
    | none =>
      rw [hget, Option.getD_none, Value.write_null_fst] at hw
      cases hw
    | some child =>
      rw [hget, Option.getD_some] at hw
      rw [Option.getD_some, Value.write_snd_of_refused hw, Entries.insert_eq_self hget]

/-- Whether a path is one that writes are refused by: it is empty, or misses a list. -/
def Refuses (b : Bag) (path : List String) : Prop := path = [] ∨ (Value.group b).Misses path

theorem refuses_cons_iff {b : Bag} {key : String} {rest : List String} :
    b.Refuses (key :: rest) ↔ ∃ child, Entries.get? b key = some child ∧ child.Misses rest := by
  rw [Refuses, Value.misses_cons_iff]
  simp [Value.child?]

/-- A write is refused by its path and changes nothing, or what was written stands at the path. -/
theorem setPath_cases (b : Bag) (path : List String) (v : Value) :
    (b.Refuses path ∧ b.setPath path v = (.error (.invalidPath path), b)) ∨
      (b.setPath path v).1 = .ok () ∧ (b.setPath path v).2.getPath? path = some v := by
  cases path with
  | nil => exact Or.inl ⟨Or.inl rfl, rfl⟩
  | cons key rest =>
    cases hw : (Value.write v ((Entries.get? b key).getD .null) rest).1 with
    | false =>
      have hrefused : (b.setPath (key :: rest) v).1 = .error (.invalidPath (key :: rest)) := by
        simp [setPath, hw]
      refine Or.inl ⟨refuses_cons_iff.mpr ?_, Prod.ext hrefused (setPath_of_refused ?_)⟩
      · cases hget : Entries.get? b key with
        | none =>
          rw [hget, Option.getD_none, Value.write_null_fst] at hw
          cases hw
        | some child =>
          rw [hget, Option.getD_some, Value.write_refused_iff] at hw
          exact ⟨child, rfl, hw⟩
      · simp [hrefused]
    | true =>
      refine Or.inr ⟨by simp [setPath, hw], ?_⟩
      simp only [setPath, getPath?_cons, Entries.get?_insert, if_true, Option.bind_some]
      exact Value.get?_write hw

theorem get?_setPath {b : Bag} {key other : String} (rest : List String) (v : Value)
    (h : other ≠ key) :
    Entries.get? (b.setPath (key :: rest) v).2 other = Entries.get? b other := by
  simp only [setPath]
  rw [Entries.get?_insert, if_neg h.symm]

/-- A removal either finds nothing and changes nothing, or is that of the value. -/
theorem removePath_cases (b : Bag) (segment : String) (path : List String) :
    b.removePath (segment :: path) = (none, b) ∨
      ∃ t left, (Value.group b).take? (segment :: path) = some (t, .group left) ∧
        b.removePath (segment :: path) = (some t, left) := by
  cases ht : (Value.group b).take? (segment :: path) with
  | none => exact Or.inl (by simp [removePath, ht])
  | some t =>
    obtain ⟨old, rest⟩ := t
    obtain ⟨left, rfl, -⟩ := Value.take?_group ht
    exact Or.inr ⟨old, left, rfl, by simp [removePath, ht]⟩

/-- A removal gives what stood at the path. -/
theorem removePath_fst (b : Bag) (path : List String) :
    (b.removePath path).1 = b.getPath? path := by
  cases path with
  | nil => rfl
  | cons key rest =>
    have htake : ((Value.group b).take? (key :: rest)).map Prod.fst = b.getPath? (key :: rest) :=
      Value.map_fst_take? _ (List.cons_ne_nil key rest)
    rw [← htake]
    cases ht : (Value.group b).take? (key :: rest) with
    | none => simp [removePath, ht]
    | some t =>
      obtain ⟨old, rest⟩ := t
      obtain ⟨left, rfl, -⟩ := Value.take?_group ht
      simp [removePath, ht]

theorem get?_removePath {b : Bag} {segment other : String} (path : List String)
    (h : other ≠ segment) :
    Entries.get? (b.removePath (segment :: path)).2 other = Entries.get? b other := by
  rcases removePath_cases b segment path with hr | ⟨old, left, ht, hr⟩
  · rw [hr]
  · obtain ⟨left', he, hleft⟩ := Value.take?_group ht
    obtain rfl := Value.group.inj he
    rw [hr]
    exact hleft other h

end Bag

namespace Value.Hereditary

variable {P : Value → Prop}

theorem setPath (hP : Hereditary P) {b : Bag} (hb : Entries.Keyed P b) (path : List String)
    {v : Value} (hv : P v) : Entries.Keyed P (b.setPath path v).2 := by
  cases path with
  | nil => exact hb
  | cons key rest => exact hb.insert key (hP.write hv (hP.getD_get? hb key))

theorem removePath (hP : Hereditary P) {b : Bag} (hb : Entries.Keyed P b) (path : List String) :
    Entries.Keyed P (b.removePath path).2 := by
  rw [Bag.removePath]
  split
  · rename_i old left ht
    exact (hP.group left).mp (hP.take? ((hP.group b).mpr hb) ht)
  · exact hb

end Value.Hereditary

end ReportTheme
