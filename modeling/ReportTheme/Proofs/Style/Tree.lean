import ReportTheme.Proofs.Style.Path

/-!
What changes of a style tree do to its bags: each changes the bag it names and no other, what holds
of all values still does, and a tree can be put together from bags before or after all of them are
changed alike.
-/
namespace ReportTheme

namespace StyleTree

/-- A tree of values with a property, in which no visual type, variant or property stands twice. -/
def Holds (P : Value → Prop) (t : StyleTree) : Prop :=
  Entries.Keyed (Entries.Keyed (Entries.Keyed P)) t.visuals

/-- A tree in which no key stands twice, from the visual types down into the values. -/
def Keyed (t : StyleTree) : Prop := Entries.Keyed (Entries.Keyed Bag.Keyed) t.visuals

instance (P : Value → Prop) [DecidablePred P] (t : StyleTree) : Decidable (t.Holds P) :=
  inferInstanceAs (Decidable (Entries.Keyed (Entries.Keyed (Entries.Keyed P)) t.visuals))

instance (t : StyleTree) : Decidable t.Keyed :=
  inferInstanceAs (Decidable (Entries.Keyed (Entries.Keyed Bag.Keyed) t.visuals))

/-- A top-level property of a variant. -/
def property? (t : StyleTree) (visual variant property : String) : Option Value :=
  (t.bag? visual variant).bind (Entries.get? · property)

theorem bag?_modify (t : StyleTree) (visual variant v w : String) (f : Bag → Bag) :
    (t.modify visual variant f).bag? v w =
      if visual = v ∧ variant = w then some (f ((t.bag? visual variant).getD []))
      else t.bag? v w := by
  by_cases hv : visual = v
  · subst hv
    cases h : Entries.get? t.visuals visual with
    | none =>
      by_cases hw : variant = w <;>
        simp [modify, bag?, Entries.get?_upsert, Entries.upsert, Entries.get?, h, hw]
    | some variants =>
      by_cases hw : variant = w <;> simp [modify, bag?, Entries.get?_upsert, h, hw]
  · simp [modify, bag?, Entries.get?_upsert, hv]

theorem bag?_modify_self (t : StyleTree) (visual variant : String) (f : Bag → Bag) :
    (t.modify visual variant f).bag? visual variant =
      some (f ((t.bag? visual variant).getD [])) := by
  rw [bag?_modify, if_pos ⟨rfl, rfl⟩]

theorem bag?_modify_of_ne {t : StyleTree} {visual variant v w : String} (f : Bag → Bag)
    (h : ¬(visual = v ∧ variant = w)) : (t.modify visual variant f).bag? v w = t.bag? v w := by
  rw [bag?_modify, if_neg h]

theorem modify_eq_self {t : StyleTree} {visual variant : String} {bag : Bag} {f : Bag → Bag}
    (h : t.bag? visual variant = some bag) (hf : f bag = bag) :
    t.modify visual variant f = t := by
  obtain ⟨variants, hv, hb⟩ := Option.bind_eq_some_iff.mp h
  have hw : Entries.upsert ((some variants).getD []) variant (fun bag => f (bag.getD [])) =
      variants := Entries.upsert_eq_self hb hf
  rw [modify, Entries.upsert_eq_self hv hw]

theorem setBag_self {t : StyleTree} {visual variant : String} {bag : Bag}
    (h : t.bag? visual variant = some bag) : t.setBag visual variant bag = t :=
  modify_eq_self h rfl

theorem bag?_removeBag (t : StyleTree) (visual variant v w : String) :
    (t.removeBag visual variant).bag? v w =
      if visual = v ∧ variant = w then none else t.bag? v w := by
  cases h : Entries.get? t.visuals visual with
  | none =>
    rw [removeBag, h]
    by_cases hv : visual = v
    · subst hv
      simp [bag?, h]
    · simp [hv]
  | some variants =>
    rw [removeBag, h]
    by_cases hv : visual = v
    · subst hv
      have hleft : ∀ w, Entries.get? (Entries.erase variants variant) w =
          if variant = w then none else Entries.get? variants w :=
        Entries.get?_erase variants variant
      by_cases he : (Entries.erase variants variant).isEmpty
      · rw [List.isEmpty_iff.mp he] at hleft
        simp [bag?, h, he, Entries.get?_erase, ← hleft, Entries.get?]
      · simp [bag?, h, he, Entries.get?_insert, hleft]
    · by_cases he : (Entries.erase variants variant).isEmpty <;>
        simp [bag?, he, hv, Entries.get?_erase, Entries.get?_insert]

/-- A refused write leaves the tree as it is, unless the path is empty. -/
theorem setPath_of_refused {t : StyleTree} {visual variant : String} {path : List String}
    {v : Value} (hp : path ≠ []) (h : (t.setPath visual variant path v).1 ≠ .ok ()) :
    (t.setPath visual variant path v).2 = t := by
  cases hb : t.bag? visual variant with
  | none =>
    obtain ⟨key, rest, rfl⟩ := List.exists_cons_of_ne_nil hp
    simp [setPath, Bag.setPath, hb, Entries.get?, Value.write_null_fst] at h
  | some bag =>
    simp only [setPath, hb, Option.getD_some] at h ⊢
    rw [Bag.setPath_of_refused h, setBag_self hb]

/-- A write is refused by its path and changes nothing, or what was written stands at the path. -/
theorem setPath_cases (t : StyleTree) (visual variant : String) {path : List String}
    (hp : path ≠ []) (v : Value) :
    (((t.bag? visual variant).getD []).Refuses path ∧
        t.setPath visual variant path v = (.error (.invalidPath path), t)) ∨
      (t.setPath visual variant path v).1 = .ok () ∧
        ((t.setPath visual variant path v).2.bag? visual variant).bind (·.getPath? path) =
          some v := by
  rcases Bag.setPath_cases ((t.bag? visual variant).getD []) path v with
    ⟨hpath, hb⟩ | ⟨hb, hget⟩
  · have hrefused : (t.setPath visual variant path v).1 = .error (.invalidPath path) :=
      congrArg Prod.fst hb
    exact Or.inl ⟨hpath, Prod.ext hrefused (setPath_of_refused hp (by simp [hrefused]))⟩
  · refine Or.inr ⟨hb, ?_⟩
    have hbag : (t.setPath visual variant path v).2.bag? visual variant =
        some (((t.bag? visual variant).getD []).setPath path v).2 := bag?_modify_self t _ _ _
    rw [hbag]
    exact hget

theorem property?_modify_of_ne {t : StyleTree} {visual variant v w : String} (f : Bag → Bag)
    (property : String) (h : ¬(visual = v ∧ variant = w)) :
    (t.modify visual variant f).property? v w property = t.property? v w property := by
  rw [property?, bag?_modify_of_ne _ h, property?]

theorem property?_modify_of_get? {t : StyleTree} {visual variant property : String}
    {f : Bag → Bag} (h : Entries.get? (f ((t.bag? visual variant).getD [])) property =
      Entries.get? ((t.bag? visual variant).getD []) property) :
    (t.modify visual variant f).property? visual variant property =
      t.property? visual variant property := by
  rw [property?, bag?_modify_self, Option.bind_some, h, property?]
  cases t.bag? visual variant <;> rfl

/-- A write changes the property that its path begins with, and no other. -/
theorem property?_setPath {t : StyleTree} {visual variant key v w property : String}
    (rest : List String) (new : Value) (h : ¬(visual = v ∧ variant = w ∧ key = property)) :
    (t.setPath visual variant (key :: rest) new).2.property? v w property =
      t.property? v w property := by
  by_cases hvw : visual = v ∧ variant = w
  · obtain ⟨rfl, rfl⟩ := hvw
    have hk : property ≠ key := fun hk => h ⟨rfl, rfl, hk.symm⟩
    exact property?_modify_of_get? (Bag.get?_setPath rest new hk)
  · exact property?_modify_of_ne _ property hvw

theorem property?_removeBag {t : StyleTree} {visual variant v w : String} (property : String)
    (h : ¬(visual = v ∧ variant = w)) :
    (t.removeBag visual variant).property? v w property = t.property? v w property := by
  rw [property?, bag?_removeBag, if_neg h, property?]

theorem keyed_empty : empty.Keyed := Entries.keyed_nil _

theorem Keyed.holds {t : StyleTree} (h : t.Keyed) : t.Holds fun v => v.keyed = true := h

section
variable {P : Value → Prop} {t : StyleTree}

theorem Holds.mono {Q : Value → Prop} (hPQ : ∀ v, P v → Q v) (h : t.Holds P) : t.Holds Q :=
  Entries.Keyed.mono (fun _ => Entries.Keyed.mono fun _ => Entries.Keyed.mono hPQ) h

theorem Holds.bag? (h : t.Holds P) {visual variant : String} {bag : Bag}
    (hb : t.bag? visual variant = some bag) : Entries.Keyed P bag := by
  obtain ⟨variants, hv, hb⟩ := Option.bind_eq_some_iff.mp hb
  exact (Entries.Keyed.get? h hv).get? hb

/-- The bag that a change starts from. -/
theorem Holds.bagD (h : t.Holds P) (visual variant : String) :
    Entries.Keyed P ((t.bag? visual variant).getD []) := by
  cases hb : t.bag? visual variant with
  | none => exact Entries.keyed_nil _
  | some bag => exact h.bag? hb

theorem Holds.modify (h : t.Holds P) (visual variant : String) {f : Bag → Bag}
    (hf : ∀ b, Entries.Keyed P b → Entries.Keyed P (f b)) :
    (t.modify visual variant f).Holds P := by
  refine Entries.Keyed.upsert h ?_
  have hvariants : Entries.Keyed (Entries.Keyed P)
      ((Entries.get? t.visuals visual).getD []) := by
    cases hv : Entries.get? t.visuals visual with
    | none => exact Entries.keyed_nil _
    | some variants => exact Entries.Keyed.get? h hv
  refine hvariants.upsert (hf _ ?_)
  cases hb : Entries.get? ((Entries.get? t.visuals visual).getD []) variant with
  | none => exact Entries.keyed_nil _
  | some bag => exact hvariants.get? hb

theorem Holds.setBag (h : t.Holds P) (visual variant : String) {bag : Bag}
    (hb : Entries.Keyed P bag) : (t.setBag visual variant bag).Holds P :=
  h.modify visual variant fun _ _ => hb

theorem Holds.setPath (h : t.Holds P) (hP : Value.Hereditary P) (visual variant : String)
    (path : List String) {v : Value} (hv : P v) : (t.setPath visual variant path v).2.Holds P :=
  h.setBag visual variant (hP.setPath (h.bagD visual variant) path hv)

theorem Holds.removeBag (h : t.Holds P) (visual variant : String) :
    (t.removeBag visual variant).Holds P := by
  unfold StyleTree.removeBag
  split
  · exact h
  · rename_i variants hv
    have hleft := (Entries.Keyed.get? h hv).erase variant
    dsimp only
    split
    · exact Entries.Keyed.erase h visual
    · exact Entries.Keyed.insert h visual hleft

end

theorem holds_ofBags {P : Value → Prop} {bags : List (String × String × Bag)}
    (h : ∀ b ∈ bags, Entries.Keyed P b.2.2) : (ofBags bags).Holds P := by
  suffices H : ∀ t : StyleTree, t.Holds P →
      (bags.foldl (fun t b => t.setBag b.1 b.2.1 b.2.2) t).Holds P from
    H empty (Entries.keyed_nil _)
  induction bags with
  | nil => exact fun _ ht => ht
  | cons b bags ih =>
    intro t ht
    exact ih (fun c hc => h c (by simp [hc])) _ (ht.setBag b.1 b.2.1 (h b (by simp)))

def mapBags (f : Bag → Bag) (t : StyleTree) : StyleTree :=
  ⟨Entries.mapValues (Entries.mapValues f) t.visuals⟩

theorem mapBags_mapBags (g f : Bag → Bag) (t : StyleTree) :
    (t.mapBags f).mapBags g = t.mapBags fun b => g (f b) := by
  simp only [mapBags, Entries.mapValues_mapValues]

theorem setBag_mapBags (f : Bag → Bag) (t : StyleTree) (visual variant : String) (bag : Bag) :
    (t.mapBags f).setBag visual variant (f bag) = (t.setBag visual variant bag).mapBags f := by
  simp only [setBag, modify, mapBags]
  refine congrArg StyleTree.mk (Entries.upsert_mapValues (fun variants => ?_) t.visuals visual)
  cases variants with
  | none => rfl
  | some variants => exact Entries.insert_mapValues f variants variant bag

theorem ofBags_map (f : Bag → Bag) (bags : List (String × String × Bag)) :
    ofBags (bags.map fun b => (b.1, b.2.1, f b.2.2)) = (ofBags bags).mapBags f := by
  suffices H : ∀ t : StyleTree,
      (bags.map fun b => (b.1, b.2.1, f b.2.2)).foldl (fun t b => t.setBag b.1 b.2.1 b.2.2)
        (t.mapBags f) = (bags.foldl (fun t b => t.setBag b.1 b.2.1 b.2.2) t).mapBags f from
    H empty
  induction bags with
  | nil => exact fun _ => rfl
  | cons b bags ih =>
    intro t
    rw [List.map_cons, List.foldl_cons, List.foldl_cons, setBag_mapBags, ih]

theorem bags_mapBags (f : Bag → Bag) (t : StyleTree) :
    (t.mapBags f).bags = t.bags.map fun b => (b.1, b.2.1, f b.2.2) := by
  simp [mapBags, bags, Entries.mapValues, List.flatMap_map, List.map_flatMap, Function.comp_def]

end StyleTree

/-- A style tree with the proof that no key stands twice in it, at any depth. -/
structure KeyedTree extends StyleTree where
  keyed : toStyleTree.Keyed

namespace KeyedTree

def empty : KeyedTree := ⟨.empty, StyleTree.keyed_empty⟩

/-- The bag of a variant, empty if there is none. -/
def bagD (t : KeyedTree) (visual variant : String) : KeyedBag :=
  ⟨(t.bag? visual variant).getD [], t.keyed.holds.bagD visual variant⟩

end KeyedTree

end ReportTheme
