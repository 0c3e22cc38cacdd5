import Mathlib.Data.List.Forall2
import Mathlib.Data.List.Perm.Subperm
import ReportTheme.Proofs.Style.Equal
import ReportTheme.Proofs.Style.Merge

/-!
Maps, values and style trees that differ in the order of keys only, said leaf by leaf. Where no key
stands twice this is what the equality of values compares, and looking up, changing and merging keep
it.
-/
namespace ReportTheme

namespace Entries

variable {α : Type} {R : α → α → Prop} {a b : Entries α}

section
variable {o p : Option α}

/-- What stands in for nothing is in relation too. -/
theorem rel_getD (h : Option.Rel R o p) {v w : α} (hvw : R v w) : R (o.getD v) (p.getD w) := by
  cases h with
  | some h => exact h
  | none => exact hvw

theorem rel_bind {β : Type} {S : β → β → Prop} (h : Option.Rel R o p) {f g : α → Option β}
    (hfg : ∀ v w, R v w → Option.Rel S (f v) (g w)) : Option.Rel S (o.bind f) (p.bind g) := by
  cases h with
  | some h => exact hfg _ _ h
  | none => exact .none

theorem rel_symm (h : Option.Rel R o p) (hR : ∀ v ∈ o, ∀ w, R v w → R w v) :
    Option.Rel R p o := by
  cases h with
  | some h => exact .some (hR _ rfl _ h)
  | none => exact .none

theorem rel_trans {q : Option α} (hop : Option.Rel R o p) (hpq : Option.Rel R p q)
    (hR : ∀ u ∈ o, ∀ v w, R u v → R v w → R u w) : Option.Rel R o q := by
  cases hop with
  | some huv =>
    cases hpq with
    | some hvw => exact .some (hR _ rfl _ _ huv hvw)
  | none => exact hpq

end

/-- No key stands twice, and under every key there is nothing in both maps, or values in
relation. -/
structure Same (R : α → α → Prop) (a b : Entries α) : Prop where
  left : Distinct a
  right : Distinct b
  under (key : String) : Option.Rel R (get? a key) (get? b key)

theorem same_nil (R : α → α → Prop) : Same R [] [] :=
  ⟨List.nodup_nil, List.nodup_nil, fun _ => .none⟩

theorem Same.exists_right (h : Same R a b) {key : String} {v : α} (hv : get? a key = some v) :
    ∃ w, get? b key = some w ∧ R v w := by
  have hkey := h.under key
  rw [hv] at hkey
  generalize get? b key = o at hkey ⊢
  cases hkey with
  | some hr => exact ⟨_, rfl, hr⟩

theorem Same.exists_left (h : Same R a b) {key : String} {w : α} (hw : get? b key = some w) :
    ∃ v, get? a key = some v ∧ R v w := by
  have hkey := h.under key
  rw [hw] at hkey
  generalize get? a key = o at hkey ⊢
  cases hkey with
  | some hr => exact ⟨_, rfl, hr⟩

theorem Same.get?_eq_none_iff (h : Same R a b) (key : String) :
    get? a key = none ↔ get? b key = none := by
  have hkey := h.under key
  generalize get? a key = o, get? b key = p at hkey ⊢
  cases hkey <;> simp

theorem Same.length_eq (h : Same R a b) : a.length = b.length := by
  have hmem : ∀ key, key ∈ keys a ↔ key ∈ keys b := by
    intro key
    rw [← not_iff_not, ← Entries.get?_eq_none_iff, ← Entries.get?_eq_none_iff]
    exact h.get?_eq_none_iff key
  have hperm := (List.perm_ext_iff_of_nodup h.left h.right).mpr hmem
  simpa [keys] using hperm.length_eq

/-- A map of distinct keys which are all in another map of that size has every key of it. -/
theorem mem_keys_of_length_eq (ha : Distinct a) (hab : keys a ⊆ keys b)
    (hlen : a.length = b.length) {key : String} (h : key ∈ keys b) : key ∈ keys a := by
  have hperm : (keys a).Perm (keys b) :=
    (ha.subperm hab).perm_of_length_le (by simp [keys, hlen])
  exact hperm.mem_iff.mpr h

section
variable {P : α → Prop} {eq : α → α → Bool}

theorem Same.equalBy (hab : Same R a b) (h : ∀ e ∈ a, ∀ w, R e.2 w → eq e.2 w = true) :
    equalBy eq a b = true := by
  rw [Entries.equalBy, Bool.and_eq_true, beq_iff_eq, List.all_eq_true]
  refine ⟨hab.length_eq, fun e he => ?_⟩
  obtain ⟨w, hw, hr⟩ := hab.exists_right (get?_of_mem hab.left he)
  rw [hw, Option.any_some]
  exact h e he w hr

theorem same_of_equalBy (ha : Keyed P a) (hb : Keyed P b) (hab : equalBy eq a b = true)
    (h : ∀ e ∈ a, ∀ w, P w → eq e.2 w = true → R e.2 w) : Same R a b := by
  rw [Entries.equalBy, Bool.and_eq_true, beq_iff_eq, List.all_eq_true] at hab
  have hfound : ∀ e ∈ a, ∃ w, get? b e.1 = some w ∧ eq e.2 w = true := fun e he =>
    (Option.any_eq_true _ _).mp (hab.2 e he)
  refine ⟨ha.distinct, hb.distinct, fun key => ?_⟩
  cases hv : get? a key with
  | some v =>
    have hmem := mem_of_get? hv
    obtain ⟨w, hw, heq⟩ := hfound _ hmem
    rw [hw]
    exact .some (h _ hmem w (hb.get? hw) heq)
  | none =>
    have hsub : keys a ⊆ keys b := by
      intro k hk
      obtain ⟨e, he, rfl⟩ := List.mem_map.mp hk
      obtain ⟨w, hw, -⟩ := hfound e he
      exact (mem_keys_iff b e.1).mpr (Option.isSome_of_eq_some hw)
    have hnone : key ∉ keys b := fun hk =>
      get?_eq_none_iff.mp hv (mem_keys_of_length_eq ha.distinct hsub hab.1 hk)
    rw [get?_eq_none_iff.mpr hnone]
    exact .none

/-- Maps are the same just if the equality that ignores the order of keys finds them equal. -/
theorem same_iff (h : ∀ e ∈ a, ∀ w, R e.2 w ↔ P e.2 ∧ P w ∧ eq e.2 w = true) :
    Same R a b ↔ Keyed P a ∧ Keyed P b ∧ equalBy eq a b = true := by
  constructor
  · intro hab
    refine ⟨⟨hab.left, fun e he => ?_⟩, ⟨hab.right, fun e he => ?_⟩,
      hab.equalBy fun e he w hr => ((h e he w).mp hr).2.2⟩
    · obtain ⟨w, -, hr⟩ := hab.exists_right (get?_of_mem hab.left he)
      exact ((h e he w).mp hr).1
    · obtain ⟨v, hv, hr⟩ := hab.exists_left (get?_of_mem hab.right he)
      exact ((h _ (mem_of_get? hv) e.2).mp hr).2.1
  · rintro ⟨ha, hb, hab⟩
    exact same_of_equalBy ha hb hab fun e he w hw heq => (h e he w).mpr ⟨ha.each e he, hw, heq⟩

end

theorem Same.symm (hab : Same R a b) (hR : ∀ e ∈ a, ∀ w, R e.2 w → R w e.2) : Same R b a :=
  ⟨hab.right, hab.left, fun key =>
    rel_symm (hab.under key) fun _ hv w hvw => hR _ (mem_of_get? hv) w hvw⟩

theorem Same.trans {c : Entries α} (hab : Same R a b) (hbc : Same R b c)
    (hR : ∀ e ∈ a, ∀ v w, R e.2 v → R v w → R e.2 w) : Same R a c :=
  ⟨hab.left, hbc.right, fun key =>
    rel_trans (hab.under key) (hbc.under key) fun _ hu => hR _ (mem_of_get? hu)⟩

theorem Same.upsert (h : Same R a b) {key : String} {f g : Option α → α}
    (hfg : R (f (get? a key)) (g (get? b key))) : Same R (upsert a key f) (upsert b key g) := by
  refine ⟨distinct_upsert h.left key f, distinct_upsert h.right key g, fun other => ?_⟩
  rw [get?_upsert, get?_upsert]
  split
  · exact .some hfg
  · exact h.under other

theorem Same.insert (h : Same R a b) (key : String) {v w : α} (hvw : R v w) :
    Same R (insert a key v) (insert b key w) := h.upsert hvw

end Entries

namespace Value

def isLeaf : Value → Bool
  | .list _ | .group _ => false
  | _ => true

/-- Values that differ in the order of keys and in signs of zero only. -/
inductive Same : Value → Value → Prop
  | leaf {v w : Value} : v.isLeaf = true → w.isLeaf = true → v.unsigned = w.unsigned → Same v w
  | list {vs ws : List Value} : List.Forall₂ Same vs ws → Same (.list vs) (.list ws)
  | group {a b : List (String × Value)} : Entries.Distinct a → Entries.Distinct b →
      (∀ key, Option.Rel Same (Entries.get? a key) (Entries.get? b key)) →
      Same (.group a) (.group b)

theorem same_list_iff {vs ws : List Value} :
    Same (.list vs) (.list ws) ↔ List.Forall₂ Same vs ws := by
  constructor
  · intro h
    cases h with
    | leaf hleaf => cases hleaf
    | list h => exact h
  · exact .list

theorem same_group_iff {a b : Bag} : Same (.group a) (.group b) ↔ Entries.Same Same a b := by
  constructor
  · intro h
    cases h with
    | leaf hleaf => cases hleaf
    | group ha hb hab => exact ⟨ha, hb, hab⟩
  · exact fun h => .group h.left h.right h.under

/-- What holds of leaves, and of a list or group if of its values, holds of every value. -/
@[elab_as_elim]
theorem nested_induction {motive : Value → Prop} (leaf : ∀ v, v.isLeaf = true → motive v)
    (list : ∀ vs, (∀ v ∈ vs, motive v) → motive (.list vs))
    (group : ∀ es : List (String × Value), (∀ e ∈ es, motive e.2) → motive (.group es))
    (v : Value) : motive v :=
  @Value.rec motive (fun vs => ∀ v ∈ vs, motive v) (fun es => ∀ e ∈ es, motive e.2)
    (fun e => motive e.2)
    (fun c => leaf (.color c) rfl) (fun n => leaf (.number n) rfl) (fun b => leaf (.bool b) rfl)
    (fun s => leaf (.text s) rfl) list group (leaf .null rfl)
    (List.forall_mem_nil _) (fun _ _ hv hvs => List.forall_mem_cons.mpr ⟨hv, hvs⟩)
    (List.forall_mem_nil _) (fun _ _ he hes => List.forall_mem_cons.mpr ⟨he, hes⟩)
    (fun _ _ hv => hv) v

theorem Same.symm {v w : Value} (h : Same v w) : Same w v := by
  induction v using nested_induction generalizing w with
  | leaf v hv =>
    cases h with
    | leaf _ hw he => exact .leaf hw hv he.symm
    | list => cases hv
    | group => cases hv
  | list vs ih =>
    cases h with
    | leaf hv => cases hv
    | list h =>
      have hback : ∀ v ∈ vs, ∀ w, Same v w → Same w v := fun v hv _ => ih v hv
      have hall := (List.forall₂_and_left vs _).mpr ⟨hback, h⟩
      exact .list (List.Forall₂.flip (hall.imp fun _ w hvw => hvw.1 w hvw.2))
  | group a ih =>
    cases h with
    | leaf hv => cases hv
    | group ha hb hab =>
      exact same_group_iff.mpr (Entries.Same.symm ⟨ha, hb, hab⟩ fun e he _ => ih e he)

theorem items_trans {us vs ws : List Value} (huv : List.Forall₂ Same us vs)
    (hvw : List.Forall₂ Same vs ws) (h : ∀ u ∈ us, ∀ v w, Same u v → Same v w → Same u w) :
    List.Forall₂ Same us ws := by
  induction huv generalizing ws with
  | nil => exact hvw
  | cons hu _ ih =>
    cases hvw with
    | cons hv hvw =>
      exact .cons (h _ (by simp) _ _ hu hv) (ih hvw fun u hu => h u (by simp [hu]))

theorem Same.trans {u v w : Value} (huv : Same u v) (hvw : Same v w) : Same u w := by
  induction u using nested_induction generalizing v w with
  | leaf u hu =>
    cases huv with
    | leaf _ hv he =>
      cases hvw with
      | leaf _ hw he' => exact .leaf hu hw (he.trans he')
      | list => cases hv
      | group => cases hv
    | list => cases hu
    | group => cases hu
  | list us ih =>
    cases huv with
    | leaf hu => cases hu
    | list huv =>
      cases hvw with
      | leaf hv => cases hv
      | list hvw => exact .list (items_trans huv hvw fun u hu _ _ => ih u hu)
  | group a ih =>
    cases huv with
    | leaf hu => cases hu
    | group ha hb hab =>
      cases hvw with
      | leaf hv => cases hv
      | group hb' hc hbc =>
        exact same_group_iff.mpr
          (Entries.Same.trans ⟨ha, hb, hab⟩ ⟨hb', hc, hbc⟩ fun e he _ _ => ih e he)

theorem equal_leaf_iff {v : Value} (hv : v.isLeaf = true) (w : Value) :
    v.equal w = true ↔ w.isLeaf = true ∧ v.unsigned = w.unsigned := by
  cases v <;> cases w <;>
    simp_all [isLeaf, equal, unsigned, Color.equal_iff, Number.equal_iff]

theorem keyed_of_isLeaf {v : Value} (hv : v.isLeaf = true) : v.keyed = true := by
  cases v with
  | list vs => cases hv
  | group es => cases hv
  | _ => rfl

theorem forall₂_same_iff {vs ws : List Value}
    (h : ∀ v ∈ vs, ∀ w, Same v w ↔ v.keyed = true ∧ w.keyed = true ∧ v.equal w = true) :
    List.Forall₂ Same vs ws ↔
      keyedItems vs = true ∧ keyedItems ws = true ∧ equalItems vs ws = true := by
  induction vs generalizing ws with
  | nil => cases ws <;> simp [keyedItems, equalItems]
  | cons v vs ih =>
    cases ws with
    | nil => simp [equalItems]
    | cons w ws =>
      have hvs := @ih ws fun u hu => h u (by simp [hu])
      simp only [List.forall₂_cons, h v (by simp) w, hvs, keyedItems, equalItems, Bool.and_eq_true]
      tauto

/-- Of values in which no key stands twice, the same ones are equal. -/
theorem same_iff (v w : Value) : Same v w ↔ v.keyed = true ∧ w.keyed = true ∧ v.equal w = true := by
  induction v using nested_induction generalizing w with
  | leaf v hv =>
    rw [equal_leaf_iff hv]
    constructor
    · intro h
      cases h with
      | leaf _ hw he => exact ⟨keyed_of_isLeaf hv, keyed_of_isLeaf hw, hw, he⟩
      | list => cases hv
      | group => cases hv
    · rintro ⟨-, -, hw, he⟩
      exact .leaf hv hw he
  | list vs ih =>
    cases w with
    | list ws => rw [same_list_iff, keyed, keyed, equal, forall₂_same_iff ih]
    | _ =>
      refine iff_of_false (fun h => ?_) (by simp [equal])
      cases h with
      | leaf hv => cases hv
  | group a ih =>
    cases w with
    | group b =>
      rw [same_group_iff, keyed_group_iff, keyed_group_iff, equal_group]
      exact Entries.same_iff ih
    | _ =>
      refine iff_of_false (fun h => ?_) (by simp [equal])
      cases h with
      | leaf hv => cases hv

theorem same_refl {v : Value} (h : v.keyed = true) : Same v v :=
  (same_iff v v).mpr ⟨h, h, equal_refl h⟩

/-- Equality does not tell values apart that are the same. -/
theorem Same.equal_congr {v w x y : Value} (hvw : Same v w) (hxy : Same x y) :
    v.equal x = w.equal y := by
  have hkeyed := (same_iff v w).mp hvw
  have hkeyed' := (same_iff x y).mp hxy
  rw [Bool.eq_iff_iff]
  constructor
  · intro h
    have hvx : Same v x := (same_iff v x).mpr ⟨hkeyed.1, hkeyed'.1, h⟩
    exact ((same_iff w y).mp ((hvw.symm.trans hvx).trans hxy)).2.2
  · intro h
    have hwy : Same w y := (same_iff w y).mpr ⟨hkeyed.2.1, hkeyed'.2.1, h⟩
    exact ((same_iff v x).mp ((hvw.trans hwy).trans hxy.symm)).2.2

theorem child?_leaf {v : Value} (hv : v.isLeaf = true) (segment : String) :
    v.child? segment = none := by
  cases v with
  | list vs => cases hv
  | group es => cases hv
  | _ => rfl

theorem rel_getElem? {vs ws : List Value} (h : List.Forall₂ Same vs ws) (i : Nat) :
    Option.Rel Same vs[i]? ws[i]? := by
  induction h generalizing i with
  | nil => exact .none
  | cons hvw _ ih =>
    cases i with
    | zero => exact .some hvw
    | succ i => exact ih i

theorem Same.child? {v w : Value} (h : Same v w) (segment : String) :
    Option.Rel Same (v.child? segment) (w.child? segment) := by
  cases h with
  | leaf hv hw _ =>
    rw [child?_leaf hv, child?_leaf hw]
    exact .none
  | list h =>
    cases hi : listIndex? segment with
    | none => simp [Value.child?, hi]
    | some i => simpa [Value.child?, hi] using rel_getElem? h i
  | group _ _ h => exact h segment

theorem Same.get? {v w : Value} (h : Same v w) (path : List String) :
    Option.Rel Same (v.get? path) (w.get? path) := by
  induction path generalizing v w with
  | nil => exact .some h
  | cons segment path ih =>
    rw [get?_cons, get?_cons]
    exact Entries.rel_bind (h.child? segment) fun _ _ => ih

end Value

namespace Bag

/-- The same values under the same names, whatever order the names are in. -/
abbrev Same (a b : Bag) : Prop := Entries.Same Value.Same a b

end Bag

namespace Value

theorem isGroup_of_isLeaf {v : Value} (hv : v.isLeaf = true) : v.isGroup = false := by
  cases v with
  | group es => cases hv
  | _ => rfl

theorem rel_mergeFrom {a b base base' : Bag} (hab : Bag.Same a b) (hbase : Bag.Same base base')
    (h : ∀ e ∈ a, ∀ w o p, Same e.2 w → Option.Rel Same o p →
      Same (Value.over o e.2) (Value.over p w)) :
    Bag.Same (Bag.mergeFrom base a) (Bag.mergeFrom base' b) := by
  refine ⟨Bag.distinct_mergeFrom hbase.left a, Bag.distinct_mergeFrom hbase.right b, fun key => ?_⟩
  rw [Bag.get?_mergeFrom hab.left, Bag.get?_mergeFrom hab.right]
  have hold := hbase.under key
  cases hv : Entries.get? a key with
  | some v =>
    obtain ⟨w, hw, hvw⟩ := hab.exists_right hv
    rw [hw]
    exact .some (h _ (Entries.mem_of_get? hv) w _ _ hvw hold)
  | none =>
    rw [(hab.get?_eq_none_iff key).mp hv]
    exact hold

/-- Laying over the same what is the same gives the same. -/
theorem Same.over {v w : Value} {o p : Option Value} (hvw : Same v w) (hop : Option.Rel Same o p) :
    Same (Value.over o v) (Value.over p w) := by
  induction v using nested_induction generalizing w o p with
  | leaf v hv =>
    cases hvw with
    | leaf _ hw he =>
      rw [over_of_not_group (isGroup_of_isLeaf hv), over_of_not_group (isGroup_of_isLeaf hw)]
      exact .leaf hv hw he
    | list => cases hv
    | group => cases hv
  | list vs ih =>
    cases hvw with
    | leaf hv => cases hv
    | list h => exact .list h
  | group a ih =>
    cases hvw with
    | leaf hv => cases hv
    | group ha hb hab =>
      cases hop with
      | none => exact .group ha hb hab
      | some hold =>
        cases hold with
        | leaf hv hw _ =>
          rw [over_group_of_not_group (isGroup_of_isLeaf hv),
            over_group_of_not_group (isGroup_of_isLeaf hw)]
          exact .group ha hb hab
        | list _ => exact .group ha hb hab
        | group hc hd hcd =>
          rw [Value.over, Value.over]
          exact same_group_iff.mpr (rel_mergeFrom ⟨ha, hb, hab⟩ ⟨hc, hd, hcd⟩
            fun e he _ _ _ hew hop => ih e he hew hop)

end Value

theorem Bag.Same.merge {a b base base' : Bag} (hbase : Bag.Same base base') (hab : Bag.Same a b) :
    Bag.Same (base.merge a) (base'.merge b) :=
  Value.rel_mergeFrom hab hbase fun _ _ _ _ _ hvw hop => hvw.over hop

theorem Bag.same_iff (a b : Bag) : Bag.Same a b ↔ a.Keyed ∧ b.Keyed ∧ a.equal b = true := by
  rw [Bag.equal, Value.equal_group]
  exact Entries.same_iff fun e _ w => Value.same_iff e.2 w

namespace StyleTree

/-- The same bags under the same visual types and variants, in any order. -/
abbrev Same (s t : StyleTree) : Prop :=
  Entries.Same (Entries.Same Bag.Same) s.visuals t.visuals

variable {s t : StyleTree}

/-- Of trees in which no key stands twice, the same ones are equal. -/
theorem same_iff (s t : StyleTree) : s.Same t ↔ s.Keyed ∧ t.Keyed ∧ s.equal t = true :=
  Entries.same_iff fun _ _ _ => Entries.same_iff fun e _ b => Bag.same_iff e.2 b

theorem Same.bag? (h : s.Same t) (visual variant : String) :
    Option.Rel Bag.Same (s.bag? visual variant) (t.bag? visual variant) :=
  Entries.rel_bind (h.under visual) fun _ _ hvariants => hvariants.under variant

theorem Same.property? (h : s.Same t) (visual variant property : String) :
    Option.Rel Value.Same (s.property? visual variant property)
      (t.property? visual variant property) :=
  Entries.rel_bind (h.bag? visual variant) fun _ _ hbag => hbag.under property

theorem Same.modify (h : s.Same t) (visual variant : String) {f g : Bag → Bag}
    (hfg : ∀ a b, Bag.Same a b → Bag.Same (f a) (g b)) :
    (s.modify visual variant f).Same (t.modify visual variant g) := by
  have hvariants := Entries.rel_getD (h.under visual) (Entries.same_nil _)
  have hbag := Entries.rel_getD (hvariants.under variant) (Entries.same_nil _)
  exact h.upsert (hvariants.upsert (hfg _ _ hbag))

theorem Same.effective (h : s.Same t) (visual variant : String) :
    Bag.Same (s.effective visual variant) (t.effective visual variant) := by
  obtain ⟨hs, ht, -⟩ := (same_iff s t).mp h
  have hdefault := Entries.rel_getD (h.bag? visual defaultVariant) (Entries.same_nil _)
  have hvariant := Entries.rel_getD (h.bag? visual variant) (Entries.same_nil _)
  rw [effective_eq ⟨s, hs⟩, effective_eq ⟨t, ht⟩]
  exact hdefault.merge hvariant

end StyleTree

end ReportTheme
