import ReportTheme.Proofs.Style.Tree

/-!
A style tree and the list of its bags. Put together again from that list a tree is what it was, but
for visual types without variants; no change of a tree leaves such a visual type behind.
-/
namespace ReportTheme.StyleTree

/-- No visual type stands twice, and no variant of one. -/
def Distinct (t : StyleTree) : Prop := Entries.Keyed Entries.Distinct t.visuals

/-- Every visual type has a variant. -/
def Populated (t : StyleTree) : Prop := ∀ v ∈ t.visuals, v.2 ≠ []

instance (t : StyleTree) : Decidable t.Distinct :=
  inferInstanceAs (Decidable (Entries.Keyed Entries.Distinct t.visuals))

instance (t : StyleTree) : Decidable t.Populated :=
  inferInstanceAs (Decidable (∀ v ∈ t.visuals, v.2 ≠ []))

theorem Keyed.distinct {t : StyleTree} (h : t.Keyed) : t.Distinct :=
  ⟨Entries.Keyed.distinct h, fun v hv => (Entries.Keyed.each h v hv).distinct⟩

theorem Distinct.modify {t : StyleTree} (h : t.Distinct) (visual variant : String)
    (f : Bag → Bag) : (t.modify visual variant f).Distinct := by
  refine Entries.Keyed.upsert h (Entries.distinct_upsert ?_ variant _)
  cases hv : Entries.get? t.visuals visual with
  | none => exact List.nodup_nil
  | some variants => exact Entries.Keyed.get? h hv

theorem populated_empty : empty.Populated := by simp [Populated, empty]

theorem Populated.modify {t : StyleTree} (h : t.Populated) (visual variant : String)
    (f : Bag → Bag) : (t.modify visual variant f).Populated := by
  intro v hv
  rcases Entries.mem_upsert hv with hv | rfl
  · exact h v hv
  · have hkeys : variant ∈ Entries.keys (Entries.upsert
        ((Entries.get? t.visuals visual).getD []) variant fun bag => f (bag.getD [])) := by
      rw [Entries.keys_upsert]
      split
      · assumption
      · simp
    intro hnil
    dsimp only at hnil
    rw [hnil] at hkeys
    cases hkeys

theorem Populated.removeBag {t : StyleTree} (h : t.Populated) (visual variant : String) :
    (t.removeBag visual variant).Populated := by
  unfold StyleTree.removeBag
  split
  · exact h
  · rename_i variants hv
    dsimp only
    split
    · intro v hm
      exact h v (List.mem_filter.mp hm).1
    · rename_i hleft
      intro v hm
      rcases Entries.mem_upsert hm with hm | rfl
      · exact h v hm
      · simpa using hleft

/-- The tree without the visual types that have no variant. -/
def populated (t : StyleTree) : StyleTree := ⟨t.visuals.filter fun v => !v.2.isEmpty⟩

theorem populated_populated (t : StyleTree) : t.populated.Populated := by
  intro v hv
  simpa using (List.mem_filter.mp hv).2

theorem Populated.populated_eq {t : StyleTree} (h : t.Populated) : t.populated = t := by
  have hall : ∀ v ∈ t.visuals, (!v.2.isEmpty) = true := by
    intro v hv
    simpa using h v hv
  rw [populated, List.filter_eq_self.mpr hall]

theorem bag?_populated {t : StyleTree} (h : t.Distinct) (visual variant : String) :
    t.populated.bag? visual variant = t.bag? visual variant := by
  rw [bag?, populated, Entries.get?_filter h.distinct, bag?]
  cases Entries.get? t.visuals visual with
  | none => rfl
  | some variants => cases variants <;> rfl

/-- Bags of one visual type, set one after the other, are added to its variants in order. -/
theorem foldl_setBag_variants {visuals : Entries (Entries Bag)} {visual : String}
    (hvisual : visual ∉ Entries.keys visuals) {before after : Entries Bag}
    (hd : Entries.Distinct (before ++ after)) :
    (after.map fun w => (visual, w.1, w.2)).foldl (fun t b => t.setBag b.1 b.2.1 b.2.2)
        ⟨visuals ++ [(visual, before)]⟩ =
      StyleTree.mk (visuals ++ [(visual, before ++ after)]) := by
  induction after generalizing before with
  | nil => simp
  | cons w after ih =>
    have hw : w.1 ∉ Entries.keys before := by
      intro hw
      rw [Entries.Distinct, Entries.keys, List.map_append, List.nodup_append] at hd
      exact hd.2.2 w.1 hw w.1 (by simp) rfl
    have hset : setBag ⟨visuals ++ [(visual, before)]⟩ visual w.1 w.2 =
        ⟨visuals ++ [(visual, before ++ [w])]⟩ := by
      rw [setBag, modify, Entries.upsert_append_of_not_mem hvisual]
      simp [Entries.upsert, Entries.upsert_of_not_mem hw]
    have hrest : Entries.Distinct ((before ++ [w]) ++ after) := by simpa using hd
    have hstep := ih hrest
    rw [List.map_cons, List.foldl_cons, hset, hstep, List.append_assoc, List.singleton_append]

theorem foldl_setBag_bags (before : Entries (Entries Bag)) {after : Entries (Entries Bag)}
    (hd : Entries.Keyed Entries.Distinct (before ++ after)) :
    (after.flatMap fun v => v.2.map fun w => (v.1, w.1, w.2)).foldl
        (fun t b => t.setBag b.1 b.2.1 b.2.2) ⟨before⟩ =
      StyleTree.mk (before ++ after.filter fun v => !v.2.isEmpty) := by
  induction after generalizing before with
  | nil => simp
  | cons v after ih =>
    obtain ⟨visual, variants⟩ := v
    have hkeys : (Entries.keys before ++ visual :: Entries.keys after).Nodup := by
      simpa [Entries.Distinct, Entries.keys] using hd.distinct
    rw [List.flatMap_cons, List.foldl_append]
    cases variants with
    | nil =>
      have hrest : Entries.Keyed Entries.Distinct (before ++ after) := by
        refine ⟨?_, fun e he => hd.each e ?_⟩
        · simpa [Entries.Distinct, Entries.keys] using
            hkeys.sublist (List.Sublist.append_left (List.sublist_cons_self _ _) _)
        · rcases List.mem_append.mp he with he | he <;> simp [he]
      simpa using ih before hrest
    | cons w variants =>
      have hvisual : visual ∉ Entries.keys before := by
        intro hm
        exact (List.nodup_append.mp hkeys).2.2 visual hm visual (by simp) rfl
      have hfirst : setBag ⟨before⟩ visual w.1 w.2 = ⟨before ++ [(visual, [w])]⟩ := by
        rw [setBag, modify, Entries.upsert_of_not_mem hvisual]
        rfl
      have hvariants : Entries.Distinct ([w] ++ variants) :=
        hd.each (visual, w :: variants) (by simp)
      have hrest : Entries.Keyed Entries.Distinct
          ((before ++ [(visual, w :: variants)]) ++ after) := by simpa using hd
      rw [List.map_cons, List.foldl_cons, hfirst, foldl_setBag_variants hvisual hvariants,
        List.singleton_append, ih _ hrest]
      simp

/-- A tree put together again from its bags. -/
theorem ofBags_bags {t : StyleTree} (h : t.Distinct) : ofBags t.bags = t.populated :=
  foldl_setBag_bags [] h

theorem Populated.mapBags {t : StyleTree} (h : t.Populated) (f : Bag → Bag) :
    (t.mapBags f).Populated := by
  intro v hv
  obtain ⟨w, hw, rfl⟩ := List.mem_map.mp hv
  exact mt List.map_eq_nil_iff.mp (h w hw)

theorem bag?_mapBags (f : Bag → Bag) (t : StyleTree) (visual variant : String) :
    (t.mapBags f).bag? visual variant = (t.bag? visual variant).map f := by
  rw [bag?, mapBags, Entries.get?_mapValues, bag?]
  cases Entries.get? t.visuals visual with
  | none => rfl
  | some variants => exact Entries.get?_mapValues f variants variant

end ReportTheme.StyleTree
