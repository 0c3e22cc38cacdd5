import Mathlib.Logic.Basic
import ReportTheme.Proofs.Changes
import ReportTheme.Proofs.Session.Selection

/-!
Change tracking misses nothing: wherever the theme of a session differs from the baseline, a tracked
path leads there.
-/
namespace ReportTheme

/-- Whether one of the paths is a path or leads to a place above it. -/
def Path.Covered (paths : List Path) (p : Path) : Prop := ∃ q ∈ paths, q <+: p

namespace Path

theorem Covered.mono {ps qs : List Path} {p : Path} (h : Covered ps p)
    (hsub : ∀ q ∈ ps, q ∈ qs) : Covered qs p := by
  obtain ⟨q, hq, hp⟩ := h
  exact ⟨q, hsub q hq, hp⟩

theorem covered_of_mem {paths : List Path} {p : Path} (h : p ∈ paths) (rest : Path) :
    Covered paths (p ++ rest) := ⟨p, h, List.prefix_append p rest⟩

end Path

/-- Wherever two themes differ, one of the paths leads there. -/
structure Covers (paths : List Path) (s t : Theme) : Prop where
  id : s.id = t.id
  name : s.name ≠ t.name → ["name"] ∈ paths
  mode : s.mode ≠ t.mode → ["mode"] ∈ paths
  colorPaletteId : s.colorPaletteId ≠ t.colorPaletteId → ["colorPaletteId"] ∈ paths
  neutralPaletteId : s.neutralPaletteId ≠ t.neutralPaletteId → ["neutralPaletteId"] ∈ paths
  fontFamily : s.fontFamily ≠ t.fontFamily → ["fontFamily"] ∈ paths
  styles : ∀ visual variant property,
    s.styles.property? visual variant property ≠ t.styles.property? visual variant property →
      Path.Covered paths ["visualStyles", visual, variant, property]
  structuralColors : ∀ key,
    Entries.get? s.structuralColors key ≠ Entries.get? t.structuralColors key →
      Path.Covered paths ["structuralColors", key]
  textClasses : ∀ textClass property,
    (Entries.get? s.textClasses textClass).bind (Entries.get? · property) ≠
      (Entries.get? t.textClasses textClass).bind (Entries.get? · property) →
      Path.Covered paths ["textClasses", textClass, property]
  selection : ∀ c : Category, s.selection.get? c ≠ t.selection.get? c →
    Path.Covered paths ["quickCustomizations", c.name]
  untouched : paths = [] → s = t

namespace Covers

theorem refl (paths : List Path) (t : Theme) : Covers paths t t where
  id := rfl
  name h := absurd rfl h
  mode h := absurd rfl h
  colorPaletteId h := absurd rfl h
  neutralPaletteId h := absurd rfl h
  fontFamily h := absurd rfl h
  styles _ _ _ h := absurd rfl h
  structuralColors _ h := absurd rfl h
  textClasses _ _ h := absurd rfl h
  selection _ h := absurd rfl h
  untouched _ := rfl

theorem mono {ps qs : List Path} {s t : Theme} (h : Covers ps s t)
    (hsub : ∀ p ∈ ps, p ∈ qs) : Covers qs s t where
  id := h.id
  name hd := hsub _ (h.name hd)
  mode hd := hsub _ (h.mode hd)
  colorPaletteId hd := hsub _ (h.colorPaletteId hd)
  neutralPaletteId hd := hsub _ (h.neutralPaletteId hd)
  fontFamily hd := hsub _ (h.fontFamily hd)
  styles _ _ _ hd := (h.styles _ _ _ hd).mono hsub
  structuralColors _ hd := (h.structuralColors _ hd).mono hsub
  textClasses _ _ hd := (h.textClasses _ _ hd).mono hsub
  selection _ hd := (h.selection _ hd).mono hsub
  untouched hq := by
    refine h.untouched (List.eq_nil_iff_forall_not_mem.mpr fun p hp => ?_)
    have hm := hsub p hp
    rw [hq] at hm
    simp at hm

/-- A difference of the ends is a difference on one half of the way. -/
theorem trans {paths : List Path} {s t u : Theme} (h : Covers paths s t) (k : Covers paths t u) :
    Covers paths s u where
  id := h.id.trans k.id
  name hd := (hd.ne_or_ne t.name).elim h.name fun hd => k.name hd.symm
  mode hd := (hd.ne_or_ne t.mode).elim h.mode fun hd => k.mode hd.symm
  colorPaletteId hd :=
    (hd.ne_or_ne t.colorPaletteId).elim h.colorPaletteId fun hd => k.colorPaletteId hd.symm
  neutralPaletteId hd :=
    (hd.ne_or_ne t.neutralPaletteId).elim h.neutralPaletteId fun hd => k.neutralPaletteId hd.symm
  fontFamily hd := (hd.ne_or_ne t.fontFamily).elim h.fontFamily fun hd => k.fontFamily hd.symm
  styles _ _ _ hd := (hd.ne_or_ne _).elim (h.styles _ _ _) fun hd => k.styles _ _ _ hd.symm
  structuralColors _ hd :=
    (hd.ne_or_ne _).elim (h.structuralColors _) fun hd => k.structuralColors _ hd.symm
  textClasses _ _ hd := (hd.ne_or_ne _).elim (h.textClasses _ _) fun hd => k.textClasses _ _ hd.symm
  selection _ hd := (hd.ne_or_ne _).elim (h.selection _) fun hd => k.selection _ hd.symm
  untouched hp := (h.untouched hp).trans (k.untouched hp)

end Covers

namespace Editor

/-- One session comes from another by changes that it tracks. -/
structure Edit (d e : Editor) : Prop where
  baseline : e.changes.baseline = d.changes.baseline
  kept : ∀ p ∈ d.changes.paths, p ∈ e.changes.paths
  covers : Covers e.changes.paths d.theme e.theme

theorem Edit.refl (e : Editor) : Edit e e := ⟨rfl, fun _ hp => hp, .refl _ _⟩

theorem Edit.trans {d e f : Editor} (h : Edit d e) (k : Edit e f) : Edit d f where
  baseline := k.baseline.trans h.baseline
  kept p hp := k.kept p (h.kept p hp)
  covers := (h.covers.mono k.kept).trans k.covers

theorem mem_paths_track {e : Editor} {p q : Path} (hp : p ≠ []) :
    q ∈ (e.track p).changes.paths ↔ q = p ∨ q ∈ e.changes.paths := Changes.mem_track hp

theorem mem_paths_foldl_track {α : Type} {f : α → Path} (hf : ∀ a, f a ≠ []) {items : List α}
    {e : Editor} {q : Path} :
    q ∈ (items.foldl (fun e a => e.track (f a)) e).changes.paths ↔
      (∃ a ∈ items, q = f a) ∨ q ∈ e.changes.paths := by
  induction items generalizing e with
  | nil => simp
  | cons a items ih =>
    rw [List.foldl_cons, ih, mem_paths_track (hf a)]
    simp only [List.mem_cons, exists_eq_or_imp]
    exact or_left_comm.trans or_assoc.symm

/-- A changed theme is an edit if the tracked path covers the change. -/
theorem edit_track {e : Editor} {t : Theme} {p : Path} (hp : p ≠ []) (h : Covers [p] e.theme t) :
    Edit e ({ e with theme := t }.track p) where
  baseline := baseline_track _ p
  kept _ hq := (mem_paths_track hp).mpr (Or.inr hq)
  covers := h.mono fun _ hq => (mem_paths_track hp).mpr (Or.inl (List.mem_singleton.mp hq))

theorem edit_setName (e : Editor) (name : String) : Edit e (e.setName name) :=
  edit_track (List.cons_ne_nil _ _)
    { Covers.refl _ e.theme with
      name := fun _ => List.mem_singleton.mpr rfl
      untouched := fun h => absurd h (List.cons_ne_nil _ _) }

theorem edit_setMode (e : Editor) (mode : Mode) : Edit e (e.setMode mode) :=
  edit_track (List.cons_ne_nil _ _)
    { Covers.refl _ e.theme with
      mode := fun _ => List.mem_singleton.mpr rfl
      untouched := fun h => absurd h (List.cons_ne_nil _ _) }

theorem edit_setColorPalette (e : Editor) (id : String) : Edit e (e.setColorPalette id) :=
  edit_track (List.cons_ne_nil _ _)
    { Covers.refl _ e.theme with
      colorPaletteId := fun _ => List.mem_singleton.mpr rfl
      untouched := fun h => absurd h (List.cons_ne_nil _ _) }

theorem edit_setNeutralPalette (e : Editor) (id : String) : Edit e (e.setNeutralPalette id) :=
  edit_track (List.cons_ne_nil _ _)
    { Covers.refl _ e.theme with
      neutralPaletteId := fun _ => List.mem_singleton.mpr rfl
      untouched := fun h => absurd h (List.cons_ne_nil _ _) }

theorem edit_setFontFamily (e : Editor) (fontFamily : String) :
    Edit e (e.setFontFamily fontFamily) :=
  edit_track (List.cons_ne_nil _ _)
    { Covers.refl _ e.theme with
      fontFamily := fun _ => List.mem_singleton.mpr rfl
      untouched := fun h => absurd h (List.cons_ne_nil _ _) }

/-- A change of the document colors at one key. -/
theorem edit_structuralColors (e : Editor) {key : String} {structuralColors : Entries Value}
    (h : ∀ other, key ≠ other →
      Entries.get? structuralColors other = Entries.get? e.theme.structuralColors other) :
    Edit e ({ e with theme := { e.theme with structuralColors } }.track
      ["structuralColors", key]) := by
  refine edit_track (List.cons_ne_nil _ _)
    { Covers.refl _ e.theme with
      structuralColors := fun other hd => ?_
      untouched := fun h => absurd h (List.cons_ne_nil _ _) }
  by_cases ho : key = other
  · subst ho
    exact Path.covered_of_mem (List.mem_singleton.mpr rfl) []
  · exact absurd (h other ho).symm hd

theorem edit_setStructuralColor (e : Editor) (key : String) (v : Value) :
    Edit e (e.setStructuralColor key v) :=
  edit_structuralColors e fun other ho => by rw [Entries.get?_insert, if_neg ho]

theorem edit_removeStructuralColor (e : Editor) (key : String) :
    Edit e (e.removeStructuralColor key).2 :=
  edit_structuralColors e fun other ho => by rw [Entries.get?_erase, if_neg ho]

theorem edit_setTextClassProperty (e : Editor) (textClass property : String) (v : Value) :
    Edit e (e.setTextClassProperty textClass property v) := by
  refine edit_track (List.cons_ne_nil _ _)
    { Covers.refl _ e.theme with
      textClasses := fun c p hd => ?_
      untouched := fun h => absurd h (List.cons_ne_nil _ _) }
  by_cases hc : textClass = c
  · subst hc
    by_cases hp : property = p
    · subst hp
      exact Path.covered_of_mem (List.mem_singleton.mpr rfl) []
    · rw [Entries.get?_upsert, if_pos rfl, Option.bind_some, Entries.get?_insert, if_neg hp] at hd
      cases hb : Entries.get? e.theme.textClasses textClass <;> simp [hb, Entries.get?] at hd
  · rw [Entries.get?_upsert, if_neg hc] at hd
    exact absurd rfl hd

theorem edit_reconcile (e : Editor) : Edit e e.reconcile := by
  unfold reconcile
  dsimp only
  split
  · exact .refl e
  · exact edit_track (List.cons_ne_nil _ _)
      { Covers.refl _ e.theme with
        selection := fun c _ => Path.covered_of_mem (List.mem_singleton.mpr rfl) [c.name]
        untouched := fun h => absurd h (List.cons_ne_nil _ _) }

theorem edit_setStyles (e : Editor) {styles : StyleTree} {p : Path} (hp : p ≠ [])
    (h : ∀ visual variant property,
      styles.property? visual variant property ≠
          e.theme.styles.property? visual variant property →
        p <+: ["visualStyles", visual, variant, property]) :
    Edit e (e.setStyles styles [p]) := by
  refine Edit.trans (edit_track hp ?_) (edit_reconcile _)
  exact
    { Covers.refl _ e.theme with
      styles := fun visual variant property hd =>
        ⟨p, List.mem_singleton.mpr rfl, h visual variant property hd.symm⟩
      untouched := fun h => absurd h (List.cons_ne_nil _ _) }

theorem edit_setProperty (e : Editor) (visual variant : String) (path : List String) (v : Value) :
    Edit e (e.setProperty visual variant path v).2 := by
  rcases e.setProperty_cases visual variant path v with he | ⟨key, rest, rfl, he⟩ <;> rw [he]
  · exact .refl e
  · refine edit_setStyles e (by simp [stylePath]) fun a b property hd => ?_
    by_cases h : visual = a ∧ variant = b ∧ key = property
    · obtain ⟨rfl, rfl, rfl⟩ := h
      exact List.prefix_rfl
    · exact absurd (StyleTree.property?_setPath rest v h) hd

theorem edit_removeProperty (e : Editor) (visual variant : String) (path : List String) :
    Edit e (e.removeProperty visual variant path).2 := by
  rcases e.removeProperty_cases visual variant path with
    he | ⟨key, rest, bag, rfl, hb, he⟩ <;> rw [he]
  · exact .refl e
  · refine edit_setStyles e (by simp [stylePath]) fun a b property hd => ?_
    by_cases h : visual = a ∧ variant = b
    · obtain ⟨rfl, rfl⟩ := h
      by_cases hk : property = key
      · subst hk
        exact List.prefix_rfl
      · refine absurd (StyleTree.property?_modify_of_get? ?_) hd
        rw [hb]
        exact Bag.get?_removePath rest hk
    · exact absurd (StyleTree.property?_modify_of_ne _ property h) hd

theorem edit_setBag (e : Editor) (visual variant : String) (bag : Bag) :
    Edit e (e.setBag visual variant bag) := by
  refine edit_setStyles e (by simp [stylePath]) fun a b property hd => ?_
  by_cases h : visual = a ∧ variant = b
  · obtain ⟨rfl, rfl⟩ := h
    exact List.prefix_append (stylePath visual variant) [property]
  · exact absurd (StyleTree.property?_modify_of_ne _ property h) hd

theorem edit_removeBag (e : Editor) (visual variant : String) :
    Edit e (e.removeBag visual variant).2 := by
  refine edit_setStyles e (by simp [stylePath]) fun a b property hd => ?_
  by_cases h : visual = a ∧ variant = b
  · obtain ⟨rfl, rfl⟩ := h
    exact List.prefix_append (stylePath visual variant) [property]
  · exact absurd (StyleTree.property?_removeBag property h) hd

theorem covers_applyChoice {paths : List Path} {s : Theme} {c : Choice}
    (hw : ∀ w ∈ (s.styles.applyChoice c).2,
      stylePath w.visual defaultVariant ++ [w.property] ∈ paths)
    (hc : ["quickCustomizations", c.category.name] ∈ paths) :
    Covers paths s
      { s with
        styles := (s.styles.applyChoice c).1
        selection := s.selection.set c } :=
  { Covers.refl _ s with
    styles := fun visual variant property hd => by
      have hne : (s.styles.applyWrites (s.styles.applyChoice c).2).property? visual variant
          property ≠ s.styles.property? visual variant property := by
        rw [← StyleTree.applyChoice_eq_applyWrites]
        exact hd.symm
      obtain ⟨w, hm, rfl, rfl, rfl⟩ := StyleTree.exists_write_of_ne hne
      exact Path.covered_of_mem (hw w hm) []
    selection := fun d hd => by
      rw [Selection.get?_set] at hd
      by_cases hcd : c.category = d
      · subst hcd
        exact Path.covered_of_mem hc []
      · rw [if_neg hcd] at hd
        exact absurd rfl hd
    untouched := fun h => by
      rw [h] at hc
      exact absurd hc List.not_mem_nil }

/-- All writes of a choice are tracked, those that move a hidden border included. -/
theorem edit_applyChoice (e : Editor) (c : Choice) : Edit e (e.applyChoice c) := by
  have hf : ∀ w : Write, stylePath w.visual defaultVariant ++ [w.property] ≠ [] := by
    simp [stylePath]
  have hp : ["quickCustomizations", c.category.name] ≠ [] := List.cons_ne_nil _ _
  rw [applyChoice]
  refine Edit.trans ⟨?_, fun q hq => ?_, ?_⟩ (edit_reconcile _)
  · rw [baseline_track]
    exact baseline_foldl_track (fun w : Write => stylePath w.visual defaultVariant ++ [w.property])
      _ _
  · exact (mem_paths_track hp).mpr (Or.inr ((mem_paths_foldl_track hf).mpr (Or.inr hq)))
  · rw [theme_track]
    dsimp only
    rw [theme_foldl_track]
    refine covers_applyChoice (fun w hw => (mem_paths_track hp).mpr (Or.inr ?_))
      ((mem_paths_track hp).mpr (Or.inl rfl))
    exact (mem_paths_foldl_track hf).mpr (Or.inl ⟨w, hw, rfl⟩)

/-- There is a baseline, and what differs from it is tracked. -/
def Tracked (e : Editor) : Prop :=
  ∃ b, e.changes.baseline = some b ∧ Covers e.changes.paths b e.theme

theorem Tracked.edited {d e : Editor} (h : d.Tracked) (k : Edit d e) : e.Tracked := by
  obtain ⟨b, hb, hc⟩ := h
  exact ⟨b, k.baseline.trans hb, (hc.mono k.kept).trans k.covers⟩

theorem Tracked.perform {e : Editor} (h : e.Tracked) (hs : e.Settled) (op : Operation) :
    (e.perform op).Tracked := by
  cases op with
  | load t => exact ⟨t.reconciled, rfl, .refl _ _⟩
  | markSaved => exact ⟨e.theme, rfl, .refl _ _⟩
  | reset => exact ⟨e.reset.theme, hs.theme_reset, .refl _ _⟩
  | document store => exact h
  | setName name => exact h.edited (edit_setName e name)
  | setMode mode => exact h.edited (edit_setMode e mode)
  | toggleMode => exact h.edited (edit_setMode e _)
  | setColorPalette id => exact h.edited (edit_setColorPalette e id)
  | setNeutralPalette id => exact h.edited (edit_setNeutralPalette e id)
  | setFontFamily fontFamily => exact h.edited (edit_setFontFamily e fontFamily)
  | setProperty visual variant path v => exact h.edited (edit_setProperty e visual variant path v)
  | removeProperty visual variant path =>
    exact h.edited (edit_removeProperty e visual variant path)
  | setBag visual variant bag => exact h.edited (edit_setBag e visual variant bag)
  | removeBag visual variant => exact h.edited (edit_removeBag e visual variant)
  | setStructuralColor key v => exact h.edited (edit_setStructuralColor e key v)
  | removeStructuralColor key => exact h.edited (edit_removeStructuralColor e key)
  | setTextClassProperty textClass property v =>
    exact h.edited (edit_setTextClassProperty e textClass property v)
  | applyChoice c => exact h.edited (edit_applyChoice e c)

/-- In every session the tracked paths cover each difference of the theme from the baseline, and a
session without unsaved changes shows the baseline itself. -/
theorem changes_cover_differences (t : Theme) (ops : List Operation) :
    ∃ b, ((new t).run ops).changes.baseline = some b ∧
      Covers ((new t).run ops).changes.paths b ((new t).run ops).theme ∧
      (((new t).run ops).hasUnsavedChanges = false → ((new t).run ops).theme = b) := by
  have h : ((new t).run ops).Settled ∧ ((new t).run ops).Tracked :=
    run_invariant (P := fun e => e.Settled ∧ e.Tracked)
      (fun e he op _ => ⟨he.1.perform op, he.2.perform he.1 op⟩)
      ⟨settled_new t, t.reconciled, rfl, .refl _ _⟩
  obtain ⟨b, hb, hc⟩ := h.2
  refine ⟨b, hb, hc, fun hu => (hc.untouched ?_).symm⟩
  simpa [hasUnsavedChanges, Changes.isEmpty] using hu

end Editor

end ReportTheme
