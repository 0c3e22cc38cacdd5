import ReportTheme.Proofs.Preset.Write
import ReportTheme.Proofs.Style.Equal

/-!
Which choices a tree matches once one has been applied. A choice is found again in its category,
except that a hidden border in a color of a drawn border is taken for that one.
-/
namespace ReportTheme

theorem Category.category_of_mem_choices {c : Category} {choice : Choice}
    (h : choice ∈ c.choices) : choice.category = c := by
  cases c <;> (obtain ⟨v, -, rfl⟩ := List.mem_map.mp h; rfl)

/-- A fold over categories whose steps each change their own category, and alike at every visit. -/
theorem Selection.get?_foldl {step : Selection → Category → Selection} {c : Category}
    {f : Option Choice → Option Choice} (hf : ∀ o, f (f o) = f o)
    (hstep : ∀ s d, (step s d).get? c = if d = c then f (s.get? c) else s.get? c)
    (cs : List Category) (s : Selection) :
    (cs.foldl step s).get? c = if c ∈ cs then f (s.get? c) else s.get? c := by
  induction cs generalizing s with
  | nil => simp
  | cons d cs ih =>
    rw [List.foldl_cons, ih, hstep]
    by_cases hd : d = c
    · simp [hd, hf]
    · simp [hd, Ne.symm hd]

namespace StyleTree

theorem category_of_detectIn {t : StyleTree} {c : Category} {choice : Choice}
    (h : t.detectIn c = some choice) : choice.category = c :=
  Category.category_of_mem_choices (List.mem_of_find?_eq_some h)

theorem get?_detect (t : StyleTree) (c : Category) : t.detect.get? c = t.detectIn c := by
  have hor : ∀ o : Option Choice, (t.detectIn c).or ((t.detectIn c).or o) = (t.detectIn c).or o :=
    fun o => by cases t.detectIn c <;> rfl
  refine (Selection.get?_foldl hor (fun s d => ?_) Category.all .unset).trans ?_
  · by_cases hd : d = c
    · subst hd
      rw [if_pos rfl]
      cases h : t.detectIn d with
      | none => rfl
      | some choice => simp [Selection.get?_set, category_of_detectIn h]
    · rw [if_neg hd]
      cases h : t.detectIn d with
      | none => rfl
      | some choice => simp [Selection.get?_set, category_of_detectIn h, hd]
  · rw [if_pos (Category.mem_all c)]
    cases t.detectIn c <;> cases c <;> rfl

end StyleTree

namespace Selection

theorem get?_reconcile (s : Selection) (t : StyleTree) (c : Category) :
    (s.reconcile t).get? c = if s.get? c = t.detect.get? c then s.get? c else none := by
  refine (get?_foldl (f := fun o => if s.get? c = t.detect.get? c then o else none)
    (fun o => by split <;> rfl) (fun r d => ?_) Category.all s).trans ?_
  · by_cases hd : d = c
    · subst hd
      split <;> simp [get?_clear]
    · split <;> simp [get?_clear, hd]
  · rw [if_pos (Category.mem_all c)]

/-- Whether every choice of a selection is the one that the tree matches. -/
def IsView (s : Selection) (t : StyleTree) : Prop :=
  ∀ c, s.get? c = none ∨ s.get? c = t.detect.get? c

theorem isView_reconcile (s : Selection) (t : StyleTree) : (s.reconcile t).IsView t := by
  intro c
  rw [get?_reconcile]
  split
  · rename_i h
    exact Or.inr h
  · exact Or.inl rfl

/-- A view has nothing that reconciling would drop. -/
theorem IsView.reconcile_eq {s : Selection} {t : StyleTree} (h : s.IsView t) :
    s.reconcile t = s := by
  refine ext_get? fun c => ?_
  rw [get?_reconcile]
  rcases h c with hc | hc
  · simp [hc]
  · rw [if_pos hc]

end Selection

/-- Where the choices of a category write. -/
def Category.targets : Category → List (String × String × String)
  | .padding => ["top", "bottom", "left", "right"].map fun side => (globalVisual, "padding", side)
  | .radius => [(globalVisual, "border", "radius")]
  | .border => ["show", "width", "color"].map fun field => (globalVisual, "border", field)
  | .background =>
    (["show", "color", "transparency"].map fun field => (globalVisual, "background", field)) ++
      ["color", "transparency"].map fun field => (pageVisual, "background", field)

namespace Category

theorem nodup_targets (c : Category) : c.targets.Nodup := by cases c <;> decide

/-- No two categories write to the same place. -/
theorem targets_disjoint {c d : Category} (h : c ≠ d) : ∀ p ∈ c.targets, p ∉ d.targets := by
  cases c <;> cases d <;> first | exact absurd rfl h | decide

end Category

namespace StyleTree

theorem backgroundFill_eq (t : StyleTree) :
    t.backgroundFill =
      ((t.property? globalVisual defaultVariant "background").bind
        fun v => v.get? ["0", "color"]).getD (fill .surface) := by
  rw [backgroundFill, defaultBag?, property?]
  cases t.bag? globalVisual defaultVariant <;> rfl

end StyleTree

/-- A property that the values have which choices write of themselves. -/
structure Value.OfPresets (P : Value → Prop) : Prop where
  whole (n : UInt64) : P (whole n)
  fill (t : Token) : P (fill t)
  bool (b : Bool) : P (.bool b)

theorem Value.keyed_ofPresets : OfPresets fun v => v.keyed = true where
  whole _ := rfl
  fill _ := rfl
  bool _ := rfl

theorem StyleTree.Holds.backgroundFill {P : Value → Prop} (hP : Value.Hereditary P)
    (hpresets : Value.OfPresets P) {t : StyleTree} (ht : t.Holds P) : P t.backgroundFill := by
  rw [backgroundFill_eq]
  cases h : (t.property? globalVisual defaultVariant "background").bind
      fun v => v.get? ["0", "color"] with
  | none => exact hpresets.fill .surface
  | some v =>
    obtain ⟨u, hu, hv⟩ := Option.bind_eq_some_iff.mp h
    obtain ⟨bag, hb, hu⟩ := Option.bind_eq_some_iff.mp hu
    exact hP.get? ((ht.bag? hb).get? hu) hv

namespace Choice

theorem targets_writes (c : Choice) (t : StyleTree) :
    (c.writes t).map Write.target = c.category.targets := by
  cases c <;> rfl

theorem target_mem {t : StyleTree} {c : Choice} {w : Write} (h : w ∈ c.writes t) :
    w.target ∈ c.category.targets := c.targets_writes t ▸ List.mem_map_of_mem h

theorem writes_congr {t u : StyleTree} (h : t.backgroundFill = u.backgroundFill) (c : Choice) :
    c.writes t = c.writes u := by
  cases c with
  | border b => cases b <;> simp [writes, Border.color, h]
  | _ => rfl

/-- What a choice writes are values of presets, and the fill behind the visuals. -/
theorem writes_hold {P : Value → Prop} (hP : Value.Hereditary P) (hpresets : Value.OfPresets P)
    {t : StyleTree} (ht : t.Holds P) (c : Choice) : ∀ w ∈ c.writes t, P w.value := by
  cases c with
  | padding p => simp [writes, hpresets.whole]
  | radius r => simp [writes, hpresets.whole]
  | border b =>
    have hcolor : P (b.color t) := by
      cases b with
      | none => exact ht.backgroundFill hP hpresets
      | _ => exact hpresets.fill _
    simp [writes, hpresets.whole, hpresets.bool, hcolor]
  | background b => simp [writes, hpresets.whole, hpresets.bool, hpresets.fill]

end Choice

namespace StyleTree

theorem Holds.applyChoice {P : Value → Prop} (hP : Value.Hereditary P)
    (hpresets : Value.OfPresets P) {t : StyleTree} (ht : t.Holds P) (c : Choice) :
    (t.applyChoice c).1.Holds P := by
  have hchanged := ht.applyWrites hP (c.writes_hold hP hpresets ht)
  unfold StyleTree.applyChoice
  dsimp only
  split
  · exact hchanged.applyWrites hP ((Choice.border .none).writes_hold hP hpresets hchanged)
  · exact hchanged

/-- The writes of a choice go to places of their own, so all of them land. -/
theorem landed_writes (t u : StyleTree) (c : Choice) :
    ∀ w ∈ c.writes u, w.Landed (t.applyWrites (c.writes u)) := by
  refine landed_applyWrites ?_
  rw [c.targets_writes]
  exact c.category.nodup_targets

/-- The writes that are reported are all that happens to the tree. -/
theorem applyChoice_eq_applyWrites (t : StyleTree) (c : Choice) :
    (t.applyChoice c).1 = t.applyWrites (t.applyChoice c).2 := by
  unfold applyChoice
  dsimp only
  split
  · simp only [applyWrites, List.foldl_append]
  · rfl

theorem backgroundFill_applyWrites {t : StyleTree} {writes : List Write}
    (h : ∀ w ∈ writes, w.property ≠ "background") :
    (t.applyWrites writes).backgroundFill = t.backgroundFill := by
  rw [backgroundFill_eq, property?_applyWrites fun w hw hp => h w hw hp.2.2, backgroundFill_eq]

theorem backgroundFill_border (t u : StyleTree) (b : Border) :
    (t.applyWrites ((Choice.border b).writes u)).backgroundFill = t.backgroundFill := by
  have hborder : ∀ p ∈ Category.border.targets, p.2.1 ≠ "background" := by decide
  exact backgroundFill_applyWrites fun w hw => hborder w.target (Choice.target_mem hw)

theorem backgroundFill_applyChoice_border (t : StyleTree) (b : Border) :
    (t.applyChoice (.border b)).1.backgroundFill = t.backgroundFill := by
  rw [applyChoice, hidesBorder]
  exact backgroundFill_border t t b

/-- A hidden border moves as if it were hidden once more over the new background. -/
theorem applyChoice_of_hidesBorder {t : StyleTree} {c : Choice} (h : t.hidesBorder c = true) :
    (t.applyChoice c).1 = ((t.applyWrites (c.writes t)).applyChoice (.border .none)).1 := by
  rw [applyChoice, if_pos h, applyChoice, hidesBorder]
  rfl

theorem applyChoice_of_not_hidesBorder {t : StyleTree} {c : Choice} (h : t.hidesBorder c = false) :
    (t.applyChoice c).1 = t.applyWrites (c.writes t) := by
  simp [applyChoice, h]

/-- Where the reported writes go: to the places of the category and, if a hidden border moves, to
those of the border. -/
theorem targets_applyChoice (t : StyleTree) (c : Choice) :
    (t.applyChoice c).2.map Write.target =
      c.category.targets ++ if t.hidesBorder c = true then Category.border.targets else [] := by
  unfold applyChoice
  dsimp only
  split
  · rw [List.map_append, c.targets_writes, Choice.targets_writes, Choice.category]
  · rw [c.targets_writes, List.append_nil]

/-- No place is written twice. -/
theorem nodup_targets_applyChoice (t : StyleTree) (c : Choice) :
    ((t.applyChoice c).2.map Write.target).Nodup := by
  rw [targets_applyChoice]
  split
  · rename_i h
    have hc : c.category = .background := by
      rw [hidesBorder, Bool.and_eq_true, decide_eq_true_eq] at h
      exact h.1
    rw [hc]
    decide
  · rw [List.append_nil]
    exact c.category.nodup_targets

theorem landed_reported (t : StyleTree) (c : Choice) :
    ∀ w ∈ (t.applyChoice c).2, w.Landed (t.applyChoice c).1 := by
  rw [applyChoice_eq_applyWrites]
  exact landed_applyWrites (t.nodup_targets_applyChoice c)

theorem mem_reported {t : StyleTree} {c : Choice} {w : Write} (h : w ∈ c.writes t) :
    w ∈ (t.applyChoice c).2 := by
  unfold applyChoice
  dsimp only
  split
  · exact List.mem_append_left _ h
  · exact h

/-- All that a choice asks for stands in the tree once it has been applied. -/
theorem landed_applyChoice (t : StyleTree) (c : Choice) :
    ∀ w ∈ c.writes (t.applyChoice c).1, w.Landed (t.applyChoice c).1 := by
  have hwrites : c.writes (t.applyChoice c).1 = c.writes t := by
    cases c with
    | border b => exact Choice.writes_congr (backgroundFill_applyChoice_border t b) _
    | _ => rfl
  rw [hwrites]
  exact fun w hw => t.landed_reported c w (mem_reported hw)

/-- Where some writes have landed, others with the same targets are satisfied just if they ask for
equal values. -/
theorem all_isSatisfied {t : StyleTree} {vs ws : List Write} (hv : ∀ v ∈ vs, v.Landed t)
    (h : vs.map Write.target = ws.map Write.target) :
    ws.all (·.isSatisfied t) = (vs.zip ws).all fun p => p.1.value.equal p.2.value := by
  induction vs generalizing ws with
  | nil =>
    obtain rfl := List.map_eq_nil_iff.mp h.symm
    rfl
  | cons v vs ih =>
    obtain ⟨w, ws, rfl, hw, hws⟩ := List.map_eq_cons_iff.mp h.symm
    rw [List.all_cons, List.zip_cons_cons, List.all_cons,
      ih (fun u hu => hv u (by simp [hu])) hws.symm,
      Write.isSatisfied_of_landed (hv v (by simp)) hw.symm]

end StyleTree

/-- Whether a choice asks for what another has written. -/
def Choice.agrees (t : StyleTree) (written asked : Choice) : Bool :=
  ((written.writes t).zip (asked.writes t)).all fun p => p.1.value.equal p.2.value

namespace StyleTree

/-- Where a choice has been written, its category is told by which choices agree with it. -/
theorem detectIn_of_landed {t : StyleTree} {c : Choice} (h : ∀ w ∈ c.writes t, w.Landed t) :
    t.detectIn c.category = c.category.choices.find? (c.agrees t) := by
  have hagree : ∀ d ∈ c.category.choices,
      (d.writes t).all (·.isSatisfied t) = c.agrees t d := by
    intro d hd
    refine all_isSatisfied h ?_
    rw [c.targets_writes, d.targets_writes, Category.category_of_mem_choices hd]
  rw [detectIn, ← List.head?_filter, ← List.head?_filter, List.filter_congr hagree]

theorem detectIn_applyChoice (t : StyleTree) (c : Choice) :
    (t.applyChoice c).1.detectIn c.category =
      c.category.choices.find? (c.agrees (t.applyChoice c).1) :=
  detectIn_of_landed (landed_applyChoice t c)

/-- Whether a hidden border over the background would be in the color of a drawn one. -/
def HiddenLooksDrawn (t : StyleTree) : Prop :=
  t.backgroundFill.equal (fill .borderPrimary) = true ∨
    t.backgroundFill.equal (fill .borderSubtle) = true

instance (t : StyleTree) : Decidable t.HiddenLooksDrawn := inferInstanceAs (Decidable (_ ∨ _))

theorem find?_border_none (t : StyleTree) (ht : t.backgroundFill.keyed = true) :
    Category.border.choices.find? ((Choice.border .none).agrees t) =
      some (.border (if t.backgroundFill.equal (fill .borderPrimary) then .default
        else if t.backgroundFill.equal (fill .borderSubtle) then .subtle else .none)) := by
  have hagree : ∀ b : Border, (Choice.border .none).agrees t (.border b) =
      t.backgroundFill.equal (b.color t) := by
    intro b
    have hshow : (Value.bool true).equal (.bool true) = true := rfl
    have hwidth : (whole 1).equal (whole 1) = true := Value.equal_refl rfl
    simp [Choice.agrees, Choice.writes, Border.color, hshow, hwidth]
  have hself := Value.equal_refl ht
  simp only [Category.choices, Border.variants, List.map, List.find?_cons, hagree, Border.color,
    hself]
  cases t.backgroundFill.equal (fill .borderPrimary) <;>
    cases t.backgroundFill.equal (fill .borderSubtle) <;> rfl

/-- A choice is found again in its category just if it does not hide the border in the color of a
drawn one. -/
theorem detect_applyChoice (t : KeyedTree) (c : Choice) :
    (t.applyChoice c).1.detect.get? c.category = some c ↔
      ¬(c = .border .none ∧ t.HiddenLooksDrawn) := by
  rw [get?_detect, detectIn_applyChoice]
  cases c with
  | padding p => cases p <;> exact iff_of_true rfl (by simp)
  | radius r => cases r <;> exact iff_of_true rfl (by simp)
  | background b => cases b <;> exact iff_of_true rfl (by simp)
  | border b =>
    cases b with
    | default => exact iff_of_true rfl (by simp)
    | subtle => exact iff_of_true rfl (by simp)
    | none =>
      have hfill := backgroundFill_applyChoice_border t.toStyleTree .none
      have hkeyed := t.keyed.holds.backgroundFill Value.hereditary_keyed Value.keyed_ofPresets
      rw [Choice.category, find?_border_none _ (hfill ▸ hkeyed), hfill, HiddenLooksDrawn]
      cases t.backgroundFill.equal (fill .borderPrimary) <;>
        cases t.backgroundFill.equal (fill .borderSubtle) <;> simp

end StyleTree

end ReportTheme
