import ReportTheme.Proofs.Preset.Background

/-!
Presets applied twice. The second time a preset finds its own writes in place and changes nothing,
except that a background preset may take a border for hidden over its own background that it did not
take for hidden over the one before. Moving that border again writes what is read already; it
changes the tree just if the border is read from where no preset writes.
-/
namespace ReportTheme

namespace Value

/-- A value that, with the order of keys ignored, still equals itself only. -/
structure Rigid (w : Value) : Prop where
  refl : w.equal w = true
  eq_of_equal {v : Value} : v.equal w = true ∨ w.equal v = true → v = w

theorem equal_single (k l : String) (v w : Value) :
    (Value.group [(k, v)]).equal (.group [(l, w)]) = true ↔ k = l ∧ v.equal w = true := by
  by_cases h : l = k
  · simp [equal, equalEntries, Entries.get?, h]
  · simp [equal, equalEntries, Entries.get?, h, Ne.symm h]

theorem exists_single_of_equal {key : String} {v w : Value}
    (h : w.equal (.group [(key, v)]) = true ∨ (Value.group [(key, v)]).equal w = true) :
    ∃ k u, w = .group [(k, u)] := by
  cases w with
  | group b =>
    have hlen : b.length = 1 := by
      simp only [equal, Bool.and_eq_true, beq_iff_eq] at h
      exact h.elim And.left fun h => h.1.symm
    obtain ⟨⟨k, u⟩, rfl⟩ := List.length_eq_one_iff.mp hlen
    exact ⟨k, u, rfl⟩
  | _ => simp [equal] at h

theorem Rigid.single {v : Value} (h : Rigid v) (key : String) : Rigid (.group [(key, v)]) where
  refl := (equal_single key key v v).mpr ⟨rfl, h.refl⟩
  eq_of_equal := by
    intro w hw
    obtain ⟨k, u, rfl⟩ := exists_single_of_equal hw
    rw [equal_single, equal_single] at hw
    have hkey : k = key := hw.elim And.left fun h => h.1.symm
    have hvalue : u = v := h.eq_of_equal (hw.imp And.right And.right)
    rw [hkey, hvalue]

theorem rigid_token (reference : String) : Rigid (.color (.token reference)) where
  refl := by simp [equal, Color.equal]
  eq_of_equal := by
    intro v hv
    cases v with
    | color c =>
      cases c with
      | token s =>
        simp only [equal, Color.equal, beq_iff_eq] at hv
        rw [hv.elim id Eq.symm]
      | _ => simp [equal, Color.equal] at hv
    | _ => simp [equal] at hv

theorem rigid_bool (b : Bool) : Rigid (.bool b) where
  refl := by simp [equal]
  eq_of_equal := by
    intro v hv
    cases v with
    | bool c =>
      simp only [equal, beq_iff_eq] at hv
      rw [hv.elim id Eq.symm]
    | _ => simp [equal] at hv

theorem rigid_whole (n : UInt64) : Rigid (whole n) where
  refl := (Number.ofUInt64 n).equal_refl
  eq_of_equal := by
    intro v hv
    cases v with
    | number m =>
      cases m with
      | integer k fits =>
        simp only [whole, equal, Number.ofUInt64, Number.equal, beq_iff_eq] at hv
        obtain rfl := hv.elim id Eq.symm
        rfl
      | double x => simp [whole, equal, Number.ofUInt64, Number.equal] at hv
    | _ => simp [whole, equal] at hv

/-- What choices write of themselves equals nothing else. -/
theorem rigid_ofPresets : OfPresets Rigid where
  whole := rigid_whole
  fill t := ((rigid_token t.name).single "color").single "solid"
  bool := rigid_bool

end Value

/-- A write has landed where its value is read, from a group that begins a list. -/
theorem Write.landed_iff {t : StyleTree} {w : Write} :
    w.Landed t ↔
      t.firstGroup? w.visual w.property ≠ none ∧ t.valueAt? w.target = some w.value := by
  constructor
  · intro h
    obtain ⟨entry, hentry, -⟩ := id h
    exact ⟨by simp [hentry], h.valueAt?⟩
  · rintro ⟨hfirst, hvalue⟩
    obtain ⟨entry, hentry⟩ := Option.ne_none_iff_exists'.mp hfirst
    exact ⟨entry, hentry, (StyleTree.valueAt?_of_firstGroup? hentry).symm.trans hvalue⟩

theorem Write.isSatisfied_iff_of_rigid {t : StyleTree} {w : Write} (h : w.value.Rigid) :
    w.isSatisfied t = true ↔ t.valueAt? w.target = some w.value := by
  rw [isSatisfied_eq, Option.any_eq_true]
  constructor
  · rintro ⟨v, hv, hequal⟩
    rw [hv, h.eq_of_equal (.inl hequal)]
  · intro hvalue
    exact ⟨w.value, hvalue, h.refl⟩

namespace StyleTree

/-- Whether a border is read that is shown, thin, and in a color. -/
structure BorderIn (t : StyleTree) (color : Value) : Prop where
  shown : t.valueAt? (globalVisual, "border", "show") = some (.bool true)
  width : t.valueAt? (globalVisual, "border", "width") = some (whole 1)
  color : t.valueAt? (globalVisual, "border", "color") = some color

theorem BorderIn.color_eq {t : StyleTree} {c d : Value} (hc : t.BorderIn c) (hd : t.BorderIn d) :
    c = d := Option.some.inj (hc.color.symm.trans hd.color)

theorem borderIn_iff (t : StyleTree) (b : Border) :
    t.BorderIn (b.color t) ↔
      ∀ w ∈ (Choice.border b).writes t, t.valueAt? w.target = some w.value := by
  constructor
  · intro h
    simpa [Choice.writes, Write.target] using And.intro h.shown (And.intro h.width h.color)
  · intro h
    exact ⟨h _ (.head _), h _ (.tail _ (.head _)), h _ (.tail _ (.tail _ (.head _)))⟩

/-- A border style is met just if the border is read in its color. -/
theorem all_isSatisfied_border_iff {t : StyleTree} {b : Border} (h : (b.color t).Rigid) :
    ((Choice.border b).writes t).all (·.isSatisfied t) = true ↔ t.BorderIn (b.color t) := by
  have hrigid : ∀ w ∈ (Choice.border b).writes t, w.value.Rigid := by
    simp [Choice.writes, h, Value.rigid_bool, Value.rigid_whole]
  rw [borderIn_iff, List.all_eq_true]
  exact forall₂_congr fun w hw => Write.isSatisfied_iff_of_rigid (hrigid w hw)

theorem all_isSatisfied_of_detectIn {t : StyleTree} {c : Category} {choice : Choice}
    (h : t.detectIn c = some choice) : (choice.writes t).all (·.isSatisfied t) = true := by
  have hmet := List.find?_some h
  exact hmet

/-- Over the background of the presets a border is hidden just if it has that color. -/
theorem detectIn_border_none_iff {t : StyleTree} (h : t.backgroundFill = fill .surface) :
    t.detectIn .border = some (.border .none) ↔ t.BorderIn (fill .surface) := by
  have hmet : ∀ (b : Border) (token : Token), b.color t = fill token →
      (((Choice.border b).writes t).all (·.isSatisfied t) = true ↔ t.BorderIn (fill token)) := by
    intro b token hcolor
    have hrigid := Value.rigid_ofPresets.fill token
    rw [← hcolor] at hrigid ⊢
    exact all_isSatisfied_border_iff hrigid
  constructor
  · intro hfound
    exact (hmet .none .surface h).mp (all_isSatisfied_of_detectIn hfound)
  · intro hborder
    -- The styles that are tried before ask for other colors.
    have hother : ∀ (b : Border) (token : Token), b.color t = fill token →
        (fill .surface).equal (fill token) = false →
        ((Choice.border b).writes t).all (·.isSatisfied t) = false := by
      intro b token hcolor hne
      rw [Bool.eq_false_iff, ne_eq, hmet b token hcolor]
      intro hb
      have hself := (Value.rigid_ofPresets.fill .surface).refl
      rw [hb.color_eq hborder] at hne
      simp [hself] at hne
    have hdefault := hother .default .borderPrimary rfl rfl
    have hsubtle := hother .subtle .borderSubtle rfl rfl
    have hnone := (hmet .none .surface h).mpr hborder
    simp only [detectIn, Category.choices, Border.variants, List.map_cons, List.map_nil,
      List.find?_cons, hdefault, hsubtle, hnone]

/-- A border in the color of the background presets is hidden only over that background. -/
theorem backgroundFill_of_hidden {t : StyleTree} (hborder : t.BorderIn (fill .surface))
    (hhidden : t.detectIn .border = some (.border .none)) : t.backgroundFill = fill .surface := by
  have hmet := List.all_eq_true.mp (all_isSatisfied_of_detectIn hhidden)
  have hcolor : (⟨globalVisual, "border", "color", t.backgroundFill⟩ : Write).isSatisfied t =
      true := hmet _ (.tail _ (.tail _ (.head _)))
  rw [Write.isSatisfied_eq, Write.target, hborder.color, Option.any_some] at hcolor
  exact (Value.rigid_ofPresets.fill .surface).eq_of_equal (.inr hcolor)

theorem borderIn_applyWrites_background (t u : StyleTree) (b : Background) (color : Value) :
    (t.applyWrites ((Choice.background b).writes u)).BorderIn color ↔ t.BorderIn color := by
  have hread : ∀ field, (t.applyWrites ((Choice.background b).writes u)).valueAt?
      (globalVisual, "border", field) = t.valueAt? (globalVisual, "border", field) :=
    fun field => valueAt?_border_applyWrites_background t u b rfl
  constructor
  · intro h
    exact ⟨hread _ ▸ h.shown, hread _ ▸ h.width, hread _ ▸ h.color⟩
  · intro h
    exact ⟨(hread _).trans h.shown, (hread _).trans h.width, (hread _).trans h.color⟩

theorem landed_border_iff (t : StyleTree) :
    (∀ w ∈ (Choice.border .none).writes t, w.Landed t) ↔
      t.BorderIn t.backgroundFill ∧ t.firstGroup? globalVisual "border" ≠ none := by
  have hread := borderIn_iff t .none
  have hplace : ∀ w ∈ (Choice.border .none).writes t,
      t.firstGroup? w.visual w.property = t.firstGroup? globalVisual "border" := by
    simp [Choice.writes]
  constructor
  · intro h
    have hfirst := (Write.landed_iff.mp (h _ (.head _))).1
    exact ⟨hread.mpr fun w hw => (h w hw).valueAt?, hfirst⟩
  · rintro ⟨hborder, hfirst⟩ w hw
    exact Write.landed_iff.mpr ⟨hplace w hw ▸ hfirst, hread.mp hborder w hw⟩

/-- What a choice does to a tree in which its writes have landed: it moves a hidden border, and
nothing else. -/
theorem applyChoice_eq_self_iff {t : StyleTree} {c : Choice} (h : ∀ w ∈ c.writes t, w.Landed t) :
    (t.applyChoice c).1 = t ↔
      (t.hidesBorder c = true → ∀ w ∈ (Choice.border .none).writes t, w.Landed t) := by
  cases hhidden : t.hidesBorder c with
  | false =>
    rw [applyChoice_of_not_hidesBorder hhidden, applyWrites_of_landed h]
    simp
  | true =>
    rw [applyChoice_of_hidesBorder hhidden, applyWrites_of_landed h,
      applyChoice_of_not_hidesBorder rfl]
    constructor
    · intro hsame _
      have hlanded := t.landed_writes t (.border .none)
      rwa [hsame] at hlanded
    · intro hlanded
      exact applyWrites_of_landed (hlanded rfl)

/-- A border in the color that the background presets write, over a background of another color,
that is not read from where fields are written. No preset takes it for hidden until a background
preset has been applied. -/
structure HidesLater (t : StyleTree) : Prop where
  border : t.BorderIn (fill .surface)
  uncovered : t.backgroundFill ≠ fill .surface
  unlisted : t.firstGroup? globalVisual "border" = none

/-- Unless there is such a border, one that is hidden under a background preset has its place. -/
theorem not_hidesLater_iff {t : StyleTree} (h : t.detectIn .border ≠ some (.border .none))
    (b : Background) :
    ¬t.HidesLater ↔
      ((t.applyWrites ((Choice.background b).writes t)).detectIn .border =
        some (.border .none) →
      ∀ w ∈ (Choice.border .none).writes (t.applyWrites ((Choice.background b).writes t)),
        w.Landed (t.applyWrites ((Choice.background b).writes t))) := by
  have hfill := backgroundFill_applyWrites_background t t b
  have hfirst : (t.applyWrites ((Choice.background b).writes t)).firstGroup? globalVisual
      "border" = t.firstGroup? globalVisual "border" := by
    rw [firstGroup?, property?_border_applyWrites_background, firstGroup?]
  rw [detectIn_border_none_iff hfill, landed_border_iff, hfill, hfirst,
    borderIn_applyWrites_background]
  constructor
  · intro hlater hborder
    have huncovered : t.backgroundFill ≠ fill .surface :=
      fun hsurface => h ((detectIn_border_none_iff hsurface).mpr hborder)
    exact ⟨hborder, fun hunlisted => hlater ⟨hborder, huncovered, hunlisted⟩⟩
  · intro hlanded hlater
    exact (hlanded hlater.border).2 hlater.unlisted

/-- Applying a choice again leaves the tree as it is, key order included, unless it is a background
preset and the tree had a border that only then counts as hidden. -/
theorem applyChoice_twice_iff (t : StyleTree) (c : Choice) :
    ((t.applyChoice c).1.applyChoice c).1 = (t.applyChoice c).1 ↔
      ¬(c.category = .background ∧ t.HidesLater) := by
  rw [applyChoice_eq_self_iff (landed_applyChoice t c)]
  by_cases hc : c.category = .background
  · obtain ⟨b, rfl⟩ : ∃ b, c = .background b := by cases c <;> simp_all [Choice.category]
    have hhides := hidesBorder_background t b
    by_cases hhidden : t.detectIn .border = some (.border .none)
    · -- The border has been moved the first time.
      rw [applyChoice_of_hidesBorder (hhides.mpr hhidden)]
      refine iff_of_true (fun _ => landed_applyChoice _ (.border .none)) ?_
      rintro ⟨-, hlater⟩
      exact hlater.uncovered (backgroundFill_of_hidden hlater.border hhidden)
    · have hdrawn : t.hidesBorder (.background b) = false :=
        Bool.eq_false_iff.mpr fun h => hhidden (hhides.mp h)
      rw [applyChoice_of_not_hidesBorder hdrawn, hidesBorder_background, and_iff_right hc,
        not_hidesLater_iff hhidden b]
  · refine iff_of_true (fun hhidden => ?_) fun h => hc h.1
    rw [hidesBorder, Bool.and_eq_true, decide_eq_true_eq] at hhidden
    exact absurd hhidden.1 hc

/-- A white background, and a border in the color of surfaces below the key `0` of a group. -/
def boxedStyles : StyleTree :=
  empty.setBag globalVisual defaultVariant
    [("background", .list [.group [("color", .solid (.hex "#FFFFFF"))]]),
      ("border", .group [("0", .group [("show", .bool true), ("width", whole 1),
        ("color", fill .surface), ("radius", whole 8)])])]

/-- The second application writes the border anew, and its radius is lost. -/
theorem applied_twice_boxed :
    boxedStyles.Keyed ∧
    (boxedStyles.applyChoice (.background .default)).1.valueAt?
      (globalVisual, "border", "radius") = some (whole 8) ∧
    ((boxedStyles.applyChoice (.background .default)).1.applyChoice
      (.background .default)).1.valueAt? (globalVisual, "border", "radius") = none ∧
    ((boxedStyles.applyChoice (.background .default)).1.applyChoice (.background .default)).1 ≠
      (boxedStyles.applyChoice (.background .default)).1 := by
  have hkept : (boxedStyles.applyChoice (.background .default)).1.valueAt?
      (globalVisual, "border", "radius") = some (whole 8) := rfl
  have hlost : ((boxedStyles.applyChoice (.background .default)).1.applyChoice
      (.background .default)).1.valueAt? (globalVisual, "border", "radius") = none := rfl
  refine ⟨by decide, hkept, hlost, fun hsame => ?_⟩
  rw [hsame, hkept] at hlost
  cases hlost

end StyleTree

end ReportTheme
