import ReportTheme.Proofs.Session.Content
import ReportTheme.Proofs.Theme

/-!
Saving the theme of a session and reading it again. A session that starts from a theme that was read
and brings in only values that were read can be saved and read at any time. The theme comes back as
it was, unless a group has taken the form of a data color reference by changes inside of it.
-/
namespace ReportTheme

theorem StyleTree.Populated.applyWrites {t : StyleTree} (h : t.Populated) (writes : List Write) :
    (t.applyWrites writes).Populated := by
  induction writes generalizing t with
  | nil => exact h
  | cons w writes ih => exact ih (h.modify w.visual defaultVariant _)

theorem StyleTree.Populated.perform {saved current : StyleTree} (hs : saved.Populated)
    (h : current.Populated) {op : Operation} (hop : ∀ t, op = .load t → t.styles.Populated) :
    (op.styles saved current).Populated := by
  cases op with
  | load t => exact hop t rfl
  | reset => exact hs
  | setProperty visual variant path v =>
    rw [Operation.styles]
    split
    · exact h
    · exact h.modify visual variant _
  | removeProperty visual variant path =>
    rw [Operation.styles]
    split
    · exact h.modify visual variant _
    · exact h
  | setBag visual variant bag => exact h.modify visual variant _
  | removeBag visual variant => exact h.removeBag visual variant
  | applyChoice c =>
    rw [Operation.styles, applyChoice_eq_applyWrites]
    exact h.applyWrites _
  | _ => exact h

/-- Whether all that an operation brings in was read from JSON, objects holding their keys once. -/
def Operation.Ingested : Operation → Prop
  | .load t => t.Loaded
  | .setProperty _ _ _ v | .setStructuralColor _ v | .setTextClassProperty _ _ v =>
    ∃ j : Json, j.keyed = true ∧ v = .ofJson j
  | .setBag _ _ bag => ∃ es, Json.KeyedEntries es ∧ bag = Bag.ofEntries es
  | _ => True

theorem Operation.Ingested.brings {op : Operation} (h : op.Ingested) :
    op.Brings Value.Readable := by
  cases op with
  | load t => exact h.readable.1
  | setProperty | setStructuralColor | setTextClassProperty =>
    obtain ⟨j, hj, rfl⟩ := h
    exact Value.readable_ofJson j hj
  | setBag =>
    obtain ⟨es, hes, rfl⟩ := h
    exact Bag.holds_ofEntries Value.readable_ofJson hes
  | _ => trivial

namespace Editor

/-- The theme and the baseline have what reading guarantees. -/
structure Readable (e : Editor) : Prop where
  values : e.Holds Value.Readable
  theme : e.theme.styles.Populated
  baseline : ∀ b, e.changes.baseline = some b → b.styles.Populated

theorem readable_new {t : Theme} (h : t.Loaded) : (new t).Readable :=
  ⟨holds_new h.readable.1, h.readable.2, fun _ hb => Option.some.inj hb ▸ h.readable.2⟩

theorem Readable.saved {e : Editor} (h : e.Readable) : e.saved.styles.Populated := by
  rw [Editor.saved]
  cases hb : e.changes.baseline with
  | none => exact h.theme
  | some b => exact h.baseline b hb

theorem Readable.perform {e : Editor} (h : e.Readable) {op : Operation} (hop : op.Ingested) :
    (e.perform op).Readable := by
  refine ⟨h.values.perform Value.hereditary_readable Value.readable_ofPresets hop.brings, ?_,
    fun b hb => ?_⟩
  · rw [styles_perform]
    refine h.saved.perform h.theme fun t ht => ?_
    subst ht
    exact hop.readable.2
  · rw [baseline_perform] at hb
    cases op with
    | load t => exact Option.some.inj hb ▸ hop.readable.2
    | markSaved => exact Option.some.inj hb ▸ h.theme
    | _ => exact h.baseline b hb

theorem Readable.run {e : Editor} (h : e.Readable) {ops : List Operation}
    (hops : ∀ op ∈ ops, op.Ingested) : (e.run ops).Readable :=
  run_invariant (P := Readable) (fun _ hd op hop => hd.perform (hops op hop)) h

/-- A session of themes and values that were read can be saved and loaded again, within the limits
of what is read back. The theme that is loaded equals the one of the session exactly if no group
has the form of a data color reference, and then it is the same. -/
theorem reload_equal_iff {t : Theme} (ht : t.Loaded) {ops : List Operation}
    (hops : ∀ op ∈ ops, op.Ingested)
    (hdepth : ((new t).run ops).theme.toJson.depth ≤ Reading.depthLimit)
    (hnumbers : ((new t).run ops).theme.toJson.legible = true) :
    ∃ u, Theme.ofText ((new t).run ops).theme.text = .ok u ∧
      (u.equal ((new t).run ops).theme = true ↔
        ((new t).run ops).theme.Holds fun v => v.plain = true) ∧
      (((new t).run ops).theme.Holds (fun v => v.plain = true) →
        u = ((new t).run ops).theme) := by
  have h := (readable_new ht).run hops
  have hkeyed := h.values.theme.mono fun _ hv => hv.keyed
  exact ⟨_, Theme.ofText_text hkeyed h.theme hdepth hnumbers,
    Theme.equal_reread_iff h.values.theme, Theme.reread_eq_self h.values.theme⟩

/-- A preset, a property that is `null` and one in a group. -/
def roundedCard : List Operation :=
  [.applyChoice (.radius .large), .setProperty "card" "*" ["title"] (.ofJson .null),
    .setProperty "card" "*" ["border", "color"] (.ofJson (.string "@accent"))]

theorem loaded_new (id name : String) : (Theme.new id name).Loaded :=
  ⟨.ofJson (Theme.new id name).toJson, rfl⟩

theorem ingested_roundedCard : ∀ op ∈ roundedCard, op.Ingested := by
  simp only [roundedCard, List.forall_mem_cons]
  exact ⟨trivial, ⟨.null, rfl, rfl⟩, ⟨.string "@accent", rfl, rfl⟩, by simp⟩

theorem reload_roundedCard :
    Theme.ofText ((new (Theme.new "id" "name")).run roundedCard).theme.text =
      .ok ((new (Theme.new "id" "name")).run roundedCard).theme := by
  have hdepth : ((new (Theme.new "id" "name")).run roundedCard).theme.toJson.depth ≤
    Reading.depthLimit := by decide
  have hnumbers : ((new (Theme.new "id" "name")).run roundedCard).theme.toJson.legible = true := by
    decide
  obtain ⟨u, hu, -, hsame⟩ :=
    reload_equal_iff (loaded_new "id" "name") ingested_roundedCard hdepth hnumbers
  rw [hu, hsame (by decide)]

/-- The inner part of a data color reference, which is no color by itself, put in its place. -/
def completedReference : List Operation :=
  [.setProperty "card" "*" ["fill", "expr"]
    (.ofJson (.object [("ThemeDataColor", .object [("ColorId", .number (.integer 1 (by decide))),
      ("Percent", .number (.integer 0 (by decide)))])]))]

theorem ingested_completedReference : ∀ op ∈ completedReference, op.Ingested := by
  simp only [completedReference, List.forall_mem_cons]
  refine ⟨⟨_, ?_, rfl⟩, by simp⟩
  decide

theorem reload_completedReference :
    (Theme.new "id" "name").Loaded ∧ (∀ op ∈ completedReference, op.Ingested) ∧
    ∃ u, Theme.ofText ((new (Theme.new "id" "name")).run completedReference).theme.text = .ok u ∧
      u.equal ((new (Theme.new "id" "name")).run completedReference).theme = false := by
  have h := (readable_new (loaded_new "id" "name")).run ingested_completedReference
  have hkeyed := h.values.theme.mono fun _ hv => hv.keyed
  exact ⟨loaded_new "id" "name", ingested_completedReference,
    _, Theme.ofText_text hkeyed h.theme (by decide) (by decide), by decide⟩

end Editor

end ReportTheme
