import ReportTheme.Proofs.Style.Merge

/-!
What a variant inherits from the default of its visual type. Along a path both are followed as long
as both hold groups; where one of them does not, the variant decides all that lies below if it has
a value there, and the default does if not. A variant that is stored as the default gives itself.
-/
namespace ReportTheme

/-- Only a group that is laid over a group is merged. -/
theorem Value.over_eq_self {old : Option Value} {v : Value}
    (h : ¬∃ b o, old = some (.group b) ∧ v = .group o) : Value.over old v = v := by
  cases v with
  | group overlay =>
    rcases over_group_cases old overlay with ⟨base, hold⟩ | hself
    · exact absurd ⟨base, overlay, hold, rfl⟩ h
    · exact hself
  | _ => rfl

namespace Bag

/-- What a path reads in a bag that shows `overlay` and, where that has nothing, `base`. -/
inductive Inherits : Bag → Bag → List String → Option Value → Prop
  /-- The first key leads to groups in both. -/
  | within {base overlay b o : Bag} {key : String} {path : List String} {read : Option Value} :
      Entries.get? base key = some (.group b) → Entries.get? overlay key = some (.group o) →
      Inherits b o path read → Inherits base overlay (key :: path) read
  /-- The rest of the path is read in one of the two values. -/
  | settled {base overlay : Bag} {key : String} {path : List String} :
      (¬∃ b o, Entries.get? base key = some (.group b) ∧
        Entries.get? overlay key = some (.group o)) →
      Inherits base overlay (key :: path)
        (((Entries.get? overlay key).or (Entries.get? base key)).bind (·.get? path))
  /-- The path ends at two groups, whose keys are kept in order, those of `overlay` behind. -/
  | merged {base overlay bag : Bag} :
      Entries.keys bag =
        Entries.keys base ++ (Entries.keys overlay).filter (fun key => key ∉ Entries.keys base) →
      Entries.Distinct bag → Inherits base overlay [] (some (.group bag))

theorem get?_merge_of_groups {base overlay b o : Bag} (h : Entries.Distinct overlay) {key : String}
    (hb : Entries.get? base key = some (.group b))
    (ho : Entries.get? overlay key = some (.group o)) :
    Entries.get? (base.merge overlay) key = some (.group (b.merge o)) := by
  rw [merge, get?_mergeFrom h, hb, ho]
  rfl

theorem get?_merge_of_not_groups {base overlay : Bag} (h : Entries.Distinct overlay)
    {key : String} (hnot : ¬∃ b o, Entries.get? base key = some (.group b) ∧
      Entries.get? overlay key = some (.group o)) :
    Entries.get? (base.merge overlay) key =
      (Entries.get? overlay key).or (Entries.get? base key) := by
  rw [merge, get?_mergeFrom h]
  cases ho : Entries.get? overlay key with
  | none => rfl
  | some v =>
    have hself : Value.over (Entries.get? base key) v = v :=
      Value.over_eq_self fun ⟨b, o, hb, hv⟩ => hnot ⟨b, o, hb, by rw [ho, hv]⟩
    rw [Option.map_some, hself]

/-- A merge reads along every path as the two bags do that it was made of. -/
theorem inherits_merge (base overlay : KeyedBag) (path : List String) :
    Inherits base overlay path ((Value.group (merge base overlay)).get? path) := by
  induction path generalizing base overlay with
  | nil =>
    exact .merged (keys_mergeFrom overlay.2.distinct base)
      (distinct_mergeFrom base.2.distinct overlay)
  | cons key path ih =>
    rw [Value.get?_cons, Value.child?]
    -- Below two groups stands their merge; anything else is taken over whole.
    by_cases hgroups : ∃ b o, Entries.get? base.1 key = some (.group b) ∧
        Entries.get? overlay.1 key = some (.group o)
    · obtain ⟨b, o, hb, ho⟩ := hgroups
      rw [get?_merge_of_groups overlay.2.distinct hb ho, Option.bind_some]
      exact .within hb ho (ih ⟨b, (Value.keyed_group_iff b).mp (base.2.get? hb)⟩
        ⟨o, (Value.keyed_group_iff o).mp (overlay.2.get? ho)⟩)
    · rw [get?_merge_of_not_groups overlay.2.distinct hgroups]
      exact .settled hgroups

end Bag

namespace StyleTree

/-- Every path reads in what a variant shows either its own value or the one that it inherits, and
where both have groups all their keys; the default shows its own bag. -/
theorem effective_inherits (t : KeyedTree) (visual variant : String) :
    (∀ key path, Bag.Inherits ((t.defaultBag? visual).getD []) ((t.bag? visual variant).getD [])
      (key :: path) ((t.effective visual variant).getPath? (key :: path))) ∧
    Bag.Inherits ((t.defaultBag? visual).getD []) ((t.bag? visual variant).getD []) []
      (some (.group (t.effective visual variant))) ∧
    t.effective visual defaultVariant = (t.defaultBag? visual).getD [] := by
  have hall : ∀ path, Bag.Inherits ((t.defaultBag? visual).getD [])
      ((t.bag? visual variant).getD []) path
      ((Value.group (t.effective visual variant)).get? path) := by
    rw [effective_eq]
    exact Bag.inherits_merge (t.bagD visual defaultVariant) (t.bagD visual variant)
  exact ⟨fun key path => hall (key :: path), hall [], effective_default _ visual⟩

/-- A card with a compact variant, which changes its title, gives up its border and puts a group in
the place of a number. -/
def compactCard : StyleTree :=
  ⟨[("card", [("*", [("title", .group [("size", .number (.ofUInt64 12)), ("show", .bool true)]),
      ("border", .group [("color", .text "none")]), ("padding", .number (.ofUInt64 8))]),
    ("compact", [("padding", .group [("top", .number (.ofUInt64 2))]), ("border", .bool false),
      ("title", .group [("wrap", .bool true), ("show", .bool false)])])])]⟩

def cardBag : Bag := (compactCard.defaultBag? "card").getD []

def compactBag : Bag := (compactCard.bag? "card" "compact").getD []

theorem effective_inherits_compactCard :
    compactCard.Keyed ∧
    Bag.Inherits cardBag compactBag ["title"]
      (some (.group [("size", .number (.ofUInt64 12)), ("show", .bool false),
        ("wrap", .bool true)])) ∧
    Bag.Inherits cardBag compactBag ["title", "size"] (some (.number (.ofUInt64 12))) ∧
    Bag.Inherits cardBag compactBag ["padding", "top"] (some (.number (.ofUInt64 2))) ∧
    Bag.Inherits cardBag compactBag ["border", "color"] none := by
  have hkeyed : compactCard.Keyed := by decide
  have hpath := (effective_inherits ⟨compactCard, hkeyed⟩ "card" "compact").1
  exact ⟨hkeyed, hpath "title" [], hpath "title" ["size"], hpath "padding" ["top"],
    hpath "border" ["color"]⟩

/-- A bag stored as the default of a visual type leaves its other variants alone. -/
theorem effective_setBag_default (t : StyleTree) (visual : String) {variant : String}
    (h : variant ≠ defaultVariant) (bag : Bag) :
    (t.setBag visual defaultVariant bag).effective visual variant =
      (t.bag? visual variant).elim bag bag.merge := by
  have hdefault : (t.setBag visual defaultVariant bag).defaultBag? visual = some bag :=
    t.bag?_modify_self visual defaultVariant _
  have hvariant : (t.setBag visual defaultVariant bag).bag? visual variant =
      t.bag? visual variant := bag?_modify_of_ne _ fun heq => h heq.2.symm
  rw [effective_of_ne _ _ h, hdefault, hvariant, Option.getD_some]

/-- Laying an overlay over a bag once more, or a bag over itself, changes nothing. So a variant
shows the same after what it shows has been stored as the default. -/
theorem stored_variant_stable (base overlay : KeyedBag) (t : KeyedTree) (visual variant : String) :
    (Bag.merge base overlay).merge overlay = Bag.merge base overlay ∧
    Bag.merge base base = base ∧
    (t.setBag visual defaultVariant (t.effective visual variant)).effective visual variant =
      t.effective visual variant := by
  refine ⟨Bag.merge_merge base overlay, Bag.merge_self base, ?_⟩
  by_cases hvariant : variant = defaultVariant
  · subst hvariant
    rw [effective_default, defaultBag?, setBag, bag?_modify_self, Option.getD_some]
  · rw [effective_setBag_default _ visual hvariant, effective_of_ne _ visual hvariant]
    cases hbag : t.bag? visual variant with
    | none => rfl
    | some bag => exact Bag.merge_merge _ ⟨bag, t.keyed.holds.bag? hbag⟩

theorem stored_variant_stable_compactCard :
    cardBag.Keyed ∧ compactBag.Keyed ∧ compactCard.Keyed ∧
    (cardBag.merge compactBag).merge compactBag = cardBag.merge compactBag ∧
    (compactCard.setBag "card" defaultVariant (cardBag.merge compactBag)).effective "card"
      "compact" = cardBag.merge compactBag := by
  have hcard : cardBag.Keyed := by decide
  have hcompact : compactBag.Keyed := by decide
  have hkeyed : compactCard.Keyed := by decide
  obtain ⟨hmerge, -, hstored⟩ := stored_variant_stable ⟨cardBag, hcard⟩ ⟨compactBag, hcompact⟩
    ⟨compactCard, hkeyed⟩ "card" "compact"
  exact ⟨hcard, hcompact, hkeyed, hmerge, hstored⟩

end StyleTree

end ReportTheme
