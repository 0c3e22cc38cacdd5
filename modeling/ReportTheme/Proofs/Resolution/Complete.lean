import ReportTheme.Proofs.Resolution

/-!
Compiling with complete palettes: the neutral scale has every shade and the data colors reach as far
as the accents. No registered token falls back then, in either mode and wherever it stands; what the
diagnostics report are the unregistered ones, each of which becomes the one color for those.
-/
namespace ReportTheme

namespace Token

/-- The registered names, in catalog order. -/
def names : List String := all.map name

/-- The number of data colors that tokens may refer to. -/
def accentCount : Nat := 3

theorem ofName?_eq_none_iff (reference : String) :
    ofName? reference = none ↔ reference ∉ names := by
  simp only [ofName?, List.find?_eq_none, names, List.mem_map, beq_iff_eq, not_exists, not_and]

end Token

/-- The palettes have every slot that tokens may refer to. -/
structure Swatches.Complete (swatches : Swatches) : Prop where
  neutral : Palette.shadeCount ≤ swatches.neutral.length
  data : Token.accentCount ≤ swatches.data.length

namespace Slot

/-- A shade that is counted or an accent. -/
def InRange : Slot → Prop
  | .shade i => i < Palette.shadeCount
  | .data i => i < Token.accentCount

theorem inRange_slot (t : Token) (mode : Mode) : (t.slot mode).InRange := by
  cases t <;> cases mode <;> simp [Token.slot, Token.slots, InRange, Palette.shadeCount,
    Token.accentCount]

theorem InRange.color? {s : Slot} (h : s.InRange) {swatches : Swatches} (hc : swatches.Complete) :
    ∃ color, s.color? swatches = some color ∧
      (color ∈ swatches.neutral ∨ color ∈ swatches.data) := by
  cases s with
  | shade i =>
    have hi : i < swatches.neutral.length := Nat.lt_of_lt_of_le h hc.neutral
    exact ⟨swatches.neutral[i], List.getElem?_eq_getElem hi, .inl (List.getElem_mem hi)⟩
  | data i =>
    have hi : i < swatches.data.length := Nat.lt_of_lt_of_le h hc.data
    exact ⟨swatches.data[i], List.getElem?_eq_getElem hi, .inr (List.getElem_mem hi)⟩

end Slot

namespace Source

/-- A registered token has one of the colors of the palettes. -/
theorem exists_resolve {s : Source} (h : s.swatches.Complete) {reference : String}
    (hr : reference ∈ Token.names) :
    ∃ color, Token.resolve? reference s.mode s.swatches = some color ∧
      (color ∈ s.neutralColors ∨ color ∈ s.dataColors) := by
  obtain ⟨t, -, rfl⟩ := List.mem_map.mp hr
  simp only [Token.resolve?, Token.ofName?_name, Option.bind_eq_bind, Option.bind_some]
  exact (Slot.inRange_slot t s.mode).color? h

theorem resolve_of_registered {s : Source} (h : s.swatches.Complete) {reference : String}
    (hr : reference ∈ Token.names) :
    s.resolve reference ∈ s.neutralColors ∨ s.resolve reference ∈ s.dataColors := by
  obtain ⟨color, hcolor, hmem⟩ := exists_resolve h hr
  have hresolve : s.resolve reference = color := by
    rw [resolve, Token.resolve, hcolor]
    rfl
  rwa [hresolve]

theorem resolve?_of_unregistered (s : Source) {reference : String} (hr : reference ∉ Token.names) :
    Token.resolve? reference s.mode s.swatches = none := by
  rw [Token.resolve?, (Token.ofName?_eq_none_iff reference).mpr hr]
  rfl

theorem resolve_of_unregistered (s : Source) {reference : String} (hr : reference ∉ Token.names) :
    s.resolve reference = Token.unknownFallback := by
  rw [resolve, Token.resolve, s.resolve?_of_unregistered hr,
    (Token.ofName?_eq_none_iff reference).mpr hr]
  rfl

/-- Just the unregistered tokens are reported. -/
theorem fallback?_eq {s : Source} (h : s.swatches.Complete) (path : List String)
    (reference : String) : s.fallback? path reference =
      if reference ∉ Token.names then some ⟨dotted path, reference, Token.unknownFallback⟩
      else none := by
  by_cases hr : reference ∈ Token.names
  · obtain ⟨color, hcolor, -⟩ := exists_resolve h hr
    rw [fallback?, hcolor, if_neg (not_not_intro hr)]
  · rw [fallback?, s.resolve?_of_unregistered hr, if_pos hr, s.resolve_of_unregistered hr]

end Source

/-- One value is another in which every registered token became a color of the palettes, every
unregistered one the fallback for those, and nothing else changed. -/
inductive Value.Painted (swatches : Swatches) : Value → Value → Prop
  | registered {reference color : String} : reference ∈ Token.names →
      color ∈ swatches.neutral ∨ color ∈ swatches.data →
      Painted swatches (.color (.token reference)) (.color (.hex color))
  | unregistered {reference : String} : reference ∉ Token.names →
      Painted swatches (.color (.token reference)) (.color (.hex Token.unknownFallback))
  | concrete {v : Value} : v.isConcrete = true → Painted swatches v v
  | list {vs ws : List Value} :
      List.Forall₂ (Painted swatches) vs ws → Painted swatches (.list vs) (.list ws)
  | group {a b : List (String × Value)} :
      Entries.Aligned (Painted swatches) a b → Painted swatches (.group a) (.group b)

/-- A painted text class, and the font at its end unless there is none or the class has one of its
own. -/
def Bag.PaintedWithFont (swatches : Swatches) (font : String) (b c : Bag) : Prop :=
  ∃ painted, Entries.Aligned (Value.Painted swatches) b painted ∧
    c = if font = "" ∨ "fontFace" ∈ Entries.keys b then painted
      else painted ++ [("fontFace", .text font)]

/-- A document in which every leaf of a source is painted, and that reports the tokens with no
registered name and no others. Visual types without variants and structural colors under reserved
keys are no part of it. -/
structure Source.Painted (s : Source) (d : Document) : Prop where
  styles : Entries.Aligned (Entries.Aligned (Entries.Aligned (Value.Painted s.swatches)))
    s.styles.populated.visuals d.styles.visuals
  structuralColors : Entries.Aligned (Value.Painted s.swatches)
    (s.structuralColors.filter fun e => e.1 ∉ reservedKeys) d.structuralColors
  textClasses : Entries.Aligned (Bag.PaintedWithFont s.swatches s.fontFamily)
    s.textClasses d.textClasses
  diagnostics : d.diagnostics =
    ((placedTokens s.styles (s.structuralColors.filter fun e => e.1 ∉ reservedKeys)
      s.textClasses).filter fun t => t.2 ∉ Token.names).map
        fun t => ⟨dotted t.1, t.2, Token.unknownFallback⟩

namespace Source

mutual

theorem painted_value {s : Source} (h : s.swatches.Complete) :
    (v : Value) → Value.Painted s.swatches v (s.value v)
  | .color (.token reference) => by
    by_cases hr : reference ∈ Token.names
    · exact .registered hr (resolve_of_registered h hr)
    · rw [value, s.resolve_of_unregistered hr]
      exact .unregistered hr
  | .color (.hex _) | .color (.themeData _ _) | .number _ | .bool _ | .text _ | .null =>
    .concrete rfl
  | .list vs => .list (painted_valueItems h vs)
  | .group es => .group (painted_valueEntries h es)

theorem painted_valueItems {s : Source} (h : s.swatches.Complete) :
    (vs : List Value) → List.Forall₂ (Value.Painted s.swatches) vs (s.valueItems vs)
  | [] => .nil
  | v :: vs => .cons (painted_value h v) (painted_valueItems h vs)

theorem painted_valueEntries {s : Source} (h : s.swatches.Complete) :
    (es : List (String × Value)) →
      Entries.Aligned (Value.Painted s.swatches) es (s.valueEntries es)
  | [] => .nil
  | (_, v) :: es => .cons (painted_value h v) (painted_valueEntries h es)

end

theorem painted_textClass {s : Source} (h : s.swatches.Complete) (b : Bag) :
    Bag.PaintedWithFont s.swatches s.fontFamily b (s.textClass b) :=
  ⟨s.bag b, painted_valueEntries h b, s.textClass_eq b⟩

theorem diagnostics_of_complete {s : Source} (h : s.swatches.Complete) : s.diagnostics =
    ((placedTokens s.styles s.freeColors s.textClasses).filter fun t => t.2 ∉ Token.names).map
      fun t => ⟨dotted t.1, t.2, Token.unknownFallback⟩ := by
  rw [diagnostics_eq, ← List.filterMap_eq_map, List.filterMap_filter]
  refine List.filterMap_congr fun t _ => ?_
  rw [fallback?_eq h]
  simp

/-- With complete palettes no registered token falls back: compiled, each is one of their colors,
and the unregistered ones are reported, one after the other. -/
theorem compile_painted {s : Source} (h : s.swatches.Complete) (hd : s.styles.Distinct) :
    s.Painted s.compile where
  styles := by
    rw [styles_compile, StyleTree.ofBags_bags hd]
    exact Entries.aligned_mapValues
      (Entries.aligned_mapValues fun b => painted_valueEntries h b) _
  structuralColors := by
    rw [← freeColors_eq]
    exact Entries.aligned_mapValues (painted_value h) s.freeColors
  textClasses := Entries.aligned_mapValues (painted_textClass h) s.textClasses
  diagnostics := by
    rw [← freeColors_eq]
    exact diagnostics_of_complete h

/-- The last shade and the last accent that tokens may refer to, two references that are not
registered, one of them under a taken key, and a visual type without variants. -/
def lettered : Source where
  name := "Lettered"
  mode := .dark
  dataColors := ["a", "b", "c"]
  neutralColors := ["0", "1", "2", "3", "4", "5", "6", "7", "8", "9", "10", "11"]
  fontFamily := "Inter"
  styles := ⟨[("empty", []), ("card", [("*", [("background", .color (.ofToken .background)),
    ("border", .list [.group [("color", .solid (.token "@edge"))], .null])])])]⟩
  structuralColors := [("name", .color (.token "@name")),
    ("good", .color (.ofToken .accentTertiary))]
  textClasses := [("title", [("fontFace", .text "Arial")])]

theorem compile_painted_lettered : lettered.swatches.Complete ∧ lettered.styles.Distinct ∧
    lettered.Painted lettered.compile ∧ lettered.compile.diagnostics =
      [⟨"visualStyles.card.*.border.0.color.solid.color", "@edge", "#808080"⟩] := by
  have h : lettered.swatches.Complete := ⟨by decide, by decide⟩
  have hd : lettered.styles.Distinct := by decide
  have hpainted := compile_painted h hd
  exact ⟨h, hd, hpainted, hpainted.diagnostics.trans rfl⟩

end Source

end ReportTheme
