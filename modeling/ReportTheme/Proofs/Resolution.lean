import Mathlib.Data.List.Forall2
import ReportTheme.Proofs.Document
import ReportTheme.Proofs.Style.Bags

/-!
What compiling does to a source, leaf by leaf. `Source.ResolvesTo` says it without the compiler: the
shape stays, tokens become the colors of the palettes and nothing else changes, and every token that
fell back is reported once. The document compiled from a source is the one that it resolves to.
-/
namespace ReportTheme

/-- Whether a value is a leaf and no token. -/
def Value.isConcrete : Value → Bool
  | .color (.token _) | .list _ | .group _ => false
  | _ => true

/-- One value is another with its tokens resolved: lists keep their length and groups their keys. -/
inductive Value.Resolves (color : String → String) : Value → Value → Prop
  | token (reference : String) :
      Resolves color (.color (.token reference)) (.color (.hex (color reference)))
  | concrete {v : Value} : v.isConcrete = true → Resolves color v v
  | list {vs ws : List Value} :
      List.Forall₂ (Resolves color) vs ws → Resolves color (.list vs) (.list ws)
  | group {a b : List (String × Value)} :
      Entries.Aligned (Resolves color) a b → Resolves color (.group a) (.group b)

/-- A text class with its tokens resolved, and the font at its end unless there is none or the class
has one of its own. -/
def Bag.ResolvesWithFont (color : String → String) (font : String) (b c : Bag) : Prop :=
  ∃ resolved, Entries.Aligned (Value.Resolves color) b resolved ∧
    c = if font = "" ∨ "fontFace" ∈ Entries.keys b then resolved
      else resolved ++ [("fontFace", .text font)]

namespace Value

mutual

/-- The tokens of a value with the paths that lead to them, in the order of writing. -/
def tokens (path : List String) : Value → List (List String × String)
  | .color (.token reference) => [(path, reference)]
  | .list items => tokensItems path 0 items
  | .group entries => tokensEntries path entries
  | _ => []

def tokensItems (path : List String) (index : Nat) : List Value → List (List String × String)
  | [] => []
  | v :: vs => tokens (path ++ [Nat.repr index]) v ++ tokensItems path (index + 1) vs

def tokensEntries (path : List String) : List (String × Value) → List (List String × String)
  | [] => []
  | (k, v) :: es => tokens (path ++ [k]) v ++ tokensEntries path es

end

end Value

/-- The tokens of styles, of document colors and of text classes, one after the other. -/
def placedTokens (styles : StyleTree) (colors : Entries Value) (classes : Entries Bag) :
    List (List String × String) :=
  (styles.bags.flatMap fun b => Value.tokensEntries ["visualStyles", b.1, b.2.1] b.2.2) ++
    Value.tokensEntries [] colors ++
    (classes.flatMap fun e => Value.tokensEntries ["textClasses", e.1] e.2)

/-- The diagnostic of a token, if the palettes have no color for it. -/
def Source.fallback? (s : Source) (path : List String) (reference : String) : Option Diagnostic :=
  match Token.resolve? reference s.mode s.swatches with
  | some _ => none
  | none => some ⟨dotted path, reference, s.resolve reference⟩

/-- A document is what becomes of a source when its tokens are resolved and nothing else changes. -/
structure Source.ResolvesTo (s : Source) (d : Document) : Prop where
  name : d.name = s.name
  dataColors : d.dataColors = s.dataColors
  styles : Entries.Aligned (Entries.Aligned (Entries.Aligned (Value.Resolves s.resolve)))
    s.styles.visuals d.styles.visuals
  structuralColors : Entries.Aligned (Value.Resolves s.resolve)
    (s.structuralColors.filter fun e => e.1 ∉ reservedKeys) d.structuralColors
  textClasses : Entries.Aligned (Bag.ResolvesWithFont s.resolve s.fontFamily)
    s.textClasses d.textClasses
  concrete : placedTokens d.styles d.structuralColors d.textClasses = []
  diagnostics : d.diagnostics =
    (placedTokens s.styles (s.structuralColors.filter fun e => e.1 ∉ reservedKeys)
      s.textClasses).filterMap fun t => s.fallback? t.1 t.2

namespace Source

mutual

theorem resolves_value (s : Source) : (v : Value) → Value.Resolves s.resolve v (s.value v)
  | .color (.token reference) => .token reference
  | .color (.hex _) | .color (.themeData _ _) | .number _ | .bool _ | .text _ | .null =>
    .concrete rfl
  | .list vs => .list (resolves_valueItems s vs)
  | .group es => .group (resolves_valueEntries s es)

theorem resolves_valueItems (s : Source) :
    (vs : List Value) → List.Forall₂ (Value.Resolves s.resolve) vs (s.valueItems vs)
  | [] => .nil
  | v :: vs => .cons (resolves_value s v) (resolves_valueItems s vs)

theorem resolves_valueEntries (s : Source) : (es : List (String × Value)) →
    Entries.Aligned (Value.Resolves s.resolve) es (s.valueEntries es)
  | [] => .nil
  | (_, v) :: es => .cons (resolves_value s v) (resolves_valueEntries s es)

end

theorem value_of_isConcrete (s : Source) {v : Value} (h : v.isConcrete = true) : s.value v = v := by
  cases v with
  | color c => cases c <;> first | rfl | cases h
  | list vs => cases h
  | group es => cases h
  | _ => rfl

mutual

theorem eq_value_of_resolves (s : Source) : (v : Value) → {w : Value} →
    Value.Resolves s.resolve v w → w = s.value v
  | .list vs, _, h => by
    cases h with
    | concrete hc => cases hc
    | list hvs => exact congrArg Value.list (eq_valueItems_of_resolves s vs hvs)
  | .group es, _, h => by
    cases h with
    | concrete hc => cases hc
    | group hes => exact congrArg Value.group (eq_valueEntries_of_resolves s es hes)
  | .color _, _, h => by
    cases h with
    | token reference => rfl
    | concrete hc => exact (s.value_of_isConcrete hc).symm
  | .number _, _, h | .bool _, _, h | .text _, _, h | .null, _, h => by
    cases h with
    | concrete hc => rfl

theorem eq_valueItems_of_resolves (s : Source) : (vs : List Value) → {ws : List Value} →
    List.Forall₂ (Value.Resolves s.resolve) vs ws → ws = s.valueItems vs
  | [], _, .nil => rfl
  | v :: vs, _, .cons h hs => by
    rw [valueItems, ← eq_value_of_resolves s v h, ← eq_valueItems_of_resolves s vs hs]

theorem eq_valueEntries_of_resolves (s : Source) :
    (a : List (String × Value)) → {b : List (String × Value)} →
      Entries.Aligned (Value.Resolves s.resolve) a b → b = s.valueEntries a
  | [], _, .nil => rfl
  | (_, v) :: a, _, .cons h hs => by
    rw [valueEntries, ← eq_value_of_resolves s v h, ← eq_valueEntries_of_resolves s a hs]

end

theorem resolves_iff (s : Source) (v w : Value) :
    Value.Resolves s.resolve v w ↔ w = s.value v := by
  constructor
  · exact s.eq_value_of_resolves v
  · rintro rfl
    exact s.resolves_value v

/-- Bags, variants and visual types with their tokens resolved. -/
theorem aligned_bag_iff (s : Source) (b c : Bag) :
    Entries.Aligned (Value.Resolves s.resolve) b c ↔ c = s.bag b := by
  rw [Entries.aligned_iff s.resolves_iff, bag, valueEntries_eq]

theorem aligned_styles_iff (s : Source) (t u : StyleTree) :
    Entries.Aligned (Entries.Aligned (Entries.Aligned (Value.Resolves s.resolve)))
      t.visuals u.visuals ↔ u = t.mapBags s.bag := by
  have hvariants : ∀ a b : Entries Bag,
      Entries.Aligned (Entries.Aligned (Value.Resolves s.resolve)) a b ↔
        b = Entries.mapValues s.bag a := fun _ _ => Entries.aligned_iff s.aligned_bag_iff
  rw [Entries.aligned_iff hvariants]
  exact ⟨congrArg StyleTree.mk, fun h => (StyleTree.mk.injEq _ _).mp h⟩

/-- The font comes last in a text class that lacks one. -/
theorem textClass_eq (s : Source) (b : Bag) :
    s.textClass b = if s.fontFamily = "" ∨ "fontFace" ∈ Entries.keys b then s.bag b
      else s.bag b ++ [("fontFace", .text s.fontFamily)] := by
  have hcond : (s.fontFamily.isEmpty || Entries.contains (s.bag b) "fontFace") = true ↔
      s.fontFamily = "" ∨ "fontFace" ∈ Entries.keys b := by
    rw [Bool.or_eq_true, contains_bag, Entries.mem_keys_iff, String.isEmpty_iff]
  by_cases h : s.fontFamily = "" ∨ "fontFace" ∈ Entries.keys b
  · rw [textClass, if_pos (hcond.mpr h), if_pos h]
  · have hnone : "fontFace" ∉ Entries.keys (s.bag b) := by
      rw [Entries.mem_keys_iff, contains_bag, ← Entries.mem_keys_iff]
      exact fun hm => h (Or.inr hm)
    rw [textClass, if_neg fun hc => h (hcond.mp hc), if_neg h,
      Entries.insert_of_get?_none (Entries.get?_eq_none_iff.mpr hnone)]

theorem resolvesWithFont_iff (s : Source) (b c : Bag) :
    Bag.ResolvesWithFont s.resolve s.fontFamily b c ↔ c = s.textClass b := by
  simp only [Bag.ResolvesWithFont, aligned_bag_iff, exists_eq_left, textClass_eq]

theorem fallbackAt_eq (s : Source) (path : List String) (reference : String) :
    s.fallbackAt path reference = (s.fallback? path reference).toList := by
  rw [fallbackAt, fallback?]
  cases Token.resolve? reference s.mode s.swatches <;> rfl

mutual

/-- The diagnostics of a value are those of its tokens, one after the other. -/
theorem fallbacks_eq (s : Source) : (path : List String) → (v : Value) →
    s.fallbacks path v = (v.tokens path).filterMap fun t => s.fallback? t.1 t.2
  | path, .color (.token reference) => by
    rw [fallbacks, fallbackAt_eq, Value.tokens, List.filterMap_cons]
    cases s.fallback? path reference <;> rfl
  | _, .color (.hex _) | _, .color (.themeData _ _) | _, .number _ | _, .bool _ | _, .text _
  | _, .null => rfl
  | path, .list vs => by rw [fallbacks, fallbacksItems_eq s path 0 vs, Value.tokens]
  | path, .group es => by rw [fallbacks, fallbacksEntries_eq s path es, Value.tokens]

theorem fallbacksItems_eq (s : Source) : (path : List String) → (index : Nat) →
    (vs : List Value) → s.fallbacksItems path index vs =
      (Value.tokensItems path index vs).filterMap fun t => s.fallback? t.1 t.2
  | _, _, [] => rfl
  | path, index, v :: vs => by
    rw [fallbacksItems, fallbacks_eq s _ v, fallbacksItems_eq s path (index + 1) vs,
      Value.tokensItems, List.filterMap_append]

theorem fallbacksEntries_eq (s : Source) : (path : List String) →
    (es : List (String × Value)) → s.fallbacksEntries path es =
      (Value.tokensEntries path es).filterMap fun t => s.fallback? t.1 t.2
  | _, [] => rfl
  | path, (k, v) :: es => by
    rw [fallbacksEntries, fallbacks_eq s _ v, fallbacksEntries_eq s path es,
      Value.tokensEntries, List.filterMap_append]

end

mutual

/-- No token is left in a compiled value. -/
theorem tokens_value (s : Source) : (path : List String) → (v : Value) →
    (s.value v).tokens path = []
  | _, .color (.token _) | _, .color (.hex _) | _, .color (.themeData _ _) | _, .number _
  | _, .bool _ | _, .text _ | _, .null => rfl
  | path, .list vs => by rw [value, Value.tokens, tokensItems_value s path 0 vs]
  | path, .group es => by rw [value, Value.tokens, tokensEntries_value s path es]

theorem tokensItems_value (s : Source) : (path : List String) → (index : Nat) →
    (vs : List Value) → Value.tokensItems path index (s.valueItems vs) = []
  | _, _, [] => rfl
  | path, index, v :: vs => by
    rw [valueItems, Value.tokensItems, tokens_value s _ v, tokensItems_value s path (index + 1) vs]
    rfl

theorem tokensEntries_value (s : Source) : (path : List String) →
    (es : List (String × Value)) → Value.tokensEntries path (s.valueEntries es) = []
  | _, [] => rfl
  | path, (k, v) :: es => by
    rw [valueEntries, Value.tokensEntries, tokens_value s _ v, tokensEntries_value s path es]
    rfl

end

theorem tokensEntries_append (path : List String) (a b : Bag) :
    Value.tokensEntries path (a ++ b) =
      Value.tokensEntries path a ++ Value.tokensEntries path b := by
  induction a with
  | nil => rfl
  | cons e a ih => rw [List.cons_append, Value.tokensEntries, ih, Value.tokensEntries,
      List.append_assoc]

theorem tokensEntries_textClass (s : Source) (path : List String) (b : Bag) :
    Value.tokensEntries path (s.textClass b) = [] := by
  rw [textClass_eq]
  split
  · exact s.tokensEntries_value path b
  · rw [tokensEntries_append, bag, tokensEntries_value]
    rfl

theorem freeColors_eq (s : Source) :
    s.freeColors = s.structuralColors.filter fun e => e.1 ∉ reservedKeys := by
  rw [freeColors]
  refine List.filter_congr fun e _ => ?_
  by_cases h : e.1 ∈ reservedKeys <;> simp [h]

theorem diagnostics_eq (s : Source) :
    s.diagnostics = (placedTokens s.styles s.freeColors s.textClasses).filterMap
      fun t => s.fallback? t.1 t.2 := by
  have hcolors : (s.freeColors.flatMap fun e => s.fallbacks [e.1] e.2) =
      s.fallbacksEntries [] s.freeColors := by
    induction s.freeColors with
    | nil => rfl
    | cons e es ih => rw [List.flatMap_cons, ih, fallbacksEntries, List.nil_append]
  rw [diagnostics, hcolors, placedTokens, List.filterMap_append, List.filterMap_append,
    fallbacksEntries_eq, List.filterMap_flatMap, List.filterMap_flatMap]
  simp only [fallbacksEntries_eq]

/-- No token is left in bags, document colors and text classes that were compiled. -/
theorem placedTokens_compiled (s : Source) (styles : StyleTree) (colors : Entries Value)
    (classes : Entries Bag) :
    placedTokens (styles.mapBags s.bag) (Entries.mapValues s.value colors)
      (Entries.mapValues s.textClass classes) = [] := by
  have hcolors : Value.tokensEntries [] (Entries.mapValues s.value colors) = [] := by
    rw [← valueEntries_eq, tokensEntries_value]
  rw [placedTokens, hcolors, List.append_nil, List.append_eq_nil_iff]
  constructor
  · rw [StyleTree.bags_mapBags, List.flatMap_map]
    exact List.flatMap_eq_nil_iff.mpr fun b _ => s.tokensEntries_value _ b.2.2
  · rw [Entries.mapValues, List.flatMap_map]
    exact List.flatMap_eq_nil_iff.mpr fun e _ => s.tokensEntries_textClass _ e.2

/-- Of all documents, the compiled one is what becomes of a source when its tokens are resolved. -/
theorem resolvesTo_iff {s : Source} (hd : s.styles.Distinct) (hp : s.styles.Populated)
    (d : Document) : s.ResolvesTo d ↔ d = s.compile := by
  have hstyles : s.compile.styles = s.styles.mapBags s.bag := by
    rw [styles_compile, StyleTree.ofBags_bags hd, hp.populated_eq]
  have hcolors : s.compile.structuralColors = Entries.mapValues s.value s.freeColors := rfl
  have hclasses : s.compile.textClasses = Entries.mapValues s.textClass s.textClasses := rfl
  constructor
  · intro h
    have hs : d.styles = s.compile.styles :=
      hstyles.symm ▸ (s.aligned_styles_iff _ _).mp h.styles
    have hc : d.structuralColors = s.compile.structuralColors := by
      rw [hcolors, freeColors_eq]
      exact (Entries.aligned_iff s.resolves_iff).mp h.structuralColors
    have ht : d.textClasses = s.compile.textClasses :=
      (Entries.aligned_iff s.resolvesWithFont_iff).mp h.textClasses
    have hdiagnostics : d.diagnostics = s.compile.diagnostics := by
      rw [h.diagnostics, ← freeColors_eq]
      exact s.diagnostics_eq.symm
    exact (Document.mk.injEq ..).mpr ⟨h.name, h.dataColors, hc, hs, ht, hdiagnostics⟩
  · rintro rfl
    exact
      { name := rfl
        dataColors := rfl
        styles := (s.aligned_styles_iff _ _).mpr hstyles
        structuralColors := by
          rw [← freeColors_eq]
          exact (Entries.aligned_iff s.resolves_iff).mpr hcolors
        textClasses := (Entries.aligned_iff s.resolvesWithFont_iff).mpr hclasses
        concrete := by
          rw [hstyles, hcolors, hclasses]
          exact s.placedTokens_compiled _ _ _
        diagnostics := by
          rw [← freeColors_eq]
          exact s.diagnostics_eq }

/-- A token the palette has, one it has not and one of no name, in a list inside a group, beside a
document color under a taken key and a text class without a font. -/
def outlined : Source where
  name := "Outlined"
  mode := .dark
  dataColors := ["#118DFF"]
  neutralColors := []
  fontFamily := "Inter"
  styles := ⟨[("card", [("*", [("border", .list [.group [("color", .solid (.ofToken .accent)),
    ("shadow", .solid (.ofToken .hover))], .bool true])])])]⟩
  structuralColors := [("name", .color (.ofToken .surface)), ("good", .color (.token "@good"))]
  textClasses := [("title", [("color", .color (.hex "#ABCDEF"))])]

def outlinedDocument : Document where
  name := "Outlined"
  dataColors := ["#118DFF"]
  structuralColors := [("good", .color (.hex "#808080"))]
  styles := ⟨[("card", [("*", [("border", .list [.group [("color", .solid (.hex "#118DFF")),
    ("shadow", .solid (.hex "#323130"))], .bool true])])])]⟩
  textClasses := [("title", [("color", .color (.hex "#ABCDEF")), ("fontFace", .text "Inter")])]
  diagnostics := [⟨"visualStyles.card.*.border.0.shadow.solid.color", "@hover", "#323130"⟩,
    ⟨"good", "@good", "#808080"⟩]

theorem outlined_resolvesTo :
    outlined.styles.Distinct ∧ outlined.styles.Populated ∧ outlined.ResolvesTo outlinedDocument :=
  have hd : outlined.styles.Distinct := by decide
  have hp : outlined.styles.Populated := by decide
  ⟨hd, hp, (resolvesTo_iff hd hp outlinedDocument).mpr rfl⟩

end Source

end ReportTheme
