import ReportTheme.Proofs.Document

/-!
Compiling in one pass. A walker goes through a source once, with the names that it is inside of on
a stack and the diagnostics so far in a list; it puts its results together entry by entry. As no key
stands twice it makes the document of `Source.compile`, in which the compiled values and the
diagnostics are two recursions and every diagnostic is handed its path.
-/
namespace ReportTheme

structure Walker where
  path : List String
  diagnostics : List Diagnostic
  deriving Repr

abbrev Walk := StateM Walker

namespace Walk

/-- Goes under a name and comes back. -/
def within {α : Type} (name : String) (act : Walk α) : Walk α := do
  modify fun w => { w with path := w.path ++ [name] }
  let a ← act
  modify fun w => { w with path := w.path.dropLast }
  return a

/-- Reports a token in the place where the walker is. -/
def report (token fallback : String) : Walk Unit :=
  modify fun w => { w with diagnostics := w.diagnostics ++ [⟨dotted w.path, token, fallback⟩] }

/-- The walk gives a result, adds the diagnostics of its place and ends where it began. -/
def Yields {α : Type} (act : Walk α) (a : α) (found : List String → List Diagnostic) : Prop :=
  ∀ w : Walker, act.run w = (a, { w with diagnostics := w.diagnostics ++ found w.path })

variable {α β : Type} {act : Walk α} {a : α} {found : List String → List Diagnostic}

theorem yields_pure (a : α) : Yields (pure a) a fun _ => [] := by
  intro w
  rw [StateT.run_pure, List.append_nil]
  rfl

theorem yields_report (token fallback : String) :
    Yields (report token fallback) () fun path => [⟨dotted path, token, fallback⟩] := fun _ => rfl

theorem Yields.bind (h : Yields act a found) {k : α → Walk β} {b : β}
    {more : List String → List Diagnostic} (hk : Yields (k a) b more) :
    Yields (act >>= k) b fun path => found path ++ more path := by
  intro w
  have hrest := hk { w with diagnostics := w.diagnostics ++ found w.path }
  rw [List.append_assoc] at hrest
  rw [StateT.run_bind, h w]
  exact hrest

theorem Yields.map (h : Yields act a found) (f : α → β) :
    Yields (do return f (← act)) (f a) found := by
  have hmap := h.bind (k := fun a => pure (f a)) (yields_pure (f a))
  simpa only [List.append_nil] using hmap

theorem Yields.within (h : Yields act a found) (name : String) :
    Yields (within name act) a fun path => found (path ++ [name]) := by
  intro w
  have hact := h { w with path := w.path ++ [name] }
  change (fun p : α × Walker => (p.1, { p.2 with path := p.2.path.dropLast }))
    (act.run { w with path := w.path ++ [name] }) = _
  rw [hact]
  dsimp only
  rw [List.dropLast_concat]

theorem Yields.foldlM {act : β → α → Walk β} {f : β → α → β}
    {found : α → List String → List Diagnostic}
    {items : List α} (h : ∀ a ∈ items, ∀ b, Yields (act b a) (f b a) (found a)) (b : β) :
    Yields (items.foldlM act b) (items.foldl f b) fun path => items.flatMap (found · path) := by
  induction items generalizing b with
  | nil => exact yields_pure b
  | cons a items ih =>
    rw [List.foldlM_cons, List.foldl_cons]
    exact (h a (List.mem_cons_self ..) b).bind
      (ih (fun a ha => h a (List.mem_cons_of_mem _ ha)) (f b a))

end Walk

namespace Source

mutual

def walkValue (s : Source) : Value → Walk Value
  | .color (.token reference) => do
    let color := s.resolve reference
    if (Token.resolve? reference s.mode s.swatches).isNone then Walk.report reference color
    return .color (.hex color)
  | .list items => return .list (← walkItems s 0 items)
  | .group entries => return .group (← walkEntries s [] entries)
  | v => return v

def walkItems (s : Source) (index : Nat) : List Value → Walk (List Value)
  | [] => return []
  | v :: vs => do
    let compiled ← Walk.within (Nat.repr index) (walkValue s v)
    return compiled :: (← walkItems s (index + 1) vs)

/-- Adds the compiled entries to a bag. -/
def walkEntries (s : Source) (out : Bag) : List (String × Value) → Walk Bag
  | [] => return out
  | (k, v) :: es => do
    let compiled ← Walk.within k (walkValue s v)
    walkEntries s (Entries.insert out k compiled) es

end

def walkBag (s : Source) (b : Bag) : Walk Bag := s.walkEntries [] b

def walkStyles (s : Source) : Walk StyleTree :=
  Walk.within "visualStyles" <| s.styles.visuals.foldlM
    (fun tree visual => Walk.within visual.1 <| visual.2.foldlM
      (fun tree variant => do
        return tree.setBag visual.1 variant.1 (← Walk.within variant.1 (s.walkBag variant.2))) tree)
    .empty

def walkColors (s : Source) : Walk (Entries Value) :=
  s.structuralColors.foldlM
    (fun out e =>
      if reservedKeys.contains e.1 then return out
      else return Entries.insert out e.1 (← Walk.within e.1 (s.walkValue e.2))) []

def walkClasses (s : Source) : Walk (Entries Bag) :=
  Walk.within "textClasses" <| s.textClasses.foldlM
    (fun out e => do
      let compiled ← Walk.within e.1 (s.walkBag e.2)
      let compiled := if s.fontFamily.isEmpty || Entries.contains compiled "fontFace" then compiled
        else Entries.insert compiled "fontFace" (.text s.fontFamily)
      return Entries.insert out e.1 compiled) []

def walkAll (s : Source) : Walk (StyleTree × Entries Value × Entries Bag) := do
  let styles ← s.walkStyles
  let colors ← s.walkColors
  return (styles, colors, ← s.walkClasses)

/-- The document made in one pass. -/
def walked (s : Source) : Document :=
  let ((styles, structuralColors, textClasses), walker) := s.walkAll.run ⟨[], []⟩
  ⟨s.name, s.dataColors, structuralColors, styles, textClasses, walker.diagnostics⟩

theorem yields_token (s : Source) (reference : String) :
    (s.walkValue (.color (.token reference))).Yields (.color (.hex (s.resolve reference)))
      (s.fallbackAt · reference) := by
  rw [walkValue]
  cases h : Token.resolve? reference s.mode s.swatches with
  | some color =>
    have hnone : (s.fallbackAt · reference) = fun _ => [] := by simp only [fallbackAt, h]; rfl
    rw [hnone]
    exact Walk.yields_pure _
  | none =>
    have hone : (s.fallbackAt · reference) =
        fun path => [⟨dotted path, reference, s.resolve reference⟩] := by
      simp only [fallbackAt, h]
      rfl
    have hreport := (Walk.yields_report reference (s.resolve reference)).map fun _ =>
      Value.color (.hex (s.resolve reference))
    rw [hone]
    exact hreport

theorem ofList_valueEntries (s : Source) {es : Bag} (h : Entries.Distinct es) :
    Entries.ofList (s.valueEntries es) = s.valueEntries es := by
  refine Entries.ofList_eq_self ?_
  rw [valueEntries_eq, Entries.Distinct, Entries.keys_mapValues]
  exact h

mutual

theorem yields_walkValue (s : Source) : (v : Value) → v.keyed = true →
    (s.walkValue v).Yields (s.value v) (s.fallbacks · v)
  | .color (.token reference), _ => s.yields_token reference
  | .color (.hex _), _ | .color (.themeData _ _), _ | .number _, _ | .bool _, _ | .text _, _
  | .null, _ => Walk.yields_pure _
  | .list vs, h => (yields_walkItems s 0 vs h).map Value.list
  | .group es, h => by
    rw [Value.keyed, Bool.and_eq_true, decide_eq_true_eq] at h
    have hwalk := (yields_walkEntries s [] es h.2).map Value.group
    have hes := s.ofList_valueEntries h.1
    rw [Entries.ofList] at hes
    rw [hes] at hwalk
    exact hwalk

theorem yields_walkItems (s : Source) : (index : Nat) → (vs : List Value) →
    Value.keyedItems vs = true →
    (s.walkItems index vs).Yields (s.valueItems vs) (s.fallbacksItems · index vs)
  | _, [], _ => Walk.yields_pure []
  | index, v :: vs, h => by
    rw [Value.keyedItems, Bool.and_eq_true] at h
    exact ((yields_walkValue s v h.1).within _).bind
      ((yields_walkItems s (index + 1) vs h.2).map (s.value v :: ·))

theorem yields_walkEntries (s : Source) : (out : Bag) → (es : List (String × Value)) →
    Value.keyedEntries es = true →
    (s.walkEntries out es).Yields
      ((s.valueEntries es).foldl (fun out e => Entries.insert out e.1 e.2) out)
      (s.fallbacksEntries · es)
  | out, [], _ => Walk.yields_pure out
  | out, (k, v) :: es, h => by
    rw [Value.keyedEntries, Bool.and_eq_true] at h
    exact ((yields_walkValue s v h.1).within k).bind
      (yields_walkEntries s (Entries.insert out k (s.value v)) es h.2)

end

theorem yields_walkBag (s : Source) {b : Bag} (h : b.Keyed) :
    (s.walkBag b).Yields (s.bag b) (s.fallbacksEntries · b) := by
  have hwalk := s.yields_walkEntries [] b ((Value.keyedEntries_iff b).mpr h.each)
  have hb := s.ofList_valueEntries h.distinct
  rw [Entries.ofList] at hb
  rw [hb] at hwalk
  exact hwalk

theorem yields_walkStyles (s : Source) (h : s.styles.Keyed) :
    s.walkStyles.Yields s.compile.styles fun path => s.styles.bags.flatMap fun b =>
      s.fallbacksEntries (path ++ ["visualStyles"] ++ [b.1] ++ [b.2.1]) b.2.2 := by
  have hvariant : ∀ visual ∈ s.styles.visuals, ∀ variant ∈ visual.2, ∀ tree : StyleTree,
      Walk.Yields
        (do return tree.setBag visual.1 variant.1 (← Walk.within variant.1 (s.walkBag variant.2)))
        (tree.setBag visual.1 variant.1 (s.bag variant.2))
        fun path => s.fallbacksEntries (path ++ [variant.1]) variant.2 := by
    intro visual hvisual variant hvariant tree
    have hkeyed := (Entries.Keyed.each h visual hvisual).each variant hvariant
    exact ((s.yields_walkBag hkeyed).within variant.1).map (tree.setBag visual.1 variant.1)
  have hwalk := (Walk.Yields.foldlM (fun visual hvisual tree =>
    (Walk.Yields.foldlM (hvariant visual hvisual) tree).within visual.1)
      StyleTree.empty).within "visualStyles"
  rw [compile, StyleTree.ofBags]
  simp only [StyleTree.bags, List.foldl_map, List.foldl_flatMap, List.flatMap_assoc,
    List.flatMap_map]
  exact hwalk

/-- Compiled entries put together one by one. -/
theorem foldl_insert_compiled {α β : Type} (f : α → β) {es : Entries α} (h : Entries.Distinct es) :
    es.foldl (fun out e => Entries.insert out e.1 (f e.2)) [] = es.map fun e => (e.1, f e.2) := by
  have hd : Entries.Distinct (Entries.mapValues f es) := by
    rw [Entries.Distinct, Entries.keys_mapValues]
    exact h
  have hcollected := Entries.ofList_eq_self hd
  rwa [Entries.ofList, Entries.mapValues, List.foldl_map] at hcollected

theorem yields_walkColors (s : Source) (h : Bag.Keyed s.structuralColors) :
    s.walkColors.Yields s.compile.structuralColors
      fun path => s.freeColors.flatMap fun e => s.fallbacks (path ++ [e.1]) e.2 := by
  have hfree : Bag.Keyed s.freeColors := h.filter _
  have hstep : s.walkColors = s.freeColors.foldlM
      (fun out e => do return Entries.insert out e.1 (← Walk.within e.1 (s.walkValue e.2))) [] := by
    rw [walkColors, freeColors, List.foldlM_filter]
    congr 1
    funext out e
    cases reservedKeys.contains e.1 <;> rfl
  have hcolor : ∀ e ∈ s.freeColors, ∀ out : Entries Value,
      Walk.Yields (do return Entries.insert out e.1 (← Walk.within e.1 (s.walkValue e.2)))
        (Entries.insert out e.1 (s.value e.2)) fun path => s.fallbacks (path ++ [e.1]) e.2 :=
    fun e he out => ((s.yields_walkValue e.2 (hfree.each e he)).within e.1).map
      (Entries.insert out e.1)
  have hwalk := Walk.Yields.foldlM hcolor []
  rw [foldl_insert_compiled s.value hfree.distinct] at hwalk
  rw [hstep]
  exact hwalk

theorem yields_walkClasses (s : Source) (h : Entries.Keyed Bag.Keyed s.textClasses) :
    s.walkClasses.Yields s.compile.textClasses fun path => s.textClasses.flatMap fun e =>
      s.fallbacksEntries (path ++ ["textClasses"] ++ [e.1]) e.2 := by
  have hclass : ∀ e ∈ s.textClasses, ∀ out : Entries Bag,
      Walk.Yields (do
        let compiled ← Walk.within e.1 (s.walkBag e.2)
        let compiled := if s.fontFamily.isEmpty || Entries.contains compiled "fontFace" then compiled
          else Entries.insert compiled "fontFace" (.text s.fontFamily)
        return Entries.insert out e.1 compiled)
        (Entries.insert out e.1 (s.textClass e.2))
        fun path => s.fallbacksEntries (path ++ [e.1]) e.2 := fun e he out =>
    ((s.yields_walkBag (h.each e he)).within e.1).map _
  have hwalk := (Walk.Yields.foldlM hclass []).within "textClasses"
  rw [foldl_insert_compiled s.textClass h.distinct] at hwalk
  exact hwalk

/-- No key stands twice in a map of a source. -/
structure Keyed (s : Source) : Prop where
  styles : s.styles.Keyed
  structuralColors : Bag.Keyed s.structuralColors
  textClasses : Entries.Keyed Bag.Keyed s.textClasses

/-- One pass makes the compiled document, diagnostics included. -/
theorem walked_eq_compile {s : Source} (h : s.Keyed) : s.walked = s.compile := by
  have hwalk := (s.yields_walkStyles h.styles).bind (k := fun styles => do
    let colors ← s.walkColors
    return (styles, colors, ← s.walkClasses))
    ((s.yields_walkColors h.structuralColors).bind (k := fun colors => do
      return (s.compile.styles, colors, ← s.walkClasses))
      ((s.yields_walkClasses h.textClasses).map fun classes =>
        (s.compile.styles, s.compile.structuralColors, classes)))
  have hrun : s.walkAll.run ⟨[], []⟩ = ((s.compile.styles, s.compile.structuralColors,
      s.compile.textClasses), ⟨[], s.diagnostics⟩) := by
    refine (hwalk ⟨[], []⟩).trans ?_
    simp [diagnostics]
  rw [walked, hrun]
  rfl

end Source

end ReportTheme
