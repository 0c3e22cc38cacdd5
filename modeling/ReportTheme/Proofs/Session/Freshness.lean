import ReportTheme.Proofs.Json.Printed
import ReportTheme.Proofs.Memo
import ReportTheme.Proofs.Session.Content

/-!
Documents of a session while the palettes change beside it. Nothing tells the memo of a change, but
every document it hands out equals the one compiled from the theme and the palettes of the moment,
exported text is the text of that document, and a second look at an unchanged session is answered
with the same document.
-/
namespace ReportTheme

/-- No key stands twice in a map of a document. -/
structure Document.Keyed (d : Document) : Prop where
  structuralColors : Bag.Keyed d.structuralColors
  styles : d.styles.Keyed
  textClasses : Entries.Keyed Bag.Keyed d.textClasses

theorem Document.equal_of_unsigned {d e : Document} (he : e.Keyed) (h : d.unsigned = e.unsigned) :
    d.equal e = true := by
  obtain ⟨hname, hdata, hcolors, hstyles, hclasses, hdiagnostics⟩ := Document.mk.inj h
  simp only [equal, Bool.and_eq_true, beq_iff_eq]
  exact ⟨⟨⟨⟨⟨hname, hdata⟩, Bag.equal_of_unsigned he.structuralColors hcolors⟩,
    StyleTree.equal_of_unsigned he.styles hstyles⟩,
    Bag.equalBy_of_unsigned he.textClasses hclasses⟩, hdiagnostics⟩

namespace Source

mutual

theorem keyed_value (s : Source) : (v : Value) → v.keyed = true → (s.value v).keyed = true
  | .color c, _ => by cases c <;> rfl
  | .list vs, h => by
    rw [Value.keyed] at h
    rw [value, Value.keyed]
    exact keyed_valueItems s vs h
  | .group es, h => by
    rw [Value.keyed, Bool.and_eq_true, decide_eq_true_eq] at h
    have hkeys : Entries.keys (s.valueEntries es) = Entries.keys es := by
      rw [valueEntries_eq, Entries.keys_mapValues]
    rw [value, Value.keyed, Bool.and_eq_true, decide_eq_true_eq, Entries.Distinct, hkeys]
    exact ⟨h.1, keyed_valueEntries s es h.2⟩
  | .number _, _ | .bool _, _ | .text _, _ | .null, _ => by simp [value, Value.keyed]

theorem keyed_valueItems (s : Source) : (vs : List Value) → Value.keyedItems vs = true →
    Value.keyedItems (s.valueItems vs) = true
  | [], _ => rfl
  | v :: vs, h => by
    rw [Value.keyedItems, Bool.and_eq_true] at h
    rw [valueItems, Value.keyedItems, keyed_value s v h.1, keyed_valueItems s vs h.2]
    rfl

theorem keyed_valueEntries (s : Source) : (es : List (String × Value)) →
    Value.keyedEntries es = true → Value.keyedEntries (s.valueEntries es) = true
  | [], _ => rfl
  | (k, v) :: es, h => by
    rw [Value.keyedEntries, Bool.and_eq_true] at h
    rw [valueEntries, Value.keyedEntries, keyed_value s v h.1, keyed_valueEntries s es h.2]
    rfl

end

theorem keyed_bag (s : Source) {b : Bag} (h : b.Keyed) : (s.bag b).Keyed := by
  rw [bag, valueEntries_eq]
  exact h.mapValues s.keyed_value

theorem keyed_textClass (s : Source) {b : Bag} (h : b.Keyed) : (s.textClass b).Keyed := by
  rw [textClass]
  split
  · exact s.keyed_bag h
  · exact (s.keyed_bag h).insert "fontFace" rfl

theorem keyed_compile {t : Theme} (h : t.Holds fun v => v.keyed = true) (palettes : PalettePair) :
    (ofTheme t palettes).compile.Keyed where
  structuralColors := (h.structuralColors.filter _).mapValues (ofTheme t palettes).keyed_value
  styles := by
    rw [compile]
    refine StyleTree.holds_ofBags fun b hb => ?_
    obtain ⟨c, hc, rfl⟩ := List.mem_map.mp hb
    obtain ⟨v, hv, hc⟩ := List.mem_flatMap.mp hc
    obtain ⟨w, hw, rfl⟩ := List.mem_map.mp hc
    exact (ofTheme t palettes).keyed_bag ((Entries.Keyed.each h.styles v hv).each w hw)
  textClasses := h.textClasses.mapValues fun _ => (ofTheme t palettes).keyed_textClass

end Source

namespace Editor

theorem memo_foldl_track {α : Type} (f : α → Path) (items : List α) (e : Editor) :
    (items.foldl (fun e a => e.track (f a)) e).memo = e.memo := by
  induction items generalizing e with
  | nil => rfl
  | cons a items ih => exact ih (e.track (f a))

theorem memo_reconcile (e : Editor) : e.reconcile.memo = e.memo := by
  unfold reconcile
  dsimp only
  split <;> rfl

theorem memo_setStyles (e : Editor) (styles : StyleTree) (paths : List Path) :
    (e.setStyles styles paths).memo = e.memo := by
  rw [setStyles, memo_reconcile]
  exact memo_foldl_track id paths _

theorem memo_applyChoice (e : Editor) (c : Choice) :
    (e.perform (.applyChoice c)).memo = e.memo := by
  rw [perform, applyChoice, memo_reconcile]
  exact memo_foldl_track (fun w : Write => stylePath w.visual defaultVariant ++ [w.property]) _ _

/-- Only a request for a document reaches the memo. -/
theorem memo_perform (e : Editor) (op : Operation) :
    (e.perform op).memo =
      match op with
      | .document store => (e.memo.get (e.source store)).2
      | _ => e.memo := by
  cases op with
  | setProperty | removeProperty | setBag | removeBag | applyChoice =>
    exact kept_restyled (memo_setStyles e) (memo_applyChoice e) rfl
  | _ => rfl

theorem sound_memo_perform {e : Editor} (h : e.memo.Sound) (op : Operation) :
    (e.perform op).memo.Sound := by
  rw [memo_perform]
  cases op with
  | document store => exact h.get (e.source store)
  | _ => exact h

end Editor

/-- A session and the palettes that it asks for by their ids. -/
structure Desk where
  editor : Editor
  store : PaletteStore
  deriving Repr

/-- What can happen between two looks at a document: an edit of the theme, a change of the palettes,
or a look. -/
inductive Step where
  | edit (op : Operation)
  | insertColor (p : Palette)
  | insertNeutral (p : Palette)
  | removeColor (id : String)
  | removeNeutral (id : String)
  | read
  deriving Repr

def Step.Brings (P : Value → Prop) : Step → Prop
  | .edit op => op.Brings P
  | _ => True

namespace Desk

def start (t : Theme) (store : PaletteStore) : Desk := ⟨.new t, store⟩

/-- The document, as it is previewed and exported. -/
def read (d : Desk) : Document × Desk :=
  let (document, editor) := d.editor.document d.store
  (document, { d with editor })

/-- The exported text. -/
def readText (d : Desk) (pretty : Bool) : String × Desk :=
  let (text, editor) := d.editor.exportText d.store pretty
  (text, { d with editor })

def step (d : Desk) : Step → Desk
  | .edit op => { d with editor := d.editor.perform op }
  | .insertColor p => { d with store := (d.store.insertColor p).2 }
  | .insertNeutral p => { d with store := (d.store.insertNeutral p).2 }
  | .removeColor id => { d with store := (d.store.removeColor id).2 }
  | .removeNeutral id => { d with store := (d.store.removeNeutral id).2 }
  | .read => d.read.2

def run (d : Desk) (steps : List Step) : Desk := steps.foldl step d

/-- The palettes of the theme, the built-in default for an id that the store does not know. -/
def palettes (d : Desk) : PalettePair where
  color := (d.store.colors.find? d.editor.theme.colorPaletteId).getD ColorPreset.default.palette
  neutral :=
    (d.store.neutrals.find? d.editor.theme.neutralPaletteId).getD NeutralPreset.gray.palette

/-- The document compiled from the theme and the palettes as they are. -/
def compiled (d : Desk) : Document := (Source.ofTheme d.editor.theme d.palettes).compile

/-- No value of the theme repeats a key, and what the memo remembers is a compiled document. -/
structure Valid (d : Desk) : Prop where
  editor : d.editor.Holds fun v => v.keyed = true
  memo : d.editor.memo.Sound

theorem valid_start {t : Theme} (ht : t.Holds fun v => v.keyed = true) (store : PaletteStore) :
    (start t store).Valid :=
  ⟨Editor.holds_new ht, Memo.sound_empty⟩

theorem Valid.perform {d : Desk} (h : d.Valid) {op : Operation}
    (hop : op.Brings fun v => v.keyed = true) : (d.step (.edit op)).Valid :=
  ⟨h.editor.perform Value.hereditary_keyed Value.keyed_ofPresets hop,
    Editor.sound_memo_perform h.memo op⟩

theorem Valid.step {d : Desk} (h : d.Valid) {s : Step} (hs : s.Brings fun v => v.keyed = true) :
    (d.step s).Valid := by
  cases s with
  | edit op => exact h.perform hs
  | read =>
    have hop : (Operation.document d.store).Brings fun v => v.keyed = true := trivial
    exact h.perform hop
  | _ => exact ⟨h.editor, h.memo⟩

theorem Valid.run {d : Desk} (h : d.Valid) {steps : List Step}
    (hsteps : ∀ s ∈ steps, s.Brings fun v => v.keyed = true) : (d.run steps).Valid := by
  induction steps generalizing d with
  | nil => exact h
  | cons s steps ih => exact ih (h.step (hsteps s (by simp))) fun u hu => hsteps u (by simp [hu])

theorem Valid.unsigned_read {d : Desk} (h : d.Valid) :
    d.read.1.unsigned = d.compiled.unsigned := h.memo.unsigned_get (d.editor.source d.store)

theorem Valid.read_equal {d : Desk} (h : d.Valid) : d.read.1.equal d.compiled = true :=
  Document.equal_of_unsigned (Source.keyed_compile h.editor.theme d.palettes) h.unsigned_read

/-- The record that is exported differs from the compiled one in signs of zero at most. -/
theorem Valid.unsigned_toJson {d : Desk} (h : d.Valid) :
    d.read.1.toJson.unsigned = d.compiled.toJson.unsigned := by
  rw [← Document.toJson_unsigned, h.unsigned_read, Document.toJson_unsigned]

/-- Compact text shows every sign, so it is the text of the compiled document just if the records
are the same. -/
theorem Valid.compactText_iff {d : Desk} (h : d.Valid) :
    (d.readText false).1 = d.compiled.text false ↔ d.read.1.toJson = d.compiled.toJson :=
  ⟨Json.compact_injective h.unsigned_toJson, congrArg Json.compact⟩

/-- Read as JSON, pretty text gives the record of the document back. -/
theorem ofText_readText {d : Desk} (hdepth : d.read.1.toJson.depth ≤ Reading.depthLimit)
    (hnumbers : d.read.1.toJson.legible = true) :
    Scanned.ofText (d.readText true).1 = ⟨.ofJson d.read.1.toJson, false⟩ :=
  Scanned.ofText_pretty hdepth hnumbers

theorem read_read (d : Desk) : d.read.2.read.1 = d.read.1 :=
  d.editor.memo.get_get (d.editor.source d.store)

/-- Whatever is done to the theme and to the palettes, and whenever the document was looked at
before: a look shows what is compiled from both as they are now, exported text is the text of that
document, and a second look without a step in between shows the same document. The record in the
text is the compiled one up to signs of zero; pretty text is read back as this record, and compact
text is that of the compiled document just if their records are the same. Every map that comes from
outside holds its keys once. -/
theorem read_current {t : Theme} (ht : t.Holds fun v => v.keyed = true) (store : PaletteStore)
    {steps : List Step} (hsteps : ∀ s ∈ steps, s.Brings fun v => v.keyed = true) :
    let d := (start t store).run steps
    d.read.1.equal d.compiled = true ∧
      (∀ pretty, (d.readText pretty).1 = d.read.1.text pretty) ∧
      d.read.1.toJson.unsigned = d.compiled.toJson.unsigned ∧
      ((d.readText false).1 = d.compiled.text false ↔ d.read.1.toJson = d.compiled.toJson) ∧
      (d.read.1.toJson.depth ≤ Reading.depthLimit → d.read.1.toJson.legible = true →
        Scanned.ofText (d.readText true).1 = ⟨.ofJson d.read.1.toJson, false⟩) ∧
      d.read.2.read.1 = d.read.1 := by
  have h := (valid_start ht store).run hsteps
  exact ⟨h.read_equal, fun _ => rfl, h.unsigned_toJson, h.compactText_iff, ofText_readText,
    read_read _⟩

/-- A title in the first data color. -/
def titledTheme : Theme :=
  { Theme.new "id" "name" with
    styles := ⟨[("card", [("*", [("title", .color (.ofToken .accent))])])]⟩ }

/-- A look, then other colors under the id of the palette, a new name and another look, and last a
palette that is not there. -/
def repaint : List Step :=
  [.read, .insertColor ⟨"default", "Warm", ["#AA0000", "#BB0000"], false⟩, .edit (.setName "warm"),
    .read, .removeColor "default"]

/-- The record that is exported in the end. -/
def repainted : Json := .object [("name", .string "warm"),
  ("dataColors", .list (ColorPreset.default.palette.colors.map .string)),
  ("visualStyles", .object [("card", .object [("*", .object [("title", .string "#118DFF")])])])]

theorem read_current_repaint :
    titledTheme.Holds (fun v => v.keyed = true) ∧
    (∀ s ∈ repaint, s.Brings fun v => v.keyed = true) ∧
    (((start titledTheme .builtIn).run (repaint.take 4)).read.1.styles.bag? "card" "*" =
      some [("title", .color (.hex "#AA0000"))]) ∧
    ((start titledTheme .builtIn).run repaint).read.1.equal
      ((start titledTheme .builtIn).run repaint).compiled = true ∧
    Scanned.ofText (((start titledTheme .builtIn).run repaint).readText true).1 =
      ⟨.ofJson repainted, false⟩ := by
  have ht : titledTheme.Holds fun v => v.keyed = true := ⟨by decide, by decide, by decide⟩
  have hsteps : ∀ s ∈ repaint, s.Brings fun v => v.keyed = true := by
    simp [repaint, Step.Brings, Operation.Brings]
  obtain ⟨hequal, -, -, -, hread, -⟩ := read_current ht .builtIn hsteps
  exact ⟨ht, hsteps, rfl, hequal, hread (by decide) (by decide)⟩

end Desk

end ReportTheme
