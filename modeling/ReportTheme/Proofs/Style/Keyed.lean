import ReportTheme.Style.Merge
import ReportTheme.Proofs.Entries

/-!
Style values in which no key stands twice, at any depth. Every map of a style tree is of this kind,
and whatever the library does to a tree keeps it so; only such values are sure to equal themselves
when the order of keys is ignored.
-/
namespace ReportTheme

namespace Value

mutual

/-- Whether every group of a value holds each of its keys once. -/
def keyed : Value → Bool
  | .list items => keyedItems items
  | .group entries => decide (Entries.Distinct entries) && keyedEntries entries
  | _ => true

def keyedItems : List Value → Bool
  | [] => true
  | v :: vs => keyed v && keyedItems vs

def keyedEntries : List (String × Value) → Bool
  | [] => true
  | (_, v) :: es => keyed v && keyedEntries es

end

theorem keyedItems_iff (vs : List Value) : keyedItems vs = true ↔ ∀ v ∈ vs, v.keyed = true := by
  induction vs with
  | nil => simp [keyedItems]
  | cons v vs ih => simp [keyedItems, ih]

theorem keyedEntries_iff (es : List (String × Value)) :
    keyedEntries es = true ↔ ∀ e ∈ es, e.2.keyed = true := by
  induction es with
  | nil => simp [keyedEntries]
  | cons e es ih => simp [keyedEntries, ih]

end Value

/-- A bag that holds each of its keys once, at every depth. -/
abbrev Bag.Keyed (b : Bag) : Prop := Entries.Keyed (fun v => v.keyed = true) b

/-- A bag with the proof that no key stands twice in it. The groups in it stay bare lists, since a
value cannot hold a proof about the values inside it, and are bundled where one is reached. -/
abbrev KeyedBag := {b : Bag // b.Keyed}

namespace Value

theorem keyed_list_iff (vs : List Value) :
    (Value.list vs).keyed = true ↔ ∀ v ∈ vs, v.keyed = true := by
  rw [keyed, keyedItems_iff]

theorem keyed_group_iff (b : Bag) : (Value.group b).keyed = true ↔ b.Keyed := by
  rw [keyed, Bool.and_eq_true, decide_eq_true_eq, keyedEntries_iff]
  exact ⟨fun h => ⟨h.1, h.2⟩, fun h => ⟨h.1, h.2⟩⟩

/-- A property of lists and groups just if their values have it, and of groups of distinct keys
only. -/
structure Hereditary (P : Value → Prop) : Prop where
  null : P .null
  list (vs : List Value) : P (.list vs) ↔ ∀ v ∈ vs, P v
  group (b : Bag) : P (.group b) ↔ Entries.Keyed P b

theorem hereditary_keyed : Hereditary fun v => v.keyed = true where
  null := rfl
  list := keyed_list_iff
  group := keyed_group_iff

namespace Hereditary

variable {P : Value → Prop}

theorem list_cons (hP : Hereditary P) (v : Value) (vs : List Value) :
    P (.list (v :: vs)) ↔ P v ∧ P (.list vs) := by
  rw [hP.list, hP.list, List.forall_mem_cons]

/-- Where nothing stands, null does. -/
theorem getD_get? (hP : Hereditary P) {b : Bag} (h : Entries.Keyed P b) (key : String) :
    P ((Entries.get? b key).getD .null) := by
  cases hget : Entries.get? b key with
  | none => exact hP.null
  | some v => exact h.get? hget

theorem child? (hP : Hereditary P) {v w : Value} {segment : String} (h : P v)
    (hw : v.child? segment = some w) : P w := by
  cases v with
  | group es => exact ((hP.group es).mp h).get? hw
  | list vs =>
    obtain ⟨i, -, hi⟩ := Option.bind_eq_some_iff.mp hw
    exact (hP.list vs).mp h w (List.mem_of_getElem? hi)
  | _ => simp [Value.child?] at hw

theorem get? (hP : Hereditary P) {v w : Value} {path : List String} (h : P v)
    (hw : v.get? path = some w) : P w := by
  induction path generalizing v with
  | nil =>
    rw [Value.get?, Option.some.injEq] at hw
    exact hw ▸ h
  | cons segment path ih =>
    obtain ⟨u, hu, hw⟩ := Option.bind_eq_some_iff.mp hw
    exact ih (hP.child? h hu) hw

theorem list_set (hP : Hereditary P) {vs : List Value} (h : P (.list vs)) (i : Nat) {w : Value}
    (hw : P w) : P (.list (vs.set i w)) := by
  rw [hP.list] at h ⊢
  intro u hu
  rcases List.mem_or_eq_of_mem_set hu with hu | rfl
  · exact h u hu
  · exact hw

theorem list_eraseIdx (hP : Hereditary P) {vs : List Value} (h : P (.list vs)) (i : Nat) :
    P (.list (vs.eraseIdx i)) := by
  rw [hP.list] at h ⊢
  exact fun u hu => h u (List.mem_of_mem_eraseIdx hu)

end Hereditary

end Value

end ReportTheme
