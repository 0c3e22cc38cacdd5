import ReportTheme.Proofs.Style.Path

/-!
Writes seen from other paths. Two paths part where one leads to another child than the other does,
having led to the same ones before; a segment into a list counts as the index it stands for. A write
is read at its own path and at no path that parts from it, whatever stands on the way.
-/
namespace ReportTheme

namespace Value

/-- What the segments of a path stand for on its way down, nothing but keys where nothing stands. -/
def steps (v : Value) : List String → List (Nat ⊕ String)
  | [] => []
  | segment :: path => v.step segment :: steps ((v.child? segment).getD .null) path

/-- Whether two paths differ at a place that both have. -/
def Parts (v : Value) (p q : List String) : Prop :=
  ∃ (i : Nat) (a b : Nat ⊕ String), (v.steps p)[i]? = some a ∧ (v.steps q)[i]? = some b ∧ a ≠ b

theorem not_parts_nil (v : Value) (p : List String) : ¬v.Parts p [] := by
  rintro ⟨i, a, b, -, hb, -⟩
  simp [steps] at hb

theorem parts_cons_of_step_eq {v : Value} {s r : String} (h : v.step s = v.step r)
    (p q : List String) :
    v.Parts (s :: p) (r :: q) ↔ ((v.child? s).getD .null).Parts p q := by
  have hsteps : v.steps (r :: q) = v.step s :: ((v.child? s).getD .null).steps q := by
    rw [steps, h, child?_of_step_eq h]
  rw [Parts, steps, hsteps]
  constructor
  · rintro ⟨i, a, b, ha, hb, hne⟩
    cases i with
    | zero => exact absurd (Option.some.inj (ha.symm.trans hb)) hne
    | succ i => exact ⟨i, a, b, ha, hb, hne⟩
  · rintro ⟨i, a, b, ha, hb, hne⟩
    exact ⟨i + 1, a, b, ha, hb, hne⟩

theorem get?_getD_null (o : Option Value) (segment : String) (path : List String) :
    (o.getD .null).get? (segment :: path) = o.bind (·.get? (segment :: path)) := by
  cases o <;> rfl

/-- A write that is done is not seen from a path that parts from its own. -/
theorem get?_write_of_parts {new : Value} {path other : List String} {v : Value}
    (h : (write new v path).1 = true) (hparts : v.Parts path other) :
    (write new v path).2.get? other = v.get? other := by
  induction path generalizing v other with
  | nil =>
    obtain ⟨i, a, b, ha, -, -⟩ := hparts
    simp [steps] at ha
  | cons segment path ih =>
    cases other with
    | nil => exact absurd hparts (v.not_parts_nil _)
    | cons s other =>
      rw [get?_cons, child?_write h, get?_cons]
      split
      · rename_i hstep
        have hbelow := (parts_cons_of_step_eq hstep path other).mp hparts
        rw [Option.bind_some, ih (write_fst_of_cons h) hbelow, ← child?_of_step_eq hstep]
        cases other with
        | nil => exact absurd hbelow (not_parts_nil _ _)
        | cons r other => exact get?_getD_null _ r other
      · rfl

end Value

namespace Bag

theorem getPath?_eq {b : Bag} {path : List String} (h : path ≠ []) :
    b.getPath? path = (Value.group b).get? path := by
  cases path with
  | nil => exact absurd rfl h
  | cons key rest => rfl

/-- A write at a path is the write into the group that the bag is. -/
theorem write_group {b : Bag} {path : List String} {v : Value}
    (h : (b.setPath path v).1 = .ok ()) :
    Value.write v (.group b) path = (true, .group (b.setPath path v).2) := by
  cases path with
  | nil => cases h
  | cons key rest =>
    cases hw : (Value.write v ((Entries.get? b key).getD .null) rest).1 with
    | true => exact Prod.ext hw rfl
    | false => simp [setPath, hw] at h

/-- Once a value has been written at a path it is read there, and at every path that parts from it
is read what was read before. -/
theorem path_write_frame {b : Bag} {path : List String} {v : Value}
    (h : (b.setPath path v).1 = .ok ()) :
    (b.setPath path v).2.getPath? path = some v ∧
    ∀ other, (Value.group b).Parts path other →
      (b.setPath path v).2.getPath? other = b.getPath? other := by
  have hwrite := write_group h
  have hdone : (Value.write v (.group b) path).1 = true := congrArg Prod.fst hwrite
  constructor
  · rcases setPath_cases b path v with ⟨-, hrefused⟩ | ⟨-, hread⟩
    · rw [hrefused] at h
      cases h
    · exact hread
  · intro other hparts
    have hother : other ≠ [] := by
      rintro rfl
      exact Value.not_parts_nil _ _ hparts
    have hkept := Value.get?_write_of_parts hdone hparts
    rwa [hwrite, ← getPath?_eq hother, ← getPath?_eq hother] at hkept

/-- Two borders in a list, the second one without a fill, and a title. -/
def borderedBag : Bag :=
  [("border", .list [.group [("width", .bool true)], .group [("color", .text "none")]]),
    ("title", .text "Sales")]

/-- The bag once the color of the second border has given way to a fill. -/
def refilledBag : Except Error Unit × Bag :=
  borderedBag.setPath ["border", "+1", "color", "solid"] (.color (.hex "#FFFFFF"))

/-- The fill is read by any spelling of the index, and the first border as before. -/
theorem path_write_frame_bordered :
    refilledBag.1 = .ok () ∧
    (Value.group borderedBag).Parts ["border", "+1", "color", "solid"] ["border", "00", "width"] ∧
    refilledBag.2.getPath? ["border", "01", "color", "solid"] = some (.color (.hex "#FFFFFF")) ∧
    refilledBag.2.getPath? ["border", "00", "width"] =
      borderedBag.getPath? ["border", "00", "width"] := by
  have hdone : refilledBag.1 = .ok () := rfl
  have hparts : (Value.group borderedBag).Parts ["border", "+1", "color", "solid"]
      ["border", "00", "width"] := ⟨1, .inl 1, .inl 0, by decide, by decide, by decide⟩
  exact ⟨hdone, hparts, rfl, (path_write_frame hdone).2 _ hparts⟩

end Bag

end ReportTheme
