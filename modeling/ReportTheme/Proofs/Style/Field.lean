import ReportTheme.Proofs.Style.Path

/-!
Fields of the first entry of a property. A field is written into the group that begins a list, which
is made where there is none, and is read again from there. The other fields of the property are kept
as far as they stand in that group. But a field is read along a path, and a path leads into other
values too: what is read below the key `0` of a group, or in a list that begins a list, gives way to
the first field that is written beside it.
-/
namespace ReportTheme

namespace Value

/-- The first entry of a list, if it is a group. -/
def firstGroup? : Value → Option Bag
  | .list (.group entry :: _) => some entry
  | _ => none

/-- The items of a list after the first. -/
def laterItems : Value → List Value
  | .list (_ :: items) => items
  | _ => []

/-- Whether a field is read where none is written. -/
def Strays (field : String) : Value → Prop
  | .group entries => ((Entries.get? entries "0").bind (·.child? field)).isSome = true
  | .list (.list items :: _) => ((Value.list items).child? field).isSome = true
  | _ => False

theorem eq_of_firstGroup? {v : Value} {entry : Bag} (h : v.firstGroup? = some entry) :
    v = .list (.group entry :: v.laterItems) := by
  cases v with
  | list items =>
    rcases items with _ | ⟨item, items⟩
    · cases h
    · cases item with
      | group es =>
        obtain rfl := Option.some.inj h
        rfl
      | _ => cases h
  | _ => cases h

theorem get?_field (v : Value) (field : String) :
    v.get? ["0", field] = (v.child? "0").bind (·.child? field) := by
  rw [get?_cons]
  exact Option.bind_congr fun child _ => Option.bind_fun_some _

theorem child?_zero (items : List Value) : (Value.list items).child? "0" = items[0]? := by
  have hi : listIndex? "0" = some 0 := by decide
  rw [child?, hi, Option.bind_some]

theorem get?_of_firstGroup? {v : Value} {entry : Bag} (h : v.firstGroup? = some entry)
    (field : String) : v.get? ["0", field] = Entries.get? entry field := by
  rw [eq_of_firstGroup? h, get?_field, child?_zero]
  rfl

/-- A field is read from the group that begins a list, or it strays. -/
theorem firstGroup?_field_iff (v : Value) (field : String) :
    v.firstGroup?.bind (Entries.get? · field) = v.get? ["0", field] ↔ ¬v.Strays field := by
  have hnone : ∀ o : Option Value, none = o ↔ ¬o.isSome = true := fun o => by cases o <;> simp
  rw [get?_field]
  cases v with
  | group es => exact hnone _
  | list items =>
    rw [child?_zero]
    rcases items with _ | ⟨item, items⟩
    · exact iff_of_true rfl id
    · cases item with
      | list inner => exact hnone _
      | _ => exact iff_of_true rfl id
  | _ => exact iff_of_true rfl id

/-- What stands at a property once a field of its first entry has been written. -/
def withField (field : String) (v : Value) : Option Value → Value
  | some (.list (.group entry :: items)) => .list (.group (Entries.insert entry field v) :: items)
  | some (.list (_ :: items)) => .list (.group [(field, v)] :: items)
  | _ => .list [.group [(field, v)]]

theorem withField_eq (field : String) (v : Value) (old : Option Value) :
    withField field v old =
      .list (.group (Entries.insert ((old.bind firstGroup?).getD []) field v) ::
        (old.map laterItems).getD []) := by
  cases old with
  | none => rfl
  | some old =>
    cases old with
    | list items =>
      rcases items with _ | ⟨item, items⟩
      · rfl
      · cases item <;> rfl
    | _ => rfl

end Value

namespace Bag

theorem setField_eq (b : Bag) (property field : String) (v : Value) :
    b.setField property field v = Entries.upsert b property (Value.withField field v) := rfl

theorem get?_setField_self (b : Bag) (property field : String) (v : Value) :
    Entries.get? (b.setField property field v) property =
      some (.list (.group (Entries.insert
          (((Entries.get? b property).bind Value.firstGroup?).getD []) field v) ::
        ((Entries.get? b property).map Value.laterItems).getD [])) := by
  rw [setField_eq, Entries.get?_upsert, if_pos rfl, Value.withField_eq]

theorem get?_setField_of_ne {b : Bag} {property other : String} (field : String) (v : Value)
    (h : other ≠ property) :
    Entries.get? (b.setField property field v) other = Entries.get? b other := by
  rw [setField, Entries.get?_upsert, if_neg h.symm]

/-- A field that has its value is not written again. -/
theorem setField_eq_self {b : Bag} {property field : String} {v old : Value} {entry : Bag}
    (hold : Entries.get? b property = some old) (hentry : old.firstGroup? = some entry)
    (hfield : Entries.get? entry field = some v) : b.setField property field v = b := by
  rw [setField_eq]
  refine Entries.upsert_eq_self hold ?_
  rw [Value.withField_eq, Option.bind_some, hentry, Option.getD_some,
    Entries.insert_eq_self hfield, Option.map_some, Option.getD_some]
  exact (Value.eq_of_firstGroup? hentry).symm

theorem setField_holds {P : Value → Prop} (hP : Value.Hereditary P) {b : Bag}
    (hb : Entries.Keyed P b) (property field : String) {v : Value} (hv : P v) :
    Entries.Keyed P (b.setField property field v) := by
  have hone : P (.group [(field, v)]) := (hP.group _).mpr ((Entries.keyed_nil P).insert field hv)
  refine hb.upsert ?_
  split
  · rename_i entry items h
    obtain ⟨hentry, hitems⟩ := (hP.list_cons _ _).mp (hb.get? h)
    have hnew := ((hP.group entry).mp hentry).insert field hv
    exact (hP.list_cons _ _).mpr ⟨(hP.group _).mpr hnew, hitems⟩
  · rename_i item items hitem h
    obtain ⟨-, hitems⟩ := (hP.list_cons _ _).mp (hb.get? h)
    exact (hP.list_cons _ _).mpr ⟨hone, hitems⟩
  · exact (hP.list_cons _ _).mpr ⟨hone, (hP.list _).mpr (by simp)⟩

theorem field?_eq (b : Bag) (property field : String) :
    b.field? property field = (Entries.get? b property).bind (·.get? ["0", field]) := rfl

theorem field?_setField_of_ne {b : Bag} {property other : String} (field : String) (v : Value)
    (h : other ≠ property) (f : String) :
    (b.setField property field v).field? other f = b.field? other f := by
  rw [field?_eq, get?_setField_of_ne field v h, field?_eq]

/-- Of the property that is written only the group that begins a list is read afterwards. -/
theorem field?_setField_self (b : Bag) (property field : String) (v : Value) (f : String) :
    (b.setField property field v).field? property f =
      if field = f then some v
      else ((Entries.get? b property).bind Value.firstGroup?).bind (Entries.get? · f) := by
  rw [field?_eq, get?_setField_self, Option.bind_some, Value.get?_of_firstGroup? rfl,
    Entries.get?_insert]
  split
  · rfl
  · cases (Entries.get? b property).bind Value.firstGroup? <;> rfl

/-- A field that is read where none is written. -/
def Strays (b : Bag) (property field : String) : Prop :=
  ∃ v, Entries.get? b property = some v ∧ v.Strays field

theorem firstGroup?_field_iff (b : Bag) (property field : String) :
    ((Entries.get? b property).bind Value.firstGroup?).bind (Entries.get? · field) =
      b.field? property field ↔ ¬b.Strays property field := by
  rw [field?_eq, Strays]
  cases Entries.get? b property with
  | none => simp
  | some v => simpa using v.firstGroup?_field_iff field

/-- A field that has been written is read again; every other field is read as before, unless it is
of the same property and has been read where no field is written. -/
theorem field_write_frame (b : Bag) (property field : String) (v : Value) :
    (b.setField property field v).field? property field = some v ∧
    ∀ p f, (p, f) ≠ (property, field) →
      ((b.setField property field v).field? p f = b.field? p f ↔
        ¬(p = property ∧ b.Strays p f)) := by
  constructor
  · rw [field?_setField_self, if_pos rfl]
  · intro p f hne
    by_cases hp : p = property
    · subst hp
      have hf : field ≠ f := fun hf => hne (by rw [hf])
      rw [field?_setField_self, if_neg hf, firstGroup?_field_iff]
      simp
    · rw [field?_setField_of_ne field v hp]
      simp [hp]

/-- A border with two fields in its first entry, and one more entry. -/
def roundedBorder : Bag :=
  [("border", .list [.group [("show", .bool true), ("radius", .number (.ofUInt64 8))], .null])]

theorem field_write_frame_rounded :
    ("border", "radius") ≠ ("border", "show") ∧
    (roundedBorder.setField "border" "show" (.bool false)).field? "border" "radius" =
      roundedBorder.field? "border" "radius" := by
  have hne : ("border", "radius") ≠ ("border", "show") := by decide
  refine ⟨hne, ((field_write_frame roundedBorder "border" "show" (.bool false)).2 _ _ hne).mpr ?_⟩
  rintro ⟨-, v, hv, hstrays⟩
  obtain rfl := Option.some.inj hv
  exact hstrays

/-- A border whose fields stand below the key `0` of a group. -/
def boxedBorder : Bag :=
  [("border", .group [("0", .group [("radius", .number (.ofUInt64 8))])])]

/-- Showing the border costs it its radius. -/
theorem field_write_lost :
    boxedBorder.Keyed ∧ ("border", "radius") ≠ ("border", "show") ∧
    boxedBorder.field? "border" "radius" = some (.number (.ofUInt64 8)) ∧
    (boxedBorder.setField "border" "show" (.bool true)).field? "border" "radius" = none :=
  ⟨by decide, by decide, rfl, rfl⟩

end Bag

end ReportTheme
