import ReportTheme.Proofs.Json.Record

/-!
One field of a record that is read from a JSON value. In an object it is given under its name, in a
list by its position; the record has in that field what is given there, and what the blank record
has if nothing is.
-/
namespace ReportTheme

/-- What a decoded part is after a value that may be given for it. -/
def Decoder.Takes {α : Type} (value : Decoder α) (given : Option Json) (before after : α) : Prop :=
  match given with
  | some j => value (.ofJson j) = .ok after
  | none => after = before

namespace Field

variable {σ α β : Type}

/-- Reading the field leaves a part of the record as it was. -/
def Leaves (f : σ → α) (field : Field σ) : Prop :=
  ∀ r s u, field.read r s = .ok u → f u = f s

theorem leaves_mkOptional {f : σ → α} {name : String} {value : Decoder β} {put : β → σ → σ}
    (h : ∀ b s, f (put b s) = f s) : (mkOptional name value put).Leaves f := by
  intro r s u hread
  obtain ⟨b, -, rfl⟩ := ok_of_map hread
  exact h b s

end Field

namespace RecordShape

variable {σ α : Type}

/-- What a record gives for a field. -/
def given? (shape : RecordShape σ) (name : String) : Json → Option Json
  | .object es => Entries.get? es name
  | .list js => js[shape.fields.findIdx fun field => field.name == name]?
  | _ => none

variable {shape : RecordShape σ} {f : σ → α} {name : String} {value : Decoder α}
  {put : α → σ → σ} {s u : σ}

theorem leaves_of_readEntry {e : String × Json}
    (hother : ∀ field ∈ shape.fields, field.name ≠ name → field.Leaves f) (he : e.1 ≠ name)
    (h : shape.readEntry s e = .ok u) : f u = f s := by
  rw [readEntry] at h
  cases hfield : shape.field? e.1 with
  | none =>
    rw [hfield] at h
    exact congrArg f (Except.ok.inj h).symm
  | some field =>
    rw [hfield] at h
    have hname : field.name ≠ name := fun hn => he ((shape.name_of_field? hfield).symm.trans hn)
    exact hother field (shape.mem_of_field? hfield) hname _ s u h

section
variable (hput : ∀ a s, f (put a s) = a)
  (hother : ∀ field ∈ shape.fields, field.name ≠ name → field.Leaves f)

include hput hother

theorem takes_of_foldlM_readEntry
    (hfield : shape.field? name = some (.mkOptional name value put)) {es : Entries Json}
    (hnodup : (shape.fieldKeys es).Nodup) (h : es.foldlM shape.readEntry s = .ok u) :
    value.Takes (Entries.get? es name) (f s) (f u) := by
  induction es generalizing s with
  | nil => exact congrArg f (Except.ok.inj h).symm
  | cons e es ih =>
    obtain ⟨key, j⟩ := e
    rw [List.foldlM_cons] at h
    obtain ⟨t, ht, h⟩ := ok_of_bind h
    rw [fieldKeys_cons] at hnodup
    rw [Entries.get?]
    by_cases hkey : key = name
    · subst hkey
      rw [hfield, if_pos (Option.isSome_some)] at hnodup
      obtain ⟨hnew, hrest⟩ := List.nodup_cons.mp hnodup
      -- the field is given once, so the entries after this one leave what it took
      have hnone : Entries.get? es key = none := by
        refine Entries.get?_eq_none_iff.mpr fun hm => hnew ?_
        exact List.mem_filter.mpr ⟨hm, by rw [hfield]; rfl⟩
      have hkept := ih hrest h
      rw [hnone] at hkept
      rw [readEntry, hfield] at ht
      obtain ⟨a, ha, rfl⟩ := ok_of_map ht
      rw [if_pos rfl, hkept, hput]
      exact ha
    · have hrest : (shape.fieldKeys es).Nodup := by
        split at hnodup
        · exact (List.nodup_cons.mp hnodup).2
        · exact hnodup
      rw [if_neg hkey, ← leaves_of_readEntry hother hkey ht]
      exact ih hrest h

end

/-- Fields that a list leaves out change nothing. -/
theorem eq_of_ofItems_nil {fields : List (Field σ)} {index : Nat}
    (h : shape.ofItems fields index [] none s = .ok u) : u = s := by
  induction fields generalizing index with
  | nil => exact (Except.ok.inj h).symm
  | cons field fields ih =>
    rw [ofItems] at h
    split at h
    · cases h
    · exact ih h

theorem takes_of_ofItems (hput : ∀ a s, f (put a s) = a) {fields : List (Field σ)}
    (hother : ∀ field ∈ fields, field.name ≠ name → field.Leaves f)
    (hfield : fields.find? (fun field => field.name == name) = some (.mkOptional name value put))
    (hnodup : (fields.map Field.name).Nodup) {index : Nat} {js : List Json}
    (h : shape.ofItems fields index (Reading.ofItems js) none s = .ok u) :
    value.Takes js[fields.findIdx fun field => field.name == name]? (f s) (f u) := by
  induction fields generalizing index js s with
  | nil => cases hfield
  | cons field fields ih =>
    obtain ⟨hfirst, hrest⟩ := List.forall_mem_cons.mp hother
    obtain ⟨hnew, hnodup⟩ := List.nodup_cons.mp hnodup
    cases js with
    | nil => exact congrArg f (eq_of_ofItems_nil h)
    | cons j js =>
      obtain ⟨t, ht, h⟩ := ok_of_bind h
      by_cases hname : field.name = name
      · have hindex : (field :: fields).findIdx (fun field => field.name == name) = 0 := by
          rw [List.findIdx_cons, beq_iff_eq.mpr hname, cond_true]
        rw [List.find?_cons_of_pos (by simpa using hname)] at hfield
        obtain rfl := Option.some.inj hfield
        obtain ⟨a, ha, rfl⟩ := ok_of_map ht
        -- no later field has the name, so all of them leave what this one took
        have hkept : f u = a := by
          refine invariant_of_ofItems (P := fun s => f s = a) ?_ (hput a s) h
          intro later hl r s v hs hread
          have hne : later.name ≠ name := fun hn => hnew (List.mem_map.mpr ⟨later, hl, hn⟩)
          exact (hrest later hl hne r s v hread).trans hs
        rw [hindex, List.getElem?_cons_zero, hkept]
        exact ha
      · have hindex : (field :: fields).findIdx (fun field => field.name == name) =
            (fields.findIdx fun field => field.name == name) + 1 := by
          rw [List.findIdx_cons, beq_eq_false_iff_ne.mpr hname, cond_false]
        rw [List.find?_cons_of_neg (by simpa using hname)] at hfield
        rw [hindex, List.getElem?_cons_succ, ← hfirst hname _ s t ht]
        exact ih hrest hfield hnodup h

/-- A record that is read has in a field what is given for it, in whichever form it is written. -/
theorem takes_of_decode (hoptional : ∀ field ∈ shape.fields, field.required = false)
    (hnodup : (shape.fields.map Field.name).Nodup)
    (hfield : shape.field? name = some (.mkOptional name value put))
    (hput : ∀ a s, f (put a s) = a)
    (hother : ∀ field ∈ shape.fields, field.name ≠ name → field.Leaves f) {j : Json}
    (h : shape.decode (.ofJson j) = .ok u) :
    value.Takes (shape.given? name j) (f shape.blank) (f u) := by
  cases j with
  | object es =>
    obtain ⟨hkeys, hread⟩ := (decode_ofJson_object_iff hoptional).mp h
    exact takes_of_foldlM_readEntry hput hother hfield hkeys hread
  | list js => exact takes_of_ofItems hput hother hfield hnodup h
  | _ => exact absurd h (Decoder.refuse_ne_ok _ _ u)

end RecordShape

end ReportTheme
