import ReportTheme.Proofs.Json.ByValue

/-!
Records read by way of a JSON value. If its fields are, so is a record: what it refuses beyond them
is a field that is given twice, and what it overlooks is what stands in the place of no field.
-/
namespace ReportTheme

/-- A fold that succeeds has met no element that fails in every state. -/
theorem exists_of_foldlM_ok {ε α σ : Type} {f : σ → α → Except ε σ} {as : List α} {s u : σ}
    (h : as.foldlM f s = .ok u) : ∀ a ∈ as, ∃ t v, f t a = .ok v := by
  induction as generalizing s with
  | nil => exact List.forall_mem_nil _
  | cons a as ih =>
    rw [List.foldlM_cons] at h
    obtain ⟨t, ht, h⟩ := ok_of_bind h
    exact List.forall_mem_cons.mpr ⟨⟨s, t, ht⟩, ih h⟩

/-- A row of partners is a partner for each. -/
theorem exists_forall₂_iff {α β : Type} {R : α → β → Prop} {as : List α} :
    (∃ bs, List.Forall₂ R as bs) ↔ ∀ a ∈ as, ∃ b, R a b := by
  induction as with
  | nil => simp
  | cons a as ih =>
    rw [List.forall_mem_cons, ← ih]
    simp only [List.forall₂_cons_left_iff]
    constructor
    · rintro ⟨_, b, bs, hb, hbs, rfl⟩
      exact ⟨⟨b, hb⟩, bs, hbs⟩
    · rintro ⟨⟨b, hb⟩, bs, hbs⟩
      exact ⟨b :: bs, b, bs, hb, hbs, rfl⟩

namespace RecordShape

variable {σ : Type} (shape : RecordShape σ) (inside : String → Reading → Prop)

def memberField? (m : Lexeme × Reading) : Option (Field σ) :=
  m.1.keyText.toOption.bind shape.field?

/-- Whether a field of a record is written with a property that its name goes with. -/
def SomeField : Reading → Prop
  | .object ms _ => ∃ m ∈ ms, ∃ field, shape.memberField? m = some field ∧ inside field.name m.2
  | .list rs _ => ∃ p ∈ shape.fields.zip rs, inside p.1.name p.2
  | _ => False

/-- Whether a record gives a field twice, or doubles something within one. -/
def Doubles (r : Reading) : Prop :=
  (match r with
    | .object ms _ => ¬(shape.memberKeys ms).Nodup
    | _ => False) ∨ shape.SomeField inside r

/-- Whether a record has something that holds no value in the place of no field, or overlooks it
within one. -/
def Overlooks (r : Reading) : Prop :=
  (match r with
    | .object ms _ => ∃ m ∈ ms, shape.memberField? m = none ∧ ∀ j, Json.ofReading m.2 ≠ .ok j
    | _ => False) ∨ shape.SomeField inside r

variable {shape} {doubles overlooks : String → Reading → Prop}

theorem readMember_eq {m : Lexeme × Reading} {key : String} (h : m.1.keyText = .ok key) (s : σ) :
    shape.readMember s m = match shape.field? key with
      | some field => field.read m.2 s
      | none =>
        match m.2.passed with
        | some f => .error (.fault f)
        | none => .ok s := by
  rw [readMember, Decoder.ofFault_eq_ok_iff.mpr h]
  rfl

theorem keyText_of_readMember {m : Lexeme × Reading} {s u : σ}
    (h : shape.readMember s m = .ok u) : ∃ key, m.1.keyText = .ok key := by
  obtain ⟨key, hkey, -⟩ := ok_of_bind h
  exact ⟨key, ok_of_ofFault hkey⟩

theorem memberField?_of_keyText {m : Lexeme × Reading} {key : String}
    (h : m.1.keyText = .ok key) : shape.memberField? m = shape.field? key := by
  rw [memberField?, h]
  rfl

theorem readMember_of_field {m : Lexeme × Reading} {field : Field σ}
    (h : shape.memberField? m = some field) (s : σ) : shape.readMember s m = field.read m.2 s := by
  cases hk : m.1.keyText with
  | error f =>
    rw [memberField?, hk] at h
    cases h
  | ok key =>
    rw [memberField?_of_keyText hk] at h
    rw [readMember_eq hk, h]

theorem memberKeys_of_holds {ms : List (Lexeme × Reading)} {given : List (String × Json)}
    (h : List.Forall₂ Json.HoldsEntry ms given) :
    shape.memberKeys ms = shape.fieldKeys given := by
  induction h with
  | nil => rfl
  | cons hm _ ih => rw [memberKeys_cons shape hm.1, fieldKeys_cons, ih]

theorem foldlM_readEntry_filter (es : Entries Json) (s : σ) :
    (es.filter fun e => (shape.field? e.1).isSome).foldlM shape.readEntry s =
      es.foldlM shape.readEntry s := by
  induction es generalizing s with
  | nil => rfl
  | cons e es ih =>
    rw [List.filter_cons]
    cases hfield : shape.field? e.1 with
    | some field =>
      rw [if_pos (Option.isSome_some), List.foldlM_cons, List.foldlM_cons]
      exact congrArg _ (funext ih)
    | none =>
      have hskip : shape.readEntry s e = .ok s := by rw [readEntry, hfield]
      rw [if_neg (by simp), List.foldlM_cons, hskip]
      exact ih s

/-- Where no field is given twice, the map of the entries reads as they do one after the other. -/
theorem foldlM_readEntry_ofList {given : List (String × Json)} (h : (shape.fieldKeys given).Nodup)
    (s : σ) : (Entries.ofList given).foldlM shape.readEntry s = given.foldlM shape.readEntry s := by
  have hfilter : (Entries.ofList given).filter (fun e => (shape.field? e.1).isSome) =
      given.filter fun e => (shape.field? e.1).isSome :=
    @Entries.filter_foldl_insert _ (fun key => (shape.field? key).isSome) given [] h
  rw [← foldlM_readEntry_filter, hfilter, foldlM_readEntry_filter]

theorem nodup_fieldKeys_ofList (given : List (String × Json)) :
    (shape.fieldKeys (Entries.ofList given)).Nodup :=
  List.filter_sublist.nodup (Entries.distinct_ofList given)

/-- How the fields of a record decode by way of a value, each with what its name goes with. -/
def FieldsByValue (fields : List (Field σ)) (doubles overlooks : String → Reading → Prop) : Prop :=
  ∀ field ∈ fields, ∀ s,
    Decoder.ByValue (fun r => field.read r s) (doubles field.name) (overlooks field.name)

theorem mem_of_memberField? {m : Lexeme × Reading} {field : Field σ}
    (h : shape.memberField? m = some field) : field ∈ shape.fields := by
  obtain ⟨key, -, hfield⟩ := Option.bind_eq_some_iff.mp h
  exact shape.mem_of_field? hfield

section
variable (h : FieldsByValue shape.fields doubles overlooks)

include h

theorem readMember_iff {m : Lexeme × Reading} {e : String × Json} (he : Json.HoldsEntry m e)
    (hm : ∀ field, shape.memberField? m = some field → ¬doubles field.name m.2) (s u : σ) :
    shape.readMember s m = .ok u ↔ shape.readEntry s e = .ok u := by
  cases hfield : shape.memberField? m with
  | some field =>
    rw [readMember_of_field hfield, readEntry, ← memberField?_of_keyText he.1, hfield]
    exact (h field (mem_of_memberField? hfield) s).same (hm field hfield) he.2 u
  | none =>
    have hnone : shape.field? e.1 = none := (memberField?_of_keyText he.1).symm.trans hfield
    rw [readMember_eq he.1, readEntry, hnone, Reading.passed_of_ofReading m.2 he.2]

/-- A member that is read holds an entry, unless its field overlooks something in it, or it is of no
field and holds no value. -/
theorem exists_holdsEntry {m : Lexeme × Reading} {s u : σ} (hread : shape.readMember s m = .ok u)
    (hother : shape.memberField? m = none → ∃ j, Json.ofReading m.2 = .ok j)
    (hm : ∀ field, shape.memberField? m = some field → ¬overlooks field.name m.2) :
    ∃ e, Json.HoldsEntry m e := by
  obtain ⟨key, hkey⟩ := keyText_of_readMember hread
  have hvalue : ∃ j, Json.ofReading m.2 = .ok j := by
    cases hfield : shape.memberField? m with
    | some field =>
      rw [readMember_of_field hfield] at hread
      exact (h field (mem_of_memberField? hfield) s).holds (hm field hfield) hread
    | none => exact hother hfield
  obtain ⟨j, hj⟩ := hvalue
  exact ⟨(key, j), hkey, hj⟩

theorem foldlM_readMember_iff {ms : List (Lexeme × Reading)} {given : List (String × Json)}
    (hgiven : List.Forall₂ Json.HoldsEntry ms given)
    (hms : ∀ m ∈ ms, ∀ field, shape.memberField? m = some field → ¬doubles field.name m.2)
    (s u : σ) : ms.foldlM shape.readMember s = .ok u ↔ given.foldlM shape.readEntry s = .ok u := by
  induction hgiven generalizing s with
  | nil => exact Iff.rfl
  | cons hm _ ih =>
    rw [List.forall_mem_cons] at hms
    rw [List.foldlM_cons, List.foldlM_cons, bind_eq_ok_iff, bind_eq_ok_iff]
    exact exists_congr fun t => and_congr (readMember_iff h hm hms.1 s t) (ih hms.2 t)

end

theorem ofItems_iff {fields : List (Field σ)} (h : FieldsByValue fields doubles overlooks)
    {rs : List Reading} {js : List Json}
    (hjs : List.Forall₂ (fun r j => Json.ofReading r = .ok j) rs js)
    (hrs : ∀ p ∈ fields.zip rs, ¬doubles p.1.name p.2) (index : Nat) (s u : σ) :
    shape.ofItems fields index rs none s = .ok u ↔
      shape.ofItems fields index (Reading.ofItems js) none s = .ok u := by
  induction fields generalizing rs js index s with
  | nil =>
    cases hjs with
    | nil => exact Iff.rfl
    | cons => exact iff_of_false (fun h => by cases h) (fun h => by cases h)
  | cons field fields ih =>
    cases hjs with
    | nil => exact Iff.rfl
    | cons hj hjs =>
      rw [List.zip_cons_cons, List.forall_mem_cons] at hrs
      obtain ⟨hfield, hfields⟩ := List.forall_mem_cons.mp h
      rw [ofItems, Reading.ofItems, ofItems, bind_eq_ok_iff, bind_eq_ok_iff]
      exact exists_congr fun t =>
        and_congr ((hfield s).same hrs.1 hj t) (ih hfields hjs hrs.2 (index + 1) t)

/-- A list that is read comes to its end, and has a field for each item, which can read it. -/
theorem of_ofItems {fields : List (Field σ)} {index : Nat} {rs : List Reading}
    {ending : Option Fault} {s u : σ} (h : shape.ofItems fields index rs ending s = .ok u) :
    ending = none ∧ rs.length ≤ fields.length ∧
      ∀ p ∈ fields.zip rs, ∃ t v, p.1.read p.2 t = .ok v := by
  induction fields generalizing index rs s with
  | nil =>
    cases rs with
    | nil => cases ending with
      | none => exact ⟨rfl, Nat.le_refl 0, by simp⟩
      | some f => cases h
    | cons r rs => cases h
  | cons field fields ih =>
    cases rs with
    | nil => cases ending with
      | none => exact ⟨rfl, by simp, by simp⟩
      | some f => cases h
    | cons r rs =>
      obtain ⟨t, ht, h⟩ := ok_of_bind h
      obtain ⟨hending, hlen, hrest⟩ := ih h
      refine ⟨hending, Nat.succ_le_succ hlen, ?_⟩
      rw [List.zip_cons_cons, List.forall_mem_cons]
      exact ⟨⟨s, t, ht⟩, hrest⟩

/-- A record of optional fields is read by way of a value if its fields are. -/
theorem byValue_decode (hoptional : ∀ field ∈ shape.fields, field.required = false)
    (h : FieldsByValue shape.fields doubles overlooks) :
    Decoder.ByValue shape.decode (shape.Doubles doubles) (shape.Overlooks overlooks) where
  refuses {r} hr u hu := by
    cases r with
    | leaf l => exact Decoder.refuse_ne_ok _ _ u hu
    | deep r => exact Decoder.refuse_ne_ok _ _ u hu
    | list rs ending =>
      obtain ⟨p, hp, hdoubles⟩ := hr.resolve_left id
      obtain ⟨-, -, hread⟩ := of_ofItems hu
      obtain ⟨s, t, ht⟩ := hread p hp
      exact (h p.1 (List.of_mem_zip hp).1 s).refuses hdoubles t ht
    | object ms ending =>
      obtain ⟨-, hnodup, hread⟩ := (decode_object_iff hoptional).mp hu
      rcases hr with hr | ⟨m, hm, field, hfield, hdoubles⟩
      · exact hr hnodup
      · obtain ⟨s, t, ht⟩ := exists_of_foldlM_ok hread m hm
        rw [readMember_of_field hfield] at ht
        exact (h field (mem_of_memberField? hfield) s).refuses hdoubles t ht
  same {r j} hr hj u := by
    cases r with
    | leaf l => rw [Json.ofJson_of_leaf hj]
    | deep r => cases hj
    | list rs ending =>
      obtain ⟨rfl, js, hjs, rfl⟩ := Json.ofReading_list_eq_ok_iff.mp hj
      exact ofItems_iff h hjs (fun p hp hd => hr (.inr ⟨p, hp, hd⟩)) 0 shape.blank u
    | object ms ending =>
      obtain ⟨rfl, given, hgiven, rfl⟩ := Json.ofReading_object_eq_ok_iff.mp hj
      have hnodup : (shape.memberKeys ms).Nodup := by
        by_contra hn
        exact hr (.inl hn)
      have hgivenNodup : (shape.fieldKeys given).Nodup := memberKeys_of_holds hgiven ▸ hnodup
      have hread := foldlM_readMember_iff h hgiven
        (fun m hm field hfield hd => hr (.inr ⟨m, hm, field, hfield, hd⟩)) shape.blank u
      rw [decode_object_iff hoptional, decode_ofJson_object_iff hoptional,
        foldlM_readEntry_ofList hgivenNodup, hread]
      simp only [hnodup, nodup_fieldKeys_ofList given, true_and]
  holds {r u} hr hu := by
    cases r with
    | leaf l => exact absurd hu (Decoder.refuse_ne_ok _ _ u)
    | deep r => exact absurd hu (Decoder.refuse_ne_ok _ _ u)
    | list rs ending =>
      obtain ⟨rfl, hlen, hread⟩ := of_ofItems hu
      have hitems : ∀ r ∈ rs, ∃ j, Json.ofReading r = .ok j := by
        intro r hr'
        rw [← List.map_snd_zip hlen] at hr'
        obtain ⟨p, hp, rfl⟩ := List.mem_map.mp hr'
        obtain ⟨s, t, ht⟩ := hread p hp
        exact (h p.1 (List.of_mem_zip hp).1 s).holds (fun ho => hr (.inr ⟨p, hp, ho⟩)) ht
      obtain ⟨js, hjs⟩ := exists_forall₂_iff.mpr hitems
      exact ⟨_, Json.ofReading_list_eq_ok_iff.mpr ⟨rfl, js, hjs, rfl⟩⟩
    | object ms ending =>
      obtain ⟨rfl, -, hread⟩ := (decode_object_iff hoptional).mp hu
      have hmembers : ∀ m ∈ ms, ∃ e, Json.HoldsEntry m e := by
        intro m hm
        obtain ⟨s, t, ht⟩ := exists_of_foldlM_ok hread m hm
        refine exists_holdsEntry h ht (fun hfield => ?_)
          fun field hfield ho => hr (.inr ⟨m, hm, field, hfield, ho⟩)
        by_contra hn
        exact hr (.inl ⟨m, hm, hfield, fun j hj => hn ⟨j, hj⟩⟩)
      obtain ⟨given, hgiven⟩ := exists_forall₂_iff.mpr hmembers
      exact ⟨_, Json.ofReading_object_eq_ok_iff.mpr ⟨rfl, given, hgiven, rfl⟩⟩
  empty {r} hr j hj := by
    cases r with
    | leaf l => exact hr.elim id id
    | deep r => cases hj
    | list rs ending =>
      obtain ⟨p, hp, ho⟩ := hr.resolve_left id
      obtain ⟨-, js, hjs, -⟩ := Json.ofReading_list_eq_ok_iff.mp hj
      obtain ⟨hfield, hitem⟩ := List.of_mem_zip hp
      obtain ⟨k, hk⟩ := exists_forall₂_iff.mp ⟨js, hjs⟩ p.2 hitem
      exact (h p.1 hfield shape.blank).empty ho k hk
    | object ms ending =>
      obtain ⟨-, given, hgiven, -⟩ := Json.ofReading_object_eq_ok_iff.mp hj
      have hvalues := exists_forall₂_iff.mp ⟨given, hgiven⟩
      rcases hr with ⟨m, hm, -, hnone⟩ | ⟨m, hm, field, hfield, ho⟩
      · obtain ⟨e, -, he⟩ := hvalues m hm
        exact hnone e.2 he
      · obtain ⟨e, -, he⟩ := hvalues m hm
        exact (h field (mem_of_memberField? hfield) shape.blank).empty ho e.2 he

end RecordShape

end ReportTheme
