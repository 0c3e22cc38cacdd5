import ReportTheme.Proofs.Json.Decode

/-!
Records that are read from a JSON object, entry by entry. An object is accepted if it gives no field
twice and every entry of a field can be read; another value in the place of one field then changes
that field and nothing else.
-/
namespace ReportTheme

namespace Reading

mutual

theorem passed_ofJson : (j : Json) → passed (ofJson j) = none
  | .null | .bool _ | .number _ | .string _ => rfl
  | .list js => passedItems_ofItems js
  | .object es => passedMembers_ofEntries es

theorem passedItems_ofItems : (js : List Json) → passedItems (ofItems js) none = none
  | [] => rfl
  | j :: js => by
    rw [ofItems, passedItems, passed_ofJson j, passedItems_ofItems js]
    rfl

theorem passedMembers_ofEntries : (es : Entries Json) → passedMembers (ofEntries es) none = none
  | [] => rfl
  | (k, j) :: es => by
    rw [ofEntries, passedMembers, passed_ofJson j, passedMembers_ofEntries es]
    rfl

end

end Reading

namespace Field

variable {σ α : Type}

/-- Reading the field and a change of the record do not get in each other's way. -/
def Spares (field : Field σ) (f : σ → σ) : Prop :=
  ∀ r s u, field.read r s = .ok u → field.read r (f s) = .ok (f u)

theorem spares_mkOptional {name : String} {value : Decoder α} {put : α → σ → σ} {f : σ → σ}
    (h : ∀ a s, put a (f s) = f (put a s)) : (mkOptional name value put).Spares f := by
  intro r s u hread
  obtain ⟨a, ha, rfl⟩ := ok_of_map hread
  rw [← h a s]
  exact congrArg (Except.map (put · (f s))) ha

end Field

namespace RecordShape

variable {σ : Type} (shape : RecordShape σ)

def field? (key : String) : Option (Field σ) := shape.fields.find? fun field => field.name == key

theorem mem_of_field? {key : String} {field : Field σ} (h : shape.field? key = some field) :
    field ∈ shape.fields := List.mem_of_find?_eq_some h

theorem name_of_field? {key : String} {field : Field σ} (h : shape.field? key = some field) :
    field.name = key := by
  rw [field?] at h
  have hfound := List.find?_some h
  exact eq_of_beq hfound

/-- Reads an entry into a record, which one that belongs to no field leaves as it is. -/
def readEntry (s : σ) (e : String × Json) : Except DecodeError σ :=
  match shape.field? e.1 with
  | some field => field.read (.ofJson e.2) s
  | none => .ok s

def fieldKeys (es : Entries Json) : List String :=
  (Entries.keys es).filter fun key => (shape.field? key).isSome

theorem fieldKeys_cons (e : String × Json) (es : Entries Json) :
    shape.fieldKeys (e :: es) =
      if (shape.field? e.1).isSome then e.1 :: shape.fieldKeys es else shape.fieldKeys es := by
  rw [fieldKeys, Entries.keys, List.map_cons, List.filter_cons]
  rfl

theorem fieldKeys_append (a b : Entries Json) :
    shape.fieldKeys (a ++ b) = shape.fieldKeys a ++ shape.fieldKeys b := by
  rw [fieldKeys, Entries.keys, List.map_append, List.filter_append]
  rfl

/-- The fields that members give, in order. -/
def memberKeys (ms : List (Lexeme × Reading)) : List String :=
  (ms.filterMap fun m => m.1.keyText.toOption).filter fun key => (shape.field? key).isSome

/-- Reads a member into a record, and passes over one that belongs to no field. -/
def readMember (s : σ) (m : Lexeme × Reading) : Except DecodeError σ := do
  let key ← Decoder.ofFault m.1.keyText
  match shape.field? key with
  | some field => field.read m.2 s
  | none =>
    match m.2.passed with
    | some f => .error (.fault f)
    | none => .ok s

theorem memberKeys_cons {m : Lexeme × Reading} {key : String} (h : m.1.keyText = .ok key)
    (ms : List (Lexeme × Reading)) : shape.memberKeys (m :: ms) =
      if (shape.field? key).isSome then key :: shape.memberKeys ms else shape.memberKeys ms := by
  have hkey : m.1.keyText.toOption = some key := by rw [h]; rfl
  rw [memberKeys, List.filterMap_cons, hkey]
  exact List.filter_cons

theorem memberKeys_ofEntries (es : Entries Json) :
    shape.memberKeys (Reading.ofEntries es) = shape.fieldKeys es := by
  induction es with
  | nil => rfl
  | cons e es ih =>
    obtain ⟨k, j⟩ := e
    rw [Reading.ofEntries, memberKeys_cons shape rfl, ih, fieldKeys_cons]

theorem foldlM_readMember_ofEntries (es : Entries Json) (s : σ) :
    (Reading.ofEntries es).foldlM shape.readMember s = es.foldlM shape.readEntry s := by
  induction es generalizing s with
  | nil => rfl
  | cons e es ih =>
    obtain ⟨k, j⟩ := e
    have hread : shape.readMember s (.string (some k), .ofJson j) = shape.readEntry s (k, j) := by
      have hkey : Decoder.ofFault (Lexeme.string (some k)).keyText = .ok k := rfl
      rw [readMember, hkey, readEntry, Reading.passed_ofJson]
      rfl
    rw [Reading.ofEntries, List.foldlM_cons, List.foldlM_cons, hread]
    exact congrArg _ (funext ih)

variable {shape} {ms : List (Lexeme × Reading)} {ending : Option Fault} {es : Entries Json}
  {seen : List String} {s u : σ}

/-- An object of optional fields is read if it comes to its end, gives no field twice and all its
members can be read. -/
theorem ofMembers_eq_ok_iff (hoptional : ∀ field ∈ shape.fields, field.required = false) :
    shape.ofMembers ms ending seen s = .ok u ↔
      ending = none ∧ (shape.memberKeys ms).Nodup ∧ (∀ key ∈ shape.memberKeys ms, key ∉ seen) ∧
      ms.foldlM shape.readMember s = .ok u := by
  induction ms generalizing seen s with
  | nil =>
    cases ending with
    | some f => exact iff_of_false (by simp [ofMembers]) (by simp)
    | none =>
      rw [ofMembers_nil hoptional]
      exact ⟨fun h => ⟨rfl, List.nodup_nil, by simp [memberKeys], h⟩, fun h => h.2.2.2⟩
  | cons m ms ih =>
    obtain ⟨k, r⟩ := m
    rw [ofMembers, List.foldlM_cons, readMember]
    cases hk : k.keyText with
    | error f =>
      have hfault : Decoder.ofFault (Except.error f : Except Fault String) = .error (.fault f) := rfl
      rw [hfault]
      exact iff_of_false (fun h => by cases h) fun h => by cases h.2.2.2
    | ok key =>
      have hkey : Decoder.ofFault (Except.ok key : Except Fault String) = .ok key := rfl
      rw [memberKeys_cons shape hk, hkey]
      dsimp only [bind, Except.bind]
      rw [← field?]
      cases shape.field? key with
      | none =>
        dsimp only
        cases r.passed with
        | some f => exact iff_of_false (by simp) (by simp)
        | none => exact ih
      | some field =>
        dsimp only
        rw [if_pos (Option.isSome_some)]
        by_cases hseen : key ∈ seen
        · rw [if_pos (List.contains_iff_mem.mpr hseen)]
          exact iff_of_false (by simp [throw, throwThe, MonadExceptOf.throw])
            fun h => h.2.2.1 key List.mem_cons_self hseen
        · rw [if_neg (by simpa using hseen)]
          cases field.read r s with
          | error e => exact iff_of_false (by simp) (by simp)
          | ok t =>
            rw [ih, List.nodup_cons, List.forall_mem_cons]
            simp only [List.mem_cons, not_or]
            constructor
            · rintro ⟨hending, hnodup, hnew, hread⟩
              exact ⟨hending, ⟨fun hk => (hnew key hk).1 rfl, hnodup⟩,
                ⟨hseen, fun l hl => (hnew l hl).2⟩, hread⟩
            · rintro ⟨hending, ⟨hk, hnodup⟩, ⟨-, hnew⟩, hread⟩
              exact ⟨hending, hnodup, fun l hl => ⟨fun hlk => hk (hlk ▸ hl), hnew l hl⟩, hread⟩

theorem decode_object_iff (hoptional : ∀ field ∈ shape.fields, field.required = false) :
    shape.decode (.object ms ending) = .ok u ↔
      ending = none ∧ (shape.memberKeys ms).Nodup ∧
      ms.foldlM shape.readMember shape.blank = .ok u := by
  rw [decode, ofMembers_eq_ok_iff hoptional]
  simp only [List.not_mem_nil, not_false_eq_true, implies_true, true_and]

theorem decode_ofJson_object_iff (hoptional : ∀ field ∈ shape.fields, field.required = false) :
    shape.decode (.ofJson (.object es)) = .ok u ↔
      (shape.fieldKeys es).Nodup ∧ es.foldlM shape.readEntry shape.blank = .ok u := by
  rw [Reading.ofJson, decode_object_iff hoptional, memberKeys_ofEntries,
    foldlM_readMember_ofEntries]
  exact and_iff_right rfl

/-- A change that every field on the way spares can as well be made before. -/
theorem foldlM_readEntry_spares {f : σ → σ}
    (h : ∀ e ∈ es, ∀ field, shape.field? e.1 = some field → field.Spares f)
    (hread : es.foldlM shape.readEntry s = .ok u) :
    es.foldlM shape.readEntry (f s) = .ok (f u) := by
  induction es generalizing s with
  | nil => exact congrArg (Except.map f) hread
  | cons e es ih =>
    rw [List.forall_mem_cons] at h
    rw [List.foldlM_cons] at hread ⊢
    obtain ⟨t, ht, hread⟩ := ok_of_bind hread
    have hentry : shape.readEntry (f s) e = .ok (f t) := by
      rw [readEntry] at ht ⊢
      cases hfield : shape.field? e.1 with
      | none =>
        rw [hfield] at ht
        exact congrArg (Except.map f) ht
      | some field =>
        rw [hfield] at ht
        exact h.1 field hfield _ _ _ ht
    rw [hentry]
    exact ih h.2 hread

theorem nodup_fieldKeys_insert (h : (shape.fieldKeys es).Nodup) (key : String) (j : Json) :
    (shape.fieldKeys (Entries.insert es key j)).Nodup := by
  rw [fieldKeys, Entries.keys_insert]
  split
  · exact h
  · rename_i hnew
    rw [List.filter_append, List.nodup_append]
    refine ⟨h, List.filter_sublist.nodup (by simp), fun k hk l hl hkl => hnew ?_⟩
    obtain rfl := List.mem_singleton.mp (List.mem_filter.mp hl).1
    exact hkl ▸ (List.mem_filter.mp hk).1

section
variable {α : Type} {name : String} {value : Decoder α} {put : α → σ → σ} {a : α} {x : Json}

theorem readEntry_of_field (hfield : shape.field? name = some (.mkOptional name value put))
    (hx : value (.ofJson x) = .ok a) (s : σ) : shape.readEntry s (name, x) = .ok (put a s) := by
  rw [readEntry, hfield]
  exact congrArg (Except.map (put · s)) hx

/-- Another value of one field, in the place of the old one or added, leaves a record that can be
read readable and changes it by that field. -/
theorem decode_insert (hoptional : ∀ field ∈ shape.fields, field.required = false)
    (hfield : shape.field? name = some (.mkOptional name value put))
    (hspares : ∀ field ∈ shape.fields, field.name ≠ name → field.Spares (put a))
    (hlast : ∀ b s, put a (put b s) = put a s) (hx : value (.ofJson x) = .ok a)
    (h : shape.decode (.ofJson (.object es)) = .ok s) :
    shape.decode (.ofJson (.object (Entries.insert es name x))) = .ok (put a s) := by
  obtain ⟨hnodup, hread⟩ := (decode_ofJson_object_iff hoptional).mp h
  refine (decode_ofJson_object_iff hoptional).mpr ⟨nodup_fieldKeys_insert hnodup name x, ?_⟩
  have hentry := readEntry_of_field hfield hx
  rcases Entries.insert_cases es name x with ⟨-, hes⟩ | ⟨before, old, after, rfl, hes⟩
  · rw [hes, List.foldlM_append, hread]
    change shape.readEntry s (name, x) >>= pure = _
    rw [hentry]
    rfl
  · rw [List.foldlM_append] at hread
    obtain ⟨t, ht, hread⟩ := ok_of_bind hread
    rw [List.foldlM_cons] at hread
    obtain ⟨v, hv, hread⟩ := ok_of_bind hread
    have hput : put a v = put a t := by
      rw [readEntry, hfield] at hv
      obtain ⟨b, -, rfl⟩ := ok_of_map hv
      exact hlast b t
    -- the field is given once, so no entry after this one is of it
    have hafter : ∀ e ∈ after, ∀ field, shape.field? e.1 = some field → field.Spares (put a) := by
      intro e he field hf
      refine hspares field (shape.mem_of_field? hf) fun hname => ?_
      have hkey : e.1 = name := (shape.name_of_field? hf).symm.trans hname
      have hknown : (shape.field? name).isSome = true := by rw [hfield]; rfl
      rw [fieldKeys_append, fieldKeys_cons, if_pos hknown] at hnodup
      refine (List.nodup_cons.mp (List.nodup_append.mp hnodup).2.1).1 ?_
      have hmem : e.1 ∈ Entries.keys after := List.mem_map_of_mem he
      exact List.mem_filter.mpr ⟨hkey ▸ hmem, hknown⟩
    rw [hes, List.foldlM_append, ht]
    change shape.readEntry t (name, x) >>= after.foldlM shape.readEntry = _
    rw [hentry, ← hput]
    exact foldlM_readEntry_spares hafter hread

end

end RecordShape

end ReportTheme
