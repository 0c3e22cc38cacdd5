import ReportTheme.Json.Record
import ReportTheme.Proofs.Entries

/-!
What decoding makes of a reading. A decoded value repeats no key, and a value that repeats none is
decoded from its own reading. A record has what its fields put into it, and one that is written
field by field is read back field by field.
-/
namespace ReportTheme

theorem ok_of_bind {ε α β : Type} {x : Except ε α} {f : α → Except ε β} {b : β}
    (h : (x >>= f) = .ok b) : ∃ a, x = .ok a ∧ f a = .ok b := by
  cases x with
  | error e => cases h
  | ok a => exact ⟨a, rfl, h⟩

theorem ok_of_map {ε α β : Type} {x : Except ε α} {f : α → β} {b : β} (h : x.map f = .ok b) :
    ∃ a, x = .ok a ∧ f a = b := by
  cases x with
  | error e => cases h
  | ok a => exact ⟨a, rfl, Except.ok.inj h⟩

theorem bind_eq_ok_iff {ε α β : Type} {x : Except ε α} {f : α → Except ε β} {b : β} :
    (x >>= f) = .ok b ↔ ∃ a, x = .ok a ∧ f a = .ok b := by
  constructor
  · exact ok_of_bind
  · rintro ⟨a, rfl, h⟩
    exact h

theorem map_eq_ok_iff {ε α β : Type} {x : Except ε α} {f : α → β} {b : β} :
    x.map f = .ok b ↔ ∃ a, x = .ok a ∧ f a = b := by
  constructor
  · exact ok_of_map
  · rintro ⟨a, rfl, rfl⟩
    rfl

theorem bind_throw_if_eq_ok_iff {ε α : Type} {x : Except ε α} {c : Bool} {e : ε} {a : α} :
    (do let b ← x; if c then throw e else return b) = .ok a ↔ x = .ok a ∧ c = false := by
  rw [bind_eq_ok_iff]
  cases c with
  | false => simp [pure, Except.pure]
  | true => simp [throw, throwThe, MonadExceptOf.throw]

theorem ok_of_ofFault {α : Type} {x : Except Fault α} {a : α} (h : Decoder.ofFault x = .ok a) :
    x = .ok a := by
  cases x with
  | error f => cases h
  | ok b => exact congrArg Except.ok (Except.ok.inj h)

namespace Json

mutual

/-- Whether every object of a value holds each of its keys once. -/
def keyed : Json → Bool
  | .list items => keyedItems items
  | .object entries => decide (Entries.Distinct entries) && keyedEntries entries
  | _ => true

def keyedItems : List Json → Bool
  | [] => true
  | j :: js => keyed j && keyedItems js

def keyedEntries : List (String × Json) → Bool
  | [] => true
  | (_, j) :: es => keyed j && keyedEntries es

end

/-- Entries of an object that hold each of their keys once, at every depth. -/
abbrev KeyedEntries (es : Entries Json) : Prop := Entries.Keyed (fun j => j.keyed = true) es

theorem keyedEntries_iff (es : Entries Json) :
    keyedEntries es = true ↔ ∀ e ∈ es, e.2.keyed = true := by
  induction es with
  | nil => simp [keyedEntries]
  | cons e es ih => simp [keyedEntries, ih]

theorem keyed_object_iff (es : Entries Json) : (Json.object es).keyed = true ↔ KeyedEntries es := by
  rw [keyed, Bool.and_eq_true, decide_eq_true_eq, keyedEntries_iff]
  exact ⟨fun h => ⟨h.1, h.2⟩, fun h => ⟨h.1, h.2⟩⟩

mutual

theorem keyed_of_ofReading : (r : Reading) → (j : Json) → ofReading r = .ok j → j.keyed = true
  | .leaf l, j, h => by
    rw [ofReading] at h
    unfold Lexeme.value at h
    split at h <;> cases h <;> rfl
  | .list items ending, j, h => by
    obtain ⟨js, hjs, rfl⟩ := ok_of_map h
    exact keyedItems_of_ofItems items ending js hjs
  | .object members ending, j, h => by
    obtain ⟨es, hes, rfl⟩ := ok_of_map h
    exact (keyed_object_iff es).mpr
      (keyed_of_ofMembers members ending [] es (Entries.keyed_nil _) hes)
  | .deep r, j, h => by cases h

theorem keyedItems_of_ofItems : (rs : List Reading) → (ending : Option Fault) → (js : List Json) →
    ofItems rs ending = .ok js → keyedItems js = true
  | [], none, js, h => by
    obtain rfl := Except.ok.inj h
    rfl
  | [], some f, js, h => by cases h
  | r :: rs, ending, js, h => by
    obtain ⟨j, hj, h⟩ := ok_of_bind h
    obtain ⟨others, hothers, h⟩ := ok_of_bind h
    obtain rfl := Except.ok.inj h
    rw [keyedItems, keyed_of_ofReading r j hj, keyedItems_of_ofItems rs ending others hothers]
    rfl

theorem keyed_of_ofMembers : (ms : List (Lexeme × Reading)) → (ending : Option Fault) →
    (before es : Entries Json) → KeyedEntries before → ofMembers ms ending before = .ok es →
    KeyedEntries es
  | [], none, before, es, hb, h => Except.ok.inj h ▸ hb
  | [], some f, before, es, _, h => by cases h
  | (k, r) :: ms, ending, before, es, hb, h => by
    obtain ⟨key, -, h⟩ := ok_of_bind h
    obtain ⟨j, hj, h⟩ := ok_of_bind h
    exact keyed_of_ofMembers ms ending _ es (hb.insert key (keyed_of_ofReading r j hj)) h

end

mutual

/-- A value is decoded from its own reading. -/
theorem ofReading_ofJson : (j : Json) → j.keyed = true → ofReading (.ofJson j) = .ok j
  | .null, _ | .bool _, _ | .number _, _ | .string _, _ => rfl
  | .list js, h => by
    rw [keyed] at h
    rw [Reading.ofJson, ofReading, ofItems_ofItems js h]
    rfl
  | .object es, h => by
    rw [keyed, Bool.and_eq_true, decide_eq_true_eq] at h
    rw [Reading.ofJson, ofReading, ofMembers_ofEntries es [] h.1 h.2]
    rfl

theorem ofItems_ofItems : (js : List Json) → keyedItems js = true →
    ofItems (Reading.ofItems js) none = .ok js
  | [], _ => rfl
  | j :: js, h => by
    rw [keyedItems, Bool.and_eq_true] at h
    rw [Reading.ofItems, ofItems, ofReading_ofJson j h.1, ofItems_ofItems js h.2]
    rfl

theorem ofMembers_ofEntries : (es before : Entries Json) → Entries.Distinct (before ++ es) →
    keyedEntries es = true → ofMembers (Reading.ofEntries es) none before = .ok (before ++ es)
  | [], before, _, _ => by
    rw [Reading.ofEntries, ofMembers, List.append_nil]
  | (k, j) :: es, before, hd, h => by
    rw [keyedEntries, Bool.and_eq_true] at h
    have hk : k ∉ Entries.keys before := by
      intro hk
      rw [Entries.Distinct, Entries.keys, List.map_append, List.nodup_append] at hd
      exact hd.2.2 k hk k (by simp) rfl
    have hinsert : Entries.insert before k j = before ++ [(k, j)] := Entries.upsert_of_not_mem hk _
    have hrest := ofMembers_ofEntries es (before ++ [(k, j)]) (by simpa using hd) h.2
    rw [List.append_assoc, List.singleton_append, ← hinsert] at hrest
    rw [Reading.ofEntries, ofMembers, ofReading_ofJson j h.1]
    exact hrest

end

end Json

theorem Decoder.refuse_ne_ok {α : Type} (expected : String) (r : Reading) (a : α) :
    refuse expected r ≠ .ok a := by
  intro h
  obtain ⟨found, -, h⟩ := ok_of_bind h
  cases h

theorem Field.invariant_of_read {σ α : Type} {P : σ → Prop} {name : String} {value : Decoder α}
    {put : α → σ → σ} (h : ∀ r a, value r = .ok a → ∀ s, P s → P (put a s)) (r : Reading) (s s' : σ)
    (hs : P s) (hread : (Field.mkOptional name value put).read r s = .ok s') : P s' := by
  obtain ⟨a, ha, rfl⟩ := ok_of_map hread
  exact h r a ha s hs

namespace RecordShape

variable {σ : Type} {shape : RecordShape σ}

section
variable {P : σ → Prop}

theorem invariant_of_ofMembers
    (hfields : ∀ field ∈ shape.fields, ∀ r s s', P s → field.read r s = .ok s' → P s')
    {ms : List (Lexeme × Reading)} {ending : Option Fault} {seen : List String} {s s' : σ}
    (hs : P s) (h : shape.ofMembers ms ending seen s = .ok s') : P s' := by
  induction ms generalizing seen s with
  | nil =>
    cases ending with
    | some f => cases h
    | none =>
      rw [ofMembers] at h
      split at h
      · cases h
      · exact Except.ok.inj h ▸ hs
  | cons m ms ih =>
    obtain ⟨k, r⟩ := m
    rw [ofMembers] at h
    obtain ⟨key, -, h⟩ := ok_of_bind h
    split at h
    · rename_i field hfield
      split at h
      · cases h
      · obtain ⟨t, ht, h⟩ := ok_of_bind h
        exact ih (hfields field (List.mem_of_find?_eq_some hfield) r s t hs ht) h
    · split at h
      · cases h
      · exact ih hs h

theorem invariant_of_ofItems {fields : List (Field σ)}
    (hfields : ∀ field ∈ fields, ∀ r s s', P s → field.read r s = .ok s' → P s')
    {index : Nat} {rs : List Reading} {ending : Option Fault} {s s' : σ}
    (hs : P s) (h : shape.ofItems fields index rs ending s = .ok s') : P s' := by
  induction fields generalizing index rs s with
  | nil =>
    cases rs with
    | nil =>
      cases ending with
      | some f => cases h
      | none => exact Except.ok.inj h ▸ hs
    | cons r rs => cases h
  | cons field fields ih =>
    have hrest := fun f hf => hfields f (List.mem_cons_of_mem field hf)
    cases rs with
    | nil =>
      cases ending with
      | some f => cases h
      | none =>
        rw [ofItems] at h
        split at h
        · cases h
        · exact ih hrest hs h
    | cons r rs =>
      obtain ⟨t, ht, h⟩ := ok_of_bind h
      exact ih hrest (hfields field (by simp) r s t hs ht) h

/-- What the blank record has and every field keeps, a decoded record has. -/
theorem invariant_of_decode (hblank : P shape.blank)
    (hfields : ∀ field ∈ shape.fields, ∀ r s s', P s → field.read r s = .ok s' → P s')
    {r : Reading} {s : σ} (h : shape.decode r = .ok s) : P s := by
  unfold decode at h
  split at h
  · exact invariant_of_ofItems hfields hblank h
  · exact invariant_of_ofMembers hfields hblank h
  · exact absurd h (Decoder.refuse_ne_ok _ _ s)

end

/-- The members of an object that gives some of the fields, in order. -/
def written : List (Field σ) → List (Option Json) → Entries Json
  | field :: fields, some j :: values => (field.name, j) :: written fields values
  | _ :: fields, none :: values => written fields values
  | _, _ => []

/-- Reads the given fields one after the other. -/
def readAll : List (Field σ) → List (Option Json) → σ → Except DecodeError σ
  | field :: fields, some j :: values, s => do readAll fields values (← field.read (.ofJson j) s)
  | _ :: fields, none :: values, s => readAll fields values s
  | _, _, s => .ok s

theorem ofMembers_nil (hoptional : ∀ field ∈ shape.fields, field.required = false)
    (seen : List String) (s : σ) : shape.ofMembers [] none seen s = .ok s := by
  have hnone : shape.fields.find? (fun field => field.required && !seen.contains field.name) =
      none := List.find?_eq_none.mpr fun field hf => by simp [hoptional field hf]
  rw [ofMembers, hnone]

theorem ofMembers_written (hoptional : ∀ field ∈ shape.fields, field.required = false)
    (hd : (shape.fields.map Field.name).Nodup) {before fields : List (Field σ)}
    (hfields : shape.fields = before ++ fields) (values : List (Option Json)) {seen : List String}
    (hseen : ∀ name ∈ seen, name ∈ before.map Field.name) (s : σ) :
    shape.ofMembers (Reading.ofEntries (written fields values)) none seen s =
      readAll fields values s := by
  have hend := ofMembers_nil hoptional
  induction fields generalizing before values seen s with
  | nil => exact hend seen s
  | cons field fields ih =>
    have hsplit : shape.fields = (before ++ [field]) ++ fields := by simp [hfields]
    have hbefore : field.name ∉ before.map Field.name := by
      rw [hfields, List.map_append, List.map_cons, List.nodup_append] at hd
      intro hm
      exact hd.2.2 _ hm field.name (by simp) rfl
    cases values with
    | nil => exact hend seen s
    | cons value values =>
      cases value with
      | none => exact ih hsplit values (fun name hn => by simp [hseen name hn]) s
      | some j =>
        have hfind : shape.fields.find? (fun f => f.name == field.name) = some field := by
          have hnone : before.find? (fun f => f.name == field.name) = none :=
            List.find?_eq_none.mpr fun f hf hname =>
              hbefore (eq_of_beq hname ▸ List.mem_map_of_mem hf)
          rw [hfields, List.find?_append, hnone, Option.none_or, List.find?_cons_of_pos (by simp)]
        have hnew : seen.contains field.name = false := by
          rw [Bool.eq_false_iff, ne_eq, List.contains_iff_mem]
          exact fun hm => hbefore (hseen _ hm)
        have hkey : Decoder.ofFault (Lexeme.string (some field.name)).keyText = .ok field.name :=
          rfl
        rw [written, Reading.ofEntries, ofMembers, hkey, readAll]
        dsimp only [bind, Except.bind]
        rw [hfind]
        dsimp only
        rw [hnew]
        cases field.read (.ofJson j) s with
        | error e => rfl
        | ok t =>
          refine ih hsplit values (fun name hn => ?_) t
          rcases List.mem_cons.mp hn with rfl | hn
          · simp
          · simp [hseen name hn]

/-- A record of optional fields is read back field by field. -/
theorem decode_written (hoptional : ∀ field ∈ shape.fields, field.required = false)
    (hd : (shape.fields.map Field.name).Nodup) (values : List (Option Json)) :
    shape.decode (.ofJson (.object (written shape.fields values))) =
      readAll shape.fields values shape.blank :=
  ofMembers_written hoptional hd (List.nil_append _).symm values (by simp) shape.blank

end RecordShape

end ReportTheme
