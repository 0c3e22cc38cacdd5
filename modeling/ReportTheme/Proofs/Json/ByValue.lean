import Mathlib.Data.List.Forall2
import ReportTheme.Proofs.Json.Record

/-!
Decoding a reading directly, and by way of the JSON value that it holds. The two part in two places
only: a value keeps the last of what stands twice, where a record refuses it, and a reading may hold
no value for the sake of something that a record passes over.
-/
namespace ReportTheme

namespace Json

theorem ofItems_eq_ok_iff {rs : List Reading} {ending : Option Fault} {js : List Json} :
    ofItems rs ending = .ok js ↔
      ending = none ∧ List.Forall₂ (fun r j => ofReading r = .ok j) rs js := by
  induction rs generalizing js with
  | nil => cases ending <;> simp [ofItems, eq_comm]
  | cons r rs ih =>
    rw [ofItems, bind_eq_ok_iff]
    simp only [bind_eq_ok_iff, ih, pure, Except.pure, Except.ok.injEq, List.forall₂_cons_left_iff]
    constructor
    · rintro ⟨j, hj, js, ⟨hending, hjs⟩, rfl⟩
      exact ⟨hending, j, js, hj, hjs, rfl⟩
    · rintro ⟨hending, j, js, hj, hjs, rfl⟩
      exact ⟨j, hj, js, ⟨hending, hjs⟩, rfl⟩

theorem ofJson_of_leaf {l : Lexeme} {j : Json} (h : ofReading (.leaf l) = .ok j) :
    Reading.ofJson j = .leaf l := by
  rw [ofReading] at h
  unfold Lexeme.value at h
  split at h <;> cases h <;> rfl

/-- What holds the value of a lexeme is that lexeme. -/
theorem eq_leaf_of_ofReading {r : Reading} {j : Json} {l : Lexeme}
    (hj : Reading.ofJson j = .leaf l) (h : ofReading r = .ok j) : r = .leaf l := by
  cases r with
  | leaf m => rw [← ofJson_of_leaf h, hj]
  | list | object =>
    obtain ⟨_, -, rfl⟩ := ok_of_map h
    cases hj
  | deep => cases h

/-- A member with its key and value. -/
def HoldsEntry (m : Lexeme × Reading) (e : String × Json) : Prop :=
  m.1.keyText = .ok e.1 ∧ ofReading m.2 = .ok e.2

theorem ofMembers_eq_ok_iff {ms : List (Lexeme × Reading)} {ending : Option Fault}
    {before es : Entries Json} :
    ofMembers ms ending before = .ok es ↔
      ending = none ∧ ∃ given, List.Forall₂ HoldsEntry ms given ∧
        es = given.foldl (fun es e => Entries.insert es e.1 e.2) before := by
  induction ms generalizing before with
  | nil => cases ending <;> simp [ofMembers, eq_comm]
  | cons m ms ih =>
    obtain ⟨k, r⟩ := m
    rw [ofMembers, bind_eq_ok_iff]
    simp only [bind_eq_ok_iff, ih, List.forall₂_cons_left_iff, HoldsEntry]
    constructor
    · rintro ⟨key, hkey, j, hj, hending, given, hgiven, rfl⟩
      exact ⟨hending, _, ⟨(key, j), given, ⟨hkey, hj⟩, hgiven, rfl⟩, rfl⟩
    · rintro ⟨hending, _, ⟨⟨key, j⟩, given, ⟨hkey, hj⟩, hgiven, rfl⟩, rfl⟩
      exact ⟨key, hkey, j, hj, hending, given, hgiven, rfl⟩

theorem ofReading_list_eq_ok_iff {rs : List Reading} {ending : Option Fault} {j : Json} :
    ofReading (.list rs ending) = .ok j ↔
      ending = none ∧ ∃ js, List.Forall₂ (fun r j => ofReading r = .ok j) rs js ∧ j = .list js := by
  rw [ofReading, map_eq_ok_iff]
  simp only [ofItems_eq_ok_iff]
  constructor
  · rintro ⟨js, ⟨hending, hjs⟩, rfl⟩
    exact ⟨hending, js, hjs, rfl⟩
  · rintro ⟨hending, js, hjs, rfl⟩
    exact ⟨js, ⟨hending, hjs⟩, rfl⟩

theorem ofReading_object_eq_ok_iff {ms : List (Lexeme × Reading)} {ending : Option Fault}
    {j : Json} :
    ofReading (.object ms ending) = .ok j ↔
      ending = none ∧ ∃ given, List.Forall₂ HoldsEntry ms given ∧
        j = .object (Entries.ofList given) := by
  rw [ofReading, map_eq_ok_iff]
  simp only [ofMembers_eq_ok_iff]
  constructor
  · rintro ⟨es, ⟨hending, given, hgiven, rfl⟩, rfl⟩
    exact ⟨hending, given, hgiven, rfl⟩
  · rintro ⟨hending, given, hgiven, rfl⟩
    exact ⟨_, ⟨hending, given, hgiven, rfl⟩, rfl⟩

end Json

namespace Reading

theorem passedLeaf_of_value {l : Lexeme} {j : Json} (h : l.value = .ok j) :
    passedLeaf l = none := by
  cases l with
  | null | bool | number | string => rfl
  | _ => cases h

theorem passedKey_of_keyText {l : Lexeme} {key : String} (h : l.keyText = .ok key) :
    passedKey l = none := by
  unfold Lexeme.keyText at h
  split at h <;> cases h
  rfl

mutual

/-- What holds a value can be passed over. -/
theorem passed_of_ofReading : (r : Reading) → {j : Json} → Json.ofReading r = .ok j →
    r.passed = none
  | .leaf l, _, h => passedLeaf_of_value h
  | .list rs ending, _, h => by
    obtain ⟨js, hjs, -⟩ := ok_of_map h
    exact passedItems_of_ofItems rs hjs
  | .object ms ending, _, h => by
    obtain ⟨es, hes, -⟩ := ok_of_map h
    exact passedMembers_of_ofMembers ms hes
  | .deep r, _, h => by cases h

theorem passedItems_of_ofItems : (rs : List Reading) → {ending : Option Fault} → {js : List Json} →
    Json.ofItems rs ending = .ok js → passedItems rs ending = none
  | [], none, _, _ => rfl
  | [], some f, _, h => by cases h
  | r :: rs, ending, _, h => by
    obtain ⟨j, hj, h⟩ := ok_of_bind h
    obtain ⟨js, hjs, -⟩ := ok_of_bind h
    rw [passedItems, passed_of_ofReading r hj, passedItems_of_ofItems rs hjs]
    rfl

theorem passedMembers_of_ofMembers : (ms : List (Lexeme × Reading)) → {ending : Option Fault} →
    {before es : Entries Json} → Json.ofMembers ms ending before = .ok es →
    passedMembers ms ending = none
  | [], none, _, _, _ => rfl
  | [], some f, _, _, h => by cases h
  | (k, r) :: ms, ending, _, _, h => by
    obtain ⟨key, hkey, h⟩ := ok_of_bind h
    obtain ⟨j, hj, h⟩ := ok_of_bind h
    rw [passedMembers, passedKey_of_keyText hkey, passed_of_ofReading r hj,
      passedMembers_of_ofMembers ms h]
    rfl

end

end Reading

namespace Decoder

variable {α β : Type} {decode : Decoder α} {doubles overlooks : Reading → Prop}

/-- A decoder refuses a reading that doubles something, and makes of any other that holds a value
what it makes of the value. It can take one that holds none, but only by overlooking why. -/
structure ByValue (decode : Decoder α) (doubles overlooks : Reading → Prop) : Prop where
  refuses {r : Reading} : doubles r → ∀ a, decode r ≠ .ok a
  same {r : Reading} {j : Json} : ¬doubles r → Json.ofReading r = .ok j →
    ∀ a, decode r = .ok a ↔ decode (.ofJson j) = .ok a
  holds {r : Reading} {a : α} : ¬overlooks r → decode r = .ok a → ∃ j, Json.ofReading r = .ok j
  empty {r : Reading} : overlooks r → ∀ j, Json.ofReading r ≠ .ok j

theorem ByValue.map (h : ByValue decode doubles overlooks) (f : α → β) :
    ByValue (fun r => (decode r).map f) doubles overlooks where
  refuses hr b hb := by
    obtain ⟨a, ha, -⟩ := ok_of_map hb
    exact h.refuses hr a ha
  same hr hj b := by
    rw [map_eq_ok_iff, map_eq_ok_iff]
    exact exists_congr fun a => and_congr_left' (h.same hr hj a)
  holds hr hb := by
    obtain ⟨a, ha, -⟩ := ok_of_map hb
    exact h.holds hr ha
  empty := h.empty

/-- A decoder that only tells whether a reading holds a value of its kind. -/
theorem byValue_of_iff {kind : α → Json}
    (h : ∀ r a, decode r = .ok a ↔ Json.ofReading r = .ok (kind a)) :
    ByValue decode (fun _ => False) fun _ => False where
  refuses hr := hr.elim
  same {r j} _ hj a := by
    have hvalue := Json.ofReading_ofJson j (Json.keyed_of_ofReading r j hj)
    rw [h, h, hj, hvalue]
  holds {r a} _ ha := ⟨kind a, (h r a).mp ha⟩
  empty hr := hr.elim

theorem string_eq_ok_iff (r : Reading) (s : String) :
    string r = .ok s ↔ Json.ofReading r = .ok (.string s) := by
  unfold string
  split
  · simp [Json.ofReading, Lexeme.value]
  · rename_i hr
    exact iff_of_false (refuse_ne_ok _ r s) fun h => hr s (Json.eq_leaf_of_ofReading rfl h)

theorem ofFault_eq_ok_iff {x : Except Fault α} {a : α} : ofFault x = .ok a ↔ x = .ok a := by
  constructor
  · exact ok_of_ofFault
  · rintro rfl
    rfl

theorem entries_eq_ok_iff (r : Reading) (es : Entries Json) :
    entries r = .ok es ↔ Json.ofReading r = .ok (.object es) := by
  unfold entries
  split
  · rw [ofFault_eq_ok_iff, Json.ofReading, map_eq_ok_iff]
    simp
  · rename_i hr
    refine iff_of_false (refuse_ne_ok _ r es) fun h => ?_
    cases r with
    | leaf l => cases Json.ofJson_of_leaf h
    | list =>
      obtain ⟨_, -, h⟩ := ok_of_map h
      cases h
    | object ms ending => exact hr ms ending rfl
    | deep => cases h

theorem byValue_json : ByValue json (fun _ => False) fun _ => False :=
  byValue_of_iff fun _ _ => ofFault_eq_ok_iff

theorem byValue_string : ByValue string (fun _ => False) fun _ => False :=
  byValue_of_iff string_eq_ok_iff

theorem byValue_entries : ByValue entries (fun _ => False) fun _ => False :=
  byValue_of_iff entries_eq_ok_iff

/-- An object of several members. -/
def Crowded : Reading → Prop
  | .object (_ :: _ :: _) _ => True
  | _ => False

theorem ofReading_eq_null_iff {r : Reading} : Json.ofReading r = .ok .null ↔ r = .leaf .null := by
  constructor
  · exact Json.eq_leaf_of_ofReading rfl
  · rintro rfl
    rfl

section
variable (variants : List (String × α))

theorem variant_eq_ok_iff (s : String) (a : α) :
    variant variants s = .ok a ↔ Entries.get? variants s = some a := by
  rw [variant]
  cases Entries.get? variants s <;> simp

theorem choice_object_eq_ok_iff (k : Lexeme) (r : Reading) (ms : List (Lexeme × Reading))
    (ending : Option Fault) (a : α) :
    choice variants (.object ((k, r) :: ms) ending) = .ok a ↔
      (∃ s, k.keyText = .ok s ∧ Entries.get? variants s = some a) ∧ r = .leaf .null ∧ ms = [] ∧
        ending = none := by
  rw [choice]
  constructor
  · intro h
    obtain ⟨s, hs, h⟩ := ok_of_bind h
    obtain ⟨b, hb, h⟩ := ok_of_bind h
    dsimp only at h
    split at h
    · split at h
      · obtain rfl := Except.ok.inj h
        exact ⟨⟨s, ok_of_ofFault hs, (variant_eq_ok_iff variants s b).mp hb⟩, rfl, rfl, rfl⟩
      · cases h
      · cases h
    · obtain ⟨u, hu, -⟩ := ok_of_bind h
      exact absurd hu (refuse_ne_ok _ _ u)
  · rintro ⟨⟨s, hs, ha⟩, rfl, rfl, rfl⟩
    rw [bind_eq_ok_iff]
    refine ⟨s, ofFault_eq_ok_iff.mpr hs, ?_⟩
    rw [bind_eq_ok_iff]
    exact ⟨a, (variant_eq_ok_iff variants s a).mpr ha, rfl⟩

theorem byValue_choice : ByValue (choice variants) Crowded fun _ => False where
  refuses {r} hr a h := by
    cases r with
    | object ms ending =>
      match ms with
      | (k, r) :: m :: ms =>
        cases ((choice_object_eq_ok_iff variants k r _ ending a).mp h).2.2.1
    | _ => exact hr
  same {r j} hr hj a := by
    cases r with
    | leaf l => rw [Json.ofJson_of_leaf hj]
    | list rs ending =>
      obtain ⟨rfl, js, -, rfl⟩ := Json.ofReading_list_eq_ok_iff.mp hj
      exact iff_of_false (fun h => by cases h) (fun h => by cases h)
    | object ms ending =>
      obtain ⟨rfl, given, hgiven, rfl⟩ := Json.ofReading_object_eq_ok_iff.mp hj
      match ms, given, hgiven with
      | [], _, .nil => exact Iff.rfl
      | [(k, r)], [(key, v)], .cons ⟨hkey, hv⟩ .nil =>
        have hnull : r = .leaf .null ↔ Reading.ofJson v = .leaf .null := by
          rw [← ofReading_eq_null_iff, ← ofReading_eq_null_iff, hv,
            Json.ofReading_ofJson v (Json.keyed_of_ofReading r v hv)]
        have hsingle : Reading.ofJson (.object [(key, v)]) =
            .object [(.string (some key), .ofJson v)] none := rfl
        change choice variants (.object [(k, r)] none) = .ok a ↔
          choice variants (.ofJson (.object [(key, v)])) = .ok a
        rw [hsingle, choice_object_eq_ok_iff, choice_object_eq_ok_iff, hkey, hnull]
        rfl
      | _ :: _ :: _, _, _ => exact absurd trivial hr
    | deep => cases hj
  holds {r a} _ h := by
    unfold choice at h
    split at h
    · rename_i s
      exact ⟨.string s, rfl⟩
    · cases h
    · cases h
    · cases h
    · rename_i k r ms ending
      obtain ⟨⟨s, hs, -⟩, rfl, rfl, rfl⟩ := (choice_object_eq_ok_iff variants k r ms ending a).mp h
      have hmember : Json.HoldsEntry (k, .leaf .null) (s, .null) := ⟨hs, rfl⟩
      exact ⟨_, Json.ofReading_object_eq_ok_iff.mpr ⟨rfl, _, .cons hmember .nil, rfl⟩⟩
    · cases h
  empty hr := hr.elim

end

theorem optional_of_ne_null {r : Reading} {j : Json} (hr : r ≠ .leaf .null)
    (hj : Json.ofReading r = .ok j) : optional decode r = (decode r).map some := by
  unfold optional
  split
  · exact absurd rfl hr
  · cases hj
  · rfl

theorem ByValue.optional (h : ByValue decode doubles overlooks) (hnull : ¬doubles (.leaf .null)) :
    ByValue (optional decode) doubles overlooks where
  refuses {r} hr o ho := by
    unfold Decoder.optional at ho
    split at ho
    · exact hnull hr
    · cases ho
    · obtain ⟨a, ha, -⟩ := ok_of_map ho
      exact h.refuses hr a ha
  same {r j} hr hj o := by
    by_cases hleaf : r = .leaf .null
    · subst hleaf
      obtain rfl := Except.ok.inj hj
      exact Iff.rfl
    · have hvalue := Json.ofReading_ofJson j (Json.keyed_of_ofReading r j hj)
      have hother : Reading.ofJson j ≠ .leaf .null := fun he => by
        have hnull := ofReading_eq_null_iff.mpr he
        exact hleaf (ofReading_eq_null_iff.mp (hj.trans (hvalue.symm.trans hnull)))
      rw [optional_of_ne_null hleaf hj, optional_of_ne_null hother hvalue]
      exact (h.map some).same hr hj o
  holds {r o} hr ho := by
    unfold Decoder.optional at ho
    split at ho
    · exact ⟨_, rfl⟩
    · cases ho
    · obtain ⟨a, ha, -⟩ := ok_of_map ho
      exact h.holds hr ha
  empty := h.empty

end Decoder

end ReportTheme
