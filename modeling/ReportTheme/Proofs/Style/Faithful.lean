import ReportTheme.Proofs.Style.Reference

/-!
Which values come back from their JSON, whatever built them: those in which, at every depth, each
string is of the kind that its form stands for and no group has the form of a data color reference.
-/
namespace ReportTheme

/-- A text that starts with the sigil of token references. -/
def HasSigil (s : String) : Prop := ∃ rest, s.toList = '@' :: rest

/-- A number sign and 3, 4, 6 or 8 hexadecimal digits. -/
def HexForm (s : String) : Prop :=
  ∃ digits, s.toList = '#' :: digits ∧ digits.length ∈ [3, 4, 6, 8] ∧
    ∀ c ∈ digits, isHexDigit c = true

theorem isReference_iff (s : String) : Token.isReference s = true ↔ HasSigil s := by
  rw [Token.isReference, decide_eq_true_eq, List.head?_eq_some_iff, HasSigil]

theorem isHexLiteral_iff (s : String) : isHexLiteral s = true ↔ HexForm s := by
  rw [isHexLiteral, HexForm]
  constructor
  · intro h
    split at h
    · rename_i digits hs
      rw [Bool.and_eq_true, List.contains_iff_mem, List.all_eq_true] at h
      exact ⟨digits, hs, h⟩
    · cases h
  · rintro ⟨digits, hs, hlen, hdigits⟩
    rw [hs]
    change ([3, 4, 6, 8].contains digits.length && digits.all isHexDigit) = true
    rw [Bool.and_eq_true, List.contains_iff_mem, List.all_eq_true]
    exact ⟨hlen, hdigits⟩

namespace Value

/-- A value stands in another one at some depth, or is that one. -/
inductive Within : Value → Value → Prop
  | self (v : Value) : Within v v
  | item {w v : Value} {vs : List Value} : v ∈ vs → Within w v → Within w (.list vs)
  | entry {w : Value} {e : String × Value} {es : List (String × Value)} :
      e ∈ es → Within w e.2 → Within w (.group es)

/-- A string of the kind that its form stands for, or a group that is not of the form of a data
color reference; the values in it do not count. -/
def Faithful : Value → Prop
  | .color (.token s) => HasSigil s
  | .color (.hex s) => ¬HasSigil s ∧ HexForm s
  | .text s => ¬HasSigil s ∧ ¬HexForm s
  | .group es => ∀ index percent, ¬Bag.RefersTo es index percent
  | _ => True

section
variable {P : Value → Prop}

theorem forall_within_list (vs : List Value) :
    (∀ w, Within w (.list vs) → P w) ↔ P (.list vs) ∧ ∀ v ∈ vs, ∀ w, Within w v → P w := by
  constructor
  · intro h
    exact ⟨h _ (.self _), fun v hv w hw => h w (.item hv hw)⟩
  · rintro ⟨hself, hitems⟩ w hw
    cases hw with
    | self => exact hself
    | item hv hw => exact hitems _ hv w hw

theorem forall_within_group (es : List (String × Value)) :
    (∀ w, Within w (.group es) → P w) ↔ P (.group es) ∧ ∀ e ∈ es, ∀ w, Within w e.2 → P w := by
  constructor
  · intro h
    exact ⟨h _ (.self _), fun e he w hw => h w (.entry he hw)⟩
  · rintro ⟨hself, hentries⟩ w hw
    cases hw with
    | self => exact hself
    | entry he hw => exact hentries _ he w hw

end

theorem faithful_color_iff (c : Color) :
    (Value.color c).Faithful ↔ (Value.color c).classified = true := by
  cases c with
  | token s => rw [Faithful, classified, isReference_iff]
  | hex s =>
    rw [Faithful, classified, Bool.and_eq_true, Bool.not_eq_true', ← isHexLiteral_iff,
      ← isReference_iff, Bool.not_eq_true]
  | themeData index percent => exact iff_of_true trivial rfl

theorem faithful_text_iff (s : String) :
    (Value.text s).Faithful ↔ (Value.text s).classified = true := by
  rw [Faithful, classified, Bool.and_eq_true, Bool.not_eq_true', Bool.not_eq_true',
    ← isHexLiteral_iff, ← isReference_iff, Bool.not_eq_true, Bool.not_eq_true]

theorem faithful_group_iff (es : Bag) :
    (Value.group es).Faithful ↔ Bag.isColorReference es = false := by
  rw [Bool.eq_false_iff, ne_eq, Bag.isColorReference_iff, Faithful]
  simp only [not_exists]

/-- Where nothing stands in a value but itself. -/
theorem forall_within_leaf {P : Value → Prop} {v : Value} (hlist : ∀ vs, v ≠ .list vs)
    (hgroup : ∀ es, v ≠ .group es) : (∀ w, Within w v → P w) ↔ P v := by
  constructor
  · intro h
    exact h v (.self v)
  · intro h w hw
    cases hw with
    | self => exact h
    | item => exact absurd rfl (hlist _)
    | entry => exact absurd rfl (hgroup _)

mutual

theorem faithful_within_iff : (v : Value) →
    ((∀ w, Within w v → w.Faithful) ↔ v.classified = true ∧ v.plain = true)
  | .color c => by
    rw [forall_within_leaf (by simp) (by simp), faithful_color_iff]
    exact (and_iff_left rfl).symm
  | .text s => by
    rw [forall_within_leaf (by simp) (by simp), faithful_text_iff]
    exact (and_iff_left rfl).symm
  | .number _ | .bool _ | .null => by
    rw [forall_within_leaf (by simp) (by simp)]
    exact iff_of_true trivial ⟨rfl, rfl⟩
  | .list vs => by
    rw [forall_within_list, classified, plain, ← faithful_withinItems_iff vs]
    exact and_iff_right trivial
  | .group es => by
    rw [forall_within_group, classified, plain, Bool.and_eq_true, Bool.not_eq_true',
      faithful_group_iff, faithful_withinEntries_iff es, and_left_comm]

theorem faithful_withinItems_iff : (vs : List Value) →
    ((∀ v ∈ vs, ∀ w, Within w v → w.Faithful) ↔
      classifiedItems vs = true ∧ plainItems vs = true)
  | [] => iff_of_true (by simp) ⟨rfl, rfl⟩
  | v :: vs => by
    rw [List.forall_mem_cons, faithful_within_iff v, faithful_withinItems_iff vs, classifiedItems,
      plainItems, Bool.and_eq_true, Bool.and_eq_true, and_and_and_comm]

theorem faithful_withinEntries_iff : (es : List (String × Value)) →
    ((∀ e ∈ es, ∀ w, Within w e.2 → w.Faithful) ↔
      classifiedEntries es = true ∧ plainEntries es = true)
  | [] => iff_of_true (by simp) ⟨rfl, rfl⟩
  | (k, v) :: es => by
    rw [List.forall_mem_cons, faithful_within_iff v, faithful_withinEntries_iff es,
      classifiedEntries, plainEntries, Bool.and_eq_true, Bool.and_eq_true, and_and_and_comm]

end

/-- A value comes back from its JSON as an equal one just if every value in it is faithful, and then
it comes back as it was, the order of keys included. -/
theorem comesBack_iff {v : Value} (hv : v.keyed = true) :
    ((ofJson v.toJson).equal v = true ↔ ∀ w, Within w v → w.Faithful) ∧
    ((∀ w, Within w v → w.Faithful) → ofJson v.toJson = v) := by
  have hsame : (∀ w, Within w v → w.Faithful) → ofJson v.toJson = v := by
    intro h
    obtain ⟨hclassified, hplain⟩ := (faithful_within_iff v).mp h
    exact ofJson_toJson v hclassified hplain
  refine ⟨⟨fun h => ?_, fun h => ?_⟩, hsame⟩
  · exact (faithful_within_iff v).mpr (plain_of_equal v hv h)
  · rw [hsame h]
    exact equal_refl hv

/-- A data color next to what only looks like one, as the shade is a text, and strings of each
kind. -/
def nearReference : Value :=
  .group [
    ("fill", .color (.themeData 2 (.integer (-1) (by decide)))),
    ("line", .group [("expr", .group [("ThemeDataColor", .group
      [("Percent", .text "0"), ("ColorId", .number (.integer 2 (by decide)))])])]),
    ("colors", .list [.color (.token "@accent"), .color (.hex "#1E293B"), .text "#1E"])]

theorem comesBack_nearReference :
    nearReference.keyed = true ∧ (∀ w, Within w nearReference → w.Faithful) ∧
    ofJson nearReference.toJson = nearReference := by
  have hkeyed : nearReference.keyed = true := by decide
  have hback : (ofJson nearReference.toJson).equal nearReference = true := by decide
  obtain ⟨hiff, hsame⟩ := comesBack_iff hkeyed
  have hfaithful := hiff.mp hback
  exact ⟨hkeyed, hfaithful, hsame hfaithful⟩

end Value

end ReportTheme
