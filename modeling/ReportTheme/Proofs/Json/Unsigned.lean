import ReportTheme.Json.Printer

/-!
JSON values up to the sign of zero. Numbers that count as equal differ in that sign at most, but it
is printed: of two values that agree up to it, the compact texts are the same just if the values
are.
-/
namespace ReportTheme

namespace Double

/-- The number with zero taken as positive. -/
def unsigned (x : Double) : Double := if x.isZero then zero false else x

theorem eq_zero {x : Double} (h : x.isZero = true) : x = zero x.negative := by
  obtain ⟨negative, mantissa, scale, canonical⟩ := x
  have hm : mantissa = 0 := by simpa [isZero] using h
  subst hm
  have hs : scale = 0 := by simpa using canonical.2.2
  subst hs
  rfl

theorem equal_iff (x y : Double) : x.equal y = true ↔ x.unsigned = y.unsigned := by
  have hzero : ∀ b, (zero b).isZero = true := fun _ => rfl
  cases hx : x.isZero <;> cases hy : y.isZero <;> simp only [equal, unsigned, hx, hy]
  · simp
  · have hne : x ≠ y := by
      rintro rfl
      simp [hx] at hy
    have hnz : x ≠ zero false := by
      rintro rfl
      simp [hzero] at hx
    simp [hne, hnz]
  · have hne : x ≠ y := by
      rintro rfl
      simp [hx] at hy
    have hnz : zero false ≠ y := by
      rintro rfl
      simp [hzero] at hy
    simp [hne, hnz]
  · simp

end Double

namespace Number

def unsigned : Number → Number
  | .integer n fits => .integer n fits
  | .double x => .double x.unsigned

theorem equal_iff (m n : Number) : m.equal n = true ↔ m.unsigned = n.unsigned := by
  cases m <;> cases n <;> simp [equal, unsigned, Double.equal_iff]

/-- Only the sign of zero tells apart numbers that agree up to it, and it is printed first. -/
theorem chars_cancel {m n : Number} (h : m.unsigned = n.unsigned) {r s : List Char}
    (ht : m.chars ++ r = n.chars ++ s) : m = n ∧ r = s := by
  suffices he : m = n by
    subst he
    exact ⟨rfl, List.append_cancel_left ht⟩
  cases m with
  | integer a fa =>
    cases n with
    | integer b fb => simpa [unsigned] using h
    | double y => simp [unsigned] at h
  | double x =>
    cases n with
    | integer b fb => simp [unsigned] at h
    | double y =>
      simp only [unsigned, Number.double.injEq, ← Double.equal_iff, Double.equal, Bool.or_eq_true,
        decide_eq_true_eq, Bool.and_eq_true] at h
      rcases h with rfl | ⟨hx, hy⟩
      · rfl
      · rw [Double.eq_zero hx, Double.eq_zero hy] at ht ⊢
        generalize x.negative = a, y.negative = b at ht
        cases a <;> cases b <;> simp [chars, doubleText, Double.zero, Double.isZero] at ht ⊢

end Number

namespace Json

mutual

/-- The value with every zero taken as positive. -/
def unsigned : Json → Json
  | .number n => .number n.unsigned
  | .list items => .list (unsignedItems items)
  | .object entries => .object (unsignedEntries entries)
  | j => j

def unsignedItems : List Json → List Json
  | [] => []
  | j :: js => unsigned j :: unsignedItems js

def unsignedEntries : List (String × Json) → List (String × Json)
  | [] => []
  | (k, j) :: es => (k, unsigned j) :: unsignedEntries es

end

theorem compactItems_cons (j : Json) (js : List Json) :
    compactItems (j :: js) = compact j ++ (if js.isEmpty then "" else "," ++ compactItems js) := by
  cases js <;> simp [compactItems, String.append_assoc]

theorem compactEntries_cons (k : String) (j : Json) (es : List (String × Json)) :
    compactEntries ((k, j) :: es) =
      Quoted.text k ++ ":" ++ compact j ++
        (if es.isEmpty then "" else "," ++ compactEntries es) := by
  cases es <;> simp [compactEntries, String.append_assoc]

theorem unsignedItems_eq_nil {js : List Json} : unsignedItems js = [] ↔ js = [] := by
  cases js <;> simp [unsignedItems]

theorem unsignedEntries_eq_nil {es : List (String × Json)} :
    unsignedEntries es = [] ↔ es = [] := by
  cases es <;> simp [unsignedEntries]

mutual

/-- Reading from the left, two compact texts can only part where the sign of a zero differs. -/
theorem compact_cancel : (j k : Json) → j.unsigned = k.unsigned → (r s : List Char) →
    (compact j).toList ++ r = (compact k).toList ++ s → j = k ∧ r = s
  | .null => by
    intro k h r s ht
    cases k <;> simp only [unsigned, reduceCtorEq] at h
    exact ⟨rfl, List.append_cancel_left ht⟩
  | .bool b => by
    intro k h r s ht
    cases k <;> simp only [unsigned, reduceCtorEq, Json.bool.injEq] at h
    subst h
    exact ⟨rfl, List.append_cancel_left ht⟩
  | .number m => by
    intro k h r s ht
    cases k <;> simp only [unsigned, reduceCtorEq, Json.number.injEq] at h
    simp only [compact, Number.text, String.toList_ofList] at ht
    obtain ⟨rfl, hr⟩ := Number.chars_cancel h ht
    exact ⟨rfl, hr⟩
  | .string t => by
    intro k h r s ht
    cases k <;> simp only [unsigned, reduceCtorEq, Json.string.injEq] at h
    subst h
    exact ⟨rfl, List.append_cancel_left ht⟩
  | .list xs => by
    intro k h r s ht
    cases k <;> simp only [unsigned, reduceCtorEq, Json.list.injEq] at h
    simp only [compact, String.toList_append, List.append_assoc] at ht
    obtain ⟨rfl, hr⟩ := compactItems_cancel xs _ h _ _ (List.append_cancel_left ht)
    exact ⟨rfl, List.append_cancel_left hr⟩
  | .object a => by
    intro k h r s ht
    cases k <;> simp only [unsigned, reduceCtorEq, Json.object.injEq] at h
    simp only [compact, String.toList_append, List.append_assoc] at ht
    obtain ⟨rfl, hr⟩ := compactEntries_cancel a _ h _ _ (List.append_cancel_left ht)
    exact ⟨rfl, List.append_cancel_left hr⟩

theorem compactItems_cancel : (xs ys : List Json) → unsignedItems xs = unsignedItems ys →
    (r s : List Char) → (compactItems xs).toList ++ r = (compactItems ys).toList ++ s →
    xs = ys ∧ r = s
  | [] => by
    intro ys h r s ht
    obtain rfl := unsignedItems_eq_nil.mp h.symm
    exact ⟨rfl, ht⟩
  | x :: xs => by
    intro ys h r s ht
    cases ys with
    | nil => simp [unsignedItems] at h
    | cons y ys =>
      simp only [unsignedItems, List.cons.injEq] at h
      simp only [compactItems_cons, String.toList_append, List.append_assoc] at ht
      obtain ⟨rfl, htail⟩ := compact_cancel x y h.1 _ _ ht
      cases xs with
      | nil =>
        obtain rfl := unsignedItems_eq_nil.mp h.2.symm
        exact ⟨rfl, htail⟩
      | cons x' xs =>
        cases ys with
        | nil => simp [unsignedItems] at h
        | cons y' ys =>
          simp only [List.isEmpty_cons, Bool.false_eq_true, if_false, String.toList_append,
            List.append_assoc] at htail
          obtain ⟨hxs, hr⟩ := compactItems_cancel (x' :: xs) (y' :: ys) h.2 _ _
            (List.append_cancel_left htail)
          exact ⟨by rw [hxs], hr⟩

theorem compactEntries_cancel : (a b : List (String × Json)) →
    unsignedEntries a = unsignedEntries b → (r s : List Char) →
    (compactEntries a).toList ++ r = (compactEntries b).toList ++ s → a = b ∧ r = s
  | [] => by
    intro b h r s ht
    obtain rfl := unsignedEntries_eq_nil.mp h.symm
    exact ⟨rfl, ht⟩
  | (k, x) :: a => by
    intro b h r s ht
    cases b with
    | nil => simp [unsignedEntries] at h
    | cons e b =>
      obtain ⟨l, y⟩ := e
      simp only [unsignedEntries, List.cons.injEq, Prod.mk.injEq] at h
      obtain ⟨⟨rfl, hx⟩, hrest⟩ := h
      simp only [compactEntries_cons, String.toList_append, List.append_assoc] at ht
      obtain ⟨rfl, htail⟩ := compact_cancel x y hx _ _
        (List.append_cancel_left (List.append_cancel_left ht))
      cases a with
      | nil =>
        obtain rfl := unsignedEntries_eq_nil.mp hrest.symm
        exact ⟨rfl, htail⟩
      | cons e a =>
        cases b with
        | nil => simp [unsignedEntries] at hrest
        | cons f b =>
          simp only [List.isEmpty_cons, Bool.false_eq_true, if_false, String.toList_append,
            List.append_assoc] at htail
          obtain ⟨hab, hr⟩ := compactEntries_cancel (e :: a) (f :: b) hrest _ _
            (List.append_cancel_left htail)
          exact ⟨by rw [hab], hr⟩

end

theorem compact_injective {j k : Json} (h : j.unsigned = k.unsigned)
    (ht : j.compact = k.compact) : j = k :=
  (compact_cancel j k h [] [] (by rw [ht])).1

end Json

end ReportTheme
