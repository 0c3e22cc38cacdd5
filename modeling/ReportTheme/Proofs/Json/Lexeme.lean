import ReportTheme.Json.Lexeme
import ReportTheme.Json.Quoted

/-!
Lexemes of written text. Words, strings and numbers are scanned to themselves, whatever delimits
them; of a number this takes that its text, read on its own, gives the number back.
-/
namespace ReportTheme

namespace Lexeme

theorem hexValue?_hexDigit {n : Nat} (h : n < 16) : hexValue? (Quoted.hexDigit n) = some n := by
  have hall : ∀ m : Fin 16, hexValue? (Quoted.hexDigit m) = some m.val := by decide
  exact hall ⟨n, h⟩

theorem stringBody_plain {c : Char} (hquote : c ≠ '"') (hback : c ≠ '\\') (hcontrol : ¬c.toNat < 32)
    (cs : List Char) : stringBody (c :: cs) = (stringBody cs).cons (.char c) 1 := by
  rw [stringBody.eq_def]
  dsimp only
  rw [if_neg hquote, if_neg hback, if_neg hcontrol]

theorem stringBody_quote (cs : List Char) : stringBody ('"' :: cs) = ⟨[], 1, none⟩ := by
  rw [stringBody.eq_def]
  rfl

theorem stringBody_escaped {e c : Char} (he : e ≠ 'u') (hc : escaped? e = some c) (cs : List Char) :
    stringBody ('\\' :: e :: cs) = (stringBody cs).cons (.char c) 2 := by
  have hback : '\\' ≠ '"' := by decide
  rw [stringBody.eq_def]
  dsimp only
  rw [if_neg hback, if_pos rfl, if_neg he, hc]

theorem stringBody_unit {h₁ h₂ h₃ h₄ : Char} {n : Nat} (hn : unit? h₁ h₂ h₃ h₄ = some n)
    (cs : List Char) :
    stringBody ('\\' :: 'u' :: h₁ :: h₂ :: h₃ :: h₄ :: cs) = (stringBody cs).cons (.unit n) 6 := by
  have hback : '\\' ≠ '"' := by decide
  rw [stringBody.eq_def]
  dsimp only
  rw [if_neg hback, if_pos rfl, if_pos rfl, hn]

theorem characters?_unit {c : Char} (h : c.toNat < 32) (ps : List Piece) :
    characters? (.unit c.toNat :: ps) = (characters? ps).map (c :: ·) := by
  have hhigh : isHigh c.toNat = false := by
    simp only [isHigh, Bool.and_eq_false_iff, decide_eq_false_iff_not]
    omega
  have hlow : isLow c.toNat = false := by
    simp only [isLow, Bool.and_eq_false_iff, decide_eq_false_iff_not]
    omega
  cases ps with
  | nil => simp [characters?, hhigh, hlow]
  | cons p ps => cases p <;> simp [characters?, hhigh, hlow]

/-- A character is written as an escape of one letter, by its code, or as it is. -/
theorem escape_cases (c : Char) :
    (∃ e, Quoted.escape c = ['\\', e] ∧ e ≠ 'u' ∧ escaped? e = some c) ∨
      (c.toNat < 32 ∧ Quoted.escape c =
        ['\\', 'u', '0', '0', Quoted.hexDigit (c.toNat / 16), Quoted.hexDigit (c.toNat % 16)]) ∨
      (Quoted.escape c = [c] ∧ c ≠ '"' ∧ c ≠ '\\' ∧ ¬c.toNat < 32) := by
  by_cases hletter : c ∈ ['"', '\\', '\n', '\r', '\t', '\x08', '\x0c']
  · left
    simp only [List.mem_cons, List.not_mem_nil, or_false] at hletter
    rcases hletter with rfl | rfl | rfl | rfl | rfl | rfl | rfl
    · exact ⟨'"', by decide⟩
    · exact ⟨'\\', by decide⟩
    · exact ⟨'n', by decide⟩
    · exact ⟨'r', by decide⟩
    · exact ⟨'t', by decide⟩
    · exact ⟨'b', by decide⟩
    · exact ⟨'f', by decide⟩
  · right
    simp only [List.mem_cons, List.not_mem_nil, or_false, not_or] at hletter
    obtain ⟨hquote, hback, h₁, h₂, h₃, h₄, h₅⟩ := hletter
    rw [Quoted.escape, if_neg hquote, if_neg hback, if_neg h₁, if_neg h₂, if_neg h₃, if_neg h₄,
      if_neg h₅]
    by_cases hcontrol : c.toNat < 32
    · exact .inl ⟨hcontrol, if_pos hcontrol⟩
    · exact .inr ⟨if_neg hcontrol, hquote, hback, hcontrol⟩

/-- An escaped character is read as one piece, which stands for it. -/
theorem stringBody_escape (c : Char) (cs : List Char) :
    ∃ p, stringBody (Quoted.escape c ++ cs) = (stringBody cs).cons p (Quoted.escape c).length ∧
      ∀ ps, characters? (p :: ps) = (characters? ps).map (c :: ·) := by
  obtain ⟨e, hc, he, hletter⟩ | ⟨hcontrol, hc⟩ | ⟨hc, hquote, hback, hcontrol⟩ := escape_cases c
  · exact ⟨.char c, by rw [hc]; exact stringBody_escaped he hletter cs, fun _ => rfl⟩
  · have hzero : hexValue? '0' = some 0 := by decide
    have hhigh := hexValue?_hexDigit (n := c.toNat / 16) (by omega)
    have hlow := hexValue?_hexDigit (Nat.mod_lt c.toNat (y := 16) (by omega))
    have hunit : unit? '0' '0' (Quoted.hexDigit (c.toNat / 16)) (Quoted.hexDigit (c.toNat % 16)) =
        some c.toNat := by
      simp only [unit?, hzero, hhigh, hlow]
      exact congrArg some (by omega)
    exact ⟨.unit c.toNat, by rw [hc]; exact stringBody_unit hunit cs, characters?_unit hcontrol⟩
  · exact ⟨.char c, by rw [hc]; exact stringBody_plain hquote hback hcontrol cs, fun _ => rfl⟩

theorem stringBody_flatMap (s rest : List Char) :
    ∃ ps, stringBody (s.flatMap Quoted.escape ++ '"' :: rest) =
        ⟨ps, (s.flatMap Quoted.escape).length + 1, none⟩ ∧ characters? ps = some s := by
  induction s with
  | nil => exact ⟨[], stringBody_quote rest, rfl⟩
  | cons c s ih =>
    obtain ⟨ps, hbody, hps⟩ := ih
    obtain ⟨p, hp, hchar⟩ := stringBody_escape c (s.flatMap Quoted.escape ++ '"' :: rest)
    refine ⟨p :: ps, ?_, by rw [hchar, hps, Option.map_some]⟩
    rw [List.flatMap_cons, List.append_assoc, hp, hbody, StringBody.cons, List.length_append]
    simp only [StringBody.mk.injEq, true_and, and_true]
    omega

/-- A quoted string is read up to its closing quote. -/
theorem readString_encode (s : String) (rest : List Char) :
    readString (s.toList.flatMap Quoted.escape ++ '"' :: rest) =
      (.string (some s), (s.toList.flatMap Quoted.escape).length + 1) := by
  obtain ⟨ps, hbody, hps⟩ := stringBody_flatMap s.toList rest
  rw [readString, hbody]
  simp [hps]

/-- Whether what follows a number cannot be taken for a part of it. -/
def Delimits (rest : List Char) : Prop :=
  ∀ c ∈ rest.head?, isDigit c = false ∧ c ≠ '.' ∧ c ≠ 'e' ∧ c ≠ 'E'

section
variable {rest : List Char}

theorem Delimits.takeWhile (h : Delimits rest) (cs : List Char) :
    (cs ++ rest).takeWhile isDigit = cs.takeWhile isDigit := by
  have hrest : rest.takeWhile isDigit = [] := by
    cases rest with
    | nil => rfl
    | cons c rest => rw [List.takeWhile_cons_of_neg (by simp [(h c rfl).1])]
  rw [List.takeWhile_append, hrest, List.append_nil]
  split
  · rename_i hlength
    exact ((List.takeWhile_prefix isDigit).eq_of_length hlength).symm
  · rfl

theorem Delimits.head?_iff (h : Delimits rest) {c : Char} (hc : c = '.' ∨ c = 'e' ∨ c = 'E')
    (cs : List Char) : (cs ++ rest).head? = some c ↔ cs.head? = some c := by
  cases cs with
  | nil =>
    refine iff_of_false (fun hhead => ?_) nofun
    obtain ⟨-, h₁, h₂, h₃⟩ := h c hhead
    rcases hc with hc | hc | hc
    · exact h₁ hc
    · exact h₂ hc
    · exact h₃ hc
  | cons d cs => rfl

theorem isBroken_cutNumber (start : Char) (cs : List Char) :
    (cutNumber start cs).isBroken = true := by
  unfold cutNumber
  split <;> rfl

def dropSign (cs : List Char) : List Char :=
  if cs.head? = some '-' ∨ cs.head? = some '+' then cs.drop 1 else cs

/-- Reads the exponent of a number, if it has one. -/
def readExponent (start : Char) (numeral : Numeral) (covered : Nat) (cs : List Char) :
    Lexeme × Nat :=
  if cs.head? = some 'e' ∨ cs.head? = some 'E' then
    let cs := cs.drop 1
    let digits := (dropSign cs).takeWhile isDigit
    if digits.isEmpty then (cutNumber start (dropSign cs), 0)
    else
      (.number
          { numeral with exponent := some (cs.head? = some '-', digits.map digitValue) }.value?,
        covered + 1 + (if cs.head? = some '-' ∨ cs.head? = some '+' then 1 else 0) + digits.length)
  else (.number numeral.value?, covered)

/-- Reads what follows the whole digits of a number. -/
def readFraction (start : Char) (negative : Bool) (whole : List Char) (covered : Nat)
    (cs : List Char) : Lexeme × Nat :=
  if cs.head? = some '.' then
    let fraction := (cs.drop 1).takeWhile isDigit
    let cs := cs.drop (fraction.length + 1)
    if fraction.isEmpty then (cutNumber start cs, 0)
    else
      readExponent start
        ⟨negative, whole.map digitValue, some (fraction.map digitValue), none⟩
        (covered + fraction.length + 1) cs
  else readExponent start ⟨negative, whole.map digitValue, none, none⟩ covered cs

theorem readNumber_eq (start : Char) (negative : Bool) (covered : Nat) (cs : List Char) :
    readNumber start negative covered cs =
      let whole := cs.takeWhile isDigit
      if whole.isEmpty then (cutNumber start (cs.drop whole.length), 0)
      else if whole.head? = some '0' ∧ whole.length ≠ 1 then
        (.broken start .malformed .malformed, 0)
      else
        readFraction start negative whole (covered + whole.length) (cs.drop whole.length) := by
  unfold readNumber readFraction readExponent dropSign
  dsimp only
  refine ite_congr rfl (fun _ => rfl) fun _ => ite_congr rfl (fun _ => rfl) fun _ => ?_
  generalize cs.drop (cs.takeWhile isDigit).length = cs
  by_cases hpointed : cs.head? = some '.'
  · simp only [hpointed, true_and, if_true]
  · simp only [hpointed, false_and, if_false]

theorem head?_append {cs : List Char} (h : cs ≠ []) (rest : List Char) :
    (cs ++ rest).head? = cs.head? := by
  cases cs with
  | nil => exact absurd rfl h
  | cons c cs => rfl

theorem dropSign_append {cs : List Char} (h : cs ≠ []) (rest : List Char) :
    dropSign (cs ++ rest) = dropSign cs ++ rest := by
  rw [dropSign, dropSign, head?_append h,
    List.drop_append_of_le_length (List.length_pos_iff.mpr h)]
  split <;> rfl

theorem readExponent_append (h : Delimits rest) {start : Char} {numeral : Numeral} {covered : Nat}
    {cs : List Char} (hread : (readExponent start numeral covered cs).1.isBroken = false) :
    readExponent start numeral covered (cs ++ rest) = readExponent start numeral covered cs := by
  unfold readExponent at hread ⊢
  simp only [h.head?_iff (.inr (.inl rfl)), h.head?_iff (.inr (.inr rfl))]
  split
  · rename_i hexponent
    rw [if_pos hexponent] at hread
    have hlength : 1 ≤ cs.length := by
      cases cs with
      | nil => simp at hexponent
      | cons => simp
    rw [List.drop_append_of_le_length hlength]
    generalize cs.drop 1 = cs at hread ⊢
    by_cases hdigits : ((dropSign cs).takeWhile isDigit).isEmpty = true
    · rw [if_pos hdigits, isBroken_cutNumber] at hread
      cases hread
    · have hcs : cs ≠ [] := by
        rintro rfl
        exact hdigits rfl
      rw [dropSign_append hcs, h.takeWhile, if_neg hdigits, if_neg hdigits, head?_append hcs]
  · rfl

theorem readFraction_append (h : Delimits rest) {start : Char} {negative : Bool}
    {whole : List Char} {covered : Nat} {cs : List Char}
    (hread : (readFraction start negative whole covered cs).1.isBroken = false) :
    readFraction start negative whole covered (cs ++ rest) =
      readFraction start negative whole covered cs := by
  unfold readFraction at hread ⊢
  simp only [h.head?_iff (.inl rfl)]
  split
  · rename_i hpoint
    rw [if_pos hpoint] at hread
    obtain ⟨cs, rfl⟩ : ∃ cs', cs = '.' :: cs' := by
      cases cs with
      | nil => simp at hpoint
      | cons c cs => exact ⟨cs, by rw [Option.some.inj hpoint]⟩
    have hdrop : (cs ++ rest).drop (cs.takeWhile isDigit).length =
        cs.drop (cs.takeWhile isDigit).length ++ rest :=
      List.drop_append_of_le_length (List.takeWhile_prefix isDigit).length_le
    simp only [List.cons_append, List.drop_succ_cons, List.drop_zero] at hread ⊢
    rw [h.takeWhile, hdrop]
    split at hread
    · simp [isBroken_cutNumber] at hread
    · rename_i hfraction
      rw [if_neg hfraction, if_neg hfraction, readExponent_append h hread]
  · rename_i hpoint
    rw [if_neg hpoint] at hread
    exact readExponent_append h hread

/-- A number is read the same way whatever delimits it. -/
theorem readNumber_append (h : Delimits rest) {start : Char} {negative : Bool} {covered : Nat}
    {cs : List Char} (hread : (readNumber start negative covered cs).1.isBroken = false) :
    readNumber start negative covered (cs ++ rest) = readNumber start negative covered cs := by
  have hdrop : (cs ++ rest).drop (cs.takeWhile isDigit).length =
      cs.drop (cs.takeWhile isDigit).length ++ rest :=
    List.drop_append_of_le_length (List.takeWhile_prefix isDigit).length_le
  simp only [readNumber_eq] at hread ⊢
  rw [h.takeWhile, hdrop]
  split at hread
  · simp [isBroken_cutNumber] at hread
  split at hread
  · simp [isBroken] at hread
  · rename_i hwhole hzero
    rw [if_neg hwhole, if_neg hwhole, if_neg hzero, if_neg hzero, readFraction_append h hread]

theorem read_sign (cs : List Char) : read '-' cs = readNumber '-' true 0 cs := rfl

theorem ne_of_isDigit {c d : Char} (hc : isDigit c = true) (hd : isDigit d = false) : c ≠ d := by
  rintro rfl
  rw [hc] at hd
  cases hd

theorem read_digit {c : Char} (h : isDigit c = true) (cs : List Char) :
    read c cs =
      ((readNumber c false 0 (c :: cs)).1, (readNumber c false 0 (c :: cs)).2 - 1) := by
  have hne : ∀ d, isDigit d = false → c ≠ d := fun _ => ne_of_isDigit h
  unfold read
  rw [if_neg (hne '[' (by decide)), if_neg (hne ']' (by decide)), if_neg (hne '\x7b' (by decide)),
    if_neg (hne '\x7d' (by decide)), if_neg (hne ',' (by decide)), if_neg (hne ':' (by decide)),
    if_neg (hne '"' (by decide)), if_neg (hne 'n' (by decide)), if_neg (hne 't' (by decide)),
    if_neg (hne 'f' (by decide)), if_neg (hne '-' (by decide)), if_pos h]

theorem isBlank_of_isDigit {c : Char} (h : isDigit c = true) : isBlank c = false := by
  have hne : ∀ d, isDigit d = false → c ≠ d := fun _ => ne_of_isDigit h
  simp [isBlank, hne ' ' (by decide), hne '\n' (by decide),
    hne '\t' (by decide), hne '\r' (by decide)]

theorem readString_ne_number (cs : List Char) (v : Option Number) (covered : Nat) :
    readString cs ≠ (.number v, covered) := by
  unfold readString
  dsimp only
  split <;> simp

theorem readWord_ne_number {meaning : Lexeme} {v : Option Number} (h : meaning ≠ .number v)
    (start : Char) (others cs : List Char) (covered : Nat) :
    readWord start others meaning cs ≠ (.number v, covered) := by
  unfold readWord
  split <;> simp [h]

theorem eq_of_ite {p : Prop} [Decidable p] {a b r : Lexeme × Nat} (h : (if p then a else b) = r)
    (ha : a ≠ r) : b = r := by
  split at h
  · exact absurd h ha
  · exact h

/-- Only a sign or a digit starts a number. -/
theorem start_of_read {c : Char} {cs : List Char} {v : Option Number} {covered : Nat}
    (h : read c cs = (.number v, covered)) : c = '-' ∨ isDigit c = true := by
  refine Decidable.byContradiction fun hstart => ?_
  rw [not_or] at hstart
  unfold read at h
  rw [if_neg hstart.1, if_neg hstart.2] at h
  iterate 6 replace h := eq_of_ite h nofun
  replace h := eq_of_ite h (readString_ne_number cs v covered)
  iterate 3 replace h := eq_of_ite h (readWord_ne_number (by simp) _ _ cs covered)
  cases h

/-- A number is read the same way whatever delimits it. -/
theorem read_append (h : Delimits rest) {c : Char} {cs : List Char} {v : Option Number}
    {covered : Nat} (hread : read c cs = (.number v, covered)) :
    read c (cs ++ rest) = (.number v, covered) := by
  rcases start_of_read hread with rfl | hc
  · rw [read_sign] at hread ⊢
    rw [readNumber_append h (congrArg (·.1.isBroken) hread), hread]
  · rw [read_digit hc] at hread ⊢
    have hbroken : (readNumber c false 0 (c :: cs)).1.isBroken = false :=
      congrArg (·.1.isBroken) hread
    rw [← List.cons_append, readNumber_append h hbroken, hread]

theorem isBlank_start {c : Char} {cs : List Char} {v : Option Number} {covered : Nat}
    (h : read c cs = (.number v, covered)) : isBlank c = false := by
  rcases start_of_read h with rfl | hc
  · rfl
  · exact isBlank_of_isDigit hc

end

theorem collect_of_le {m : Nat} {ds : List Nat}
    (h : ds.foldl (fun n d => n * 10 + d) m ≤ significandLimit) :
    collect m ds = (ds.foldl (fun n d => n * 10 + d) m, 0) := by
  induction ds generalizing m with
  | nil => rfl
  | cons d ds ih =>
    have hgrows : ∀ (ds : List Nat) n, n ≤ ds.foldl (fun n d => n * 10 + d) n := by
      intro ds
      induction ds with
      | nil => exact fun n => Nat.le_refl n
      | cons d ds ih =>
        intro n
        have hd := ih (n * 10 + d)
        rw [List.foldl_cons]
        omega
    have hd := Nat.le_trans (hgrows ds (m * 10 + d)) h
    rw [collect, if_pos hd, ih h, List.foldl_cons]

theorem isDigit_of_mem_repr {n : Nat} {c : Char} (h : c ∈ (Nat.repr n).toList) :
    isDigit c = true := by
  rw [Nat.toList_repr] at h
  exact Nat.isDigit_of_mem_toDigits (by decide) (by decide) h

/-- Only zero is written with a leading zero. -/
theorem head?_toDigits {n : Nat} (h : 0 < n) : (Nat.toDigits 10 n).head? ≠ some '0' := by
  induction n using Nat.strongRecOn with
  | ind n ih =>
    by_cases hsmall : n < 10
    · have hall : ∀ m : Fin 10, 0 < m.val → (Nat.digitChar m.val) ≠ '0' := by decide
      rw [Nat.toDigits_of_lt_base hsmall]
      exact fun hhead => hall ⟨n, hsmall⟩ h (Option.some.inj hhead)
    · rw [Nat.toDigits_of_base_le (by decide) (by omega), head?_append Nat.toDigits_ne_nil]
      exact ih (n / 10) (by omega) (by omega)

theorem foldl_repr (n : Nat) :
    ((Nat.repr n).toList.map digitValue).foldl (fun n d => n * 10 + d) 0 = n := by
  have h := Nat.ofDigitChars_toDigits (b := 10) (n := n) (by decide) (by decide)
  rw [Nat.ofDigitChars_eq_foldl] at h
  rw [Nat.toList_repr, List.foldl_map]
  simpa only [digitValue, Nat.mul_comm] using h

theorem readNumber_repr (start : Char) (negative : Bool) (covered n : Nat) :
    readNumber start negative covered (Nat.repr n).toList =
      (.number (Numeral.value? ⟨negative, (Nat.repr n).toList.map digitValue, none, none⟩),
        covered + (Nat.repr n).toList.length) := by
  have hall : (Nat.repr n).toList.takeWhile isDigit = (Nat.repr n).toList := by
    have happend := @List.takeWhile_append_of_pos _ isDigit (Nat.repr n).toList []
      fun _ => isDigit_of_mem_repr
    simpa using happend
  have hne : ¬(Nat.repr n).toList.isEmpty = true := by
    rw [Nat.toList_repr, List.isEmpty_iff]
    exact Nat.toDigits_ne_nil
  have hzero : ¬((Nat.repr n).toList.head? = some '0' ∧ (Nat.repr n).toList.length ≠ 1) := by
    rintro ⟨hhead, hlength⟩
    rcases Nat.eq_zero_or_pos n with rfl | hn
    · exact hlength rfl
    · rw [Nat.toList_repr] at hhead
      exact head?_toDigits hn hhead
  rw [readNumber_eq]
  dsimp only
  rw [hall, List.drop_length, if_neg hne, if_neg hzero]
  rfl

theorem value?_repr (negative : Bool) {n : Nat} (hn : n ≤ significandLimit) :
    Numeral.value? ⟨negative, (Nat.repr n).toList.map digitValue, none, none⟩ =
      if !negative then Number.ofInt? n
      else if 0 < n ∧ n ≤ 1 <<< 63 then Number.ofInt? (-n)
      else (Double.ofNat? n).map fun x => .double (x.withSign true) := by
  have hcollect : collect 0 ((Nat.repr n).toList.map digitValue) = (n, 0) := by
    have hvalue := foldl_repr n
    rw [collect_of_le (by omega), hvalue]
  simp only [Numeral.value?, hcollect, ne_eq, not_true_eq_false, if_false]

end Lexeme

/-- Whether the text of a number, read on its own, gives the number back. -/
def Number.legible (n : Number) : Bool :=
  match n.chars with
  | [] => false
  | c :: cs => Lexeme.read c cs = (.number (some n), cs.length)

namespace Number
open Lexeme

theorem legible_iff (n : Number) :
    n.legible = true ↔ ∃ c cs, n.chars = c :: cs ∧ read c cs = (.number (some n), cs.length) := by
  unfold legible
  cases n.chars with
  | nil => simp
  | cons c cs => simp [and_assoc]

/-- Whole numbers are always read back. -/
theorem legible_integer (n : Int) (fits : -9223372036854775808 ≤ n ∧ n < 18446744073709551616) :
    (Number.integer n fits).legible = true := by
  have hlimit : significandLimit = 18446744073709551615 := by decide
  have hsize : (1 : Nat) <<< 63 = 9223372036854775808 := by decide
  have hofInt : ofInt? n = some (.integer n fits) := by rw [ofInt?, dif_pos fits]
  rw [legible_iff]
  by_cases hn : n < 0
  · refine ⟨'-', (Nat.repr n.natAbs).toList, by rw [chars, if_pos hn]; rfl, ?_⟩
    have hvalue := value?_repr true (n := n.natAbs) (by omega)
    have hneg : -(n.natAbs : Int) = n := by omega
    rw [if_neg (by decide), if_pos (by omega), hneg, hofInt] at hvalue
    have hread := readNumber_repr '-' true 0 n.natAbs
    rw [hvalue, Nat.zero_add] at hread
    rw [read_sign, hread]
  · obtain ⟨c, cs, hcs⟩ := List.exists_cons_of_ne_nil
      (Nat.toList_repr ▸ Nat.toDigits_ne_nil : (Nat.repr n.natAbs).toList ≠ [])
    have hc : isDigit c = true := isDigit_of_mem_repr (n := n.natAbs) (hcs ▸ List.mem_cons_self)
    refine ⟨c, cs, by rw [chars, if_neg hn, hcs]; rfl, ?_⟩
    have hvalue := value?_repr false (n := n.natAbs) (by omega)
    have hpos : (n.natAbs : Int) = n := by omega
    rw [if_pos (by decide), hpos, hofInt] at hvalue
    have hread := readNumber_repr c false 0 n.natAbs
    rw [hvalue, Nat.zero_add, hcs] at hread
    rw [read_digit hc, hread, List.length_cons, Nat.add_sub_cancel]

end Number

end ReportTheme
