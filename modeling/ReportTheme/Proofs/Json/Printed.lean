import ReportTheme.Json.Printer
import ReportTheme.Json.Reading
import ReportTheme.Proofs.Json.Lexeme

/-!
Written JSON is read back: the pretty form of a value is scanned to the lexemes of the value, and
from these the automaton builds the reading of the value. The value may be nested up to the limit;
its numbers must be such as are read back.
-/
namespace ReportTheme

namespace Lexeme

variable {rest : List Char}

theorem scanFrom_append (cs rest : List Char) :
    scanFrom cs.length (cs ++ rest) = scanFrom 0 rest := by
  induction cs with
  | nil => rfl
  | cons c cs ih => exact ih

theorem scan_blanks {cs : List Char} (h : ∀ c ∈ cs, isBlank c = true) :
    scanFrom 0 (cs ++ rest) = scanFrom 0 rest := by
  induction cs with
  | nil => rfl
  | cons c cs ih =>
    rw [List.forall_mem_cons] at h
    rw [List.cons_append, scanFrom, if_pos h.1, ih h.2]

/-- A lexeme is scanned once it is read and what it covers is known. -/
theorem scan_of_read {c : Char} {cs : List Char} {l : Lexeme} (hblank : isBlank c = false)
    (hread : read c (cs ++ rest) = (l, cs.length)) (hl : l.isBroken = false) :
    scanFrom 0 (c :: (cs ++ rest)) = l :: scanFrom 0 rest := by
  rw [scanFrom, hblank, if_neg (by decide), hread]
  dsimp only
  rw [hl, if_neg (by decide), scanFrom_append]

theorem scan_quoted (s : String) :
    scanFrom 0 ((Quoted.text s).toList ++ rest) = .string (some s) :: scanFrom 0 rest := by
  have hread : read '"' (s.toList.flatMap Quoted.escape ++ ['"'] ++ rest) =
      (.string (some s), (s.toList.flatMap Quoted.escape ++ ['"']).length) := by
    have hstring := readString_encode s rest
    rw [List.append_assoc, List.length_append]
    exact hstring
  rw [Quoted.text, String.toList_ofList, Quoted.encode]
  exact scan_of_read (by decide) hread rfl

theorem scan_number {n : Number} (hn : n.legible = true) (h : Delimits rest) :
    scanFrom 0 (n.text.toList ++ rest) = .number (some n) :: scanFrom 0 rest := by
  obtain ⟨c, cs, hchars, hread⟩ := n.legible_iff.mp hn
  rw [Number.text, String.toList_ofList, hchars]
  exact scan_of_read (isBlank_start hread) (read_append h hread) rfl

theorem wordFault_append (ws rest : List Char) : wordFault ws (ws ++ rest) = none := by
  induction ws with
  | nil => rfl
  | cons w ws ih => rw [List.cons_append, wordFault, if_pos rfl, ih]

theorem readWord_append (start : Char) (others rest : List Char) (meaning : Lexeme) :
    readWord start others meaning (others ++ rest) = (meaning, others.length) := by
  rw [readWord, wordFault_append]

theorem scan_null : scanFrom 0 ("null".toList ++ rest) = .null :: scanFrom 0 rest :=
  scan_of_read (c := 'n') (by decide) (readWord_append 'n' ['u', 'l', 'l'] rest .null) rfl

theorem scan_bool (b : Bool) :
    scanFrom 0 ((if b then "true" else "false").toList ++ rest) = .bool b :: scanFrom 0 rest := by
  cases b with
  | true =>
    exact scan_of_read (c := 't') (by decide) (readWord_append 't' ['r', 'u', 'e'] rest _) rfl
  | false =>
    exact scan_of_read (c := 'f') (by decide) (readWord_append 'f' ['a', 'l', 's', 'e'] rest _) rfl

theorem scan_openList : scanFrom 0 ("[".toList ++ rest) = .openList :: scanFrom 0 rest := rfl

theorem scan_closeList : scanFrom 0 ("]".toList ++ rest) = .closeList :: scanFrom 0 rest := rfl

theorem scan_openObject :
    scanFrom 0 ("\x7b".toList ++ rest) = .openObject :: scanFrom 0 rest := rfl

theorem scan_closeObject :
    scanFrom 0 ("\x7d".toList ++ rest) = .closeObject :: scanFrom 0 rest := rfl

theorem scan_comma : scanFrom 0 (",".toList ++ rest) = .comma :: scanFrom 0 rest := rfl

theorem scan_colon : scanFrom 0 (": ".toList ++ rest) = .colon :: scanFrom 0 rest := rfl

theorem toList_newLine (depth : Nat) :
    (Json.newLine depth).toList = '\n' :: List.replicate (2 * depth) ' ' := by
  rw [Json.newLine, String.toList_append]
  exact congrArg (['\n'] ++ ·) String.toList_ofList

theorem scan_newLine (depth : Nat) :
    scanFrom 0 ((Json.newLine depth).toList ++ rest) = scanFrom 0 rest := by
  refine scan_blanks fun c hc => ?_
  rw [toList_newLine, List.mem_cons] at hc
  rcases hc with rfl | hc
  · rfl
  · rw [(List.mem_replicate.mp hc).2]
    rfl

theorem delimits_cons {c : Char} (h : c = ',' ∨ c = ']' ∨ c = '\x7d' ∨ c = '\n') :
    Delimits (c :: rest) := by
  intro d hd
  obtain rfl : c = d := Option.some.inj hd
  rcases h with rfl | rfl | rfl | rfl <;> decide

theorem delimits_comma : Delimits (",".toList ++ rest) := delimits_cons (c := ',') (by decide)

theorem delimits_newLine (depth : Nat) : Delimits ((Json.newLine depth).toList ++ rest) := by
  rw [toList_newLine]
  exact delimits_cons (c := '\n') (by decide)

end Lexeme

namespace Json
open Lexeme

mutual

/-- Whether the numbers in a value are read back. Of whole numbers this is so anyway. -/
def legible : Json → Bool
  | .number (.double x) => (Number.double x).legible
  | .list items => legibleItems items
  | .object entries => legibleEntries entries
  | _ => true

def legibleItems : List Json → Bool
  | [] => true
  | j :: js => legible j && legibleItems js

def legibleEntries : List (String × Json) → Bool
  | [] => true
  | (_, j) :: es => legible j && legibleEntries es

end

mutual

/-- The number of brackets around the innermost value. -/
def depth : Json → Nat
  | .list items => depthItems items + 1
  | .object entries => depthEntries entries + 1
  | _ => 0

def depthItems : List Json → Nat
  | [] => 0
  | j :: js => max (depth j) (depthItems js)

def depthEntries : List (String × Json) → Nat
  | [] => 0
  | (_, j) :: es => max (depth j) (depthEntries es)

end

mutual

/-- The lexemes of the written form of a value. -/
def lexemes : Json → List Lexeme
  | .null => [.null]
  | .bool b => [.bool b]
  | .number n => [.number (some n)]
  | .string s => [.string (some s)]
  | .list items => .openList :: (itemLexemes items ++ [.closeList])
  | .object entries => .openObject :: (entryLexemes entries ++ [.closeObject])

def itemLexemes : List Json → List Lexeme
  | [] => []
  | [j] => lexemes j
  | j :: js => lexemes j ++ .comma :: itemLexemes js

def entryLexemes : List (String × Json) → List Lexeme
  | [] => []
  | [(k, j)] => .string (some k) :: .colon :: lexemes j
  | (k, j) :: es => .string (some k) :: .colon :: (lexemes j ++ .comma :: entryLexemes es)

end

theorem itemLexemes_cons (j k : Json) (js : List Json) :
    itemLexemes (j :: k :: js) = lexemes j ++ .comma :: itemLexemes (k :: js) := rfl

theorem entryLexemes_cons (k : String) (j : Json) (e : String × Json) (es : List (String × Json)) :
    entryLexemes ((k, j) :: e :: es) =
      .string (some k) :: .colon :: (lexemes j ++ .comma :: entryLexemes (e :: es)) := rfl

mutual

theorem scan_prettyAt (depth : Nat) : (j : Json) → j.legible = true →
    (rest : List Char) → Delimits rest →
    scanFrom 0 ((prettyAt depth j).toList ++ rest) = lexemes j ++ scanFrom 0 rest
  | .null, _, rest, _ => scan_null
  | .bool b, _, rest, _ => by
    rw [prettyAt, scan_bool]
    rfl
  | .number (.integer n fits), _, rest, hrest => by
    rw [prettyAt]
    exact scan_number (Number.legible_integer n fits) hrest
  | .number (.double x), h, rest, hrest => by
    rw [prettyAt]
    exact scan_number h hrest
  | .string s, _, rest, _ => by
    rw [prettyAt, scan_quoted]
    rfl
  | .list [], _, rest, _ => by
    rw [prettyAt, lexemes, itemLexemes]
    rfl
  | .list (j :: js), h, rest, _ => by
    have hitems := scan_prettyItems (depth + 1) (j :: js) h
      ((newLine depth).toList ++ ("]".toList ++ rest)) (delimits_newLine depth)
    simp only [prettyAt, String.toList_append, List.append_assoc]
    rw [scan_openList, hitems, scan_newLine, scan_closeList, lexemes, List.cons_append,
      List.append_assoc]
    rfl
  | .object [], _, rest, _ => by
    rw [prettyAt, lexemes, entryLexemes]
    rfl
  | .object (e :: es), h, rest, _ => by
    have hentries := scan_prettyEntries (depth + 1) (e :: es) h
      ((newLine depth).toList ++ ("\x7d".toList ++ rest)) (delimits_newLine depth)
    simp only [prettyAt, String.toList_append, List.append_assoc]
    rw [scan_openObject, hentries, scan_newLine, scan_closeObject, lexemes, List.cons_append,
      List.append_assoc]
    rfl

theorem scan_prettyItems (depth : Nat) : (js : List Json) → legibleItems js = true →
    (rest : List Char) → Delimits rest →
    scanFrom 0 ((prettyItems depth js).toList ++ rest) = itemLexemes js ++ scanFrom 0 rest
  | [], _, rest, _ => rfl
  | [j], h, rest, hrest => by
    rw [legibleItems, Bool.and_eq_true] at h
    rw [prettyItems, String.toList_append, List.append_assoc, scan_newLine,
      scan_prettyAt depth j h.1 rest hrest, itemLexemes]
  | j :: k :: js, h, rest, hrest => by
    rw [legibleItems, Bool.and_eq_true] at h
    have hitems := scan_prettyItems depth (k :: js) h.2 rest hrest
    simp only [prettyItems, String.toList_append, List.append_assoc]
    rw [scan_newLine, scan_prettyAt depth j h.1 _ delimits_comma, scan_comma, hitems,
      itemLexemes_cons, List.append_assoc, List.cons_append]

theorem scan_prettyEntries (depth : Nat) : (es : List (String × Json)) →
    legibleEntries es = true → (rest : List Char) → Delimits rest →
    scanFrom 0 ((prettyEntries depth es).toList ++ rest) = entryLexemes es ++ scanFrom 0 rest
  | [], _, rest, _ => rfl
  | [(k, j)], h, rest, hrest => by
    rw [legibleEntries, Bool.and_eq_true] at h
    simp only [prettyEntries, String.toList_append, List.append_assoc]
    rw [scan_newLine, scan_quoted, scan_colon, scan_prettyAt depth j h.1 rest hrest, entryLexemes]
    rfl
  | (k, j) :: e :: es, h, rest, hrest => by
    rw [legibleEntries, Bool.and_eq_true] at h
    have hentries := scan_prettyEntries depth (e :: es) h.2 rest hrest
    simp only [prettyEntries, String.toList_append, List.append_assoc]
    rw [scan_newLine, scan_quoted, scan_colon, scan_prettyAt depth j h.1 _ delimits_comma,
      scan_comma, hentries, entryLexemes_cons]
    simp only [List.append_assoc, List.cons_append]

end

end Json

namespace Reading
open Lexeme Json

theorem bracket_of_lt {fs : List Frame} (h : fs.length < depthLimit) (r : Reading) :
    bracket fs r = r :=
  if_pos h

theorem foldl_firstItem (j : Json) (js : List Json) (ls : List Lexeme) (fs : List Frame) :
    (itemLexemes (j :: js) ++ ls).foldl step (.firstItem fs) =
      (itemLexemes (j :: js) ++ ls).foldl step (.value (.list [] :: fs)) := by
  cases js <;> cases j <;> rfl

theorem foldl_firstKey (e : String × Json) (es : List (String × Json)) (ls : List Lexeme)
    (fs : List Frame) :
    (entryLexemes (e :: es) ++ ls).foldl step (.firstKey fs) =
      (entryLexemes (e :: es) ++ ls).foldl step (.key [] fs) := by
  cases es <;> rfl

mutual

/-- Once the lexemes of a value are read, the value is complete. -/
theorem foldl_lexemes : (j : Json) → (fs : List Frame) → fs.length + j.depth ≤ depthLimit →
    (lexemes j).foldl step (.value fs) = complete (ofJson j) fs
  | .null, fs, _ | .bool _, fs, _ | .number _, fs, _ | .string _, fs, _ => rfl
  | .list [], fs, h => by
    have hlimit : fs.length < depthLimit := h
    exact congrArg (complete · fs) (bracket_of_lt hlimit _)
  | .list (j :: js), fs, h => by
    rw [Json.depth] at h
    have hitems := foldl_items (j :: js) (by simp) [] fs (by omega)
    have hopen : (lexemes (.list (j :: js))).foldl step (.value fs) =
      (itemLexemes (j :: js) ++ [Lexeme.closeList]).foldl step (.firstItem fs) := rfl
    rw [hopen, foldl_firstItem, List.foldl_append, hitems, List.foldl_cons, List.foldl_nil, step,
      bracket_of_lt (by omega), List.append_nil, List.reverse_reverse, ofJson]
  | .object [], fs, h => by
    have hlimit : fs.length < depthLimit := h
    exact congrArg (complete · fs) (bracket_of_lt hlimit _)
  | .object (e :: es), fs, h => by
    rw [Json.depth] at h
    have hentries := foldl_entries (e :: es) (by simp) [] fs (by omega)
    have hopen : (lexemes (.object (e :: es))).foldl step (.value fs) =
      (entryLexemes (e :: es) ++ [Lexeme.closeObject]).foldl step (.firstKey fs) := rfl
    rw [hopen, foldl_firstKey, List.foldl_append, hentries, List.foldl_cons, List.foldl_nil, step,
      bracket_of_lt (by omega), List.append_nil, List.reverse_reverse, ofJson]

theorem foldl_items : (js : List Json) → js ≠ [] → (items : List Reading) → (fs : List Frame) →
    fs.length + 1 + depthItems js ≤ depthLimit →
    (itemLexemes js).foldl step (.value (.list items :: fs)) =
      .moreItems ((ofItems js).reverse ++ items) fs
  | [], h, _, _, _ => absurd rfl h
  | [j], _, items, fs, h => by
    rw [depthItems] at h
    have hfs : (Frame.list items :: fs).length = fs.length + 1 := rfl
    exact foldl_lexemes j (.list items :: fs) (by omega)
  | j :: k :: js, _, items, fs, h => by
    rw [depthItems] at h
    have hfs : (Frame.list items :: fs).length = fs.length + 1 := rfl
    have hitem := foldl_lexemes j (.list items :: fs) (by omega)
    have hitems := foldl_items (k :: js) (by simp) (ofJson j :: items) fs (by omega)
    rw [itemLexemes_cons, List.foldl_append, hitem, List.foldl_cons]
    refine hitems.trans ?_
    have hread : ofItems (j :: k :: js) = ofJson j :: ofItems (k :: js) := rfl
    rw [hread, List.reverse_cons, List.append_assoc]
    rfl

theorem foldl_entries : (es : List (String × Json)) → es ≠ [] →
    (members : List (Lexeme × Reading)) → (fs : List Frame) →
    fs.length + 1 + depthEntries es ≤ depthLimit →
    (entryLexemes es).foldl step (.key members fs) =
      .moreMembers ((ofEntries es).reverse ++ members) fs
  | [], h, _, _, _ => absurd rfl h
  | [(k, j)], _, members, fs, h => by
    rw [depthEntries] at h
    have hfs : (Frame.object members (.string (some k)) :: fs).length = fs.length + 1 := rfl
    have hvalue := foldl_lexemes j (.object members (.string (some k)) :: fs) (by omega)
    exact hvalue
  | (k, j) :: e :: es, _, members, fs, h => by
    rw [depthEntries] at h
    have hfs : (Frame.object members (.string (some k)) :: fs).length = fs.length + 1 := rfl
    have hvalue := foldl_lexemes j (.object members (.string (some k)) :: fs) (by omega)
    have hentries := foldl_entries (e :: es) (by simp) ((.string (some k), ofJson j) :: members) fs
      (by omega)
    rw [entryLexemes_cons, List.foldl_cons, List.foldl_cons, List.foldl_append]
    refine (congrArg (List.foldl step · _) hvalue).trans ?_
    refine hentries.trans ?_
    have hread : ofEntries ((k, j) :: e :: es) =
      (.string (some k), ofJson j) :: ofEntries (e :: es) := rfl
    rw [hread, List.reverse_cons, List.append_assoc]
    rfl

end

end Reading

/-- A value that is not nested too deeply and whose numbers are read back is read back. -/
theorem Scanned.ofText_pretty {j : Json} (hdepth : j.depth ≤ Reading.depthLimit)
    (hnumbers : j.legible = true) : Scanned.ofText j.pretty = ⟨.ofJson j, false⟩ := by
  have hscan := Json.scan_prettyAt 0 j hnumbers [] nofun
  have hfold := Reading.foldl_lexemes j [] (by simpa using hdepth)
  rw [List.append_nil] at hscan
  rw [Scanned.ofText, Lexeme.scan, Json.pretty, hscan, Lexeme.scanFrom, List.append_nil,
    Reading.ofLexemes, hfold]
  rfl

end ReportTheme
