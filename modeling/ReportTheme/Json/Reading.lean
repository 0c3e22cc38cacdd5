import ReportTheme.Json.Lexeme
import ReportTheme.Json.Basic

/-!
Readings: the bracket structure of a text, built by a pushdown automaton that folds over the
lexemes, with the first fault kept where it was met. A decoder walks a reading from left to right
and so reports the first thing that is wrong, be it a fault or a value of the wrong kind.
-/
namespace ReportTheme

/-- The key of a member is whatever lexeme stands in its place. The ending of a list or object is
the fault met where a comma or the closing bracket should be. -/
inductive Reading where
  | leaf (l : Lexeme)
  | list (items : List Reading) (ending : Option Fault)
  | object (members : List (Lexeme × Reading)) (ending : Option Fault)
  /-- Brackets too deep to be decoded; they may be passed over. -/
  | deep (r : Reading)
  deriving Repr, Inhabited

/-- What a text holds, and whether anything follows it. -/
structure Scanned where
  root : Reading
  trailing : Bool
  deriving Repr, Inhabited

namespace Reading

/-- An open bracket: what it holds so far, latest first, and in an object the key whose value is
being read. -/
inductive Frame where
  | list (items : List Reading)
  | object (members : List (Lexeme × Reading)) (key : Lexeme)

/-- What is due next, and the brackets that are open, innermost first. -/
inductive State where
  | value (frames : List Frame)
  | firstItem (frames : List Frame)
  | moreItems (items : List Reading) (frames : List Frame)
  | firstKey (frames : List Frame)
  | key (members : List (Lexeme × Reading)) (frames : List Frame)
  | colon (members : List (Lexeme × Reading)) (key : Lexeme) (frames : List Frame)
  | moreMembers (members : List (Lexeme × Reading)) (frames : List Frame)
  | done (r : Reading)
  | stopped (s : Scanned)

/-- The number of brackets that may be open at once. -/
def depthLimit : Nat := 127

/-- Marks brackets that stand inside `frames` when they are too deep. -/
def bracket (frames : List Frame) (r : Reading) : Reading :=
  if frames.length < depthLimit then r else .deep r

def misplaced : Reading := .leaf (.broken ' ' .malformed .malformed)

/-- Hands a finished value to the innermost open bracket. -/
def complete (r : Reading) : List Frame → State
  | [] => .done r
  | .list items :: fs => .moreItems (r :: items) fs
  | .object members key :: fs => .moreMembers ((key, r) :: members) fs

/-- Leaves all open brackets unfinished around a reading that ends in a fault. -/
def unwind (r : Reading) : List Frame → Reading
  | [] => r
  | .list items :: fs => unwind (bracket fs (.list (r :: items).reverse none)) fs
  | .object members key :: fs =>
    unwind (bracket fs (.object ((key, r) :: members).reverse none)) fs

def stop (r : Reading) (frames : List Frame) : State := .stopped ⟨unwind r frames, false⟩

def startValue (frames : List Frame) : Lexeme → State
  | .openList => .firstItem frames
  | .openObject => .firstKey frames
  | .null => complete (.leaf .null) frames
  | .bool b => complete (.leaf (.bool b)) frames
  | .number v => complete (.leaf (.number v)) frames
  | .string s => complete (.leaf (.string s)) frames
  | l => stop (.leaf l) frames

def startMember (members : List (Lexeme × Reading)) (frames : List Frame) : Lexeme → State
  | .string s => .colon members (.string s) frames
  | l => stop (bracket frames (.object ((l, misplaced) :: members).reverse none)) frames

def step : State → Lexeme → State
  | .value fs, l => startValue fs l
  | .firstItem fs, .closeList => complete (bracket fs (.list [] none)) fs
  | .firstItem fs, l => startValue (.list [] :: fs) l
  | .moreItems items fs, .comma => .value (.list items :: fs)
  | .moreItems items fs, .closeList => complete (bracket fs (.list items.reverse none)) fs
  | .moreItems items fs, _ => stop (bracket fs (.list items.reverse (some .malformed))) fs
  | .firstKey fs, .closeObject => complete (bracket fs (.object [] none)) fs
  | .firstKey fs, l => startMember [] fs l
  | .key members fs, l => startMember members fs l
  | .colon members key fs, .colon => .value (.object members key :: fs)
  | .colon members key fs, _ =>
    stop (bracket fs (.object ((key, misplaced) :: members).reverse none)) fs
  | .moreMembers members fs, .comma => .key members fs
  | .moreMembers members fs, .closeObject =>
    complete (bracket fs (.object members.reverse none)) fs
  | .moreMembers members fs, _ =>
    stop (bracket fs (.object members.reverse (some .malformed))) fs
  | .done r, _ => .stopped ⟨r, true⟩
  | .stopped s, _ => .stopped s

/-- The reading of a text that ends in the given state. -/
def finish : State → Scanned
  | .value fs => ⟨unwind (.leaf .absent) fs, false⟩
  | .firstItem fs => ⟨unwind (bracket fs (.list [] (some .truncated))) fs, false⟩
  | .moreItems items fs =>
    ⟨unwind (bracket fs (.list items.reverse (some .truncated))) fs, false⟩
  | .firstKey fs => ⟨unwind (bracket fs (.object [] (some .truncated))) fs, false⟩
  | .key members fs =>
    ⟨unwind (bracket fs (.object ((.absent, misplaced) :: members).reverse none)) fs, false⟩
  | .colon members key fs =>
    ⟨unwind (bracket fs (.object ((key, .leaf .absent) :: members).reverse none)) fs, false⟩
  | .moreMembers members fs =>
    ⟨unwind (bracket fs (.object members.reverse (some .truncated))) fs, false⟩
  | .done r => ⟨r, false⟩
  | .stopped s => s

def ofLexemes (ls : List Lexeme) : Scanned := finish (ls.foldl step (.value []))

end Reading

def Scanned.ofText (text : String) : Scanned := Reading.ofLexemes (Lexeme.scan text.toList)

namespace Reading

mutual

/-- The reading of the written form of a value. -/
def ofJson : Json → Reading
  | .null => .leaf .null
  | .bool b => .leaf (.bool b)
  | .number n => .leaf (.number (some n))
  | .string s => .leaf (.string (some s))
  | .list items => .list (ofItems items) none
  | .object entries => .object (ofEntries entries) none

def ofItems : List Json → List Reading
  | [] => []
  | j :: js => ofJson j :: ofItems js

def ofEntries : List (String × Json) → List (Lexeme × Reading)
  | [] => []
  | (k, j) :: es => (.string (some k), ofJson j) :: ofEntries es

end

/-- What is met on passing over a lexeme in the place of a value. -/
def passedLeaf : Lexeme → Option Fault
  | .null | .bool _ | .number _ | .string _ => none
  | .broken _ _ f => some f
  | .absent => some .truncated
  | _ => some .malformed

def passedKey : Lexeme → Option Fault
  | .string _ => none
  | .broken '"' _ f => some f
  | .absent => some .truncated
  | _ => some .malformed

mutual

/-- The first fault met on passing over a reading without decoding it. -/
def passed : Reading → Option Fault
  | .leaf l => passedLeaf l
  | .list items ending => passedItems items ending
  | .object members ending => passedMembers members ending
  | .deep r => passed r

def passedItems : List Reading → Option Fault → Option Fault
  | [], ending => ending
  | r :: rs, ending => (passed r).or (passedItems rs ending)

def passedMembers : List (Lexeme × Reading) → Option Fault → Option Fault
  | [], ending => ending
  | (k, r) :: ms, ending => (passedKey k).or ((passed r).or (passedMembers ms ending))

end

end Reading

end ReportTheme
