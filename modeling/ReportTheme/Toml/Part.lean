import ReportTheme.Toml.Definition
import ReportTheme.Toml.Mark
import ReportTheme.Toml.Scalar

/-!
Parts: the marks of a text with what stands between brackets put together, and the keys and values
that parts stand for.
-/
namespace ReportTheme.Toml

inductive Part where
  | mark (m : Mark)
  | list (parts : List Part)
  | table (parts : List Part)
  deriving Repr, Inhabited

namespace Part

/-- The parts of the innermost bracket so far, latest first, and for every open bracket whether it
is that of a table and what stands before it. -/
structure Opened where
  parts : List Part
  outer : List (Bool × List Part)

/-- The number of brackets that may be open at once. -/
def depthLimit : Nat := 79

def openBracket (isTable : Bool) (s : Opened) : Option Opened :=
  if s.outer.length < depthLimit then some ⟨[], (isTable, s.parts) :: s.outer⟩ else none

def closeBracket (isTable : Bool) (s : Opened) : Option Opened :=
  match s.outer with
  | (opened, before) :: outer =>
    if opened = isTable then
      let part := if isTable then table s.parts.reverse else list s.parts.reverse
      some ⟨part :: before, outer⟩
    else none
  | [] => none

def step (s : Opened) : Mark → Option Opened
  | .openList => openBracket false s
  | .openTable => openBracket true s
  | .closeList => closeBracket false s
  | .closeTable => closeBracket true s
  | m => some { s with parts := .mark m :: s.parts }

/-- Puts together what stands between brackets, if every bracket has its partner. -/
def ofMarks? (ms : List Mark) : Option (List Part) := do
  let s ← ms.foldlM step ⟨[], []⟩
  if s.outer.isEmpty then some s.parts.reverse else none

def isMark (m : Mark) : Part → Bool
  | .mark n => n = m
  | _ => false

def isBareName (name : String) : Bool :=
  name.toList.all fun c => Mark.isWordChar c && c ≠ '+' && c ≠ '.'

/-- The names and dots that a part of a key consists of; a dot is `none`. -/
def keyAtoms? : Part → Option (List (Option String))
  | .mark .blank => some []
  | .mark (.string s false) => some [some s]
  | .mark (.word w) =>
    let names := w.splitOn "."
    if names.all isBareName then some ((names.map some).intersperse none |>.filter (· ≠ some ""))
    else none
  | _ => none

/-- Names with single dots between them. -/
def names? : List (Option String) → Option (List String)
  | [some name] => some [name]
  | some name :: none :: atoms => (names? atoms).map (name :: ·)
  | _ => none

/-- A key has no more names than brackets may be open at once. -/
def key? (parts : List Part) : Option (List String) := do
  let atoms ← parts.mapM keyAtoms?
  let names ← names? atoms.flatten
  if names.length ≤ depthLimit then some names else none

mutual

def value? : Part → Option Toml
  | .mark (.string s _) => some (.string s)
  | .mark (.word w) => scalar? w
  | .mark _ => none
  | .list parts => (items? parts).map .list
  | .table parts => (members? [] parts).bind Node.ofPairs?

/-- Items of a list: commas between them, perhaps one after them, and line ends anywhere. -/
def items? : List Part → Option (List Toml)
  | [] => some []
  | p :: parts =>
    if p.isMark .blank || p.isMark .newline then items? parts
    else do
      let v ← value? p
      let vs ← moreItems? parts
      return v :: vs

def moreItems? : List Part → Option (List Toml)
  | [] => some []
  | p :: parts =>
    if p.isMark .blank || p.isMark .newline then moreItems? parts
    else if p.isMark .comma then items? parts
    else none

/-- Members of a table on one line; `key` is what stands before the equals sign, latest first. -/
def members? (key : List Part) : List Part → Option (List (List String × Toml))
  | [] => if key.isEmpty then some [] else none
  | p :: parts =>
    if p.isMark .equals then memberValue? key.reverse parts
    else if p.isMark .blank then members? key parts
    else members? (p :: key) parts

def memberValue? (key : List Part) : List Part → Option (List (List String × Toml))
  | [] => none
  | p :: parts =>
    if p.isMark .blank then memberValue? key parts
    else do
      let path ← key? key
      let v ← value? p
      let ms ← moreMembers? parts
      return (path, v) :: ms

def moreMembers? : List Part → Option (List (List String × Toml))
  | [] => some []
  | p :: parts =>
    if p.isMark .blank then moreMembers? parts
    else if p.isMark .comma && !parts.all (·.isMark .blank) then members? [] parts
    else none

end

end Part

end ReportTheme.Toml
