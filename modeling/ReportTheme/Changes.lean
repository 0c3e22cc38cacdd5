import ReportTheme.Theme

/-!
Change tracking: the set of property paths touched since the last baseline. Paths are kept in
order, segment by segment.
-/
namespace ReportTheme

abbrev Path := List String

namespace Path

/-- Splits at dots; empty segments are dropped. -/
def segments (cs : List Char) (segment : List Char) : List (List Char) :=
  match cs with
  | [] => [segment.reverse]
  | c :: cs => if c = '.' then segment.reverse :: segments cs [] else segments cs (c :: segment)

def parse (s : String) : Path :=
  ((segments s.toList []).filter fun cs => !cs.isEmpty).map String.ofList

def text (p : Path) : String := dotted p

/-- Whether a path lies under `top`, segment by segment. -/
def isUnder (p top : Path) : Bool := top.isPrefixOf p

def child (p : Path) (segment : String) : Path := p ++ [segment]

/-- A path comes before its extensions; otherwise the first different segment decides. -/
def before : Path → Path → Bool
  | [], [] => false
  | [], _ :: _ => true
  | _ :: _, [] => false
  | s :: p, t :: q => s < t || (s == t && before p q)

/-- Adds a path to a sorted list without repetition. -/
def insertInto (p : Path) : List Path → List Path
  | [] => [p]
  | q :: ps => if p = q then q :: ps else if before p q then p :: q :: ps else q :: insertInto p ps

end Path

structure Changes where
  paths : List Path
  baseline : Option Theme
  deriving Repr

namespace Changes

def empty : Changes := ⟨[], none⟩

/-- Records a path; the empty path is no change. -/
def track (c : Changes) (p : Path) : Changes :=
  if p.isEmpty then c else { c with paths := p.insertInto c.paths }

def has (c : Changes) (p : Path) : Bool := c.paths.contains p

def count (c : Changes) (top : Path) : Nat := c.paths.countP (·.isUnder top)

def hasUnder (c : Changes) (top : Path) : Bool := c.paths.any (·.isUnder top)

def isEmpty (c : Changes) : Bool := c.paths.isEmpty

def clear (c : Changes) : Changes := { c with paths := [] }

/-- Takes a new baseline, from which nothing has changed. -/
def setBaseline (_ : Changes) (t : Theme) : Changes := ⟨[], some t⟩

end Changes

end ReportTheme
