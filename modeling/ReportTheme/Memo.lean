import ReportTheme.Document

/-!
Memoized compilation. The last document is handed out again while the source looks the same; when
only the name has changed it is renamed, and otherwise the source is compiled anew.
-/
namespace ReportTheme

/-- The source last compiled in full and the document last handed out, with counters of how requests
were answered. The counters are natural numbers and never start again, as counters of 64 bits do
after `2 ^ 64` requests. -/
structure Memo where
  last : Option (Source × Document)
  compiles : Nat
  renames : Nat
  hits : Nat
  deriving Repr

namespace Memo

def empty : Memo := ⟨none, 0, 0, 0⟩

def compileAnew (m : Memo) (s : Source) : Document × Memo :=
  let d := s.compile
  (d, { m with last := some (s, d), compiles := m.compiles + 1 })

def get (m : Memo) (s : Source) : Document × Memo :=
  match m.last with
  | some (key, d) =>
    if key.looksLike s then
      if d.name = s.name then (d, { m with hits := m.hits + 1 })
      else
        let renamed := { d with name := s.name }
        (renamed, { m with last := some (key, renamed), renames := m.renames + 1 })
    else m.compileAnew s
  | none => m.compileAnew s

/-- Drops the document, so that the next request compiles. -/
def invalidate (m : Memo) : Memo := { m with last := none }

/-- The number of documents made so far: an answer that leaves it as it was hands out the document
of the answer before. -/
def generation (m : Memo) : Nat := m.compiles + m.renames

end Memo

end ReportTheme
