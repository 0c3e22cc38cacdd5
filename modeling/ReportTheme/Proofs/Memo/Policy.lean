import Mathlib.Data.List.Induction
import Mathlib.Data.Option.Basic
import ReportTheme.Proofs.Memo
import ReportTheme.Proofs.Style.Alike

/-!
When a memo compiles, over any order of requests. It compares with the source that it compiled last,
which may lie many requests back, yet how a request is answered depends on the one just before it
only: what is remembered looks like the source asked for last, and the document bears its name.
-/
namespace ReportTheme

/-- Sources that agree in everything but the name, the order of keys included. -/
structure Source.Alike (s t : Source) : Prop where
  mode : s.mode = t.mode
  fontFamily : s.fontFamily = t.fontFamily
  dataColors : s.dataColors = t.dataColors
  neutralColors : s.neutralColors = t.neutralColors
  styles : s.styles.Alike t.styles
  structuralColors : Bag.Alike s.structuralColors t.structuralColors
  textClasses : Entries.Aligned Bag.Alike s.textClasses t.textClasses

theorem Source.alike_iff (s t : Source) : s.Alike t ↔ s.look = t.look := by
  rw [look_eq_iff, ← StyleTree.alike_iff, ← Bag.alike_iff, ← Bag.aligned_alike_iff]
  exact ⟨fun h => ⟨h.mode, h.dataColors, h.neutralColors, h.fontFamily, h.styles,
      h.structuralColors, h.textClasses⟩,
    fun ⟨hm, hd, hn, hf, hs, hc, ht⟩ => ⟨hm, hf, hd, hn, hs, hc, ht⟩⟩

namespace Memo

/-- The source of the request just before, if that asked for a document. -/
def preceding? (requests : List Request) : Option Source :=
  match requests.getLast? with
  | some (.get s) => some s
  | _ => none

/-- The memo holds a source that looks like the given one and a document of its name, or nothing if
no source is given. -/
def Remembers (m : Memo) (latest : Option Source) : Prop :=
  Option.Rel (fun last s => last.1.look = s.look ∧ last.2.name = s.name) m.last latest

/-- Whatever was remembered before, the source asked for is remembered. -/
theorem remembers_get (m : Memo) (s : Source) : (m.get s).2.Remembers (some s) := by
  rcases m.get_cases s with ⟨key, d, -, hk, -, hlast⟩ | ⟨-, -, hlast⟩
  · rw [Remembers, hlast]
    exact .some ⟨(key.looksLike_iff s).mp hk, rfl⟩
  · rw [Remembers, hlast]
    exact .some ⟨rfl, rfl⟩

theorem remembers_run (requests : List Request) :
    (empty.run requests).Remembers (preceding? requests) := by
  rcases requests.eq_nil_or_concat with rfl | ⟨before, request, rfl⟩
  · exact .none
  · rw [List.concat_eq_append, run, List.foldl_concat, preceding?, List.getLast?_concat]
    cases request with
    | get s => exact remembers_get _ s
    | invalidate => exact .none

/-- How a request for a document is answered. -/
inductive Answer where
  | compiled
  | renamed
  | repeated
  deriving DecidableEq, Repr

/-- One counter is higher by one, and the others are as they were. -/
def Counts (m n : Memo) : Answer → Prop
  | .compiled => n.compiles = m.compiles + 1 ∧ n.renames = m.renames ∧ n.hits = m.hits
  | .renamed => n.compiles = m.compiles ∧ n.renames = m.renames + 1 ∧ n.hits = m.hits
  | .repeated => n.compiles = m.compiles ∧ n.renames = m.renames ∧ n.hits = m.hits + 1

theorem Counts.iff_eq {m n : Memo} {a : Answer} (h : m.Counts n a) (b : Answer) :
    m.Counts n b ↔ b = a := by
  constructor
  · intro hb
    cases a <;> cases b <;> simp only [Counts] at h hb <;> first | rfl | omega
  · rintro rfl
    exact h

theorem Counts.total {m n : Memo} {a : Answer} (h : m.Counts n a) :
    n.compiles + n.renames + n.hits = m.compiles + m.renames + m.hits + 1 := by
  cases a <;> simp only [Counts] at h <;> omega

/-- A request is counted by comparison with the source that the memo remembers. -/
theorem Remembers.counts_get {m : Memo} {latest : Option Source} (h : m.Remembers latest)
    (s : Source) :
    (∀ t, latest = some t → ¬t.Alike s) ∧ m.Counts (m.get s).2 .compiled ∨
    ∃ t, latest = some t ∧ t.Alike s ∧
      (t.name ≠ s.name ∧ m.Counts (m.get s).2 .renamed ∨
        t.name = s.name ∧ m.Counts (m.get s).2 .repeated) := by
  unfold Remembers at h
  cases hlast : m.last with
  | none =>
    rw [hlast] at h
    cases h
    have hget : m.get s = m.compileAnew s := by rw [get, hlast]
    exact .inl ⟨by simp, by rw [hget]; exact ⟨rfl, rfl, rfl⟩⟩
  | some last =>
    obtain ⟨key, d⟩ := last
    rw [hlast] at h
    obtain ⟨t, rfl, hlook, hname⟩ : ∃ t, latest = some t ∧ key.look = t.look ∧ d.name = t.name := by
      cases h with
      | some ht => exact ⟨_, rfl, ht⟩
    have halike : t.Alike s ↔ key.looksLike s = true := by
      rw [Source.alike_iff, Source.looksLike_iff, hlook]
    by_cases hk : key.looksLike s = true
    · refine .inr ⟨t, rfl, halike.mpr hk, ?_⟩
      rw [← hname]
      by_cases hn : d.name = s.name
      · exact .inr ⟨hn, by simp [get, hlast, hk, hn, Counts]⟩
      · exact .inl ⟨hn, by simp [get, hlast, hk, hn, Counts]⟩
    · refine .inl ⟨fun u hu => ?_, by simp [get, hlast, hk, compileAnew, Counts]⟩
      obtain rfl := Option.some.inj hu
      exact mt halike.mp hk

def Request.isGet : Request → Bool
  | .get _ => true
  | .invalidate => false

theorem total_run (requests : List Request) :
    (empty.run requests).compiles + (empty.run requests).renames + (empty.run requests).hits =
      requests.countP Request.isGet := by
  induction requests using List.reverseRecOn with
  | nil => rfl
  | append_singleton requests request ih =>
    rw [run, List.foldl_concat, ← run, List.countP_append, ← ih]
    cases request with
    | get s =>
      have hcounts : ∃ a, (empty.run requests).Counts ((empty.run requests).get s).2 a := by
        rcases (remembers_run requests).counts_get s with ⟨-, h⟩ | ⟨t, -, -, ⟨-, h⟩ | ⟨-, h⟩⟩
        all_goals exact ⟨_, h⟩
      obtain ⟨a, ha⟩ := hcounts
      exact ha.total
    | invalidate => rfl

/-- After any requests the counters add up to the number of documents asked for. The next request is
answered by compiling just if the one before it did not ask for a document, or for one of a source
that differs in more than the name; by renaming if the source differs in the name only; and by the
same document again if it does not differ. -/
theorem counted_by_preceding (requests : List Request) (s : Source) :
    (empty.run requests).compiles + (empty.run requests).renames + (empty.run requests).hits =
      requests.countP Request.isGet ∧
    ((empty.run requests).Counts (empty.run (requests ++ [.get s])) .compiled ↔
      ∀ t, preceding? requests = some t → ¬t.Alike s) ∧
    ((empty.run requests).Counts (empty.run (requests ++ [.get s])) .renamed ↔
      ∃ t, preceding? requests = some t ∧ t.Alike s ∧ t.name ≠ s.name) ∧
    ((empty.run requests).Counts (empty.run (requests ++ [.get s])) .repeated ↔
      ∃ t, preceding? requests = some t ∧ t.Alike s ∧ t.name = s.name) := by
  have hnext : empty.run (requests ++ [.get s]) = ((empty.run requests).get s).2 := by
    rw [run, List.foldl_concat]
    rfl
  rw [hnext]
  refine ⟨total_run requests, ?_⟩
  rcases (remembers_run requests).counts_get s with ⟨hdiffers, hcounts⟩ | ⟨t, ht, halike, hcases⟩
  · have hnone : ∀ t, preceding? requests = some t → t.Alike s → False := hdiffers
    simp only [hcounts.iff_eq, reduceCtorEq, true_iff, false_iff]
    exact ⟨hdiffers, fun ⟨t, ht, h, _⟩ => hnone t ht h, fun ⟨t, ht, h, _⟩ => hnone t ht h⟩
  · simp only [ht, Option.some.injEq, forall_eq', exists_eq_left', halike, true_and, not_true]
    rcases hcases with ⟨hname, hcounts⟩ | ⟨hname, hcounts⟩
    · simp [hcounts.iff_eq, hname]
    · simp [hcounts.iff_eq, hname]

end Memo

end ReportTheme
