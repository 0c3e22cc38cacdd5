import Mathlib.Logic.ExistsUnique
import ReportTheme.Changes

/-!
Paths and their dotted text. A text is read as what stands between its dots, less what is empty
there; so a path is read back from its own text just if a dotted text can hold all of its segments,
and two texts are the same path just if they agree in their pieces that are not empty.
-/
namespace ReportTheme

namespace Path

/-- Texts without dots that make up a text when dots are put between them. -/
structure IsPieces (s : String) (ps : List String) : Prop where
  joined : ".".intercalate ps = s
  dotFree : ∀ piece ∈ ps, '.' ∉ piece.toList
  ne_nil : ps ≠ []

/-- What stands between the dots of a text, the empty pieces included. -/
def pieces (s : String) : List String := (segments s.toList []).map String.ofList

theorem segments_eq_splitOnPPrepend (cs segment : List Char) :
    segments cs segment = cs.splitOnPPrepend (· == '.') segment := by
  induction cs generalizing segment with
  | nil => rw [segments, List.splitOnPPrepend_nil]
  | cons c cs ih =>
    rw [segments, List.splitOnPPrepend_cons_eq_if, ih, ih, List.splitOnPPrepend_nil_right]
    simp only [beq_iff_eq]

theorem map_toList_pieces (s : String) : (pieces s).map String.toList = s.toList.splitOn '.' := by
  have hinv : String.toList ∘ String.ofList = id := funext fun _ => String.toList_ofList
  rw [pieces, List.map_map, hinv, List.map_id]
  exact segments_eq_splitOnPPrepend s.toList []

theorem dot_not_mem_of_mem_segments {cs segment piece : List Char} (hs : '.' ∉ segment)
    (h : piece ∈ segments cs segment) : '.' ∉ piece := by
  induction cs generalizing segment with
  | nil =>
    rw [segments, List.mem_singleton] at h
    rw [h, List.mem_reverse]
    exact hs
  | cons c cs ih =>
    rw [segments] at h
    by_cases hc : c = '.'
    · rw [if_pos hc] at h
      rcases List.mem_cons.mp h with rfl | h
      · rw [List.mem_reverse]
        exact hs
      · exact ih List.not_mem_nil h
    · rw [if_neg hc] at h
      exact ih (List.not_mem_cons_of_ne_of_not_mem (Ne.symm hc) hs) h

theorem isPieces_pieces (s : String) : IsPieces s (pieces s) where
  joined := by
    rw [← String.toList_inj, String.toList_intercalate, map_toList_pieces]
    exact List.intercalate_splitOn '.'
  dotFree piece h := by
    obtain ⟨cs, hcs, rfl⟩ := List.mem_map.mp h
    rw [String.toList_ofList]
    exact dot_not_mem_of_mem_segments List.not_mem_nil hcs
  ne_nil h := by
    have hnil : s.toList.splitOn '.' = [] := by rw [← map_toList_pieces, h, List.map_nil]
    exact List.splitOn_ne_nil '.' s.toList hnil

theorem IsPieces.eq_pieces {s : String} {ps : List String} (h : IsPieces s ps) :
    ps = pieces s := by
  have hsame : ps.map String.toList = (pieces s).map String.toList := by
    rw [map_toList_pieces, ← h.joined, String.toList_intercalate]
    refine (List.splitOn_intercalate '.' ?_ ?_).symm
    · exact List.forall_mem_map.mpr h.dotFree
    · exact mt List.map_eq_nil_iff.mp h.ne_nil
  exact (List.map_inj_right fun _ _ => String.toList_inj.mp).mp hsame

theorem isPieces_iff {s : String} {ps : List String} : IsPieces s ps ↔ ps = pieces s :=
  ⟨IsPieces.eq_pieces, fun h => h ▸ isPieces_pieces s⟩

theorem parse_eq (s : String) : parse s = (pieces s).filter (· ≠ "") := by
  rw [parse, pieces, List.filter_map]
  congr 1
  refine List.filter_congr fun cs _ => ?_
  cases cs <;> simp

example : parse "a..b." = ["a", "b"] := by decide

/-- No segment is empty or holds a dot. -/
def Plain (p : Path) : Prop := ∀ segment ∈ p, segment ≠ "" ∧ '.' ∉ segment.toList

theorem plain_parse (s : String) : (parse s).Plain := by
  intro segment h
  rw [parse_eq, List.mem_filter, decide_eq_true_eq] at h
  exact ⟨h.2, (isPieces_pieces s).dotFree segment h.1⟩

theorem Plain.parse_text {p : Path} (h : p.Plain) : parse p.text = p := by
  by_cases hp : p = []
  · subst hp
    rfl
  · have hpieces : IsPieces p.text p := ⟨rfl, fun segment hs => (h segment hs).2, hp⟩
    rw [parse_eq, ← hpieces.eq_pieces, List.filter_eq_self]
    intro segment hs
    exact decide_eq_true (h segment hs).1

theorem parse_text_iff {p : Path} : parse p.text = p ↔ p.Plain :=
  ⟨fun h => h ▸ plain_parse p.text, Plain.parse_text⟩

theorem parse_eq_parse_iff {s t : String} : parse s = parse t ↔
    ∃ ps qs, IsPieces s ps ∧ IsPieces t qs ∧ ps.filter (· ≠ "") = qs.filter (· ≠ "") := by
  simp only [isPieces_iff, parse_eq, exists_and_left, exists_eq_left]

/-- A path and its dotted text are the same thing just where no segment is empty or holds a dot.
Reading a text gives only such paths, and all that it keeps of the text are the pieces between the
dots that are not empty. -/
theorem text_round_trip :
    (∀ p : Path, parse p.text = p ↔ p.Plain) ∧
    (∀ s, (parse s).Plain ∧ parse (parse s).text = parse s) ∧
    (∀ s, ∃! ps, IsPieces s ps) ∧
    ∀ s t, parse s = parse t ↔
      ∃ ps qs, IsPieces s ps ∧ IsPieces t qs ∧ ps.filter (· ≠ "") = qs.filter (· ≠ "") := by
  refine ⟨fun p => parse_text_iff, fun s => ⟨plain_parse s, (plain_parse s).parse_text⟩, ?_,
    fun s t => parse_eq_parse_iff⟩
  exact fun s => ⟨pieces s, isPieces_pieces s, fun ps h => h.eq_pieces⟩

end Path

end ReportTheme
