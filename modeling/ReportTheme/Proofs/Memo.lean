import ReportTheme.Memo
import ReportTheme.Proofs.Document

/-!
Memoized against direct compilation, over any order of requests. The document handed out is that of
a source that looks the same, so its diagnostics are right and its text can be wrong in the sign of
a zero only.
-/
namespace ReportTheme.Memo

inductive Request where
  | get (s : Source)
  | invalidate
  deriving Repr

/-- The memo after a request; what a request answers is left out. -/
def serve (m : Memo) : Request → Memo
  | .get s => (m.get s).2
  | .invalidate => m.invalidate

def run (m : Memo) (requests : List Request) : Memo := requests.foldl serve m

/-- The last document is that of the remembered source, under some name. -/
def Sound (m : Memo) : Prop :=
  ∀ key d, m.last = some (key, d) → d = { key.compile with name := d.name }

theorem sound_empty : empty.Sound := by
  intro key d h
  cases h

/-- Either the remembered source looks the same and its document is handed out under the right
name, or the source is compiled. -/
theorem get_cases (m : Memo) (s : Source) :
    (∃ key d, m.last = some (key, d) ∧ key.looksLike s = true ∧
      (m.get s).1 = { d with name := s.name } ∧
      (m.get s).2.last = some (key, { d with name := s.name })) ∨
    ((∀ key d, m.last = some (key, d) → key.looksLike s = false) ∧
      (m.get s).1 = s.compile ∧ (m.get s).2.last = some (s, s.compile)) := by
  cases hl : m.last with
  | none =>
    right
    simp [get, hl, compileAnew]
  | some last =>
    obtain ⟨key, d⟩ := last
    by_cases hk : key.looksLike s = true
    · left
      refine ⟨key, d, rfl, hk, ?_⟩
      by_cases hn : d.name = s.name
      · have hd : ({ d with name := s.name } : Document) = d := by rw [← hn]
        simp [get, hl, hk, hn, hd]
      · simp [get, hl, hk, hn]
    · right
      simp [get, hl, hk, compileAnew]

theorem Sound.get {m : Memo} (h : m.Sound) (s : Source) : (m.get s).2.Sound := by
  rcases m.get_cases s with ⟨key, d, hl, -, -, hlast⟩ | ⟨-, -, hlast⟩ <;> intro k e he <;>
    obtain ⟨rfl, rfl⟩ := Prod.mk.inj (Option.some.inj (hlast.symm.trans he))
  · rw [h key d hl]
  · rfl

/-- An answer differs from the document of its source in signs of zero only. -/
theorem Sound.unsigned_get {m : Memo} (h : m.Sound) (s : Source) :
    (m.get s).1.unsigned = s.compile.unsigned := by
  rcases m.get_cases s with ⟨key, d, hl, hk, ha, -⟩ | ⟨-, ha, -⟩
  · rw [ha, h key d hl]
    exact Source.renamed_unsigned ((key.looksLike_iff s).mp hk)
  · rw [ha]

/-- Asked for the same source again, a memo hands out the same document. -/
theorem get_get (m : Memo) (s : Source) : ((m.get s).2.get s).1 = (m.get s).1 := by
  have hanswer : ∃ key, key.looksLike s = true ∧ (m.get s).2.last = some (key, (m.get s).1) ∧
      (m.get s).1.name = s.name := by
    rcases m.get_cases s with ⟨key, d, -, hk, ha, hlast⟩ | ⟨-, ha, hlast⟩
    · exact ⟨key, hk, by rw [hlast, ha], by rw [ha]⟩
    · exact ⟨s, (s.looksLike_iff s).mpr rfl, by rw [hlast, ha], by rw [ha]; rfl⟩
  obtain ⟨key, hk, hlast, hname⟩ := hanswer
  rw [get, hlast]
  simp [hk, hname]

theorem Sound.run {m : Memo} (h : m.Sound) (requests : List Request) : (m.run requests).Sound := by
  induction requests generalizing m with
  | nil => exact h
  | cons request requests ih =>
    refine ih ?_
    cases request with
    | get s => exact h.get s
    | invalidate => exact fun key d hl => nomatch hl

/-- After any requests, the answer to the next has the diagnostics of its source, and the document
up to signs of zero. It has the text of the document just if a remembered source that looks the same
shows the same too. -/
theorem answer_after_run (requests : List Request) (s : Source) :
    ((empty.run requests).get s).1.diagnostics = s.compile.diagnostics ∧
    ((empty.run requests).get s).1.unsigned = s.compile.unsigned ∧
    (((empty.run requests).get s).1.text false = s.compile.text false ↔
      ∀ key d, (empty.run requests).last = some (key, d) → key.looksLike s = true →
        key.shown = s.shown) := by
  have hsound := sound_empty.run requests
  rcases (empty.run requests).get_cases s with ⟨key, d, hl, hk, ha, -⟩ | ⟨hmiss, ha, -⟩
  · have hlook := (key.looksLike_iff s).mp hk
    have hanswer : ((empty.run requests).get s).1 = { key.compile with name := s.name } := by
      rw [ha, hsound key d hl]
    rw [hanswer]
    refine ⟨?_, Source.renamed_unsigned hlook, (Source.renamed_text_iff hlook).trans ?_⟩
    · exact key.diagnostics_look.symm.trans
        ((congrArg Source.diagnostics hlook).trans s.diagnostics_look)
    · constructor
      · intro hs k e he _
        obtain ⟨rfl, -⟩ := Prod.mk.inj (Option.some.inj (hl.symm.trans he))
        exact hs
      · exact fun hs => hs key d hl hk
  · rw [ha]
    refine ⟨rfl, rfl, fun _ key d hl hk => ?_, fun _ => rfl⟩
    rw [hmiss key d hl] at hk
    cases hk

/-- A source with a zero of either sign as its one style. -/
def zeroSource (negative : Bool) : Source where
  name := ""
  mode := .light
  dataColors := []
  neutralColors := []
  fontFamily := ""
  styles := StyleTree.empty.setBag globalVisual defaultVariant
    [("x", .number (.double (.zero negative)))]
  structuralColors := []
  textClasses := []

/-- A negative zero asked for after a positive one is answered with the positive one. -/
theorem stale_zero :
    ((empty.run [.get (zeroSource false)]).get (zeroSource true)).1.text false =
      (zeroSource false).compile.text false ∧
    (zeroSource false).compile.text false ≠ (zeroSource true).compile.text false := by
  decide

end ReportTheme.Memo
