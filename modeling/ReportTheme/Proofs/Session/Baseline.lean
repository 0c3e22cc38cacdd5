import Mathlib.Data.List.DropRight
import ReportTheme.Proofs.Session.Content
import ReportTheme.Proofs.Session.Selection

/-!
Going back to the baseline. A reset shows the theme of the last load or save, or the one that the
session started with, whatever was done since; a second reset does nothing more.
-/
namespace ReportTheme

namespace Operation

/-- Whether an operation makes the theme that it leaves the baseline. -/
def takesBaseline : Operation → Bool
  | .load _ | .markSaved => true
  | _ => false

/-- The operations up to the last one that takes a baseline; none, if none does. -/
def upToBaseline (ops : List Operation) : List Operation :=
  ops.rdropWhile fun op => !op.takesBaseline

end Operation

namespace Editor

theorem run_concat (e : Editor) (ops : List Operation) (op : Operation) :
    e.run (ops ++ [op]) = (e.run ops).perform op := by
  rw [run, List.foldl_append, List.foldl_cons, List.foldl_nil, run]

theorem baseline_of_takesBaseline (e : Editor) {op : Operation} (h : op.takesBaseline = true) :
    (e.perform op).changes.baseline = some (e.perform op).theme := by
  cases op with
  | load t => rfl
  | markSaved => rfl
  | _ => cases h

theorem baseline_of_not_takesBaseline (e : Editor) {op : Operation}
    (h : op.takesBaseline = false) :
    (e.perform op).changes.baseline = e.changes.baseline := by
  rw [baseline_perform]
  cases op with
  | load t => cases h
  | markSaved => cases h
  | _ => rfl

/-- The baseline of a session is the theme that it held when a baseline was last taken. -/
theorem baseline_run (t : Theme) (ops : List Operation) :
    ((new t).run ops).changes.baseline =
      some ((new t).run (Operation.upToBaseline ops)).theme := by
  induction ops using List.reverseRecOn with
  | nil => rfl
  | append_singleton ops op ih =>
    cases h : op.takesBaseline with
    | true =>
      have hlast : Operation.upToBaseline (ops ++ [op]) = ops ++ [op] :=
        List.rdropWhile_concat_neg _ _ _ (by simp [h])
      rw [hlast, run_concat]
      exact baseline_of_takesBaseline _ h
    | false =>
      have hearlier : Operation.upToBaseline (ops ++ [op]) = Operation.upToBaseline ops :=
        List.rdropWhile_concat_pos _ _ _ (by simp [h])
      rw [hearlier, run_concat, baseline_of_not_takesBaseline _ h]
      exact ih

/-- Going back once is enough. -/
theorem Settled.reset_reset {e : Editor} (h : e.Settled) : e.reset.reset = e.reset := by
  have hreset : e.reset.Settled := h.perform .reset
  have htheme : e.reset.reset.theme = e.reset.theme :=
    Option.some.inj (hreset.theme_reset.symm.trans h.theme_reset)
  calc e.reset.reset = { e.reset with theme := e.reset.reset.theme } := rfl
    _ = e.reset := by rw [htheme]

/-- After a reset the theme is the one that the session held when a baseline was last taken, and
nothing counts as changed. The baseline is that theme before the reset and after it, and a further
reset changes nothing at all. -/
theorem reset_returns (t : Theme) (ops : List Operation) :
    ((new t).run ops).reset.theme = ((new t).run (Operation.upToBaseline ops)).theme ∧
    ((new t).run ops).reset.hasUnsavedChanges = false ∧
    ((new t).run ops).changes.baseline = some ((new t).run (Operation.upToBaseline ops)).theme ∧
    ((new t).run ops).reset.changes.baseline = ((new t).run ops).changes.baseline ∧
    ((new t).run ops).reset.reset = ((new t).run ops).reset := by
  have h : ((new t).run ops).Settled :=
    run_invariant (fun e he op _ => he.perform op) (settled_new t)
  have hbaseline := baseline_run t ops
  have htheme : ((new t).run ops).reset.theme =
      ((new t).run (Operation.upToBaseline ops)).theme :=
    Option.some.inj (h.theme_reset.symm.trans hbaseline)
  exact ⟨htheme, rfl, hbaseline, rfl, h.reset_reset⟩

end Editor

end ReportTheme
