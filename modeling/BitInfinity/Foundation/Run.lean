import Mathlib.Tactic

/-!
# Labelled runs

Finite runs of a labelled transition relation, recorded with the labels of their steps, and
the induction rules with which a property of single steps becomes one of whole runs.
-/

namespace BitInfinity.Foundation

universe u v

section Runs

variable {σ : Type u} {ι : Type v}

/-- `Run step s labels t`: the steps with these labels lead from `s` to `t`. -/
inductive Run (step : σ → ι → σ → Prop) (s : σ) : List ι → σ → Prop
  | refl : Run step s [] s
  | snoc {labels t u i} : Run step s labels t → step t i u → Run step s (labels ++ [i]) u

/-- A run all of whose states, the first and the last included, satisfy a property. -/
def RunThrough (step : σ → ι → σ → Prop) (good : σ → Prop) (s : σ) (labels : List ι)
    (t : σ) : Prop :=
  good s ∧ Run (fun a i b => step a i b ∧ good b) s labels t

variable {step : σ → ι → σ → Prop} {s t u : σ} {labels labels' : List ι}

variable {i : ι} {step' : σ → ι → σ → Prop}

theorem Run.single (h : step s i t) : Run step s [i] t := @Run.snoc _ _ step s [] s t i .refl h

theorem Run.trans (h₁ : Run step s labels t) (h₂ : Run step t labels' u) :
    Run step s (labels ++ labels') u := by
  induction h₂ with
  | refl => simpa using h₁
  | snoc _ hstep ih => simpa [List.append_assoc] using Run.snoc ih hstep

theorem Run.mono (himp : ∀ a i b, step a i b → step' a i b)
    (h : Run step s labels t) : Run step' s labels t := by
  induction h with
  | refl => exact .refl
  | snoc _ hstep ih => exact .snoc ih (himp _ _ _ hstep)

theorem Run.mono_of_invariant (P : σ → Prop) (h : Run step s labels t) (h0 : P s)
    (hstep : ∀ a i b, P a → step a i b → step' a i b ∧ P b) : Run step' s labels t ∧ P t := by
  induction h with
  | refl => exact ⟨.refl, h0⟩
  | snoc _ hs ih =>
    obtain ⟨hrun, ha⟩ := ih
    obtain ⟨hs', hb⟩ := hstep _ _ _ ha hs
    exact ⟨.snoc hrun hs', hb⟩

theorem Run.of_foldlM {f : σ → ι → Option σ} (h : labels.foldlM f s = some t) :
    Run (fun a i b => f a i = some b) s labels t := by
  induction labels generalizing s with
  | nil =>
    cases h
    exact .refl
  | cons i labels ih =>
    obtain ⟨u, hu, hrest⟩ := Option.bind_eq_some_iff.mp h
    exact (Run.single hu).trans (ih hrest)

/-- A property of the labels so far and the current state that the start has and every step
preserves holds at the end of the run. -/
theorem Run.invariant (P : List ι → σ → Prop) (h : Run step s labels t) (h0 : P [] s)
    (hstep : ∀ past a i b, Run step s past a → P past a → step a i b → P (past ++ [i]) b) :
    P labels t := by
  induction h with
  | refl => exact h0
  | snoc hrun hs ih => exact hstep _ _ _ _ hrun ih hs

/-- The run from `s` to `t` makes the step labelled `i` from `a` to `b`. -/
def RunMakes (step : σ → ι → σ → Prop) (s : σ) (labels : List ι) (t a : σ) (i : ι) (b : σ) : Prop :=
  ∃ before after, labels = before ++ i :: after ∧ Run step s before a ∧ step a i b ∧
    Run step b after t

theorem RunMakes.last (h : Run step s labels t) (hstep : step t i u) :
    RunMakes step s (labels ++ [i]) u t i u :=
  ⟨labels, [], rfl, h, hstep, .refl⟩

theorem RunMakes.snoc {a b : σ} {i j : ι} (h : RunMakes step s labels t a i b)
    (hstep : step t j u) : RunMakes step s (labels ++ [j]) u a i b := by
  obtain ⟨before, after, rfl, hbefore, hi, hafter⟩ := h
  exact ⟨before, after ++ [j], by simp, hbefore, hi, .snoc hafter hstep⟩

end Runs

end BitInfinity.Foundation
