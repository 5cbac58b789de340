import Mathlib.Logic.Relation

/-!
# Loops with a measure

A loop whose body goes on, returns or fails, with a size that every iteration lowers.  Running
it is total; what a run returns is what the body answers in some state that the loop reaches.
-/

namespace BitInfinity.Foundation

/-- A body, which answers with the next state or with the result, and the size that it lowers. -/
structure MeasuredLoop (σ ε α : Type) where
  step : σ → Except ε (σ ⊕ α)
  size : σ → Nat
  decreases : ∀ s s', step s = .ok (.inl s') → size s' < size s

namespace MeasuredLoop

variable {σ ε α : Type} (L : MeasuredLoop σ ε α)

def run (s : σ) : Except ε α :=
  match _h : L.step s with
  | .error e => .error e
  | .ok (.inr result) => .ok result
  | .ok (.inl s') => run s'
termination_by L.size s
decreasing_by exact L.decreases s s' ‹_›

/-- The state at the head of the loop after `n` iterations, when it goes on that long. -/
def after : Nat → σ → Option σ
  | 0, s => some s
  | n + 1, s =>
    match L.step s with
    | .ok (.inl s') => after n s'
    | _ => none

/-- The states at the head of the loop in a run from `s`. -/
def Reaches (s t : σ) : Prop := Relation.ReflTransGen (fun a b => L.step a = .ok (.inl b)) s t

variable {L} {s t : σ}

theorem Reaches.refl : L.Reaches s s := Relation.ReflTransGen.refl

theorem Reaches.head {s' : σ} (hstep : L.step s = .ok (.inl s')) (h : L.Reaches s' t) :
    L.Reaches s t :=
  Relation.ReflTransGen.head hstep h

theorem Reaches.invariant (P : σ → Prop) (h : L.Reaches s t) (h0 : P s)
    (hstep : ∀ a b, P a → L.step a = .ok (.inl b) → P b) : P t := by
  induction h with
  | refl => exact h0
  | tail _ hs ih => exact hstep _ _ ih hs

theorem run_of_continue {s' : σ} (hstep : L.step s = .ok (.inl s')) : L.run s = L.run s' := by
  rw [run]
  split <;> simp_all

theorem run_of_end {result : Except ε α} (hstep : L.step s = result.map .inr) :
    L.run s = result := by
  rw [run]
  cases result <;> split <;> simp_all [Except.map]

theorem Reaches.run_eq (h : L.Reaches s t) : L.run s = L.run t := by
  induction h with
  | refl => rfl
  | tail _ hs ih => rw [ih, run_of_continue hs]

theorem Reaches.of_after {n : Nat} (h : L.after n s = some t) : L.Reaches s t := by
  induction n generalizing s with
  | zero =>
    cases h
    exact .refl
  | succ n ih =>
    unfold after at h
    split at h
    · exact .head ‹_› (ih h)
    · cases h

theorem exists_reaches_run (s : σ) : ∃ t, L.Reaches s t ∧ L.step t = (L.run s).map .inr := by
  induction hsize : L.size s using Nat.strongRecOn generalizing s with
  | ind n ih =>
    rcases hs : L.step s with e | s' | result
    · exact ⟨s, .refl, by rw [@run_of_end _ _ _ L s (.error e) hs, hs]; rfl⟩
    · obtain ⟨t, hreach, ht⟩ := ih (L.size s') (hsize ▸ L.decreases s s' hs) s' rfl
      exact ⟨t, .head hs hreach, by rw [run_of_continue hs, ht]⟩
    · exact ⟨s, .refl, by rw [@run_of_end _ _ _ L s (.ok result) hs, hs]; rfl⟩

theorem run_eq_iff {result : Except ε α} :
    L.run s = result ↔ ∃ t, L.Reaches s t ∧ L.step t = result.map .inr := by
  constructor
  · rintro rfl
    exact exists_reaches_run s
  · rintro ⟨t, hreach, ht⟩
    rw [hreach.run_eq, run_of_end ht]

/-- An iteration of the leading run may be one that the other run does not make; a failure of
the leading run is one of the other. -/
theorem run_error_of_simulation {R : σ → σ → Prop} {e : ε}
    (hstep : ∀ a b a', R b a → L.step a = .ok (.inl a') →
      R b a' ∨ ∃ b', L.step b = .ok (.inl b') ∧ R b' a')
    (herror : ∀ a b, R b a → L.step a = .error e → L.step b = .error e)
    (h : R t s) (hrun : L.run s = .error e) : L.run t = .error e := by
  obtain ⟨a, hreach, hend⟩ := run_eq_iff.mp hrun
  obtain ⟨b, hb, hR⟩ := hreach.invariant (fun a => ∃ b, L.run t = L.run b ∧ R b a) ⟨t, rfl, h⟩ <| by
    rintro a a' ⟨b, hb, hR⟩ ha
    rcases hstep a b a' hR ha with hR' | ⟨b', hb', hR'⟩
    · exact ⟨b, hb, hR'⟩
    · exact ⟨b', hb.trans (run_of_continue hb'), hR'⟩
  rw [hb]
  exact run_of_end (herror a b hR hend)

/-- A change of the state that the first `n` iterations only carry along. -/
theorem run_map_after {f : Nat → σ → σ} {P : Nat → σ → Prop}
    (hstep : ∀ n s, P (n + 1) s → L.step (f (n + 1) s) = (L.step s).map (Sum.map (f n) id))
    (hkeep : ∀ n s s', P (n + 1) s → L.step s = .ok (.inl s') → P n s') {n : Nat} (h : P n s) :
    L.run (f n s) = (L.after n s).elim (L.run s) fun t => L.run (f 0 t) := by
  induction n generalizing s with
  | zero => rfl
  | succ n ih =>
    have hf := hstep n s h
    rcases hs : L.step s with e | s' | result
    · rw [hs] at hf
      rw [@run_of_end _ _ _ L _ (.error e) hf, after, hs]
      exact (@run_of_end _ _ _ L _ (.error e) hs).symm
    · rw [hs] at hf
      simp only [after, hs, run_of_continue hs, run_of_continue hf]
      exact ih (hkeep n s s' h hs)
    · rw [hs] at hf
      rw [@run_of_end _ _ _ L _ (.ok result) hf, after, hs]
      exact (@run_of_end _ _ _ L _ (.ok result) hs).symm

end MeasuredLoop

end BitInfinity.Foundation
