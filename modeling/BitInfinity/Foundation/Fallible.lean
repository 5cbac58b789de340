import Mathlib.Tactic

/-!
# Fallible computations

Inversion rules for computations in `Except`, the early exits `ensure` and `okOr`, and the
checked and saturating operations of unsigned machine integers of a given width, modelled
on natural numbers.  Nothing here depends on a particular program.
-/

namespace BitInfinity.Foundation

universe u v

/-! ## Early exits -/

def ensure {ε : Type u} (test : Bool) (error : ε) : Except ε Unit :=
  if test then .ok () else .error error

def okOr {ε : Type u} {α : Type v} (value : Option α) (error : ε) : Except ε α :=
  match value with
  | some x => .ok x
  | none => .error error

section Inversion

variable {ε : Type u} {α β : Type v}

variable {x : Except ε α} {f : α → Except ε β} {e error : ε}

theorem bind_eq_ok {b : β} : (x >>= f) = .ok b ↔ ∃ a, x = .ok a ∧ f a = .ok b := by
  cases x with
  | error e | ok a => simp [bind, Except.bind]

theorem bind_eq_error : (x >>= f) = .error e ↔ x = .error e ∨ ∃ a, x = .ok a ∧ f a = .error e := by
  cases x with
  | error e' | ok a => simp [bind, Except.bind]

@[simp] theorem ok_bind (a : α) (f : α → Except ε β) : (Except.ok a >>= f) = f a := rfl

theorem bind_of_eq_ok {a : α} (h : x = .ok a) (f : α → Except ε β) : (x >>= f) = f a := by
  rw [h, ok_bind]

@[simp] theorem error_bind (e : ε) (f : α → Except ε β) :
    ((Except.error e : Except ε α) >>= f) = .error e := rfl

theorem map_bind {γ : Type v} {g : β → γ} : (x >>= f).map g = x >>= fun a => (f a).map g := by
  cases x <;> rfl

@[simp] theorem ensure_eq_ok {test : Bool} {u : Unit} :
    ensure test error = .ok u ↔ test = true := by
  cases test <;> simp [ensure]

@[simp] theorem okOr_eq_ok {value : Option α} {x : α} :
    okOr value error = .ok x ↔ value = some x := by
  cases value <;> simp [okOr]

@[simp] theorem okOr_eq_error {value : Option α} :
    okOr value error = .error e ↔ value = none ∧ error = e := by
  cases value <;> simp [okOr]

@[simp] theorem mapError_eq_ok {δ : Type u} {g : ε → δ} {a : α} :
    x.mapError g = .ok a ↔ x = .ok a := by
  cases x <;> simp [Except.mapError]

theorem map_eq_ok {f : α → β} {b : β} : x.map f = .ok b ↔ ∃ a, x = .ok a ∧ f a = b := by
  cases x <;> simp [Except.map]

theorem map_eq_error {f : α → β} : x.map f = .error e ↔ x = .error e := by
  cases x <;> simp [Except.map]

theorem forM_eq_ok {f : α → Except ε PUnit} {xs : List α} :
    xs.forM f = .ok ⟨⟩ ↔ ∀ x ∈ xs, f x = .ok ⟨⟩ := by
  induction xs with
  | nil => simp [List.forM, pure, Except.pure]
  | cons x xs ih =>
    change (f x >>= fun _ => xs.forM f) = _ ↔ _
    rw [bind_eq_ok, List.forall_mem_cons, ← ih]
    constructor
    · rintro ⟨⟨⟩, hx, hxs⟩
      exact ⟨hx, hxs⟩
    · rintro ⟨hx, hxs⟩
      exact ⟨⟨⟩, hx, hxs⟩

theorem exists_mapM_eq_error {xs : List α} :
    (∃ e, xs.mapM f = .error e) ↔ ∃ x ∈ xs, ∃ e, f x = .error e := by
  induction xs with
  | nil => simp [pure, Except.pure]
  | cons x xs ih =>
    rw [List.mapM_cons, List.exists_mem_cons_iff]
    cases hx : f x with
    | error e => simp
    | ok y =>
      rw [ok_bind]
      simp only [bind_eq_error, pure, Except.pure, reduceCtorEq, and_false, exists_false,
        or_false, false_or]
      exact ih

end Inversion

/-! ## Folding a fallible step over a list -/

section Fold

variable {ε : Type u} {σ : Type v} {α : Type v}

def foldTrace (step : σ → α → Except ε σ) : σ → List α → List (σ × α)
  | _, [] => []
  | s, x :: xs =>
    (s, x) :: match step s x with
      | .ok s' => foldTrace step s' xs
      | .error _ => []

variable {step : σ → α → Except ε σ}

theorem foldTrace_singleton (s : σ) (x : α) : foldTrace step s [x] = [(s, x)] := by
  unfold foldTrace
  cases step s x <;> rfl

variable {s t : σ} {xs : List α}

theorem foldlM_cons_eq_ok {x : α} : (x :: xs).foldlM step s = .ok t ↔
      ∃ s', step s x = .ok s' ∧ xs.foldlM step s' = .ok t := by
  rw [List.foldlM_cons, bind_eq_ok]

theorem mem_foldTrace_append (ys : List α) {met : σ × α}
    (h : met ∈ foldTrace step s xs) : met ∈ foldTrace step s (xs ++ ys) := by
  induction xs generalizing s with
  | nil => cases h
  | cons x xs ih =>
    simp only [List.cons_append, foldTrace, List.mem_cons] at h ⊢
    refine h.imp_right fun htail => ?_
    cases hx : step s x with
    | error e =>
      rw [hx] at htail
      cases htail
    | ok s' =>
      rw [hx] at htail
      exact ih htail

theorem foldTrace_append {ys : List α} (h : xs.foldlM step s = .ok t) :
    foldTrace step s (xs ++ ys) = foldTrace step s xs ++ foldTrace step t ys := by
  induction xs generalizing s with
  | nil =>
    obtain rfl : s = t := by simpa [pure, Except.pure] using h
    rfl
  | cons x xs ih =>
    obtain ⟨_, hx, hrest⟩ := foldlM_cons_eq_ok.mp h
    simp only [List.cons_append, foldTrace, hx, ih hrest]

/-- A property that every step of the fold preserves holds at its end.  The step rule may use
that the pair of state and element lies on the trace. -/
theorem foldlM_invariant (P : σ → Prop) (hrun : xs.foldlM step s = .ok t) (hs : P s)
    (hstep : ∀ s' x s'', (s', x) ∈ foldTrace step s xs → P s' → step s' x = .ok s'' → P s'') :
    P t := by
  induction xs generalizing s with
  | nil =>
    obtain rfl : s = t := by simpa [pure, Except.pure] using hrun
    exact hs
  | cons x xs ih =>
    obtain ⟨s', hx, hrest⟩ := foldlM_cons_eq_ok.mp hrun
    refine ih hrest (hstep s x s' (by simp [foldTrace]) hs hx) ?_
    intro s₁ y s₂ hmem
    exact hstep s₁ y s₂ (by simp [foldTrace, hx, hmem])

theorem foldTrace_invariant (P : σ → Prop) (hs : P s)
    (hstep : ∀ s' x s'', (s', x) ∈ foldTrace step s xs → P s' → step s' x = .ok s'' → P s'') :
    ∀ s' x, (s', x) ∈ foldTrace step s xs → P s' := by
  induction xs generalizing s with
  | nil =>
    intro s' y hmem
    cases hmem
  | cons x xs ih =>
    intro s' y hmem
    rcases List.mem_cons.mp hmem with hhead | htail
    · cases hhead
      exact hs
    · cases hx : step s x with
      | error e =>
        rw [hx] at htail
        cases htail
      | ok s₁ =>
        rw [hx] at htail
        have hs₁ : P s₁ := hstep s x s₁ (by simp [foldTrace]) hs hx
        refine ih hs₁ ?_ s' y htail
        intro s₂ z s₃ hz
        exact hstep s₂ z s₃ (by simp [foldTrace, hx, hz])

theorem foldlM_eq_error_iff {e : ε} : xs.foldlM step s = .error e ↔
      ∃ s' x, (s', x) ∈ foldTrace step s xs ∧ step s' x = .error e := by
  induction xs generalizing s with
  | nil =>
    constructor
    · intro h
      cases h
    · rintro ⟨s', x, hmem, -⟩
      cases hmem
  | cons x xs ih =>
    rw [List.foldlM_cons]
    cases hx : step s x with
    | error e' => simp [foldTrace, hx]
    | ok s₁ =>
      rw [ok_bind, ih]
      simp only [foldTrace, hx, List.mem_cons]
      constructor
      · rintro ⟨s', y, hmem, he⟩
        exact ⟨s', y, .inr hmem, he⟩
      · rintro ⟨s', y, hhead | hmem, he⟩
        · cases hhead
          rw [hx] at he
          cases he
        · exact ⟨s', y, hmem, he⟩

theorem mem_foldTrace_iff {s' : σ} {x : α} : (s', x) ∈ foldTrace step s xs ↔
    ∃ before after, xs = before ++ x :: after ∧ before.foldlM step s = .ok s' := by
  constructor
  · intro h
    induction xs generalizing s with
    | nil => cases h
    | cons y ys ih =>
      rcases List.mem_cons.mp h with hhead | htail
      · cases hhead
        exact ⟨[], ys, rfl, rfl⟩
      · cases hy : step s y with
        | error e =>
          rw [hy] at htail
          cases htail
        | ok s₁ =>
          rw [hy] at htail
          obtain ⟨before, after, rfl, hrun⟩ := ih htail
          exact ⟨y :: before, after, rfl, foldlM_cons_eq_ok.mpr ⟨s₁, hy, hrun⟩⟩
  · rintro ⟨before, after, rfl, hrun⟩
    rw [foldTrace_append hrun]
    simp [foldTrace]

/-- A map of states that commutes with every step of the fold commutes with the fold. -/
theorem foldlM_comm (f : σ → σ)
    (h : ∀ s' x, (s', x) ∈ foldTrace step s xs → step (f s') x = (step s' x).map f) :
    xs.foldlM step (f s) = (xs.foldlM step s).map f := by
  induction xs generalizing s with
  | nil => rfl
  | cons x xs ih =>
    rw [List.foldlM_cons, List.foldlM_cons, h s x (by simp [foldTrace])]
    cases hx : step s x with
    | error e => rfl
    | ok s₁ => exact ih fun s' y hmem => h s' y (by simp [foldTrace, hx, hmem])

end Fold

/-! ## Unsigned machine arithmetic -/

variable {width a b c : Nat}

def checkedAdd (width a b : Nat) : Option Nat := if a + b < 2 ^ width then some (a + b) else none

def checkedSub (a b : Nat) : Option Nat := if b ≤ a then some (a - b) else none

def checkedMul (width a b : Nat) : Option Nat := if a * b < 2 ^ width then some (a * b) else none

def wrappingAdd (width a b : Nat) : Nat := (a + b) % 2 ^ width

def saturatingAdd (width a b : Nat) : Nat := min (a + b) (2 ^ width - 1)

def saturatingMul (width a b : Nat) : Nat := min (a * b) (2 ^ width - 1)

@[simp] theorem checkedAdd_eq_some :
    checkedAdd width a b = some c ↔ a + b < 2 ^ width ∧ c = a + b := by
  unfold checkedAdd
  split <;> simp_all [eq_comm]

@[simp] theorem checkedSub_eq_some : checkedSub a b = some c ↔ b ≤ a ∧ c = a - b := by
  unfold checkedSub
  split <;> simp_all [eq_comm]

@[simp] theorem checkedMul_eq_some :
    checkedMul width a b = some c ↔ a * b < 2 ^ width ∧ c = a * b := by
  unfold checkedMul
  split <;> simp_all [eq_comm]

theorem wrappingAdd_eq (h : a + b < 2 ^ width) : wrappingAdd width a b = a + b := Nat.mod_eq_of_lt h

theorem saturatingAdd_le (width a b : Nat) : saturatingAdd width a b ≤ a + b := min_le_left _ _

theorem saturatingAdd_eq (h : a + b < 2 ^ width) : saturatingAdd width a b = a + b := by
  unfold saturatingAdd
  omega

end BitInfinity.Foundation
