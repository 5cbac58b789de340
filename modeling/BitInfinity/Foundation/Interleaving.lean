import BitInfinity.Foundation.Run

/-!
# Interleaved threads

A pool of threads that work on a shared state, one atomic move at a time, in an environment
that may change the shared state too.  `Pool.invariant` is the proof rule for such pools: a
property of the shared state together with one assertion per thread is kept by every run when
each thread keeps it by its own moves and no move of a thread disturbs the assertion of
another.  Read-write locks are shared data that know their holders.
-/

namespace BitInfinity.Foundation

universe u v w

/-! ## Pools -/

structure Pool (ι : Type u) (σ : Type v) (τ : Type w) where
  shared : σ
  threads : ι → τ

namespace Pool

variable {ι : Type u} {σ : Type v} {τ : Type w} [DecidableEq ι]

/-- A step of the pool is a move of one thread or a change made by the environment. -/
inductive Step (move : ι → σ → τ → σ → τ → Prop) (env : σ → σ → Prop) (p : Pool ι σ τ) :
    Option ι → Pool ι σ τ → Prop
  | thread {i s t} : move i p.shared (p.threads i) s t →
      Step move env p (some i) ⟨s, Function.update p.threads i t⟩
  | environment {s} : env p.shared s → Step move env p none ⟨s, p.threads⟩

variable {move : ι → σ → τ → σ → τ → Prop} {env : σ → σ → Prop} {p q : Pool ι σ τ}
  {labels : List (Option ι)}

variable {next : ι → σ → τ → Option (σ × τ)} {schedule : List ι}

theorem Step.mono {move' : ι → σ → τ → σ → τ → Prop} {label : Option ι}
    (himp : ∀ i s t s' t', move i s t s' t' → move' i s t s' t') (h : Step move env p label q) :
    Step move' env p label q := by
  cases h with
  | thread hmove => exact .thread (himp _ _ _ _ _ hmove)
  | environment henv => exact .environment henv

/-- Each thread keeps the shared property and its own assertion, and no thread disturbs the
assertion of another one. -/
theorem invariant (I : σ → Prop) (A : ι → σ → τ → Prop)
    (hown : ∀ i s t s' t', I s → A i s t → move i s t s' t' → I s' ∧ A i s' t')
    (hother : ∀ i j s t s' t' u, j ≠ i → I s → A i s t → A j s u → move i s t s' t' → A j s' u)
    (henv : ∀ s s', I s → env s s' → I s' ∧ ∀ i t, A i s t → A i s' t)
    (hrun : Run (Step move env) p labels q) (hp : I p.shared ∧ ∀ i, A i p.shared (p.threads i)) :
    I q.shared ∧ ∀ i, A i q.shared (q.threads i) := by
  refine hrun.invariant (fun _ a => I a.shared ∧ ∀ i, A i a.shared (a.threads i)) hp ?_
  rintro - a label b - ⟨hI, hA⟩ hstep
  cases hstep with
  | @thread i s t hmove =>
    obtain ⟨hI', hi⟩ := hown i _ _ _ _ hI (hA i) hmove
    refine ⟨hI', ?_⟩
    intro j
    by_cases hj : j = i
    · subst hj
      simpa using hi
    · simpa [hj] using hother i j _ _ _ _ _ hj hI (hA i) (hA j) hmove
  | environment hchange =>
    obtain ⟨hI', hkeep⟩ := henv _ _ hI hchange
    exact ⟨hI', fun i => hkeep i _ (hA i)⟩

def turn (next : ι → σ → τ → Option (σ × τ)) (p : Pool ι σ τ) (i : ι) : Option (Pool ι σ τ) :=
  (next i p.shared (p.threads i)).map fun r => ⟨r.1, Function.update p.threads i r.2⟩

theorem run_of_schedule (h : schedule.foldlM (turn next) p = some q) :
    Run (Step (fun i s t s' t' => next i s t = some (s', t')) env) p (schedule.map some) q := by
  induction schedule generalizing p with
  | nil =>
    cases h
    exact .refl
  | cons i schedule ih =>
    obtain ⟨r, hr, hrest⟩ := Option.bind_eq_some_iff.mp h
    obtain ⟨⟨s, t⟩, hnext, rfl⟩ := Option.map_eq_some_iff.mp hr
    exact (Run.single (.thread hnext)).trans (ih hrest)

theorem run_of_checked_schedule {check : ι → σ → τ → Prop} [∀ i s t, Decidable (check i s t)]
    (h : schedule.foldlM (turn fun i s t => if check i s t then next i s t else none) p = some q) :
    Run (Step (fun i s t s' t' => next i s t = some (s', t') ∧ check i s t) env) p
      (schedule.map some) q := by
  refine (run_of_schedule h).mono fun a label b hstep => hstep.mono ?_
  intro i s t s' t' hmove
  split at hmove
  · next hcheck => exact ⟨hmove, hcheck⟩
  · cases hmove

theorem exists_run_of_schedule (next : ι → σ → τ → Option (σ × τ)) (check : ι → σ → τ → Prop)
    [∀ i s t, Decidable (check i s t)] (schedule : List ι) (test : Pool ι σ τ → Bool)
    (h : (schedule.foldlM (turn fun i s t => if check i s t then next i s t else none) p).any
      test = true) :
    ∃ q, Run (Step (fun i s t s' t' => next i s t = some (s', t') ∧ check i s t) env) p
      (schedule.map some) q ∧ test q = true := by
  obtain ⟨q, hq, htest⟩ := (Option.any_eq_true _ _).mp h
  exact ⟨q, run_of_checked_schedule hq, htest⟩

end Pool

/-! ## Read-write locks -/

/-- A lock is shared by its readers or held by one writer. -/
inductive RwLock (ι : Type u)
  | shared (readers : Finset ι)
  | exclusive (writer : ι)

namespace RwLock

variable {ι : Type u}

def free : RwLock ι := .shared ∅

def Reads (i : ι) : RwLock ι → Prop
  | .shared readers => i ∈ readers
  | .exclusive _ => False

theorem free_ne_exclusive {i : ι} : (free : RwLock ι) ≠ .exclusive i := nofun

theorem exclusive_ne {i j : ι} (h : j ≠ i) : (exclusive i : RwLock ι) ≠ .exclusive j := by
  rintro ⟨⟩
  exact h rfl

theorem Reads.ne_exclusive {l : RwLock ι} {i j : ι} (h : l.Reads i) : l ≠ .exclusive j := by
  rintro rfl
  exact h

variable [DecidableEq ι]

def acquireRead (l : RwLock ι) (i : ι) : Option (RwLock ι) :=
  match l with
  | .shared readers => some (.shared (insert i readers))
  | .exclusive _ => none

def acquireWrite (l : RwLock ι) (i : ι) : Option (RwLock ι) :=
  match l with
  | .shared readers => if readers = ∅ then some (.exclusive i) else none
  | .exclusive _ => none

def releaseRead (l : RwLock ι) (i : ι) : RwLock ι :=
  match l with
  | .shared readers => .shared (readers.erase i)
  | .exclusive writer => .exclusive writer

def releaseWrite (l : RwLock ι) (i : ι) : RwLock ι :=
  match l with
  | .shared readers => .shared readers
  | .exclusive writer => if writer = i then free else .exclusive writer

variable {l : RwLock ι} {i j : ι}

theorem of_bind_acquireWrite {β : Type v} {f : RwLock ι → Option β} {b : β}
    (h : (l.acquireWrite i).bind f = some b) : l = free ∧ f (.exclusive i) = some b := by
  cases l with
  | shared readers =>
    by_cases hreaders : readers = ∅
    · simpa [acquireWrite, free, hreaders] using h
    · simp [acquireWrite, hreaders] at h
  | exclusive writer => cases h

theorem of_bind_acquireRead {β : Type v} {f : RwLock ι → Option β} {b : β}
    (h : (l.acquireRead i).bind f = some b) :
    ∃ readers, l = .shared readers ∧ f (.shared (insert i readers)) = some b := by
  cases l with
  | shared readers => exact ⟨readers, rfl, h⟩
  | exclusive writer => cases h

@[simp] theorem releaseWrite_exclusive : (exclusive i).releaseWrite i = free := by
  simp [releaseWrite]

theorem releaseWrite_ne_exclusive (h : l = .exclusive i) : l.releaseWrite i ≠ .exclusive j := by
  rw [h, releaseWrite_exclusive]
  exact free_ne_exclusive

@[simp] theorem releaseRead_acquired : (shared (insert i ∅)).releaseRead i = free := by
  simp [releaseRead, free]

theorem releaseRead_ne_exclusive (h : l ≠ .exclusive j) : l.releaseRead i ≠ .exclusive j := by
  cases l with
  | shared readers => nofun
  | exclusive writer => exact h

end RwLock

end BitInfinity.Foundation
