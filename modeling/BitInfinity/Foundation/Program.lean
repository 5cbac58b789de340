import BitInfinity.Foundation.Fallible

/-!
# Programs that ask the outside

A program computes on its own, and now and then asks something of the outside: a lock, a
server, a clock.  It is a tree that branches over the replies, so that one text of a program
has a meaning when it runs alone (`Prog.Ends`) and when it runs step by step among others.
The outside is a state with the replies that it may give and the change that each one makes.
-/

namespace BitInfinity.Foundation

/-! ## Programs -/

inductive Prog {Op : Type} (Reply : Op → Type) (ε α : Type) : Type
  | done (a : α)
  | fail (e : ε)
  | ask (op : Op) (next : Reply op → Prog Reply ε α)

namespace Prog

variable {Op : Type} {Reply : Op → Type} {ε α β γ : Type}

def bind (p : Prog Reply ε α) (f : α → Prog Reply ε β) : Prog Reply ε β :=
  match p with
  | done a => f a
  | fail e => fail e
  | ask op next => ask op fun r => (next r).bind f

instance : Monad (Prog Reply ε) where
  pure := done
  bind := bind

def request (op : Op) : Prog Reply ε (Reply op) := ask op done

def ofExcept : Except ε α → Prog Reply ε α
  | .ok a => done a
  | .error e => fail e

@[simp] theorem done_bind (a : α) (f : α → Prog Reply ε β) : (done a >>= f) = f a := rfl

@[simp] theorem pure_bind' (a : α) (f : α → Prog Reply ε β) :
    ((pure a : Prog Reply ε α) >>= f) = f a := rfl

@[simp] theorem fail_bind (e : ε) (f : α → Prog Reply ε β) :
    ((fail e : Prog Reply ε α) >>= f) = fail e := rfl

@[simp] theorem ask_bind (op : Op) (next : Reply op → Prog Reply ε α)
    (f : α → Prog Reply ε β) : (ask op next >>= f) = ask op fun r => next r >>= f := rfl

@[simp] theorem request_bind (op : Op) (f : Reply op → Prog Reply ε β) :
    (request op >>= f) = ask op f := rfl

end Prog

/-! ## The outside -/

/-- The replies that may be given in a state, and the state after each of them. -/
structure Outside {Op : Type} (Reply : Op → Type) (σ : Type) where
  allowed : σ → (op : Op) → Reply op → Prop
  after : σ → (op : Op) → Reply op → σ

namespace Prog

variable {Op : Type} {Reply : Op → Type} {ε α β σ : Type}

/-- The program, run alone from a state, ends with an outcome in another state. -/
inductive Ends (W : Outside Reply σ) : Prog Reply ε α → σ → Except ε α → σ → Prop
  | done {a s} : Ends W (.done a) s (.ok a) s
  | fail {e s} : Ends W (.fail e) s (.error e) s
  | ask {op} {next : Reply op → Prog Reply ε α} {s t r out} :
      W.allowed s op r → Ends W (next r) (W.after s op r) out t → Ends W (.ask op next) s out t

variable {W : Outside Reply σ} {s t : σ}

variable {a : α} {out : Except ε α} {op : Op} {p : Prog Reply ε α} {f : α → Prog Reply ε β}

@[simp] theorem ends_done : Ends W (done a) s out t ↔ out = .ok a ∧ t = s := by
  constructor
  · intro h
    cases h
    exact ⟨rfl, rfl⟩
  · rintro ⟨rfl, rfl⟩
    exact .done

@[simp] theorem ends_pure : Ends W (pure a) s out t ↔ out = .ok a ∧ t = s := ends_done

@[simp] theorem ends_fail {e : ε} : Ends W (fail e) s out t ↔ out = .error e ∧ t = s := by
  constructor
  · intro h
    cases h
    exact ⟨rfl, rfl⟩
  · rintro ⟨rfl, rfl⟩
    exact .fail

theorem ends_ask {next : Reply op → Prog Reply ε α} : Ends W (ask op next) s out t ↔
      ∃ r, W.allowed s op r ∧ Ends W (next r) (W.after s op r) out t := by
  constructor
  · intro h
    cases h with
    | ask hr hnext => exact ⟨_, hr, hnext⟩
  · rintro ⟨r, hr, hnext⟩
    exact .ask hr hnext

theorem ends_bind {out : Except ε β} : Ends W (p >>= f) s out t ↔
      (∃ e, Ends W p s (.error e) t ∧ out = .error e) ∨
        ∃ a m, Ends W p s (.ok a) m ∧ Ends W (f a) m out t := by
  induction p generalizing s with
  | done a => simp
  | fail e => simp [and_comm]
  | ask op next ih =>
    rw [ask_bind, ends_ask]
    constructor
    · rintro ⟨r, hr, hnext⟩
      rcases (ih r).mp hnext with ⟨e, he, rfl⟩ | ⟨a, m, ha, hf⟩
      · exact .inl ⟨e, .ask hr he, rfl⟩
      · exact .inr ⟨a, m, .ask hr ha, hf⟩
    · rintro (⟨e, he, rfl⟩ | ⟨a, m, ha, hf⟩)
      · obtain ⟨r, hr, he⟩ := ends_ask.mp he
        exact ⟨r, hr, (ih r).mpr (.inl ⟨e, he, rfl⟩)⟩
      · obtain ⟨r, hr, ha⟩ := ends_ask.mp ha
        exact ⟨r, hr, (ih r).mpr (.inr ⟨a, m, ha, hf⟩)⟩

@[simp] theorem ends_request {out : Except ε (Reply op)} : Ends W (request op) s out t ↔
      ∃ r, W.allowed s op r ∧ out = .ok r ∧ t = W.after s op r := by
  rw [request, ends_ask]
  simp only [ends_done]

theorem ends_request_of_eq {r : Reply op} {out : Except ε (Reply op)}
    (hreply : ∀ r', W.allowed s op r' ↔ r' = r) :
    Ends W (request op) s out t ↔ out = .ok r ∧ t = W.after s op r := by
  rw [ends_request]
  simp only [hreply, exists_eq_left]

theorem ends_request_of_allowed {out : Except ε (Reply op)} (hreply : ∀ r, W.allowed s op r) :
    Ends W (request op) s out t ↔ ∃ r, out = .ok r ∧ t = W.after s op r := by
  rw [ends_request]
  simp only [hreply, true_and]

@[simp] theorem ends_ofExcept {x : Except ε α} : Ends W (ofExcept x) s out t ↔ out = x ∧ t = s := by
  cases x <;> simp [ofExcept]

theorem ends_bind_ok {b : β} : Ends W (p >>= f) s (.ok b) t ↔
      ∃ a m, Ends W p s (.ok a) m ∧ Ends W (f a) m (.ok b) t := by
  simp [ends_bind]

theorem Ends.bind {m : σ} {out : Except ε β} (hp : Ends W p s (.ok a) m)
    (hf : Ends W (f a) m out t) : Ends W (p >>= f) s out t :=
  ends_bind.mpr (.inr ⟨a, m, hp, hf⟩)

theorem ends_bind_of_iff {out : Except ε β}
    {m : σ} (hp : ∀ x t, Ends W p s x t ↔ x = .ok a ∧ t = m) :
    Ends W (p >>= f) s out t ↔ Ends W (f a) m out t := by
  simp [ends_bind, hp]

theorem ends_bind_of_exists_iff
    {out : Except ε β} {m : α → σ} (hp : ∀ x t, Ends W p s x t ↔ ∃ a, x = .ok a ∧ t = m a) :
    Ends W (p >>= f) s out t ↔ ∃ a, Ends W (f a) (m a) out t := by
  simp [ends_bind, hp]

theorem ends_bind_pure {g : α → β} {out : Except ε β} :
    Ends W (p >>= fun a => pure (g a)) s out t ↔ ∃ x, Ends W p s x t ∧ out = x.map g := by
  rw [ends_bind]
  constructor
  · rintro (⟨e, he, rfl⟩ | ⟨a, m, ha, hpure⟩)
    · exact ⟨.error e, he, rfl⟩
    · obtain ⟨rfl, rfl⟩ := ends_done.mp hpure
      exact ⟨.ok a, ha, rfl⟩
  · rintro ⟨x, hx, rfl⟩
    cases x with
    | error e => exact .inl ⟨e, hx, rfl⟩
    | ok a => exact .inr ⟨a, t, hx, .done⟩

/-! ## Properties of all requests -/

/-- Every request that the program can come to has the property. -/
def AllAsks (P : Op → Prop) : Prog Reply ε α → Prop
  | done _ => True
  | fail _ => True
  | ask op next => P op ∧ ∀ r, (next r).AllAsks P

variable {P : Op → Prop}

@[simp] theorem allAsks_pure {a : α} : (pure a : Prog Reply ε α).AllAsks P := trivial

@[simp] theorem allAsks_fail {e : ε} : (fail e : Prog Reply ε α).AllAsks P := trivial

@[simp] theorem allAsks_request {op : Op} :
    (request op : Prog Reply ε (Reply op)).AllAsks P ↔ P op := by
  simp [request, AllAsks]

@[simp] theorem allAsks_ofExcept {x : Except ε α} : (ofExcept x : Prog Reply ε α).AllAsks P := by
  cases x <;> trivial

theorem AllAsks.bind {p : Prog Reply ε α} {f : α → Prog Reply ε β} (hp : p.AllAsks P)
    (hf : ∀ a, (f a).AllAsks P) : (p >>= f).AllAsks P := by
  induction p with
  | done a => exact hf a
  | fail e => trivial
  | ask op next ih => exact ⟨hp.1, fun r => ih r (hp.2 r)⟩

theorem Ends.invariant {p : Prog Reply ε α} {out : Except ε α} (h : Ends W p s out t)
    (I : σ → Prop) (hp : p.AllAsks P) (hs : I s)
    (hstep : ∀ s op r, P op → I s → W.allowed s op r → I (W.after s op r)) : I t := by
  induction h with
  | done => exact hs
  | fail => exact hs
  | ask hr _ ih => exact ih (hp.2 _) (hstep _ _ _ hp.1 hs hr)

/-! ## Computed runs -/

def interpret (W : Outside Reply σ) (choose : σ → (op : Op) → Reply op) :
    Prog Reply ε α → σ → Except ε α × σ
  | done a, s => (.ok a, s)
  | fail e, s => (.error e, s)
  | ask op next, s => (next (choose s op)).interpret W choose (W.after s op (choose s op))

theorem ends_interpret {choose : σ → (op : Op) → Reply op}
    (hchoose : ∀ s op, W.allowed s op (choose s op)) (p : Prog Reply ε α) (s : σ) :
    Ends W p s (p.interpret W choose s).1 (p.interpret W choose s).2 := by
  induction p generalizing s with
  | done a => exact .done
  | fail e => exact .fail
  | ask op next ih => exact .ask (hchoose s op) (ih _ _)

end Prog

end BitInfinity.Foundation
