import BitInfinity.Foundation.Program

/-!
# Monitored programs

A monitor watches the requests of a program.  Its state says which request it accepts next, and
moves on with each reply; of the replies it expects something too.  `Prog.Obeys` is the weakest
precondition of a program under a monitor: as long as the replies are as expected, every
request that it comes to is accepted, and what it returns satisfies a postcondition.  Programs
also move one request at a time, as threads among others do.
-/

namespace BitInfinity.Foundation

structure Monitor {Op : Type} (Reply : Op → Type) (M : Type) where
  accepts : M → Op → Prop
  expects : (op : Op) → Reply op → Prop
  update : M → (op : Op) → Reply op → M

/-- The monitor accepts the request in every state, and does not move. -/
def Monitor.Ignores {Op : Type} {Reply : Op → Type} {M : Type} (mon : Monitor Reply M)
    (op : Op) : Prop :=
  ∀ m, mon.accepts m op ∧ ∀ r, mon.update m op r = m

namespace Prog

variable {Op : Type} {Reply : Op → Type} {ε α β M σ : Type}

/-! ## Obeying a monitor -/

def Obeys (mon : Monitor Reply M) (Q : M → α → Prop) : Prog Reply ε α → M → Prop
  | done a, m => Q m a
  | fail _, _ => True
  | ask op next, m =>
    mon.accepts m op ∧ ∀ r, mon.expects op r → (next r).Obeys mon Q (mon.update m op r)

variable {mon : Monitor Reply M} {Q R : M → α → Prop} {m : M}

variable {p : Prog Reply ε α} {f : α → Prog Reply ε β}

@[simp] theorem obeys_done {a : α} : (done a : Prog Reply ε α).Obeys mon Q m ↔ Q m a := Iff.rfl

theorem obeys_bind {Q : M → β → Prop} :
    (p >>= f).Obeys mon Q m ↔ p.Obeys mon (fun m' a => (f a).Obeys mon Q m') m := by
  induction p generalizing m with
  | done a => exact Iff.rfl
  | fail e => exact Iff.rfl
  | ask op next ih => exact and_congr_right fun _ => forall₂_congr fun r _ => ih r

theorem Obeys.mono (h : p.Obeys mon Q m) (hQ : ∀ m a, Q m a → R m a) : p.Obeys mon R m := by
  induction p generalizing m with
  | done a => exact hQ m a h
  | fail e => trivial
  | ask op next ih => exact ⟨h.1, fun r hr => ih r (h.2 r hr)⟩

theorem Obeys.bind {Q : M → β → Prop} (hp : p.Obeys mon R m)
    (hf : ∀ m a, R m a → (f a).Obeys mon Q m) : (p >>= f).Obeys mon Q m :=
  obeys_bind.mpr (hp.mono hf)

theorem obeys_of_ignores (hp : p.AllAsks mon.Ignores) (hQ : ∀ a, Q m a) : p.Obeys mon Q m := by
  induction p with
  | done a => exact hQ a
  | fail e => trivial
  | ask op next ih =>
    obtain ⟨haccepts, hkeeps⟩ := hp.1 m
    refine ⟨haccepts, fun r _ => ?_⟩
    rw [hkeeps r]
    exact ih r (hp.2 r)

theorem Obeys.bind_of_ignores {Q : M → β → Prop}
    (hp : p.AllAsks mon.Ignores) (hf : ∀ a, (f a).Obeys mon Q m) : (p >>= f).Obeys mon Q m :=
  obeys_bind.mpr (obeys_of_ignores hp hf)

/-! ## One request at a time -/

inductive Move (W : Outside Reply σ) : σ → Prog Reply ε α → σ → Prog Reply ε α → Prop
  | ask {op} {next : Reply op → Prog Reply ε α} {s r} :
      W.allowed s op r → Move W s (.ask op next) (W.after s op r) (next r)

def moveWith (W : Outside Reply σ) (choose : σ → (op : Op) → Reply op) (s : σ) :
    Prog Reply ε α → Option (σ × Prog Reply ε α)
  | done _ => none
  | fail _ => none
  | ask op next => some (W.after s op (choose s op), next (choose s op))

theorem move_of_moveWith {W : Outside Reply σ} {choose : σ → (op : Op) → Reply op} {s s' : σ}
    {p' : Prog Reply ε α} (hchoose : ∀ op next, p = .ask op next → W.allowed s op (choose s op))
    (h : moveWith W choose s p = some (s', p')) : Move W s p s' p' := by
  cases p with
  | done a => cases h
  | fail e => cases h
  | ask op next =>
    cases h
    exact .ask (hchoose op next rfl)

end Prog

end BitInfinity.Foundation
