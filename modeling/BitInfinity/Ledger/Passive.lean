import BitInfinity.Ledger.Chain

/-!
# Accounts that do not act

Which steps of an account are left when the receipts that it has issued hold transfers and
stakes only.
-/

namespace BitInfinity

open Foundation

/-! ## Calm receipts -/

/-- Transfers and stakes: they neither change keys or code nor act for another account. -/
def Action.Calm (action : Action) : Prop :=
  (∃ deposit, action = .basic (.transfer deposit)) ∨
    ∃ stake publicKey, action = .basic (.stake stake publicKey)

def Receipt.Calm (receipt : Receipt) : Prop :=
  ∀ actions, receipt.issuedActions = some actions → ∀ action ∈ actions, action.Calm

/-- A step that issues calm receipts only. -/
def EntryEvent.Calm : EntryEvent → Prop
  | .accept _ tx => ∀ action ∈ tx.actions, action.Calm
  | .drop _ tx => ∀ action ∈ tx.actions, action.Calm
  | .call => False
  | .delegate _ _ => False
  | _ => True

theorem Receipt.IsTransfer.calm {receipt : Receipt} (h : receipt.IsTransfer) : receipt.Calm := by
  intro actions hactions action hmem
  obtain ⟨deposit, rfl⟩ := h actions hactions
  exact .inl ⟨deposit, List.mem_singleton.mp hmem⟩

theorem EntryEvent.Calm.receipt {event : EntryEvent} {receipt : Receipt} (h : event.Calm)
    (hissues : event.Issues receipt) : receipt.Calm := by
  cases event with
  | accept as tx | drop as tx =>
    intro actions hactions
    obtain rfl : tx.actions = actions := Option.some.inj (hissues.symm.trans hactions)
    exact h
  | call => exact h.elim
  | delegate => exact h.elim
  | _ => exact hissues.elim

/-- The steps that others, or calm receipts, can cause at a given epoch. -/
def EntryEvent.Passive (epochHeight : EpochHeight) : EntryEvent → Prop
  | .accept as _ => as.epochHeight = epochHeight
  | .drop as _ => as.epochHeight = epochHeight
  | .delegate epoch _ => epoch = epochHeight
  | .setContract => False
  | .addKey _ _ => False
  | .addGasKey _ _ => False
  | .deleteKey _ => False
  | .burn => False
  | .delete => False
  | _ => True

/-! ## Causes -/

section Causes

variable {E : Externals} {s s' : ChainState E} {event : ChainEvent} {a : AccountId}
  {step : EntryEvent}

theorem ChainState.epochHeight_of_accepts {as : ApplyState} (h : s.accepts as = true) :
    as.epochHeight = s.epochHeight := by
  simp only [ChainState.accepts, Bool.and_eq_true, beq_iff_eq] at h
  exact h.2

theorem ReceiptCause.passive {as : ApplyState} {e : Entry} {receipt : Receipt} {r : ActionReceipt}
    {status : Except ActionError ReturnData} (h : ReceiptCause E as e receipt r status step)
    (hcalm : MayAct E e receipt → ∀ action ∈ r.actions, action.Calm) :
    step.Passive as.epochHeight := by
  rcases h with rfl | ⟨-, action, hmem, hcause⟩
  · trivial
  · cases step with
    | delegate => exact hcause.1
    | setContract =>
      obtain ⟨hmay, ⟨code, rfl⟩ | ⟨id, rfl⟩⟩ := hcause
      · simpa [Action.Calm] using hcalm hmay _ hmem
      · simpa [Action.Calm] using hcalm hmay _ hmem
    | addKey | addGasKey =>
      obtain ⟨hmay, -, _, rfl⟩ := hcause
      simpa [Action.Calm] using hcalm hmay _ hmem
    | deleteKey publicKey =>
      obtain ⟨hmay, rfl⟩ := hcause
      simpa [Action.Calm] using hcalm hmay _ hmem
    | burn =>
      obtain ⟨hmay, code, _, rfl⟩ := hcause
      simpa [Action.Calm] using hcalm hmay _ hmem
    | delete =>
      obtain ⟨hmay, _, rfl⟩ := hcause
      simpa [Action.Calm] using hcalm hmay _ hmem
    | accept | drop => exact hcause.elim
    | _ => trivial

theorem ChainCause.passive (h : ChainCause s event s' a step)
    (hcalm : ∀ receipt, s.Outstanding receipt → receipt.receiverId = a →
      MayAct E (s.trie.entries a) receipt → receipt.Calm) : step.Passive s.epochHeight := by
  unfold ChainCause at h
  split at h
  · obtain ⟨has, p, _, _, -, -, hcause⟩ := h
    have hepoch := ChainState.epochHeight_of_accepts has
    cases step with
    | accept | drop => exact hcause.1 ▸ hepoch
    | receive | register | payGas tx => trivial
    | _ => exact hcause.elim
  · obtain ⟨has, receipt, r, _, hout, hr, hreceiver, -, -, hcause⟩ := h
    rw [← ChainState.epochHeight_of_accepts has]
    exact hcause.passive fun hmay => hcalm receipt hout hreceiver hmay r.actions
      (by simp [Receipt.issuedActions, hr])
  · cases step <;> trivial
  · exact h.elim

end Causes

end BitInfinity
