import BitInfinity.Foundation.Run
import BitInfinity.Ledger.EntryStep

/-!
# The evolution of an account

A run of `EntryStep` with a known cause for each step, together with the transactions of the
account that were accepted and the receipts that it issued on the way.
-/

namespace BitInfinity

open Foundation

variable {receipt receipt' : Receipt}

def Receipt.issuedActions (receipt : Receipt) : Option (List Action) :=
  receipt.actionReceipt?.map ActionReceipt.actions

/-- The receipt is a transfer, as refunds are, or carries no actions. -/
def Receipt.IsTransfer (receipt : Receipt) : Prop :=
  ∀ actions, receipt.issuedActions = some actions →
    ∃ deposit, actions = [.basic (.transfer deposit)]

/-- Receipts with the same issuer and actions; their identifiers and receivers of output may
differ. -/
def Receipt.SameIssue (receipt receipt' : Receipt) : Prop :=
  receipt.predecessorId = receipt'.predecessorId ∧ receipt.issuedActions = receipt'.issuedActions

theorem Receipt.SameIssue.isTransfer (h : receipt.SameIssue receipt')
    (ht : receipt'.IsTransfer) : receipt.IsTransfer := by
  unfold Receipt.IsTransfer at *
  rwa [h.2]

def EntryEvent.accepted : EntryEvent → List Transaction
  | .accept _ tx => [tx]
  | _ => []

/-- The account may issue the receipt in a step of this kind. -/
def EntryEvent.Issues : EntryEvent → Receipt → Prop
  | .call, _ => True
  | .delegate _ actions, receipt => receipt.issuedActions = some actions
  | .accept _ tx, receipt => receipt.issuedActions = some tx.actions
  | .drop _ tx, receipt => receipt.issuedActions = some tx.actions
  | _, _ => False

theorem EntryEvent.Issues.congr {event : EntryEvent}
    (h : event.Issues receipt') (hsame : receipt.SameIssue receipt') : event.Issues receipt := by
  cases event <;> first | exact h | exact hsame.2.trans h

/-- The receipt is not issued by `a`, is a transfer, or is issued by one of the events. -/
def IssuedDuring (a : AccountId) (events : List EntryEvent) (receipt : Receipt) : Prop :=
  receipt.predecessorId = a → receipt.IsTransfer ∨ ∃ event ∈ events, event.Issues receipt

/-- The entry of `a` evolves by steps with a given cause. -/
def Evolves (E : Externals) (V : ContractRunner) (config : StorageUsageConfig) (a : AccountId)
    (cause : EntryEvent → Prop) (accepted : List Transaction) (issued : List Receipt)
    (e e' : Entry) : Prop :=
  ∃ events, Run (EntryStep E V config a) e events e' ∧ (∀ event ∈ events, cause event) ∧
    events.flatMap EntryEvent.accepted = accepted ∧
    ∀ receipt ∈ issued, IssuedDuring a events receipt

namespace Evolves

variable {E : Externals} {V : ContractRunner} {config : StorageUsageConfig} {a : AccountId}
  {cause cause' : EntryEvent → Prop} {accepted accepted' : List Transaction}
  {issued issued' : List Receipt} {e e' e'' : Entry} {event : EntryEvent}

theorem refl (e : Entry) : Evolves E V config a cause [] [] e e :=
  ⟨[], .refl, by simp, rfl, by simp⟩

theorem single (hstep : EntryStep E V config a e event e') (hcause : cause event) :
    Evolves E V config a cause event.accepted [] e e' :=
  ⟨[event], .single hstep, by simpa using hcause, by simp, by simp⟩

theorem issuing (hstep : EntryStep E V config a e event e') (hcause : cause event)
    (hissued : ∀ receipt ∈ issued,
      receipt.predecessorId = a → receipt.IsTransfer ∨ event.Issues receipt) :
    Evolves E V config a cause event.accepted issued e e' :=
  ⟨[event], .single hstep, by simpa using hcause, by simp, fun receipt hmem hpred => by
    simpa using hissued receipt hmem hpred⟩

theorem trans (h₁ : Evolves E V config a cause accepted issued e e')
    (h₂ : Evolves E V config a cause accepted' issued' e' e'') :
    Evolves E V config a cause (accepted ++ accepted') (issued ++ issued') e e'' := by
  obtain ⟨events₁, hrun₁, hcause₁, rfl, hissued₁⟩ := h₁
  obtain ⟨events₂, hrun₂, hcause₂, rfl, hissued₂⟩ := h₂
  refine ⟨events₁ ++ events₂, hrun₁.trans hrun₂, ?_, by simp, ?_⟩
  · intro event hevent
    rcases List.mem_append.mp hevent with h | h
    · exact hcause₁ event h
    · exact hcause₂ event h
  · intro receipt hmem hpred
    rcases List.mem_append.mp hmem with h | h
    · rcases hissued₁ receipt h hpred with htransfer | ⟨event, hevent, hi⟩
      · exact .inl htransfer
      · exact .inr ⟨event, by simp [hevent], hi⟩
    · rcases hissued₂ receipt h hpred with htransfer | ⟨event, hevent, hi⟩
      · exact .inl htransfer
      · exact .inr ⟨event, by simp [hevent], hi⟩

theorem mono (h : Evolves E V config a cause accepted issued e e')
    (hcause : ∀ event, cause event → cause' event)
    (hissued : ∀ receipt ∈ issued', (∃ old ∈ issued, receipt.SameIssue old) ∨
      (receipt.predecessorId = a → receipt.IsTransfer)) :
    Evolves E V config a cause' accepted issued' e e' := by
  obtain ⟨events, hrun, hcauses, haccepted, hold⟩ := h
  refine ⟨events, hrun, fun event hmem => hcause event (hcauses event hmem), haccepted, ?_⟩
  intro receipt hmem hpred
  rcases hissued receipt hmem with ⟨old, hmem, hsame⟩ | h
  · rcases hold old hmem (hsame.1.symm.trans hpred) with htransfer | ⟨event, hevent, hi⟩
    · exact .inl (hsame.isTransfer htransfer)
    · exact .inr ⟨event, hevent, hi.congr hsame⟩
  · exact .inl (h hpred)

theorem induct (P : List EntryEvent → Entry → Prop)
    (h : Evolves E V config a cause accepted issued e e') (he : P [] e)
    (hstep : ∀ past e₁ event e₂, cause event → P past e₁ → EntryStep E V config a e₁ event e₂ →
      P (past ++ [event]) e₂) :
    ∃ events, P events e' ∧ events.flatMap EntryEvent.accepted = accepted ∧
      ∀ receipt ∈ issued, IssuedDuring a events receipt := by
  obtain ⟨events, hrun, hcause, haccepted, hissued⟩ := h
  refine ⟨events, ?_, haccepted, hissued⟩
  refine Run.invariant (fun past e₁ => (∀ event ∈ past, cause event) → P past e₁) hrun
    (fun _ => he) ?_ hcause
  intro past e₁ event e₂ _ ih hs hall
  exact hstep past e₁ event e₂ (hall event (by simp)) (ih fun x hx => hall x (by simp [hx])) hs

theorem invariant (P : Entry → Prop) (h : Evolves E V config a cause accepted issued e e')
    (he : P e) (hstep : ∀ e₁ event e₂, cause event → P e₁ → EntryStep E V config a e₁ event e₂ →
      P e₂) : P e' := by
  obtain ⟨_, hP, -⟩ := h.induct (fun _ => P) he fun _ => hstep
  exact hP

end Evolves

end BitInfinity
