import BitInfinity.Bitcoin.Replay
import BitInfinity.Ledger.Storage
import BitInfinity.Patoshi.Lock

/-!
# Storage accounting of access keys

Keys are paid for when they are added and refunded when they are deleted.  Over a run this
stays exact as long as no Bitcoin key is registered on its first use and no Patoshi unlock is
scheduled: both store without charging.
-/

namespace BitInfinity

open Foundation

section Accounting

variable {E : Externals} {V : ContractRunner} {config : StorageUsageConfig}
  {s s' : ChainState E} {event : ChainEvent} {events : List ChainEvent} {a : AccountId}
  {created : Prop}

variable {step : EntryEvent} {as : ApplyState} {e : Entry}

/-- No transaction of the step stores a key on its first use. -/
def RegistersNothing (s : ChainState E) : ChainEvent → Prop
  | .transactions as txs => ∀ p item publicKey nonce,
      (p, item) ∈ transactionTrace as s.trie txs → ¬ Registers as p item publicKey nonce
  | _ => True

/-- No transaction of the step schedules an unlock of the account that signed it. -/
def SchedulesNothing (s : ChainState E) : ChainEvent → Prop
  | .transactions as txs => ∀ p item p' a, (p, item) ∈ transactionTrace as s.trie txs →
      processTransaction as p item = .ok p' →
      ¬ SchedulesUnlock as p' item.1.transaction a (s.trie.entries a)
  | _ => True

/-- A step at fixed storage prices that registers no key and schedules no unlock. -/
def ChargedStep (E : Externals) (V : ContractRunner) (config : StorageUsageConfig)
    (s : ChainState E) (event : ChainEvent) (s' : ChainState E) : Prop :=
  chainStep E V s event = some s' ∧ event.UsesConfig config ∧ RegistersNothing s event ∧
    SchedulesNothing s event

theorem ChainCause.ne_register (h : ChainCause s event s' a step)
    (hnothing : RegistersNothing s event) (publicKey : PublicKey) (nonce : Nonce) :
    step ≠ .register publicKey nonce := by
  rintro rfl
  cases event with
  | transactions =>
    obtain ⟨-, p, item, _, hmem, -, -, hregisters⟩ := h
    exact hnothing p item publicKey nonce hmem hregisters
  | receipt =>
    obtain ⟨-, receipt, r, _, -, -, -, -, -, hreceive | ⟨-, _, -, hcause⟩⟩ := h
    · cases hreceive
    · exact hcause.elim
  | _ => exact h.elim

theorem ChainCause.contractData {txs : List (SignedTransaction × Bool)} {e' : Entry}
    (h : ChainCause s (.transactions as txs) s' a step)
    (hnothing : SchedulesNothing s (.transactions as txs))
    (hdata : e.contractData = (s.trie.entries a).contractData)
    (hstep : EntryStep E V config a e step e') : e'.contractData = e.contractData := by
  obtain ⟨-, p, item, p', hmem, hprocess, hcause⟩ := h
  refine hstep.contractData_of_tx hcause ?_
  rintro ⟨hsigner, htrigger, hemitted, record, hrecord, hrest⟩
  exact hnothing p item p' a hmem hprocess ⟨hsigner, htrigger, hemitted, record,
    (Entry.patoshiRecord_congr hdata).symm.trans hrecord, hrest⟩

theorem chargedStep_storageInv (h : ChargedStep E V config s event s')
    (hV : V.ChargesWrites config) (hinv : StorageInv config created (s.trie.entries a)) :
    StorageInv config created (s'.trie.entries a) := by
  obtain ⟨hstep, hconfig, hregisters, hschedules⟩ := h
  obtain ⟨_, _, -, -, hev⟩ := chainStep_effect hstep hconfig a
  -- Within a chunk of transactions the data stays that of its first state.
  refine (hev.invariant (fun e => StorageInv config created e ∧ ∀ as txs,
    event = .transactions as txs → e.contractData = (s.trie.entries a).contractData)
    ⟨hinv, fun _ _ _ => rfl⟩ ?_).1
  rintro e₁ step e₂ hcause ⟨hinv, hdata⟩ hentry
  have hsame : ∀ as txs, event = .transactions as txs → e₂.contractData = e₁.contractData := by
    rintro as txs rfl
    exact hcause.contractData hschedules (hdata as txs rfl) hentry
  refine ⟨hentry.storage hV hinv (hcause.ne_register hregisters) fun as tx haccept => ?_,
    fun as txs hevent => (hsame as txs hevent).trans (hdata as txs hevent)⟩
  obtain ⟨as', txs, -, -, -, hevent, -⟩ := hcause.of_accept haccept
  exact hsame as' txs hevent

theorem chargedRun_storageInv (hrun : Run (ChargedStep E V config) s events s')
    (hV : V.ChargesWrites config) (hinv : StorageInv config created (s.trie.entries a)) :
    StorageInv config created (s'.trie.entries a) :=
  Run.invariant (fun _ x => StorageInv config created (x.trie.entries a)) hrun hinv
    fun _ _ _ _ _ hinv hstep => chargedStep_storageInv hstep hV hinv

/-! ## In the middle of a receipt -/

/-- Executing the receipt in the state reaches `st` after some of its actions. -/
def ReachesActionState (E : Externals) (V : ContractRunner) (config : StorageUsageConfig)
    (s : ChainState E) (as : ApplyState) (receipt : ValidReceipt E) (st : ActionState) : Prop :=
  ∃ r promiseResults, ∃ t : Trie E, ∃ before result, as.config.storageUsageConfig = config ∧
    t.entries = s.trie.entries ∧ receipt.receipt.actionReceipt? = some r ∧
    before <+: r.actions ∧
    applyActions E V as receipt.receipt r promiseResults 0 before (initialActionResult as)
      (initialActionState t receipt.receipt) = .ok (result, st) ∧ result.isOk = true

theorem ReachesActionState.storageInv {receipt : ValidReceipt E} {st : ActionState}
    (h : ReachesActionState E V config s as receipt st) (hV : V.ChargesWrites config)
    (hinv : StorageInv config created (s.trie.entries receipt.receipt.receiverId)) :
    StorageInv config created st.view := by
  obtain ⟨r, _, t, _, _, rfl, hentries, hr, hbefore, happly, hok⟩ := h
  obtain ⟨_, -, -, -, hev⟩ := applyActions_evolves
    (fun init deposit hmem => isNearDeterministic_of_mem hr hmem) hbefore.isInfix .init
    happly hok
  rw [← hentries] at hinv
  exact hev.invariant (StorageInv as.config.storageUsageConfig created) hinv
    fun e₁ step e₂ hcause hinv hstep => hstep.storage hV hinv (fun publicKey nonce hregister => by
        subst hregister
        rcases hcause with hreceive | ⟨-, action, -, hcause⟩
        · cases hreceive
        · exact hcause.elim)
      fun as tx haccept => by
        rcases hcause with rfl | ⟨-, action, -, hcause⟩
        · simp at haccept
        · rcases haccept with rfl | rfl <;> exact hcause.elim

/-- Adding a key raises the usage by its cost, and deleting one lowers it by its cost, which it
covers. -/
def KeyActionsExact (E : Externals) (V : ContractRunner) (config : StorageUsageConfig)
    (s : ChainState E) : Prop :=
  ∀ as receipt st acc, ReachesActionState E V config s as receipt st → st.account = some acc →
    (∀ publicKey key start next e' acc',
      actionAddKey config receipt.receipt.receiverId st.entry acc start publicKey key
        as.blockHeight = .ok (next, e', acc') → next.isOk = true →
      acc'.storageUsage = acc.storageUsage + keyStorageCost config publicKey key) ∧
    ∀ publicKey start next e' acc',
      actionDeleteKey config receipt.receipt.receiverId st.entry acc start publicKey =
        .ok (next, e', acc') → next.isOk = true →
      ∃ key, st.entry.getAccessKey publicKey = some key ∧
        acc'.storageUsage + keyStorageCost config publicKey key = acc.storageUsage

theorem StorageInv.keyStorageCost_le {acc : Account} {publicKey : PublicKey}
    {key : AccessKey} (h : StorageInv config created e) (hacc : e.account = some acc)
    (hkey : e.getAccessKey publicKey = some key) :
    keyStorageCost config publicKey key ≤ acc.storageUsage := by
  have hcovered := h.covered acc hacc ∅
  rw [Entry.baseUsage, Entry.keysCost_removeAccessKey hkey] at hcovered
  unfold StorageUsage at *
  omega

theorem keyActionsExact_of_storageInv (hV : V.ChargesWrites config)
    (hinv : ∀ a, StorageInv config False (s.trie.entries a)) : KeyActionsExact E V config s := by
  intro as receipt st acc hreaches hacc
  have hview := hreaches.storageInv hV (hinv receipt.receipt.receiverId)
  refine ⟨fun publicKey key start next e' acc' hadd hok => ?_,
    fun publicKey start next e' acc' hdelete hok => ?_⟩
  · obtain ⟨-, -, rfl, -⟩ := actionAddKey_eq_ok hadd hok
    rfl
  · obtain ⟨key, hkey, -, rfl, -⟩ := actionDeleteKey_eq_ok hdelete hok
    exact ⟨key, hkey, Nat.sub_add_cancel (hview.keyStorageCost_le hacc hkey)⟩

/-! ## Runs -/

end Accounting

/-! ## Accounts created by a transfer -/

def sampleTransferReceipt (receiverId : AccountId) : Receipt where
  predecessorId := "alice.near"
  receiverId := receiverId
  receiptId := []
  receipt := .action
    { signerId := "alice.near"
      refundTo := none
      signerPublicKey := Receipt.emptyKey
      gasPrice := 0
      outputDataReceivers := []
      inputDataIds := []
      actions := [.basic (.transfer 10000)] }

def sampleTransferState (receiverId : AccountId) : ChainState .sample :=
  .sample .empty [sampleTransferReceipt receiverId]

def sampleStorageConfig : StorageUsageConfig := RuntimeConfig.sample.storageUsageConfig

/-- The usage of an account, and what it should be without a contract. -/
def observeUsage (s : ChainState .sample) (id : AccountId) :
    Option (AccountContract × StorageUsage) × StorageUsage :=
  ((s.trie.getAccount id).map fun acc => (acc.contract, acc.storageUsage),
    sampleStorageConfig.numBytesAccount + (s.trie.entries id).keysCost sampleStorageConfig)

def sampleImplicitId : AccountId := String.ofList (List.replicate 64 'a')

theorem sampleTransferState_storageInv (receiverId : AccountId) (a : AccountId) :
    StorageInv sampleStorageConfig False ((sampleTransferState receiverId).trie.entries a) :=
  ⟨fun acc hacc => (by cases hacc), fun _ => ⟨rfl, fun _ => rfl⟩, fun hfalse => hfalse.elim⟩

theorem chargesWrites_sample (config : StorageUsageConfig) :
    ContractRunner.sample.ChargesWrites config := by
  rintro context outcome ⟨⟩ haborted
  cases haborted

end BitInfinity
