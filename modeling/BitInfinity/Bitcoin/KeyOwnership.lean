import BitInfinity.Bitcoin.Replay

/-!
# Who owns the keys of a Bitcoin account

A key gets onto a Bitcoin account when a transaction of the account is signed with a Bitcoin key
of its address, or when the account adds it itself.
-/

namespace BitInfinity

open Foundation

section Ownership

variable {E : Externals} {V : ContractRunner} {s s' x y : ChainState E} {event : ChainEvent}
  {events : List ChainEvent} {a : AccountId} {pk : PublicKey}

/-- A transaction of the account, signed with the key, stores it. -/
def RegisteredByOwner (s : ChainState E) (event : ChainEvent) (a : AccountId) (pk : PublicKey) :
    Prop :=
  ∃ as txs p item nonce, event = .transactions as txs ∧
    (p, item) ∈ transactionTrace as s.trie txs ∧ item.1.transaction.signerId = a ∧
    Registers as p item pk nonce

/-- The step executes a receipt from the account to itself that adds the key. -/
def AddedByOwner (s s' : ChainState E) (a : AccountId) (pk : PublicKey) : Prop :=
  ∃ outcome r key, s'.log.receipts = s.log.receipts ++ [outcome] ∧
    outcome.receipt.predecessorId = a ∧ outcome.receipt.receiverId = a ∧
    outcome.receipt.actionReceipt? = some r ∧ .basic (.addKey pk key) ∈ r.actions

theorem RegisteredByOwner.derivesAddress (h : RegisteredByOwner s event a pk) :
    DerivesAddress E.toCrypto pk a := by
  obtain ⟨_, _, p, _, _, -, -, rfl, hregisters⟩ := h
  exact (recoveredKey_eq_some hregisters.recovered).2

/-! ## One step -/

theorem ChainCause.storedByOwner {step : EntryEvent} {nonce : Nonce}
    (h : ChainCause s event s' a step) (hbtc : isBitcoinAddress E.toCrypto a = true)
    (hnew : step.newKey = some (pk, nonce)) :
    RegisteredByOwner s event a pk ∨ AddedByOwner s s' a pk := by
  cases event with
  | transactions as txs =>
    obtain ⟨-, p, item, _, hmem, -, hcause⟩ := h
    obtain ⟨hsigner, hregisters⟩ := hcause.registers hnew
    exact .inl ⟨as, txs, p, item, nonce, rfl, hmem, hsigner, hregisters⟩
  | receipt =>
    obtain ⟨-, receipt, r, outcome, -, hactions, rfl, rfl, hlog, hcause⟩ := h
    obtain ⟨hself, -, -, key, hmem⟩ := hcause.addsKey hnew hbtc
    exact .inr ⟨outcome, r, key, hlog, hself, rfl, hactions, hmem⟩
  | validatorAccounts update => cases step <;> cases hnew <;> exact h.elim
  | yieldTimeout => exact h.elim
  | nextBlock => exact h.elim

theorem chainStep_stores (h : chainStep E V s event = some s')
    (hbtc : isBitcoinAddress E.toCrypto a = true)
    (hkey : (s'.trie.getAccessKey a pk).isSome = true) :
    (s.trie.getAccessKey a pk).isSome = true ∨ RegisteredByOwner s event a pk ∨
      AddedByOwner s s' a pk := by
  obtain ⟨_, hconfig⟩ := event.exists_usesConfig
  obtain ⟨_, _, -, -, hev⟩ := chainStep_effect h hconfig a
  refine hev.invariant (fun e => (e.getAccessKey pk).isSome = true →
    (s.trie.getAccessKey a pk).isSome = true ∨ RegisteredByOwner s event a pk ∨
      AddedByOwner s s' a pk) .inl (fun e₁ step e₂ hcause ih hstep hsome => ?_) hkey
  rcases (hstep.isSome_iff hbtc).mp hsome with ⟨hold, -⟩ | ⟨nonce, hnew⟩
  · exact ih hold
  · exact .inr (hcause.storedByOwner hbtc hnew)

/-! ## The first key -/

def Entry.HasKey (e : Entry) : Prop := ∃ pk, (e.getAccessKey pk).isSome = true

def Entry.HasContract (e : Entry) : Prop := ∃ acc, e.account = some acc ∧ acc.contract ≠ .none

theorem EntryStep.hasKey_or_hasContract {config : StorageUsageConfig} {e e' : Entry}
    {step : EntryEvent} {receipt : Receipt} (h : EntryStep E V config a e step e')
    (hissues : step.Issues receipt) : e.HasKey ∨ e.HasContract := by
  cases h with
  | accept as tx hsigner hacc hkey | drop as tx hsigner hacc hkey
  | delegate epochHeight actions nonce hacc hrecord hunlocked hkey =>
    exact .inl ⟨_, by rw [hkey]; rfl⟩
  | call hacc hcontract => exact .inr ⟨_, hacc, hcontract⟩
  | _ => exact hissues.elim

theorem Entry.HasContract.of_account {e e' : Entry} {acc acc' : Account} (h : e.HasContract)
    (hacc : e.account = some acc) (hacc' : e'.account = some acc')
    (hcontract : acc'.contract = acc.contract) : e'.HasContract := by
  obtain ⟨_, hold, hne⟩ := h
  rw [hacc] at hold
  cases hold
  exact ⟨acc', hacc', hcontract ▸ hne⟩

theorem EntryStep.hasContract {config : StorageUsageConfig} {e e' : Entry} {step : EntryEvent}
    {epochHeight : EpochHeight} (h : EntryStep E V config a e step e')
    (hpassive : step.Passive epochHeight) (hcontract : e.HasContract) : e'.HasContract := by
  have hsome : e.account ≠ none := by
    obtain ⟨acc, hacc, -⟩ := hcontract
    simp [hacc]
  cases h with
  | receive amount hacc | restake amount locked hacc | sweep amount hacc | call hacc =>
    exact hcontract.of_account hacc rfl rfl
  | register => exact hcontract
  | accept as tx hsigner hacc | payGas tx hsigner hacc =>
    exact hcontract.of_account hacc (Entry.charge_account ..) rfl
  | drop as tx hsigner hacc =>
    exact hcontract.of_account hacc ((Entry.schedule_account ..).trans hacc) rfl
  | delegate => exact hcontract
  | create amount hnone | createWithKey amount publicKey nonce hnone
  | createWithCode amount hash usage code hnone => exact absurd hnone hsome
  | stateInit acc data code hdet hne => exact ⟨acc, rfl, hne⟩
  | _ => exact hpassive.elim

/-- A step from a state in which the account has neither a key nor a contract. -/
def BareStep (E : Externals) (V : ContractRunner) (a : AccountId) (s : ChainState E)
    (event : ChainEvent) (s' : ChainState E) : Prop :=
  chainStep E V s event = some s' ∧ ¬ (s.trie.entries a).HasKey ∧ ¬ (s.trie.entries a).HasContract

/-- The account has issued transfers at most. -/
def IssuesTransfers (s : ChainState E) (a : AccountId) : Prop :=
  ∀ receipt, s.Outstanding receipt → receipt.predecessorId = a → receipt.IsTransfer

theorem IssuesTransfers.passive {step : EntryEvent} (hinv : IssuesTransfers s a)
    (hbtc : isBitcoinAddress E.toCrypto a = true) (h : ChainCause s event s' a step) :
    step.Passive s.epochHeight := by
  refine h.passive fun receipt hout hreceiver hmay => ?_
  rcases hmay with hpred | ⟨-, hfalse⟩
  · exact (hinv receipt hout (hpred.trans hreceiver)).calm
  · simp [hreceiver, hbtc] at hfalse

/-- What holds of an account that started without a key and a contract, while others act on
it. -/
structure BareInv (E : Externals) (a : AccountId) (past : List EntryEvent) (e : Entry) : Prop where
  derives : ∀ pk, (e.getAccessKey pk).isSome = true → DerivesAddress E.toCrypto pk a
  silent : ¬ e.HasKey → ¬ e.HasContract → ∀ step ∈ past, ∀ receipt, ¬ step.Issues receipt

theorem BareInv.step {config : StorageUsageConfig} {past : List EntryEvent} {e e' : Entry}
    {step : EntryEvent} {epochHeight : EpochHeight} (hinv : BareInv E a past e)
    (hstep : EntryStep E V config a e step e') (hbtc : isBitcoinAddress E.toCrypto a = true)
    (hpassive : step.Passive epochHeight) : BareInv E a (past ++ [step]) e' := by
  refine ⟨fun pk hpk => ?_, fun hkeyless hbare => ?_⟩
  · rcases (hstep.isSome_iff hbtc).mp hpk with ⟨hold, -⟩ | ⟨nonce, hnew⟩
    · exact hinv.derives pk hold
    · cases hstep with
      | register n hacc hbtc hderives =>
        cases hnew
        exact hderives
      | addKey | addGasKey => exact hpassive.elim
      | _ => cases hnew
  · -- Neither a key nor a contract can be lost in the step.
    have hkeyless₁ : ¬ e.HasKey := fun ⟨pk, hpk⟩ =>
      hkeyless ⟨pk, (hstep.isSome_iff hbtc).mpr (.inl ⟨hpk, hpassive.not_removes⟩)⟩
    have hbare₁ : ¬ e.HasContract := fun h => hbare (hstep.hasContract hpassive h)
    refine List.forall_mem_append.mpr ⟨hinv.silent hkeyless₁ hbare₁,
      List.forall_mem_singleton.mpr fun receipt hissues => ?_⟩
    exact (hstep.hasKey_or_hasContract hissues).elim hkeyless₁ hbare₁

theorem bareStep_derives (h : BareStep E V a s event s')
    (hbtc : isBitcoinAddress E.toCrypto a = true) (hinv : IssuesTransfers s a) :
    (∀ pk, (s'.trie.getAccessKey a pk).isSome = true → DerivesAddress E.toCrypto pk a) ∧
      (¬ (s'.trie.entries a).HasKey → ¬ (s'.trie.entries a).HasContract →
        IssuesTransfers s' a) := by
  obtain ⟨hstep, hkeyless, -⟩ := h
  obtain ⟨_, hconfig⟩ := event.exists_usesConfig
  obtain ⟨_, _, -, houtstanding, hev⟩ := chainStep_effect hstep hconfig a
  obtain ⟨_, hbareInv, -, hissued⟩ := hev.induct (BareInv E a)
    ⟨fun pk hpk => absurd ⟨pk, hpk⟩ hkeyless, by simp⟩
    fun past e₁ step e₂ hcause hpast hstep => hpast.step hstep hbtc (hinv.passive hbtc hcause)
  refine ⟨hbareInv.derives, fun hkeyless' hbare' receipt hout hpred => ?_⟩
  rcases houtstanding receipt hout with hold | hnew
  · exact hinv receipt hold hpred
  · rcases hissued receipt hnew.1 hpred with htransfer | ⟨step, hmem, hissues⟩
    · exact htransfer
    · exact absurd hissues (hbareInv.silent hkeyless' hbare' step hmem receipt)

theorem bareRun_derives (hrun : Run (BareStep E V a) s events s')
    (hbtc : isBitcoinAddress E.toCrypto a = true) (hkeyless : ¬ (s.trie.entries a).HasKey)
    (hissues : IssuesTransfers s a) :
    ∀ pk, (s'.trie.getAccessKey a pk).isSome = true → DerivesAddress E.toCrypto pk a := by
  refine (Run.invariant (fun _ x =>
    (∀ pk, (x.trie.getAccessKey a pk).isSome = true → DerivesAddress E.toCrypto pk a) ∧
    (¬ (x.trie.entries a).HasKey → ¬ (x.trie.entries a).HasContract → IssuesTransfers x a))
    hrun ⟨fun pk hpk => absurd ⟨pk, hpk⟩ hkeyless, fun _ _ => hissues⟩ ?_).1
  rintro past x event y - ⟨-, hinv⟩ hstep
  exact bareStep_derives hstep hbtc (hinv hstep.2.1 hstep.2.2)

/-! ## Runs -/

/-- From a state without keys on Bitcoin accounts, every key on such an account derives its
address or was added by the account; no step adds another one; and the first ones derive the
address when the account has no contract and had issued transfers at most. -/
theorem bitcoin_key_ownership
    (hkeys : ∀ a, isBitcoinAddress E.toCrypto a = true → ¬ (s.trie.entries a).HasKey)
    (hbtc : isBitcoinAddress E.toCrypto a = true) (hrun : ChainRun E V s events s') :
    (∀ pk, (s'.trie.getAccessKey a pk).isSome = true → DerivesAddress E.toCrypto pk a ∨ ∃ x event y,
        RunMakes (fun x event y => chainStep E V x event = some y) s events s' x event y ∧
          AddedByOwner x y a pk) ∧
    (∀ x event y, RunMakes (fun x event y => chainStep E V x event = some y) s events s' x event y →
      ∀ pk, x.trie.getAccessKey a pk = none → (y.trie.getAccessKey a pk).isSome = true →
        RegisteredByOwner x event a pk ∨ AddedByOwner x y a pk) ∧
    (IssuesTransfers s a → ∀ before x, Run (BareStep E V a) s before x →
        ∀ pk, (x.trie.getAccessKey a pk).isSome = true → DerivesAddress E.toCrypto pk a) := by
  refine ⟨?_, ?_, fun hissues before x hbare => bareRun_derives hbare hbtc (hkeys a hbtc) hissues⟩
  · refine Run.invariant (fun past x => ∀ pk, (x.trie.getAccessKey a pk).isSome = true →
      DerivesAddress E.toCrypto pk a ∨ ∃ u event v,
        RunMakes (fun x event y => chainStep E V x event = some y) s past x u event v ∧
          AddedByOwner u v a pk) hrun (fun pk hpk => absurd ⟨pk, hpk⟩ (hkeys a hbtc)) ?_
    intro past x event y hpast ih hstep pk hpk
    rcases chainStep_stores hstep hbtc hpk with hold | hregistered | hadded
    · rcases ih pk hold with hderives | ⟨u, event', v, hmakes, hadded⟩
      · exact .inl hderives
      · exact .inr ⟨u, event', v, hmakes.snoc hstep, hadded⟩
    · exact .inl hregistered.derivesAddress
    · exact .inr ⟨x, event, y, .last hpast hstep, hadded⟩
  · rintro x event y ⟨before, after, -, -, hstep, -⟩ pk hnone hsome
    exact (chainStep_stores hstep hbtc hsome).resolve_left (by simp [hnone])

/-! ## Receipts in the name of an account -/

/-- The step issues the receipt in the name of its predecessor: by a transaction of it with these
actions, or by a contract call or a delegated transaction in a receipt that is addressed to it. -/
inductive IssuedBy (x : ChainState E) (event : ChainEvent) (y : ChainState E)
    (receipt : Receipt) : Prop
  | transaction (as : ApplyState) (txs : List (SignedTransaction × Bool))
      (p p' : ProcessingState E) (item : SignedTransaction × Bool)
      (hevent : event = .transactions as txs) (hmem : (p, item) ∈ transactionTrace as x.trie txs)
      (hprocess : processTransaction as p item = .ok p')
      (hemitted : Emitted as p' item.1.transaction)
      (hsigner : item.1.transaction.signerId = receipt.predecessorId)
      (hactions : receipt.issuedActions = some item.1.transaction.actions)
  | receipt (outcome : ReceiptOutcome) (r : ActionReceipt) (action : Action) (data : ReturnData)
      (hout : x.Outstanding outcome.receipt)
      (hreceiver : outcome.receipt.receiverId = receipt.predecessorId)
      (hr : outcome.receipt.actionReceipt? = some r)
      (hlog : y.log.receipts = x.log.receipts ++ [outcome]) (hstatus : outcome.status = .ok data)
      (hmem : action ∈ r.actions)
      (haction : (∃ call, action = .basic (.functionCall call)) ∨ ∃ signed,
        action = .delegate signed ∧
          receipt.issuedActions = some (signed.delegateAction.actions.map .basic))
      (hnew : receipt ∈ outcome.newReceipts)

theorem ChainCause.issuedBy {step : EntryEvent} {receipt : Receipt}
    (h : ChainCause x event y receipt.predecessorId step) (hissues : step.Issues receipt)
    (hnew : ∀ outcome, y.log.receipts = x.log.receipts ++ [outcome] →
      receipt ∈ outcome.newReceipts) : IssuedBy x event y receipt := by
  cases event with
  | transactions as txs =>
    obtain ⟨-, p, item, p', hmem, hprocess, hcause⟩ := h
    cases step with
    | accept | drop =>
      obtain ⟨rfl, rfl, hsigner, hemitted⟩ := hcause
      exact .transaction _ txs p p' item rfl hmem hprocess hemitted hsigner hissues
    | call | delegate => exact hcause.elim
    | _ => exact hissues.elim
  | receipt =>
    obtain ⟨-, _, r, outcome, hout, hr, hreceiver, rfl, hlog, rfl | hcause⟩ := h
    · exact hissues.elim
    · obtain ⟨⟨data, hstatus⟩, action, hmem, hcause⟩ := hcause
      refine .receipt outcome r action data hout hreceiver hr hlog hstatus hmem ?_
        (hnew outcome hlog)
      cases step with
      | call => exact .inl hcause
      | delegate =>
        obtain ⟨-, signed, rfl, rfl⟩ := hcause
        exact .inr ⟨signed, rfl, hissues⟩
      | accept | drop => exact hcause.elim
      | _ => exact hissues.elim
  | validatorAccounts update => cases step <;> first | exact h.elim | exact hissues.elim
  | yieldTimeout => exact h.elim
  | nextBlock => exact h.elim

theorem sampleBitcoinState_outstanding (receipt : Receipt) :
    ¬ (sampleBitcoinState []).Outstanding receipt := by
  rintro (hpending | ⟨b, hb⟩)
  · cases hpending
  · simp [sampleBitcoinState, ChainState.sample, Trie.setAccount, Trie.empty, Mailbox.Holds,
      Mailbox.empty] at hb

end Ownership

/-! ## A first key, and one that was on its way -/

theorem sampleBitcoinState_bare (pending : List Receipt) (a : AccountId) :
    ¬ ((sampleBitcoinState pending).trie.entries a).HasKey ∧
      ¬ ((sampleBitcoinState pending).trie.entries a).HasContract := by
  unfold Entry.HasKey Entry.HasContract Entry.getAccessKey
  by_cases ha : a = sampleAddress
  · subst ha
    simp [sampleBitcoinState, ChainState.sample, Trie.setAccount, Trie.empty, Entry.empty]
  · simp [sampleBitcoinState, ChainState.sample, Trie.setAccount, ha, Trie.empty, Entry.empty]

/-- The first transaction stores a key that derives the address. -/
theorem bitcoin_key_ownership_first_use :
    ∃ s', chainStep .sample .sample (sampleBitcoinState [])
        (.transactions (.sample 5 0) [(sampleDeletion, true)]) = some s' ∧
      (s'.trie.getAccessKey sampleAddress (.secp256k1 sampleKey)).isSome = true ∧
      DerivesAddress Externals.sample.toCrypto (.secp256k1 sampleKey) sampleAddress := by
  have hobserve : (chainStep .sample .sample (sampleBitcoinState [])
      (.transactions (.sample 5 0) [(sampleDeletion, true)])).map
        (fun s => (s.trie.getAccessKey sampleAddress (.secp256k1 sampleKey)).isSome) =
      some true := by decide +kernel
  obtain ⟨s', hstep, hkey⟩ := Option.map_eq_some_iff.mp hobserve
  have hbare := sampleBitcoinState_bare []
  exact ⟨s', hstep, hkey, (bitcoin_key_ownership (fun a _ => (hbare a).1) (by decide +kernel)
    (.single hstep)).2.2 (fun receipt hout => (sampleBitcoinState_outstanding receipt hout).elim)
    _ _ (.single ⟨hstep, hbare sampleAddress⟩) _ hkey⟩

/-- A receipt of the account that adds a key which derives no address. -/
def sampleAddKeyReceipt : Receipt :=
  receiptFromTx .sample (.sample 5 0)
    (sampleTransaction sampleAddress sampleAddress 4000001
      [.basic (.addKey Receipt.emptyKey .fullAccess)]).transaction
    ⟨2, 2, 1, 2, 9996, .regular 4000001 none⟩

/-- When such a receipt is outstanding, the first key need not derive the address. -/
theorem bitcoin_key_added_late :
    (∀ a, ¬ ((sampleBitcoinState [sampleAddKeyReceipt]).trie.entries a).HasKey) ∧
    ∃ s', Run (BareStep .sample .sample sampleAddress)
        (sampleBitcoinState [sampleAddKeyReceipt])
        [.receipt (.sample 5 0) sampleAddKeyReceipt] s' ∧
      (s'.trie.getAccessKey sampleAddress Receipt.emptyKey).isSome = true ∧
      ¬ DerivesAddress Externals.sample.toCrypto Receipt.emptyKey sampleAddress := by
  have hobserve : (chainStep .sample .sample
      (sampleBitcoinState [sampleAddKeyReceipt])
      (.receipt (.sample 5 0) sampleAddKeyReceipt)).map
        (fun s => (s.trie.getAccessKey sampleAddress Receipt.emptyKey).isSome) =
      some true := by decide +kernel
  obtain ⟨s', hstep, hkey⟩ := Option.map_eq_some_iff.mp hobserve
  have hbare := sampleBitcoinState_bare [sampleAddKeyReceipt]
  refine ⟨fun a => (hbare a).1, s', .single ⟨hstep, hbare sampleAddress⟩, hkey, ?_⟩
  rintro ⟨_, hsecp, -⟩
  cases hsecp

end BitInfinity
