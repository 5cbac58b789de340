import BitInfinity.Ledger.Receipts

/-!
# Which receipt is executed

Processing a receipt executes it, executes one that waited for it, or stores it.
-/

namespace BitInfinity

open Foundation

/-! ## Stored receipts -/

section Stored

variable {E : Externals} {m m' : Mailbox E} {t t' : Trie E} {receipt : Receipt}
  {v w : ValidReceipt E}

variable {k : CryptoHash} {new : Option (ValidReceipt E)}

/-- The receipt waits in the mailbox for data or for its resumption. -/
def Mailbox.Holds (m : Mailbox E) (receipt : Receipt) : Prop :=
  ∃ id v, (m.postponedReceipt id = some v ∨ m.promiseYieldReceipt id = some v) ∧ v.receipt = receipt

def Trie.Holds (t : Trie E) (receipt : Receipt) : Prop := ∃ b, (t.mailboxes b).Holds receipt

theorem Mailbox.Holds.congr (h : m'.Holds receipt)
    (hpost : m'.postponedReceipt = m.postponedReceipt)
    (hyield : m'.promiseYieldReceipt = m.promiseYieldReceipt) : m.Holds receipt := by
  unfold Mailbox.Holds at *
  rwa [hpost, hyield] at h

theorem Trie.Holds.congr (h : t'.Holds receipt)
    (hpost : ∀ b, (t'.mailboxes b).postponedReceipt = (t.mailboxes b).postponedReceipt)
    (hyield : ∀ b, (t'.mailboxes b).promiseYieldReceipt = (t.mailboxes b).promiseYieldReceipt) :
    t.Holds receipt := by
  obtain ⟨b, hb⟩ := h
  exact ⟨b, hb.congr (hpost b) (hyield b)⟩

theorem Trie.holds_setMailbox {a : AccountId} (h : (t.setMailbox a m).Holds receipt) :
    m.Holds receipt ∨ t.Holds receipt := by
  obtain ⟨b, hb⟩ := h
  by_cases hba : b = a
  · subst hba
    left
    simpa [Trie.setMailbox] using hb
  · right
    exact ⟨b, by simpa [Trie.setMailbox, hba] using hb⟩

theorem eq_some_of_update {β : Type} {f : CryptoHash → Option β} {id : CryptoHash} {new : Option β}
    {x : β} (h : Function.update f k new id = some x) : new = some x ∨ f id = some x := by
  by_cases hid : id = k
  · subst hid
    rw [Function.update_self] at h
    exact .inl h
  · rw [Function.update_of_ne hid] at h
    exact .inr h

theorem Mailbox.holds_postponed
    (h : m'.Holds receipt) (hpost : m'.postponedReceipt = Function.update m.postponedReceipt k new)
    (hyield : m'.promiseYieldReceipt = m.promiseYieldReceipt) :
    m.Holds receipt ∨ ∃ v, new = some v ∧ v.receipt = receipt := by
  obtain ⟨id, v, hv, rfl⟩ := h
  rw [hpost, hyield] at hv
  rcases hv with hv | hv
  · rcases eq_some_of_update hv with hnew | hold
    · exact .inr ⟨v, hnew, rfl⟩
    · exact .inl ⟨id, v, .inl hold, rfl⟩
  · exact .inl ⟨id, v, .inr hv, rfl⟩

theorem Mailbox.holds_yielded (h : m'.Holds receipt)
    (hyield : m'.promiseYieldReceipt = Function.update m.promiseYieldReceipt k new)
    (hpost : m'.postponedReceipt = m.postponedReceipt) :
    m.Holds receipt ∨ ∃ v, new = some v ∧ v.receipt = receipt := by
  obtain ⟨id, v, hv, rfl⟩ := h
  rw [hpost, hyield] at hv
  rcases hv with hv | hv
  · exact .inl ⟨id, v, .inl hv, rfl⟩
  · rcases eq_some_of_update hv with hnew | hold
    · exact .inr ⟨v, hnew, rfl⟩
    · exact .inl ⟨id, v, .inr hold, rfl⟩

end Stored

/-! ## Processing -/

section Processing

variable {E : Externals} {V : ContractRunner} {as : ApplyState} {t t' : Trie E}
  {receipt : ValidReceipt E} {outcome : Option ReceiptOutcome}

variable {r : ActionReceipt} {a : AccountId}

/-- The trie differs in its mailboxes only, which hold at most one receipt more. -/
structure Shelved (t : Trie E) (receipt : Receipt) (t' : Trie E) : Prop where
  entries : t'.entries = t.entries
  holds : ∀ stored, t'.Holds stored → t.Holds stored ∨ stored = receipt

/-- A receipt was executed: the one that arrived or one that was stored. -/
structure Executed (E : Externals) (V : ContractRunner) (as : ApplyState) (t : Trie E)
    (receipt : ValidReceipt E) (t' : Trie E) (executed : ValidReceipt E) (r : ActionReceipt)
    (outcome : ReceiptOutcome) : Prop where
  source : executed = receipt ∨ t.Holds executed.receipt
  actions : executed.receipt.actionReceipt? = some r
  effect : ∃ t₁ : Trie E, t₁.entries = t.entries ∧ (∀ stored, t₁.Holds stored → t.Holds stored) ∧
    ReceiptEffect E V as t₁ executed.receipt r t' outcome

/-- How the processing of a receipt can end. -/
def ProcessedAs (E : Externals) (V : ContractRunner) (as : ApplyState) (t : Trie E)
    (receipt : ValidReceipt E) (t' : Trie E) (outcome : Option ReceiptOutcome) : Prop :=
  (outcome = none ∧ Shelved t receipt.receipt t') ∨
    ∃ executed r o, outcome = some o ∧ Executed E V as t receipt t' executed r o

theorem isNearDeterministic_of_mem
    (hr : receipt.receipt.actionReceipt? = some r) {init : DeterministicAccountStateInit}
    {deposit : Balance} (hmem : .basic (.deterministicStateInit init deposit) ∈ r.actions) :
    AccountId.isNearDeterministic receipt.receipt.receiverId = true := by
  obtain ⟨_, _, hvalid⟩ := receipt.valid
  exact isNearDeterministic_of_validate (validateActions_of_validateReceipt hvalid hr) hmem

theorem executeReceipt_processedAs {executed : ValidReceipt E} {t₁ : Trie E}
    (h : executeReceipt E V as t₁ executed.receipt = .ok (t', outcome))
    (hsource : executed = receipt ∨ t.Holds executed.receipt)
    (hentries : t₁.entries = t.entries) (hholds : ∀ stored, t₁.Holds stored → t.Holds stored) :
    ProcessedAs E V as t receipt t' outcome := by
  unfold executeReceipt at h
  split at h
  · rename_i r hr
    obtain ⟨⟨_, o⟩, happly, h⟩ := bind_eq_ok.mp h
    cases h
    exact .inr ⟨executed, r, o, rfl, hsource, hr, t₁, hentries, hholds,
      applyActionReceipt_effect (fun _ _ => isNearDeterministic_of_mem hr) happly⟩
  · cases h

theorem ProcessedAs.of_eq {t₀ : Trie E} (h : ProcessedAs E V as t₀ receipt t' outcome)
    (hentries : t₀.entries = t.entries) (hholds : ∀ stored, t₀.Holds stored → t.Holds stored) :
    ProcessedAs E V as t receipt t' outcome := by
  rcases h with ⟨hnone, hshelved⟩ | ⟨executed, r, o, ho, hexec⟩
  · exact .inl ⟨hnone, hshelved.entries.trans hentries, fun stored hstored =>
      (hshelved.holds stored hstored).imp_left (hholds stored)⟩
  · obtain ⟨t₁, hentries₁, hholds₁, heffect⟩ := hexec.effect
    exact .inr ⟨executed, r, o, ho, hexec.source.imp_right (hholds _), hexec.actions, t₁,
      hentries₁.trans hentries, fun stored hstored => hholds stored (hholds₁ stored hstored),
      heffect⟩

theorem holds_of_setMailbox {m : Mailbox E}
    (hm : ∀ stored, m.Holds stored → (t.mailboxes a).Holds stored) (stored : Receipt)
    (h : (t.setMailbox a m).Holds stored) : t.Holds stored := by
  rcases Trie.holds_setMailbox h with hnew | hold
  · exact ⟨a, hm stored hnew⟩
  · exact hold

theorem shelved_setMailbox {m : Mailbox E} {new : Receipt}
    (hm : ∀ stored, m.Holds stored → (t.mailboxes a).Holds stored ∨ stored = new) :
    Shelved t new (t.setMailbox a m) := by
  refine ⟨rfl, fun stored h => ?_⟩
  rcases Trie.holds_setMailbox h with hnew | hold
  · exact (hm stored hnew).imp_left fun h => ⟨a, h⟩
  · exact .inl hold

theorem deliverData_processedAs {dataId receiptId : CryptoHash}
    (h : deliverData E V as t a dataId receiptId = .ok (t', outcome)) :
    ProcessedAs E V as t receipt t' outcome := by
  obtain ⟨_, -, h⟩ := bind_eq_ok.mp h
  split at h
  · obtain ⟨ready, hready, h⟩ := bind_eq_ok.mp h
    refine executeReceipt_processedAs h
      (.inr ⟨a, receiptId, ready, .inl (okOr_eq_ok.mp hready), rfl⟩) rfl (holds_of_setMailbox ?_)
    intro stored hstored
    rcases Mailbox.holds_postponed hstored rfl rfl with hold | ⟨v, hnew, -⟩
    · exact hold.congr rfl rfl
    · cases hnew
  · obtain ⟨_, -, h⟩ := bind_eq_ok.mp h
    cases h
    exact .inl ⟨rfl, shelved_setMailbox fun stored hstored => .inl (hstored.congr rfl rfl)⟩

theorem processDataReceipt_processedAs {data : DataReceipt}
    (h : processDataReceipt E V as t a data = .ok (t', outcome)) :
    ProcessedAs E V as t receipt t' outcome := by
  unfold processDataReceipt at h
  dsimp only at h
  split at h
  · exact (deliverData_processedAs h).of_eq rfl
      (holds_of_setMailbox fun stored hstored => hstored.congr rfl rfl)
  · cases h
    exact .inl ⟨rfl, shelved_setMailbox fun stored hstored => .inl (hstored.congr rfl rfl)⟩

theorem linkPendingData_receipts (m : Mailbox E) (receiptId : CryptoHash)
    (dataIds : List CryptoHash) :
    (linkPendingData m receiptId dataIds).2.postponedReceipt = m.postponedReceipt ∧
    (linkPendingData m receiptId dataIds).2.promiseYieldReceipt = m.promiseYieldReceipt := by
  refine List.foldlRecOn (motive := fun s : Nat × Mailbox E =>
    s.2.postponedReceipt = m.postponedReceipt ∧
    s.2.promiseYieldReceipt = m.promiseYieldReceipt) dataIds _ ⟨rfl, rfl⟩ fun s hs dataId _ => ?_
  dsimp only
  split
  · exact hs
  · exact hs

theorem processActionReceipt_processedAs
    (h : processActionReceipt E V as t receipt r = .ok (t', outcome)) :
    ProcessedAs E V as t receipt t' outcome := by
  obtain ⟨hpost, hyield⟩ := linkPendingData_receipts (t.mailboxes receipt.receipt.receiverId)
    receipt.receipt.receiptId r.inputDataIds
  unfold processActionReceipt at h
  dsimp only at h
  split at h
  · exact executeReceipt_processedAs h (.inl rfl) rfl
      (holds_of_setMailbox fun stored hstored => hstored.congr hpost hyield)
  · cases h
    refine .inl ⟨rfl, shelved_setMailbox fun stored hstored => ?_⟩
    rcases Mailbox.holds_postponed hstored rfl rfl with hold | ⟨v, hnew, rfl⟩
    · exact .inl (hold.congr hpost hyield)
    · exact .inr (congrArg ValidReceipt.receipt (Option.some.inj hnew)).symm

theorem storePromiseYield_shelved
    (h : storePromiseYield t receipt r = .ok t') : Shelved t receipt.receipt t' := by
  unfold storePromiseYield at h
  split at h
  · cases h
    refine shelved_setMailbox fun stored hstored => ?_
    rcases Mailbox.holds_yielded hstored rfl rfl with hold | ⟨v, hnew, rfl⟩
    · exact .inl hold
    · exact .inr (congrArg ValidReceipt.receipt (Option.some.inj hnew)).symm
  · cases h

theorem processPromiseResume_processedAs {data : DataReceipt}
    (h : processPromiseResume E V as t a data = .ok (t', outcome)) :
    ProcessedAs E V as t receipt t' outcome := by
  unfold processPromiseResume at h
  dsimp only at h
  split at h
  · cases h
    exact .inl ⟨rfl, rfl, fun _ => .inl⟩
  · split at h
    · cases h
      exact .inl ⟨rfl, rfl, fun _ => .inl⟩
    · rename_i yielded hyielded
      refine executeReceipt_processedAs h (.inr ⟨a, data.dataId, yielded, .inr hyielded, rfl⟩)
        rfl (holds_of_setMailbox ?_)
      intro stored hstored
      rcases Mailbox.holds_yielded hstored rfl rfl with hold | ⟨v, hnew, -⟩
      · exact hold
      · cases hnew

theorem processReceipt_processedAs (h : processReceipt E V as t receipt = .ok (t', outcome)) :
    ProcessedAs E V as t receipt t' outcome := by
  unfold processReceipt at h
  split at h
  · exact processDataReceipt_processedAs h
  · exact processActionReceipt_processedAs h
  · obtain ⟨_, hstore, h⟩ := bind_eq_ok.mp h
    cases h
    exact .inl ⟨rfl, storePromiseYield_shelved hstore⟩
  · exact processPromiseResume_processedAs h
  · cases h
    refine .inl ⟨rfl, ?_, fun stored hstored => .inl ?_⟩
    · unfold applyDistribution
      dsimp only
      split_ifs <;> rfl
    · unfold applyDistribution at hstored
      dsimp only at hstored
      split_ifs at hstored <;> exact hstored

end Processing

end BitInfinity
