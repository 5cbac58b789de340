import BitInfinity.Foundation.Run
import BitInfinity.Runtime.ProcessReceipt
import BitInfinity.Runtime.ProcessTransactions
import BitInfinity.Runtime.ValidatorAccounts

/-!
# The chain as a state machine

A chunk is applied in phases: the accounts of validators are updated, the transactions of the
chunk are processed, then receipts are.  The machine takes one phase, or one receipt, at a
time and in any order, so that its runs include those of every schedule.  Receipts on their
way to another chunk, delayed and buffered ones included, are in the pool `pending`.
-/

namespace BitInfinity

open Foundation

structure ChainLog where
  transactions : List (SignedTransaction × TransactionEnd)
  receipts : List ReceiptOutcome

structure ChainState (E : Externals) where
  trie : Trie E
  pending : List Receipt
  blockHeight : BlockHeight
  epochHeight : EpochHeight
  log : ChainLog

inductive ChainEvent
  | transactions (as : ApplyState) (txs : List (SignedTransaction × Bool))
  | receipt (as : ApplyState) (receipt : Receipt)
  | yieldTimeout (accountId : AccountId) (dataId : CryptoHash)
  | validatorAccounts (update : ValidatorAccountsUpdate)
  | nextBlock (blockHeight : BlockHeight) (epochHeight : EpochHeight)

section Step

variable (E : Externals) (V : ContractRunner)

def ChainState.accepts {E : Externals} (s : ChainState E) (as : ApplyState) : Bool :=
  as.blockHeight == s.blockHeight && as.epochHeight == s.epochHeight

/-- All writes of the chunk's transactions, those after the last commit included: they become
part of the state with the next commit. -/
def applyTransactions (s : ChainState E) (as : ApplyState)
    (txs : List (SignedTransaction × Bool)) : Option (ChainState E) :=
  match processTransactions as s.trie txs with
  | .ok p => some { s with
      trie := p.trie
      pending := s.pending ++ p.localReceipts ++ p.forwardedReceipts
      log := { s.log with transactions := s.log.transactions ++ p.log } }
  | .error _ => none

def applyReceipt (s : ChainState E) (as : ApplyState) (receipt : Receipt) : Option (ChainState E) :=
  match hvalid : validateReceipt E as.config.limitConfig as.protocolVersion receipt
      .existingReceipt with
  | .error _ => none
  | .ok () =>
    match processReceipt E V as s.trie ⟨receipt, as.config.limitConfig, as.protocolVersion,
      hvalid⟩ with
    | .ok (t, outcome) => some { s with
        trie := t
        pending := s.pending.erase receipt ++ (outcome.map ReceiptOutcome.newReceipts).getD []
        log := { s.log with receipts := s.log.receipts ++ outcome.toList } }
    | .error _ => none

def timeoutReceipt (accountId : AccountId) (dataId : CryptoHash) : Receipt where
  predecessorId := accountId
  receiverId := accountId
  receiptId := Receipt.defaultHash
  receipt := .promiseResume ⟨dataId, none⟩

def chainStep (s : ChainState E) : ChainEvent → Option (ChainState E)
  | .transactions as txs => if s.accepts as then applyTransactions E s as txs else none
  | .receipt as receipt =>
    if s.accepts as && s.pending.contains receipt then applyReceipt E V s as receipt else none
  | .yieldTimeout accountId dataId =>
    if ((s.trie.mailboxes accountId).promiseYieldReceipt dataId).isSome then
      some { s with pending := s.pending ++ [timeoutReceipt accountId dataId] }
    else none
  | .validatorAccounts update =>
    match updateValidatorAccounts s.trie update s.epochHeight with
    | .ok trie => some { s with trie }
    | .error _ => none
  | .nextBlock blockHeight epochHeight =>
    if s.blockHeight < blockHeight && s.epochHeight ≤ epochHeight then
      some { s with blockHeight, epochHeight }
    else none

abbrev ChainRun (s : ChainState E) (events : List ChainEvent) (s' : ChainState E) : Prop :=
  Run (fun a event b => chainStep E V a event = some b) s events s'

end Step

/-- A runner for which every contract fails, and a state of block five without a history. -/
def ContractRunner.sample : ContractRunner := fun _ => .ok (.nop "sample")

def ChainState.sample (trie : Trie .sample) (pending : List Receipt) :
    ChainState .sample where
  trie := trie
  pending := pending
  blockHeight := 5
  epochHeight := 0
  log := ⟨[], []⟩

end BitInfinity
