import BitInfinity.Runtime.ApplyReceipt

/-!
# Processing a receipt

Receipts that still wait for data are kept in the mailbox of their receiver; the last piece of
data executes them.
-/

namespace BitInfinity

open Foundation

section Process

variable (E : Externals) (V : ContractRunner) (as : ApplyState)

/-- What processing a receipt leaves: an outcome when an action receipt was executed. -/
abbrev Processed := Trie E × Option ReceiptOutcome

def Mailbox.storeData {E : Externals} (m : Mailbox E) (receipt : DataReceipt) : Mailbox E :=
  { m with receivedData := Function.update m.receivedData receipt.dataId (some receipt.data) }

def executeReceipt (t : Trie E) (receipt : Receipt) : Except RuntimeError (Processed E) :=
  match receipt.actionReceipt? with
  | some r => do
    let (t, outcome) ← applyActionReceipt E V as t receipt r
    .ok (t, some outcome)
  | none => .error (.panicked "given receipt should be an action receipt")

/-- Data for a postponed receipt: execute it when this was the last piece, count otherwise. -/
def deliverData (t : Trie E) (accountId : AccountId) (dataId receiptId : CryptoHash) :
    Except RuntimeError (Processed E) := do
  let m := t.mailboxes accountId
  let m := { m with postponedReceiptId := Function.update m.postponedReceiptId dataId none }
  let count ← okOr (m.pendingDataCount receiptId) (.storageError .pendingDataCountMissing)
  if count = 1 then do
    let ready ← okOr (m.postponedReceipt receiptId) (.storageError .pendingReceiptMissing)
    let m := { m with
      pendingDataCount := Function.update m.pendingDataCount receiptId none
      postponedReceipt := Function.update m.postponedReceipt receiptId none }
    executeReceipt E V as (t.setMailbox accountId m) ready.receipt
  else do
    let count ← okOr (checkedSub count 1) (.storageError .pendingDataCountZero)
    let m := { m with
      pendingDataCount := Function.update m.pendingDataCount receiptId (some count) }
    .ok (t.setMailbox accountId m, none)

def processDataReceipt (t : Trie E) (accountId : AccountId) (data : DataReceipt) :
    Except RuntimeError (Processed E) :=
  let t := t.setMailbox accountId ((t.mailboxes accountId).storeData data)
  match (t.mailboxes accountId).postponedReceiptId data.dataId with
  | some receiptId => deliverData E V as t accountId data.dataId receiptId
  | none => .ok (t, none)

/-- Link the data that has not arrived to the receipt, and count it. -/
def linkPendingData {E : Externals} (m : Mailbox E) (receiptId : CryptoHash)
    (dataIds : List CryptoHash) : Nat × Mailbox E :=
  dataIds.foldl (fun (count, m) dataId =>
    if (m.receivedData dataId).isSome then (count, m)
    else (count + 1, { m with
      postponedReceiptId := Function.update m.postponedReceiptId dataId (some receiptId) }))
    (0, m)

def processActionReceipt (t : Trie E) (receipt : ValidReceipt E) (r : ActionReceipt) :
    Except RuntimeError (Processed E) :=
  let accountId := receipt.receipt.receiverId
  let receiptId := receipt.receipt.receiptId
  let (count, m) := linkPendingData (t.mailboxes accountId) receiptId r.inputDataIds
  if count = 0 then
    executeReceipt E V as (t.setMailbox accountId m) receipt.receipt
  else
    .ok (t.setMailbox accountId { m with
      pendingDataCount := Function.update m.pendingDataCount receiptId (some count)
      postponedReceipt := Function.update m.postponedReceipt receiptId (some receipt) }, none)

/-- Keep a yielded receipt under the identifier of the data that resumes it. -/
def storePromiseYield {E : Externals} (t : Trie E) (receipt : ValidReceipt E)
    (r : ActionReceipt) : Except RuntimeError (Trie E) :=
  match r.inputDataIds with
  | [dataId] =>
    let m := t.mailboxes receipt.receipt.receiverId
    .ok (t.setMailbox receipt.receipt.receiverId { m with
      promiseYieldReceipt := Function.update m.promiseYieldReceipt dataId (some receipt) })
  | _ => .error (.panicked "promise yield with other than one input")

def processPromiseResume (t : Trie E) (accountId : AccountId) (data : DataReceipt) :
    Except RuntimeError (Processed E) :=
  let improved := ProtocolFeature.yieldResumeImprovements.enabled as.protocolVersion
  let m := t.mailboxes accountId
  if data.data.isNone && improved && m.promiseYieldStatus data.dataId == some .resumeInitiated then
    .ok (t, none)
  else
    match m.promiseYieldReceipt data.dataId with
    | none => .ok (t, none)
    | some yielded =>
      let m := { m with
        promiseYieldReceipt := Function.update m.promiseYieldReceipt data.dataId none
        promiseYieldStatus :=
          if improved then Function.update m.promiseYieldStatus data.dataId none
          else m.promiseYieldStatus }
      executeReceipt E V as (t.setMailbox accountId (m.storeData data)) yielded.receipt

def applyDistribution {E : Externals} (t : Trie E) (receipt : GlobalContractDistributionReceipt) :
    Trie E :=
  let globals := t.globals
  let setCode := fun globals : Globals => { globals with
    contractCode := Function.update globals.contractCode receipt.id (some receipt.code) }
  if ProtocolFeature.globalContractDistributionNonce.enabled as.protocolVersion then
    if receipt.nonce < globals.contractNonce receipt.id then t
    else { t with globals := setCode { globals with
      contractNonce := Function.update globals.contractNonce receipt.id receipt.nonce } }
  else { t with globals := setCode globals }

def processReceipt (t : Trie E) (receipt : ValidReceipt E) : Except RuntimeError (Processed E) :=
  match receipt.receipt.receipt with
  | .data data => processDataReceipt E V as t receipt.receipt.receiverId data
  | .action r => processActionReceipt E V as t receipt r
  | .promiseYield r => do
    let t ← storePromiseYield t receipt r
    .ok (t, none)
  | .promiseResume data => processPromiseResume E V as t receipt.receipt.receiverId data
  | .globalContractDistribution receipt => .ok (applyDistribution as t receipt, none)

end Process

end BitInfinity
