import BitInfinity.Foundation.Monitor
import BitInfinity.Proxy.WalletSends

/-!
# How handlers choose nonces

Every handler reads the cached nonce of an account before it signs for it, and signs with
larger and larger nonces from there.  The discipline is a monitor of the requests; it says
nothing yet about other handlers that run at the same time.  Nonces are added as 64-bit
numbers, so it is kept only while the last of them does not come up.
-/

namespace BitInfinity.Proxy

open BitInfinity Foundation

/-! ## The monitor -/

/-- For each account the number that the next nonce must exceed; `none` while the cached nonce
of the account was not read. -/
abbrev NonceFloors := String → Option Nat

def Covers (m : NonceFloors) (address : String) (nonce : Nat) : Prop :=
  ∃ floor, m address = some floor ∧ floor < nonce

def acceptsNonce (m : NonceFloors) : Request → Prop
  | .sign _ (.transaction tx) => Covers m tx.signerId tx.nonce
  | _ => True

def raiseFloor (m : NonceFloors) : (op : Request) → op.Reply → NonceFloors
  | .cachedNonce address, nonce => Function.update m address (some (Option.getD nonce 0))
  | .sign _ (.transaction tx), _ => Function.update m tx.signerId (some tx.nonce)
  | _, _ => m

def lastNonce : Nat := 2 ^ 64 - 1

/-- The last nonce, from which the next addition wraps around, does not come up: it is not the
cached nonce, not the nonce on the chain, and the node accepts no transaction with it. -/
def BelowLastNonce : (op : Request) → op.Reply → Prop
  | .cachedNonce _, nonce => Option.getD nonce 0 < lastNonce
  | .viewAccessKey _ _, .ok (some nonce) => nonce < lastNonce
  | .sendTxAsync (.signed _ tx) _, .ok _ => tx.nonce < lastNonce
  | _, _ => True

def nonceMonitor : Monitor Request.Reply NonceFloors := ⟨acceptsNonce, BelowLastNonce, raiseFloor⟩

def Disciplined {α : Type} (m : NonceFloors) (p : Handler α) : Prop :=
  p.Obeys nonceMonitor (fun _ _ => True) m

section Rules

variable {α β : Type} {m : NonceFloors}

variable {op : Request} {x : Except RpcError α} {p : Handler α} {f : α → Handler β}

/-- A request that is neither a signature nor a look at the cached nonces. -/
def Request.isNeutral : Request → Bool
  | cachedNonce _ => false
  | sign _ _ => false
  | _ => true

theorem Request.ignores_of_isNeutral (h : op.isNeutral = true) : nonceMonitor.Ignores op := by
  intro m
  cases op with
  | cachedNonce address => cases h
  | sign => cases h
  | _ => exact ⟨trivial, fun _ => rfl⟩

abbrev Neutral (p : Handler α) : Prop := p.AllAsks nonceMonitor.Ignores

theorem neutral_ask (h : op.isNeutral = true) : Neutral (ask op) :=
  Prog.allAsks_request.mpr (Request.ignores_of_isNeutral h)

theorem neutral_ofExcept : Neutral (.ofExcept x) := Prog.allAsks_ofExcept

theorem neutral_orFail {code : Int} {label : String} {x : Except String α} :
    Neutral (orFail code label x) :=
  Prog.allAsks_ofExcept

theorem neutral_ensureWalletUsable : Neutral ensureWalletUsable := by
  refine .bind (neutral_ask rfl) fun _ => ?_
  refine .bind neutral_ofExcept fun _ => ?_
  exact .bind (neutral_ask rfl) fun _ => neutral_ofExcept

theorem Disciplined.of_neutral (h : Neutral p) : Disciplined m p :=
  Prog.obeys_of_ignores h fun _ => trivial

theorem Disciplined.bind_of_neutral (hp : Neutral p)
    (hf : ∀ a, Disciplined m (f a)) : Disciplined m (p >>= f) :=
  Prog.Obeys.bind_of_ignores hp hf

theorem Disciplined.ask {op : Request} {f : op.Reply → Handler β} (h : op.isNeutral = true)
    (hf : ∀ a, Disciplined m (f a)) : Disciplined m (Proxy.ask op >>= f) :=
  .bind_of_neutral (neutral_ask h) hf

theorem Disciplined.check (hf : ∀ a, Disciplined m (f a)) : Disciplined m (.ofExcept x >>= f) :=
  .bind_of_neutral neutral_ofExcept hf

theorem Disciplined.bind (hp : Disciplined m p)
    (hf : ∀ m a, Disciplined m (f a)) : Disciplined m (p >>= f) :=
  Prog.Obeys.bind hp fun m a _ => hf m a

end Rules

/-! ## Preparing and signing -/

section Signing

variable {α : Type} {m : NonceFloors}

theorem covers_update (m : NonceFloors) {address : String} {floor nonce : Nat}
    (h : floor < nonce) : Covers (Function.update m address (some floor)) address nonce :=
  ⟨floor, by simp, h⟩

theorem bitcoinFirstTxNonceFloor_le (height : Nat) : bitcoinFirstTxNonceFloor height ≤ lastNonce :=
  min_le_right _ _

theorem obeys_chainNonce (m : NonceFloors) (address publicKey : String) :
    (chainNonce address publicKey).Obeys nonceMonitor
      (fun m' nonce => m' = m ∧ nonce < lastNonce) m := by
  have hzero : 0 < lastNonce := by decide
  refine Prog.obeys_bind.mpr ⟨trivial, fun reply hreply => Prog.obeys_done.mpr ?_⟩
  cases reply with
  | ok nonce =>
    cases nonce with
    | none => exact ⟨rfl, hzero⟩
    | some nonce => exact ⟨rfl, hreply⟩
  | error _ =>
    refine .bind_of_ignores (neutral_ask rfl) fun status => ?_
    cases status with
    | error _ => exact ⟨rfl, hzero⟩
    | ok status =>
      have hle := bitcoinFirstTxNonceFloor_le status.latestBlockHeight
      have hlt : bitcoinFirstTxNonceFloor status.latestBlockHeight - 1 < lastNonce := by omega
      exact ⟨rfl, hlt⟩

theorem wrappingAdd_lastNonce {nonce : Nat} (h : nonce < lastNonce) :
    wrappingAdd 64 nonce 1 = nonce + 1 :=
  wrappingAdd_eq (by simp only [lastNonce] at h; omega)

theorem obeys_nextNonce (m : NonceFloors) (address publicKey : String) :
    (nextNonce address publicKey).Obeys nonceMonitor (fun m' nonce => Covers m' address nonce)
      m := by
  refine Prog.obeys_bind.mpr ⟨trivial, fun cached hcached => Prog.obeys_done.mpr ?_⟩
  refine .bind (obeys_chainNonce _ address publicKey) ?_
  rintro - chain ⟨rfl, hchain⟩
  have hmax : max (cached.getD 0) chain < lastNonce := max_lt hcached hchain
  refine covers_update m ?_
  rw [wrappingAdd_lastNonce hmax]
  omega

theorem le_normalizeNonce (nonce height : Nat) :
    nonce ≤ normalizeNonceForFirstBitcoinTx nonce height :=
  le_max_left _ _

theorem Covers.mono {address : String} {nonce nonce' : Nat} (h : Covers m address nonce)
    (hle : nonce ≤ nonce') : Covers m address nonce' := by
  obtain ⟨floor, hfloor, hlt⟩ := h
  exact ⟨floor, hfloor, hlt.trans_le hle⟩

theorem obeys_prepareSigner (m : NonceFloors) (X : ProxyExternals) (labels : SigningLabels)
    (address : String) (entry : KeyEntry) :
    (prepareSigner X labels address entry).Obeys nonceMonitor
      (fun m' signer => Covers m' signer.address signer.nonce) m := by
  refine .bind_of_ignores (neutral_ask rfl) fun _ => ?_
  refine .bind_of_ignores neutral_orFail fun status => ?_
  refine .bind_of_ignores neutral_orFail fun _ => ?_
  refine .bind_of_ignores neutral_orFail fun _ => ?_
  refine .bind (obeys_nextNonce m _ _) fun m' next hnext => ?_
  refine .bind_of_ignores neutral_orFail fun _ => ?_
  refine .bind_of_ignores neutral_orFail fun _ => ?_
  refine .bind_of_ignores neutral_orFail fun _ => ?_
  exact hnext.mono (le_normalizeNonce next status.latestBlockHeight)

theorem obeys_getBlockAndNonce (m : NonceFloors) (X : ProxyExternals) (address publicKey : String) :
    (getBlockAndNonce X address publicKey).Obeys nonceMonitor
      (fun m' block => Covers m' address block.2) m := by
  refine .bind_of_ignores (neutral_ask rfl) fun _ => ?_
  refine .bind_of_ignores neutral_orFail fun status => ?_
  refine .bind_of_ignores neutral_orFail fun _ => ?_
  refine .bind (obeys_nextNonce m _ _) fun m' next hnext => ?_
  exact hnext.mono (le_normalizeNonce next status.latestBlockHeight)

theorem Disciplined.bind_signAndEncode {label : String} {secret : Bytes} {tx : NearTransaction}
    {f : SignedTx → Handler α} (hcovers : Covers m tx.signerId tx.nonce)
    (hf : Disciplined (Function.update m tx.signerId (some tx.nonce)) (f (.signed secret tx))) :
    Disciplined m (signAndEncode label secret tx >>= f) := by
  refine Prog.obeys_bind.mpr ?_
  refine .bind_of_ignores neutral_orFail fun _ => ?_
  exact ⟨hcovers, fun _ _ => hf⟩

end Signing

/-! ## The handlers -/

section Handlers

variable {m : NonceFloors}

variable {signer : Signer} {nonce : Nat}

theorem disciplined_submitTransfers {txid : String}
    {outputs : List (TxOutput × Nat)} (h : Covers m signer.address nonce) :
    Disciplined m (submitTransfers txid signer nonce outputs) := by
  induction outputs generalizing m nonce with
  | nil => trivial
  | cons head rest ih =>
    refine .bind_signAndEncode h ?_
    refine Prog.obeys_bind.mpr ⟨trivial, fun reply hreply => Prog.obeys_done.mpr ?_⟩
    cases reply with
    | error e => trivial
    | ok =>
      have hlast : nonce < lastNonce := hreply
      refine Disciplined.ask rfl fun _ => ?_
      rw [wrappingAdd_lastNonce hlast]
      exact .bind (ih (covers_update m (Nat.lt_succ_self nonce))) fun _ _ => trivial

theorem disciplined_sendPayments {X : TranslatorExternals} {rawHex : String}
    {parsed : ParsedBitcoinTx} {totalSat : Nat} (h : Covers m signer.address signer.nonce) :
    Disciplined m (sendPayments X rawHex parsed totalSat signer) := by
  rw [sendPayments]
  cases parsed.decodeNearFunctionCall with
  | some call =>
    refine .bind_signAndEncode h ?_
    refine .ask rfl fun reply => ?_
    cases reply with
    | error e => trivial
    | ok =>
      refine .ask rfl fun _ => ?_
      exact .ask rfl fun _ => trivial
  | none =>
    refine .bind (disciplined_submitTransfers h) fun m' hashes => ?_
    exact .ask rfl fun _ => trivial

theorem neutral_submitIntentTxs (btcTxid sender : String) (i : Nat) (txs : List Json) :
    Neutral (submitIntentTxs btcTxid sender i txs) := by
  induction txs generalizing i with
  | nil => exact Prog.allAsks_pure
  | cons tx rest ih =>
    refine .bind (neutral_ask rfl) fun reply => ?_
    cases reply with
    | error e => exact Prog.allAsks_fail
    | ok =>
      refine .bind (neutral_ask rfl) fun _ => ?_
      exact .bind (ih (i + 1)) fun _ => Prog.allAsks_pure

theorem disciplined_sendrawtransaction (X : TranslatorExternals) (bech32Hrp : String)
    (rawHex : Option String) : Disciplined m (sendrawtransaction X bech32Hrp rawHex) := by
  refine .check fun raw => ?_
  refine .check fun bytes => ?_
  cases signedIntentText bytes with
  | some text =>
    refine .check fun intent => ?_
    refine .bind_of_neutral (neutral_submitIntentTxs _ _ _ _) fun _ => ?_
    exact .ask rfl fun _ => trivial
  | none =>
    refine .bind_of_neutral neutral_orFail fun parsed => ?_
    refine .check fun totalSat => ?_
    refine .ask rfl fun keystore => ?_
    refine .check fun entry => ?_
    exact Prog.Obeys.bind (obeys_prepareSigner m _ _ _ _) fun _ _ h => disciplined_sendPayments h

theorem neutral_findFundedSender (satoshis : Nat) (addresses : List String) :
    Neutral (findFundedSender satoshis addresses) := by
  induction addresses with
  | nil => exact Prog.allAsks_pure
  | cons address rest ih =>
    refine .bind (neutral_ask rfl) fun reply => ?_
    cases reply with
    | error e => exact ih
    | ok amount =>
      dsimp only
      split
      · refine .bind (neutral_ask rfl) fun keystore => ?_
        cases keystore.get address with
        | some entry => exact Prog.allAsks_pure
        | none => exact ih
      · exact ih

theorem disciplined_payment {α : Type} {label : String} {recipient : String}
    {satoshis : Nat} {refused : String → RpcError} {accepted : String → Handler α}
    (h : Covers m signer.address signer.nonce) (haccepted : ∀ hash, Neutral (accepted hash)) :
    Disciplined m (signAndEncode label signer.secret (signer.payment recipient satoshis) >>=
      fun signed => sendTxAsync signed none >>= fun reply =>
        match reply with
        | .error e => .fail (refused e)
        | .ok hash => accepted hash) := by
  refine .bind_signAndEncode h ?_
  refine .ask rfl fun reply => ?_
  cases reply with
  | error e => trivial
  | ok hash => exact .of_neutral (haccepted hash)

theorem neutral_recordPayment {address txid : String} {entry : TxCacheEntry} :
    Neutral (recordNonce address nonce >>= fun _ => insertTx txid entry >>= fun _ => pure txid) :=
  .bind (neutral_ask rfl) fun _ => .bind (neutral_ask rfl) fun _ => Prog.allAsks_pure

theorem disciplined_sendToRecipient (X : ProxyExternals) (recipient : String) (satoshis : Nat) :
    Disciplined m (sendToRecipient X recipient satoshis) := by
  refine .ask rfl fun addresses => ?_
  refine .bind_of_neutral (neutral_findFundedSender _ _) fun sender => ?_
  cases sender with
  | none => trivial
  | some sender =>
    exact Prog.Obeys.bind (obeys_prepareSigner m _ _ _ _) fun _ _ h =>
      disciplined_payment h fun _ => neutral_recordPayment

theorem disciplined_submitMany (X : ProxyExternals) (amounts : List (String × Option UInt64)) :
    Disciplined m (submitMany X amounts) := by
  induction amounts generalizing m with
  | nil => trivial
  | cons head rest ih =>
    refine .check fun satoshis => ?_
    refine .bind (disciplined_sendToRecipient X _ _) fun m' txid => ?_
    exact .bind ih fun _ _ => trivial

theorem disciplined_sendmany (X : ProxyExternals)
    (amounts : Option (List (String × Option UInt64))) : Disciplined m (sendmany X amounts) := by
  refine .bind_of_neutral neutral_ensureWalletUsable fun _ => ?_
  refine .check fun amounts => ?_
  exact .bind (disciplined_submitMany X amounts) fun _ _ => trivial

theorem disciplined_sendtoaddress (X : ProxyExternals) (recipient : Option String)
    (amount : Option UInt64) (subtractFee : Bool) :
    Disciplined m (sendtoaddress X recipient amount subtractFee) := by
  refine .bind_of_neutral neutral_ensureWalletUsable fun _ => ?_
  refine .check fun recipient => ?_
  refine .check fun amounts => ?_
  refine .ask rfl fun addresses => ?_
  refine .bind_of_neutral (neutral_findFundedSender _ _) fun sender => ?_
  cases sender with
  | none => trivial
  | some sender =>
    exact Prog.Obeys.bind (obeys_prepareSigner m _ _ _ _) fun _ _ h =>
      disciplined_payment h fun _ => neutral_recordPayment

theorem neutral_findFundedAddress (satoshis : Nat) (addresses : List String) :
    Neutral (findFundedAddress satoshis addresses) := by
  induction addresses with
  | nil => exact Prog.allAsks_pure
  | cons address rest ih =>
    refine .bind (neutral_ask rfl) fun reply => ?_
    cases reply with
    | error e => exact ih
    | ok amount =>
      dsimp only
      split
      · exact Prog.allAsks_pure
      · exact ih

theorem neutral_signingOutputs (X : TranslatorExternals) (bech32Hrp rawHex : String) :
    Neutral (signingOutputs X bech32Hrp rawHex) := by
  rw [signingOutputs]
  split
  · refine .bind neutral_ofExcept fun outputs => ?_
    refine .bind (neutral_ask rfl) fun addresses => ?_
    exact .bind (neutral_findFundedAddress _ _) fun _ => Prog.allAsks_pure
  · split
    · exact Prog.allAsks_fail
    · exact .bind neutral_ofExcept fun _ => Prog.allAsks_pure

theorem disciplined_signOutputs {outputs : List OutputInfo}
    (h : Covers m signer.address nonce) : Disciplined m (signOutputs signer nonce outputs) := by
  induction outputs generalizing m nonce with
  | nil => trivial
  | cons output rest ih =>
    refine .check fun _ => ?_
    refine .bind_signAndEncode h ?_
    exact .bind (ih (covers_update m (Nat.lt_succ_self nonce))) fun _ _ => trivial

theorem disciplined_askNonces (address publicKey : String) (n : Nat) :
    Disciplined m (askNonces address publicKey n) := by
  induction n generalizing m with
  | zero => trivial
  | succ n ih => exact Prog.Obeys.bind (obeys_nextNonce m _ _) fun _ _ _ => ih

theorem disciplined_signrawtransactionwithwallet (X : TranslatorExternals) (bech32Hrp : String)
    (rawHex : Option String) : Disciplined m (signrawtransactionwithwallet X bech32Hrp rawHex) := by
  refine .bind_of_neutral neutral_ensureWalletUsable fun _ => ?_
  refine .check fun raw => ?_
  refine .bind_of_neutral (neutral_signingOutputs _ _ _) fun signing => ?_
  cases signing with
  | none => trivial
  | some signing =>
    refine .ask rfl fun keystore => ?_
    split
    · trivial
    · refine Prog.Obeys.bind (obeys_prepareSigner m _ _ _ _) fun m' signer h => ?_
      refine .bind_of_ignores neutral_ofExcept fun _ => ?_
      refine .bind (disciplined_signOutputs h) fun m' nearTxs _ => ?_
      exact .bind (disciplined_askNonces _ _ _) fun _ _ _ => trivial

theorem neutral_getSenderKey (X : ProxyExternals) (address : String) :
    Neutral (getSenderKey X address) := by
  refine .bind (neutral_ask rfl) fun _ => ?_
  refine .bind neutral_ofExcept fun _ => ?_
  refine .bind neutral_orFail fun _ => ?_
  refine .bind neutral_orFail fun _ => ?_
  exact .bind neutral_orFail fun _ => Prog.allAsks_pure

theorem disciplined_submitActions (X : ProxyExternals) (request : ActionRequest) :
    Disciplined m (submitActions X request) := by
  refine .bind_of_neutral (neutral_getSenderKey X _) fun key => ?_
  refine Prog.Obeys.bind (obeys_getBlockAndNonce m _ _ _) fun m' block h => ?_
  refine .bind_of_ignores neutral_orFail fun publicKey => ?_
  refine Disciplined.bind_signAndEncode h ?_
  refine .ask rfl fun reply => ?_
  cases reply with
  | error e => trivial
  | ok => exact .ask rfl fun _ => trivial

theorem disciplined_patoshiunlock (X : TranslatorExternals) (bech32Hrp : String)
    (address signature : Option String) :
    Disciplined m (patoshiunlock X bech32Hrp address signature) := by
  refine .check fun params => ?_
  refine .ask rfl fun _ => ?_
  refine .check fun _ => ?_
  refine .check fun _ => ?_
  refine .ask rfl fun _ => ?_
  refine .check fun _ => ?_
  exact disciplined_submitActions _ _

theorem disciplined_signInputs (secret : Bytes) (n : Nat) :
    Disciplined m (signInputs secret n) := by
  induction n generalizing m with
  | zero => trivial
  | succ n ih => exact .bind ih fun _ _ => ⟨trivial, fun _ _ => trivial⟩

theorem disciplined_handler (X : TranslatorExternals) (bech32Hrp : String) (call : SigningCall) :
    Disciplined m (call.handler X bech32Hrp) := by
  cases call with
  | near method =>
    refine .bind ?_ fun _ _ => trivial
    exact .check fun _ => disciplined_submitActions _ _
  | patoshiunlock address signature =>
    exact .bind (disciplined_patoshiunlock X bech32Hrp address signature) fun _ _ => trivial
  | sendrawtransaction rawHex =>
    exact .bind (disciplined_sendrawtransaction X bech32Hrp rawHex) fun _ _ => trivial
  | signrawtransactionwithwallet rawHex =>
    exact .bind (disciplined_signrawtransactionwithwallet X bech32Hrp rawHex) fun _ _ => trivial
  | sendtoaddress recipient amount subtractFee =>
    exact .bind (disciplined_sendtoaddress _ recipient amount subtractFee) fun _ _ => trivial
  | send output =>
    refine .bind ?_ fun _ _ => trivial
    exact .check fun _ => disciplined_sendtoaddress _ _ _ _
  | sendmany amounts => exact .bind (disciplined_sendmany _ amounts) fun _ _ => trivial
  | signmessage =>
    refine .bind_of_neutral neutral_ensureWalletUsable fun _ => ?_
    refine .check fun _ => ?_
    refine .check fun _ => ?_
    refine .ask rfl fun _ => ?_
    refine .check fun _ => ?_
    refine .bind_of_neutral neutral_orFail fun _ => ?_
    refine .bind_of_neutral neutral_orFail fun _ => ?_
    exact ⟨trivial, fun _ _ => trivial⟩
  | walletprocesspsbt inputs =>
    refine .bind ?_ fun _ _ => trivial
    refine .bind_of_neutral neutral_ensureWalletUsable fun _ => ?_
    refine .check fun inputs => ?_
    refine .ask rfl fun addresses => ?_
    refine .ask rfl fun keystore => ?_
    cases signerMaterial X.toProxyExternals keystore addresses with
    | none => trivial
    | some secret => exact .bind (disciplined_signInputs secret inputs) fun _ _ => trivial

end Handlers

end BitInfinity.Proxy
