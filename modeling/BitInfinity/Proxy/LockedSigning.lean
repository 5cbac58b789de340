import BitInfinity.Proxy.RawAuthorisation
import BitInfinity.Proxy.WalletHistory
import BitInfinity.Proxy.WalletSends

/-!
# Signatures of a locked wallet

Locking is a mark next to the keys: `encryptwallet` and the expiry of an unlock leave the keys
in memory.  So a locked wallet keeps from signing only as far as each handler looks at the
mark.  The handlers that send coins and sign messages do; `sendrawtransaction`, the methods
that send actions of the chain and the Patoshi unlock do not.
-/

namespace BitInfinity.Proxy

open BitInfinity Foundation

/-- The wallet is not loaded, or it is encrypted and not unlocked. -/
def RpcState.Locked (s : RpcState) : Prop :=
  s.walletLoaded = false ∨ (s.keystore.encrypted = true ∧ s.isWalletUnlocked = false)

/-! ## Calls -/

/-- What happens to the proxy: the calls that manage the wallet, time, and the calls that use
its keys. -/
inductive ProxyEvent (X : TranslatorExternals)
  | wallet (event : WalletEvent X.toProxyExternals)
  | signing (call : SigningCall)

inductive ProxyStep (X : TranslatorExternals) : World → ProxyEvent X → World → Prop
  | wallet {w event} : ProxyStep X w (.wallet event)
        { w with rpc := (WalletHistory.next X.toProxyExternals ⟨w.rpc, []⟩ event).state }
  | signing {w t call out} : (call.handler X w.rpc.bech32Hrp).Ends World.outside w out t →
      ProxyStep X w (.signing call) t

/-- The key of the sender is in memory and no other check of the handler stops the call, while
the handler never asks whether the wallet is locked. -/
inductive SignsUnchecked (X : TranslatorExternals) (s : RpcState) : ProxyEvent X → Prop
  | near {method request} : method.request X = .ok request → request.CanSign X.toProxyExternals s →
      SignsUnchecked X s (.signing (.near method))
  | patoshiunlock {address signature account text genesis} :
      patoshiParams X address signature = .ok (account, text) →
      X.verifyBitcoinMessageSignature account text (challengeMessage genesis) s.bech32Hrp = true →
      (unlockRequest account).CanSign X.toProxyExternals s →
      SignsUnchecked X s (.signing (.patoshiunlock address signature))
  | sendrawtransaction {raw bytes parsed entry} :
      hexDecode raw = some bytes → signedIntentText bytes = none →
      ParsedBitcoinTx.fromHexWithHrp X raw s.bech32Hrp = .ok parsed →
      s.keystore.get parsed.senderAddress = some entry → SigningChecks X entry parsed →
      SignsUnchecked X s (.signing (.sendrawtransaction (some raw)))

/-! ## Handlers that ask -/

section Guarded

variable {α : Type} {X : TranslatorExternals} {w t : World}

theorem RpcState.Locked.not_usable {s : RpcState} (h : s.Locked) :
    s.ensureWalletUsable ≠ .ok () := by
  intro husable
  obtain ⟨hloaded, hunlocked⟩ := ensureWalletUsable_eq_ok.mp husable
  rcases h with hunloaded | ⟨-, hlocked⟩
  · simp [hloaded] at hunloaded
  · simp [hunlocked] at hlocked

theorem world_eq_of_guarded {f : Unit → Handler α} {out : Except RpcError α}
    (hlocked : w.rpc.Locked) (h : (ensureWalletUsable >>= f).Ends World.outside w out t) :
    t = w := by
  rcases Prog.ends_bind.mp h with ⟨e, he, -⟩ | ⟨⟨⟩, m, hok, -⟩
  · exact (ends_ensureWalletUsable.mp he).2
  · exact absurd (ends_ensureWalletUsable.mp hok).1.symm hlocked.not_usable

theorem send_world_eq {output : Except RpcError (String × Option UInt64)}
    {out : Except RpcError String} (hlocked : w.rpc.Locked)
    (h : (send X.toProxyExternals output).Ends World.outside w out t) : t = w := by
  rcases quiet_ofExcept.ends_bind h with ⟨rfl, -⟩ | ⟨⟨recipient, amount⟩, -, h⟩
  · rfl
  · exact world_eq_of_guarded hlocked h

end Guarded

/-! ## Handlers that do not ask -/

section Unguarded

variable {X : TranslatorExternals} {w t : World} {out : Except RpcError String}

variable {method : NearMethod} {address signature : Option String}

theorem near_signsUnchecked (h : (method.handler X).Ends World.outside w out t)
    (hsigned : t.signed ≠ w.signed) : SignsUnchecked X w.rpc (.signing (.near method)) := by
  rcases quiet_ofExcept.ends_bind h with ⟨rfl, -⟩ | ⟨request, hrequest, h⟩
  · exact absurd rfl hsigned
  · exact .near (ends_ofExcept_ok.mp hrequest).1 (canSign_of_submitActions h hsigned)

theorem exists_near_signs {request : ActionRequest}
    (hrequest : method.request X = .ok request) (hcan : request.CanSign X.toProxyExternals w.rpc) :
    ∃ out t, (method.handler X).Ends World.outside w out t ∧ t.signed ≠ w.signed := by
  obtain ⟨out, t, hrun, hsigned⟩ := exists_submitActions_signs hcan
  exact ⟨out, t, .bind (ends_ofExcept_ok.mpr ⟨hrequest, rfl⟩) hrun, hsigned⟩

theorem patoshiunlock_signsUnchecked
    (h : (patoshiunlock X w.rpc.bech32Hrp address signature).Ends World.outside w out t)
    (hsigned : t.signed ≠ w.signed) :
    SignsUnchecked X w.rpc (.signing (.patoshiunlock address signature)) := by
  rcases quiet_ofExcept.ends_bind h with ⟨rfl, -⟩ | ⟨⟨account, text⟩, hparams, h⟩
  · exact absurd rfl hsigned
  rcases quiet_genesisBlockHash.ends_bind h with ⟨rfl, -⟩ | ⟨reply, -, h⟩
  · exact absurd rfl hsigned
  rcases quiet_ofExcept.ends_bind h with ⟨rfl, -⟩ | ⟨genesis, -, h⟩
  · exact absurd rfl hsigned
  rcases quiet_ofExcept.ends_bind h with ⟨rfl, -⟩ | ⟨⟨⟩, hverified, h⟩
  · exact absurd rfl hsigned
  rcases (quiet_fetchPatoshiLockState account).ends_bind h with ⟨rfl, -⟩ | ⟨state, -, h⟩
  · exact absurd rfl hsigned
  rcases quiet_ofExcept.ends_bind h with ⟨rfl, -⟩ | ⟨⟨⟩, -, h⟩
  · exact absurd rfl hsigned
  exact .patoshiunlock (ends_ofExcept_ok.mp hparams).1
    (ensure_eq_ok.mp (ends_ofExcept_ok.mp hverified).1) (canSign_of_submitActions h hsigned)

theorem exists_patoshiunlock_signs {account text genesis : String}
    (hparams : patoshiParams X address signature = .ok (account, text))
    (hverified : X.verifyBitcoinMessageSignature account text (challengeMessage genesis)
      w.rpc.bech32Hrp = true) (hcan : (unlockRequest account).CanSign X.toProxyExternals w.rpc) :
    ∃ out t, (patoshiunlock X w.rpc.bech32Hrp address signature).Ends World.outside w out t ∧
      t.signed ≠ w.signed := by
  obtain ⟨out, t, hrun, hsigned⟩ := exists_submitActions_signs hcan
  refine ⟨out, t, ?_, hsigned⟩
  refine .bind (ends_ofExcept_ok.mpr ⟨hparams, rfl⟩) ?_
  -- the node names the block of the signature, and reports the account as locked
  refine .bind (Prog.ends_request.mpr ⟨.ok (some genesis), trivial, rfl, rfl⟩) ?_
  refine .bind (ends_ofExcept_ok.mpr ⟨rfl, rfl⟩) ?_
  refine .bind (a := ()) (ends_ofExcept_ok.mpr ⟨ensure_eq_ok.mpr hverified, rfl⟩) ?_
  refine .bind (Prog.ends_request.mpr ⟨.ok (some ⟨true, none⟩), trivial, rfl, rfl⟩) ?_
  exact .bind (ends_ofExcept_ok.mpr ⟨rfl, rfl⟩) hrun

theorem sendSignedIntent_signed {rawHex : String} {intent : SignedIntent}
    (h : (sendSignedIntent rawHex intent).Ends World.outside w out t) : t.signed = w.signed := by
  have hsubmit : ∀ i txs, (submitIntentTxs intent.btcTxid intent.sender i txs).AllAsks
      fun op => op.isSign = false := by
    intro i txs
    induction txs generalizing i with
    | nil => exact Prog.allAsks_pure
    | cons tx rest ih =>
      refine .bind (Prog.allAsks_request.mpr rfl) fun reply => ?_
      cases reply with
      | error e => exact Prog.allAsks_fail
      | ok =>
        refine .bind (Prog.allAsks_request.mpr rfl) fun _ => ?_
        exact .bind (ih (i + 1)) fun _ => Prog.allAsks_pure
  refine signed_eq_of_allAsks ?_ h
  refine .bind (hsubmit 0 _) fun _ => ?_
  exact .bind (Prog.allAsks_request.mpr rfl) fun _ => Prog.allAsks_pure

theorem sendrawtransaction_signsUnchecked {rawHex : Option String}
    (h : (sendrawtransaction X w.rpc.bech32Hrp rawHex).Ends World.outside w out t)
    (hsigned : t.signed ≠ w.signed) :
    SignsUnchecked X w.rpc (.signing (.sendrawtransaction rawHex)) := by
  rcases sendrawtransaction_cases h with
    ⟨rfl, -⟩ | ⟨raw, bytes, rfl, hbytes, ⟨text, intent, -, -, h⟩ | ⟨parsed, hintent, hparsed, h⟩⟩
  · exact absurd rfl hsigned
  · exact absurd (sendSignedIntent_signed h) hsigned
  · rcases sendBitcoinTx_cases h with ⟨rfl, -⟩ | ⟨_, entry, _, -, hentry, -, -⟩
    · exact absurd rfl hsigned
    · exact .sendrawtransaction hbytes hintent hparsed hentry
        (signingChecks_of_actsTo h hentry (.inl hsigned))

end Unguarded

/-! ## The calls together -/

section Calls

variable {X : TranslatorExternals} {w t : World}

theorem signsUnchecked_of_signed {call : SigningCall} {out : Except RpcError Unit}
    (hlocked : w.rpc.Locked) (h : (call.handler X w.rpc.bech32Hrp).Ends World.outside w out t)
    (hsigned : t.signed ≠ w.signed) : SignsUnchecked X w.rpc (.signing call) := by
  have hguarded : t ≠ w := fun heq => hsigned (by rw [heq])
  cases call with
  | near method =>
    obtain ⟨x, h, -⟩ := Prog.ends_bind_pure.mp h
    exact near_signsUnchecked h hsigned
  | patoshiunlock =>
    obtain ⟨x, h, -⟩ := Prog.ends_bind_pure.mp h
    exact patoshiunlock_signsUnchecked h hsigned
  | sendrawtransaction rawHex =>
    obtain ⟨x, h, -⟩ := Prog.ends_bind_pure.mp h
    exact sendrawtransaction_signsUnchecked h hsigned
  | signrawtransactionwithwallet rawHex | sendtoaddress recipient amount subtractFee
  | sendmany amounts | walletprocesspsbt inputs =>
    obtain ⟨x, h, -⟩ := Prog.ends_bind_pure.mp h
    exact absurd (world_eq_of_guarded hlocked h) hguarded
  | send output =>
    obtain ⟨x, h, -⟩ := Prog.ends_bind_pure.mp h
    exact absurd (send_world_eq hlocked h) hguarded
  | signmessage => exact absurd (world_eq_of_guarded hlocked h) hguarded

theorem SignsUnchecked.exists_step {event : ProxyEvent X} (h : SignsUnchecked X w.rpc event) :
    ∃ t, ProxyStep X w event t ∧ t.signed ≠ w.signed := by
  cases h with
  | near hrequest hcan =>
    obtain ⟨out, t, hrun, hsigned⟩ := exists_near_signs hrequest hcan
    exact ⟨t, .signing (Prog.ends_bind_pure.mpr ⟨out, hrun, rfl⟩), hsigned⟩
  | patoshiunlock hparams hverified hcan =>
    obtain ⟨out, t, hrun, hsigned⟩ := exists_patoshiunlock_signs hparams hverified hcan
    exact ⟨t, .signing (Prog.ends_bind_pure.mpr ⟨out, hrun, rfl⟩), hsigned⟩
  | sendrawtransaction hbytes hintent hparsed hentry hchecks =>
    obtain ⟨out, t, hrun, hsigned⟩ := exists_sendBitcoinTx_signs hentry hchecks
    have hrun := (ends_sendrawtransaction hbytes hintent hparsed).mpr hrun
    exact ⟨t, .signing (Prog.ends_bind_pure.mpr ⟨out, hrun, rfl⟩), hsigned⟩

end Calls

/-- A locked wallet signs nothing in a step, whatever the node answers, exactly when the step
is not a call that reaches the key without asking. -/
theorem locked_wallet_signs_nothing_iff (X : TranslatorExternals) {w : World}
    (hlocked : w.rpc.Locked) (event : ProxyEvent X) :
    (∀ t, ProxyStep X w event t → t.signed = w.signed) ↔ ¬ SignsUnchecked X w.rpc event := by
  constructor
  · intro hnothing hunchecked
    obtain ⟨t, hstep, hsigned⟩ := hunchecked.exists_step
    exact hsigned (hnothing t hstep)
  · intro hchecked t hstep
    cases hstep with
    | wallet => rfl
    | signing h =>
      by_contra hsigned
      exact hchecked (signsUnchecked_of_signed hlocked h hsigned)

/-! ## A wallet that was just encrypted -/

def sampleKey : KeyPair TranslatorExternals.sample.toProxyExternals := .sample rfl

def sampleAddress : String :=
  bech32Address TranslatorExternals.sample.toCrypto "bc" sampleKey.publicKey

def sampleStart : RpcState := .new "mainnet" .absent (fun _ => none) 0

def sampleEncrypted : World :=
  let X := TranslatorExternals.sample.toProxyExternals
  .start (((WalletHistory.next X ⟨sampleStart, []⟩ (.call (.getnewaddress none sampleKey))).next X
    (.call (.encryptwallet (some "open")))).state)

theorem sampleEncrypted_run : Run (ProxyStep .sample) (.start sampleStart)
      [.wallet (.call (.getnewaddress none sampleKey)),
        .wallet (.call (.encryptwallet (some "open")))] sampleEncrypted :=
  (Run.single .wallet).snoc .wallet

theorem locked_sample_signs_no_message : sampleEncrypted.rpc.Locked ∧
      ∀ t, ProxyStep .sample sampleEncrypted
        (.signing (.signmessage (some sampleAddress) (some "hello"))) t →
          t.signed = sampleEncrypted.signed := by
  have hlocked : sampleEncrypted.rpc.Locked := .inr ⟨rfl, rfl⟩
  exact ⟨hlocked, (locked_wallet_signs_nothing_iff .sample hlocked _).mpr nofun⟩

/-- Right after `encryptwallet` the stake of the account is changed with its key. -/
theorem encrypted_wallet_signs :
    ∃ events w t, Run (ProxyStep .sample) (.start sampleStart) events w ∧ w.rpc.Locked ∧
      ProxyStep .sample w (.signing (.near (.unstake (some sampleAddress)))) t ∧
      w.signed = [] ∧ t.signed.length = 1 := by
  have hrun := Handler.ends_runWith (sampleNode fun _ => true)
    (SigningCall.handler .sample sampleEncrypted.rpc.bech32Hrp
      (.near (.unstake (some sampleAddress)))) sampleEncrypted
  exact ⟨_, sampleEncrypted, _, sampleEncrypted_run, .inr ⟨rfl, rfl⟩, .signing hrun, rfl,
    by decide +kernel⟩

end BitInfinity.Proxy
