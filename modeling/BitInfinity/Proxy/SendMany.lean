import BitInfinity.Foundation.Utf8
import BitInfinity.Proxy.SendRaw

/-!
# `sendmany`

The handler goes through the recipients of the request one by one: it looks for a wallet
address with enough balance, signs a transfer and sends it before it looks at the next
recipient.  The amounts are given in satoshis, as the conversion from decimal text accepts
them or not.
-/

namespace BitInfinity.Proxy

open BitInfinity Foundation

/-! ## The handler -/

def balanceAsSatoshis (amount : Nat) : Nat := amount / yoctoPerSatoshi % 2 ^ 64

def findFundedSender (satoshis : Nat) : List String → Handler (Option (String × KeyEntry))
  | [] => pure none
  | address :: rest => do
    match ← viewAccount address with
    | .error _ => findFundedSender satoshis rest
    | .ok amount =>
      if satoshis ≤ balanceAsSatoshis amount then
        let keystore ← readKeystore
        match keystore.get address with
        | some entry => pure (some (address, entry))
        | none => findFundedSender satoshis rest
      else
        findFundedSender satoshis rest

def sendManyLabels : SigningLabels where
  node := "Node error: "
  blockHash := "Block hash error: "
  publicKey := "Key error: "
  keyBytes := "Key error: "
  secretKey := "Key error: "

def syntheticTxid (C : Crypto) (nearTxHash : String) : String :=
  String.ofList (hexEncode (C.sha256 (utf8Bytes nearTxHash.toList)))

def Signer.payment (signer : Signer) (recipient : String) (satoshis : Nat) : NearTransaction :=
  signer.transaction signer.nonce recipient [.transfer (satoshisToYocto satoshis)]

def submitPayment (X : ProxyExternals) (signer : Signer) (recipient : String) (satoshis : Nat) :
    Handler String := do
  let signed ← signAndEncode "Sign failed: " signer.secret (signer.payment recipient satoshis)
  match ← sendTxAsync signed none with
  | .error e => failWith (-25) ("TX failed: " ++ e)
  | .ok hash =>
    recordNonce signer.address signer.nonce
    let txid := syntheticTxid X.toCrypto hash
    insertTx txid ⟨hash, "sendtoaddress:" ++ recipient ++ ":" ++ toString satoshis, signer.address⟩
    pure txid

def sendToRecipient (X : ProxyExternals) (recipient : String) (satoshis : Nat) :
    Handler String := do
  let addresses ← keystoreAddresses
  match ← findFundedSender satoshis addresses with
  | none => failWith (-6) "Insufficient funds"
  | some (sender, entry) => do
    let signer ← prepareSigner X sendManyLabels sender entry
    submitPayment X signer recipient satoshis

def submitMany (X : ProxyExternals) : List (String × Option UInt64) → Handler (List String)
  | [] => pure []
  | (recipient, amount) :: rest => do
    let satoshis ← .ofExcept (okOr amount ⟨-3, "Invalid amount for " ++ recipient ++
      ": must be positive, finite, and satoshi-precise"⟩)
    let txid ← sendToRecipient X recipient satoshis.toNat
    let txids ← submitMany X rest
    pure (txid :: txids)

def sendmany (X : ProxyExternals) (amounts : Option (List (String × Option UInt64))) :
    Handler String := do
  ensureWalletUsable
  let amounts ← .ofExcept (okOr amounts ⟨-32602, "Missing amounts parameter"⟩)
  let txids ← submitMany X amounts
  pure (txids.getLastD "")

/-! ## Transfers -/

structure Transfer where
  sender : String
  receiver : String
  deposit : Nat
  deriving DecidableEq, Repr

def Submission.transfer? (sub : Submission) : Option Transfer :=
  match sub.accepted, sub.tx with
  | true, .signed _ ⟨signerId, _, _, receiverId, _, [.transfer deposit]⟩ =>
    some ⟨signerId, receiverId, deposit⟩
  | _, _ => none

def World.transfers (w : World) : List Transfer := w.sent.filterMap (·.transfer?)

section Effects

variable {X : ProxyExternals} {w t : World}

variable {satoshis : Nat}

/-- The search only looks; a sender that it found has a key, and a balance was reported for it
that covers the amount. -/
def SearchEnds (satoshis : Nat) (w : World) (out : Except RpcError (Option (String × KeyEntry)))
    (t : World) : Prop :=
  ∃ reports found, t = { w with viewed := w.viewed ++ reports } ∧ out = .ok found ∧
    ∀ sender entry, found = some (sender, entry) → w.rpc.keystore.get sender = some entry ∧
        ∃ amount, (sender, amount) ∈ reports ∧ satoshis ≤ balanceAsSatoshis amount

theorem SearchEnds.of_report {amount : Nat} {address : String}
    {out : Except RpcError (Option (String × KeyEntry))}
    (h : SearchEnds satoshis { w with viewed := w.viewed ++ [(address, amount)] } out t) :
    SearchEnds satoshis w out t := by
  obtain ⟨reports, found, rfl, rfl, hfound⟩ := h
  refine ⟨(address, amount) :: reports, found, by simp, rfl, ?_⟩
  intro sender entry hsome
  obtain ⟨hget, a, hmem, hle⟩ := hfound sender entry hsome
  exact ⟨hget, a, List.mem_cons_of_mem _ hmem, hle⟩

theorem findFundedSender_ends {addresses : List String}
    {out : Except RpcError (Option (String × KeyEntry))}
    (h : (findFundedSender satoshis addresses).Ends World.outside w out t) :
    SearchEnds satoshis w out t := by
  induction addresses generalizing w with
  | nil =>
    obtain ⟨rfl, rfl⟩ := Prog.ends_pure.mp h
    exact ⟨[], none, by simp, rfl, nofun⟩
  | cons address rest ih =>
    obtain ⟨reply, h⟩ := (Prog.ends_bind_of_exists_iff fun _ _ => ends_viewAccount).mp h
    cases reply with
    | error e => exact ih h
    | ok amount =>
      dsimp only at h
      split at h
      · rename_i hle
        have h := (Prog.ends_bind_of_iff fun _ _ => ends_readKeystore).mp h
        cases hget : w.rpc.keystore.get address with
        | none => exact .of_report (ih (by simpa [World.after, hget] using h))
        | some entry =>
          obtain ⟨rfl, rfl⟩ : out = .ok (some (address, entry)) ∧
              t = { w with viewed := w.viewed ++ [(address, amount)] } := by
            simpa [World.after, hget] using h
          refine ⟨[(address, amount)], _, rfl, rfl, ?_⟩
          intro sender entry' heq
          cases heq
          exact ⟨hget, amount, List.mem_singleton.mpr rfl, hle⟩
      · exact .of_report (ih h)

theorem submitPayment_ends {signer : Signer} {recipient : String} {out : Except RpcError String}
    (h : (submitPayment X signer recipient satoshis).Ends World.outside w out t) :
    t.viewed = w.viewed ∧ ((∃ e, out = .error e ∧ t.transfers = w.transfers) ∨
        ∃ txid, out = .ok txid ∧ t.transfers = w.transfers ++
          [⟨signer.address, recipient, satoshisToYocto satoshis⟩]) := by
  obtain ⟨reply, h⟩ := (Prog.ends_bind_of_exists_iff fun _ _ => ends_sendTxAsync).mp
    ((Prog.ends_bind_of_iff fun _ _ => ends_signAndEncode (List.cons_ne_nil _ _)).mp h)
  cases reply with
  | error e =>
    obtain ⟨rfl, rfl⟩ := Prog.ends_fail.mp h
    refine ⟨rfl, .inl ⟨_, rfl, ?_⟩⟩
    simp [World.transfers, Submission.transfer?, Except.isOk, Except.toBool]
  | ok =>
    obtain ⟨rfl, rfl⟩ := ends_insertTx_pure.mp
      ((Prog.ends_bind_of_iff fun _ _ => ends_recordNonce).mp h)
    refine ⟨rfl, .inr ⟨_, rfl, ?_⟩⟩
    simp [World.transfers, Submission.transfer?, Except.isOk, Except.toBool, Signer.payment,
      Signer.transaction]

/-- One recipient: nothing is transferred, or the amount from an account for which a balance
was reported that covers it. -/
inductive RecipientEffect (X : ProxyExternals) (recipient : String) (satoshis : Nat) (w : World) :
    Except RpcError String → World → Prop
  | failed {e t} : t.transfers = w.transfers → RecipientEffect X recipient satoshis w (.error e) t
  | paid {txid sender entry signer t reports amount} : w.rpc.keystore.get sender = some entry →
      (prepareSigner X sendManyLabels sender entry).Ends World.outside
        { w with viewed := w.viewed ++ reports } (.ok signer)
        { w with viewed := w.viewed ++ reports } →
      t.viewed = w.viewed ++ reports → (sender, amount) ∈ reports →
      satoshis ≤ balanceAsSatoshis amount →
      t.transfers = w.transfers ++ [⟨sender, recipient, satoshisToYocto satoshis⟩] →
      RecipientEffect X recipient satoshis w (.ok txid) t

theorem sendToRecipient_effect {recipient : String} {out : Except RpcError String}
    (h : (sendToRecipient X recipient satoshis).Ends World.outside w out t) :
    RecipientEffect X recipient satoshis w out t := by
  rcases quiet_keystoreAddresses.ends_bind h with ⟨rfl, e, rfl⟩ | ⟨addresses, -, hsearch⟩
  · exact .failed rfl
  obtain ⟨e, he, -⟩ | ⟨found, m, hm, h⟩ := Prog.ends_bind.mp hsearch
  · obtain ⟨_, _, -, he, -⟩ := findFundedSender_ends he
    cases he
  obtain ⟨_, _, rfl, hfound, hsender⟩ := findFundedSender_ends hm
  cases hfound
  cases found with
  | none =>
    obtain ⟨rfl, rfl⟩ := Prog.ends_fail.mp h
    exact .failed rfl
  | some found =>
    obtain ⟨sender, entry⟩ := found
    obtain ⟨hget, _, hmem, hle⟩ := hsender sender entry rfl
    rcases (quiet_prepareSigner _ _ _ _).ends_bind h with ⟨rfl, e, rfl⟩ | ⟨signer, hsigner, h⟩
    · exact .failed rfl
    · obtain ⟨-, haddress, -⟩ := prepareSigner_ok hsigner
      obtain ⟨hviewed, ⟨e, rfl, htransfers⟩ | ⟨txid, rfl, htransfers⟩⟩ := submitPayment_ends h
      · exact .failed htransfers
      · rw [haddress] at htransfers
        exact .paid hget hsigner hviewed hmem hle htransfers

end Effects

/-! ## All or nothing -/

/-- Between the two worlds, what the accounts were reported to hold and what was transferred. -/
def World.newReports (w t : World) : List (String × Nat) := t.viewed.drop w.viewed.length

def World.newTransfers (w t : World) : List Transfer := t.transfers.drop w.transfers.length

def depositsOf (sender : String) (transfers : List Transfer) : Nat :=
  ((transfers.filter (·.sender = sender)).map (·.deposit)).sum

/-- A failed call has transferred nothing; a successful one has made one transfer for each
recipient, and no account has sent more than a balance that was reported for it. -/
structure AllOrNothing (amounts : List (String × Option UInt64)) (w : World)
    (out : Except RpcError String) (t : World) : Prop where
  nothing : ∀ e, out = .error e → w.newTransfers t = []
  all : ∀ txid, out = .ok txid → (w.newTransfers t).map (fun x => (x.receiver, some x.deposit)) =
      amounts.map fun a => (a.1, a.2.map fun satoshis => 10 ^ 16 * satoshis.toNat)
  funded : ∀ txid, out = .ok txid → ∀ x ∈ w.newTransfers t,
    ∃ amount, (x.sender, amount) ∈ w.newReports t ∧ depositsOf x.sender (w.newTransfers t) ≤ amount

/-- The call can come to a transfer: the wallet is usable, the first amount is valid, some
stored key can sign, and the node can name a block. -/
structure CanPayFirst (X : ProxyExternals) (s : RpcState)
    (amounts : List (String × Option UInt64)) : Prop where
  usable : s.ensureWalletUsable = .ok ()
  amount : ∃ recipient satoshis, amounts.head? = some (recipient, some satoshis)
  key : ∃ address entry secret publicKey,
    s.keystore.get address = some entry ∧ entry.Signs X secret publicKey
  block : ∃ text blockHash, decodeBlockHash X.toCrypto text = .ok blockHash

section AllOrNothing

variable {X : ProxyExternals} {w t : World}

variable {amounts : List (String × Option UInt64)} {recipient address : String}
  {out : Except RpcError String} {entry : KeyEntry}

variable {satoshis : Nat} {e : RpcError} {addresses : List String}

theorem satoshisToYocto_le {amount : Nat} (h : satoshis ≤ balanceAsSatoshis amount) :
    satoshisToYocto satoshis ≤ amount := by
  have hle : satoshis ≤ amount / yoctoPerSatoshi := h.trans (Nat.mod_le _ _)
  exact (Nat.mul_le_mul_right _ hle).trans (Nat.div_mul_le_self _ _)

theorem AllOrNothing.of_error
    (h : t.transfers = w.transfers) : AllOrNothing amounts w (.error e) t :=
  ⟨fun _ _ => by simp [World.newTransfers, h], nofun, nofun⟩

theorem AllOrNothing.of_recipient {satoshis : UInt64}
    (h : RecipientEffect X recipient satoshis.toNat w out t) :
    AllOrNothing [(recipient, some satoshis)] w out t := by
  cases h with
  | failed htransfers => exact .of_error htransfers
  | @paid txid sender entry signer t reports amount hget hsigner hviewed hmem hle htransfers =>
    have hnew : w.newTransfers t = [⟨sender, recipient, satoshisToYocto satoshis.toNat⟩] := by
      simp [World.newTransfers, htransfers]
    refine ⟨nofun, ?_, ?_⟩
    · intro _ _
      simp [hnew, satoshisToYocto, yoctoPerSatoshi, Nat.mul_comm]
    · intro _ _ x hx
      rw [hnew] at hx ⊢
      cases List.mem_singleton.mp hx
      refine ⟨amount, by simpa [World.newReports, hviewed] using hmem, ?_⟩
      simpa [depositsOf] using satoshisToYocto_le hle

theorem submitMany_cases {amount : Option UInt64} {out : Except RpcError (List String)}
    (h : (submitMany X ((recipient, amount) :: amounts)).Ends World.outside w out t) :
    (∃ e, out = .error e ∧ t.transfers = w.transfers) ∨ ∃ satoshis txid m, amount = some satoshis ∧
        RecipientEffect X recipient satoshis.toNat w (.ok txid) m ∧
        ∃ x, (submitMany X amounts).Ends World.outside m x t ∧ out = x.map (txid :: ·) := by
  rcases quiet_ofExcept.ends_bind h with ⟨rfl, e, rfl⟩ | ⟨satoshis, hamount, h⟩
  · exact .inl ⟨e, rfl, rfl⟩
  rcases Prog.ends_bind.mp h with ⟨e, he, rfl⟩ | ⟨txid, m, hm, h⟩
  · cases sendToRecipient_effect he with
    | failed htransfers => exact .inl ⟨e, rfl, htransfers⟩
  · exact .inr ⟨satoshis, txid, m, okOr_eq_ok.mp (ends_ofExcept_ok.mp hamount).1,
      sendToRecipient_effect hm, Prog.ends_bind_pure.mp h⟩

theorem exists_findFundedSender (hsatoshis : satoshis < 2 ^ 64) (hmem : address ∈ addresses)
    (hentry : w.rpc.keystore.get address = some entry) :
    ∃ reports, (findFundedSender satoshis addresses).Ends World.outside w
      (.ok (some (address, entry))) { w with viewed := w.viewed ++ reports } := by
  induction addresses with
  | nil => cases hmem
  | cons head rest ih =>
    by_cases hhead : head = address
    · subst hhead
      have hbalance : satoshis ≤ balanceAsSatoshis (satoshisToYocto satoshis) := by
        rw [balanceAsSatoshis, satoshisToYocto, yoctoPerSatoshi,
          Nat.mul_div_cancel _ (by decide), Nat.mod_eq_of_lt hsatoshis]
      refine ⟨[(head, satoshisToYocto satoshis)], ?_⟩
      refine (Prog.ends_bind_of_exists_iff fun _ _ => ends_viewAccount).mpr
        ⟨.ok (satoshisToYocto satoshis), ?_⟩
      dsimp only
      rw [if_pos hbalance, Prog.ends_bind_of_iff fun _ _ => ends_readKeystore]
      simp [World.after, hentry]
    · obtain ⟨reports, hrest⟩ := ih (List.mem_of_ne_of_mem (.symm hhead) hmem)
      exact ⟨reports, (Prog.ends_bind_of_exists_iff fun _ _ => ends_viewAccount).mpr
        ⟨.error "", hrest⟩⟩

theorem findFundedSender_none (satoshis : Nat) (addresses : List String) (w : World) :
    (findFundedSender satoshis addresses).Ends World.outside w (.ok none) w := by
  induction addresses with
  | nil => exact .done
  | cons head rest ih =>
    exact (Prog.ends_bind_of_exists_iff fun _ _ => ends_viewAccount).mpr ⟨.error "", ih⟩

theorem exists_listsAddresses (ks : Keystore) : ∃ addresses, ks.ListsAddresses addresses :=
  ⟨ks.keys.keys.sort (· ≤ ·), Finset.sort_nodup _ _,
    fun _ => (Finset.mem_sort _).trans Finmap.mem_keys⟩

theorem Keystore.mem_of_listsAddresses {ks : Keystore} (hlist : ks.ListsAddresses addresses)
    (hentry : ks.get address = some entry) : address ∈ addresses :=
  (hlist.2 address).mpr (Finmap.mem_of_lookup_eq_some hentry)

def acceptingNode : NodeScript where
  status := .error ""
  genesisBlockHash := .error ""
  patoshiLockState _ := .error ""
  accessKey _ := .error ""
  account _ := .error ""
  send _ := .ok ""

theorem exists_submitPayment_paid (X : ProxyExternals) (signer : Signer) (recipient : String)
    (satoshis : Nat) (w : World) :
    ∃ txid t, (submitPayment X signer recipient satoshis).Ends World.outside w (.ok txid) t :=
  ⟨_, _, Handler.ends_runWith acceptingNode (submitPayment X signer recipient satoshis) w⟩

theorem exists_sendToRecipient_paid (recipient : String) (satoshis : UInt64)
    {secret publicKey blockHash : Bytes} {text : String}
    (hentry : w.rpc.keystore.get address = some entry) (hkey : entry.Signs X secret publicKey)
    (hblock : decodeBlockHash X.toCrypto text = .ok blockHash) :
    ∃ txid t, (sendToRecipient X recipient satoshis.toNat).Ends World.outside w (.ok txid) t ∧
      t.transfers = w.transfers ++ [⟨address, recipient, satoshisToYocto satoshis.toNat⟩] := by
  obtain ⟨_, hlist⟩ := exists_listsAddresses w.rpc.keystore
  obtain ⟨reports, hsearch⟩ := exists_findFundedSender satoshis.toNat_lt
    (Keystore.mem_of_listsAddresses hlist hentry) hentry
  obtain ⟨signer, haddress, hsigner⟩ : ∃ signer : Signer, signer.address = address ∧
      (prepareSigner X sendManyLabels address entry).Ends World.outside
        { w with viewed := w.viewed ++ reports } (.ok signer)
        { w with viewed := w.viewed ++ reports } :=
    exists_prepareSigner hkey hblock
  obtain ⟨txid, t, hpay⟩ := exists_submitPayment_paid X signer recipient satoshis.toNat
    { w with viewed := w.viewed ++ reports }
  refine ⟨txid, t, ?_, ?_⟩
  · refine .bind (ends_keystoreAddresses.mpr ⟨_, hlist, rfl, rfl⟩) ?_
    exact .bind hsearch (.bind hsigner hpay)
  · obtain ⟨-, ⟨e, he, -⟩ | ⟨_, -, htransfers⟩⟩ := submitPayment_ends hpay
    · cases he
    · rw [← haddress]
      exact htransfers

theorem exists_sendToRecipient_failed (X : ProxyExternals) (recipient : String) (satoshis : Nat)
    (w : World) :
    ∃ e, (sendToRecipient X recipient satoshis).Ends World.outside w (.error e) w := by
  obtain ⟨_, hlist⟩ := exists_listsAddresses w.rpc.keystore
  refine ⟨⟨-6, "Insufficient funds"⟩, .bind (ends_keystoreAddresses.mpr ⟨_, hlist, rfl, rfl⟩) ?_⟩
  exact .bind (findFundedSender_none _ _ _) .fail

theorem submitMany_some (X : ProxyExternals) (recipient : String) (satoshis : UInt64)
    (amounts : List (String × Option UInt64)) :
    submitMany X ((recipient, some satoshis) :: amounts) =
      (sendToRecipient X recipient satoshis.toNat >>= fun txid =>
        submitMany X amounts >>= fun txids => pure (txid :: txids)) := rfl

theorem exists_submitMany_failed (X : ProxyExternals) (recipient : String)
    (amount : Option UInt64) (amounts : List (String × Option UInt64)) (w : World) :
    ∃ e, (submitMany X ((recipient, amount) :: amounts)).Ends World.outside w (.error e) w := by
  cases amount with
  | none => exact ⟨_, .fail⟩
  | some satoshis =>
    obtain ⟨e, he⟩ := exists_sendToRecipient_failed X recipient satoshis.toNat w
    rw [submitMany_some]
    exact ⟨e, Prog.ends_bind.mpr (.inl ⟨e, he, rfl⟩)⟩

theorem ends_sendmany (husable : w.rpc.ensureWalletUsable = .ok ()) :
    (sendmany X (some amounts)).Ends World.outside w out t ↔
      ∃ x, (submitMany X amounts).Ends World.outside w x t ∧ out = x.map (·.getLastD "") := by
  have hguard : ∀ x t, ensureWalletUsable.Ends World.outside w x t ↔ x = .ok () ∧ t = w := by
    intro x t
    rw [ends_ensureWalletUsable, husable]
  rw [sendmany, Prog.ends_bind_of_iff hguard]
  exact Prog.ends_bind_pure

theorem AllOrNothing.of_guard (hguard : w.rpc.ensureWalletUsable = .error e)
    (hrun : (sendmany X (some amounts)).Ends World.outside w out t) :
    AllOrNothing amounts w out t := by
  rcases Prog.ends_bind.mp hrun with ⟨_, he, rfl⟩ | ⟨_, m, hm, -⟩
  · obtain ⟨-, rfl⟩ := ends_ensureWalletUsable.mp he
    exact .of_error rfl
  · obtain ⟨hok, -⟩ := ends_ensureWalletUsable.mp hm
    rw [hguard] at hok
    cases hok

theorem canPayFirst_of_paid {txid : String}
    {satoshis : UInt64} (husable : w.rpc.ensureWalletUsable = .ok ())
    (h : RecipientEffect X recipient satoshis.toNat w (.ok txid) t) :
    CanPayFirst X w.rpc ((recipient, some satoshis) :: amounts) := by
  cases h with
  | paid hget hsigner =>
    obtain ⟨-, -, hsigns, text, hblock⟩ := prepareSigner_ok hsigner
    exact ⟨husable, ⟨recipient, satoshis, rfl⟩, ⟨_, _, _, _, hget, hsigns⟩, text, _, hblock⟩

end AllOrNothing

/-- Whatever the node replies, the call is all or nothing and funded: this is so exactly for
the requests with at most one recipient, and those that cannot come to a transfer. -/
theorem sendmany_all_or_nothing_iff (X : ProxyExternals) (w : World)
    (amounts : List (String × Option UInt64)) :
    (∀ out t, (sendmany X (some amounts)).Ends World.outside w out t →
        AllOrNothing amounts w out t) ↔
      amounts.length ≤ 1 ∨ ¬ CanPayFirst X w.rpc amounts := by
  constructor
  · intro hall
    by_contra hneither
    obtain ⟨hlong, hcan⟩ := not_or.mp hneither
    have hcan := not_not.mp hcan
    obtain ⟨_, _, _, _, hentry, hkey⟩ := hcan.key
    obtain ⟨_, _, hblock⟩ := hcan.block
    obtain ⟨recipient, satoshis, hhead⟩ := hcan.amount
    match amounts with
    | [] => exact hlong (Nat.zero_le 1)
    | [_] => exact hlong le_rfl
    | first :: second :: rest =>
      obtain rfl : first = (recipient, some satoshis) := Option.some.inj hhead
      obtain ⟨txid, m, hfirst, htransfers⟩ :=
        exists_sendToRecipient_paid recipient satoshis hentry hkey hblock
      obtain ⟨e, hsecond⟩ := exists_submitMany_failed X second.1 second.2 rest m
      have hmany : (submitMany X ((recipient, some satoshis) :: second :: rest)).Ends
          World.outside w (.error e) m := by
        rw [submitMany_some]
        exact .bind hfirst (Prog.ends_bind_pure.mpr ⟨.error e, hsecond, rfl⟩)
      have hnothing := (hall (.error e) m
        ((ends_sendmany hcan.usable).mpr ⟨.error e, hmany, rfl⟩)).nothing e rfl
      simp [World.newTransfers, htransfers] at hnothing
  · intro hcond out t hrun
    cases husable : w.rpc.ensureWalletUsable with
    | error e => exact .of_guard husable hrun
    | ok _ =>
      obtain ⟨x, hx, rfl⟩ := (ends_sendmany husable).mp hrun
      match amounts with
      | [] =>
        obtain ⟨rfl, rfl⟩ := Prog.ends_pure.mp hx
        exact ⟨nofun, by simp [World.newTransfers], by simp [World.newTransfers]⟩
      | (recipient, amount) :: rest =>
        rcases submitMany_cases hx with
          ⟨e, rfl, htransfers⟩ | ⟨satoshis, txid, m, rfl, hpaid, y, hy, rfl⟩
        · exact .of_error htransfers
        · have hrest : rest = [] := by
            rcases hcond with hshort | hcan
            · simpa using hshort
            · exact absurd (canPayFirst_of_paid husable hpaid) hcan
          subst hrest
          obtain ⟨rfl, rfl⟩ := Prog.ends_pure.mp hy
          exact .of_recipient hpaid

def sampleFunded (accepts : Nat → Bool) : NodeScript :=
  { sampleNode accepts with account := fun _ => .ok (10 * 10 ^ 16) }

def sampleAmounts : List (String × Option UInt64) := [("first", some 6), ("second", some 6)]

/-- The call fails when the first recipient was paid, or it succeeds and overdraws the account. -/
theorem sendmany_half_done :
    (∃ e t, (sendmany TranslatorExternals.sample.toProxyExternals (some sampleAmounts)).Ends
        World.outside sampleSending (.error e) t ∧
      (sampleSending.newTransfers t).map (·.receiver) = ["first"]) ∧
    ∃ txid t, (sendmany TranslatorExternals.sample.toProxyExternals (some sampleAmounts)).Ends
        World.outside sampleSending (.ok txid) t ∧
      (sampleSending.newTransfers t).map (·.receiver) = ["first", "second"] ∧
      ∀ x ∈ sampleSending.newTransfers t, ∀ report ∈ sampleSending.newReports t,
        report.1 = x.sender ∧ report.2 < depositsOf x.sender (sampleSending.newTransfers t) := by
  have hfails := Handler.ends_runWith (sampleFunded (· == 0))
    (sendmany TranslatorExternals.sample.toProxyExternals (some sampleAmounts)) sampleSending
  have hpays := Handler.ends_runWith (sampleFunded fun _ => true)
    (sendmany TranslatorExternals.sample.toProxyExternals (some sampleAmounts)) sampleSending
  rw [show (Handler.runWith (sampleFunded (· == 0))
    (sendmany TranslatorExternals.sample.toProxyExternals (some sampleAmounts)) sampleSending).1 =
      .error ⟨-25, "TX failed: timeout"⟩ by decide +kernel] at hfails
  rw [show (Handler.runWith (sampleFunded fun _ => true)
    (sendmany TranslatorExternals.sample.toProxyExternals (some sampleAmounts)) sampleSending).1 =
      .ok (syntheticTxid TranslatorExternals.sample.toCrypto "hash") by decide +kernel] at hpays
  exact ⟨⟨_, _, hfails, by decide +kernel⟩, _, _, hpays, by decide +kernel, by decide +kernel⟩

end BitInfinity.Proxy
