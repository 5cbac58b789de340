import BitInfinity.Foundation.Interleaving
import BitInfinity.Proxy.NonceDiscipline

/-!
# Nonces of concurrent calls

Any number of calls run at the same time, one request after another.  Between the look at the
cached nonce of an account and the signature a call waits for the node, and what it signed is
recorded only when the node took it.  The nonces of an account stay apart as long as a look at
the cache finds every signed nonce recorded and no other call about to sign.
-/

namespace BitInfinity.Proxy

open BitInfinity Foundation

/-! ## The proxy and a node that may lag behind -/

structure NonceWorld where
  world : World
  /-- The nonce of each key of an account on the chain. -/
  chainNonce : String → String → Nat

namespace NonceWorld

/-- The node reports no nonce above the one on the chain. -/
def Truthful (s : NonceWorld) : (op : Request) → op.Reply → Prop
  | .viewAccessKey address publicKey, .ok (some nonce) => nonce ≤ s.chainNonce address publicKey
  | _, _ => True

def outside (expected : (op : Request) → op.Reply → Prop) : Outside Request.Reply NonceWorld where
  allowed s op reply := s.world.allowed op reply ∧ s.Truthful op reply ∧ expected op reply
  after s op reply := { s with world := s.world.after op reply }

/-- Meanwhile the chain goes on and the wallet may change. -/
structure Waits (s s' : NonceWorld) : Prop where
  signed : s'.world.signed = s.world.signed
  nonceCache : s'.world.rpc.nonceCache = s.world.rpc.nonceCache
  chainNonce : ∀ address publicKey, s.chainNonce address publicKey ≤ s'.chainNonce address publicKey

end NonceWorld

abbrev NoncePool (ι : Type) := Pool ι NonceWorld (Handler Unit)

def NoncePool.start {ι : Type} (X : TranslatorExternals) (s : RpcState)
    (chainNonce : String → String → Nat) (calls : ι → SigningCall) : NoncePool ι :=
  ⟨⟨.start s, chainNonce⟩, fun i => (calls i).handler X s.bech32Hrp⟩

def NonceStep {ι : Type} [DecidableEq ι] (expected : (op : Request) → op.Reply → Prop)
    (p : NoncePool ι) (label : Option ι) (q : NoncePool ι) : Prop :=
  Pool.Step (fun _ => Prog.Move (NonceWorld.outside expected)) NonceWorld.Waits p label q

/-! ## Signed transactions -/

def Signable.transaction? : Signable → Option NearTransaction
  | transaction tx => some tx
  | _ => none

def World.signedTxs (w : World) : List NearTransaction := w.signed.filterMap (·.2.transaction?)

def UniqueNonces (txs : List NearTransaction) : Prop :=
  ∀ tx ∈ txs, ∀ tx' ∈ txs, tx.signerId = tx'.signerId → tx.nonce = tx'.nonce → tx = tx'

def Request.SignsFor (address : String) (op : Request) : Prop :=
  ∃ secret tx, op = .sign secret (.transaction tx) ∧ tx.signerId = address

/-- The call may sign for the account before it looks at the cached nonce again, when the
replies keep off the last nonce. -/
def SignsNext {α : Type} (address : String) : Handler α → Prop
  | .done _ => False
  | .fail _ => False
  | .ask op next =>
    op.SignsFor address ∨ (op ≠ .cachedNonce address ∧
      ∃ reply, BelowLastNonce op reply ∧ SignsNext address (next reply))

/-- When a call looks at the cached nonce of an account, the cache covers all nonces signed for
the account, and no other call is on its way to sign for it. -/
def ReadsRecorded {ι : Type} (p : NoncePool ι) (label : Option ι) : Prop :=
  ∀ i address next, label = some i → p.threads i = .ask (.cachedNonce address) next →
    (∀ tx ∈ p.shared.world.signedTxs, tx.signerId = address →
      tx.nonce ≤ (p.shared.world.rpc.nonceCache address).getD 0) ∧
    ∀ j, j ≠ i → ¬ SignsNext address (p.threads j)

section Requests

variable {α : Type} {w : World} {m : NonceFloors} {address : String}

theorem signedTxs_after_sign {secret : Bytes} {tx : NearTransaction}
    {reply : (Request.sign secret (.transaction tx)).Reply} :
    (w.after (.sign secret (.transaction tx)) reply).signedTxs = w.signedTxs ++ [tx] := by
  simp [World.signedTxs, World.after, Signable.transaction?]

theorem Request.nonce_cases (op : Request) :
    (∃ secret tx, op = .sign secret (.transaction tx)) ∨ (∃ address, op = .cachedNonce address) ∨
      (∀ (w : World) reply, (w.after op reply).signedTxs = w.signedTxs) ∧
      (∀ m reply, raiseFloor m op reply = m) ∧ ∀ address, op ≠ .cachedNonce address := by
  cases op with
  | sign secret item =>
    cases item with
    | transaction tx => exact .inl ⟨secret, tx, rfl⟩
    | _ =>
      exact .inr (.inr ⟨fun w _ => by simp [World.signedTxs, World.after,
        Signable.transaction?], fun _ _ => rfl, by simp⟩)
  | cachedNonce address => exact .inr (.inl ⟨address, rfl⟩)
  | viewAccount address =>
    refine .inr (.inr ⟨fun w reply => ?_, fun _ _ => rfl, by simp⟩)
    cases reply <;> rfl
  | _ => exact .inr (.inr ⟨fun _ _ => rfl, fun _ _ => rfl, by simp⟩)

theorem signsNext_of_next {op : Request} {next : op.Reply → Handler α} {reply : op.Reply}
    (hop : op ≠ .cachedNonce address) (hreply : BelowLastNonce op reply)
    (h : SignsNext address (next reply)) : SignsNext address (.ask op next) :=
  .inr ⟨hop, reply, hreply, h⟩

theorem exists_floor_of_signsNext {p : Handler α} (hp : Disciplined m p)
    (h : SignsNext address p) : ∃ floor, m address = some floor := by
  induction p generalizing m with
  | done a => cases h
  | fail e => cases h
  | ask op next ih =>
    obtain ⟨haccepts, hnext⟩ := hp
    rcases h with ⟨secret, tx, rfl, rfl⟩ | ⟨hop, reply, hreply, h⟩
    · obtain ⟨floor, hfloor, -⟩ := haccepts
      exact ⟨floor, hfloor⟩
    · obtain ⟨floor, hfloor⟩ := ih reply (hnext reply hreply) h
      rcases op.nonce_cases with ⟨secret, tx, rfl⟩ | ⟨address', rfl⟩ | ⟨-, hkeeps, -⟩
      · by_cases hsigner : tx.signerId = address
        · obtain ⟨old, hold, -⟩ := haccepts
          exact ⟨old, hsigner ▸ hold⟩
        · refine ⟨floor, ?_⟩
          rw [← hfloor]
          exact (Function.update_of_ne (.symm hsigner) _ m).symm
      · have hne : address ≠ address' := by
          rintro rfl
          exact hop rfl
        refine ⟨floor, ?_⟩
        rw [← hfloor]
        exact (Function.update_of_ne hne _ m).symm
      · exact ⟨floor, (hkeeps m reply) ▸ hfloor⟩

end Requests

/-! ## The invariant -/

def World.SignedUpTo (w : World) (address : String) (nonce : Nat) : Prop :=
  ∀ tx ∈ w.signedTxs, tx.signerId = address → tx.nonce ≤ nonce

/-- A call on its way to sign for an account is alone with it, and the floor from which it goes
on covers what was signed. -/
structure NonceInvariant {ι : Type} (p : NoncePool ι) : Prop where
  unique : UniqueNonces p.shared.world.signedTxs
  above : ∀ i, ∃ m, Disciplined m (p.threads i) ∧ ∀ address floor, m address = some floor →
    SignsNext address (p.threads i) → p.shared.world.SignedUpTo address floor
  alone : ∀ i j address, SignsNext address (p.threads i) → SignsNext address (p.threads j) → i = j

section Steps

variable {ι : Type} {p q : NoncePool ι} {i : ι} {op : Request}
  {next : op.Reply → Handler Unit} {reply : op.Reply}

variable {tx : NearTransaction} {j : ι}

theorem NonceInvariant.lt_nonce (h : NonceInvariant p) {secret : Bytes} {next : Unit → Handler Unit}
    (hthread : p.threads i = .ask (.sign secret (.transaction tx)) next) :
    ∀ old ∈ p.shared.world.signedTxs, old.signerId = tx.signerId → old.nonce < tx.nonce := by
  intro old hold hsigner
  obtain ⟨m, hdisciplined, hfloors⟩ := h.above i
  rw [hthread] at hdisciplined hfloors
  obtain ⟨floor, hfloor, hlt⟩ := hdisciplined.1
  have hle := hfloors tx.signerId floor hfloor (.inl ⟨secret, tx, rfl, rfl⟩) old hold hsigner
  exact hle.trans_lt hlt

theorem uniqueNonces_append {txs : List NearTransaction}
    (h : UniqueNonces txs) (hlt : ∀ old ∈ txs, old.signerId = tx.signerId → old.nonce < tx.nonce) :
    UniqueNonces (txs ++ [tx]) := by
  intro x hx y hy hsigner hnonce
  simp only [List.mem_append, List.mem_singleton] at hx hy
  rcases hx with hx | rfl <;> rcases hy with hy | rfl
  · exact h x hx y hy hsigner hnonce
  · have := hlt x hx hsigner
    omega
  · have := hlt y hy hsigner.symm
    omega
  · rfl

theorem NonceInvariant.alone_after (h : NonceInvariant p) (hreads : ReadsRecorded p (some i))
    (hthread : p.threads i = .ask op next) (hreply : BelowLastNonce op reply) {address : String}
    (hj : j ≠ i) (hnext : SignsNext address (next reply)) : ¬ SignsNext address (p.threads j) := by
  intro hother
  by_cases hop : op = .cachedNonce address
  · subst hop
    exact (hreads i address next rfl hthread).2 j hj hother
  · have hi : SignsNext address (p.threads i) := by
      rw [hthread]
      exact signsNext_of_next hop hreply hnext
    exact hj (h.alone j i address hother hi)

theorem NonceInvariant.above_own (h : NonceInvariant p) (hreads : ReadsRecorded p (some i))
    (hthread : p.threads i = .ask op next) (hreply : BelowLastNonce op reply)
    (hallowed : p.shared.world.allowed op reply) :
    ∃ m, Disciplined m (next reply) ∧ ∀ address floor, m address = some floor →
      SignsNext address (next reply) →
        (p.shared.world.after op reply).SignedUpTo address floor := by
  obtain ⟨m, hdisciplined, hfloors⟩ := h.above i
  rw [hthread] at hdisciplined hfloors
  refine ⟨raiseFloor m op reply, hdisciplined.2 reply hreply, ?_⟩
  intro address floor hfloor hnext
  rcases op.nonce_cases with ⟨_, tx, rfl⟩ | ⟨address', rfl⟩ | ⟨hsigned, hkeeps, hop⟩
  · have hlt := h.lt_nonce hthread
    intro x hx hsigner
    rw [signedTxs_after_sign, List.mem_append, List.mem_singleton] at hx
    change Function.update m tx.signerId (some tx.nonce) address = some floor at hfloor
    by_cases heq : address = tx.signerId
    · subst heq
      obtain rfl : tx.nonce = floor := by simpa using hfloor
      rcases hx with hx | rfl
      · exact (hlt x hx hsigner).le
      · exact le_rfl
    · rw [Function.update_of_ne heq] at hfloor
      rcases hx with hx | rfl
      · exact hfloors address floor hfloor (signsNext_of_next nofun hreply hnext) x hx hsigner
      · exact absurd hsigner.symm heq
  · change Function.update m address' (some (Option.getD reply 0)) address = some floor at hfloor
    by_cases heq : address = address'
    · subst heq
      obtain rfl : Option.getD reply 0 = floor := by simpa using hfloor
      -- the reply is the cached nonce, which covers what was signed
      obtain rfl : reply = p.shared.world.rpc.nonceCache address := hallowed
      exact (hreads i address next rfl hthread).1
    · rw [Function.update_of_ne heq] at hfloor
      have hop : Request.cachedNonce address' ≠ .cachedNonce address := by
        intro hsame
        exact heq (Request.cachedNonce.inj hsame).symm
      exact hfloors address floor hfloor (signsNext_of_next hop hreply hnext)
  · rw [hkeeps] at hfloor
    unfold World.SignedUpTo
    rw [hsigned]
    exact hfloors address floor hfloor (signsNext_of_next (hop address) hreply hnext)

theorem NonceInvariant.above_other (h : NonceInvariant p)
    (hthread : p.threads i = .ask op next) (hj : j ≠ i) {address : String} {floor : Nat}
    (hnext : SignsNext address (p.threads j)) (hold : p.shared.world.SignedUpTo address floor) :
    (p.shared.world.after op reply).SignedUpTo address floor := by
  unfold World.SignedUpTo
  rcases op.nonce_cases with ⟨secret, _, rfl⟩ | ⟨address', rfl⟩ | ⟨hsigned, -, -⟩
  · intro x hx hsigner
    rw [signedTxs_after_sign, List.mem_append, List.mem_singleton] at hx
    rcases hx with hx | rfl
    · exact hold x hx hsigner
    · have hi : SignsNext address (p.threads i) := by
        rw [hthread]
        exact .inl ⟨secret, x, rfl, hsigner⟩
      exact absurd (h.alone j i address hnext hi) hj
  · exact hold
  · rw [hsigned]
    exact hold

theorem NonceInvariant.unique_after (h : NonceInvariant p) (hthread : p.threads i = .ask op next) :
    UniqueNonces (p.shared.world.after op reply).signedTxs := by
  rcases op.nonce_cases with ⟨_, _, rfl⟩ | ⟨address', rfl⟩ | ⟨hsigned, -, -⟩
  · rw [signedTxs_after_sign]
    exact uniqueNonces_append h.unique (h.lt_nonce hthread)
  · exact h.unique
  · rw [hsigned]
    exact h.unique

theorem NonceInvariant.step [DecidableEq ι] {label : Option ι} (h : NonceInvariant p)
    (hstep : NonceStep BelowLastNonce p label q) (hreads : ReadsRecorded p label) :
    NonceInvariant q := by
  cases hstep with
  | environment hwaits =>
    have hsigned : ∀ s : NonceWorld, p.shared.Waits s →
        s.world.signedTxs = p.shared.world.signedTxs := by
      intro s hs
      rw [World.signedTxs, hs.signed, World.signedTxs]
    refine ⟨?_, ?_, h.alone⟩
    · simpa [hsigned _ hwaits] using h.unique
    · intro i
      obtain ⟨m, hdisciplined, hfloors⟩ := h.above i
      refine ⟨m, hdisciplined, fun address floor hfloor hnext => ?_⟩
      simpa [World.SignedUpTo, hsigned _ hwaits] using hfloors address floor hfloor hnext
  | @thread i s t hmove =>
    generalize hthread : p.threads i = thread at hmove
    cases hmove with
    | @ask op next _ reply hallowed =>
      refine ⟨h.unique_after hthread, ?_, ?_⟩
      · intro j
        by_cases hj : j = i
        · subst hj
          simp only [Function.update_self]
          exact h.above_own hreads hthread hallowed.2.2 hallowed.1
        · obtain ⟨m, hdisciplined, hfloors⟩ := h.above j
          refine ⟨m, by simpa [hj] using hdisciplined, fun address floor hfloor hnext => ?_⟩
          have hnext : SignsNext address (p.threads j) := by simpa [hj] using hnext
          exact h.above_other hthread hj hnext (hfloors address floor hfloor hnext)
      · intro j k address hj hk
        by_contra hne
        by_cases hji : j = i
        · subst hji
          have hk' : SignsNext address (p.threads k) := by simpa [Ne.symm hne] using hk
          exact h.alone_after hreads hthread hallowed.2.2 (.symm hne) (by simpa using hj) hk'
        · have hj' : SignsNext address (p.threads j) := by simpa [hji] using hj
          by_cases hki : k = i
          · subst hki
            exact h.alone_after hreads hthread hallowed.2.2 hji (by simpa using hk) hj'
          · have hk' : SignsNext address (p.threads k) := by simpa [hki] using hk
            exact hne (h.alone j k address hj' hk')

/-- A call that has not looked at any cached nonce is not on its way to sign. -/
theorem not_signsNext_start (X : TranslatorExternals) (s : RpcState)
    (chainNonce : String → String → Nat) (calls : ι → SigningCall) (i : ι) (address : String) :
    ¬ SignsNext address ((NoncePool.start X s chainNonce calls).threads i) := by
  intro hnext
  obtain ⟨floor, hfloor⟩ : ∃ floor, (none : Option Nat) = some floor :=
    exists_floor_of_signsNext (m := fun _ => none) (disciplined_handler X _ (calls i)) hnext
  cases hfloor

theorem NonceInvariant.start (X : TranslatorExternals) (s : RpcState)
    (chainNonce : String → String → Nat) (calls : ι → SigningCall) :
    NonceInvariant (.start X s chainNonce calls) := by
  refine ⟨?_, ?_, ?_⟩
  · intro tx htx
    cases htx
  · intro i
    exact ⟨fun _ => none, disciplined_handler X _ (calls i), fun _ _ hfloor _ => by cases hfloor⟩
  · intro i j address hi
    exact absurd hi (not_signsNext_start X s chainNonce calls i address)

end Steps

/-- In every interleaving in which each look at a cached nonce finds all signed nonces recorded
and no other call on its way to sign, and the last nonce does not come up, the nonces of each
account are unique. -/
theorem nonces_unique {ι : Type} [DecidableEq ι] {X : TranslatorExternals} {s : RpcState}
    {chainNonce : String → String → Nat} {calls : ι → SigningCall} {labels : List (Option ι)}
    {q : NoncePool ι}
    (hrun : Run (fun p label q => NonceStep BelowLastNonce p label q ∧ ReadsRecorded p label)
      (.start X s chainNonce calls) labels q) : UniqueNonces q.shared.world.signedTxs := by
  have hinvariant : NonceInvariant q := by
    refine hrun.invariant (fun _ p => NonceInvariant p) (.start X s chainNonce calls) ?_
    rintro - a label b - ha ⟨hstep, hreads⟩
    exact ha.step hstep hreads
  exact hinvariant.unique

/-! ## Two transfers of one account -/

instance (txs : List NearTransaction) : Decidable (UniqueNonces txs) :=
  inferInstanceAs (Decidable (∀ tx ∈ txs, ∀ tx' ∈ txs, _ → _ → _))

def sampleReply (s : NonceWorld) (op : Request) : op.Reply :=
  s.world.answer (sampleFunded fun _ => true) op

theorem allowed_sampleReply (s : NonceWorld) (op : Request) :
    s.world.allowed op (sampleReply s op) ∧ s.Truthful op (sampleReply s op) := by
  refine ⟨World.allowed_answer _ s.world op, ?_⟩
  cases op with
  | viewAccessKey => exact Nat.zero_le _
  | _ => trivial

def looksAt : Handler Unit → Option String
  | .ask (.cachedNonce address) _ => some address
  | _ => none

/-- The half of `ReadsRecorded` that is about the call itself. -/
def FindsRecorded (s : NonceWorld) (p : Handler Unit) : Prop :=
  ∀ tx ∈ s.world.signedTxs, looksAt p = some tx.signerId →
    tx.nonce ≤ (s.world.rpc.nonceCache tx.signerId).getD 0

instance (s : NonceWorld) (p : Handler Unit) : Decidable (FindsRecorded s p) :=
  inferInstanceAs (Decidable (∀ tx ∈ s.world.signedTxs, _ → _))

/-- Whether the reply to the next request keeps off the last nonce. -/
def sampleBelowLast (s : NonceWorld) : Handler Unit → Bool
  | .ask (.cachedNonce address) _ => (s.world.rpc.nonceCache address).getD 0 < lastNonce
  | .ask (.sendTxAsync (.signed _ tx) _) _ => tx.nonce < lastNonce
  | _ => true

theorem belowLastNonce_sampleReply {s : NonceWorld} {op : Request} {next : op.Reply → Handler Unit}
    (h : sampleBelowLast s (.ask op next) = true) : BelowLastNonce op (sampleReply s op) := by
  cases op with
  | cachedNonce address =>
    have hlt : (s.world.rpc.nonceCache address).getD 0 < lastNonce := of_decide_eq_true h
    exact hlt
  | viewAccessKey => exact Nat.zero_lt_of_ne_zero (by decide)
  | sendTxAsync tx pays =>
    cases tx with
    | signed secret tx =>
      have hlt : tx.nonce < lastNonce := of_decide_eq_true h
      exact hlt
    | encoded text => trivial
  | _ => trivial

def SampleStep {ι : Type} [DecidableEq ι] (check : NonceWorld → Handler Unit → Prop)
    (p : NoncePool ι) (label : Option ι) (q : NoncePool ι) : Prop :=
  Pool.Step (fun _ s t s' t' =>
    Prog.moveWith (NonceWorld.outside fun _ _ => True) sampleReply s t = some (s', t') ∧
      check s t) NonceWorld.Waits p label q

theorem SampleStep.nonceStep {ι : Type} [DecidableEq ι] {check : NonceWorld → Handler Unit → Prop}
    {expected : (op : Request) → op.Reply → Prop} {p q : NoncePool ι} {label : Option ι}
    (hcheck : ∀ s op next, check s (.ask op next) → expected op (sampleReply s op))
    (h : SampleStep check p label q) : NonceStep expected p label q := by
  refine Pool.Step.mono ?_ h
  rintro - s t s' t' ⟨hmove, ht⟩
  refine Prog.move_of_moveWith ?_ hmove
  rintro op next rfl
  obtain ⟨hallowed, htruthful⟩ := allowed_sampleReply s op
  exact ⟨hallowed, htruthful, hcheck s op next ht⟩

def SampleCheck (s : NonceWorld) (p : Handler Unit) : Prop :=
  FindsRecorded s p ∧ sampleBelowLast s p = true

instance (s : NonceWorld) (p : Handler Unit) : Decidable (SampleCheck s p) :=
  inferInstanceAs (Decidable (_ ∧ _))

/-- While the other call is not on its way to sign, one call may run. -/
theorem SampleStep.alone {i : Bool} {p q : NoncePool Bool} {labels : List (Option Bool)}
    (h : Run (SampleStep SampleCheck) p labels q) (hlabels : ∀ label ∈ labels, label = some i)
    (hidle : ∀ address, ¬ SignsNext address (p.threads !i)) :
    Run (fun p label q => NonceStep BelowLastNonce p label q ∧ ReadsRecorded p label) p labels q ∧
      q.threads (!i) = p.threads !i := by
  induction h with
  | refl => exact ⟨.refl, rfl⟩
  | @snoc _ _ _ label _ hstep ih =>
    obtain ⟨hrun, hsame⟩ := ih fun label hmem => hlabels label (by simp [hmem])
    obtain rfl := hlabels label (by simp)
    have hnonce := hstep.nonceStep fun _ _ _ hcheck => belowLastNonce_sampleReply hcheck.2
    cases hstep with
    | thread hmove =>
      refine ⟨.snoc hrun ⟨hnonce, ?_⟩, by simpa using hsame⟩
      rintro _ address next ⟨⟩ hthread
      refine ⟨fun tx htx hsigner => ?_, fun j hj => ?_⟩
      · subst hsigner
        exact hmove.2.1 tx htx (by rw [hthread]; rfl)
      · rw [Bool.eq_not_of_ne hj, hsame]
        exact hidle address

def callsInTurn : Bool → SigningCall
  | true => .sendmany (some sampleAmounts)
  | false => .sendtoaddress (some "second") (some 5) false

/-- `sendmany` with two recipients, and then a call of `sendtoaddress` from the same account. -/
theorem nonces_unique_in_turn :
    ∃ labels q, Run (fun p label q => NonceStep BelowLastNonce p label q ∧ ReadsRecorded p label)
        (.start .sample sampleSending.rpc (fun _ _ => 0) callsInTurn) labels q ∧
      q.shared.world.signedTxs.length = 3 ∧ UniqueNonces q.shared.world.signedTxs := by
  have hidle := not_signsNext_start .sample sampleSending.rpc (fun _ _ => 0) callsInTurn
  generalize hp : NoncePool.start .sample sampleSending.rpc (fun _ _ => 0) callsInTurn = p
    at hidle ⊢
  let turn := Pool.turn fun (_ : Bool) s t => if SampleCheck s t then
    Prog.moveWith (NonceWorld.outside fun _ _ => True) sampleReply s t else none
  have hruns : (((List.replicate 22 true).foldlM turn p).bind fun r =>
      match r.threads true with
      | .done _ => (List.replicate 12 false).foldlM turn r
      | _ => none).any (fun q => q.shared.world.signedTxs.length == 3) = true := by
    rw [← hp]
    decide +kernel
  obtain ⟨q, hq, hlength⟩ := (Option.any_eq_true _ _).mp hruns
  obtain ⟨r, hr, hq⟩ := Option.bind_eq_some_iff.mp hq
  split at hq
  · rename_i hdone
    obtain ⟨hfirst, -⟩ := SampleStep.alone (i := true) (Pool.run_of_checked_schedule hr)
      (by simp) (hidle false)
    obtain ⟨hsecond, -⟩ := SampleStep.alone (i := false) (Pool.run_of_checked_schedule hq)
      (by simp) fun _ => by simp [hdone, SignsNext]
    have hrun := hfirst.trans hsecond
    exact ⟨_, q, hrun, by simpa using hlength, nonces_unique (hp ▸ hrun)⟩
  · cases hq

/-- Two calls of `sendtoaddress` at once: each signs with the nonce that the other one uses. -/
theorem nonce_signed_twice : ∃ labels q, Run (NonceStep fun _ _ => True)
        (.start .sample sampleSending.rpc (fun _ _ => 0)
          fun first : Bool => .sendtoaddress (some (if first then "first" else "second")) (some 5)
            false) labels q ∧
      ¬ UniqueNonces q.shared.world.signedTxs := by
  obtain ⟨q, hrun, htwice⟩ : ∃ q, Run (SampleStep fun _ _ => True)
      (.start .sample sampleSending.rpc (fun _ _ => 0)
        fun first : Bool => .sendtoaddress (some (if first then "first" else "second")) (some 5)
          false) _ q ∧ _ :=
    Pool.exists_run_of_schedule
      (fun _ => Prog.moveWith (NonceWorld.outside fun _ _ => True) sampleReply)
      (fun _ _ _ => True) (List.replicate 9 true ++ List.replicate 9 false)
      (fun q => !decide (UniqueNonces q.shared.world.signedTxs)) (by decide +kernel)
  exact ⟨_, q, hrun.mono fun _ _ _ hstep => hstep.nonceStep fun _ _ _ _ => trivial,
    by simpa using htwice⟩

end BitInfinity.Proxy
