import BitInfinity.Runtime.BitcoinTx

/-!
# Stake, rewards and the Patoshi sweep at an epoch boundary
-/

namespace BitInfinity

open Foundation

/-- Stakes, rewards and proposals by account; the tables are hash maps in the source. -/
structure ValidatorAccountsUpdate where
  stakeInfo : List (AccountId × Balance)
  stakeInfo_nodup : (stakeInfo.map Prod.fst).Nodup
  validatorRewards : AccountId → Option Balance
  lastProposals : AccountId → Option Balance
  protocolTreasuryAccountId : Option AccountId

section Update

variable {E : Externals}

/-- The account with its reward added and the stake that is no longer needed returned. -/
def returnStake (account : Account) (reward : Option Balance) (maxOfStakes lastProposal : Balance) :
    Except RuntimeError Account := do
  let locked ← okOr (checkedAdd 128 account.locked (reward.getD 0))
    (.unexpectedIntegerOverflow "update_validator_accounts")
  ensure (maxOfStakes ≤ locked) (.storageError (.stakingInvariantBroken locked maxOfStakes))
  let returned ← okOr (checkedSub locked (max maxOfStakes lastProposal))
    (.unexpectedIntegerOverflow "update_validator_accounts - return stake")
  let amount ← okOr (checkedAdd 128 account.amount returned)
    (.unexpectedIntegerOverflow "update_validator_accounts - set_amount")
  .ok { account with amount, locked := locked - returned }

def updateStake (u : ValidatorAccountsUpdate) (t : Trie E) (stake : AccountId × Balance) :
    Except RuntimeError (Trie E) :=
  let (accountId, maxOfStakes) := stake
  match t.getAccount accountId with
  | some account => do
    let account ← returnStake account (u.validatorRewards accountId) maxOfStakes
      ((u.lastProposals accountId).getD 0)
    .ok (t.setAccount accountId account)
  | none =>
    if 0 < maxOfStakes then .error (.storageError (.stakedAccountMissing accountId maxOfStakes))
    else .ok t

/-- Credit the treasury, unless it is a validator and has its reward already. -/
def payTreasury (u : ValidatorAccountsUpdate) (t : Trie E) : Except RuntimeError (Trie E) :=
  match u.protocolTreasuryAccountId with
  | none => .ok t
  | some accountId =>
    if accountId ∈ u.stakeInfo.map Prod.fst then .ok t
    else do
      let account ← okOr (t.getAccount accountId)
        (.storageError (.protocolTreasuryAccountMissing accountId))
      let reward ← okOr (u.validatorRewards accountId)
        (.storageError (.protocolTreasuryRewardMissing accountId))
      let amount ← okOr (checkedAdd 128 account.amount reward)
        (.unexpectedIntegerOverflow "update_validator_accounts - treasure_reward")
      .ok (t.setAccount accountId { account with amount })

/-- The loop body of the sweep; the second component is the total swept so far. -/
def sweepAccount (epochHeight : EpochHeight) (s : Trie E × Balance) (accountId : AccountId) :
    Except RuntimeError (Trie E × Balance) := do
  let (t, totalSwept) := s
  match ← (getPatoshiRecord t accountId).mapError .storageError with
  | none => .ok s
  | some record =>
    if !isPatoshiLocked record epochHeight then .ok s
    else do
      let account ← okOr (t.getAccount accountId) (.storageError (.patoshiAccountMissing accountId))
      let (sweepAmount, _) :=
        computePatoshiSweep account.amount account.locked record.genesisBalance
      if sweepAmount = 0 then .ok s
      else do
        let amount ← okOr (checkedSub account.amount sweepAmount)
          (.unexpectedIntegerOverflow "sweep_patoshi_excess - signer debit")
        let totalSwept ← okOr (checkedAdd 128 totalSwept sweepAmount)
          (.unexpectedIntegerOverflow "sweep_patoshi_excess - total_swept")
        .ok (t.setAccount accountId { account with amount }, totalSwept)

def creditFoundation (t : Trie E) (totalSwept : Balance) : Except RuntimeError (Trie E) :=
  if totalSwept = 0 then .ok t
  else do
    let foundation ← okOr (t.getAccount foundationAccountId)
      (.storageError .foundationAccountMissing)
    let amount ← okOr (checkedAdd 128 foundation.amount totalSwept)
      (.unexpectedIntegerOverflow "sweep_patoshi_excess - foundation credit")
    .ok (t.setAccount foundationAccountId { foundation with amount })

def sweepPatoshiExcess (t : Trie E) (epochHeight : EpochHeight) : Except RuntimeError (Trie E) := do
  let accounts ← (getPatoshiIndex t).mapError .storageError
  let (t, totalSwept) ← accounts.foldlM (sweepAccount epochHeight) (t, 0)
  creditFoundation t totalSwept

def updateValidatorAccounts (t : Trie E) (u : ValidatorAccountsUpdate)
    (epochHeight : EpochHeight) : Except RuntimeError (Trie E) := do
  let t ← u.stakeInfo.foldlM (updateStake u) t
  let t ← payTreasury u t
  sweepPatoshiExcess t epochHeight

end Update

end BitInfinity
