import BitInfinity.Ledger.Evolution
import BitInfinity.Runtime.ValidatorAccounts

/-!
# Epoch boundaries and the life of accounts

Stake is returned, rewards are added and the excess of locked accounts is swept; nothing else
happens to an account at an epoch boundary.
-/

namespace BitInfinity

open Foundation

/-- The steps that the update of the validator accounts can cause. -/
def ValidatorCause : EntryEvent → Prop
  | .receive => True
  | .restake => True
  | .sweep => True
  | _ => False

/-- Every account evolves by such steps, and no receipt is stored or executed. -/
structure ValidatorEffect (E : Externals) (V : ContractRunner) (config : StorageUsageConfig)
    (t t' : Trie E) : Prop where
  mailboxes : t'.mailboxes = t.mailboxes
  evolves : ∀ a, Evolves E V config a ValidatorCause [] [] (t.entries a) (t'.entries a)

section Effect

variable {E : Externals} {V : ContractRunner} {config : StorageUsageConfig} {t t' t'' : Trie E}
  {a : AccountId} {acc acc' : Account} {u : ValidatorAccountsUpdate} {epochHeight : EpochHeight}

variable {s s' : Trie E × Balance} {id : AccountId}

theorem ValidatorEffect.refl (t : Trie E) : ValidatorEffect E V config t t :=
  ⟨rfl, fun _ => .refl _⟩

theorem ValidatorEffect.trans (h₁ : ValidatorEffect E V config t t')
    (h₂ : ValidatorEffect E V config t' t'') : ValidatorEffect E V config t t'' :=
  ⟨h₂.mailboxes.trans h₁.mailboxes, fun a => (h₁.evolves a).trans (h₂.evolves a)⟩

theorem ValidatorEffect.setAccount {event : EntryEvent}
    (hstep : EntryStep E V config a (t.entries a) event ((t.entries a).setAccount (some acc)))
    (hcause : ValidatorCause event) : ValidatorEffect E V config t (t.setAccount a acc) := by
  refine ⟨rfl, fun b => ?_⟩
  have hnone : event.accepted = [] := by
    cases event <;> first | rfl | exact hcause.elim
  by_cases hb : b = a
  · subst hb
    rw [Trie.setAccount, Trie.setEntry_entries_self, ← hnone]
    exact .single hstep hcause
  · rw [Trie.setAccount, Trie.setEntry_entries_of_ne _ _ _ _ hb]
    exact .refl _

theorem returnStake_eq_ok {reward : Option Balance} {maxOfStakes lastProposal : Balance}
    (h : returnStake acc reward maxOfStakes lastProposal = .ok acc') :
    ∃ amount locked, acc' = { acc with amount, locked } ∧
      amount + locked = acc.total + reward.getD 0 := by
  simp only [returnStake, bind_eq_ok] at h
  obtain ⟨locked, hlocked, _, -, _, hreturned, amount, hamount, h⟩ := h
  obtain ⟨-, rfl⟩ := checkedAdd_eq_some.mp (okOr_eq_ok.mp hlocked)
  obtain ⟨-, rfl⟩ := checkedSub_eq_some.mp (okOr_eq_ok.mp hreturned)
  obtain ⟨-, rfl⟩ := checkedAdd_eq_some.mp (okOr_eq_ok.mp hamount)
  cases h
  refine ⟨_, _, rfl, ?_⟩
  unfold Account.total Balance at *
  omega

theorem updateStake_effect {stake : AccountId × Balance} (h : updateStake u t stake = .ok t') :
    ValidatorEffect E V config t t' := by
  unfold updateStake at h
  dsimp only at h
  split at h
  · rename_i acc hacc
    obtain ⟨_, hreturn, h⟩ := bind_eq_ok.mp h
    cases h
    obtain ⟨amount, locked, rfl, htotal⟩ := returnStake_eq_ok hreturn
    exact .setAccount (.restake amount locked hacc (htotal ▸ Nat.le_add_right _ _)) trivial
  · split at h
    · cases h
    · cases h
      exact .refl t

theorem payTreasury_effect (h : payTreasury u t = .ok t') : ValidatorEffect E V config t t' := by
  unfold payTreasury at h
  split at h
  · cases h
    exact .refl t
  · split at h
    · cases h
      exact .refl t
    · obtain ⟨_, hacc, h⟩ := bind_eq_ok.mp h
      obtain ⟨_, -, h⟩ := bind_eq_ok.mp h
      obtain ⟨_, hamount, h⟩ := bind_eq_ok.mp h
      obtain ⟨-, rfl⟩ := checkedAdd_eq_some.mp (okOr_eq_ok.mp hamount)
      cases h
      exact .setAccount (.credit (okOr_eq_ok.mp hacc) (Nat.le_add_right _ _)) trivial

theorem computePatoshiSweep_floor {amount locked genesis : Balance}
    (hfloor : genesis ≤ amount + locked) :
    genesis ≤ amount - (computePatoshiSweep amount locked genesis).1 + locked := by
  have hsum := saturatingAdd_le 128 amount locked
  unfold computePatoshiSweep
  dsimp only
  unfold Balance at *
  omega

theorem sweepAccount_cases (h : sweepAccount epochHeight s id = .ok s') :
    s' = s ∨ ∃ record acc swept, getPatoshiRecord s.1 id = .ok (some record) ∧
      s.1.getAccount id = some acc ∧
      s' = (s.1.setAccount id { acc with
        amount := acc.amount -
          (computePatoshiSweep acc.amount acc.locked record.genesisBalance).1 }, swept) := by
  obtain ⟨found, hrecord, h⟩ := bind_eq_ok.mp h
  cases found with
  | none =>
    cases h
    exact .inl rfl
  | some record =>
    dsimp only at h
    split at h
    · cases h
      exact .inl rfl
    · obtain ⟨acc, hacc, h⟩ := bind_eq_ok.mp h
      split at h
      · cases h
        exact .inl rfl
      · obtain ⟨amount, hamount, h⟩ := bind_eq_ok.mp h
        obtain ⟨total, -, h⟩ := bind_eq_ok.mp h
        obtain ⟨-, rfl⟩ := checkedSub_eq_some.mp (okOr_eq_ok.mp hamount)
        cases h
        exact .inr ⟨record, acc, total, mapError_eq_ok.mp hrecord, okOr_eq_ok.mp hacc, rfl⟩

theorem sweepAccount_effect
    (h : sweepAccount epochHeight s id = .ok s') : ValidatorEffect E V config s.1 s'.1 := by
  rcases sweepAccount_cases h with rfl | ⟨record, acc, swept, hrecord, hacc, rfl⟩
  · exact .refl _
  · exact .setAccount (.sweep _ hacc hrecord computePatoshiSweep_floor) trivial

theorem creditFoundation_effect {swept : Balance} (h : creditFoundation t swept = .ok t') :
    ValidatorEffect E V config t t' := by
  unfold creditFoundation at h
  split at h
  · cases h
    exact .refl t
  · obtain ⟨_, hacc, h⟩ := bind_eq_ok.mp h
    obtain ⟨_, hamount, h⟩ := bind_eq_ok.mp h
    obtain ⟨-, rfl⟩ := checkedAdd_eq_some.mp (okOr_eq_ok.mp hamount)
    cases h
    exact .setAccount (.credit (okOr_eq_ok.mp hacc) (Nat.le_add_right _ _)) trivial

theorem sweepPatoshiExcess_effect (h : sweepPatoshiExcess t epochHeight = .ok t') :
    ValidatorEffect E V config t t' := by
  obtain ⟨_, -, h⟩ := bind_eq_ok.mp h
  obtain ⟨⟨t₁, _⟩, hfold, h⟩ := bind_eq_ok.mp h
  have hswept : ValidatorEffect E V config t t₁ :=
    foldlM_invariant (fun s => ValidatorEffect E V config t s.1) hfold (.refl t)
      fun _ _ _ _ heffect hstep => heffect.trans (sweepAccount_effect hstep)
  exact hswept.trans (creditFoundation_effect h)

theorem updateValidatorAccounts_effect
    (h : updateValidatorAccounts t u epochHeight = .ok t') : ValidatorEffect E V config t t' := by
  obtain ⟨t₁, hfold, h⟩ := bind_eq_ok.mp h
  obtain ⟨_, htreasury, h⟩ := bind_eq_ok.mp h
  have hstakes : ValidatorEffect E V config t t₁ :=
    foldlM_invariant (fun s => ValidatorEffect E V config t s) hfold (.refl t)
      fun _ _ _ _ heffect hstep => heffect.trans (updateStake_effect hstep)
  exact (hstakes.trans (payTreasury_effect htreasury)).trans (sweepPatoshiExcess_effect h)

end Effect

end BitInfinity
