import BitInfinity.Proxy.WalletHistory

/-!
# Acknowledged addresses

An address that a call has acknowledged is in the wallet file, so that the next unlock or
restart finds it again.  Memory and file agree whenever the file can be written; what is
watched while it cannot be written is lost.
-/

namespace BitInfinity.Proxy

open BitInfinity Foundation

section Acknowledged

variable {X : ProxyExternals} {s s' : RpcState} {c : WalletCall X} {r : Response}
  {address passphrase : String} {ks : Keystore} {file : WalletFile}

variable {p2pkh bech32 : String} {entry : KeyEntry}

/-- An address is watched in an encrypted wallet only while its passphrase is cached, unless
the file has the address already. -/
def WatchesSaved (X : ProxyExternals) (s : RpcState) : WalletEvent X → Prop
  | .call c =>
    ∀ address, c.watched X s = some address → s.walletLoaded = true →
      s.keystore.encrypted = true → s.walletPassphrase = none → s.file.contents.Tracks address
  | _ => True

/-- Memory and file agree whenever the file can be written. -/
structure Synced (s : RpcState) : Prop where
  plain : s.keystore.encrypted = false → .load s.file = s.keystore
  cached : s.keystore.encrypted = true → ∀ passphrase, s.walletPassphrase = some passphrase →
    Keystore.loadEncrypted passphrase s.file = .ok s.keystore
  unlocked : s.keystore.encrypted = true → s.walletUnlockUntil ≠ none → s.walletPassphrase ≠ none

/-- The keystore can be saved: it is in the clear or its passphrase is cached. -/
def RpcState.Saves (s : RpcState) : Prop := s.keystore.encrypted = true → s.walletPassphrase ≠ none

theorem load_eq_contents (h : (Keystore.load file).encrypted = false) :
    .load file = file.contents := by
  cases file with
  | encrypted => cases h
  | _ => rfl

@[simp] theorem saveEncrypted_tracks :
    (ks.saveEncrypted passphrase).contents.Tracks address ↔ ks.Tracks address :=
  Iff.rfl

theorem loadEncrypted_tracks (h : Keystore.loadEncrypted passphrase file = .ok ks) :
    ks.Tracks address ↔ file.contents.Tracks address := by
  obtain ⟨_, rfl, rfl⟩ := Keystore.loadEncrypted_eq_ok.mp h
  exact Iff.rfl

theorem loadEncrypted_saveEncrypted (h : ks.encrypted = true) :
    Keystore.loadEncrypted passphrase (ks.saveEncrypted passphrase) = .ok ks := by
  rw [Keystore.saveEncrypted, Keystore.loadEncrypted, if_pos rfl]
  obtain ⟨_, _, encrypted⟩ := ks
  cases h
  rfl

theorem Synced.tracks_iff (h : Synced s) (hsaves : s.Saves) :
    s.file.contents.Tracks address ↔ s.keystore.Tracks address := by
  cases hencrypted : s.keystore.encrypted with
  | false =>
    have hload := h.plain hencrypted
    rw [← hload] at hencrypted ⊢
    rw [load_eq_contents hencrypted]
  | true =>
    obtain ⟨passphrase, hcached⟩ := Option.ne_none_iff_exists'.mp (hsaves hencrypted)
    exact (loadEncrypted_tracks (h.cached hencrypted passphrase hcached)).symm

theorem updateKeystore_synced (change : Keystore → Keystore)
    (hchange : (change s.keystore).encrypted = s.keystore.encrypted) (hsaves : s.Saves) :
    Synced (s.updateKeystore change) ∧ ∀ address,
      (s.updateKeystore change).file.contents.Tracks address ↔
        (change s.keystore).Tracks address := by
  cases hencrypted : s.keystore.encrypted with
  | false =>
    have hfile : (s.updateKeystore change).file = .plain (change s.keystore) := by
      simp [RpcState.updateKeystore, RpcState.saveKeystore, Keystore.save, hchange, hencrypted]
    refine ⟨⟨?_, ?_, ?_⟩, ?_⟩
    · intro _
      rw [hfile]
      simp [RpcState.updateKeystore, Keystore.load]
    · simp [hchange, hencrypted]
    · simp [hchange, hencrypted]
    · intro address
      rw [hfile]
      rfl
  | true =>
    obtain ⟨passphrase, hcached⟩ := Option.ne_none_iff_exists'.mp (hsaves hencrypted)
    have hfile : (s.updateKeystore change).file = (change s.keystore).saveEncrypted passphrase := by
      simp [RpcState.updateKeystore, RpcState.saveKeystore, hchange, hencrypted, hcached]
    refine ⟨⟨?_, ?_, ?_⟩, ?_⟩
    · simp [hchange, hencrypted]
    · intro _ passphrase' hcached'
      have hsame : passphrase' = passphrase := by
        simpa [RpcState.updateKeystore, hcached, eq_comm] using hcached'
      rw [hfile, hsame, RpcState.updateKeystore, RpcState.saveKeystore_keystore]
      exact loadEncrypted_saveEncrypted (hchange.trans hencrypted)
    · intro _ _
      simp [RpcState.updateKeystore, hcached]
    · intro address
      rw [hfile, saveEncrypted_tracks]

/-- Every address acknowledged so far is in the file. -/
structure Durable (h : WalletHistory) : Prop extends Synced h.state where
  stored : ∀ address ∈ h.acknowledged, h.state.file.contents.Tracks address

@[simp] theorem insertKey_tracks : (ks.insertKey p2pkh bech32 entry).Tracks address ↔
      address = bech32 ∨ address = toLowercase p2pkh ∨ address = p2pkh ∨ ks.Tracks address := by
  unfold Keystore.insertKey
  split
  · simp only [Keystore.tracks_insert]
  · rename_i hlower
    rw [not_not] at hlower
    simp only [Keystore.tracks_insert, hlower]
    tauto

theorem acknowledged_cases (h : acknowledged X s c = some address) :
    (c.addsKey = true ∧ (walletHandler X s c).1 = .ok (.text address)) ∨
      (c.watched X s = some address ∧ ∃ result, (walletHandler X s c).1 = .ok result) := by
  unfold acknowledged at h
  split at h
  · rename_i heq
    cases h
    exact .inl ⟨rfl, heq⟩
  · rename_i heq
    cases h
    exact .inl ⟨rfl, heq⟩
  · next heq => exact .inr ⟨h, _, heq⟩
  · next heq => exact .inr ⟨h, _, heq⟩
  · cases h

theorem Synced.of_same (h : Synced s) (hkeystore : s'.keystore = s.keystore)
    (hfile : s'.file = s.file) (hcached : s'.walletPassphrase = s.walletPassphrase)
    (hunlock : s'.walletUnlockUntil = s.walletUnlockUntil) : Synced s' where
  plain := by
    rw [hkeystore, hfile]
    exact h.plain
  cached := by
    rw [hkeystore, hfile, hcached]
    exact h.cached
  unlocked := by
    rw [hkeystore, hcached, hunlock]
    exact h.unlocked

theorem updateKeystore_unsaved {change : Keystore → Keystore}
    (hchange : (change s.keystore).encrypted = s.keystore.encrypted)
    (hencrypted : s.keystore.encrypted = true) (hcached : s.walletPassphrase = none) :
    s.updateKeystore change = { s with keystore := change s.keystore } := by
  simp [RpcState.updateKeystore, RpcState.saveKeystore, hchange, hencrypted, hcached]

theorem Synced.saves_of_usable (h : Synced s) (husable : s.ensureWalletUsable = .ok ()) :
    s.Saves := by
  obtain ⟨-, hunlocked⟩ := ensureWalletUsable_eq_ok.mp husable
  obtain ⟨_, hexpiry, -⟩ := isWalletUnlocked_eq_true.mp hunlocked
  intro hencrypted
  exact h.unlocked hencrypted (by simp [hexpiry])

theorem Synced.addKey (h : Synced s) (husable : s.ensureWalletUsable = .ok ()) :
    Synced (s.updateKeystore (·.insertKey p2pkh bech32 entry)) ∧ ∀ address,
      address = p2pkh ∨ address = bech32 ∨ s.file.contents.Tracks address →
        (s.updateKeystore (·.insertKey p2pkh bech32 entry)).file.contents.Tracks address := by
  have hsaves := h.saves_of_usable husable
  obtain ⟨hsynced, htracks⟩ :=
    updateKeystore_synced (·.insertKey p2pkh bech32 entry) insertKey_encrypted hsaves
  refine ⟨hsynced, ?_⟩
  intro address haddress
  rw [htracks, insertKey_tracks, ← h.tracks_iff hsaves]
  tauto

theorem Synced.watch {address' : String} (h : Synced s)
    (hcond : s.keystore.encrypted = true → s.walletPassphrase = none →
      s.file.contents.Tracks address') :
    Synced (s.updateKeystore (·.addWatchOnly address')) ∧ ∀ address,
      address = address' ∨ s.file.contents.Tracks address →
        (s.updateKeystore (·.addWatchOnly address')).file.contents.Tracks address := by
  by_cases hsaves : s.Saves
  · obtain ⟨hsynced, htracks⟩ :=
      updateKeystore_synced (·.addWatchOnly address') Keystore.addWatchOnly_encrypted hsaves
    refine ⟨hsynced, ?_⟩
    intro address haddress
    rw [htracks, Keystore.tracks_addWatchOnly, ← h.tracks_iff hsaves]
    exact haddress
  · obtain ⟨hencrypted, hcached⟩ : s.keystore.encrypted = true ∧ s.walletPassphrase = none := by
      simpa [RpcState.Saves] using hsaves
    rw [updateKeystore_unsaved Keystore.addWatchOnly_encrypted hencrypted hcached]
    refine ⟨⟨?_, ?_, ?_⟩, ?_⟩
    · simp [hencrypted]
    · simp [hcached]
    · exact fun _ => h.unlocked hencrypted
    · rintro address (rfl | hstored)
      · exact hcond hencrypted hcached
      · exact hstored

theorem WalletEffect.synced (heffect : WalletEffect X s c r s') (h : Synced s)
    (hcond : WatchesSaved X s (.call c)) :
    Synced s' ∧ ∀ address, s.file.contents.Tracks address → s'.file.contents.Tracks address := by
  cases heffect with
  | refused _ => exact ⟨h, fun _ hstored => hstored⟩
  | addedKey _ husable _ =>
    obtain ⟨hsynced, hstored⟩ := h.addKey husable
    exact ⟨hsynced, fun address hmem => hstored address (.inr (.inr hmem))⟩
  | watched hwatch hloaded =>
    obtain ⟨hsynced, hstored⟩ := h.watch (hcond _ hwatch hloaded)
    exact ⟨hsynced, fun address hmem => hstored address (.inr hmem)⟩
  | @encrypted passphrase _ _ hplain =>
    have hsaves : s.Saves := fun hencrypted => by simp [hplain] at hencrypted
    refine ⟨⟨nofun, ?_, ?_⟩, ?_⟩
    · rintro - passphrase' ⟨⟩
      exact if_pos rfl
    · exact fun _ hne => absurd rfl hne
    · intro address hstored
      exact (h.tracks_iff hsaves).mp hstored
  | opened _ _ hopen =>
    refine ⟨⟨?_, ?_, ?_⟩, fun _ hstored => hstored⟩
    · simp [loadEncrypted_encrypted hopen]
    · rintro - passphrase' ⟨⟩
      exact hopen
    · simp
  | locked =>
    refine ⟨⟨nofun, nofun, fun _ hne => absurd rfl hne⟩, ?_⟩
    intro address hstored
    cases hcached : s.walletPassphrase with
    | none => simpa [hcached] using hstored
    | some passphrase =>
      have hsaves : s.Saves := fun _ => by simp [hcached]
      simpa [hcached] using (h.tracks_iff hsaves).mp hstored
  | rekeyed _ hopen =>
    have hencrypted := loadEncrypted_encrypted hopen
    refine ⟨⟨?_, ?_, ?_⟩, ?_⟩
    · simp [hencrypted]
    · rintro - passphrase' ⟨⟩
      exact loadEncrypted_saveEncrypted hencrypted
    · simp
    · intro address hstored
      exact (loadEncrypted_tracks hopen).mpr hstored
  | loaded _ => exact ⟨h.of_same rfl rfl rfl rfl, fun _ hstored => hstored⟩
  | unloaded => refine ⟨⟨h.plain, nofun, fun _ hne => absurd rfl hne⟩, fun _ hstored => hstored⟩

theorem WalletEffect.acknowledged_stored (heffect : WalletEffect X s c r s') (h : Synced s)
    (hcond : WatchesSaved X s (.call c)) (hack : (c.addsKey = true ∧ r = .ok (.text address)) ∨
      (c.watched X s = some address ∧ ∃ result, r = .ok result)) :
    s'.file.contents.Tracks address := by
  have hnowatch : c.addsKey = true → c.watched X s = none := by
    cases c <;> simp [WalletCall.addsKey, WalletCall.watched]
  cases heffect with
  | refused _ => simp at hack
  | addedKey hadds husable haddress =>
    obtain ⟨-, hstored⟩ := h.addKey husable
    rw [hnowatch hadds] at hack
    obtain ⟨-, hreply⟩ : _ ∧ _ := by simpa using hack
    subst hreply
    exact hstored _ (by tauto)
  | watched hwatch hloaded =>
    obtain ⟨-, hstored⟩ := h.watch (hcond _ hwatch hloaded)
    have haddress : c.watched X s = some address := by simpa using hack
    exact hstored _ (.inl (Option.some.inj (haddress.symm.trans hwatch)))
  | loaded hloads =>
    cases c <;> simp [WalletCall.loads, WalletCall.addsKey, WalletCall.watched] at hloads hack
  | _ => simp [WalletCall.addsKey, WalletCall.watched] at hack

variable {h h' : WalletHistory} {e : WalletEvent X}

theorem WalletHistory.Step.durable (hstep : h.Step X e h') (hcond : WatchesSaved X h.state e)
    (hdurable : Durable h) : Durable h' := by
  subst hstep
  cases e with
  | call c =>
    have heffect := walletHandler_effect X h.state c
    obtain ⟨hsynced, hkept⟩ := heffect.synced hdurable.toSynced hcond
    refine ⟨hsynced, ?_⟩
    intro address hmem
    rcases List.mem_append.mp hmem with hold | hnew
    · exact hkept address (hdurable.stored address hold)
    · have hack := acknowledged_cases (Option.mem_toList.mp hnew)
      exact heffect.acknowledged_stored hdurable.toSynced hcond hack
  | wait seconds => exact ⟨hdurable.toSynced.of_same rfl rfl rfl rfl, hdurable.stored⟩
  | restart =>
    refine ⟨⟨fun _ => rfl, nofun, ?_⟩, hdurable.stored⟩
    intro hencrypted hunlocked
    refine absurd ?_ hunlocked
    exact if_pos hencrypted

theorem start_durable (chainId : String) (file : WalletFile)
    (txCache : String → Option TxCacheEntry) (clock : Nat) :
    Durable (.start chainId file txCache clock) := by
  refine ⟨⟨fun _ => rfl, nofun, ?_⟩, nofun⟩
  intro hencrypted hunlocked
  refine absurd ?_ hunlocked
  exact if_pos hencrypted

theorem walletpassphrase_tracks {passphrase : Option String} {timeout : Option Nat}
    {result : RpcResult} (hreply : (walletpassphrase s passphrase timeout).1 = .ok result) :
    (walletpassphrase s passphrase timeout).2.keystore.Tracks address ↔
      s.file.contents.Tracks address := by
  have heffect := walletHandler_effect .sample s (.walletpassphrase passphrase timeout)
  simp only [walletHandler] at heffect
  generalize hr : (walletpassphrase s passphrase timeout).1 = reply at heffect hreply
  generalize ht : (walletpassphrase s passphrase timeout).2 = after at heffect ⊢
  cases heffect with
  | refused _ => cases hreply
  | addedKey hadds => cases hadds
  | watched hwatch _ => cases hwatch
  | opened _ _ hopen => exact loadEncrypted_tracks hopen
  | loaded hloads => cases hloads

/-- When no address is watched while the file cannot be written, every acknowledged address is
in the keystore after the wallet is opened, after a restart of an unencrypted wallet, and
after a restart of an encrypted one that is then opened. -/
theorem acknowledged_addresses_kept {X : ProxyExternals} {chainId : String} {file : WalletFile}
    {txCache : String → Option TxCacheEntry} {clock : Nat} {events : List (WalletEvent X)}
    {h : WalletHistory}
    (hrun : Run (fun a e b => WalletHistory.Step X a e b ∧ WatchesSaved X a.state e)
      (.start chainId file txCache clock) events h) :
    ∀ address ∈ h.acknowledged, (∀ passphrase timeout result,
        (walletpassphrase h.state passphrase timeout).1 = .ok result →
          (walletpassphrase h.state passphrase timeout).2.keystore.Tracks address) ∧
      (h.state.restart.keystore.encrypted = false → h.state.restart.keystore.Tracks address) ∧
      (∀ passphrase timeout result,
        (walletpassphrase h.state.restart passphrase timeout).1 = .ok result →
          (walletpassphrase h.state.restart passphrase timeout).2.keystore.Tracks address) := by
  have hdurable : Durable h := hrun.invariant (fun _ a => Durable a)
    (start_durable chainId file txCache clock)
    fun _ _ _ _ _ ha hstep => hstep.1.durable hstep.2 ha
  intro address hmem
  have hstored := hdurable.stored address hmem
  refine ⟨?_, ?_, ?_⟩
  · intro passphrase timeout result hreply
    exact (walletpassphrase_tracks hreply).mpr hstored
  · intro hplain
    have hload : h.state.restart.keystore = h.state.file.contents := load_eq_contents hplain
    rw [hload]
    exact hstored
  · intro passphrase timeout result hreply
    exact (walletpassphrase_tracks hreply).mpr hstored

def sampleWatching : WalletHistory :=
  (((WalletHistory.start "mainnet" .absent (fun _ => none) 0).next .sample
    (.call (.importaddress (some "bc1qa")))).next .sample
    (.call (.encryptwallet (some "open")))).next .sample (.call (.importaddress (some "bc1qb")))

theorem watched_addresses_kept : sampleWatching.acknowledged = ["bc1qa", "bc1qb"] ∧
      (walletpassphrase sampleWatching.state (some "open") none).1 = .ok .null ∧
      (walletpassphrase sampleWatching.state (some "open") none).2.keystore.Tracks "bc1qb" := by
  refine ⟨rfl, rfl, ?_⟩
  have hrun : Run (fun a e b => WalletHistory.Step .sample a e b ∧ WatchesSaved .sample a.state e)
      (.start "mainnet" .absent (fun _ => none) 0)
      [.call (.importaddress (some "bc1qa")), .call (.encryptwallet (some "open")),
        .call (.importaddress (some "bc1qb"))] sampleWatching :=
    ((Run.single ⟨rfl, fun _ _ _ hencrypted => by cases hencrypted⟩).snoc
      ⟨rfl, fun _ hwatch => by cases hwatch⟩).snoc ⟨rfl, fun _ _ _ _ hcached => by cases hcached⟩
  exact (acknowledged_addresses_kept hrun "bc1qb" (by simp [show
    sampleWatching.acknowledged = ["bc1qa", "bc1qb"] from rfl])).1 (some "open") none .null rfl

/-- An address watched while the wallet is locked is gone after the next unlock. -/
theorem watched_while_locked_lost :
    let h := (((WalletHistory.start "mainnet" .absent (fun _ => none) 0).next .sample
      (.call (.encryptwallet (some "open")))).next .sample (.call .walletlock)).next .sample
      (.call (.importaddress (some "bc1qa")))
    h.acknowledged = ["bc1qa"] ∧ (walletpassphrase h.state (some "open") none).1 = .ok .null ∧
      ¬ (walletpassphrase h.state (some "open") none).2.keystore.Tracks "bc1qa" := by
  refine ⟨rfl, rfl, ?_⟩
  decide +kernel

end Acknowledged

end BitInfinity.Proxy
