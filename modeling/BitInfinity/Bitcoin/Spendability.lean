import BitInfinity.Runtime.BitcoinTx

/-!
# Which credited addresses a key can spend

The snapshot importer credits every address that pays to a single key, in the text form of the
Bitcoin network.  The runtime authorises a transaction when the signer is one of the addresses
that it derives from the recovered key, and it derives them from the compressed key only.
-/

namespace BitInfinity

open Foundation

inductive AddressKind
  | p2pkhCompressed
  | p2pkhUncompressed
  | p2wpkh
  | p2shP2wpkh
  deriving DecidableEq, Repr

/-- The address under which the snapshot holds the coins of a key. -/
def snapshotAddress (C : Crypto) (pubkey : Secp256K1PublicKey) : AddressKind → String
  | .p2pkhCompressed => base58checkEncode C 0x00 (hash160 C (compressPublicKey pubkey))
  | .p2pkhUncompressed => base58checkEncode C 0x00 (hash160 C (uncompressedPublicKey pubkey))
  | .p2wpkh => Bech32.encode "bc" 0 (hash160 C (compressPublicKey pubkey))
  | .p2shP2wpkh =>
    base58checkEncode C 0x05 (hash160 C (0x00 :: 0x14 :: hash160 C (compressPublicKey pubkey)))

def AddressKind.isDerived : AddressKind → Bool
  | .p2pkhCompressed => true
  | .p2wpkh => true
  | .p2pkhUncompressed => false
  | .p2shP2wpkh => false

/-- The hash functions and text encodings give no two addresses of the key the same text, also
when the letters are put in lower case. -/
def DistinctAddresses (C : Crypto) (pubkey : Secp256K1PublicKey) : Prop :=
  Function.Injective fun kind => toLowercase (snapshotAddress C pubkey kind)

/-- The runtime accepts the signature for the address and reports the signing key. -/
def Authorises {E : Externals} (t : Trie E) (signature messageHash : Bytes) (id : AccountId)
    (pubkey : Secp256K1PublicKey) : Prop :=
  ∃ t', verifyAndRegisterBitcoinTransaction (.secp256k1 signature) messageHash id t =
    .ok ((true, some (.secp256k1 pubkey)), t')

section Spend

variable {E : Externals} {t : Trie E} {signature messageHash : Bytes} {pubkey : Secp256K1PublicKey}

theorem authorises_iff_mem {id : AccountId} (hbtc : isBitcoinAddress E.toCrypto id = true)
    (hlen : messageHash.length = 32)
    (hrecover : E.recoverSecp256k1 signature messageHash = some pubkey) :
    Authorises t signature messageHash id pubkey ↔
      id ∈ deriveAllBitcoinAddresses E.toCrypto pubkey := by
  have hrec : recoverSecp256k1Signature E.toCrypto messageHash (.secp256k1 signature) =
      .ok (pubkey, (deriveAllBitcoinAddresses E.toCrypto pubkey).headD "") := by
    simp [recoverSecp256k1Signature, ensure, okOr, hlen, hrecover]
  unfold Authorises verifyAndRegisterBitcoinTransaction
  rw [if_pos hbtc, hrec, ok_bind]
  by_cases hmem : id ∈ deriveAllBitcoinAddresses E.toCrypto pubkey
  · simp [hmem]
  · simp [hmem]

theorem snapshotAddress_mem_iff {C : Crypto} (hdistinct : DistinctAddresses C pubkey)
    (kind : AddressKind) :
    snapshotAddress C pubkey kind ∈ deriveAllBitcoinAddresses C pubkey ↔ kind.isDerived = true := by
  rw [mem_deriveAllBitcoinAddresses]
  constructor
  · rintro (h | h | h)
    · rw [@hdistinct kind .p2pkhCompressed (congrArg toLowercase h)]
      rfl
    · rw [@hdistinct kind .p2wpkh (congrArg toLowercase h)]
      rfl
    · have hlower : toLowercase (snapshotAddress C pubkey kind) =
          toLowercase (snapshotAddress C pubkey .p2pkhCompressed) := by
        rw [h, toLowercase_toLowercase]
        rfl
      rw [hdistinct hlower]
      rfl
  · intro hkind
    cases kind with
    | p2pkhCompressed => exact .inl rfl
    | p2wpkh => exact .inr (.inl rfl)
    | p2pkhUncompressed => cases hkind
    | p2shP2wpkh => cases hkind

/-- A holder can spend exactly the coins paid to the compressed key. -/
theorem snapshot_authorised_iff (kind : AddressKind)
    (hdistinct : DistinctAddresses E.toCrypto pubkey)
    (hbtc : isBitcoinAddress E.toCrypto (snapshotAddress E.toCrypto pubkey kind) = true)
    (hlen : messageHash.length = 32)
    (hrecover : E.recoverSecp256k1 signature messageHash = some pubkey) :
    Authorises t signature messageHash (snapshotAddress E.toCrypto pubkey kind) pubkey ↔
      kind.isDerived = true := by
  rw [authorises_iff_mem hbtc hlen hrecover, snapshotAddress_mem_iff hdistinct]

end Spend

/-- The compressed key spends its own address and not the one that wraps its witness program. -/
theorem snapshot_authorised_sample :
    Authorises (E := .sample) .empty sampleKey.bytes (List.replicate 32 0)
        (snapshotAddress .sample sampleKey .p2pkhCompressed) sampleKey ∧
      ¬ Authorises (E := .sample) .empty sampleKey.bytes (List.replicate 32 0)
        (snapshotAddress .sample sampleKey .p2shP2wpkh) sampleKey := by
  have hdistinct : DistinctAddresses Externals.sample.toCrypto sampleKey := by
    rintro ⟨⟩ ⟨⟩ <;> decide +kernel
  refine ⟨(snapshot_authorised_iff .p2pkhCompressed hdistinct (by decide +kernel) rfl rfl).mpr rfl,
    fun h => ?_⟩
  cases (snapshot_authorised_iff .p2shP2wpkh hdistinct (by decide +kernel) rfl rfl).mp h

/-- Coins paid to the uncompressed key cannot be spent with that key. -/
theorem uncompressed_not_authorised :
    isBitcoinAddress .sample (snapshotAddress .sample sampleKey .p2pkhUncompressed) =
        true ∧
      Crypto.sample.recoverSecp256k1 sampleKey.bytes (List.replicate 32 0) = some sampleKey ∧
      ¬ Authorises (E := .sample) .empty sampleKey.bytes (List.replicate 32 0)
        (snapshotAddress .sample sampleKey .p2pkhUncompressed) sampleKey := by
  have hbtc : isBitcoinAddress Externals.sample.toCrypto
      (snapshotAddress .sample sampleKey .p2pkhUncompressed) = true := by
    decide +kernel
  refine ⟨hbtc, rfl, ?_⟩
  rw [authorises_iff_mem hbtc rfl rfl]
  decide +kernel

end BitInfinity
