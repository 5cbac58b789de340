import BitInfinity.Proxy.RpcState

/-!
# Wallet handlers

The handlers that change the wallet: new and imported keys, watch-only addresses, encryption,
locking and the lifecycle of the single wallet.
-/

namespace BitInfinity.Proxy

open BitInfinity Foundation

/-! ## New keys -/

structure KeyPair (X : ProxyExternals) where
  secret : Bytes
  publicKey : Secp256K1PublicKey
  derived : X.publicKeyOf secret = some publicKey

/-- A key pair wherever keys are derived as in the toy instance. -/
def KeyPair.sample {X : ProxyExternals} (h : X.publicKeyOf = ProxyExternals.sample.publicKeyOf) :
    KeyPair X where
  secret := List.replicate 32 1
  publicKey := ⟨List.replicate 64 1, rfl⟩
  derived := h ▸ rfl

def KeyPair.entry {X : ProxyExternals} (pair : KeyPair X) : KeyEntry where
  privateKeyHex := String.ofList (hexEncode pair.secret)
  publicKeyCompressedHex := String.ofList (hexEncode (compressPublicKey pair.publicKey))
  publicKeyUncompressedHex := String.ofList (hexEncode pair.publicKey.bytes)

def p2pkhAddress (C : Crypto) (version : UInt8) (publicKey : Secp256K1PublicKey) : String :=
  base58checkEncode C version (hash160 C (compressPublicKey publicKey))

def bech32Address (C : Crypto) (hrp : String) (publicKey : Secp256K1PublicKey) : String :=
  Bech32.encode hrp 0 (hash160 C (compressPublicKey publicKey))

/-- Store a key under both address formats and under the lower-case alias. -/
def Keystore.insertKey (ks : Keystore) (p2pkh bech32 : String) (entry : KeyEntry) : Keystore :=
  let ks := ks.insert p2pkh entry
  let ks := if toLowercase p2pkh ≠ p2pkh then ks.insert (toLowercase p2pkh) entry else ks
  ks.insert bech32 entry

section Handlers

variable (X : ProxyExternals) (s : RpcState)

def RpcState.updateKeystore (change : Keystore → Keystore) : RpcState :=
  .saveKeystore { s with keystore := change s.keystore }

def getnewaddress (addressType : Option String) (pair : KeyPair X) : Response × RpcState :=
  match s.ensureWalletUsable with
  | .error e => (.error e, s)
  | .ok () =>
    let p2pkh := p2pkhAddress X.toCrypto 0x00 pair.publicKey
    let bech32 := bech32Address X.toCrypto s.bech32Hrp pair.publicKey
    let address := if addressType.getD "bech32" = "legacy" then p2pkh else bech32
    (.ok (.text address), s.updateKeystore (·.insertKey p2pkh bech32 pair.entry))

def getrawchangeaddress (pair : KeyPair X) : Response × RpcState :=
  match s.ensureWalletUsable with
  | .error e => (.error e, s)
  | .ok () =>
    let p2pkh := p2pkhAddress X.toCrypto 0x00 pair.publicKey
    let bech32 := bech32Address X.toCrypto s.bech32Hrp pair.publicKey
    (.ok (.text bech32), s.updateKeystore (·.insertKey p2pkh bech32 pair.entry))

def wifToPrivkey (C : Crypto) (wif : String) : Except String Bytes := do
  let bytes ← okOr (C.bs58Decode wif) "Invalid WIF base58"
  ensure (5 ≤ bytes.length) "WIF too short"
  let payload := bytes.take (bytes.length - 4)
  let checksum := bytes.drop (bytes.length - 4)
  ensure ((C.sha256 (C.sha256 payload)).take 4 == checksum) "WIF checksum mismatch"
  let version := payload.headD 0
  ensure (version == 0x80 || version == 0xEF)
    ("Unknown WIF version byte: 0x" ++ String.ofList (hexEncode [version]))
  let keyData := payload.drop 1
  if keyData.length = 33 ∧ keyData.getLast? = some 0x01 then .ok (keyData.take 32)
  else if keyData.length = 32 then .ok keyData
  else .error ("Invalid WIF key length: " ++ toString keyData.length)

/-- The text of the secret key in the request: 64 hex digits as they are, or a WIF text. -/
def importedPrivkeyHex (C : Crypto) (input : String) : Except RpcError String :=
  if input.utf8ByteSize = 64 ∧ (hexDecode input).isSome then .ok input
  else
    match wifToPrivkey C input with
    | .ok secret => .ok (String.ofList (hexEncode secret))
    | .error e => errResponse (-5) ("Invalid private key (expected WIF or 64-char hex): " ++ e)

def importedPair (privkeyHex : String) : Except RpcError (KeyPair X) :=
  match hexDecode privkeyHex with
  | none => errResponse (-5) "Invalid hex"
  | some secret =>
    match h : X.publicKeyOf secret with
    | none => errResponse (-5) "Invalid private key"
    | some publicKey => .ok ⟨secret, publicKey, h⟩

/-- The imported key pair, and the entry to store, which keeps the hex text of the request. -/
def parseImport (input : Option String) : Except RpcError (KeyPair X × KeyEntry) := do
  let input ← okOr input ⟨-32602, "Missing private key"⟩
  let privkeyHex ← importedPrivkeyHex X.toCrypto input
  let pair ← importedPair X privkeyHex
  .ok (pair, { pair.entry with privateKeyHex := privkeyHex })

def importVersion (s : RpcState) : UInt8 := if s.bech32Hrp = "bc" then 0x00 else 0x6f

def importprivkey (input : Option String) : Response × RpcState :=
  match s.ensureWalletUsable with
  | .error e => (.error e, s)
  | .ok () =>
    match parseImport X input with
    | .error e => (.error e, s)
    | .ok (pair, entry) =>
      let p2pkh := p2pkhAddress X.toCrypto (importVersion s) pair.publicKey
      let bech32 := bech32Address X.toCrypto s.bech32Hrp pair.publicKey
      (.ok (.text p2pkh), s.updateKeystore (·.insertKey p2pkh bech32 entry))

/-! ## Watch-only addresses -/

def importaddress (address : Option String) : Response × RpcState :=
  match s.ensureWalletLoaded with
  | .error e => (.error e, s)
  | .ok () =>
    match address with
    | none => (errResponse (-32602) "Missing address parameter", s)
    | some address => (.ok .null, s.updateKeystore (·.addWatchOnly address))

/-- The address of a public key; only a digest of 20 bytes has one. -/
def watchAddress (C : Crypto) (hrp : String) (pubkey : Bytes) : String :=
  if (hash160 C pubkey).length = 20 then Bech32.encode hrp 0 (hash160 C pubkey) else ""

def parsePubkey (pubkeyHex : Option String) : Except RpcError Bytes := do
  let pubkeyHex ← okOr pubkeyHex ⟨-32602, "Missing pubkey parameter"⟩
  let invalid : RpcError := ⟨-5, "Invalid public key (expected 33 or 65 hex bytes)"⟩
  let bytes ← okOr (hexDecode pubkeyHex) invalid
  ensure (bytes.length == 33 || bytes.length == 65) invalid
  .ok bytes

def importpubkey (pubkeyHex : Option String) : Response × RpcState :=
  match s.ensureWalletLoaded with
  | .error e => (.error e, s)
  | .ok () =>
    match parsePubkey pubkeyHex with
    | .error e => (.error e, s)
    | .ok pubkey =>
      (.ok .null, s.updateKeystore (·.addWatchOnly (watchAddress X.toCrypto s.bech32Hrp pubkey)))

/-! ## Encryption and the lock -/

def encryptwallet (passphrase : Option String) : Response × RpcState :=
  match s.ensureWalletLoaded with
  | .error e => (.error e, s)
  | .ok () =>
    match passphrase with
    | none => (errResponse (-32602) "Missing passphrase parameter", s)
    | some passphrase =>
      if s.keystore.encrypted then
        (errResponse (-15)
          "Error: running with an encrypted wallet, but encryptwallet was called.", s)
      else
        (.ok (.text ("wallet encrypted; The keypool has been flushed and a new HD seed was " ++
            "set. You need to make a new backup.")),
          { s with
            file := s.keystore.saveEncrypted passphrase
            keystore := { s.keystore with encrypted := true }
            walletPassphrase := some passphrase
            walletUnlockUntil := none })

def walletpassphrase (passphrase : Option String) (timeout : Option Nat) : Response × RpcState :=
  match s.ensureWalletLoaded with
  | .error e => (.error e, s)
  | .ok () =>
    match passphrase with
    | none => (errResponse (-32602) "Missing passphrase parameter", s)
    | some passphrase =>
      if !s.keystore.encrypted then
        (errResponse (-15)
          "Error: running with an unencrypted wallet, but walletpassphrase was called.", s)
      else
        match Keystore.loadEncrypted passphrase s.file with
        | .error e => (errResponse (-14) ("Error: " ++ e), s)
        | .ok decrypted =>
          (.ok .null, { s with
            keystore := decrypted
            walletUnlockUntil := some (s.clock + timeout.getD 600)
            walletPassphrase := some passphrase })

def walletlock : Response × RpcState :=
  match s.ensureWalletLoaded with
  | .error e => (.error e, s)
  | .ok () =>
    if !s.keystore.encrypted then
      (errResponse (-15) "Error: running with an unencrypted wallet, but walletlock was called.", s)
    else
      (.ok .null, { s with
        file := match s.walletPassphrase with
          | some passphrase => s.keystore.saveEncrypted passphrase
          | none => s.file
        keystore := .emptyEncrypted
        walletUnlockUntil := none
        walletPassphrase := none })

def walletpassphrasechange (old new : Option String) : Response × RpcState :=
  match s.ensureWalletLoaded with
  | .error e => (.error e, s)
  | .ok () =>
    match old, new with
    | none, _ => (errResponse (-32602) "Missing old passphrase", s)
    | some _, none => (errResponse (-32602) "Missing new passphrase", s)
    | some old, some new =>
      match Keystore.loadEncrypted old s.file with
      | .error e => (errResponse (-14) ("Error: " ++ e), s)
      | .ok decrypted =>
        (.ok .null, { s with
          file := decrypted.saveEncrypted new
          keystore := decrypted
          walletPassphrase := some new })

/-! ## Lifecycle -/

def aliasWarning : String := "Wallet aliases are virtual in single-keystore mode."

def requestedName (name : Option String) : Option String := name.filter fun n => n ≠ ""

def loadwallet (name : Option String) : Response × RpcState :=
  let name := (requestedName name).getD s.walletName
  let warning := if name = s.walletName then "" else aliasWarning
  (.ok (.wallet name warning), { s with walletName := name, walletLoaded := true })

def unloadwallet (name : Option String) : Response × RpcState :=
  let unloaded := (Except.ok (.warning ""), { s with
    walletLoaded := false, walletUnlockUntil := none, walletPassphrase := none })
  match requestedName name with
  | none => unloaded
  | some name =>
    if name = s.walletName then unloaded
    else (errResponse (-18) ("Requested wallet '" ++ name ++ "' does not exist"), s)

def createwallet (name : Option String) : Response × RpcState :=
  let name := name.getD "bitinfinity"
  if name = "" then (errResponse (-8) "Wallet name must not be empty", s)
  else (.ok (.wallet name aliasWarning), { s with walletName := name, walletLoaded := true })

end Handlers

/-! ## Sequences of calls -/

inductive WalletCall (X : ProxyExternals)
  | getnewaddress (addressType : Option String) (pair : KeyPair X)
  | getrawchangeaddress (pair : KeyPair X)
  | importprivkey (input : Option String)
  | importaddress (address : Option String)
  | importpubkey (pubkeyHex : Option String)
  | encryptwallet (passphrase : Option String)
  | walletpassphrase (passphrase : Option String) (timeout : Option Nat)
  | walletlock
  | walletpassphrasechange (old new : Option String)
  | loadwallet (name : Option String)
  | unloadwallet (name : Option String)
  | createwallet (name : Option String)

def walletHandler (X : ProxyExternals) (s : RpcState) : WalletCall X → Response × RpcState
  | .getnewaddress addressType pair => getnewaddress X s addressType pair
  | .getrawchangeaddress pair => getrawchangeaddress X s pair
  | .importprivkey input => importprivkey X s input
  | .importaddress address => importaddress s address
  | .importpubkey pubkeyHex => importpubkey X s pubkeyHex
  | .encryptwallet passphrase => encryptwallet s passphrase
  | .walletpassphrase passphrase timeout => walletpassphrase s passphrase timeout
  | .walletlock => walletlock s
  | .walletpassphrasechange old new => walletpassphrasechange s old new
  | .loadwallet name => loadwallet s name
  | .unloadwallet name => unloadwallet s name
  | .createwallet name => createwallet s name

end BitInfinity.Proxy
