import BitInfinity.Foundation.Cursor
import BitInfinity.Proxy.RpcState

/-!
# Partially signed transactions

The parsers of the proxy walk a PSBT with a cursor: after the magic come maps of key-value
entries, each part of an entry behind its length as a CompactSize.  Lengths are added to the
cursor before it is compared with the end of the bytes.  Every loop takes fuel and every
addition says how the program was built.
-/

namespace BitInfinity.Proxy

open BitInfinity Foundation

section Parsers

variable (mode : Overflow)

/-! ## CompactSize -/

/-- A number of `width` bytes behind its marker, when it lies inside the data. -/
def readWide (data : Bytes) (pos width : Nat) : Except Halt (Nat × Nat) := do
  let last ← mode.add pos width
  if last < data.length then do
    let v ← leAt mode data pos 1 width
    .ok (v, width + 1)
  else
    .ok (0, 1)

def readCompactSize (data : Bytes) (pos : Nat) : Except Halt (Nat × Nat) :=
  if data.length ≤ pos then .ok (0, 1)
  else do
    let first ← byteAt data pos
    if first < 253 then .ok (first.toNat, 1)
    else if first = 0xFD then readWide mode data pos 2
    else if first = 0xFE then readWide mode data pos 4
    else readWide mode data pos 8

def writeCompactSize (size : Nat) : Bytes :=
  if size < 253 then [UInt8.ofNat size]
  else if size ≤ 0xFFFF then 0xFD :: writeLE 2 size
  else if size ≤ 0xFFFFFFFF then 0xFE :: writeLE 4 size
  else 0xFF :: writeLE 8 size

def encodeBitcoinVarint (value : Nat) : Bytes :=
  if value < 0xfd then [UInt8.ofNat value]
  else if value ≤ 0xffff then 0xfd :: writeLE 2 value
  else if value ≤ 0xffffffff then 0xfe :: writeLE 4 value
  else 0xff :: writeLE 8 value

def psbtMagic : Bytes := [0x70, 0x73, 0x62, 0x74, 0xFF]

/-- The bytes of a part, or no bytes when the part is not inside. -/
def partWhen (inside : Bool) (part : Except Halt Bytes) : Except Halt Bytes :=
  if inside then part else .ok []

/-! ## The unsigned transaction -/

def hexText (data : Bytes) : String := String.ofList (hexEncode data)

def classifyScriptPubKeyHex (hexStr : List Char) : String × String :=
  let startsWith (text : String) := text.toList.isPrefixOf hexStr
  let endsWith (text : String) := text.toList.isSuffixOf hexStr
  let part (start stop : Nat) := String.ofList ((hexStr.drop start).take (stop - start))
  let rest (start : Nat) := String.ofList (hexStr.drop start)
  if hexStr.isEmpty then ("nonstandard", "")
  else if startsWith "0014" && hexStr.length == 44 then ("witness_v0_keyhash", "0 " ++ rest 4)
  else if startsWith "0020" && hexStr.length == 68 then ("witness_v0_scripthash", "0 " ++ rest 4)
  else if startsWith "5120" && hexStr.length == 68 then ("witness_v1_taproot", "1 " ++ rest 4)
  else if startsWith "76a914" && endsWith "88ac" && hexStr.length == 50 then
    ("pubkeyhash", "OP_DUP OP_HASH160 " ++ part 6 46 ++ " OP_EQUALVERIFY OP_CHECKSIG")
  else if startsWith "a914" && endsWith "87" && hexStr.length == 46 then
    ("scripthash", "OP_HASH160 " ++ part 4 44 ++ " OP_EQUAL")
  else if startsWith "6a" then ("nulldata", "OP_RETURN " ++ rest 2)
  else ("nonstandard", String.ofList hexStr)

structure PsbtVin where
  txid : String
  vout : Nat
  sequence : Nat
  deriving DecidableEq, Repr

structure PsbtVout where
  value : Nat
  n : Nat
  asm : String
  hex : String
  type : String
  deriving DecidableEq, Repr

structure PsbtTx where
  vin : List PsbtVin
  vout : List PsbtVout
  version : Nat
  locktime : Nat
  deriving DecidableEq, Repr

def PsbtTx.empty : PsbtTx := ⟨[], [], 2, 0⟩

def parseInputs (tx : Bytes) : (count pos : Nat) → Except Halt (List PsbtVin × Nat)
  | 0, pos => .ok ([], pos)
  | count + 1, pos => do
    let fixedEnd ← mode.add pos 36
    if fixedEnd > tx.length then .ok ([], pos)
    else do
      let hashEnd ← mode.add pos 32
      let txidBytes ← slice tx pos hashEnd
      let prevVout ← leAt mode tx hashEnd 0 4
      let pos ← mode.add hashEnd 4
      let (scriptLen, adv) ← readCompactSize mode tx pos
      let pos ← mode.add pos adv
      let pos ← mode.add pos scriptLen
      let sequenceEnd ← mode.add pos 4
      if sequenceEnd > tx.length then .ok ([], pos)
      else do
        let sequence ← leAt mode tx pos 0 4
        let (vin, pos) ← parseInputs tx count sequenceEnd
        .ok (⟨hexText txidBytes.reverse, prevVout, sequence⟩ :: vin, pos)

def parseOutputs (tx : Bytes) : (count n pos : Nat) → Except Halt (List PsbtVout × Nat)
  | 0, _, pos => .ok ([], pos)
  | count + 1, n, pos => do
    let valueEnd ← mode.add pos 8
    if valueEnd > tx.length then .ok ([], pos)
    else do
      let value ← leAt mode tx pos 0 8
      let (scriptLen, adv) ← readCompactSize mode tx valueEnd
      let pos ← mode.add valueEnd adv
      let scriptEnd ← mode.add pos scriptLen
      let script ← partWhen (scriptEnd ≤ tx.length) (slice tx pos scriptEnd)
      let (type, asm) := classifyScriptPubKeyHex (hexEncode script)
      let (vout, pos) ← parseOutputs tx count (n + 1) scriptEnd
      .ok (⟨value, n, asm, hexText script, type⟩ :: vout, pos)

def parseRawTxForPsbt (tx : Bytes) : Except Halt PsbtTx :=
  if tx.length < 10 then .ok .empty
  else do
    let version ← leAt mode tx 0 0 4
    let (inCount, adv) ← readCompactSize mode tx 4
    let pos ← mode.add 4 adv
    let (vin, pos) ← parseInputs mode tx inCount pos
    let (outCount, adv) ← readCompactSize mode tx pos
    let pos ← mode.add pos adv
    let (vout, pos) ← parseOutputs mode tx outCount 0 pos
    let locktimeEnd ← mode.add pos 4
    let locktime ← if locktimeEnd ≤ tx.length then leAt mode tx pos 0 4 else .ok 0
    .ok ⟨vin, vout, version, locktime⟩

/-- The walk to the unsigned transaction of the global map, shared by the two functions that
look for it. -/
def findUnsignedTx {α : Type} (psbtBytes : Bytes) (missing : α) (found : Bytes → Except Halt α) :
    (fuel pos : Nat) → Except Halt α
  | 0, _ => .error .outOfFuel
  | fuel + 1, pos =>
    if pos < psbtBytes.length then do
      let (keyLen, advance) ← readCompactSize mode psbtBytes pos
      let pos ← mode.add pos advance
      if keyLen = 0 then .ok missing
      else if pos ≥ psbtBytes.length then .ok missing
      else do
        let keyType ← byteAt psbtBytes pos
        let pos ← mode.add pos keyLen
        if pos ≥ psbtBytes.length then .ok missing
        else do
          let (valLen, advance2) ← readCompactSize mode psbtBytes pos
          let pos ← mode.add pos advance2
          let txEnd ← mode.add pos valLen
          if keyType = 0x00 then
            if txEnd > psbtBytes.length then .ok missing
            else do
              let txBytes ← slice psbtBytes pos txEnd
              found txBytes
          else findUnsignedTx psbtBytes missing found fuel txEnd
    else .ok missing

def extractUnsignedTxHex (fuel : Nat) (psbtBytes : Bytes) : Except Halt String :=
  findUnsignedTx mode psbtBytes "" (fun tx => .ok (hexText tx)) fuel 5

def parsePsbtUnsignedTx (fuel : Nat) (psbtBytes : Bytes) : Except Halt PsbtTx :=
  findUnsignedTx mode psbtBytes .empty (parseRawTxForPsbt mode) fuel 5

/-! ## Maps -/

def skipMap (psbtBytes : Bytes) : (fuel pos : Nat) → Except Halt Nat
  | 0, _ => .error .outOfFuel
  | fuel + 1, pos =>
    if pos < psbtBytes.length then do
      let (keyLen, advance) ← readCompactSize mode psbtBytes pos
      let pos ← mode.add pos advance
      if keyLen = 0 then .ok pos
      else do
        let pos ← mode.add pos keyLen
        if pos ≥ psbtBytes.length then .ok pos
        else do
          let (valLen, advance2) ← readCompactSize mode psbtBytes pos
          let pos ← mode.add pos advance2
          let pos ← mode.add pos valLen
          skipMap psbtBytes fuel pos
    else .ok pos

structure PsbtInput where
  partialSignatures : Finmap fun _ : String => String
  sighash : Option String
  bip32Derivs : Option (String × String)

def PsbtInput.empty : PsbtInput := ⟨∅, none, none⟩

def PsbtInput.record (info : PsbtInput) (keyType : UInt8) (keyData valData : Bytes) :
    Except Halt PsbtInput :=
  if keyType = 0x02 then
    .ok { info with
      partialSignatures := info.partialSignatures.insert (hexText keyData) (hexText valData) }
  else if keyType = 0x03 then
    if valData.length ≥ 4 then do
      let sighash ← leAt mode valData 0 0 4
      .ok { info with sighash := some ("ALL|ANYONECANPAY+" ++ toString sighash) }
    else .ok info
  else if keyType = 0x06 then do
    let fingerprint ← if valData.length ≥ 4 then (slice valData 0 4).map hexText else .ok "00000000"
    .ok { info with bip32Derivs := some (hexText keyData, fingerprint) }
  else .ok info

def parseInputMap (psbtBytes : Bytes) : (fuel pos : Nat) → PsbtInput → Except Halt (PsbtInput × Nat)
  | 0, _, _ => .error .outOfFuel
  | fuel + 1, pos, info =>
    if pos < psbtBytes.length then do
      let (keyLen, advance) ← readCompactSize mode psbtBytes pos
      let pos ← mode.add pos advance
      if keyLen = 0 then .ok (info, pos)
      else if pos ≥ psbtBytes.length then .ok (info, pos)
      else do
        let keyType ← byteAt psbtBytes pos
        let keyEnd ← mode.add pos keyLen
        let keyData ← partWhen (keyLen > 1 && keyEnd ≤ psbtBytes.length) do
          let keyStart ← mode.add pos 1
          slice psbtBytes keyStart keyEnd
        if keyEnd ≥ psbtBytes.length then .ok (info, keyEnd)
        else do
          let (valLen, advance2) ← readCompactSize mode psbtBytes keyEnd
          let pos ← mode.add keyEnd advance2
          let valEnd ← mode.add pos valLen
          let valData ← partWhen (valEnd ≤ psbtBytes.length) (slice psbtBytes pos valEnd)
          let info ← info.record mode keyType keyData valData
          parseInputMap psbtBytes fuel valEnd info
    else .ok (info, pos)

def parseInputMaps (psbtBytes : Bytes) (fuel : Nat) : (numInputs pos : Nat) →
    Except Halt (List PsbtInput)
  | 0, _ => .ok []
  | numInputs + 1, pos => do
    let (info, pos) ← parseInputMap mode psbtBytes fuel pos .empty
    let inputs ← parseInputMaps psbtBytes fuel numInputs pos
    .ok (info :: inputs)

def parsePsbtInputMaps (fuel : Nat) (psbtBytes : Bytes) (numInputs : Nat) :
    Except Halt (List PsbtInput) := do
  let pos ← skipMap mode psbtBytes fuel 5
  parseInputMaps mode psbtBytes fuel numInputs pos

/-! ## Signing -/

/-- A public key of the wallet, and the DER signatures that its secret key makes of digests. -/
structure SignerMaterial where
  pubkeyBytes : Bytes
  signEcdsa : Bytes → Bytes

def copyGlobalMap (originalPsbt : Bytes) : (fuel pos : Nat) → Bytes → Except Halt (Bytes × Nat)
  | 0, _, _ => .error .outOfFuel
  | fuel + 1, pos, result =>
    if pos < originalPsbt.length then do
      let (keyLen, advance) ← readCompactSize mode originalPsbt pos
      if keyLen = 0 then do
        let pos ← mode.add pos advance
        .ok (result ++ [0x00], pos)
      else do
        let keyStart := pos
        let pos ← mode.add pos advance
        let pos ← mode.add pos keyLen
        let (valLen, advance2) ← readCompactSize mode originalPsbt pos
        let pos ← mode.add pos advance2
        let pos ← mode.add pos valLen
        let entry ← slice originalPsbt keyStart pos
        copyGlobalMap originalPsbt fuel pos (result ++ entry)
    else .ok (result, pos)

section Signing

variable (C : Crypto) (signer : SignerMaterial) (originalPsbt : Bytes)

def signedEntries (unsignedTxHex : String) (inputIdx : Nat) : Bytes :=
  let sighashPreimage := unsignedTxHex.toUTF8.data.toList ++ writeLE 4 inputIdx ++ writeLE 4 1
  let der := signer.signEcdsa (C.sha256 (C.sha256 sighashPreimage)) ++ [0x01]
  writeCompactSize (1 + signer.pubkeyBytes.length) ++ [0x02] ++ signer.pubkeyBytes ++
    writeCompactSize der.length ++ der ++ [0x01, 0x03, 0x04] ++ writeLE 4 1

def signInputMaps (fuel : Nat) : (count inputIdx pos : Nat) → Bytes → Except Halt (Bytes × Nat)
  | 0, _, pos, result => .ok (result, pos)
  | count + 1, inputIdx, pos, result => do
    let unsignedTxHex ← extractUnsignedTxHex mode fuel originalPsbt
    let pos ← skipMap mode originalPsbt fuel pos
    signInputMaps fuel count (inputIdx + 1) pos
      (result ++ signedEntries C signer unsignedTxHex inputIdx ++ [0x00])

def clearOutputMaps (fuel : Nat) : (count pos : Nat) → Bytes → Except Halt Bytes
  | 0, _, result => .ok result
  | count + 1, pos, result => do
    let pos ← skipMap mode originalPsbt fuel pos
    clearOutputMaps fuel count pos (result ++ [0x00])

end Signing

def buildSignedPsbt (C : Crypto) (fuel : Nat) (originalPsbt : Bytes)
    (signerMaterial : Option SignerMaterial) : Except Halt (Bytes × Bool) := do
  let tx ← parsePsbtUnsignedTx mode fuel originalPsbt
  match signerMaterial with
  | none => .ok (originalPsbt, false)
  | some signer => do
    let (result, pos) ← copyGlobalMap mode originalPsbt fuel 5 psbtMagic
    let result := if result.getLast? ≠ some 0x00 then result ++ [0x00] else result
    let (result, pos) ← signInputMaps mode C signer originalPsbt fuel tx.vin.length 0 pos result
    let result ← clearOutputMaps mode originalPsbt fuel tx.vout.length pos result
    .ok (result, 0 < tx.vin.length)

end Parsers

end BitInfinity.Proxy
