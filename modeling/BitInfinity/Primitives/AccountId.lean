import BitInfinity.Primitives.Crypto

/-!
# Account identifiers

Account ids are texts.  `validate` is the parser of the forked account id crate, and
`getAccountType` the classification that decides who may act for an account.
-/

namespace BitInfinity

abbrev AccountId := String

inductive AccountType
  | namedAccount
  | nearImplicitAccount
  | ethImplicitAccount
  | nearDeterministicAccount
  | btcImplicitAccount
  deriving DecidableEq, Repr

inductive ParseErrorKind
  | tooShort
  | tooLong
  | redundantSeparator
  | invalidChar
  deriving DecidableEq, Repr

structure ParseAccountError where
  kind : ParseErrorKind
  char : Option (Nat × Char)
  deriving DecidableEq, Repr

namespace AccountId

def minLen : Nat := 2
def maxLen : Nat := 64

def startsWith (id : AccountId) (pre : String) : Bool := pre.toList.isPrefixOf id.toList

theorem startsWith_singleton_iff {id : AccountId} {c : Char} :
    startsWith id (String.ofList [c]) = true ↔ id.toList.head? = some c := by
  rw [startsWith, String.toList_ofList]
  cases id.toList with
  | nil => simp
  | cons =>
    rw [List.isPrefixOf_cons_cons, List.isPrefixOf_nil_left, Bool.and_true, beq_iff_eq,
      List.head?_cons, Option.some_inj, eq_comm]

def isLowerAlphanumeric (c : Char) : Bool := ('a' ≤ c && c ≤ 'z') || ('0' ≤ c && c ≤ '9')

def isEthImplicit (id : AccountId) : Bool :=
  id.utf8ByteSize == 42 && startsWith id "0x" && (id.toList.drop 2).all isLowerHex

def isNearDeterministic (id : AccountId) : Bool :=
  id.utf8ByteSize == 42 && startsWith id "0s" && (id.toList.drop 2).all isLowerHex

def isNearImplicit (id : AccountId) : Bool := id.utf8ByteSize == 64 && id.toList.all isLowerHex

def isLegacyLowercasedBitcoin (id : AccountId) : Bool :=
  let len := id.utf8ByteSize
  if startsWith id "bc1q" && (42 ≤ len && len ≤ 62) then
    id.toList.all isLowerAlphanumeric
  else if startsWith id "bc1p" && len == 62 then
    id.toList.all isLowerAlphanumeric
  else if startsWith id "1" && (25 ≤ len && len ≤ 34) then
    id.toList.all isLowerAlphanumeric
  else if startsWith id "3" && (33 ≤ len && len ≤ 34) then
    id.toList.all isLowerAlphanumeric
  else
    false

def hasValidBase58checkAddress (C : Crypto) (id : AccountId) : Bool :=
  let len := id.utf8ByteSize
  if !(26 ≤ len && len ≤ 35) then
    false
  else
    match C.bs58Decode id with
    | none => false
    | some decoded =>
      if decoded.length != 25 then
        false
      else
        let payload := decoded.take 21
        let checksum := decoded.drop 21
        if checksum != (C.sha256 (C.sha256 payload)).take 4 then
          false
        else
          match payload with
          | version :: _ => version ∈ ([0x00, 0x05, 0x6f, 0xc4] : List UInt8)
          | [] => false

def hasValidSegwitAddress (C : Crypto) (id : AccountId) : Bool :=
  match C.segwitDecode id with
  | some hrp => hrp ∈ ["bc", "tb", "bcrt"]
  | none => false

def isBitcoinImplicit (C : Crypto) (id : AccountId) : Bool :=
  hasValidBase58checkAddress C id || hasValidSegwitAddress C id || isLegacyLowercasedBitcoin id

def getAccountType (C : Crypto) (id : AccountId) : AccountType :=
  if isBitcoinImplicit C id then .btcImplicitAccount
  else if isEthImplicit id then .ethImplicitAccount
  else if isNearImplicit id then .nearImplicitAccount
  else if isNearDeterministic id then .nearDeterministicAccount
  else .namedAccount

def isSystem (id : AccountId) : Bool := id == "system"

def isTopLevel (id : AccountId) : Bool := !isSystem id && !id.toList.contains '.'

def stripSuffix (text suffix : List Char) : Option (List Char) :=
  if suffix.isSuffixOf text then some (text.take (text.length - suffix.length)) else none

def isSubAccountOf (id parent : AccountId) : Bool :=
  match (stripSuffix id.toList parent.toList).bind (stripSuffix · ['.']) with
  | some s => !s.contains '.'
  | none => false

/-- The loop of `validate` from position `i` on; `last` is the character before it. -/
def validateChars : List Char → Nat → Bool → Option (Nat × Char) → Except ParseAccountError Unit
  | [], _, lastIsSeparator, last =>
    if lastIsSeparator then .error ⟨.redundantSeparator, last⟩ else .ok ()
  | c :: cs, i, lastIsSeparator, _ =>
    if isLowerAlphanumeric c then
      validateChars cs (i + 1) false (some (i, c))
    else if c == '-' || c == '_' || c == '.' then
      if lastIsSeparator then .error ⟨.redundantSeparator, some (i, c)⟩
      else validateChars cs (i + 1) true (some (i, c))
    else
      .error ⟨.invalidChar, some (i, c)⟩

def validate (C : Crypto) (id : AccountId) : Except ParseAccountError Unit :=
  if id.utf8ByteSize < minLen then .error ⟨.tooShort, none⟩
  else if maxLen < id.utf8ByteSize then .error ⟨.tooLong, none⟩
  else if isBitcoinImplicit C id then .ok ()
  else validateChars id.toList 0 true none

end AccountId

/-- Whether a transfer may create the account, given which kinds are switched on. -/
def accountIsImplicit (C : Crypto) (id : AccountId) (ethImplicitAccountsEnabled
    deterministicAccountIdsEnabled : Bool) : Bool :=
  match AccountId.getAccountType C id with
  | .namedAccount => false
  | .nearImplicitAccount => true
  | .ethImplicitAccount => ethImplicitAccountsEnabled
  | .nearDeterministicAccount => deterministicAccountIdsEnabled
  | .btcImplicitAccount => true

def isBitcoinAddress (C : Crypto) (id : AccountId) : Bool :=
  AccountId.getAccountType C id == .btcImplicitAccount

theorem isBitcoinAddress_iff {C : Crypto} {id : AccountId} :
    isBitcoinAddress C id = true ↔ AccountId.getAccountType C id = .btcImplicitAccount := by
  simp [isBitcoinAddress]

end BitInfinity
