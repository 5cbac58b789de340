import BitInfinity.Foundation.Decimal
import BitInfinity.Foundation.Languages

/-!
# JSON

The grammar of JSON texts, the values they stand for, and a reader with a bound on the nesting.
The grammar has the tokens as parameters, so that the texts that a reader with narrower tokens
accepts are texts of the same grammar.
-/

namespace BitInfinity.Foundation.Json

/-! ## Tokens -/

def isWs (c : Char) : Bool := c == ' ' || c == '\t' || c == '\n' || c == '\r'

def IsWs (text : List Char) : Prop := ∀ c ∈ text, isWs c = true

instance (text : List Char) : Decidable (IsWs text) :=
  decidable_of_iff (text.all isWs = true) List.all_eq_true

def digit : RegularExpression Char := oneOf ['0', '1', '2', '3', '4', '5', '6', '7', '8', '9']

def digits : RegularExpression Char := digit * digit.star

def optional (r : RegularExpression Char) : RegularExpression Char := 1 + r

def numberPattern : RegularExpression Char :=
  optional (.char '-') *
    (.char '0' + oneOf ['1', '2', '3', '4', '5', '6', '7', '8', '9'] * digit.star) *
    optional (.char '.' * digits) *
    optional (oneOf ['e', 'E'] * optional (oneOf ['+', '-']) * digits)

def hexValue (c : Char) : Option Nat :=
  if c.isDigit then some (c.toNat - '0'.toNat)
  else if 'a' ≤ c ∧ c ≤ 'f' then some (c.toNat - 'a'.toNat + 10)
  else if 'A' ≤ c ∧ c ≤ 'F' then some (c.toNat - 'A'.toNat + 10)
  else none

def escapeValue (c : Char) : Option Char :=
  match c with
  | '"' => some '"'
  | '\\' => some '\\'
  | '/' => some '/'
  | 'b' => some (Char.ofNat 0x08)
  | 'f' => some (Char.ofNat 0x0c)
  | 'n' => some '\n'
  | 'r' => some '\r'
  | 't' => some '\t'
  | _ => none

/-- What may stand between the quotes of a string. -/
inductive IsStringBody : List Char → Prop
  | nil : IsStringBody []
  | plain {c rest} (hquote : c ≠ '"') (hbackslash : c ≠ '\\')
      (hcontrol : 0x20 ≤ c.toNat) (hrest : IsStringBody rest) : IsStringBody (c :: rest)
  | escape {c rest} (hc : (escapeValue c).isSome)
      (hrest : IsStringBody rest) : IsStringBody ('\\' :: c :: rest)
  | unicode {hex rest} (hlength : hex.length = 4)
      (hhex : ∀ c ∈ hex, (hexValue c).isSome) (hrest : IsStringBody rest) :
      IsStringBody ('\\' :: 'u' :: hex ++ rest)

/-! ## Texts -/

structure Lexicon where
  number : List Char → Prop
  string : List Char → Prop

def Lexicon.json : Lexicon where
  number literal := literal ∈ numberPattern.matches'
  string := IsStringBody

structure Element where
  before : List Char
  value : List Char
  after : List Char
  deriving DecidableEq, Repr

def Element.text (e : Element) : List Char := e.before ++ e.value ++ e.after

structure Member where
  before : List Char
  key : List Char
  afterKey : List Char
  beforeValue : List Char
  value : List Char
  after : List Char
  deriving DecidableEq, Repr

def quoted (body : List Char) : List Char := '"' :: body ++ ['"']

def Member.text (m : Member) : List Char :=
  m.before ++ quoted m.key ++ m.afterKey ++ ':' :: m.beforeValue ++ m.value ++ m.after

def commaSeparated (pieces : List (List Char)) : List Char := [','].intercalate pieces

theorem commaSeparated_singleton (piece : List Char) : commaSeparated [piece] = piece :=
  List.intercalate_singleton

theorem commaSeparated_cons_cons (piece piece' : List Char) (pieces : List (List Char)) :
    commaSeparated (piece :: piece' :: pieces) =
      piece ++ ',' :: commaSeparated (piece' :: pieces) := by
  rfl

theorem commaSeparated_cons (piece : List Char) (pieces : List (List Char)) :
    ∃ post, commaSeparated (piece :: pieces) = piece ++ post ∧
      (post = [] ∨ ∃ post', post = ',' :: post') := by
  cases pieces with
  | nil => exact ⟨[], by rw [commaSeparated_singleton, List.append_nil], .inl rfl⟩
  | cons piece' pieces => exact ⟨_, commaSeparated_cons_cons piece piece' pieces, .inr ⟨_, rfl⟩⟩

theorem commaSeparated_append_cons (before after : List (List Char)) (piece : List Char) :
    ∃ pre post, commaSeparated (before ++ piece :: after) = pre ++ piece ++ post ∧
      (post = [] ∨ ∃ post', post = ',' :: post') := by
  induction before with
  | nil =>
    obtain ⟨post, hpost, hcomma⟩ := commaSeparated_cons piece after
    exact ⟨[], post, hpost, hcomma⟩
  | cons first before ih =>
    obtain ⟨pre, post, hpost, hcomma⟩ := ih
    obtain ⟨_, _, hpieces⟩ := List.exists_cons_of_ne_nil
      (List.append_ne_nil_of_right_ne_nil before (List.cons_ne_nil piece after))
    refine ⟨first ++ ',' :: pre, post, ?_, hcomma⟩
    rw [List.cons_append, hpieces, commaSeparated_cons_cons, ← hpieces, hpost]
    simp

structure Element.IsSpaced (e : Element) : Prop where
  before_ws : IsWs e.before
  after_ws : IsWs e.after

structure Member.IsSpaced (m : Member) : Prop where
  before_ws : IsWs m.before
  afterKey_ws : IsWs m.afterKey
  beforeValue_ws : IsWs m.beforeValue
  after_ws : IsWs m.after

/-- The texts of values with containers nested at most as deep as given. -/
inductive IsValue (L : Lexicon) : Nat → List Char → Prop
  | nullWord {d} : IsValue L d "null".toList
  | trueWord {d} : IsValue L d "true".toList
  | falseWord {d} : IsValue L d "false".toList
  | number {d literal} (hnumber : L.number literal) : IsValue L d literal
  | string {d body} (hstring : L.string body) : IsValue L d (quoted body)
  | emptyArray {d ws} (hws : IsWs ws) : IsValue L (d + 1) ('[' :: ws ++ [']'])
  | array {d elements} (hne : elements ≠ [])
      (hspaced : ∀ e ∈ elements, e.IsSpaced) (hvalues : ∀ e ∈ elements, IsValue L d e.value) :
      IsValue L (d + 1) ('[' :: commaSeparated (elements.map Element.text) ++ [']'])
  | emptyObject {d ws} (hws : IsWs ws) : IsValue L (d + 1) ('{' :: ws ++ ['}'])
  | object {d members} (hne : members ≠ [])
      (hspaced : ∀ m ∈ members, m.IsSpaced) (hkeys : ∀ m ∈ members, L.string m.key)
      (hvalues : ∀ m ∈ members, IsValue L d m.value) :
      IsValue L (d + 1) ('{' :: commaSeparated (members.map Member.text) ++ ['}'])

/-- The members of an object, and the white space around it. -/
structure ObjectText where
  lead : List Char
  members : List Member
  trail : List Char
  deriving DecidableEq, Repr

namespace ObjectText

def body (o : ObjectText) : List Char := '{' :: commaSeparated (o.members.map Member.text) ++ ['}']

def text (o : ObjectText) : List Char := o.lead ++ o.body ++ o.trail

structure IsObject (L : Lexicon) (d : Nat) (o : ObjectText) : Prop where
  lead_ws : IsWs o.lead
  trail_ws : IsWs o.trail
  spaced : ∀ m ∈ o.members, m.IsSpaced
  keys : ∀ m ∈ o.members, L.string m.key
  values : ∀ m ∈ o.members, IsValue L d m.value

theorem text_of_mem {o : ObjectText} {m : Member} (hm : m ∈ o.members) :
    ∃ pre c post, o.text = pre ++ m.text ++ c :: post ∧ (c = ',' ∨ c = '}') := by
  obtain ⟨before, after, hmembers⟩ := List.append_of_mem hm
  obtain ⟨pre, post, hpost, hcomma⟩ :=
    commaSeparated_append_cons (before.map Member.text) (after.map Member.text) m.text
  have htext : o.text = (o.lead ++ '{' :: pre) ++ m.text ++ (post ++ '}' :: o.trail) := by
    simp [text, body, hmembers, hpost]
  rcases hcomma with rfl | ⟨post', rfl⟩
  · exact ⟨_, _, _, htext, .inr rfl⟩
  · exact ⟨_, _, _, htext, .inl rfl⟩

end ObjectText

/-! ## Values -/

inductive Value
  | null
  | bool (b : Bool)
  | number (literal : List Char)
  | string (text : List Char)
  | array (elements : List Value)
  | object (members : List (List Char × Value))

namespace Value

def get (v : Value) (key : List Char) : Option Value :=
  match v with
  | .object members => (members.reverse.find? fun member => member.1 == key).map Prod.snd
  | _ => none

def asU64 : Value → Option Nat
  | .number literal =>
    if literal.all Char.isDigit && decide (Nat.ofDigitChars 10 literal 0 < 2 ^ 64) then
      some (Nat.ofDigitChars 10 literal 0)
    else none
  | _ => none

def asStr : Value → Option (List Char)
  | .string text => some text
  | _ => none

def asArray : Value → Option (List Value)
  | .array elements => some elements
  | _ => none

def asObject : Value → Option (List (List Char × Value))
  | .object members => some members
  | _ => none

/-- The object with one value for the key, in place of those it had. -/
def insert (v : Value) (key : List Char) (value : Value) : Value :=
  match v with
  | .object members => .object (members.filter (fun member => member.1 != key) ++ [(key, value)])
  | v => v

@[simp] theorem get_insert_self (members : List (List Char × Value)) (key : List Char)
    (value : Value) : ((Value.object members).insert key value).get key = some value := by
  simp [insert, get]

theorem get_insert_of_ne (members : List (List Char × Value)) {key other : List Char}
    (value : Value) (h : other ≠ key) :
    ((Value.object members).insert key value).get other = (Value.object members).get other := by
  have hfind : ∀ xs : List (List Char × Value),
      (xs.filter fun member => member.1 != key).find? (fun member => member.1 == other) =
        xs.find? fun member => member.1 == other := by
    intro xs
    rw [List.find?_filter]
    congr 1
    funext member
    by_cases hother : member.1 = other
    · simp [hother, h]
    · simp [hother]
  simp only [insert, get, List.reverse_append, List.reverse_cons, List.reverse_nil,
    List.nil_append, List.cons_append, ← List.filter_reverse]
  rw [List.find?_cons_of_neg (by simpa using Ne.symm h), hfind]

end Value

/-! ## Reading tokens -/

def isNumberChar (c : Char) : Bool :=
  c.isDigit || c == '-' || c == '+' || c == '.' || c == 'e' || c == 'E'

def exponentValue (text : List Char) : Int :=
  match text with
  | '-' :: digits => -(Nat.ofDigitChars 10 digits 0 : Int)
  | '+' :: digits => Nat.ofDigitChars 10 digits 0
  | digits => Nat.ofDigitChars 10 digits 0

def magnitude (literal : List Char) : ℚ :=
  let isExponent := fun c => c == 'e' || c == 'E'
  let mantissa := (literal.takeWhile (!isExponent ·)).dropWhile (· == '-')
  let exponent := (literal.dropWhile (!isExponent ·)).drop 1
  decimalValue (mantissa.takeWhile (· != '.')) ((mantissa.dropWhile (· != '.')).drop 1) *
    10 ^ exponentValue exponent

def inRange (literal : List Char) : Bool := decide (magnitude literal ≤ 10 ^ 308)

def hexNumber (hex : List Char) : Option Nat :=
  hex.foldlM (fun n c => (hexValue c).map (16 * n + ·)) 0

/-- The text of a string with its escapes replaced.  Halves of surrogate pairs have no meaning of
their own. -/
def unescape : List Char → Option (List Char)
  | [] => some []
  | '\\' :: 'u' :: a :: b :: c :: d :: '\\' :: 'u' :: a' :: b' :: c' :: d' :: rest =>
    match hexNumber [a, b, c, d], hexNumber [a', b', c', d'] with
    | some high, some low =>
      if 0xd800 ≤ high ∧ high ≤ 0xdbff then
        if 0xdc00 ≤ low ∧ low ≤ 0xdfff then
          (unescape rest).map (Char.ofNat (0x10000 + (high - 0xd800) * 0x400 + (low - 0xdc00)) :: ·)
        else none
      else if 0xdc00 ≤ high ∧ high ≤ 0xdfff then none
      else
        (unescape ('\\' :: 'u' :: a' :: b' :: c' :: d' :: rest)).map (Char.ofNat high :: ·)
    | _, _ => none
  | '\\' :: 'u' :: a :: b :: c :: d :: rest =>
    match hexNumber [a, b, c, d] with
    | some n =>
      if 0xd800 ≤ n ∧ n ≤ 0xdfff then none
      else (unescape rest).map (Char.ofNat n :: ·)
    | none => none
  | '\\' :: c :: rest => (escapeValue c).bind fun e => (unescape rest).map (e :: ·)
  | c :: rest => if c.toNat < 0x20 then none else (unescape rest).map (c :: ·)

def scanString : List Char → Option (List Char × List Char)
  | [] => none
  | '"' :: rest => some ([], rest)
  | '\\' :: c :: rest => (scanString rest).map fun (body, rest) => ('\\' :: c :: body, rest)
  | c :: rest => (scanString rest).map fun (body, rest) => (c :: body, rest)

def readString (text : List Char) : Option (List Char × List Char) := do
  let (body, rest) ← scanString text
  let text ← unescape body
  some (text, rest)

def readNumber (text : List Char) : Option (Value × List Char) :=
  let literal := text.takeWhile isNumberChar
  if numberPattern.rmatch literal && inRange literal then
    some (.number literal, text.dropWhile isNumberChar)
  else none

def readWord (word : List Char) (v : Value) (text : List Char) : Option (Value × List Char) :=
  if word.isPrefixOf text then some (v, text.drop word.length) else none

def skipWs (text : List Char) : List Char := text.dropWhile isWs

/-! ## Reading values -/

mutual

def readValue : Nat → Nat → List Char → Option (Value × List Char)
  | 0, _, _ => none
  | _ + 1, _, [] => none
  | fuel + 1, depth, c :: rest =>
    if c = '[' then
      match depth with
      | 0 => none
      | depth + 1 =>
        if (skipWs rest).head? = some ']' then some (.array [], (skipWs rest).tail)
        else (readElements fuel depth rest).map fun (vs, rest) => (.array vs, rest)
    else if c = '{' then
      match depth with
      | 0 => none
      | depth + 1 =>
        if (skipWs rest).head? = some '}' then some (.object [], (skipWs rest).tail)
        else (readMembers fuel depth rest).map fun (ms, rest) => (.object ms, rest)
    else if c = '"' then (readString rest).map fun (text, rest) => (.string text, rest)
    else if c = 'n' then readWord "ull".toList .null rest
    else if c = 't' then readWord "rue".toList (.bool true) rest
    else if c = 'f' then readWord "alse".toList (.bool false) rest
    else readNumber (c :: rest)

def readElements : Nat → Nat → List Char → Option (List Value × List Char)
  | 0, _, _ => none
  | fuel + 1, depth, text => do
    let (v, rest) ← readValue fuel depth (skipWs text)
    match skipWs rest with
    | ',' :: rest => (readElements fuel depth rest).map fun (vs, rest) => (v :: vs, rest)
    | ']' :: rest => some ([v], rest)
    | _ => none

def readMembers : Nat → Nat → List Char → Option (List (List Char × Value) × List Char)
  | 0, _, _ => none
  | fuel + 1, depth, text =>
    match skipWs text with
    | '"' :: rest => do
      let (key, rest) ← readString rest
      match skipWs rest with
      | ':' :: rest => do
        let (v, rest) ← readValue fuel depth (skipWs rest)
        match skipWs rest with
        | ',' :: rest => (readMembers fuel depth rest).map fun (ms, rest) => ((key, v) :: ms, rest)
        | '}' :: rest => some ([(key, v)], rest)
        | _ => none
      | _ => none
    | _ => none

end

def read (depth : Nat) (text : List Char) : Option Value := do
  let (v, rest) ← readValue (text.length + 1) depth (skipWs text)
  if skipWs rest = [] then some v else none

end BitInfinity.Foundation.Json
