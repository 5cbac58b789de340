import BitInfinity.Foundation.JsonReader
import BitInfinity.Foundation.Utf8
import BitInfinity.Tools.BtcAmount

/-!
# The total of a snapshot

The total amount of a snapshot is taken from the JSON output of a Bitcoin node.  To keep the
digits as they are written, the tool does not use the parsed number: it searches the text for
the quoted key and takes the literal that follows the next colon.
-/

namespace BitInfinity.Tools

open Foundation Foundation.Json

/-! ## Searching for a key -/

variable {c : Char} {literal : List Char}

variable {needle text ws body : List Char}

def afterFirst (needle : List Char) : List Char → Option (List Char)
  | [] => if needle.isPrefixOf [] then some [] else none
  | c :: text =>
    if needle.isPrefixOf (c :: text) then some ((c :: text).drop needle.length)
    else afterFirst needle text

def isAsciiWhitespace (b : UInt8) : Bool :=
  b == 0x20 || b == 0x09 || b == 0x0a || b == 0x0c || b == 0x0d

def isLiteralChar (ch : Char) : Bool :=
  ch.isDigit || ch == '.' || ch == '-' || ch == '+' || ch == 'e' || ch == 'E'

def scanStringLiteral (out : List Char) (escaped : Bool) : List UInt8 → Option (List Char)
  | [] => none
  | b :: bytes =>
    let ch := byteChar b
    if escaped then scanStringLiteral (out ++ [ch]) false bytes
    else if ch = '\\' then scanStringLiteral out true bytes
    else if ch = '"' then some out
    else scanStringLiteral (out ++ [ch]) false bytes

def extractJsonKeyLiteral (input key : String) : Except String String := do
  let needle := quoted key.toList
  let afterKey ← okOr (afterFirst needle input.toList) ("Missing JSON key: " ++ key)
  let afterColon ← okOr (afterFirst [':'] afterKey) ("Missing ':' after JSON key: " ++ key)
  -- from here on the source goes byte by byte
  match (utf8Bytes afterColon).dropWhile isAsciiWhitespace with
  | [] => .error ("Missing JSON value for key: " ++ key)
  | b :: bytes =>
    if byteChar b = '"' then
      (okOr (scanStringLiteral [] false bytes)
        ("Unterminated string literal for key: " ++ key)).map String.ofList
    else
      let literal := (b :: bytes).takeWhile fun b => isLiteralChar (byteChar b)
      if literal.isEmpty then .error ("Unsupported literal type for key: " ++ key)
      else .ok (String.ofList (literal.map byteChar))

structure TxoutsetSupplySummary where
  height : Option Nat
  txouts : Option Nat
  totalAmountBtc : String
  totalSatoshis : Nat
  deriving DecidableEq, Repr

def summarizeTxoutsetinfo (fromStr : String → Except String Value) (content : String) :
    Except String TxoutsetSupplySummary := do
  let totalAmountBtc ← extractJsonKeyLiteral content "total_amount"
  let totalSatoshis ← parseBtcAmountToSatoshis totalAmountBtc
  let parsed ← fromStr content
  let height := (parsed.get "height".toList).bind Value.asU64
  let txouts := (parsed.get "txouts".toList).bind Value.asU64
  .ok ⟨height, txouts, totalAmountBtc, totalSatoshis⟩

/-! ## The key -/

def occurrences (needle : List Char) : List Char → Nat
  | [] => if needle.isPrefixOf [] then 1 else 0
  | c :: text => (if needle.isPrefixOf (c :: text) then 1 else 0) + occurrences needle text

theorem isPrefixOf_append (needle post : List Char) : needle.isPrefixOf (needle ++ post) = true :=
  List.isPrefixOf_iff_prefix.mpr (List.prefix_append needle post)

theorem one_le_occurrences (needle pre post : List Char) :
    1 ≤ occurrences needle (pre ++ (needle ++ post)) := by
  induction pre with
  | nil =>
    have hfound := isPrefixOf_append needle post
    cases htext : needle ++ post with
    | nil | cons => rw [htext] at hfound; simp [occurrences, hfound]
  | cons c pre ih =>
    rw [List.cons_append, occurrences]
    omega

theorem afterFirst_of_isPrefixOf (h : needle.isPrefixOf text = true) :
    afterFirst needle text = some (text.drop needle.length) := by
  cases text with
  | nil => simp [afterFirst, h]
  | cons => rw [afterFirst, if_pos h]

theorem afterFirst_of_once {pre post : List Char}
    (honce : occurrences needle (pre ++ (needle ++ post)) = 1) :
    afterFirst needle (pre ++ (needle ++ post)) = some post := by
  induction pre with
  | nil =>
    rw [List.nil_append, afterFirst_of_isPrefixOf (isPrefixOf_append needle post)]
    simp
  | cons c pre ih =>
    have hlater := one_le_occurrences needle pre post
    rw [List.cons_append, occurrences] at honce
    rw [List.cons_append, afterFirst]
    split
    · rename_i hfound
      rw [if_pos hfound] at honce
      omega
    · rename_i hfound
      exact ih (by omega)

theorem afterFirst_colon (hws : IsWs ws) (post : List Char) :
    afterFirst [':'] (ws ++ ':' :: post) = some post := by
  induction ws with
  | nil => rfl
  | cons w ws ih =>
    have hw : isWs w = true := hws w (by simp)
    have hne : ':' ≠ w := by
      rintro rfl
      exact absurd hw (by decide)
    rw [List.cons_append, afterFirst, if_neg (by simpa [List.isPrefixOf] using hne)]
    exact ih fun c hc => hws c (by simp [hc])

/-! ## The literal -/

theorem isLiteralChar_eq (c : Char) : isLiteralChar c = isNumberChar c := by
  rw [Bool.eq_iff_iff]
  simp only [isLiteralChar, isNumberChar, Bool.or_eq_true, beq_iff_eq]
  tauto

theorem ascii_of_isLiteralChar (h : isLiteralChar c = true) : c.toNat ≤ 127 := by
  simp only [isLiteralChar, Bool.or_eq_true, beq_iff_eq] at h
  rcases h with ((((hdigit | rfl) | rfl) | rfl) | rfl) | rfl
  · have hrange : 48 ≤ c.toNat ∧ c.toNat ≤ 57 := by
      simpa [Char.isDigit, UInt32.le_iff_toNat_le] using hdigit
    omega
  all_goals decide

theorem isWs_ascii (h : isWs c = true) :
    c.toNat ≤ 127 ∧ isAsciiWhitespace c.val.toUInt8 = true := by
  simp only [isWs, Bool.or_eq_true, beq_iff_eq] at h
  rcases h with ((rfl | rfl) | rfl) | rfl <;> decide

theorem isAsciiWhitespace_eq_false (h : isLiteralChar c = true ∨ c = '"') :
    isAsciiWhitespace c.val.toUInt8 = false := by
  have hall : ∀ n < 128, isLiteralChar (Char.ofNat n) = true ∨ Char.ofNat n = '"' →
      isAsciiWhitespace (Char.ofNat n).val.toUInt8 = false := by decide +kernel
  have hascii : c.toNat ≤ 127 := by
    rcases h with hliteral | rfl
    · exact ascii_of_isLiteralChar hliteral
    · decide
  have hc := hall c.toNat (by omega)
  rw [Char.ofNat_toNat] at hc
  exact hc h

theorem dropWhile_isAsciiWhitespace (hws : IsWs ws)
    (hc : isLiteralChar c = true ∨ c = '"') (text : List Char) :
    (utf8Bytes (ws ++ c :: text)).dropWhile isAsciiWhitespace =
      c.val.toUInt8 :: utf8Bytes text := by
  have hascii : c.toNat ≤ 127 := by
    rcases hc with hliteral | rfl
    · exact ascii_of_isLiteralChar hliteral
    · decide
  have hbytes : ∀ b ∈ utf8Bytes ws, isAsciiWhitespace b = true := by
    rw [utf8Bytes_of_ascii fun c hc => (isWs_ascii (hws c hc)).1]
    intro b hb
    obtain ⟨w, hw, rfl⟩ := List.mem_map.mp hb
    exact (isWs_ascii (hws w hw)).2
  rw [utf8Bytes_append, List.dropWhile_append_of_pos hbytes, utf8Bytes_cons,
    utf8EncodeChar_of_ascii hascii, List.singleton_append, List.dropWhile_cons_of_neg]
  rw [isAsciiWhitespace_eq_false hc]
  exact Bool.false_ne_true

theorem takeWhile_isLiteralChar {literal rest : List Char}
    (hchars : ∀ c ∈ literal, isLiteralChar c = true) {c : Char} (hascii : c.toNat ≤ 127)
    (hc : isLiteralChar c = false) :
    (utf8Bytes (literal ++ c :: rest)).takeWhile (fun b => isLiteralChar (byteChar b)) =
      utf8Bytes literal := by
  have hliteral : ∀ b ∈ utf8Bytes literal, isLiteralChar (byteChar b) = true := by
    rw [utf8Bytes_of_ascii fun c hc => ascii_of_isLiteralChar (hchars c hc)]
    intro b hb
    obtain ⟨d, hd, rfl⟩ := List.mem_map.mp hb
    rw [byteChar_of_ascii (ascii_of_isLiteralChar (hchars d hd))]
    exact hchars d hd
  rw [utf8Bytes_append, List.takeWhile_append_of_pos hliteral, utf8Bytes_cons,
    utf8EncodeChar_of_ascii hascii, List.singleton_append, List.takeWhile_cons_of_neg,
    List.append_nil]
  rw [byteChar_of_ascii hascii, hc]
  exact Bool.false_ne_true

theorem scanStringLiteral_append (hascii : ∀ c ∈ body, c.toNat ≤ 127)
    (hplain : ∀ c ∈ body, c ≠ '"' ∧ c ≠ '\\') (out rest : List Char) :
    scanStringLiteral out false (utf8Bytes (body ++ '"' :: rest)) = some (out ++ body) := by
  induction body generalizing out with
  | nil =>
    rw [List.nil_append, utf8Bytes_cons, utf8EncodeChar_of_ascii (by decide)]
    simp only [List.singleton_append, scanStringLiteral]
    rw [byteChar_of_ascii (by decide), if_neg (by simp), if_neg (by decide), if_pos rfl,
      List.append_nil]
  | cons c body ih =>
    have hc := hascii c (by simp)
    obtain ⟨hquote, hbackslash⟩ := hplain c (by simp)
    rw [List.cons_append, utf8Bytes_cons, utf8EncodeChar_of_ascii hc]
    simp only [List.singleton_append, scanStringLiteral, byteChar_of_ascii hc]
    rw [if_neg (by simp), if_neg hbackslash, if_neg hquote,
      ih (fun d hd => hascii d (by simp [hd])) fun d hd => hplain d (by simp [hd])]
    simp

/-- A number as it stands, or an ASCII string without escapes. -/
inductive IsLiteralOf : List Char → List Char → Prop
  | number {literal : List Char} (hnumber : literal ∈ numberPattern.matches') :
      IsLiteralOf literal literal
  | string {body : List Char} (hascii : ∀ c ∈ body, c.toNat ≤ 127)
      (hplain : ∀ c ∈ body, c ≠ '"' ∧ c ≠ '\\') : IsLiteralOf (quoted body) body

theorem exists_cons_after {after : List Char} (hws : IsWs after)
    (hc : c = ',' ∨ c = '}') (post : List Char) :
    ∃ d rest, after ++ c :: post = d :: rest ∧ d.toNat ≤ 127 ∧ isLiteralChar d = false := by
  cases after with
  | nil =>
    refine ⟨c, post, rfl, ?_⟩
    rcases hc with rfl | rfl <;> decide
  | cons w after =>
    have hw : isWs w = true := hws w (by simp)
    refine ⟨w, _, rfl, (isWs_ascii hw).1, ?_⟩
    by_contra hliteral
    rw [Bool.not_eq_false, isLiteralChar_eq] at hliteral
    rw [(starts_of_isNumberChar hliteral).1] at hw
    cases hw

theorem extractJsonKeyLiteral_eq {o : ObjectText} {m : Member} (hm : m ∈ o.members)
    (hspaced : m.IsSpaced) {text key : String} (htext : text.toList = o.text)
    (hkey : m.key = key.toList) (honce : occurrences (quoted key.toList) text.toList = 1)
    (hliteral : IsLiteralOf m.value literal) :
    extractJsonKeyLiteral text key = .ok (String.ofList literal) := by
  obtain ⟨pre, c, post, ho, hc⟩ := ObjectText.text_of_mem hm
  obtain ⟨d, rest, hafter, hascii, hd⟩ := exists_cons_after hspaced.after_ws hc post
  have hsplit : text.toList = (pre ++ m.before) ++ (quoted key.toList ++
      (m.afterKey ++ ':' :: (m.beforeValue ++ (m.value ++ d :: rest)))) := by
    rw [htext, ho, ← hafter, ← hkey]
    simp [Member.text]
  rw [hsplit] at honce
  unfold extractJsonKeyLiteral
  dsimp only
  rw [hsplit, afterFirst_of_once honce, okOr, ok_bind, afterFirst_colon hspaced.afterKey_ws, okOr,
    ok_bind]
  generalize hvalue : m.value = value at hliteral
  cases hliteral with
  | number hnumber =>
    have hchars : ∀ c ∈ literal, isLiteralChar c = true := fun c hc => by
      rw [isLiteralChar_eq]
      exact isNumberChar_of_number hnumber c hc
    have htake := @takeWhile_isLiteralChar _ rest hchars _ hascii hd
    have hmap := map_byteChar_of_ascii fun c hc => ascii_of_isLiteralChar (hchars c hc)
    obtain ⟨first, literal, rfl⟩ := List.exists_cons_of_ne_nil (number_ne_nil hnumber)
    have hfirst := hchars first (by simp)
    have hfirst' := ascii_of_isLiteralChar hfirst
    rw [List.cons_append, dropWhile_isAsciiWhitespace hspaced.beforeValue_ws (.inl hfirst)]
    rw [List.cons_append, utf8Bytes_cons, utf8EncodeChar_of_ascii hfirst',
      List.singleton_append] at htake
    have hquote : first ≠ '"' := by
      rintro rfl
      exact absurd hfirst (by decide)
    dsimp only
    rw [byteChar_of_ascii hfirst', if_neg hquote, htake, if_neg (by simp), hmap]
  | string hbody hplain =>
    rw [quoted, List.cons_append, List.cons_append,
      dropWhile_isAsciiWhitespace hspaced.beforeValue_ws (.inr rfl)]
    dsimp only
    rw [byteChar_of_ascii (by decide), if_pos rfl, List.append_assoc, List.singleton_append,
      scanStringLiteral_append hbody hplain]
    rfl

/-! ## The total -/

/-- The JSON library reads values nested at most 127 deep when their strings have a meaning and
their numbers are in range. -/
def ReadsJson (fromStr : String → Except String Value) : Prop :=
  ∀ (text : String) (lead body trail : List Char), IsWs lead → IsValue .readable 127 body →
    IsWs trail → text.toList = lead ++ body ++ trail → ∃ v, fromStr text = .ok v

theorem summarizeTxoutsetinfo_eq_ok {fromStr : String → Except String Value} {text : String}
    {n : Nat} {v : Value}
    (hextract : extractJsonKeyLiteral text "total_amount" = .ok (String.ofList literal))
    (hparse : parseBtcAmountToSatoshis (String.ofList literal) = .ok n)
    (hread : fromStr text = .ok v) :
    ∃ summary, summarizeTxoutsetinfo fromStr text = .ok summary ∧ summary.totalSatoshis = n := by
  rw [summarizeTxoutsetinfo, hextract, ok_bind, hparse, ok_bind, hread, ok_bind]
  exact ⟨_, rfl, rfl⟩

theorem parse_of_isDecimal {whole frac : List Char} (hne : text ≠ [])
    (h : IsDecimal text whole frac) (hlength : frac.length ≤ 8)
    (hfits : decimalValue whole frac * 10 ^ 8 < 2 ^ 128) :
    parseBtcAmountToSatoshis (String.ofList text) = .ok (satoshisOfParts whole frac) := by
  rw [parseBtcAmountToSatoshis_eq_ok, String.toList_ofList, trim_of_isDecimal h,
    stripPlus_eq_self h]
  refine ⟨hne, whole, frac, h, hlength, rfl, ?_⟩
  rw [← cast_satoshisOfParts hlength] at hfits
  exact_mod_cast hfits

/-- The literal of the total is taken as it is written, and counts exactly. -/
theorem total_amount_agrees {fromStr : String → Except String Value} (hjson : ReadsJson fromStr)
    {o : ObjectText} {d : Nat} (ho : o.IsObject .json d) {text : String}
    (htext : text.toList = o.text)
    (honce : occurrences (quoted "total_amount".toList) text.toList = 1) {m : Member}
    (hm : m ∈ o.members) (hkey : m.key = "total_amount".toList) {literal : List Char}
    (hliteral : IsLiteralOf m.value literal) :
    extractJsonKeyLiteral text "total_amount" = .ok (String.ofList literal) ∧
      ∀ whole frac, literal ≠ [] → IsDecimal literal whole frac → frac.length ≤ 8 →
        decimalValue whole frac * 10 ^ 8 < 2 ^ 128 → o.IsObject .readable 126 →
        ∃ summary, summarizeTxoutsetinfo fromStr text = .ok summary ∧
          (summary.totalSatoshis : ℚ) = decimalValue whole frac * 10 ^ 8 := by
  have hextract := extractJsonKeyLiteral_eq hm (ho.spaced m hm) htext hkey honce hliteral
  refine ⟨hextract, fun whole frac hne hdecimal hlength hfits hreadable => ?_⟩
  have hbody : IsValue .readable 127 o.body :=
    .object (List.ne_nil_of_mem hm) hreadable.spaced hreadable.keys hreadable.values
  obtain ⟨v, hread⟩ := hjson text _ _ _ hreadable.lead_ws hbody hreadable.trail_ws htext
  have hparse := parse_of_isDecimal hne hdecimal hlength hfits
  obtain ⟨summary, hsummary, htotal⟩ := summarizeTxoutsetinfo_eq_ok hextract hparse hread
  exact ⟨summary, hsummary, by rw [htotal, cast_satoshisOfParts hlength]⟩

def readJson (text : String) : Except String Value := okOr (read 127 text.toList) "invalid JSON"

theorem readsJson_readJson : ReadsJson readJson := by
  intro text lead body trail hlead hbody htrail htext
  obtain ⟨v, hread⟩ := Option.isSome_iff_exists.mp (isSome_read hlead hbody htrail)
  exact ⟨v, by rw [readJson, htext, hread, okOr]⟩

theorem isStringBody_of_all
    (h : body.all (fun c => c != '"' && c != '\\' && decide (0x20 ≤ c.toNat)) = true) :
    IsStringBody body := by
  induction body with
  | nil => exact .nil
  | cons c body ih =>
    simp only [List.all_cons, Bool.and_eq_true, bne_iff_ne, decide_eq_true_eq] at h
    obtain ⟨⟨⟨hquote, hbackslash⟩, hcontrol⟩, hbody⟩ := h
    exact .plain hquote hbackslash hcontrol (ih (by simpa using hbody))

def totalMember (literal : List Char) : Member :=
  ⟨[' '], "total_amount".toList, [], [' '], literal, []⟩

def txoutsetinfo (other : Member) (literal : List Char) : ObjectText :=
  ⟨[], [other, totalMember literal], ['\n']⟩

theorem totalMember_mem (other : Member) (literal : List Char) :
    totalMember literal ∈ (txoutsetinfo other literal).members :=
  List.mem_cons_of_mem other List.mem_cons_self

theorem isObject_txoutsetinfo {L : Lexicon} {d : Nat} {other : Member}
    (hstring : ∀ body, IsStringBody body → (unescape body).isSome = true → L.string body)
    (hspaced : other.IsSpaced) (hkey : L.string other.key) (hother : IsValue L d other.value)
    (hliteral : L.number literal) : (txoutsetinfo other literal).IsObject L d where
  lead_ws := (by decide : IsWs [])
  trail_ws := (by decide : IsWs ['\n'])
  spaced := by
    have hnone : IsWs [] := by decide
    have hblank : IsWs [' '] := by decide
    simp only [txoutsetinfo, List.forall_mem_cons]
    exact ⟨hspaced, ⟨hblank, hnone, hblank, hnone⟩, by simp⟩
  keys := by
    simp only [txoutsetinfo, List.forall_mem_cons]
    have htotal : L.string "total_amount".toList :=
      hstring _ (isStringBody_of_all (by decide)) (by decide)
    exact ⟨hkey, htotal, by simp⟩
  values := by
    simp only [txoutsetinfo, List.forall_mem_cons]
    exact ⟨hother, .number hliteral, by simp⟩

def heightMember : Member := ⟨[], "height".toList, [' '], [], "840000".toList, []⟩

theorem total_amount_agrees_sample : ∃ summary, summarizeTxoutsetinfo readJson
        (String.ofList (txoutsetinfo heightMember "19687500.00000001".toList).text) =
        .ok summary ∧
      (summary.totalSatoshis : ℚ) = decimalValue "19687500".toList "00000001".toList * 10 ^ 8 := by
  have hheight : Lexicon.readable.number "840000".toList :=
    ⟨(RegularExpression.rmatch_iff_matches' _ _).mp (by decide +kernel), by decide +kernel⟩
  have htotal : Lexicon.readable.number "19687500.00000001".toList :=
    ⟨(RegularExpression.rmatch_iff_matches' _ _).mp (by decide +kernel), by decide +kernel⟩
  have hspaced : heightMember.IsSpaced := ⟨by decide, by decide, by decide, by decide⟩
  have hkey : IsStringBody heightMember.key := isStringBody_of_all (by decide)
  have hdecimal : IsDecimal "19687500.00000001".toList "19687500".toList "00000001".toList :=
    ⟨.inr (by decide), List.all_eq_true.mp (by decide), List.all_eq_true.mp (by decide)⟩
  have hvalue : decimalValue "19687500".toList "00000001".toList * 10 ^ 8 < 2 ^ 128 := by
    rw [← cast_satoshisOfParts (by decide)]
    exact_mod_cast (by decide +kernel :
      satoshisOfParts "19687500".toList "00000001".toList < 2 ^ 128)
  have hobject : (txoutsetinfo heightMember "19687500.00000001".toList).IsObject .json 0 :=
    isObject_txoutsetinfo (fun _ h _ => h) hspaced hkey (.number hheight.1) htotal.1
  have hreadable : (txoutsetinfo heightMember "19687500.00000001".toList).IsObject .readable 126 :=
    isObject_txoutsetinfo (fun _ h h' => ⟨h, h'⟩) hspaced ⟨hkey, by decide⟩ (.number hheight) htotal
  exact (total_amount_agrees readsJson_readJson hobject String.toList_ofList (by decide +kernel)
    (totalMember_mem _ _) rfl (.number htotal.1)).2 _ _ (by decide) hdecimal (by decide) hvalue
    hreadable

theorem isValue_nested (L : Lexicon) (n : Nat) :
    IsValue L (n + 1) (List.replicate (n + 1) '[' ++ List.replicate (n + 1) ']') := by
  have hnone : IsWs [] := by decide
  induction n with
  | zero => exact .emptyArray hnone
  | succ n ih =>
    have harray := @IsValue.array L (n + 1) [⟨[], _, []⟩] (by simp)
      (by simpa using ⟨hnone, hnone⟩) (by simpa using ih)
    rw [List.replicate_succ, List.replicate_succ' (n := n + 1) (a := ']')]
    simpa [commaSeparated_singleton, Element.text] using harray

def nestedMember : Member :=
  ⟨[], "nested".toList, [], [], List.replicate 127 '[' ++ List.replicate 127 ']', []⟩

/-- A valid text that the JSON library refuses because it is nested 128 deep. -/
theorem deep_text_refused : (txoutsetinfo nestedMember ['1']).IsObject .json 127 ∧
      occurrences (quoted "total_amount".toList) (txoutsetinfo nestedMember ['1']).text = 1 ∧
      extractJsonKeyLiteral (String.ofList (txoutsetinfo nestedMember ['1']).text)
        "total_amount" = .ok "1" ∧
      IsDecimal ['1'] ['1'] [] ∧
      ∃ e, summarizeTxoutsetinfo readJson
        (String.ofList (txoutsetinfo nestedMember ['1']).text) = .error e := by
  have hone : ['1'] ∈ numberPattern.matches' :=
    (RegularExpression.rmatch_iff_matches' _ _).mp (by decide)
  have hobject : (txoutsetinfo nestedMember ['1']).IsObject .json 127 :=
    isObject_txoutsetinfo (fun _ h _ => h) ⟨by decide, by decide, by decide, by decide⟩
      (isStringBody_of_all (by decide)) (isValue_nested _ 126) hone
  have honce : occurrences (quoted "total_amount".toList)
      (txoutsetinfo nestedMember ['1']).text = 1 := by decide +kernel
  have hread : (read 127 (txoutsetinfo nestedMember ['1']).text).isNone = true := by
    decide +kernel
  have hparse : parseBtcAmountToSatoshis (String.ofList ['1']) = .ok 100000000 := by
    decide +kernel
  have hmem := totalMember_mem nestedMember ['1']
  -- from here on the text must not be unfolded
  generalize txoutsetinfo nestedMember ['1'] = o at hobject honce hread hmem ⊢
  have hextract : extractJsonKeyLiteral (String.ofList o.text) "total_amount" =
      .ok (String.ofList ['1']) :=
    extractJsonKeyLiteral_eq hmem (hobject.spaced _ hmem) String.toList_ofList rfl
      ((congrArg (occurrences _) String.toList_ofList).trans honce) (.number hone)
  refine ⟨hobject, honce, hextract, ⟨.inl ⟨rfl, rfl⟩, List.all_eq_true.mp (by decide), by simp⟩,
    "invalid JSON", ?_⟩
  rw [summarizeTxoutsetinfo, hextract, ok_bind, hparse, ok_bind, readJson, String.toList_ofList,
    Option.isNone_iff_eq_none.mp hread]
  rfl

end BitInfinity.Tools
