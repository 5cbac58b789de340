import BitInfinity.Foundation.Json

/-!
# Reading JSON back

Every text of the grammar whose strings have a meaning and whose numbers are in range is read
when it is not nested deeper than the reader's bound.
-/

namespace BitInfinity.Foundation.Json

variable {ws literal rest text body : List Char} {c : Char}

def Lexicon.readable : Lexicon where
  number literal := literal ∈ numberPattern.matches' ∧ inRange literal = true
  string body := IsStringBody body ∧ (unescape body).isSome = true

/-! ## White space -/

theorem skipWs_append (hws : IsWs ws) (text : List Char) : skipWs (ws ++ text) = skipWs text :=
  List.dropWhile_append_of_pos hws

theorem skipWs_cons (hc : isWs c = false) (text : List Char) : skipWs (c :: text) = c :: text := by
  simp [skipWs, hc]

theorem skipWs_append_cons (hws : IsWs ws) (hc : isWs c = false) (text : List Char) :
    skipWs (ws ++ c :: text) = c :: text := by
  rw [skipWs_append hws, skipWs_cons hc]

theorem skipWs_eq_nil (hws : IsWs ws) : skipWs ws = [] := by
  rw [← List.append_nil ws, skipWs_append hws]
  rfl

/-! ## Numbers -/

theorem overLetters_numberPattern : OverLetters (fun c => isNumberChar c = true) numberPattern := by
  have hdigit : OverLetters (fun c => isNumberChar c = true) digit :=
    overLetters_oneOf (List.all_eq_true.mp (by decide))
  have hnonzero : OverLetters (fun c => isNumberChar c = true)
      (oneOf ['1', '2', '3', '4', '5', '6', '7', '8', '9']) :=
    overLetters_oneOf (List.all_eq_true.mp (by decide))
  have hexponent : OverLetters (fun c => isNumberChar c = true) (oneOf ['e', 'E']) :=
    overLetters_oneOf (List.all_eq_true.mp (by decide))
  have hsign : OverLetters (fun c => isNumberChar c = true) (oneOf ['+', '-']) :=
    overLetters_oneOf (List.all_eq_true.mp (by decide))
  exact ⟨⟨⟨⟨trivial, rfl⟩, rfl, hnonzero, hdigit⟩, trivial, rfl, hdigit, hdigit⟩, trivial,
    ⟨hexponent, trivial, hsign⟩, hdigit, hdigit⟩

theorem isNumberChar_of_number (h : literal ∈ numberPattern.matches') :
    ∀ c ∈ literal, isNumberChar c = true :=
  forall_of_matches overLetters_numberPattern h

theorem number_ne_nil (h : literal ∈ numberPattern.matches') : literal ≠ [] := by
  rintro rfl
  exact absurd h (by decide)

/-- The text does not go on with a number. -/
def EndsNumber (rest : List Char) : Prop := ∀ c ∈ rest.head?, isNumberChar c = false

theorem takeWhile_isNumberChar
    (hchars : ∀ c ∈ literal, isNumberChar c = true) (hrest : EndsNumber rest) :
    (literal ++ rest).takeWhile isNumberChar = literal ∧
      (literal ++ rest).dropWhile isNumberChar = rest := by
  rw [List.takeWhile_append_of_pos hchars, List.dropWhile_append_of_pos hchars]
  cases rest with
  | nil => simp
  | cons c rest =>
    have hc : isNumberChar c = false := hrest c (by simp)
    simp [hc]

theorem readNumber_append (h : Lexicon.readable.number literal)
    (hrest : EndsNumber rest) : readNumber (literal ++ rest) = some (.number literal, rest) := by
  obtain ⟨htake, hdrop⟩ := takeWhile_isNumberChar (isNumberChar_of_number h.1) hrest
  have hmatch : numberPattern.rmatch literal = true :=
    (RegularExpression.rmatch_iff_matches' _ _).mpr h.1
  rw [readNumber, htake, hdrop]
  simp [hmatch, h.2]

/-! ## Strings -/

theorem isSome_hexValue_ne (h : (hexValue c).isSome) : c ≠ '"' ∧ c ≠ '\\' := by
  constructor
  · rintro rfl
    exact absurd h (by decide)
  · rintro rfl
    exact absurd h (by decide)

theorem scanString_plain (hquote : c ≠ '"') (hbackslash : c ≠ '\\') (text : List Char) :
    scanString (c :: text) = (scanString text).map fun (body, rest) => (c :: body, rest) := by
  rw [scanString.eq_def]
  split <;> simp_all

theorem scanString_plains {plain : List Char} (h : ∀ c ∈ plain, c ≠ '"' ∧ c ≠ '\\')
    (hscan : scanString text = some (body, rest)) :
    scanString (plain ++ text) = some (plain ++ body, rest) := by
  induction plain with
  | nil => exact hscan
  | cons c plain ih =>
    obtain ⟨hquote, hbackslash⟩ := h c (by simp)
    rw [List.cons_append, scanString_plain hquote hbackslash, ih fun d hd => h d (by simp [hd])]
    rfl

theorem scanString_append (h : IsStringBody body) (rest : List Char) :
    scanString (body ++ '"' :: rest) = some (body, rest) := by
  induction h with
  | nil => rfl
  | plain hquote hbackslash _ _ ih =>
    rw [List.cons_append, scanString_plain hquote hbackslash, ih]
    rfl
  | escape _ _ ih =>
    simp only [List.cons_append, scanString, ih]
    rfl
  | unicode _ hhex _ ih =>
    have hplains := scanString_plains (fun c hc => isSome_hexValue_ne (hhex c hc)) ih
    simp only [List.cons_append, List.append_assoc, scanString, hplains]
    rfl

theorem readString_append (h : Lexicon.readable.string body) :
    ∃ text, ∀ rest, readString (body ++ '"' :: rest) = some (text, rest) := by
  obtain ⟨text, htext⟩ := Option.isSome_iff_exists.mp h.2
  refine ⟨text, fun rest => ?_⟩
  simp [readString, scanString_append h.1, htext]

/-! ## Values -/

/-- How the text of a value starts. -/
def StartsValue (text : List Char) : Prop :=
  ∃ c rest, text = c :: rest ∧ isWs c = false ∧ c ≠ ']' ∧ c ≠ '}'

theorem starts_of_isNumberChar (h : isNumberChar c = true) :
    isWs c = false ∧ c ∉ [']', '}', '[', '{', '"', 'n', 't', 'f'] := by
  constructor
  · by_contra hws
    simp only [isWs, Bool.not_eq_false, Bool.or_eq_true, beq_iff_eq] at hws
    rcases hws with ((rfl | rfl) | rfl) | rfl <;> exact absurd h (by decide)
  · intro hmem
    simp only [List.mem_cons, List.not_mem_nil, or_false] at hmem
    rcases hmem with rfl | rfl | rfl | rfl | rfl | rfl | rfl | rfl <;> exact absurd h (by decide)

theorem startsValue {L : Lexicon} (hL : ∀ literal, L.number literal →
    literal ∈ numberPattern.matches') {d : Nat} (h : IsValue L d text) :
    StartsValue text := by
  cases h with
  | nullWord => exact ⟨'n', _, rfl, by decide, by decide, by decide⟩
  | trueWord => exact ⟨'t', _, rfl, by decide, by decide, by decide⟩
  | falseWord => exact ⟨'f', _, rfl, by decide, by decide, by decide⟩
  | number hnumber =>
    have hmatch := hL _ hnumber
    obtain ⟨c, rest, rfl⟩ := List.exists_cons_of_ne_nil (number_ne_nil hmatch)
    have hc := starts_of_isNumberChar (isNumberChar_of_number hmatch c (by simp))
    refine ⟨c, rest, rfl, hc.1, ?_, ?_⟩
    · rintro rfl
      exact hc.2 (by simp)
    · rintro rfl
      exact hc.2 (by simp)
  | string _ => exact ⟨'"', _, rfl, by decide, by decide, by decide⟩
  | emptyArray _ | array => exact ⟨'[', _, rfl, by decide, by decide, by decide⟩
  | emptyObject _ | object => exact ⟨'{', _, rfl, by decide, by decide, by decide⟩

theorem skipWs_value (hws : IsWs ws) (h : StartsValue text)
    (rest : List Char) : skipWs (ws ++ (text ++ rest)) = text ++ rest := by
  obtain ⟨c, _, rfl, hc, -, -⟩ := h
  exact skipWs_append_cons hws hc _

theorem endsNumber_append (hws : IsWs ws) (hrest : EndsNumber rest) : EndsNumber (ws ++ rest) := by
  cases ws with
  | nil => exact hrest
  | cons w ws =>
    have hw : isWs w = true := hws w (by simp)
    intro c hc
    obtain rfl : w = c := by simpa using hc
    by_contra hnumber
    rw [Bool.not_eq_false] at hnumber
    rw [(starts_of_isNumberChar hnumber).1] at hw
    cases hw

theorem endsNumber_cons (hc : isNumberChar c = false) (rest : List Char) :
    EndsNumber (c :: rest) := by
  simpa [EndsNumber] using hc

/-- With enough fuel the text is read whatever comes after it. -/
def Reads (d : Nat) (text : List Char) : Prop :=
  ∃ v, ∀ fuel rest, text.length < fuel → EndsNumber rest →
    readValue fuel d (text ++ rest) = some (v, rest)

section Containers

variable {d : Nat}

theorem Reads.of_succ (v : Value) (h : ∀ fuel rest, text.length ≤ fuel → EndsNumber rest →
    readValue (fuel + 1) d (text ++ rest) = some (v, rest)) : Reads d text := by
  refine ⟨v, fun fuel rest hfuel hrest => ?_⟩
  obtain ⟨fuel, rfl⟩ := Nat.exists_eq_succ_of_ne_zero (by omega : fuel ≠ 0)
  exact h fuel rest (Nat.lt_succ_iff.mp hfuel) hrest

/-- Items that are read one by one are read when commas separate them. -/
theorem reads_commaSeparated {α β : Type} {itemText : α → List Char} {close : Char}
    {readAll : Nat → List Char → Option (List β × List Char)} {items : List α} (hne : items ≠ [])
    (hitem : ∀ x ∈ items, ∃ b, ∀ fuel rest, (itemText x).length < fuel →
      readAll (fuel + 1) (itemText x ++ close :: rest) = some ([b], rest) ∧
      ∀ bs rest', readAll fuel rest = some (bs, rest') →
        readAll (fuel + 1) (itemText x ++ ',' :: rest) = some (b :: bs, rest')) :
    ∃ bs, ∀ fuel rest, (commaSeparated (items.map itemText)).length + 1 < fuel →
      readAll fuel (commaSeparated (items.map itemText) ++ close :: rest) = some (bs, rest) := by
  induction items with
  | nil => exact absurd rfl hne
  | cons x items ih =>
    obtain ⟨b, hb⟩ := hitem x (by simp)
    cases items with
    | nil =>
      refine ⟨[b], fun fuel rest hfuel => ?_⟩
      simp only [List.map_cons, List.map_nil, commaSeparated_singleton] at hfuel ⊢
      obtain ⟨fuel, rfl⟩ := Nat.exists_eq_succ_of_ne_zero (by omega : fuel ≠ 0)
      exact (hb fuel rest (by omega)).1
    | cons y items =>
      obtain ⟨bs, hbs⟩ := ih (by simp) fun z hz => hitem z (by simp [hz])
      refine ⟨b :: bs, fun fuel rest hfuel => ?_⟩
      simp only [List.map_cons, commaSeparated_cons_cons, List.length_append, List.length_cons,
        List.append_assoc, List.cons_append] at hfuel hbs ⊢
      obtain ⟨fuel, rfl⟩ := Nat.exists_eq_succ_of_ne_zero (by omega : fuel ≠ 0)
      exact (hb fuel _ (by omega)).2 _ _ (hbs fuel rest (by omega))

theorem readValue_element {e : Element} (hspaced : e.IsSpaced) (hstarts : StartsValue e.value)
    {v : Value} {fuel : Nat}
    (hread : ∀ rest, EndsNumber rest → readValue fuel d (e.value ++ rest) = some (v, rest))
    (hws : isWs c = false) (hc : isNumberChar c = false) (rest : List Char) :
    readValue fuel d (skipWs (e.text ++ c :: rest)) = some (v, e.after ++ c :: rest) ∧
      skipWs (e.after ++ c :: rest) = c :: rest := by
  refine ⟨?_, skipWs_append_cons hspaced.after_ws hws rest⟩
  rw [Element.text, List.append_assoc, List.append_assoc, skipWs_value hspaced.before_ws hstarts]
  exact hread _ (endsNumber_append hspaced.after_ws (endsNumber_cons hc rest))

theorem length_value_le (e : Element) : e.value.length ≤ e.text.length := by
  simp only [Element.text, List.length_append]
  omega

theorem readElements_append {elements : List Element} (hne : elements ≠ [])
    (hspaced : ∀ e ∈ elements, e.IsSpaced) (hstarts : ∀ e ∈ elements, StartsValue e.value)
    (hreads : ∀ e ∈ elements, Reads d e.value) :
    ∃ vs, ∀ fuel rest, (commaSeparated (elements.map Element.text)).length + 1 < fuel →
      readElements fuel d (commaSeparated (elements.map Element.text) ++ ']' :: rest) =
        some (vs, rest) := by
  refine reads_commaSeparated hne fun e he => ?_
  obtain ⟨v, hread⟩ := hreads e he
  have hlength := length_value_le e
  refine ⟨v, fun fuel rest hfuel => ?_⟩
  have hvalue : ∀ rest, EndsNumber rest → readValue fuel d (e.value ++ rest) = some (v, rest) :=
    fun rest => hread fuel rest (by omega)
  constructor
  · obtain ⟨hlast, hclose⟩ :=
      readValue_element (c := ']') (hspaced e he) (hstarts e he) hvalue rfl rfl rest
    simp [readElements, hlast, hclose]
  · intro vs rest' hrest
    obtain ⟨hmore, hcomma⟩ :=
      readValue_element (c := ',') (hspaced e he) (hstarts e he) hvalue rfl rfl rest
    simp [readElements, hmore, hcomma, hrest]

def Member.element (m : Member) : Element := ⟨m.beforeValue, m.value, m.after⟩

theorem member_text_append (m : Member) (rest : List Char) : m.text ++ rest =
      m.before ++ '"' :: (m.key ++ '"' :: (m.afterKey ++ ':' :: (m.element.text ++ rest))) := by
  simp [Member.text, Member.element, Element.text, quoted]

theorem length_element_le (m : Member) : m.element.text.length ≤ m.text.length := by
  have htext := congrArg List.length (member_text_append m [])
  simp only [List.length_append, List.length_cons, List.append_nil] at htext
  omega

theorem readMembers_append {members : List Member} (hne : members ≠ [])
    (hspaced : ∀ m ∈ members, m.IsSpaced) (hkeys : ∀ m ∈ members, Lexicon.readable.string m.key)
    (hstarts : ∀ m ∈ members, StartsValue m.value) (hreads : ∀ m ∈ members, Reads d m.value) :
    ∃ ms, ∀ fuel rest, (commaSeparated (members.map Member.text)).length + 1 < fuel →
      readMembers fuel d (commaSeparated (members.map Member.text) ++ '}' :: rest) =
        some (ms, rest) := by
  refine reads_commaSeparated hne fun m hm => ?_
  obtain ⟨v, hread⟩ := hreads m hm
  obtain ⟨key, hkey⟩ := readString_append (hkeys m hm)
  have hms := hspaced m hm
  have hlength : m.value.length ≤ m.element.text.length := length_value_le m.element
  have hlength' := length_element_le m
  refine ⟨(key, v), fun fuel rest hfuel => ?_⟩
  have hvalue : ∀ rest, EndsNumber rest → readValue fuel d (m.value ++ rest) = some (v, rest) :=
    fun rest => hread fuel rest (by omega)
  have helement : m.element.IsSpaced := ⟨hms.beforeValue_ws, hms.after_ws⟩
  have hquote := @skipWs_append_cons m.before '"' hms.before_ws rfl
  have hcolon := @skipWs_append_cons m.afterKey ':' hms.afterKey_ws rfl
  constructor
  · obtain ⟨hlast, hclose⟩ :=
      readValue_element (c := '}') helement (hstarts m hm) hvalue rfl rfl rest
    rw [member_text_append]
    simp [readMembers, hquote, hkey, hcolon, hlast, hclose]
  · intro ms rest' hrest
    obtain ⟨hmore, hcomma⟩ :=
      readValue_element (c := ',') helement (hstarts m hm) hvalue rfl rfl rest
    rw [member_text_append]
    simp [readMembers, hquote, hkey, hcolon, hmore, hcomma, hrest]

end Containers

/-! ## Completeness -/

theorem readable_number {literal : List Char} (h : Lexicon.readable.number literal) :
    literal ∈ numberPattern.matches' :=
  h.1

theorem reads_of_isValue {d : Nat} {text : List Char} (h : IsValue .readable d text) :
    Reads d text := by
  induction h with
  | nullWord => exact .of_succ .null fun fuel rest _ _ => by simp [readValue, readWord]
  | trueWord => exact .of_succ (.bool true) fun fuel rest _ _ => by simp [readValue, readWord]
  | falseWord => exact .of_succ (.bool false) fun fuel rest _ _ => by simp [readValue, readWord]
  | @number d literal hnumber =>
    refine .of_succ (.number literal) fun fuel rest hfuel hrest => ?_
    have hread := readNumber_append hnumber hrest
    obtain ⟨c, literal, rfl⟩ := List.exists_cons_of_ne_nil (number_ne_nil hnumber.1)
    have hc := (starts_of_isNumberChar (isNumberChar_of_number hnumber.1 c (by simp))).2
    simp only [List.mem_cons, List.not_mem_nil, or_false, not_or] at hc
    simp [readValue, hc, ← hread]
  | string hstring =>
    obtain ⟨text, htext⟩ := readString_append hstring
    exact .of_succ (.string text) fun fuel rest _ _ => by simp [readValue, quoted, htext]
  | @emptyArray d ws hws =>
    refine .of_succ (.array []) fun fuel rest _ _ => ?_
    have hskip : skipWs (ws ++ ']' :: rest) = ']' :: rest := skipWs_append_cons hws rfl rest
    simp [readValue, hskip]
  | @emptyObject d ws hws =>
    refine .of_succ (.object []) fun fuel rest _ _ => ?_
    have hskip : skipWs (ws ++ '}' :: rest) = '}' :: rest := skipWs_append_cons hws rfl rest
    simp [readValue, hskip]
  | @array d elements hne hspaced hvalues ih =>
    have hstarts : ∀ e ∈ elements, StartsValue e.value := fun e he =>
      startsValue (fun _ => readable_number) (hvalues e he)
    obtain ⟨vs, hvs⟩ := readElements_append hne hspaced hstarts ih
    refine .of_succ (.array vs) fun fuel rest hfuel _ => ?_
    have hopen : (skipWs (commaSeparated (elements.map Element.text) ++ ']' :: rest)).head? ≠
        some ']' := by
      obtain ⟨e, elements, rfl⟩ := List.exists_cons_of_ne_nil hne
      obtain ⟨post, hpost, -⟩ := commaSeparated_cons e.text (elements.map Element.text)
      rw [List.map_cons, hpost, Element.text, List.append_assoc, List.append_assoc,
        List.append_assoc, skipWs_value (hspaced e (by simp)).before_ws (hstarts e (by simp))]
      obtain ⟨c, text, htext, -, hc, -⟩ := hstarts e (by simp)
      simpa [htext] using hc
    simp only [List.length_append, List.length_cons, List.length_nil] at hfuel
    simp [readValue, hopen, hvs fuel rest (by omega)]
  | @object d members hne hspaced hkeys hvalues ih =>
    have hstarts : ∀ m ∈ members, StartsValue m.value := fun m hm =>
      startsValue (fun _ => readable_number) (hvalues m hm)
    obtain ⟨ms, hms⟩ := readMembers_append hne hspaced hkeys hstarts ih
    refine .of_succ (.object ms) fun fuel rest hfuel _ => ?_
    have hopen : (skipWs (commaSeparated (members.map Member.text) ++ '}' :: rest)).head? ≠
        some '}' := by
      obtain ⟨m, members, rfl⟩ := List.exists_cons_of_ne_nil hne
      obtain ⟨post, hpost, -⟩ := commaSeparated_cons m.text (members.map Member.text)
      rw [List.map_cons, hpost, List.append_assoc, member_text_append,
        skipWs_append_cons (hspaced m (by simp)).before_ws rfl]
      simp
    simp only [List.length_append, List.length_cons, List.length_nil] at hfuel
    simp [readValue, hopen, hms fuel rest (by omega)]

theorem isSome_read {d : Nat} {lead text trail : List Char} (hlead : IsWs lead)
    (h : IsValue .readable d text) (htrail : IsWs trail) :
    (read d (lead ++ text ++ trail)).isSome = true := by
  obtain ⟨v, hread⟩ := reads_of_isValue h
  have hstarts := startsValue (fun _ => readable_number) h
  have hends : EndsNumber trail := by
    rw [← List.append_nil trail]
    exact endsNumber_append htrail (by simp [EndsNumber])
  have hvalue := hread ((lead ++ (text ++ trail)).length + 1) trail
    (by simp only [List.length_append]; omega) hends
  rw [read, List.append_assoc, skipWs_value hlead hstarts, hvalue]
  simp [skipWs_eq_nil htrail]

end BitInfinity.Foundation.Json
