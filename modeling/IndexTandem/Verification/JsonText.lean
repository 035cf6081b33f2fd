import IndexTandem.Verification.VerifiedAgreement

/-!
# JSON text

`JSON.parse` reads a text by descent, with white space between the tokens; a number keeps the
text it is written with. The descent is bounded, and the text itself is bound enough
(`parseElements_turns`, `parseValue_depth`).

`JSON.stringify` is given for texts, arrays and objects. Whatever is written is read back, for
every text (`written_text`) and for arrays and objects of values that are (`Written.array`,
`Written.object`).
-/

namespace IndexTandem.Verification

open Library Protocol

/-! ### UTF-16 -/

/-- The units of a character. -/
def unitsOf (c : Char) : List ℕ :=
  if c.toNat < 0x1_0000 then [c.toNat]
  else [0xd800 + (c.toNat - 0x1_0000) / 0x400, 0xdc00 + (c.toNat - 0x1_0000) % 0x400]

/-- The units of a text. -/
def utf16 (text : List Char) : List ℕ := text.flatMap unitsOf

/-- The character of a unit; half of a pair is none, and read as U+FFFD. -/
def ofUnit (unit : ℕ) : Char := if 0xd800 ≤ unit ∧ unit < 0xe000 then '\uFFFD' else Char.ofNat unit

/-- The text of some units. -/
def ofUtf16 : List ℕ → List Char
  | [] => []
  | [u] => [ofUnit u]
  | u :: v :: rest =>
    if 0xd800 ≤ u ∧ u < 0xdc00 ∧ 0xdc00 ≤ v ∧ v < 0xe000 then
      Char.ofNat (0x1_0000 + (u - 0xd800) * 0x400 + (v - 0xdc00)) :: ofUtf16 rest
    else ofUnit u :: ofUtf16 (v :: rest)

theorem ofUtf16_unitsOf (c : Char) (rest : List ℕ) : ofUtf16 (unitsOf c ++ rest) = c :: ofUtf16 rest := by
  have hvalid : c.toNat < 0xd800 ∨ 0xdfff < c.toNat ∧ c.toNat < 0x11_0000 := c.valid
  rw [unitsOf]
  split_ifs with hsmall
  · have hunit : ofUnit c.toNat = c := by rw [ofUnit, if_neg (by omega), Char.ofNat_toNat]
    cases rest with
    | nil =>
      show [ofUnit c.toNat] = [c]
      rw [hunit]
    | cons v rest => rw [List.singleton_append, ofUtf16, if_neg (by omega), hunit]
  · have hpair : 0x1_0000 + (0xd800 + (c.toNat - 0x1_0000) / 0x400 - 0xd800) * 0x400 +
        (0xdc00 + (c.toNat - 0x1_0000) % 0x400 - 0xdc00) = c.toNat := by omega
    rw [List.cons_append, List.singleton_append, ofUtf16, if_pos (by omega), hpair, Char.ofNat_toNat]

/-- **The units of a text are read as it.** -/
theorem ofUtf16_utf16 (text : List Char) : ofUtf16 (utf16 text) = text := by
  induction text with
  | nil => rfl
  | cons c text ih => rw [utf16, List.flatMap_cons, ofUtf16_unitsOf, ← utf16, ih]

/-! ### Texts -/

/-- The unit of an escape of one letter. -/
def escapedUnit (c : Char) : Option ℕ :=
  if c = '"' ∨ c = '\\' ∨ c = '/' then some c.toNat
  else if c = 'b' then some 8
  else if c = 'f' then some 12
  else if c = 'n' then some 10
  else if c = 'r' then some 13
  else if c = 't' then some 9
  else none

/-- The units up to the closing quote, and what comes after it. -/
def textUnits : List Char → Option (List ℕ × List Char)
  | [] => none
  | c :: rest =>
    if c = '"' then some ([], rest)
    else if c = '\\' then
      match rest with
      | [] => none
      | e :: rest =>
        if e = 'u' then
          match rest with
          | h₁ :: h₂ :: h₃ :: h₄ :: rest => do
            let a ← hexValue h₁
            let b ← hexValue h₂
            let c ← hexValue h₃
            let d ← hexValue h₄
            let later ← textUnits rest
            pure ((((16 * a + b) * 16 + c) * 16 + d) :: later.1, later.2)
          | _ => none
        else do
          let unit ← escapedUnit e
          let later ← textUnits rest
          pure (unit :: later.1, later.2)
    else if c.toNat < 0x20 then none
    else do
      let later ← textUnits rest
      pure (unitsOf c ++ later.1, later.2)
termination_by structural characters => characters

/-- A text after its opening quote. -/
def parseText (characters : List Char) : Option (String × List Char) :=
  (textUnits characters).map fun read => (String.ofList (ofUtf16 read.1), read.2)

/-- How a character is written. -/
def escapeCharacter (c : Char) : List Char :=
  if c = '"' then ['\\', '"']
  else if c = '\\' then ['\\', '\\']
  else if c.toNat = 8 then ['\\', 'b']
  else if c.toNat = 12 then ['\\', 'f']
  else if c.toNat = 10 then ['\\', 'n']
  else if c.toNat = 13 then ['\\', 'r']
  else if c.toNat = 9 then ['\\', 't']
  else if c.toNat < 0x20 then ['\\', 'u', '0', '0', hexDigit (c.toNat / 16), hexDigit (c.toNat % 16)]
  else [c]

/-- `JSON.stringify(text)`. -/
def stringifyText (text : String) : List Char := '"' :: text.toList.flatMap escapeCharacter ++ ['"']

theorem textUnits_quote (rest : List Char) : textUnits ('"' :: rest) = some ([], rest) := by
  rw [textUnits.eq_def]
  exact if_pos rfl

theorem textUnits_letter {e : Char} {unit : ℕ} (hu : e ≠ 'u') (he : escapedUnit e = some unit) (rest : List Char) :
    textUnits ('\\' :: e :: rest) = (textUnits rest).map fun later => (unit :: later.1, later.2) := by
  rw [textUnits.eq_def]
  dsimp only
  rw [if_neg (by decide), if_pos rfl, if_neg hu, he]
  cases textUnits rest <;> rfl

theorem textUnits_hex {n : ℕ} (h : n < 0x20) (rest : List Char) :
    textUnits ('\\' :: 'u' :: '0' :: '0' :: hexDigit (n / 16) :: hexDigit (n % 16) :: rest) =
      (textUnits rest).map fun later => (n :: later.1, later.2) := by
  have hzero : hexValue '0' = some 0 := by decide
  have hn : ((16 * 0 + 0) * 16 + n / 16) * 16 + n % 16 = n := by omega
  rw [textUnits.eq_def]
  dsimp only
  rw [if_neg (by decide), if_pos rfl, if_pos rfl, hzero, hexValue_hexDigit _ (by omega), hexValue_hexDigit _ (by omega)]
  cases textUnits rest with
  | none => rfl
  | some later => exact congrArg (fun m => some (m :: later.1, later.2)) hn

theorem textUnits_escape (c : Char) (rest : List Char) :
    textUnits (escapeCharacter c ++ rest) = (textUnits rest).map fun later => (unitsOf c ++ later.1, later.2) := by
  have hletter : ∀ {e : Char}, e ≠ 'u' → escapedUnit e = some c.toNat → c.toNat < 0x1_0000 →
      textUnits (['\\', e] ++ rest) = (textUnits rest).map fun later => (unitsOf c ++ later.1, later.2) := by
    intro e hu he hc
    rw [unitsOf, if_pos hc]
    exact textUnits_letter hu he rest
  rw [escapeCharacter]
  split_ifs with h₁ h₂ h₃ h₄ h₅ h₆ h₇ h₈
  · subst h₁
    exact hletter (by decide) (by decide) (by decide)
  · subst h₂
    exact hletter (by decide) (by decide) (by decide)
  · exact hletter (by decide) (by rw [h₃]; decide) (by omega)
  · exact hletter (by decide) (by rw [h₄]; decide) (by omega)
  · exact hletter (by decide) (by rw [h₅]; decide) (by omega)
  · exact hletter (by decide) (by rw [h₆]; decide) (by omega)
  · exact hletter (by decide) (by rw [h₇]; decide) (by omega)
  · rw [unitsOf, if_pos (by omega)]
    exact textUnits_hex h₈ rest
  · rw [List.singleton_append, textUnits.eq_def]
    dsimp only
    rw [if_neg h₁, if_neg h₂, if_neg h₈]
    cases textUnits rest <;> rfl

/-- **A written text is read.** -/
theorem parseText_stringify (text : String) (rest : List Char) :
    parseText (text.toList.flatMap escapeCharacter ++ '"' :: rest) = some (text, rest) := by
  have hunits : ∀ characters : List Char, textUnits (characters.flatMap escapeCharacter ++ '"' :: rest) =
      some (utf16 characters, rest) := by
    intro characters
    induction characters with
    | nil => exact textUnits_quote rest
    | cons c characters ih =>
      rw [List.flatMap_cons, List.append_assoc, textUnits_escape, ih]
      rfl
  rw [parseText, hunits, Option.map_some, ofUtf16_utf16, String.ofList_toList]

/-! ### Numbers -/

/-- A decimal digit. -/
def isDigit (c : Char) : Bool := '0' ≤ c && c ≤ '9'

/-- At least one digit. -/
def parseDigits (characters : List Char) : Option (List Char × List Char) :=
  match characters.span isDigit with
  | ([], _) => none
  | read => some read

/-- The fraction of a number, when there is one. -/
def parseFraction (characters : List Char) : Option (List Char × List Char) :=
  if characters.head? = some '.' then (parseDigits (characters.drop 1)).map fun read => ('.' :: read.1, read.2)
  else some ([], characters)

/-- The exponent of a number, when there is one. -/
def parseExponent (characters : List Char) : Option (List Char × List Char) :=
  match characters with
  | [] => some ([], [])
  | e :: after =>
    if e = 'e' ∨ e = 'E' then
      match after with
      | [] => none
      | s :: digits =>
        if s = '+' ∨ s = '-' then (parseDigits digits).map fun read => (e :: s :: read.1, read.2)
        else (parseDigits after).map fun read => (e :: read.1, read.2)
    else some ([], characters)

/-- A number: sign, integer without leading zeros, fraction and exponent. -/
def parseNumber (characters : List Char) : Option (String × List Char) := do
  let sign := if characters.head? = some '-' then ['-'] else []
  let (integer, rest) ← parseDigits (characters.drop sign.length)
  if integer.head? = some '0' ∧ integer.length ≠ 1 then none
  else do
    let (fraction, rest) ← parseFraction rest
    let (exponent, rest) ← parseExponent rest
    pure (String.ofList (sign ++ integer ++ fraction ++ exponent), rest)

/-! ### Values -/

/-- White space. -/
def isSpace (c : Char) : Bool := c = ' ' || c = '\t' || c = '\n' || c = '\r'

/-- The first character that is no white space, and what comes after it. -/
def token (characters : List Char) : Option (Char × List Char) :=
  match characters.dropWhile isSpace with
  | [] => none
  | c :: rest => some (c, rest)

/-- Elements with commas between them, up to the closing character; each turn reads one. -/
def parseElements {α : Type} (element : List Char → Option (α × List Char)) (close : Char) :
    ℕ → List Char → Option (List α × List Char)
  | 0, _ => none
  | turns + 1, characters => do
    let (first, rest) ← element characters
    let (c, rest) ← token rest
    if c = ',' then do
      let (later, rest) ← parseElements element close turns rest
      pure (first :: later, rest)
    else if c = close then pure ([first], rest)
    else none

/-- What is between brackets: nothing, or elements. -/
def parseBracketed {α : Type} (element : List Char → Option (α × List Char)) (close : Char) (characters : List Char) :
    Option (List α × List Char) := do
  let (c, rest) ← token characters
  if c = close then pure ([], rest) else parseElements element close (characters.length + 1) characters

/-- A member of an object. -/
def parseMember (value : List Char → Option (Json × List Char)) (characters : List Char) :
    Option ((String × Json) × List Char) := do
  let (quote, rest) ← token characters
  if quote ≠ '"' then none
  else do
    let (key, rest) ← parseText rest
    let (colon, rest) ← token rest
    if colon ≠ ':' then none
    else do
      let (item, rest) ← value rest
      pure ((key, item), rest)

/-- The rest of a literal. -/
def parseLiteral (letters : List Char) (value : Json) (characters : List Char) : Option (Json × List Char) :=
  if characters.take letters.length = letters then some (value, characters.drop letters.length) else none

/-- A value that is nested less deep than a bound. -/
def parseValue : ℕ → List Char → Option (Json × List Char)
  | 0, _ => none
  | depth + 1, characters => do
    let (c, rest) ← token characters
    if c = '"' then do
      let (text, rest) ← parseText rest
      pure (.string text, rest)
    else if c = '[' then do
      let (items, rest) ← parseBracketed (parseValue depth) ']' rest
      pure (.array items, rest)
    else if c = '\x7b' then do
      let (members, rest) ← parseBracketed (parseMember (parseValue depth)) '\x7d' rest
      pure (.object members, rest)
    else if c = 't' then parseLiteral ['r', 'u', 'e'] (.bool true) rest
    else if c = 'f' then parseLiteral ['a', 'l', 's', 'e'] (.bool false) rest
    else if c = 'n' then parseLiteral ['u', 'l', 'l'] .null rest
    else do
      let (text, rest) ← parseNumber (c :: rest)
      pure (.number text, rest)

/-- `JSON.parse(raw)`; nothing when it throws. -/
def jsonParse (raw : String) : Option Json := do
  let (value, rest) ← parseValue (raw.toList.length + 1) raw.toList
  if rest.all isSpace = true then some value else none

/-! ### What is read is not empty -/

/-- The parser leaves less than it is given. -/
def Shortens {α : Type} (parser : List Char → Option (α × List Char)) : Prop :=
  ∀ {characters value rest}, parser characters = some (value, rest) → rest.length < characters.length

theorem shortens_token : Shortens token := by
  intro characters c rest h
  have hle := (List.dropWhile_suffix isSpace (l := characters)).length_le
  rw [token] at h
  split at h
  · cases h
  · rename_i first later hdrop
    cases h
    rw [hdrop, List.length_cons] at hle
    omega

theorem textUnits_length {characters : List Char} {units : List ℕ} {rest : List Char}
    (h : textUnits characters = some (units, rest)) : rest.length < characters.length := by
  induction hn : characters.length using Nat.strong_induction_on generalizing characters units with
  | _ n ih =>
    subst hn
    have hlater : ∀ {shorter : List Char} {later : List ℕ × List Char}, shorter.length < characters.length →
        textUnits shorter = some later → later.2 = rest → rest.length < characters.length := by
      intro shorter later hs hl hr
      have := ih shorter.length hs (show textUnits shorter = some (later.1, rest) by rw [hl, ← hr]) rfl
      omega
    rw [textUnits.eq_def] at h
    split at h
    · cases h
    · rename_i c after
      simp only [List.length_cons] at hlater ⊢
      split_ifs at h
      · cases h
        omega
      · split at h
        · cases h
        · rename_i e after
          simp only [List.length_cons] at hlater ⊢
          split_ifs at h
          · split at h
            · rename_i h₁ h₂ h₃ h₄ after
              simp only [List.length_cons] at hlater ⊢
              obtain ⟨_, -, h⟩ := Option.bind_eq_some_iff.mp h
              obtain ⟨_, -, h⟩ := Option.bind_eq_some_iff.mp h
              obtain ⟨_, -, h⟩ := Option.bind_eq_some_iff.mp h
              obtain ⟨_, -, h⟩ := Option.bind_eq_some_iff.mp h
              obtain ⟨later, hl, h⟩ := Option.bind_eq_some_iff.mp h
              exact hlater (by omega) hl (congrArg Prod.snd (Option.some.inj h))
            · cases h
          · obtain ⟨_, -, h⟩ := Option.bind_eq_some_iff.mp h
            obtain ⟨later, hl, h⟩ := Option.bind_eq_some_iff.mp h
            exact hlater (by omega) hl (congrArg Prod.snd (Option.some.inj h))
      · obtain ⟨later, hl, h⟩ := Option.bind_eq_some_iff.mp h
        exact hlater (by omega) hl (congrArg Prod.snd (Option.some.inj h))

theorem shortens_parseText : Shortens parseText := by
  intro characters text rest h
  obtain ⟨read, hread, h⟩ := Option.map_eq_some_iff.mp h
  cases h
  exact textUnits_length hread

theorem shortens_parseDigits : Shortens parseDigits := by
  intro characters digits rest h
  have hsplit := List.takeWhile_append_dropWhile (p := isDigit) (l := characters)
  rw [parseDigits, List.span_eq_takeWhile_dropWhile] at h
  split at h
  · cases h
  · rename_i hne
    cases h
    have hpos : (characters.takeWhile isDigit) ≠ [] := fun he => hne _ (by rw [he])
    have := List.length_pos_iff.mpr hpos
    have hlength := congrArg List.length hsplit
    rw [List.length_append] at hlength
    omega

theorem parseFraction_length {characters fraction rest : List Char}
    (h : parseFraction characters = some (fraction, rest)) : rest.length ≤ characters.length := by
  rw [parseFraction] at h
  split_ifs at h
  · obtain ⟨⟨digits, after⟩, hread, heq⟩ := Option.map_eq_some_iff.mp h
    obtain rfl : after = rest := congrArg Prod.snd heq
    have hlength := shortens_parseDigits hread
    rw [List.length_drop] at hlength
    omega
  · cases h
    omega

theorem parseExponent_length {characters exponent rest : List Char}
    (h : parseExponent characters = some (exponent, rest)) : rest.length ≤ characters.length := by
  unfold parseExponent at h
  split at h
  · cases h
    omega
  · rename_i e after
    split_ifs at h
    · split at h
      · cases h
      · rename_i s digits
        simp only [List.length_cons]
        split_ifs at h
        · obtain ⟨⟨read, later⟩, hread, heq⟩ := Option.map_eq_some_iff.mp h
          obtain rfl : later = rest := congrArg Prod.snd heq
          have hlength := shortens_parseDigits hread
          omega
        · obtain ⟨⟨read, later⟩, hread, heq⟩ := Option.map_eq_some_iff.mp h
          obtain rfl : later = rest := congrArg Prod.snd heq
          have hlength := shortens_parseDigits hread
          rw [List.length_cons] at hlength
          omega
    · cases h
      omega

theorem shortens_parseNumber : Shortens parseNumber := by
  intro characters text rest h
  unfold parseNumber at h
  generalize (if characters.head? = some '-' then ['-'] else []) = sign at h
  obtain ⟨⟨integer, afterInteger⟩, hinteger, h⟩ := Option.bind_eq_some_iff.mp h
  dsimp only at h
  split_ifs at h
  obtain ⟨⟨fraction, afterFraction⟩, hfraction, h⟩ := Option.bind_eq_some_iff.mp h
  dsimp only at h
  obtain ⟨⟨exponent, afterExponent⟩, hexponent, h⟩ := Option.bind_eq_some_iff.mp h
  dsimp only at h
  have h₁ := shortens_parseDigits hinteger
  have h₂ := parseFraction_length hfraction
  have h₃ := parseExponent_length hexponent
  rw [List.length_drop] at h₁
  cases h
  omega

/-- Elements are read one by one, each shorter than what was there. -/
theorem shortens_parseElements {α : Type} {element : List Char → Option (α × List Char)} (hs : Shortens element)
    (close : Char) (turns : ℕ) : Shortens (parseElements element close turns) := by
  induction turns with
  | zero => intro characters values rest h; cases h
  | succ turns ih =>
    intro characters values rest h
    obtain ⟨⟨first, afterFirst⟩, hfirst, h⟩ := Option.bind_eq_some_iff.mp h
    dsimp only at h
    obtain ⟨⟨c, afterToken⟩, htoken, h⟩ := Option.bind_eq_some_iff.mp h
    dsimp only at h
    have h₁ := hs hfirst
    have h₂ := shortens_token htoken
    split_ifs at h
    · obtain ⟨⟨later, afterLater⟩, hlater, h⟩ := Option.bind_eq_some_iff.mp h
      dsimp only at h
      have h₃ := ih hlater
      cases h
      omega
    · cases h
      omega

theorem shortens_parseBracketed {α : Type} {element : List Char → Option (α × List Char)} (hs : Shortens element)
    (close : Char) : Shortens (parseBracketed element close) := by
  intro characters values rest h
  obtain ⟨⟨c, after⟩, htoken, h⟩ := Option.bind_eq_some_iff.mp h
  dsimp only at h
  split_ifs at h
  · cases h
    exact shortens_token htoken
  · exact shortens_parseElements hs close _ h

theorem shortens_parseMember {value : List Char → Option (Json × List Char)} (hs : Shortens value) :
    Shortens (parseMember value) := by
  intro characters member rest h
  obtain ⟨⟨quote, afterQuote⟩, hquote, h⟩ := Option.bind_eq_some_iff.mp h
  dsimp only at h
  split_ifs at h
  obtain ⟨⟨key, afterKey⟩, hkey, h⟩ := Option.bind_eq_some_iff.mp h
  dsimp only at h
  obtain ⟨⟨colon, afterColon⟩, hcolon, h⟩ := Option.bind_eq_some_iff.mp h
  dsimp only at h
  split_ifs at h
  obtain ⟨⟨item, afterItem⟩, hitem, h⟩ := Option.bind_eq_some_iff.mp h
  dsimp only at h
  have h₁ := shortens_token hquote
  have h₂ := shortens_parseText hkey
  have h₃ := shortens_token hcolon
  have h₄ := hs hitem
  cases h
  omega

theorem parseLiteral_length {letters characters rest : List Char} {value read : Json}
    (h : parseLiteral letters value characters = some (read, rest)) : rest.length ≤ characters.length := by
  rw [parseLiteral] at h
  split_ifs at h
  cases h
  rw [List.length_drop]
  omega

theorem shortens_parseValue (depth : ℕ) : Shortens (parseValue depth) := by
  induction depth with
  | zero => intro characters value rest h; cases h
  | succ depth ih =>
    intro characters value rest h
    rw [parseValue] at h
    obtain ⟨⟨c, after⟩, htoken, h⟩ := Option.bind_eq_some_iff.mp h
    dsimp only at h
    have h₀ := shortens_token htoken
    split_ifs at h
    · obtain ⟨⟨text, later⟩, htext, h⟩ := Option.bind_eq_some_iff.mp h
      dsimp only at h
      have := shortens_parseText htext
      cases h
      omega
    · obtain ⟨⟨items, later⟩, hitems, h⟩ := Option.bind_eq_some_iff.mp h
      dsimp only at h
      have := shortens_parseBracketed ih ']' hitems
      cases h
      omega
    · obtain ⟨⟨members, later⟩, hmembers, h⟩ := Option.bind_eq_some_iff.mp h
      dsimp only at h
      have := shortens_parseBracketed (shortens_parseMember ih) _ hmembers
      cases h
      omega
    · have := parseLiteral_length h
      omega
    · have := parseLiteral_length h
      omega
    · have := parseLiteral_length h
      omega
    · obtain ⟨⟨text, later⟩, htext, h⟩ := Option.bind_eq_some_iff.mp h
      dsimp only at h
      have hnumber := shortens_parseNumber htext
      rw [List.length_cons] at hnumber
      cases h
      omega

/-! ### The text is bound enough -/

/-- Every number of turns above the length of a text reads the same elements. -/
theorem parseElements_turns {α : Type} {element : List Char → Option (α × List Char)} (hs : Shortens element)
    (close : Char) {characters : List Char} {turns turns' : ℕ} (h : characters.length < turns)
    (h' : characters.length < turns') :
    parseElements element close turns characters = parseElements element close turns' characters := by
  induction turns generalizing characters turns' with
  | zero => omega
  | succ turns ih =>
    obtain ⟨turns', rfl⟩ : ∃ n, turns' = n + 1 := ⟨turns' - 1, by omega⟩
    rw [parseElements, parseElements]
    cases hfirst : element characters with
    | none => rfl
    | some first =>
      obtain ⟨first, afterFirst⟩ := first
      have h₁ := hs hfirst
      simp only [bind, Option.bind_some]
      cases htoken : token afterFirst with
      | none => rfl
      | some c =>
        obtain ⟨c, afterToken⟩ := c
        have h₂ := shortens_token htoken
        simp only [Option.bind_some]
        rw [@ih afterToken turns' (by omega) (by omega)]

/-- Parsers that agree on short texts read the same elements of them. -/
theorem parseElements_congr {α : Type} {element element' : List Char → Option (α × List Char)}
    (hs : Shortens element) {bound : ℕ} (agree : ∀ l : List Char, l.length ≤ bound → element l = element' l)
    (close : Char) (turns : ℕ) {characters : List Char} (h : characters.length ≤ bound) :
    parseElements element close turns characters = parseElements element' close turns characters := by
  induction turns generalizing characters with
  | zero => rfl
  | succ turns ih =>
    rw [parseElements, parseElements, ← agree characters h]
    cases hfirst : element characters with
    | none => rfl
    | some first =>
      obtain ⟨first, afterFirst⟩ := first
      have h₁ := hs hfirst
      simp only [bind, Option.bind_some]
      cases htoken : token afterFirst with
      | none => rfl
      | some c =>
        obtain ⟨c, afterToken⟩ := c
        have h₂ := shortens_token htoken
        simp only [Option.bind_some]
        rw [ih (by omega)]

theorem parseBracketed_congr {α : Type} {element element' : List Char → Option (α × List Char)}
    (hs : Shortens element) {bound : ℕ} (agree : ∀ l : List Char, l.length ≤ bound → element l = element' l)
    (close : Char) {characters : List Char} (h : characters.length ≤ bound) :
    parseBracketed element close characters = parseBracketed element' close characters := by
  unfold parseBracketed
  rw [parseElements_congr hs agree close _ h]

theorem parseMember_congr {value value' : List Char → Option (Json × List Char)} {bound : ℕ}
    (agree : ∀ l : List Char, l.length ≤ bound → value l = value' l) {characters : List Char}
    (h : characters.length ≤ bound) : parseMember value characters = parseMember value' characters := by
  unfold parseMember
  cases hquote : token characters with
  | none => simp only [bind, Option.bind_none]
  | some quote =>
    obtain ⟨quote, afterQuote⟩ := quote
    have h₁ := shortens_token hquote
    simp only [bind, Option.bind_some]
    split_ifs
    · rfl
    cases hkey : parseText afterQuote with
    | none => rfl
    | some key =>
      obtain ⟨key, afterKey⟩ := key
      have h₂ := shortens_parseText hkey
      simp only [Option.bind_some]
      cases hcolon : token afterKey with
      | none => rfl
      | some colon =>
        obtain ⟨colon, afterColon⟩ := colon
        have h₃ := shortens_token hcolon
        simp only [Option.bind_some]
        rw [agree afterColon (by omega)]

/-- **The text bounds its depth**: every bound above its length reads the same. -/
theorem parseValue_depth {characters : List Char} {depth depth' : ℕ} (h : characters.length < depth)
    (h' : characters.length < depth') : parseValue depth characters = parseValue depth' characters := by
  suffices hall : ∀ (n : ℕ) (l : List Char), l.length ≤ n → ∀ d, n < d → parseValue d l = parseValue (n + 1) l by
    rw [hall _ characters le_rfl depth h, hall _ characters le_rfl depth' h']
  intro n
  induction n with
  | zero =>
    intro l hl d hd
    obtain ⟨d, rfl⟩ : ∃ e, d = e + 1 := ⟨d - 1, by omega⟩
    have hnone : token [] = none := rfl
    rw [List.length_eq_zero_iff.mp (Nat.le_zero.mp hl), parseValue, parseValue, hnone]
    simp only [bind, Option.bind_none]
  | succ n ih =>
    intro l hl d hd
    obtain ⟨d, rfl⟩ : ∃ e, d = e + 1 := ⟨d - 1, by omega⟩
    rw [parseValue, parseValue]
    cases htoken : token l with
    | none => simp only [bind, Option.bind_none]
    | some c =>
      obtain ⟨c, after⟩ := c
      have hafter := shortens_token htoken
      have agree : ∀ l' : List Char, l'.length ≤ n → parseValue d l' = parseValue (n + 1) l' :=
        fun l' hl' => ih l' hl' d (by omega)
      have hmember : ∀ l' : List Char, l'.length ≤ n →
          parseMember (parseValue d) l' = parseMember (parseValue (n + 1)) l' :=
        fun l' hl' => parseMember_congr agree hl'
      simp only [bind, Option.bind_some]
      rw [parseBracketed_congr (shortens_parseValue d) agree _ (by omega),
        parseBracketed_congr (shortens_parseMember (shortens_parseValue d)) hmember _ (by omega)]

/-! ### What is written -/

/-- A member of `JSON.stringify(object)`, its value written. -/
def stringifyMember (member : String × List Char) : List Char := stringifyText member.1 ++ ':' :: member.2

/-- `JSON.stringify(object)` of members with their values written. -/
def stringifyObject : List (String × List Char) → List Char
  | [] => ['\x7b', '\x7d']
  | first :: later =>
    '\x7b' :: stringifyMember first ++ later.flatMap (fun member => ',' :: stringifyMember member) ++ ['\x7d']

/-- `JSON.stringify(array)` of items written. -/
def stringifyArray : List (List Char) → List Char
  | [] => ['[', ']']
  | first :: later => '[' :: first ++ later.flatMap (fun item => ',' :: item) ++ [']']

/-- A written value is read, under any bound from some depth on. -/
def Written (depth : ℕ) (written : List Char) (value : Json) : Prop :=
  ∀ bound, depth ≤ bound → ∀ rest, parseValue bound (written ++ rest) = some (value, rest)

/-- It is read where a comma or a closing bracket follows. -/
def Delimited (depth : ℕ) (written : List Char) (value : Json) : Prop :=
  ∀ bound, depth ≤ bound → ∀ c, c = ',' ∨ c = ']' ∨ c = '\x7d' → ∀ rest,
    parseValue bound (written ++ c :: rest) = some (value, c :: rest)

theorem Written.delimited {depth : ℕ} {written : List Char} {value : Json} (h : Written depth written value) :
    Delimited depth written value :=
  fun bound hbound c _ rest => h bound hbound (c :: rest)

theorem token_cons {c : Char} (h : isSpace c = false) (rest : List Char) : token (c :: rest) = some (c, rest) := by
  rw [token, List.dropWhile_cons_of_neg (by simp [h])]

theorem stringifyText_append (text : String) (rest : List Char) :
    stringifyText text ++ rest = '"' :: (text.toList.flatMap escapeCharacter ++ '"' :: rest) := by
  simp [stringifyText]

/-- **Texts** are read. -/
theorem written_text (text : String) : Written 1 (stringifyText text) (.string text) := by
  intro bound hbound rest
  obtain ⟨depth, rfl⟩ : ∃ depth, bound = depth + 1 := ⟨bound - 1, by omega⟩
  rw [stringifyText_append, parseValue, token_cons (by decide)]
  simp only [bind, Option.bind_some, if_true]
  rw [parseText_stringify]
  rfl

theorem parseElements_written {α β : Type} {element : List Char → Option (α × List Char)} {close : Char}
    (hcomma : close ≠ ',') (hspace : isSpace close = false) (write : β → List Char) (value : β → α) {first : β}
    {later : List β} (h : ∀ b ∈ first :: later, ∀ c, c = ',' ∨ c = close → ∀ rest,
      element (write b ++ c :: rest) = some (value b, c :: rest)) {turns : ℕ}
    (hturns : later.length < turns) (rest : List Char) :
    parseElements element close turns (write first ++ later.flatMap (fun b => ',' :: write b) ++ close :: rest) =
      some ((first :: later).map value, rest) := by
  induction later generalizing first turns with
  | nil =>
    obtain ⟨turns, rfl⟩ : ∃ n, turns = n + 1 := ⟨turns - 1, by omega⟩
    rw [List.flatMap_nil, List.append_nil, parseElements, h first List.mem_cons_self close (.inr rfl)]
    simp only [bind, Option.bind_some, token_cons hspace, if_neg hcomma, if_true]
    rfl
  | cons second later ih =>
    obtain ⟨turns, rfl⟩ : ∃ n, turns = n + 1 := ⟨turns - 1, by omega⟩
    have hlater := ih (fun b hb => h b (List.mem_cons_of_mem _ hb)) (Nat.lt_of_succ_lt_succ hturns)
    rw [List.append_assoc, List.flatMap_cons, List.cons_append, List.cons_append, parseElements,
      h first List.mem_cons_self ',' (.inl rfl)]
    simp only [bind, Option.bind_some, token_cons (show isSpace ',' = false by decide), if_true]
    rw [hlater]
    rfl

theorem parseMember_written {depth : ℕ} {key : String} {written rest : List Char} {value : Json}
    (h : parseValue depth (written ++ rest) = some (value, rest)) :
    parseMember (parseValue depth) (stringifyMember (key, written) ++ rest) = some ((key, value), rest) := by
  rw [stringifyMember, List.append_assoc, stringifyText_append, parseMember, token_cons (by decide)]
  simp only [bind, Option.bind_some, ne_eq, not_true, if_false, List.cons_append]
  rw [parseText_stringify]
  simp only [Option.bind_some, token_cons (show isSpace ':' = false by decide), not_true, if_false, h]
  rfl

theorem length_le_elements {β : Type} (written : β → List Char) (later : List β) :
    later.length ≤ (later.flatMap fun element => ',' :: written element).length := by
  induction later with
  | nil => exact le_rfl
  | cons element later ih =>
    rw [List.flatMap_cons, List.length_append, List.length_cons, List.length_cons]
    omega

/-- A written value does not start with a closing bracket. -/
theorem Written.start {depth : ℕ} {written : List Char} {value : Json} (h : Written depth written value)
    (rest : List Char) : ∃ c after, token (written ++ rest) = some (c, after) ∧ c ≠ ']' := by
  have hread := h (depth + 1) (by omega) rest
  rw [parseValue] at hread
  cases htoken : token (written ++ rest) with
  | none =>
    rw [htoken] at hread
    cases hread
  | some first =>
    obtain ⟨c, after⟩ := first
    refine ⟨c, after, rfl, ?_⟩
    rintro rfl
    rw [htoken] at hread
    cases hread

/-- **Arrays** of values that are read are read. -/
theorem Written.array {depth : ℕ} {items : List (List Char × Json)} (h : ∀ item ∈ items, Written depth item.1 item.2) :
    Written (depth + 1) (stringifyArray (items.map Prod.fst)) (.array (items.map Prod.snd)) := by
  intro bound hbound rest
  obtain ⟨within, rfl⟩ : ∃ n, bound = n + 1 := ⟨bound - 1, by omega⟩
  have hopen : isSpace '[' = false := by decide
  have hclose : isSpace ']' = false := by decide
  cases items with
  | nil =>
    rw [List.map_nil, stringifyArray, List.cons_append, List.singleton_append, parseValue, token_cons hopen]
    simp only [bind, Option.bind_some, parseBracketed, token_cons hclose]
    rfl
  | cons first later =>
    have hitem : ∀ item ∈ first :: later, ∀ c, c = ',' ∨ c = ']' → ∀ after,
        parseValue within (item.1 ++ c :: after) = some (item.2, c :: after) :=
      fun item hitem c _ after => h item hitem within (by omega) (c :: after)
    have hclose' : ']' ≠ ',' := by decide
    have hread := @parseElements_written _ _ _ _ hclose' hclose Prod.fst Prod.snd first later hitem
    have harray : stringifyArray ((first :: later).map Prod.fst) ++ rest =
        '[' :: (first.1 ++ later.flatMap (fun item => ',' :: item.1) ++ ']' :: rest) := by
      simp [stringifyArray, List.flatMap_map]
    obtain ⟨c, after, hafter, hc⟩ := (h first List.mem_cons_self).start
      (later.flatMap (fun item => ',' :: item.1) ++ ']' :: rest)
    rw [← List.append_assoc] at hafter
    rw [harray, parseValue, token_cons hopen]
    simp only [bind, Option.bind_some, parseBracketed]
    rw [hafter, Option.bind_some, if_neg hc, hread]
    · rfl
    · have hmany := length_le_elements (fun item : List Char × Json => item.1) later
      simp only [List.length_append]
      omega

/-- **Objects** of values that are read in them are read. -/
theorem Delimited.object {depth : ℕ} {members : List (String × List Char × Json)}
    (h : ∀ member ∈ members, Delimited depth member.2.1 member.2.2) :
    Written (depth + 1) (stringifyObject (members.map fun member => (member.1, member.2.1)))
      (.object (members.map fun member => (member.1, member.2.2))) := by
  intro bound hbound rest
  obtain ⟨within, rfl⟩ : ∃ n, bound = n + 1 := ⟨bound - 1, by omega⟩
  have hopen : isSpace '\x7b' = false := by decide
  have hclose : isSpace '\x7d' = false := by decide
  cases members with
  | nil =>
    rw [List.map_nil, stringifyObject, List.cons_append, List.singleton_append, parseValue, token_cons hopen]
    simp only [bind, Option.bind_some, parseBracketed, token_cons hclose]
    rfl
  | cons first later =>
    have hfirst : ∀ after, ∃ after', token (stringifyMember (first.1, first.2.1) ++ after) = some ('"', after') := by
      intro after
      rw [stringifyMember, List.append_assoc, stringifyText_append]
      exact ⟨_, token_cons (by decide) _⟩
    have hmember : ∀ member ∈ first :: later, ∀ c, c = ',' ∨ c = '\x7d' → ∀ after,
        parseMember (parseValue within) (stringifyMember (member.1, member.2.1) ++ c :: after) =
          some ((member.1, member.2.2), c :: after) :=
      fun member hmember c hc after =>
        parseMember_written (h member hmember within (by omega) c (hc.imp_right .inr) after)
    have hclose' : '\x7d' ≠ ',' := by decide
    have hread := @parseElements_written _ _ _ _ hclose' hclose
      (fun member : String × List Char × Json => stringifyMember (member.1, member.2.1))
      (fun member => (member.1, member.2.2)) first later hmember
    have hobject : stringifyObject ((first :: later).map fun member => (member.1, member.2.1)) ++ rest =
        '\x7b' :: (stringifyMember (first.1, first.2.1) ++
          later.flatMap (fun member => ',' :: stringifyMember (member.1, member.2.1)) ++ '\x7d' :: rest) := by
      simp [stringifyObject, List.flatMap_map]
    obtain ⟨after, hafter⟩ := hfirst (later.flatMap (fun member => ',' :: stringifyMember (member.1, member.2.1)) ++
      '\x7d' :: rest)
    rw [← List.append_assoc] at hafter
    rw [hobject, parseValue, token_cons hopen]
    simp only [bind, Option.bind_some, parseBracketed]
    rw [hafter, Option.bind_some, if_neg (by decide), hread]
    · rfl
    · have hmany := length_le_elements (fun member : String × List Char × Json =>
        stringifyMember (member.1, member.2.1)) later
      simp only [List.length_append]
      omega

theorem Written.object {depth : ℕ} {members : List (String × List Char × Json)}
    (h : ∀ member ∈ members, Written depth member.2.1 member.2.2) :
    Written (depth + 1) (stringifyObject (members.map fun member => (member.1, member.2.1)))
      (.object (members.map fun member => (member.1, member.2.2))) :=
  Delimited.object fun member hmember => (h member hmember).delimited

/-- **A written value is the one that is parsed.** -/
theorem jsonParse_written {depth : ℕ} {written : List Char} {value : Json} (h : Written depth written value)
    (hdepth : depth ≤ written.length + 1) : jsonParse (String.ofList written) = some value := by
  have hread := h (written.length + 1) hdepth []
  rw [List.append_nil] at hread
  rw [jsonParse, String.toList_ofList, hread]
  rfl

end IndexTandem.Verification
