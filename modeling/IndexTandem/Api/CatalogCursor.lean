import IndexTandem.Api.BlockEventsCursor
import IndexTandem.Api.CatalogAdmission
import IndexTandem.Verification.JsonText

/-!
# Cursors of the catalog

A cursor names the last object of a page, the page size, the number of objects so far and the snapshot they are of. It
is JSON in base64url, and a code of the text under the secret of the service comes after it.

What is issued is read back under the same secret and page size, and under no other page size
(`catalogCursor_sound`). The hashes are only tested as texts, so an array of one hash is read as well. The HMAC is a
parameter, and so is the reading of JSON numbers that are not plain digits.
-/

namespace IndexTandem.Api

open Library Protocol Agreement Verification

/-! ### The text of a cursor -/

/-- A value that `HASH.test` accepts. The test writes it as text, and an array as its elements. -/
inductive HashValue where
  /-- A hash. -/
  | text (hash : String)
  /-- An array of one such value. -/
  | array (item : HashValue)
  deriving DecidableEq

/-- `String(value)`. -/
def HashValue.written : HashValue → String
  | .text hash => hash
  | .array item => item.written

/-- `JSON.stringify(value)`. -/
def HashValue.stringify : HashValue → List Char
  | .text hash => stringifyText hash
  | .array item => '[' :: item.stringify ++ [']']

/-- The value. -/
def HashValue.json : HashValue → Json
  | .text hash => .string hash
  | .array item => .array [item.json]

/-- `Cursor`; its version is 1. -/
structure CatalogCursor where
  /-- The hash of the snapshot. -/
  snapshot : HashValue
  /-- The page size. -/
  limit : ℕ
  /-- The height of the last object. -/
  height : ℕ
  /-- Its key. -/
  key : HashValue
  /-- The number of objects up to it. -/
  offset : ℕ
  deriving DecidableEq

/-- What the platform provides. -/
structure CursorPlatform where
  /-- `createHmac("sha256", secret).update(text).digest()`. -/
  hmac : String → List Char → Hash
  /-- A JSON number that is written in another way than in plain digits, when it is a safe integer and not negative. -/
  spelled : String → Option ℕ

/-- The members of a cursor with their values written, and the values. -/
def CatalogCursor.members (cursor : CatalogCursor) : List (String × List Char × Json) :=
  [("v", digits 1, .number (String.ofList (digits 1))), ("snapshot", cursor.snapshot.stringify, cursor.snapshot.json),
    ("limit", digits cursor.limit, .number (String.ofList (digits cursor.limit))),
    ("height", digits cursor.height, .number (String.ofList (digits cursor.height))),
    ("key", cursor.key.stringify, cursor.key.json),
    ("offset", digits cursor.offset, .number (String.ofList (digits cursor.offset)))]

/-- `JSON.stringify(next)`. -/
def CatalogCursor.json (cursor : CatalogCursor) : List Char :=
  stringifyObject (cursor.members.map fun member => (member.1, member.2.1))

/-- `Buffer.from(JSON.stringify(next)).toString("base64url")`. -/
def CatalogCursor.payload (cursor : CatalogCursor) : List Char := Base64Url.encode (utf8 cursor.json)

/-- The code of a payload. -/
def macOf (platform : CursorPlatform) (secret : String) (payload : List Char) : List Char :=
  Base64Url.encode (platform.hmac secret payload).bytes

/-- The `nextCursor` that `page` issues. -/
def issue (platform : CursorPlatform) (secret : String) (cursor : CatalogCursor) : String :=
  String.ofList (cursor.payload ++ '.' :: macOf platform secret cursor.payload)

/-! ### Reading -/

/-- A number that is a safe integer and not negative. -/
def safeInteger (platform : CursorPlatform) : Json → Option ℕ
  | .number text =>
    if isCounter text then if decimal text ≤ MAX_SAFE_INTEGER then some (decimal text) else none
    else platform.spelled text
  | _ => none

/-- `HASH.test(value)`. What the values left out are written as, `null`, a number, `[object Object]` or a list with a
comma, is no hash. -/
def hashValue : Json → Option HashValue
  | .string text => if isHex 32 text then some (.text text) else none
  | .array [item] => (hashValue item).map .array
  | _ => none

/-- `buffer.toString("utf8")`, of bytes that are. -/
def utf8Text (data : Bytes) : Option (List Char) := data.toByteArray.utf8Decode?.map Array.toList

/-- The checks of what was parsed. -/
def cursorOf (platform : CursorPlatform) (limit : ℕ) (value : Json) : Option CatalogCursor := do
  let record ← value.record
  if String.intercalate "," (sorted record.keys) ≠ "height,key,limit,offset,snapshot,v" then none
  else if (record.get? "v").bind (safeInteger platform) ≠ some 1 ∨
      (record.get? "limit").bind (safeInteger platform) ≠ some limit then none
  else do
    let snapshot ← (record.get? "snapshot").bind hashValue
    let key ← (record.get? "key").bind hashValue
    let height ← (record.get? "height").bind (safeInteger platform)
    let offset ← (record.get? "offset").bind (safeInteger platform)
    if offset < 1 then none else some ⟨snapshot, limit, height, key, offset⟩

/-- Text over the alphabet. -/
def isBase64Url (text : List Char) : Bool := text.all fun c => c ∈ Base64Url.alphabet

/-- `cursor(raw, secret, limit)` of a text; nothing when it throws. -/
def parseCursor (platform : CursorPlatform) (raw secret : String) (limit : ℕ) : Option CatalogCursor :=
  if raw.toList.length ≤ 2048 then
    match fieldsBetween '.' raw.toList with
    | [payload, mac] =>
      if isBase64Url payload && payload ≠ [] && isBase64Url mac && mac.length = 43 then
        if macOf platform secret payload = mac ∧ Base64Url.encode (Base64Url.decode payload) = payload then do
          let text ← utf8Text (Base64Url.decode payload)
          let value ← jsonParse (String.ofList text)
          cursorOf platform limit value
        else none
      else none
    | _ => none
  else none

/-- `cursor(raw, secret, limit)`. -/
def catalogCursor (platform : CursorPlatform) (raw : Argument) (secret : String) (limit : ℕ) :
    Except String (Option CatalogCursor) :=
  match raw with
  | .missing => pure none
  | .text raw => (orError "invalid catalog cursor" (parseCursor platform raw secret limit)).map some
  | .other => throw "invalid catalog cursor"

/-! ### Numbers in JSON -/

theorem digits_isDigit (n : ℕ) : ∀ c ∈ digits n, isDigit c = true := by
  intro c hc
  simpa [isDigit] using toDigits_all n c hc

theorem span_digits (n : ℕ) {c : Char} (h : isDigit c = false) (rest : List Char) :
    (digits n ++ c :: rest).span isDigit = (digits n, c :: rest) := by
  rw [List.span_eq_takeWhile_dropWhile, List.takeWhile_append_of_pos (digits_isDigit n),
    List.dropWhile_append_of_pos (digits_isDigit n), List.takeWhile_cons_of_neg (by simp [h]),
    List.dropWhile_cons_of_neg (by simp [h]), List.append_nil]

theorem digits_ne_nil (n : ℕ) : digits n ≠ [] := Nat.toDigits_ne_nil

/-- The text of a number starts with 0 only when it is 0. -/
theorem digits_zero {n : ℕ} (h : (digits n).head? = some '0') : (digits n).length = 1 := by
  rcases Nat.eq_zero_or_pos n with rfl | hn
  · rfl
  · obtain ⟨c, rest, hdigits, hc, -⟩ := head_toDigits hn
    rw [digits, hdigits, List.head?_cons, Option.some.injEq] at h
    subst h
    exact absurd hc (by decide)

/-- The text of a number is read up to what follows it. -/
theorem parseNumber_digits (n : ℕ) {c : Char} (hc : c = ',' ∨ c = ']' ∨ c = '\x7d') (rest : List Char) :
    parseNumber (digits n ++ c :: rest) = some (String.ofList (digits n), c :: rest) := by
  have hfollows : isDigit c = false ∧ c ≠ '.' ∧ ¬(c = 'e' ∨ c = 'E') := by rcases hc with rfl | rfl | rfl <;> decide
  have hunsigned : ¬(digits n ++ c :: rest).head? = some '-' := by
    intro h
    rw [List.head?_append_of_ne_nil _ (digits_ne_nil n)] at h
    exact absurd (digits_isDigit n _ (List.mem_of_mem_head? h)) (by decide)
  have hread : parseDigits (digits n ++ c :: rest) = some (digits n, c :: rest) := by
    rw [parseDigits, span_digits n hfollows.1]
    cases h : digits n with
    | nil => exact absurd h (digits_ne_nil n)
    | cons _ _ => rfl
  have hinteger : ¬((digits n).head? = some '0' ∧ (digits n).length ≠ 1) := fun h => h.2 (digits_zero h.1)
  have hfraction : parseFraction (c :: rest) = some ([], c :: rest) := if_neg (by simpa using hfollows.2.1)
  have hexponent : parseExponent (c :: rest) = some ([], c :: rest) := if_neg hfollows.2.2
  unfold parseNumber
  simp only [if_neg hunsigned, List.length_nil, List.drop_zero, hread, bind, Option.bind_some, if_neg hinteger,
    hfraction, hexponent, List.nil_append, List.append_nil]
  rfl

/-- **Numbers** are read in arrays and objects. -/
theorem delimited_number (n : ℕ) : Delimited 1 (digits n) (.number (String.ofList (digits n))) := by
  intro bound hbound c hc rest
  obtain ⟨depth, rfl⟩ : ∃ depth, bound = depth + 1 := ⟨bound - 1, by omega⟩
  obtain ⟨d, others, hdigits⟩ := List.exists_cons_of_ne_nil (digits_ne_nil n)
  have hd : isDigit d = true := digits_isDigit n d (hdigits ▸ List.mem_cons_self)
  have hother : ∀ e, isDigit e = false → d ≠ e := by
    rintro e he rfl
    rw [hd] at he
    cases he
  have hspace : isSpace d = false := by
    simp [isSpace, hother ' ' (by decide), hother '\t' (by decide), hother '\n' (by decide), hother '\r' (by decide)]
  have hnumber := parseNumber_digits n hc rest
  rw [hdigits, List.cons_append] at hnumber ⊢
  rw [parseValue, token_cons hspace]
  simp only [bind, Option.bind_some]
  rw [if_neg (hother '"' (by decide)), if_neg (hother '[' (by decide)), if_neg (hother '\x7b' (by decide)),
    if_neg (hother 't' (by decide)), if_neg (hother 'f' (by decide)), if_neg (hother 'n' (by decide)), hnumber]
  rfl

/-! ### The text is short -/

theorem stringifyText_hex {text : String} (h : isHex 32 text = true) : stringifyText text = '"' :: text.toList ++ ['"'] := by
  have hplain : (hexDigits.all fun c => escapeCharacter c = [c]) = true := by decide
  simp only [List.all_eq_true, decide_eq_true_eq] at hplain
  simp only [isHex, Bool.and_eq_true, decide_eq_true_eq, List.all_eq_true] at h
  have hsame : text.toList.flatMap escapeCharacter = text.toList := by
    rw [List.flatMap_congr fun c hc => hplain c (h.2 c hc)]
    exact List.flatMap_singleton' _
  rw [stringifyText, hsame]

/-- An object is written with its members and a few more characters. -/
theorem mem_stringifyObject {members : List (String × List Char)} {c : Char} (h : c ∈ stringifyObject members) :
    c ∈ ['\x7b', '\x7d', ',', ':'] ∨ ∃ member ∈ members, c ∈ stringifyText member.1 ∨ c ∈ member.2 := by
  have hmember : ∀ member : String × List Char, c ∈ stringifyMember member →
      c ∈ ['\x7b', '\x7d', ',', ':'] ∨ c ∈ stringifyText member.1 ∨ c ∈ member.2 := by
    intro member hc
    rcases List.mem_append.mp hc with hc | hc
    · exact .inr (.inl hc)
    · rcases List.mem_cons.mp hc with rfl | hc
      · simp
      · exact .inr (.inr hc)
  cases members with
  | nil => exact .inl (by simp only [stringifyObject, List.mem_cons, List.not_mem_nil] at h ⊢; tauto)
  | cons first later =>
    simp only [stringifyObject, List.cons_append, List.mem_cons, List.mem_append, List.mem_flatMap, List.not_mem_nil,
      or_false] at h
    rcases h with rfl | (h | ⟨member, hm, rfl | h⟩) | rfl
    · simp
    · exact (hmember first h).imp_right fun h => ⟨first, List.mem_cons_self, h⟩
    · simp
    · exact (hmember member h).imp_right fun h => ⟨member, List.mem_cons_of_mem _ hm, h⟩
    · simp

theorem length_stringifyObject (members : List (String × List Char)) :
    (stringifyObject members).length ≤
      2 + (members.map fun member => (stringifyText member.1).length + member.2.length + 2).sum := by
  have hlater : ∀ later : List (String × List Char), (later.flatMap fun member => ',' :: stringifyMember member).length =
      (later.map fun member => (stringifyText member.1).length + member.2.length + 2).sum := by
    intro later
    induction later with
    | nil => rfl
    | cons member later ih =>
      rw [List.flatMap_cons, List.length_append, ih]
      simp [stringifyMember]
      omega
  cases members with
  | nil => simp [stringifyObject]
  | cons first later =>
    have hfirst : (stringifyMember first).length = (stringifyText first.1).length + (first.2.length + 1) := by
      simp [stringifyMember]
    simp only [stringifyObject, List.length_append, List.length_cons, List.length_nil, hlater, hfirst, List.map_cons,
      List.sum_cons]
    omega

/-- A cursor that can be issued. -/
structure CatalogCursor.Issuable (cursor : CatalogCursor) : Prop where
  /-- The snapshot is a hash. -/
  snapshot : ∃ text, cursor.snapshot = .text text ∧ isHex 32 text = true
  /-- So is the key. -/
  key : ∃ text, cursor.key = .text text ∧ isHex 32 text = true
  /-- The page size is a safe integer. -/
  limit : cursor.limit ≤ MAX_SAFE_INTEGER
  /-- So is the height, -/
  height : cursor.height ≤ MAX_SAFE_INTEGER
  /-- and the number of objects. -/
  offset : cursor.offset ≤ MAX_SAFE_INTEGER
  /-- There is an object. -/
  positive : 1 ≤ cursor.offset

theorem length_digits {n : ℕ} (h : n ≤ MAX_SAFE_INTEGER) : (digits n).length ≤ 16 := by
  refine (Nat.length_toDigits_le_iff (by omega) (by omega)).mpr ?_
  unfold MAX_SAFE_INTEGER at h
  omega

section

variable {cursor : CatalogCursor} (issuable : cursor.Issuable)

include issuable

theorem CatalogCursor.Issuable.ascii : ∀ c ∈ cursor.json, c.toNat < 128 := by
  have hmarks : (['\x7b', '\x7d', ',', ':'].all fun c => c.toNat < 128) = true := by decide
  have hkeys : (["v", "snapshot", "limit", "height", "key", "offset"].all fun key =>
      (stringifyText key).all fun c => c.toNat < 128) = true := by decide
  simp only [List.all_eq_true, decide_eq_true_eq] at hmarks hkeys
  have hhash : ∀ text : String, isHex 32 text = true → ∀ c ∈ stringifyText text, c.toNat < 128 := by
    intro text htext c hc
    rw [stringifyText_hex htext] at hc
    simp only [List.cons_append, List.mem_cons, List.mem_append, List.not_mem_nil, or_false] at hc
    rcases hc with rfl | hc | rfl
    · decide
    · exact (isHex_ascii htext c hc).1
    · decide
  have hnumber : ∀ n : ℕ, ∀ c ∈ digits n, c.toNat < 128 := fun n c hc => (digits_ascii n c hc).1
  obtain ⟨snapshot, hsnapshot, hsnapshotHex⟩ := issuable.snapshot
  obtain ⟨key, hkey, hkeyHex⟩ := issuable.key
  intro c hc
  rcases mem_stringifyObject hc with hc | ⟨member, hm, hc | hc⟩
  · exact hmarks c hc
  · refine hkeys member.1 ?_ c hc
    have hname := List.mem_map_of_mem (f := Prod.fst) hm
    simpa [CatalogCursor.members] using hname
  · simp only [CatalogCursor.members, hsnapshot, hkey, HashValue.stringify, List.map_cons, List.map_nil, List.mem_cons,
      List.not_mem_nil, or_false] at hm
    rcases hm with rfl | rfl | rfl | rfl | rfl | rfl
    · exact hnumber 1 c hc
    · exact hhash snapshot hsnapshotHex c hc
    · exact hnumber cursor.limit c hc
    · exact hnumber cursor.height c hc
    · exact hhash key hkeyHex c hc
    · exact hnumber cursor.offset c hc

theorem CatalogCursor.Issuable.length_json : cursor.json.length ≤ 400 := by
  have hhash : ∀ text : String, isHex 32 text = true → (stringifyText text).length = 66 := by
    intro text htext
    rw [stringifyText_hex htext]
    simp only [isHex, Bool.and_eq_true, decide_eq_true_eq] at htext
    simp [htext.1]
  have hkeys : (["v", "snapshot", "limit", "height", "key", "offset"].map fun key => (stringifyText key).length) =
      [3, 10, 7, 8, 5, 8] := by decide
  simp only [List.map_cons, List.map_nil, List.cons.injEq, and_true] at hkeys
  obtain ⟨hv, hsnapshot, hlimit, hheight, hkey, hoffset⟩ := hkeys
  obtain ⟨snapshot, hsnapshotText, hsnapshotHex⟩ := issuable.snapshot
  obtain ⟨key, hkeyText, hkeyHex⟩ := issuable.key
  have hone : (digits 1).length = 1 := by decide
  have h₁ := length_digits issuable.limit
  have h₂ := length_digits issuable.height
  have h₃ := length_digits issuable.offset
  refine (length_stringifyObject _).trans ?_
  simp only [CatalogCursor.members, hsnapshotText, hkeyText, HashValue.stringify, List.map_cons, List.map_nil,
    List.sum_cons, List.sum_nil, hv, hsnapshot, hlimit, hheight, hkey, hoffset, hone, hhash _ hsnapshotHex,
    hhash _ hkeyHex]
  omega

/-! ### The round trip -/

omit issuable in
theorem safeInteger_digits (platform : CursorPlatform) {n : ℕ} (h : n ≤ MAX_SAFE_INTEGER) :
    safeInteger platform (.number (String.ofList (digits n))) = some n := by
  have hread : decimal (String.ofList (digits n)) = n := decimal_toDigits n
  have hcounter : isCounter (String.ofList (digits n)) = true := isCounter_toDigits n
  simp only [safeInteger, hcounter, hread, if_pos h, if_true]

theorem CatalogCursor.Issuable.jsonParse_json : Verification.jsonParse (String.ofList cursor.json) =
    some (.object (cursor.members.map fun member => (member.1, member.2.2))) := by
  obtain ⟨snapshot, hsnapshot, -⟩ := issuable.snapshot
  obtain ⟨key, hkey, -⟩ := issuable.key
  have hwritten : Written 2 cursor.json (.object (cursor.members.map fun member => (member.1, member.2.2))) := by
    refine Delimited.object fun member hm => ?_
    simp only [CatalogCursor.members, hsnapshot, hkey, List.mem_cons, List.not_mem_nil, or_false] at hm
    rcases hm with rfl | rfl | rfl | rfl | rfl | rfl
    · exact delimited_number 1
    · exact (written_text snapshot).delimited
    · exact delimited_number cursor.limit
    · exact delimited_number cursor.height
    · exact (written_text key).delimited
    · exact delimited_number cursor.offset
  refine jsonParse_written hwritten ?_
  simp [CatalogCursor.json, CatalogCursor.members, stringifyObject, stringifyMember, stringifyText]

theorem CatalogCursor.Issuable.cursorOf (platform : CursorPlatform) (limit : ℕ) :
    Api.cursorOf platform limit (.object (cursor.members.map fun member => (member.1, member.2.2))) =
      if cursor.limit = limit then some cursor else none := by
  have hnodup : ((cursor.members.map fun member => (member.1, member.2.2)).map Prod.fst).Nodup := by
    show ["v", "snapshot", "limit", "height", "key", "offset"].Nodup
    decide
  have hget := JsMap.get?_ofList (cursor.members.map fun member => (member.1, member.2.2)) hnodup
  have hkeys := ((JsMap.get?_eq_lookup_iff hnodup).mp hget).1
  have hsorted : sorted (JsMap.ofList (cursor.members.map fun member => (member.1, member.2.2))).keys =
      ["height", "key", "limit", "offset", "snapshot", "v"] :=
    (sorted_eq_iff.mpr hkeys).trans (by decide : sorted ["v", "snapshot", "limit", "height", "key", "offset"] = _)
  have hv : _ = some (Json.number (String.ofList (digits 1))) := hget "v"
  have hsnapshot : _ = some cursor.snapshot.json := hget "snapshot"
  have hlimit : _ = some (Json.number (String.ofList (digits cursor.limit))) := hget "limit"
  have hheight : _ = some (Json.number (String.ofList (digits cursor.height))) := hget "height"
  have hkey : _ = some cursor.key.json := hget "key"
  have hoffset : _ = some (Json.number (String.ofList (digits cursor.offset))) := hget "offset"
  have hjoined : String.intercalate "," ["height", "key", "limit", "offset", "snapshot", "v"] =
      "height,key,limit,offset,snapshot,v" := by decide
  have hone : 1 ≤ MAX_SAFE_INTEGER := by decide
  have hread : ∀ value : HashValue, (∃ text, value = .text text ∧ isHex 32 text = true) →
      hashValue value.json = some value := by
    rintro _ ⟨text, rfl, hhex⟩
    simp only [HashValue.json, hashValue, if_pos hhex]
  unfold Api.cursorOf
  simp only [Json.record, Option.bind_eq_bind, Option.bind_some, hsorted, hjoined, ne_eq, not_true, hv, hsnapshot,
    hlimit, hheight, hkey, hoffset, safeInteger_digits platform hone, safeInteger_digits platform issuable.limit,
    safeInteger_digits platform issuable.height, safeInteger_digits platform issuable.offset,
    hread _ issuable.snapshot, hread _ issuable.key, if_true, false_or, Option.some.injEq, ite_not, if_neg (Nat.not_lt.mpr issuable.positive)]
  by_cases hsize : cursor.limit = limit
  · subst hsize
    rfl
  · rw [if_neg hsize, if_neg hsize]

omit issuable in
theorem isBase64Url_encode (data : Bytes) : isBase64Url (Base64Url.encode data) = true :=
  List.all_eq_true.mpr fun c hc => decide_eq_true ((Base64Url.encode_alphabet data).1 c hc)

omit issuable in
theorem length_macOf (platform : CursorPlatform) (secret : String) (payload : List Char) :
    (macOf platform secret payload).length = 43 := by
  rw [macOf, (Base64Url.encode_alphabet _).2, Hash.length_bytes]

theorem CatalogCursor.Issuable.length_payload : 0 < cursor.payload.length ∧ cursor.payload.length ≤ 600 := by
  have hnonempty : 0 < cursor.json.length := by
    simp [CatalogCursor.json, CatalogCursor.members, stringifyObject]
  have hshort := issuable.length_json
  rw [CatalogCursor.payload, (Base64Url.encode_alphabet _).2, (latin1_utf8 issuable.ascii).2]
  omega

omit issuable in
theorem utf8Text_utf8 (text : List Char) : utf8Text (utf8 text) = some text := by
  have hdecode : (utf8 text).toByteArray.utf8Decode? = some text.toArray := List.utf8Decode?_utf8Encode
  rw [utf8Text, hdecode, Option.map_some, List.toList_toArray]

/-- **What is issued is read back** under the same secret and page size, and under no other page size. -/
theorem CatalogCursor.Issuable.parseCursor (platform : CursorPlatform) (secret : String) (limit : ℕ) :
    Api.parseCursor platform (issue platform secret cursor) secret limit =
      if cursor.limit = limit then some cursor else none := by
  have hdot : '.' ∉ Base64Url.alphabet := by decide
  have hpayload : isBase64Url cursor.payload = true := isBase64Url_encode _
  have hmac : isBase64Url (macOf platform secret cursor.payload) = true := isBase64Url_encode _
  have hfree : ∀ text, isBase64Url text = true → '.' ∉ text := fun text htext hc =>
    hdot (of_decide_eq_true (List.all_eq_true.mp htext _ hc))
  have hfields : fieldsBetween '.' (cursor.payload ++ '.' :: macOf platform secret cursor.payload) =
      [cursor.payload, macOf platform secret cursor.payload] := by
    rw [fieldsBetween_append (hfree _ hpayload), fieldsBetween_of_free (hfree _ hmac)]
  obtain ⟨hpositive, hshort⟩ := issuable.length_payload
  have hlength : (cursor.payload ++ '.' :: macOf platform secret cursor.payload).length ≤ 2048 := by
    rw [List.length_append, List.length_cons, length_macOf]
    omega
  have hdecode : Base64Url.decode cursor.payload = utf8 cursor.json := Base64Url.decode_encode _
  have hsame : Base64Url.encode (utf8 cursor.json) = cursor.payload := rfl
  unfold Api.parseCursor issue
  rw [String.toList_ofList, if_pos hlength, hfields]
  simp only [hpayload, hmac, length_macOf, List.ne_nil_of_length_pos hpositive, hdecode, hsame, utf8Text_utf8,
    Option.bind_eq_bind, Option.bind_some, issuable.jsonParse_json, ne_eq, not_false_eq_true, decide_true, Bool.and_self,
    and_self, if_true]
  exact issuable.cursorOf platform limit

end

/-- What is known of a cursor that is accepted. -/
structure Accepted (platform : CursorPlatform) (raw secret : String) (limit : ℕ) (cursor : CatalogCursor) : Prop where
  /-- It comes with its code under the secret. -/
  coded : ∃ payload, payload ≠ [] ∧ raw.toList = payload ++ '.' :: macOf platform secret payload
  /-- It is for the page size. -/
  limit : cursor.limit = limit
  /-- Its snapshot is written as a hash, -/
  snapshot : isHex 32 cursor.snapshot.written = true
  /-- and so is its key. -/
  key : isHex 32 cursor.key.written = true
  /-- There is an object. -/
  positive : 1 ≤ cursor.offset

/-- A value that passes the test is the value that was tested, and is written as a hash. -/
theorem hashValue_some {value : Json} {read : HashValue} (h : hashValue value = some read) :
    read.json = value ∧ isHex 32 read.written = true := by
  induction read generalizing value with
  | text text =>
    unfold hashValue at h
    split at h
    · split_ifs at h with hhex
      cases h
      exact ⟨rfl, hhex⟩
    · obtain ⟨_, -, h⟩ := Option.map_eq_some_iff.mp h
      cases h
    · cases h
  | array item ih =>
    unfold hashValue at h
    split at h
    · split_ifs at h
      cases h
    · obtain ⟨_, hitem, h⟩ := Option.map_eq_some_iff.mp h
      cases h
      obtain ⟨hjson, hhex⟩ := ih hitem
      exact ⟨by rw [HashValue.json, hjson], hhex⟩
    · cases h

theorem cursorOf_some {platform : CursorPlatform} {limit : ℕ} {value : Json} {cursor : CatalogCursor}
    (h : cursorOf platform limit value = some cursor) :
    cursor.limit = limit ∧ isHex 32 cursor.snapshot.written = true ∧ isHex 32 cursor.key.written = true ∧
      1 ≤ cursor.offset := by
  unfold cursorOf at h
  obtain ⟨record, -, h⟩ := Option.bind_eq_some_iff.mp h
  split_ifs at h
  obtain ⟨snapshot, hsnapshot, h⟩ := Option.bind_eq_some_iff.mp h
  obtain ⟨key, hkey, h⟩ := Option.bind_eq_some_iff.mp h
  obtain ⟨height, -, h⟩ := Option.bind_eq_some_iff.mp h
  obtain ⟨offset, -, h⟩ := Option.bind_eq_some_iff.mp h
  split_ifs at h with hoffset
  obtain rfl := Option.some.inj h
  obtain ⟨_, -, hsnapshot⟩ := Option.bind_eq_some_iff.mp hsnapshot
  obtain ⟨_, -, hkey⟩ := Option.bind_eq_some_iff.mp hkey
  exact ⟨rfl, (hashValue_some hsnapshot).2, (hashValue_some hkey).2, Nat.not_lt.mp hoffset⟩

theorem parseCursor_some {platform : CursorPlatform} {raw secret : String} {limit : ℕ} {cursor : CatalogCursor}
    (h : parseCursor platform raw secret limit = some cursor) : Accepted platform raw secret limit cursor := by
  unfold parseCursor at h
  split_ifs at h
  split at h
  · rename_i payload mac hfields
    split_ifs at h with hform hmac
    obtain ⟨text, -, h⟩ := Option.bind_eq_some_iff.mp h
    obtain ⟨value, -, h⟩ := Option.bind_eq_some_iff.mp h
    obtain ⟨hlimit, hsnapshot, hkey, hpositive⟩ := cursorOf_some h
    simp only [Bool.and_eq_true, decide_eq_true_eq] at hform
    have htext := separated_fieldsBetween '.' raw.toList
    rw [hfields, separated_cons_cons, ← hmac.1] at htext
    refine ⟨⟨payload, hform.1.1.2, ?_⟩, hlimit, hsnapshot, hkey, hpositive⟩
    rw [← htext, hmac.1]
    simp [separated]
  · cases h

/-- **The cursors of the catalog.** What is issued is accepted under the same secret and page size, with every field
as it was, and refused under another page size; and whatever is accepted comes with its code under the secret, is for
the page size, and is well formed. -/
theorem catalogCursor_sound (platform : CursorPlatform) (secret : String) (limit : ℕ) :
    (∀ cursor : CatalogCursor, cursor.Issuable → catalogCursor platform (.text (issue platform secret cursor)) secret limit =
        if cursor.limit = limit then .ok (some cursor) else .error "invalid catalog cursor") ∧
      ∀ raw cursor, catalogCursor platform (.text raw) secret limit = .ok (some cursor) →
        Accepted platform raw secret limit cursor := by
  refine ⟨fun cursor issuable => ?_, fun raw cursor h => ?_⟩
  · rw [catalogCursor, issuable.parseCursor]
    by_cases hsize : cursor.limit = limit
    · rw [if_pos hsize, if_pos hsize]
      rfl
    · rw [if_neg hsize, if_neg hsize]
      rfl
  · rw [catalogCursor] at h
    cases hparse : parseCursor platform raw secret limit with
    | none =>
      rw [hparse] at h
      cases h
    | some read =>
      rw [hparse] at h
      obtain rfl : read = cursor := Option.some.inj (Except.ok.inj h)
      exact parseCursor_some hparse

/-- A platform with one code. -/
def onePlatform : CursorPlatform := ⟨fun _ _ => Hash.fill 7, fun _ => none⟩

/-- A cursor after two objects is accepted for pages of two, and refused for pages of one. -/
theorem catalogCursor_sound_sample :
    catalogCursor onePlatform
        (.text (issue onePlatform "s" ⟨.text (Hash.fill 1).text, 2, 102, .text (Hash.fill 2).text, 2⟩)) "s" 2 =
        .ok (some ⟨.text (Hash.fill 1).text, 2, 102, .text (Hash.fill 2).text, 2⟩) ∧
      catalogCursor onePlatform
        (.text (issue onePlatform "s" ⟨.text (Hash.fill 1).text, 2, 102, .text (Hash.fill 2).text, 2⟩)) "s" 1 =
        .error "invalid catalog cursor" := by
  have issuable : CatalogCursor.Issuable ⟨.text (Hash.fill 1).text, 2, 102, .text (Hash.fill 2).text, 2⟩ :=
    ⟨⟨_, rfl, isHex_text _⟩, ⟨_, rfl, isHex_text _⟩, by decide, by decide, by decide, by decide⟩
  exact ⟨(catalogCursor_sound onePlatform "s" 2).1 _ issuable, (catalogCursor_sound onePlatform "s" 1).1 _ issuable⟩

end IndexTandem.Api
