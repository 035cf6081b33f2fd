import IndexTandem.Agreement.Envelope
import IndexTandem.Library.Base64Url
import IndexTandem.Library.Fields

/-!
# Cursors of the block events

A page of a block's events ends with a cursor: the block's height and hash, and the
position of the last event. Its text is the base64url form of the fields with a colon
between them. `decodeBlockEventsCursor` accepts the texts that this service issues and no
other spelling of them (`decodeBlockEventsCursor_iff`).
-/

namespace IndexTandem.Api

open Library Protocol Agreement

/-! ### The codec -/

/-- `CURSOR_VERSION`. -/
def CURSOR_VERSION : String := "tbe1"

/-- `U32_MAX`. -/
def U32_MAX : ℕ := 0xffff_ffff

/-- `BlockEventsCursor`. -/
structure BlockEventsCursor where
  /-- The height of the block. -/
  height : ℕ
  /-- Its hash. -/
  blockHash : String
  /-- The transaction of the last event. -/
  txIndex : ℕ
  /-- Its output. -/
  eventIndex : ℕ
  /-- Its place among the events of one transaction. -/
  subIndex : ℕ
  deriving DecidableEq

/-- The text of a number. -/
def digits (n : ℕ) : List Char := Nat.toDigits 10 n

/-- The fields of a cursor. -/
def BlockEventsCursor.fields (cursor : BlockEventsCursor) : List (List Char) :=
  [CURSOR_VERSION.toList, digits cursor.height, cursor.blockHash.toList, digits cursor.txIndex,
    digits cursor.eventIndex, digits cursor.subIndex]

/-- `Buffer.from(text)`. -/
def utf8 (text : List Char) : Bytes := text.flatMap String.utf8EncodeChar

/-- `buffer.toString("latin1")`. -/
def latin1 (data : Bytes) : List Char := data.map fun b => Char.ofNat b.toNat

/-- `encodeBlockEventsCursor(cursor)`. -/
def encodeBlockEventsCursor (cursor : BlockEventsCursor) : String :=
  String.ofList (Base64Url.encode (utf8 (separated ':' cursor.fields)))

/-- `(0|[1-9][0-9]{0,9})`. -/
def isShortCounter (field : List Char) : Bool := isCounter (String.ofList field) && field.length ≤ 10

/-- `Number(text)` of a field. -/
def numberOf (field : List Char) : ℕ := decimal (String.ofList field)

/-- `CURSOR_BODY.exec(body)`, as the cursor of its groups. No field of the pattern has a colon in it. -/
def matchBody (body : List Char) : Option BlockEventsCursor :=
  match fieldsBetween ':' body with
  | [version, height, blockHash, txIndex, eventIndex, subIndex] =>
    if version = CURSOR_VERSION.toList && isShortCounter height && isHex 32 (String.ofList blockHash) &&
        isShortCounter txIndex && isShortCounter eventIndex && isShortCounter subIndex then
      some ⟨numberOf height, String.ofList blockHash, numberOf txIndex, numberOf eventIndex, numberOf subIndex⟩
    else none
  | _ => none

/-- `/^[A-Za-z0-9_-]{1,200}$/`. -/
def isCursorText (raw : String) : Bool :=
  1 ≤ raw.toList.length && raw.toList.length ≤ 200 && raw.toList.all fun c => c ∈ Base64Url.alphabet

/-- `decodeBlockEventsCursor(raw)`. -/
def decodeBlockEventsCursor (raw : String) : Option BlockEventsCursor :=
  if !isCursorText raw then none
  else
    match matchBody (latin1 (Base64Url.decode raw.toList)) with
    | none => none
    | some cursor =>
      if cursor.txIndex > U32_MAX || cursor.eventIndex > U32_MAX || cursor.subIndex > U32_MAX then none
      else if encodeBlockEventsCursor cursor = raw then some cursor
      else none

/-! ### Numbers -/

/-- A cursor that the service can issue. -/
structure Issuable (cursor : BlockEventsCursor) : Prop where
  /-- The height has ten digits at most. -/
  height : cursor.height ≤ 9999999999
  /-- The hash is 32 bytes in lower case. -/
  blockHash : isHex 32 cursor.blockHash = true
  /-- The indexes have 32 bits. -/
  txIndex : cursor.txIndex ≤ U32_MAX
  /-- Likewise. -/
  eventIndex : cursor.eventIndex ≤ U32_MAX
  /-- Likewise. -/
  subIndex : cursor.subIndex ≤ U32_MAX

theorem numberOf_digits (n : ℕ) : numberOf (digits n) = n := decimal_toDigits n

/-- The text of a number of ten digits has the form that is read. -/
theorem isShortCounter_digits {n : ℕ} (h : n ≤ 9999999999) : isShortCounter (digits n) = true := by
  have hlength : (digits n).length ≤ 10 := (Nat.length_toDigits_le_iff (by omega) (by omega)).mpr (by omega)
  have hcounter : isCounter (String.ofList (digits n)) = true := isCounter_toDigits n
  simp [isShortCounter, hcounter, hlength]

theorem numberOf_le {field : List Char} (h : isShortCounter field = true) : numberOf field ≤ 9999999999 := by
  simp only [isShortCounter, Bool.and_eq_true, decide_eq_true_eq] at h
  obtain ⟨hcounter, hlength⟩ := h
  have hdigit : ∀ c ∈ field, c.toNat - 48 ≤ 9 := by
    intro c hc
    rw [isCounter, String.toList_ofList] at hcounter
    simp only [Bool.or_eq_true, Bool.and_eq_true, decide_eq_true_eq, List.all_eq_true] at hcounter
    rcases hcounter with rfl | ⟨-, hall⟩
    · obtain rfl := List.mem_singleton.mp hc
      decide
    · have hle : c.toNat ≤ '9'.toNat := (hall c hc).2
      have : '9'.toNat = 57 := rfl
      omega
  have hfold : ∀ (l : List Char) (n : ℕ), (∀ c ∈ l, c.toNat - 48 ≤ 9) →
      l.foldl (fun n c => 10 * n + (c.toNat - 48)) n + 1 ≤ (n + 1) * 10 ^ l.length := by
    intro l
    induction l with
    | nil => simp
    | cons c l ih =>
      intro n hl
      have hc := hl c List.mem_cons_self
      calc l.foldl (fun n c => 10 * n + (c.toNat - 48)) (10 * n + (c.toNat - 48)) + 1
          ≤ (10 * n + (c.toNat - 48) + 1) * 10 ^ l.length := ih _ fun d hd => hl d (List.mem_cons_of_mem _ hd)
        _ ≤ ((n + 1) * 10) * 10 ^ l.length := Nat.mul_le_mul_right _ (by omega)
        _ = (n + 1) * 10 ^ (c :: l).length := by rw [List.length_cons, Nat.pow_succ, Nat.mul_assoc, Nat.mul_comm 10]
  have hbound := hfold field 0 hdigit
  have hpow : 10 ^ field.length ≤ 10 ^ 10 := Nat.pow_le_pow_right (by omega) hlength
  rw [numberOf, decimal, String.toList_ofList]
  omega

/-! ### The fields of a cursor -/

/-- A text of ASCII characters is one byte for each, and is read back. -/
theorem latin1_utf8 {text : List Char} (ascii : ∀ c ∈ text, c.toNat < 128) :
    latin1 (utf8 text) = text ∧ (utf8 text).length = text.length := by
  induction text with
  | nil => exact ⟨rfl, rfl⟩
  | cons c text ih =>
    obtain ⟨hread, hlength⟩ := ih fun d hd => ascii d (List.mem_cons_of_mem _ hd)
    have hc := ascii c List.mem_cons_self
    have hone : String.utf8EncodeChar c = [UInt8.ofNat c.toNat] := by
      have hval : c.val.toNat ≤ 127 := by
        have : c.toNat = c.val.toNat := rfl
        omega
      simp only [String.utf8EncodeChar, if_pos hval]
      rfl
    have hback : Char.ofNat (UInt8.ofNat c.toNat).toNat = c := by
      rw [UInt8.toNat_ofNat', Nat.mod_eq_of_lt (by omega)]
      exact Char.ofNat_toNat c
    unfold latin1 at hread
    simp only [latin1, utf8, List.flatMap_cons, hone, List.map_cons, hback,
      List.cons_append, List.nil_append, List.length_cons] at hread hlength ⊢
    exact ⟨by rw [hread], by rw [hlength]⟩

theorem digits_ascii (n : ℕ) : ∀ c ∈ digits n, c.toNat < 128 ∧ c ≠ ':' := by
  intro c hc
  obtain ⟨-, hle⟩ := toDigits_all n c hc
  have hle' : c.toNat ≤ '9'.toNat := hle
  have h9 : '9'.toNat = 57 := rfl
  refine ⟨by omega, ?_⟩
  rintro rfl
  exact absurd hle' (by decide)

theorem hexDigits_ascii : ∀ c ∈ hexDigits, c.toNat < 128 ∧ c ≠ ':' := by
  have hall : (hexDigits.all fun c => c.toNat < 128 ∧ c ≠ ':') = true := by decide
  simpa only [List.all_eq_true, decide_eq_true_eq] using hall

theorem isHex_ascii {n : ℕ} {text : String} (h : isHex n text = true) :
    ∀ c ∈ text.toList, c.toNat < 128 ∧ c ≠ ':' := by
  simp only [isHex, Bool.and_eq_true, decide_eq_true_eq, List.all_eq_true] at h
  exact fun c hc => hexDigits_ascii c (h.2 c hc)

theorem fields_ascii {cursor : BlockEventsCursor} (hash : isHex 32 cursor.blockHash = true) :
    ∀ field ∈ cursor.fields, ∀ c ∈ field, c.toNat < 128 ∧ c ≠ ':' := by
  have hversion : (CURSOR_VERSION.toList.all fun c => c.toNat < 128 ∧ c ≠ ':') = true := by decide
  simp only [List.all_eq_true, decide_eq_true_eq] at hversion
  simp only [BlockEventsCursor.fields, List.forall_mem_cons]
  exact ⟨hversion, digits_ascii _, isHex_ascii hash, digits_ascii _, digits_ascii _, digits_ascii _, by simp⟩

theorem body_ascii {cursor : BlockEventsCursor} (hash : isHex 32 cursor.blockHash = true) :
    ∀ c ∈ separated ':' cursor.fields, c.toNat < 128 := by
  intro c hc
  rcases mem_separated hc with rfl | ⟨field, hf, hc⟩
  · decide
  · exact (fields_ascii hash field hf c hc).1

theorem fieldsBetween_body {cursor : BlockEventsCursor} (hash : isHex 32 cursor.blockHash = true) :
    fieldsBetween ':' (separated ':' cursor.fields) = cursor.fields := by
  have hfree : ∀ field ∈ cursor.fields, ':' ∉ field := fun field hf hm => (fields_ascii hash field hf _ hm).2 rfl
  exact fieldsBetween_separated (List.cons_ne_nil _ _) hfree

theorem latin1_decode {cursor : BlockEventsCursor} (hash : isHex 32 cursor.blockHash = true) :
    latin1 (Base64Url.decode (encodeBlockEventsCursor cursor).toList) = separated ':' cursor.fields := by
  rw [encodeBlockEventsCursor, String.toList_ofList, Base64Url.decode_encode, (latin1_utf8 (body_ascii hash)).1]

/-- Cursors with one text are one cursor. -/
theorem eq_of_encode {cursor other : BlockEventsCursor} (hash : isHex 32 cursor.blockHash = true)
    (hash' : isHex 32 other.blockHash = true) (h : encodeBlockEventsCursor cursor = encodeBlockEventsCursor other) :
    cursor = other := by
  have hfields : cursor.fields = other.fields := by
    rw [← fieldsBetween_body hash, ← fieldsBetween_body hash', ← latin1_decode hash, ← latin1_decode hash', h]
  have hnumber : ∀ {m n : ℕ}, digits m = digits n → m = n := fun {m n} hd => by
    rw [← numberOf_digits m, hd, numberOf_digits]
  simp only [BlockEventsCursor.fields, List.cons.injEq, true_and, and_true] at hfields
  obtain ⟨hheight, hhash, htx, hevent, hsub⟩ := hfields
  cases cursor
  cases other
  simp only [BlockEventsCursor.mk.injEq]
  exact ⟨hnumber hheight, String.toList_injective hhash, hnumber htx, hnumber hevent, hnumber hsub⟩

section

variable {cursor : BlockEventsCursor} (issuable : Issuable cursor)

include issuable

theorem Issuable.matchBody : matchBody (separated ':' cursor.fields) = some cursor := by
  unfold Api.matchBody
  rw [fieldsBetween_body issuable.blockHash]
  have htx : cursor.txIndex ≤ 9999999999 := le_trans issuable.txIndex (by decide)
  have hevent : cursor.eventIndex ≤ 9999999999 := le_trans issuable.eventIndex (by decide)
  have hsub : cursor.subIndex ≤ 9999999999 := le_trans issuable.subIndex (by decide)
  simp only [BlockEventsCursor.fields, isShortCounter_digits issuable.height, isShortCounter_digits htx,
    isShortCounter_digits hevent, isShortCounter_digits hsub, String.ofList_toList, issuable.blockHash,
    numberOf_digits, decide_true, Bool.and_self, if_true]

theorem Issuable.length_le : 4 ≤ (separated ':' cursor.fields).length ∧ (separated ':' cursor.fields).length ≤ 113 := by
  have hdigits : ∀ {n : ℕ}, n ≤ 9999999999 → (digits n).length ≤ 10 := fun hn =>
    (Nat.length_toDigits_le_iff (by omega) (by omega)).mpr (by omega)
  have h₁ := hdigits issuable.height
  have h₂ := hdigits (le_trans issuable.txIndex (by decide))
  have h₃ := hdigits (le_trans issuable.eventIndex (by decide))
  have h₄ := hdigits (le_trans issuable.subIndex (by decide))
  have hhash := issuable.blockHash
  simp only [isHex, Bool.and_eq_true, decide_eq_true_eq] at hhash
  have hversion : CURSOR_VERSION.toList.length = 4 := by decide
  simp only [BlockEventsCursor.fields, separated, List.intercalate, List.intersperse, List.flatten_cons,
    List.flatten_nil, List.append_nil, List.length_append, List.length_cons, List.length_nil, hversion, hhash.1]
  omega

theorem Issuable.isCursorText : isCursorText (encodeBlockEventsCursor cursor) = true := by
  obtain ⟨halphabet, hlength⟩ := Base64Url.encode_alphabet (utf8 (separated ':' cursor.fields))
  rw [(latin1_utf8 (body_ascii issuable.blockHash)).2] at hlength
  obtain ⟨hlow, hhigh⟩ := issuable.length_le
  simp only [Api.isCursorText, encodeBlockEventsCursor, String.toList_ofList, Bool.and_eq_true, decide_eq_true_eq,
    List.all_eq_true]
  refine ⟨⟨by omega, by omega⟩, halphabet⟩

theorem Issuable.decode : decodeBlockEventsCursor (encodeBlockEventsCursor cursor) = some cursor := by
  have hrange : (cursor.txIndex > U32_MAX || cursor.eventIndex > U32_MAX || cursor.subIndex > U32_MAX) = false := by
    simp [issuable.txIndex, issuable.eventIndex, issuable.subIndex]
  simp only [decodeBlockEventsCursor, issuable.isCursorText, latin1_decode issuable.blockHash, issuable.matchBody, hrange, Bool.not_true,
    Bool.false_eq_true, if_false, if_true]

end

/-- A matched body has a height of ten digits at most and a hash. -/
theorem matchBody_some {body : List Char} {cursor : BlockEventsCursor} (h : matchBody body = some cursor) :
    cursor.height ≤ 9999999999 ∧ isHex 32 cursor.blockHash = true := by
  unfold matchBody at h
  split at h
  · split_ifs at h with hform
    simp only [Bool.and_eq_true] at hform
    obtain ⟨⟨⟨⟨⟨-, hheight⟩, hhash⟩, -⟩, -⟩, -⟩ := hform
    obtain rfl := Option.some.inj h
    exact ⟨numberOf_le hheight, hhash⟩
  · cases h

/-- What is decoded can be issued, and is spelled as it is issued. -/
theorem decodeBlockEventsCursor_some {raw : String} {cursor : BlockEventsCursor}
    (h : decodeBlockEventsCursor raw = some cursor) : Issuable cursor ∧ raw = encodeBlockEventsCursor cursor := by
  unfold decodeBlockEventsCursor at h
  split_ifs at h
  split at h
  · cases h
  · rename_i matched hmatch
    split_ifs at h with hrange hcanonical
    obtain rfl := Option.some.inj h
    obtain ⟨hheight, hhash⟩ := matchBody_some hmatch
    simp only [Bool.or_eq_true, decide_eq_true_eq, not_or, not_lt] at hrange
    exact ⟨⟨hheight, hhash, hrange.1.1, hrange.1.2, hrange.2⟩, hcanonical.symm⟩

/-- **Decoding is the exact inverse of encoding.** Every cursor that can be issued is decoded from its text, and a
text is decoded only when it is that of such a cursor, which is then the only one and the result. -/
theorem decodeBlockEventsCursor_iff :
    (∀ cursor, Issuable cursor → decodeBlockEventsCursor (encodeBlockEventsCursor cursor) = some cursor) ∧
      ∀ raw, ((decodeBlockEventsCursor raw).isSome = true ↔
          ∃ cursor, Issuable cursor ∧ raw = encodeBlockEventsCursor cursor) ∧
        ∀ cursor, Issuable cursor → raw = encodeBlockEventsCursor cursor →
          decodeBlockEventsCursor raw = some cursor ∧
            ∀ other, Issuable other → raw = encodeBlockEventsCursor other → other = cursor := by
  refine ⟨fun cursor issuable => issuable.decode, fun raw => ⟨?_, ?_⟩⟩
  · constructor
    · intro h
      obtain ⟨cursor, hcursor⟩ := Option.isSome_iff_exists.mp h
      exact ⟨cursor, decodeBlockEventsCursor_some hcursor⟩
    · rintro ⟨cursor, issuable, rfl⟩
      rw [issuable.decode]
      rfl
  · rintro cursor issuable rfl
    refine ⟨issuable.decode, fun other issuable' h => ?_⟩
    have hdecode := issuable.decode
    rw [h, issuable'.decode] at hdecode
    exact Option.some.inj hdecode

/-- The cursor of the second event of a block. -/
theorem decodeBlockEventsCursor_sample :
    decodeBlockEventsCursor (encodeBlockEventsCursor ⟨840000, (Hash.fill 7).text, 12, 0, 1⟩) =
      some ⟨840000, (Hash.fill 7).text, 12, 0, 1⟩ :=
  decodeBlockEventsCursor_iff.1 _ ⟨by decide, by decide +kernel, by decide, by decide, by decide⟩

end IndexTandem.Api
