import Mathlib.Data.List.Basic

/-!
# Base64url without padding

Three bytes are four characters of an alphabet of 64; one or two bytes that are left over
are two or three characters, whose spare bits are zero. Reading ignores the spare bits, so
different texts can be read alike, but every encoding is read back
(`decode_encode`).
-/

namespace IndexTandem.Library.Base64Url

/-- `A-Z`, `a-z`, `0-9`, `-` and `_`. -/
def alphabet : List Char := "ABCDEFGHIJKLMNOPQRSTUVWXYZabcdefghijklmnopqrstuvwxyz0123456789-_".toList

/-- The character of six bits. -/
def digit (n : ℕ) : Char := alphabet.getD n 'A'

/-- The six bits of a character. -/
def value (c : Char) : Option ℕ := alphabet.idxOf? c

/-- `buffer.toString("base64url")`. -/
def encode : List UInt8 → List Char
  | [] => []
  | [a] => [digit (a.toNat / 4), digit (a.toNat % 4 * 16)]
  | [a, b] => [digit (a.toNat / 4), digit (a.toNat % 4 * 16 + b.toNat / 16), digit (b.toNat % 16 * 4)]
  | a :: b :: c :: rest =>
    digit (a.toNat / 4) :: digit (a.toNat % 4 * 16 + b.toNat / 16) :: digit (b.toNat % 16 * 4 + c.toNat / 64) ::
      digit (c.toNat % 64) :: encode rest

/-- The bytes of groups of six bits. -/
def join : List ℕ → List UInt8
  | w :: x :: y :: z :: rest =>
    UInt8.ofNat (w * 4 + x / 16) :: UInt8.ofNat (x % 16 * 16 + y / 4) :: UInt8.ofNat (y % 4 * 64 + z) :: join rest
  | [w, x, y] => [UInt8.ofNat (w * 4 + x / 16), UInt8.ofNat (x % 16 * 16 + y / 4)]
  | [w, x] => [UInt8.ofNat (w * 4 + x / 16)]
  | _ => []

/-- `Buffer.from(text, "base64url")`, for a text over the alphabet. -/
def decode (text : List Char) : List UInt8 := join (text.filterMap value)

/-! ### Characters -/

theorem value_digit : ∀ n < 64, value (digit n) = some n := by decide +kernel

theorem digit_mem {n : ℕ} (h : n < 64) : digit n ∈ alphabet := by
  have hlength : alphabet.length = 64 := by decide +kernel
  have hn : n < alphabet.length := by omega
  rw [digit, List.getD_eq_getElem?_getD, List.getElem?_eq_getElem hn]
  exact List.getElem_mem hn

/-- An encoding is a text over the alphabet, four characters for three bytes. -/
theorem encode_alphabet (data : List UInt8) :
    (∀ c ∈ encode data, c ∈ alphabet) ∧ (encode data).length = (4 * data.length + 2) / 3 := by
  induction data using encode.induct with
  | case1 => simp [encode]
  | case2 a =>
    have ha := a.toNat_lt
    simp only [encode, List.forall_mem_cons]
    exact ⟨⟨digit_mem (by omega), digit_mem (by omega), by simp⟩, by simp⟩
  | case3 a b =>
    have ha := a.toNat_lt
    have hb := b.toNat_lt
    simp only [encode, List.forall_mem_cons]
    exact ⟨⟨digit_mem (by omega), digit_mem (by omega), digit_mem (by omega), by simp⟩, by simp⟩
  | case4 a b c rest ih =>
    have ha := a.toNat_lt
    have hb := b.toNat_lt
    have hc := c.toNat_lt
    simp only [encode, List.forall_mem_cons, List.length_cons]
    refine ⟨⟨digit_mem (by omega), digit_mem (by omega), digit_mem (by omega), digit_mem (by omega), ih.1⟩, ?_⟩
    have := ih.2
    omega

/-! ### The round trip -/

/-- A byte from its parts. -/
theorem ofNat_parts (a : UInt8) {n : ℕ} (h : n = a.toNat) : UInt8.ofNat n = a := by
  rw [h, UInt8.ofNat_toNat]

/-- **An encoding is read back.** -/
theorem decode_encode (data : List UInt8) : decode (encode data) = data := by
  induction data using encode.induct with
  | case1 => rfl
  | case2 a =>
    have ha := a.toNat_lt
    simp only [decode, encode, List.filterMap_cons, List.filterMap_nil, value_digit _ (show a.toNat / 4 < 64 by omega),
      value_digit _ (show a.toNat % 4 * 16 < 64 by omega), join]
    rw [ofNat_parts a (by omega)]
  | case3 a b =>
    have ha := a.toNat_lt
    have hb := b.toNat_lt
    simp only [decode, encode, List.filterMap_cons, List.filterMap_nil, value_digit _ (show a.toNat / 4 < 64 by omega),
      value_digit _ (show a.toNat % 4 * 16 + b.toNat / 16 < 64 by omega),
      value_digit _ (show b.toNat % 16 * 4 < 64 by omega), join]
    rw [ofNat_parts a (by omega), ofNat_parts b (by omega)]
  | case4 a b c rest ih =>
    have ha := a.toNat_lt
    have hb := b.toNat_lt
    have hc := c.toNat_lt
    unfold decode at ih
    simp only [decode, encode, List.filterMap_cons, value_digit _ (show a.toNat / 4 < 64 by omega),
      value_digit _ (show a.toNat % 4 * 16 + b.toNat / 16 < 64 by omega),
      value_digit _ (show b.toNat % 16 * 4 + c.toNat / 64 < 64 by omega),
      value_digit _ (show c.toNat % 64 < 64 by omega), join, ih]
    rw [ofNat_parts a (by omega), ofNat_parts b (by omega), ofNat_parts c (by omega)]

end IndexTandem.Library.Base64Url
