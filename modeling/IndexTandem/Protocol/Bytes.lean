import Mathlib.Data.List.Basic

/-!
# Bytes and hexadecimal text

The service keeps hashes, keys and outpoints as lowercase hexadecimal text and turns
them into bytes where they are hashed. `bytes` is `Buffer.from(text, "hex")`, which
reads pairs of digits up to the first pair that is not one; `toHex` writes the bytes
back. `IsHex n` says what a text of `n` bytes written by `toHex` looks like, and the
two functions are inverse to each other there (`bytes_toHex`, `toHex_bytes`).

The fixed-width writers are those of the protocol package, which throw a `RangeError`
when the value does not fit; an exception is its message.

A `Hash` is a text of 32 bytes and an `Outpoint` a text `txid:vout`, each by what it
says: the texts of two hashes are equal exactly when the hashes are.
-/

namespace IndexTandem.Protocol

/-- A `Uint8Array`. -/
abbrev Bytes := List UInt8

/-! ### Hexadecimal -/

/-- The sixteen digits `toString("hex")` writes. -/
def hexDigits : List Char :=
  ['0', '1', '2', '3', '4', '5', '6', '7', '8', '9', 'a', 'b', 'c', 'd', 'e', 'f']

/-- The digit of `n < 16`. -/
def hexDigit (n : ℕ) : Char := hexDigits.getD n '0'

/-- The value of a hexadecimal digit, in either case. -/
def hexValue (c : Char) : Option ℕ :=
  if '0' ≤ c ∧ c ≤ '9' then some (c.toNat - 48)
  else if 'a' ≤ c ∧ c ≤ 'f' then some (c.toNat - 87)
  else if 'A' ≤ c ∧ c ≤ 'F' then some (c.toNat - 55)
  else none

/-- The bytes of a run of digits, up to the first pair that is not two digits. -/
def ofHex : List Char → Bytes
  | a :: b :: rest =>
    match hexValue a, hexValue b with
    | some x, some y => UInt8.ofNat (16 * x + y) :: ofHex rest
    | _, _ => []
  | _ => []

/-- `bytes(hexValue)` of the reducer: `Buffer.from(hexValue, "hex")`. -/
def bytes (hexValue : String) : Bytes := ofHex hexValue.toList

/-- The digits of some bytes. -/
def hexChars (value : Bytes) : List Char :=
  value.flatMap fun b => [hexDigit (b.toNat / 16), hexDigit (b.toNat % 16)]

/-- `toHex(value)`: `Buffer.from(value).toString("hex")`. -/
def toHex (value : Bytes) : String := String.ofList (hexChars value)

/-- The text is `n` bytes of lowercase hexadecimal. -/
def IsHex (n : ℕ) (s : String) : Prop := s.toList.length = 2 * n ∧ ∀ c ∈ s.toList, c ∈ hexDigits

theorem hexValue_hexDigit : ∀ n < 16, hexValue (hexDigit n) = some n := by decide

theorem hexDigit_mem : ∀ n < 16, hexDigit n ∈ hexDigits := by decide

theorem hexDigits_value (c : Char) (hc : c ∈ hexDigits) : ∃ n < 16, hexValue c = some n ∧ hexDigit n = c := by
  have hall : (hexDigits.all fun c => (hexValue c).any fun n => n < 16 ∧ hexDigit n = c) = true := by decide
  obtain ⟨n, hn, h⟩ := (Option.any_eq_true _ _).mp (List.all_eq_true.mp hall c hc)
  obtain ⟨hlt, hd⟩ := of_decide_eq_true h
  exact ⟨n, hlt, hn, hd⟩

theorem map_toLower_hexDigits {l : List Char} (hl : ∀ c ∈ l, c ∈ hexDigits) : l.map Char.toLower = l := by
  have hall : (hexDigits.all fun c => c.toLower = c) = true := by decide
  have hlower : ∀ c ∈ hexDigits, c.toLower = c := by simpa using hall
  calc l.map Char.toLower = l.map id := List.map_congr_left fun c hc => hlower c (hl c hc)
    _ = l := List.map_id l

theorem ofHex_hexChars (value : Bytes) : ofHex (hexChars value) = value := by
  induction value with
  | nil => rfl
  | cons b l ih =>
    have hb := b.toNat_lt
    have h₁ := hexValue_hexDigit (b.toNat / 16) (by omega)
    have h₂ := hexValue_hexDigit (b.toNat % 16) (by omega)
    have hv : UInt8.ofNat (16 * (b.toNat / 16) + b.toNat % 16) = b := by
      rw [Nat.div_add_mod]
      exact UInt8.ofNat_toNat
    simp only [hexChars, List.flatMap_cons, List.cons_append, List.nil_append, ofHex, h₁, h₂, hv]
    exact congrArg _ ih

@[simp] theorem bytes_toHex (value : Bytes) : bytes (toHex value) = value := by
  simp [bytes, toHex, ofHex_hexChars]

theorem toHex_injective : Function.Injective toHex := fun a b h => by
  rw [← bytes_toHex a, h, bytes_toHex]

theorem length_hexChars (value : Bytes) : (hexChars value).length = 2 * value.length := by
  induction value with
  | nil => rfl
  | cons b l ih => simp only [hexChars, List.flatMap_cons, List.length_append, List.length_cons] at ih ⊢
                   simp only [List.length_nil]; omega

/-- What `toHex` writes is lowercase hexadecimal. -/
theorem isHex_toHex (value : Bytes) : IsHex value.length (toHex value) := by
  refine ⟨by simp [toHex, length_hexChars], fun c hc => ?_⟩
  simp only [toHex, String.toList_ofList, hexChars, List.mem_flatMap] at hc
  obtain ⟨b, -, hc⟩ := hc
  have hb := b.toNat_lt
  simp only [List.mem_cons, List.not_mem_nil, or_false] at hc
  rcases hc with rfl | rfl
  · exact hexDigit_mem _ (by omega)
  · exact hexDigit_mem _ (by omega)

theorem hexChars_ofHex : ∀ (n : ℕ) (l : List Char), l.length = 2 * n → (∀ c ∈ l, c ∈ hexDigits) →
    hexChars (ofHex l) = l ∧ (ofHex l).length = n
  | 0, l, hl, _ => by
    obtain rfl : l = [] := List.length_eq_zero_iff.mp (by omega)
    exact ⟨rfl, rfl⟩
  | n + 1, [], hl, _ => by simp at hl
  | n + 1, [_], hl, _ => by simp at hl; omega
  | n + 1, a :: b :: l, hl, hd => by
    obtain ⟨x, hx, hax, hxa⟩ := hexDigits_value a (hd a (by simp))
    obtain ⟨y, hy, hby, hyb⟩ := hexDigits_value b (hd b (by simp))
    obtain ⟨h₁, h₂⟩ := hexChars_ofHex n l (by simp at hl; omega) fun c hc => hd c (by simp [hc])
    have hv : (UInt8.ofNat (16 * x + y)).toNat = 16 * x + y := by
      rw [UInt8.toNat_ofNat']; omega
    have hdiv : (16 * x + y) / 16 = x := by omega
    have hmod : (16 * x + y) % 16 = y := by omega
    simp only [ofHex, hax, hby]
    refine ⟨?_, by simp [h₂]⟩
    simp only [hexChars, List.flatMap_cons, hv, hdiv, hmod, hxa, hyb, List.cons_append, List.nil_append]
    exact congrArg (fun t => a :: b :: t) h₁

theorem toHex_bytes {n : ℕ} {s : String} (h : IsHex n s) : toHex (bytes s) = s := by
  have := (hexChars_ofHex n s.toList h.1 h.2).1
  simp [toHex, bytes, this]

theorem length_bytes {n : ℕ} {s : String} (h : IsHex n s) : (bytes s).length = n :=
  (hexChars_ofHex n s.toList h.1 h.2).2

/-! ### Fixed widths -/

/-- `assertLength(value, length, name)`. -/
def assertLength (value : Bytes) (length : ℕ) (name : String) : Except String Unit :=
  if value.length ≠ length then
    throw (name ++ " must be " ++ toString length ++ " bytes, received " ++ toString value.length)
  else pure ()

/-- The `n` low bytes of a number, least significant first. -/
def littleEndian : ℕ → ℕ → Bytes
  | 0, _ => []
  | n + 1, value => UInt8.ofNat (value % 256) :: littleEndian n (value / 256)

@[simp] theorem length_littleEndian (n value : ℕ) : (littleEndian n value).length = n := by
  induction n generalizing value with
  | zero => rfl
  | succ n ih => simp [littleEndian, ih]

/-- `u8(value)`. -/
def u8 (value : ℕ) : Except String Bytes :=
  if value > 0xff then throw "invalid u8" else pure (littleEndian 1 value)

/-- `u16le(value)`. -/
def u16le (value : ℕ) : Except String Bytes :=
  if value > 0xffff then throw "invalid u16" else pure (littleEndian 2 value)

/-- `u32le(value)`. -/
def u32le (value : ℕ) : Except String Bytes :=
  if value > 0xffff_ffff then throw "invalid u32" else pure (littleEndian 4 value)

/-- `u64le(value)`. -/
def u64le (value : ℕ) : Except String Bytes :=
  if value > 0xffff_ffff_ffff_ffff then throw "invalid u64" else pure (littleEndian 8 value)

/-- `readU32LE(value, offset)`; its callers have checked that the four bytes are there. -/
def readU32LE (value : Bytes) (offset : ℕ) : ℕ :=
  (value.getD offset 0).toNat ||| ((value.getD (offset + 1) 0).toNat <<< 8) |||
    ((value.getD (offset + 2) 0).toNat <<< 16) ||| ((value.getD (offset + 3) 0).toNat <<< 24)

/-- `readU64LE(value, offset)`, likewise. -/
def readU64LE (value : Bytes) (offset : ℕ) : ℕ :=
  (List.range 8).foldr (fun index output => (output <<< 8) ||| (value.getD (offset + index) 0).toNat) 0

/-! ### Hashes -/

/-- A 32-byte value: a txid, a block hash, an object key, a namespace or a root, in
display order. The source holds it as lowercase hexadecimal text, `text`. -/
structure Hash where
  /-- The bytes, in display order. -/
  bytes : Bytes
  /-- There are 32. -/
  length_bytes : bytes.length = 32
  deriving DecidableEq

namespace Hash

@[ext] theorem ext {h k : Hash} (e : h.bytes = k.bytes) : h = k := by
  cases h; cases k; cases e; rfl

/-- The text of a hash. -/
def text (h : Hash) : String := toHex h.bytes

theorem text_injective : Function.Injective text := fun _ _ e => ext (toHex_injective e)

theorem isHex_text (h : Hash) : IsHex 32 h.text := h.length_bytes ▸ isHex_toHex h.bytes

@[simp] theorem bytes_text (h : Hash) : Protocol.bytes h.text = h.bytes := bytes_toHex _

/-- `n` repeated: `Uint8Array(32).fill(n)`. -/
def fill (n : UInt8) : Hash := ⟨List.replicate 32 n, by simp⟩

/-- `ZERO32`. -/
def zero : Hash := fill 0

/-- The bytes as a hash, when there are 32. -/
def ofBytes? (b : Bytes) : Option Hash := if h : b.length = 32 then some ⟨b, h⟩ else none

end Hash

/-- `wire32(displayHex)`: a txid or block hash in wire order. -/
def wire32 (displayHex : Hash) : Bytes := displayHex.bytes.reverse

@[simp] theorem length_wire32 (h : Hash) : (wire32 h).length = 32 := by simp [wire32, h.length_bytes]

theorem wire32_injective : Function.Injective wire32 :=
  fun _ _ e => Hash.ext (List.reverse_injective e)

/-! ### Outpoints -/

/-- An output of a transaction. The source holds it as the text `txid:vout`, `display`. -/
structure Outpoint where
  /-- The transaction. -/
  txid : Hash
  /-- The output's index. -/
  vout : UInt32
  deriving DecidableEq

/-- The display outpoint `txid:vout`. -/
def Outpoint.display (o : Outpoint) : String := o.txid.text ++ ":" ++ toString o.vout.toNat

/-- `outpointWire(outpoint)`: `txid_wire32 || vout_u32le`. -/
def outpointWire (o : Outpoint) : Bytes := wire32 o.txid ++ littleEndian 4 o.vout.toNat

@[simp] theorem length_outpointWire (o : Outpoint) : (outpointWire o).length = 36 := by
  simp [outpointWire]

/-- The four bytes of a number below 2^32 determine it. -/
theorem littleEndian_inj {a b : ℕ} (ha : a < 0x1_0000_0000) (hb : b < 0x1_0000_0000)
    (h : littleEndian 4 a = littleEndian 4 b) : a = b := by
  have low : ∀ {x y : ℕ}, UInt8.ofNat (x % 256) = UInt8.ofNat (y % 256) → x % 256 = y % 256 := by
    intro x y hxy
    have := congrArg UInt8.toNat hxy
    simpa using this
  simp only [littleEndian, List.cons.injEq, and_true] at h
  have h₀ := low h.1
  have h₁ := low h.2.1
  have h₂ := low h.2.2.1
  have h₃ := low h.2.2.2
  omega

theorem outpointWire_injective : Function.Injective outpointWire := by
  intro o p h
  have h' := List.append_inj h (by simp)
  have ho := o.vout.toNat_lt
  have hp := p.vout.toNat_lt
  have hv := littleEndian_inj (by omega) (by omega) h'.2
  have ht := wire32_injective h'.1
  cases o; cases p
  simp only [Outpoint.mk.injEq]
  exact ⟨ht, UInt32.toNat_inj.mp hv⟩

end IndexTandem.Protocol
