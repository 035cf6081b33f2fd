import IndexTandem.Database.Schema

/-!
# The generated column

`tandem_states.carrier_program` is generated from the keys of a state:
`LOWER(SHA2(UNHEX(CONCAT('5221', key_0, '21', key_1, '52ae')), 256))`. The bytes hashed
are those of the two-of-two witness script of the keys, whenever the columns hold keys
as they are written (`carrierProgram_of_keys`).
-/

namespace IndexTandem.Database

open Protocol

/-! ### The script of a carrier -/

/-- `carrierWitnessScript(key0, key1)`: two-of-two over the keys. -/
def carrierWitnessScript (key0 key1 : Bytes) : Bytes := [0x52, 0x21] ++ key0 ++ [0x21] ++ key1 ++ [0x52, 0xae]

/-- The P2WSH script with a witness program. -/
def programScript (program : Hash) : Bytes := [0x00, 0x20] ++ program.bytes

/-- `carrierScriptPubKey(key0, key1)`. -/
def carrierScriptPubKey (sha256 : Bytes → Hash) (key0 key1 : Bytes) : Bytes :=
  programScript (sha256 (carrierWitnessScript key0 key1))

theorem programScript_injective : Function.Injective programScript := fun _ _ h =>
  Hash.ext (List.append_cancel_left h)

/-! ### `UNHEX` -/

/-- The bytes of pairs of digits; nothing when one of them is no digit. -/
def unhexPairs : List Char → Option Bytes
  | [] => some []
  | [_] => none
  | a :: b :: rest => do
    let x ← hexValue a
    let y ← hexValue b
    let later ← unhexPairs rest
    pure (UInt8.ofNat (16 * x + y) :: later)

/-- `UNHEX(text)`: a single digit at the start is a byte of its own; `NULL` when a character is no digit. -/
def unhex (text : List Char) : Option Bytes :=
  if text.length % 2 = 1 then unhexPairs ('0' :: text) else unhexPairs text

/-- The column `carrier_program`. -/
def carrierProgram (sha256 : Bytes → Hash) (row : StateRow) : Option String :=
  (unhex ("5221".toList ++ row.key0.toList ++ "21".toList ++ row.key1.toList ++ "52ae".toList)).map
    fun script => (sha256 script).text

theorem unhexPairs_hexChars (value : Bytes) (rest : List Char) :
    unhexPairs (hexChars value ++ rest) = (unhexPairs rest).map (value ++ ·) := by
  induction value with
  | nil => simp [hexChars]
  | cons b l ih =>
    have hb := b.toNat_lt
    have h₁ := hexValue_hexDigit (b.toNat / 16) (by omega)
    have h₂ := hexValue_hexDigit (b.toNat % 16) (by omega)
    have hv : UInt8.ofNat (16 * (b.toNat / 16) + b.toNat % 16) = b := by
      rw [Nat.div_add_mod]
      exact UInt8.ofNat_toNat
    have hchars : hexChars (b :: l) = hexDigit (b.toNat / 16) :: hexDigit (b.toNat % 16) :: hexChars l := by
      simp [hexChars]
    rw [hchars, List.cons_append, List.cons_append, unhexPairs, h₁, h₂, ih]
    cases unhexPairs rest with
    | none => rfl
    | some later => exact congrArg (fun first => some (first :: (l ++ later))) hv

/-- **The column is the hash of the carrier's witness script**, when the keys are written in lower case. -/
theorem carrierProgram_of_keys (sha256 : Bytes → Hash) {row : StateRow} {key0 key1 : Bytes}
    (h₀ : row.key0 = toHex key0) (h₁ : row.key1 = toHex key1) :
    carrierProgram sha256 row = some (sha256 (carrierWitnessScript key0 key1)).text := by
  have htext : "5221".toList ++ row.key0.toList ++ "21".toList ++ row.key1.toList ++ "52ae".toList =
      hexChars (carrierWitnessScript key0 key1) := by
    have hfirst : "5221".toList = hexChars [0x52, 0x21] := by decide +kernel
    have hmiddle : "21".toList = hexChars [0x21] := by decide +kernel
    have hlast : "52ae".toList = hexChars [0x52, 0xae] := by decide +kernel
    rw [hfirst, hmiddle, hlast, h₀, h₁]
    simp only [toHex, String.toList_ofList, carrierWitnessScript]
    unfold hexChars
    simp only [List.flatMap_append]
  have heven : (hexChars (carrierWitnessScript key0 key1)).length % 2 ≠ 1 := by
    rw [length_hexChars]
    omega
  have hread := unhexPairs_hexChars (carrierWitnessScript key0 key1) []
  rw [List.append_nil] at hread
  unfold carrierProgram unhex
  rw [htext, if_neg heven, hread]
  simp [unhexPairs]

end IndexTandem.Database
