import IndexTandem.Protocol.Bitcoin
import IndexTandem.Protocol.Marker

/-!
# Carrier addresses

`decodeCarrierAddress` reads a native SegWit address of version 0 with a program of 32
bytes: case, prefix, characters and checksum are checked, and the groups of five bits
are regrouped into bytes without padding left over.

The case mappings of text in general are parameters; the length of a text is counted in
the units of UTF-16.
-/

namespace IndexTandem.Api

open Protocol

/-- `toLowerCase` and `toUpperCase` of any text. -/
structure Casing where
  /-- `toLowerCase`. -/
  toLowerCase : String → String
  /-- `toUpperCase`. -/
  toUpperCase : String → String

/-- `CHARSET`. -/
def CHARSET : List Char := "qpzry9x8gf2tvdw0s3jn54khce6mua7l".toList

/-- `GENERATORS`. -/
def GENERATORS : List ℕ := [0x3b6a57b2, 0x26508e6d, 0x1ea119fa, 0x3d4233dd, 0x2a1462b3]

/-- A decoded address. -/
structure CarrierAddress where
  /-- The address in lower case. -/
  address : String
  /-- Its witness program. -/
  witnessProgramHex : String
  deriving DecidableEq

/-- `networkHrp(network)`. -/
def networkHrp : NetworkCode → String
  | .mainnet => "bc"
  | .regtest => "bcrt"
  | _ => "tb"

/-- One turn of the loop of `polymod`. -/
def polymodStep (checksum value : ℕ) : ℕ :=
  let top := checksum >>> 25
  GENERATORS.zipIdx.foldl (fun checksum generator =>
    if (top >>> generator.2) &&& 1 ≠ 0 then checksum ^^^ generator.1 else checksum)
    (((checksum &&& 0x1ff_ffff) <<< 5) ^^^ value)

/-- `polymod(values)`. -/
def polymod (values : List ℕ) : ℕ := values.foldl polymodStep 1

/-- `hrpExpand(hrp)`. -/
def hrpExpand (hrp : List Char) : List ℕ :=
  hrp.map (fun character => character.toNat >>> 5) ++ [0] ++ hrp.map fun character => character.toNat &&& 31

/-- The inner loop of `convertBits`: the groups of `toBits` bits that `bits` bits hold, and how many bits are left. -/
def drain (toBits accumulator : ℕ) : ℕ → ℕ → List ℕ × ℕ
  | 0, bits => ([], bits)
  | turns + 1, bits =>
    if toBits ≤ bits then
      let rest := drain toBits accumulator turns (bits - toBits)
      (((accumulator >>> (bits - toBits)) &&& (1 <<< toBits - 1)) :: rest.1, rest.2)
    else ([], bits)

/-- The outer loop of `convertBits`: the groups, the accumulator and the bits left. -/
def regroup (fromBits toBits : ℕ) : List ℕ → ℕ → ℕ → Option (List ℕ × ℕ × ℕ)
  | [], accumulator, bits => some ([], accumulator, bits)
  | value :: values, accumulator, bits =>
    if value >>> fromBits ≠ 0 then none
    else
      let accumulator := ((accumulator <<< fromBits) ||| value) &&& (1 <<< (fromBits + toBits - 1) - 1)
      let drained := drain toBits accumulator (bits + fromBits) (bits + fromBits)
      (regroup fromBits toBits values accumulator drained.2).map fun rest => (drained.1 ++ rest.1, rest.2)

/-- `convertBits(values, fromBits, toBits, pad)`. -/
def convertBits (values : List ℕ) (fromBits toBits : ℕ) (pad : Bool) : Option (List ℕ) :=
  match regroup fromBits toBits values 0 0 with
  | none => none
  | some (result, accumulator, bits) =>
    let last := (accumulator <<< (toBits - bits)) &&& (1 <<< toBits - 1)
    if pad then some (if bits > 0 then result ++ [last] else result)
    else if bits ≥ fromBits ∨ last ≠ 0 then none
    else some result

/-- `value.length`: characters above U+FFFF count twice. -/
def utf16Length (characters : List Char) : ℕ :=
  characters.foldr (fun c length => (if c.toNat < 0x1_0000 then 1 else 2) + length) 0

/-- The text before and after the last separator. -/
def splitAtLast (separator : Char) (characters : List Char) : Option (List Char × List Char) :=
  if separator ∈ characters then
    let after := (characters.reverse.takeWhile (· ≠ separator)).reverse
    some (characters.take (characters.length - after.length - 1), after)
  else none

/-- `decodeCarrierAddress(value, network)`. -/
def decodeCarrierAddress (casing : Casing) (value : String) (network : NetworkCode) : Option CarrierAddress :=
  if utf16Length value.toList < 14 ∨ utf16Length value.toList > 90 then none
  else if value ≠ casing.toLowerCase value ∧ value ≠ casing.toUpperCase value then none
  else
    let address := casing.toLowerCase value
    match splitAtLast '1' address.toList with
    | none => none
    | some (hrp, characters) =>
      if hrp = [] ∨ utf16Length characters < 6 then none
      else if hrp ≠ (networkHrp network).toList then none
      else
        match characters.mapM fun character => CHARSET.idxOf? character with
        | none => none
        | some data =>
          if polymod (hrpExpand hrp ++ data) ≠ 1 then none
          else
            let payload := data.take (data.length - 6)
            if payload.head? ≠ some 0 then none
            else
              match convertBits (payload.drop 1) 5 8 false with
              | none => none
              | some program =>
                if program.length ≠ 32 then none
                else some ⟨address, toHex (program.map UInt8.ofNat)⟩

theorem decodeCarrierAddress_program {casing : Casing} {value : String} {network : NetworkCode}
    {decoded : CarrierAddress} (h : decodeCarrierAddress casing value network = some decoded) :
    ∃ program : Hash, decoded.witnessProgramHex = program.text := by
  unfold decodeCarrierAddress at h
  split_ifs at h
  dsimp only at h
  split at h
  · cases h
  split_ifs at h
  split at h
  · cases h
  split_ifs at h
  split at h
  · cases h
  · rename_i program _
    split_ifs at h with hlength
    obtain rfl := Option.some.inj h
    exact ⟨⟨program.map UInt8.ofNat, by simpa using hlength⟩, rfl⟩

end IndexTandem.Api
