import Mathlib.Data.Nat.Bitwise
import Mathlib.Data.Int.Notation

/-!
# Bitwise operators on numbers

The operators `<<`, `>>>`, `|` and `&` of JavaScript read a number modulo `2^32` and count
shifts modulo 32. What they compute is the value of the same operators on natural numbers
as long as no bit leaves the word.
-/

namespace IndexTandem.Library

/-- A number as the operators read it. -/
def word (value : ℤ) : BitVec 32 := BitVec.ofInt 32 value

/-- `x << count`. -/
def shiftLeftWord (x : BitVec 32) (count : ℕ) : BitVec 32 := x <<< (count % 32)

/-- `x >>> count`. -/
def shiftRightWord (x : BitVec 32) (count : ℕ) : BitVec 32 := x >>> (count % 32)

/-- `(1 << width) - 1`. -/
def maskWord (width : ℕ) : BitVec 32 := shiftLeftWord 1 width - 1

theorem toNat_word (value : ℤ) : (word value).toNat = (value % 2 ^ 32).toNat := by
  rw [word, BitVec.toNat_ofInt]
  rfl

/-- A number below `2^32` is read as it is. -/
theorem toNat_word_natCast {n : ℕ} (h : n < 2 ^ 32) : (word n).toNat = n := by
  rw [toNat_word]
  omega

/-- A number and its remainder are read the same. -/
theorem word_emod (value : ℤ) : word (value % 2 ^ 32) = word value := by
  refine BitVec.eq_of_toNat_eq ?_
  rw [toNat_word, toNat_word]
  omega

/-- A shift to the left that loses no bit. -/
theorem toNat_shiftLeftWord {x : BitVec 32} {count : ℕ} (hcount : count < 32) (h : x.toNat <<< count < 2 ^ 32) :
    (shiftLeftWord x count).toNat = x.toNat <<< count := by
  rw [shiftLeftWord, Nat.mod_eq_of_lt hcount, BitVec.toNat_shiftLeft, Nat.mod_eq_of_lt h]

theorem toNat_shiftRightWord {x : BitVec 32} {count : ℕ} (hcount : count < 32) :
    (shiftRightWord x count).toNat = x.toNat >>> count := by
  rw [shiftRightWord, Nat.mod_eq_of_lt hcount, BitVec.toNat_ushiftRight]

theorem toNat_maskWord {width : ℕ} (h : width < 32) : (maskWord width).toNat = 2 ^ width - 1 := by
  have hpow : 2 ^ width < 2 ^ 32 := Nat.pow_lt_pow_right (by omega) h
  have hpos : 0 < 2 ^ width := Nat.two_pow_pos width
  have hshift : (1 : BitVec 32).toNat <<< width = 2 ^ width := Nat.one_shiftLeft width
  have hone : (shiftLeftWord 1 width).toNat = 2 ^ width := by
    rw [toNat_shiftLeftWord h (hshift ▸ hpow), hshift]
  rw [maskWord, BitVec.toNat_sub, hone]
  simp
  omega

/-- A word below `2^31` is not negative. -/
theorem toInt_of_lt {x : BitVec 32} (h : x.toNat < 2 ^ 31) : x.toInt = x.toNat :=
  BitVec.toInt_eq_toNat_of_lt (by omega)

end IndexTandem.Library
