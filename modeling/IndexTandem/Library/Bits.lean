import Mathlib.Data.Nat.Bitwise

/-!
# Bits of numbers, highest first

The bits of a number in a fixed width, the highest first: how they split, that they
determine a number that fits, and what masks, shifts and exclusive or do to them.
-/

namespace IndexTandem.Library

/-- The low `width` bits of a number, the highest first. -/
def bitsOf : ℕ → ℕ → List Bool
  | 0, _ => []
  | width + 1, n => n.testBit width :: bitsOf width n

@[simp] theorem length_bitsOf (width n : ℕ) : (bitsOf width n).length = width := by
  induction width with
  | zero => rfl
  | succ width ih => simp [bitsOf, ih]

/-- Bits depend on the low bits only. -/
theorem bitsOf_congr {width m n : ℕ} (h : ∀ i < width, m.testBit i = n.testBit i) : bitsOf width m = bitsOf width n := by
  induction width with
  | zero => rfl
  | succ width ih =>
    rw [bitsOf, bitsOf, h width (by omega), ih fun i hi => h i (by omega)]

/-- The high bits come before the low ones. -/
theorem bitsOf_add (high low n : ℕ) : bitsOf (high + low) n = bitsOf high (n >>> low) ++ bitsOf low n := by
  induction high with
  | zero => simp [bitsOf]
  | succ high ih =>
    rw [Nat.succ_add, bitsOf, bitsOf, ih, Nat.testBit_shiftRight, Nat.add_comm low, List.cons_append]

theorem testBit_of_bitsOf {width m n : ℕ} (h : bitsOf width m = bitsOf width n) : ∀ i < width, m.testBit i = n.testBit i := by
  induction width with
  | zero => intro i hi; omega
  | succ width ih =>
    obtain ⟨hfirst, hrest⟩ := List.cons.inj h
    intro i hi
    rcases Nat.lt_succ_iff_lt_or_eq.mp hi with hi | rfl
    · exact ih hrest i hi
    · exact hfirst

/-- The bits determine a number that fits. -/
theorem bitsOf_inj {width m n : ℕ} (hm : m < 2 ^ width) (hn : n < 2 ^ width) (h : bitsOf width m = bitsOf width n) :
    m = n := by
  refine Nat.eq_of_testBit_eq fun i => ?_
  by_cases hi : i < width
  · exact testBit_of_bitsOf h i hi
  · have hpow : 2 ^ width ≤ 2 ^ i := Nat.pow_le_pow_right (by omega) (by omega)
    rw [Nat.testBit_lt_two_pow (by omega), Nat.testBit_lt_two_pow (by omega)]

/-- A mask keeps the bits below it. -/
theorem bitsOf_mask {width mask : ℕ} (h : width ≤ mask) (n : ℕ) :
    bitsOf width (n &&& (2 ^ mask - 1)) = bitsOf width n := by
  refine bitsOf_congr fun i hi => ?_
  have hmask : i < mask := by omega
  simp [hmask]

theorem bitsOf_zero (width : ℕ) : bitsOf width 0 = List.replicate width false := by
  induction width with
  | zero => rfl
  | succ width ih => simp [bitsOf, ih, List.replicate_succ]

/-- Bits shifted to the left are followed by zeros. -/
theorem bitsOf_shiftLeft (width shift n : ℕ) :
    bitsOf (width + shift) (n <<< shift) = bitsOf width n ++ List.replicate shift false := by
  have hlow : bitsOf shift (n <<< shift) = bitsOf shift 0 := by
    refine bitsOf_congr fun i hi => ?_
    simp [Nat.testBit_shiftLeft, hi]
  rw [bitsOf_add, Nat.shiftLeft_shiftRight, hlow, bitsOf_zero]

/-- A number shifted in has the bits of both. -/
theorem bitsOf_shiftIn {width shift n v : ℕ} (h : v < 2 ^ shift) :
    bitsOf (width + shift) ((n <<< shift) ||| v) = bitsOf width n ++ bitsOf shift v := by
  rw [bitsOf_add]
  congr 1
  · refine bitsOf_congr fun i _ => ?_
    have hpow : v < 2 ^ (shift + i) := lt_of_lt_of_le h (Nat.pow_le_pow_right (by omega) (by omega))
    simp [Nat.testBit_shiftRight, Nat.testBit_or, Nat.testBit_shiftLeft, Nat.testBit_lt_two_pow hpow]
  · refine bitsOf_congr fun i hi => ?_
    simp [Nat.testBit_or, Nat.testBit_shiftLeft, hi]

end IndexTandem.Library
