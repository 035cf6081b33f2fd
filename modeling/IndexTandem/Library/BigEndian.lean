import Mathlib.Data.List.Induction
import Mathlib.Data.Nat.Digits.Defs

/-!
# Big-endian numbers

Numbers written as bytes, the highest byte first. Every number has one text without a
leading zero (`bigEndian`), and one text that is read back as a signed number of the same
value: the same bytes, with a zero in front when the top bit is set (`signedBytes`).
-/

namespace IndexTandem.Library

/-! ### Unsigned numbers -/

/-- The number that bytes write. -/
def bigEndianValue (l : List UInt8) : ℕ := l.foldl (fun n b => 256 * n + b.toNat) 0

theorem bigEndianValue_concat (l : List UInt8) (b : UInt8) :
    bigEndianValue (l ++ [b]) = 256 * bigEndianValue l + b.toNat := by
  simp [bigEndianValue]

theorem bigEndianValue_zero_cons (l : List UInt8) : bigEndianValue (0 :: l) = bigEndianValue l := by
  simp [bigEndianValue]

/-- The bytes of a number; none for zero. -/
def bigEndian (n : ℕ) : List UInt8 := (Nat.digits 256 n).reverse.map UInt8.ofNat

@[simp] theorem bigEndian_zero : bigEndian 0 = [] := by simp [bigEndian]

theorem bigEndian_of_pos {n : ℕ} (h : 0 < n) : bigEndian n = bigEndian (n / 256) ++ [UInt8.ofNat (n % 256)] := by
  simp [bigEndian, Nat.digits_def' (by omega : 1 < 256) h]

/-- The bytes of a number write it. -/
@[simp] theorem bigEndianValue_bigEndian (n : ℕ) : bigEndianValue (bigEndian n) = n := by
  induction n using Nat.strong_induction_on with
  | _ n ih =>
    rcases Nat.eq_zero_or_pos n with rfl | hn
    · simp [bigEndianValue]
    · rw [bigEndian_of_pos hn, bigEndianValue_concat, ih (n / 256) (by omega), UInt8.toNat_ofNat']
      omega

/-- The first byte of a number is not zero. -/
theorem head?_bigEndian_ne (n : ℕ) : (bigEndian n).head? ≠ some 0 := by
  induction n using Nat.strong_induction_on with
  | _ n ih =>
    rcases Nat.eq_zero_or_pos n with rfl | hn
    · simp
    · rw [bigEndian_of_pos hn]
      cases hrest : bigEndian (n / 256) with
      | cons b l =>
        have := ih (n / 256) (by omega)
        rw [hrest] at this
        simpa using this
      | nil =>
        have hsmall : n / 256 = 0 := by
          have := bigEndianValue_bigEndian (n / 256)
          rw [hrest] at this
          exact this.symm
        intro h
        have hzero : UInt8.ofNat (n % 256) = 0 := by simpa using h
        have := congrArg UInt8.toNat hzero
        rw [UInt8.toNat_ofNat'] at this
        simp at this
        omega

theorem bigEndianValue_pos {l : List UInt8} (hne : l ≠ []) (hhead : l.head? ≠ some 0) : 0 < bigEndianValue l := by
  induction l using List.reverseRecOn with
  | nil => exact absurd rfl hne
  | append_singleton l b ih =>
    rw [bigEndianValue_concat]
    by_cases hl : l = []
    · subst hl
      have hb : b ≠ 0 := by simpa using hhead
      have : b.toNat ≠ 0 := fun h => hb (UInt8.toNat.inj h)
      omega
    · obtain ⟨c, l, rfl⟩ := List.exists_cons_of_ne_nil hl
      have := ih hl (by simpa using hhead)
      omega

/-- **Without a leading zero the bytes are those of the number.** -/
theorem bigEndian_bigEndianValue {l : List UInt8} (hhead : l.head? ≠ some 0) : bigEndian (bigEndianValue l) = l := by
  induction l using List.reverseRecOn with
  | nil => simp [bigEndianValue]
  | append_singleton l b ih =>
    have hpos := bigEndianValue_pos (List.append_ne_nil_of_right_ne_nil l (List.cons_ne_nil b [])) hhead
    have hhead' : l.head? ≠ some 0 := by
      cases l with
      | nil => simp
      | cons c l => simpa using hhead
    have hb := b.toNat_lt
    rw [bigEndian_of_pos hpos, bigEndianValue_concat]
    have hq : (256 * bigEndianValue l + b.toNat) / 256 = bigEndianValue l := by omega
    have hr : (256 * bigEndianValue l + b.toNat) % 256 = b.toNat := by omega
    rw [hq, hr, ih hhead', UInt8.ofNat_toNat]

/-! ### Signed numbers that are not negative -/

/-- The bytes with a zero in front when their top bit is set; one zero when there are none. -/
def withSign : List UInt8 → List UInt8
  | [] => [0]
  | b :: l => if 128 ≤ b.toNat then 0 :: b :: l else b :: l

/-- The shortest bytes of a number whose top bit is not set. -/
def signedBytes (n : ℕ) : List UInt8 := withSign (bigEndian n)

/-- Such bytes: there are some, the top bit is not set, and a zero in front is needed. -/
structure Minimal (l : List UInt8) : Prop where
  /-- There are some. -/
  some : l ≠ []
  /-- The top bit is not set. -/
  positive : (l.getD 0 0).toNat < 128
  /-- A zero in front of other bytes is needed. -/
  short : 1 < l.length → l.getD 0 0 = 0 → 128 ≤ (l.getD 1 0).toNat

@[simp] theorem bigEndianValue_withSign (l : List UInt8) : bigEndianValue (withSign l) = bigEndianValue l := by
  cases l with
  | nil => rfl
  | cons b l =>
    rw [withSign]
    split_ifs
    · exact bigEndianValue_zero_cons _
    · rfl

@[simp] theorem bigEndianValue_signedBytes (n : ℕ) : bigEndianValue (signedBytes n) = n := by
  simp [signedBytes]

theorem minimal_signedBytes (n : ℕ) : Minimal (signedBytes n) := by
  have hhead := head?_bigEndian_ne n
  unfold signedBytes
  cases hb : bigEndian n with
  | nil => exact ⟨by simp [withSign], by simp [withSign], by simp [withSign]⟩
  | cons b l =>
    rw [hb] at hhead
    have hne : b ≠ 0 := by simpa using hhead
    rw [withSign]
    split_ifs with hbig
    · exact ⟨by simp, by simp, by simpa using hbig⟩
    · exact ⟨by simp, by simpa using hbig, fun _ h => absurd (by simpa using h) hne⟩

/-- **Such bytes are those of their number.** -/
theorem signedBytes_bigEndianValue {l : List UInt8} (h : Minimal l) : signedBytes (bigEndianValue l) = l := by
  obtain ⟨hsome, hpositive, hshort⟩ := h
  unfold signedBytes
  match l, hsome with
  | b :: l, _ =>
    by_cases hb : b = 0
    · subst hb
      rw [bigEndianValue_zero_cons]
      cases l with
      | nil => simp [bigEndianValue, withSign]
      | cons c l =>
        have hc : 128 ≤ c.toNat := hshort (by simp) rfl
        have hne : c ≠ 0 := by
          rintro rfl
          simp at hc
        rw [bigEndian_bigEndianValue (by simpa using hne), withSign, if_pos hc]
    · have hlow : ¬128 ≤ b.toNat := by simpa using hpositive
      rw [bigEndian_bigEndianValue (by simpa using hb), withSign, if_neg hlow]

end IndexTandem.Library
