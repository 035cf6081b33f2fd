import IndexTandem.Indexer.Evidence
import IndexTandem.Library.BigEndian

/-!
# Strict DER signatures

The grammar of a strict DER signature with its hash type: `30 L 02 |R| R 02 |S| S t`, with
the shortest signed bytes of two natural numbers as `R` and `S`. The check of the indexer
accepts exactly the texts of this grammar of at most 73 bytes
(`isStrictDerWithHashType_iff`), and the slices that are read after it are `R` and `S`.
-/

namespace IndexTandem.Indexer

open Library Protocol

/-! ### The grammar -/

/-- `30 L 02 |R| R 02 |S| S t`, for any `R` and `S`. -/
def derText (rBytes sBytes : Bytes) (hashType : UInt8) : Bytes :=
  [0x30, UInt8.ofNat (rBytes.length + sBytes.length + 4), 0x02, UInt8.ofNat rBytes.length] ++ rBytes ++
    [0x02, UInt8.ofNat sBytes.length] ++ sBytes ++ [hashType]

/-- The signature of two numbers. -/
def derSignature (r s : ℕ) (hashType : UInt8) : Bytes := derText (signedBytes r) (signedBytes s) hashType

/-- The indexes that the check reads, and the ends of the slices read after it. -/
structure InRange (sig : Bytes) : Prop where
  /-- The indexes before `R`. -/
  header : 3 < sig.length
  /-- The first byte of `R`. -/
  r : 4 < sig.length
  /-- The second byte, when there are two. -/
  r' : 1 < (sig.getD 3 0).toNat → 5 < sig.length
  /-- The kind of the second number. -/
  kind : (sig.getD 3 0).toNat + 4 < sig.length
  /-- Its length. -/
  length : 5 + (sig.getD 3 0).toNat < sig.length
  /-- The first byte of `S`. -/
  s : (sig.getD 3 0).toNat + 6 < sig.length
  /-- The second byte, when there are two. -/
  s' : 1 < (sig.getD (5 + (sig.getD 3 0).toNat) 0).toNat → (sig.getD 3 0).toNat + 7 < sig.length
  /-- The slice of `R` ends inside. -/
  rSlice : 4 + (sig.getD 3 0).toNat ≤ sig.length
  /-- So does that of `S`. -/
  sSlice : 6 + (sig.getD 3 0).toNat + (sig.getD (5 + (sig.getD 3 0).toNat) 0).toNat ≤ sig.length

/-- What `checkSignature` reads from a signature: `r`, `s` and the hash type. -/
structure ReadsAs (sig : Bytes) (r s : ℕ) (hashType : UInt8) : Prop where
  /-- The slice at 4 is read as `r`. -/
  r : derInteger (slice sig 4 (4 + (sig.getD 3 0).toNat)) = r
  /-- The slice at `6 + lenR` is read as `s`. -/
  s : derInteger (slice sig (6 + (sig.getD 3 0).toNat)
    (6 + (sig.getD 3 0).toNat + (sig.getD (5 + (sig.getD 3 0).toNat) 0).toNat)) = s
  /-- The last byte. -/
  hashType : sig.getLast? = some hashType

/-! ### The parts of a signature -/

/-- Seven bytes around two runs. -/
def parts (h₀ h₁ h₂ h₃ : UInt8) (rBytes : Bytes) (m₀ m₁ : UInt8) (sBytes : Bytes) (t : UInt8) : Bytes :=
  h₀ :: h₁ :: h₂ :: h₃ :: (rBytes ++ m₀ :: m₁ :: (sBytes ++ [t]))

theorem exists_parts {sig : Bytes} {a b : ℕ} (h : a + b + 7 = sig.length) :
    ∃ h₀ h₁ h₂ h₃ rBytes m₀ m₁ sBytes t, sig = parts h₀ h₁ h₂ h₃ rBytes m₀ m₁ sBytes t ∧
      rBytes.length = a ∧ sBytes.length = b := by
  obtain ⟨h₀, h₁, h₂, h₃, hhead⟩ := List.length_eq_four.mp (show (sig.take 4).length = 4 by simp; omega)
  obtain ⟨m₀, m₁, hmiddle⟩ :=
    List.length_eq_two.mp (show (((sig.drop 4).drop a).take 2).length = 2 by simp; omega)
  obtain ⟨t, hlast⟩ :=
    List.length_eq_one_iff.mp (show ((((sig.drop 4).drop a).drop 2).drop b).length = 1 by simp; omega)
  refine ⟨h₀, h₁, h₂, h₃, (sig.drop 4).take a, m₀, m₁, (((sig.drop 4).drop a).drop 2).take b, t, ?_, ?_, ?_⟩
  · calc sig = sig.take 4 ++ ((sig.drop 4).take a ++ (((sig.drop 4).drop a).take 2 ++
          ((((sig.drop 4).drop a).drop 2).take b ++ (((sig.drop 4).drop a).drop 2).drop b))) := by
          simp only [List.take_append_drop]
      _ = parts h₀ h₁ h₂ h₃ ((sig.drop 4).take a) m₀ m₁ ((((sig.drop 4).drop a).drop 2).take b) t := by
          rw [hhead, hmiddle, hlast]
          rfl
  · simp
    omega
  · simp
    omega

section

variable {h₀ h₁ h₂ h₃ m₀ m₁ t : UInt8} {rBytes sBytes : Bytes}

@[simp] theorem length_parts :
    (parts h₀ h₁ h₂ h₃ rBytes m₀ m₁ sBytes t).length = rBytes.length + sBytes.length + 7 := by
  simp [parts]
  omega

theorem parts_r (i : ℕ) (h : i < rBytes.length) :
    (parts h₀ h₁ h₂ h₃ rBytes m₀ m₁ sBytes t).getD (4 + i) 0 = rBytes.getD i 0 := by
  simp [parts, Nat.add_comm 4, List.getElem?_append_left h]

theorem parts_kind : (parts h₀ h₁ h₂ h₃ rBytes m₀ m₁ sBytes t).getD (rBytes.length + 4) 0 = m₀ := by
  simp [parts]

theorem parts_length : (parts h₀ h₁ h₂ h₃ rBytes m₀ m₁ sBytes t).getD (5 + rBytes.length) 0 = m₁ := by
  rw [show 5 + rBytes.length = rBytes.length + 1 + 4 by omega]
  simp [parts]

theorem parts_s (i : ℕ) (h : i < sBytes.length) :
    (parts h₀ h₁ h₂ h₃ rBytes m₀ m₁ sBytes t).getD (rBytes.length + (6 + i)) 0 = sBytes.getD i 0 := by
  rw [show rBytes.length + (6 + i) = rBytes.length + (i + 2) + 4 by omega]
  simp [parts, List.getElem?_append_right, List.getElem?_append_left h]

theorem slice_r : slice (parts h₀ h₁ h₂ h₃ rBytes m₀ m₁ sBytes t) 4 (4 + rBytes.length) = rBytes := by
  simp [slice, parts]

theorem slice_s : slice (parts h₀ h₁ h₂ h₃ rBytes m₀ m₁ sBytes t) (6 + rBytes.length)
    (6 + rBytes.length + sBytes.length) = sBytes := by
  rw [slice, show 6 + rBytes.length + sBytes.length - (6 + rBytes.length) = sBytes.length by omega,
    show 6 + rBytes.length = rBytes.length + 2 + 4 by omega]
  have hdrop : rBytes.drop (rBytes.length + 2) = [] := List.drop_eq_nil_of_le (by omega)
  simp [parts, List.drop_append, hdrop]

end

/-! ### The check -/

theorem land_topBit : ∀ n < 256, n &&& 0x80 = 0 ↔ n < 128 := by decide +kernel

/-- The checks of `isStrictDerWithHashType`, one after the other. -/
structure StrictDer (sig : Bytes) (lenR lenS : ℕ) : Prop where
  /-- Its length. -/
  total : 9 ≤ sig.length ∧ sig.length ≤ 73
  /-- A sequence, -/
  sequence : sig.getD 0 0 = 0x30
  /-- of the rest without the hash type, -/
  rest : (sig.getD 1 0).toNat = sig.length - 3
  /-- with two runs in it. -/
  runs : lenR + lenS + 7 = sig.length
  /-- The first is an integer. -/
  r : sig.getD 2 0 = 0x02 ∧ lenR ≠ 0 ∧ (sig.getD 4 0).toNat < 128
  /-- No zero too many is in front. -/
  rShort : 1 < lenR → sig.getD 4 0 = 0 → 128 ≤ (sig.getD 5 0).toNat
  /-- So is the second. -/
  s : sig.getD (lenR + 4) 0 = 0x02 ∧ lenS ≠ 0 ∧ (sig.getD (lenR + 6) 0).toNat < 128
  /-- Likewise. -/
  sShort : 1 < lenS → sig.getD (lenR + 6) 0 = 0 → 128 ≤ (sig.getD (lenR + 7) 0).toNat

/-- **The check is its conditions.** -/
theorem isStrictDerWithHashType_eq_true {sig : Bytes} : isStrictDerWithHashType sig = true ↔
    StrictDer sig (sig.getD 3 0).toNat (sig.getD (5 + (sig.getD 3 0).toNat) 0).toNat := by
  have hbyte : ∀ i, (sig.getD i 0).toNat &&& 0x80 = 0 ↔ (sig.getD i 0).toNat < 128 := fun i =>
    land_topBit _ (UInt8.toNat_lt _)
  have heq : ∀ i (b : UInt8), (sig.getD i 0).toNat = b.toNat ↔ sig.getD i 0 = b := fun i b => UInt8.toNat_inj
  have h₁ : ∀ i, (sig.getD i 0).toNat = 0x30 ↔ sig.getD i 0 = 0x30 := fun i => heq i 0x30
  have h₂ : ∀ i, (sig.getD i 0).toNat = 0x02 ↔ sig.getD i 0 = 0x02 := fun i => heq i 0x02
  have h₃ : ∀ i, (sig.getD i 0).toNat = 0 ↔ sig.getD i 0 = 0 := fun i => heq i 0
  generalize hr : (sig.getD 3 0).toNat = lenR
  generalize hs : (sig.getD (5 + lenR) 0).toNat = lenS
  simp only [isStrictDerWithHashType, hr, hs, Bool.if_false_left, Bool.and_eq_true, Bool.not_eq_true',
    decide_eq_true_eq, Bool.or_eq_true, hbyte, h₁, h₂, h₃, not_lt, not_le, ne_eq, not_not,
    ge_iff_le, gt_iff_lt, not_or, not_and, and_true, and_imp, ← Bool.not_eq_true]
  constructor
  · rintro ⟨htotal, hsequence, hrest, -, hruns, ⟨⟨hkindR, hsomeR⟩, hposR⟩, hshortR, ⟨⟨hkindS, hsomeS⟩, hposS⟩, hshortS⟩
    exact ⟨htotal, hsequence, hrest, hruns, ⟨hkindR, hsomeR, hposR⟩, hshortR, ⟨hkindS, hsomeS, hposS⟩, hshortS⟩
  · rintro ⟨htotal, hsequence, hrest, hruns, ⟨hkindR, hsomeR, hposR⟩, hshortR, ⟨hkindS, hsomeS, hposS⟩, hshortS⟩
    exact ⟨htotal, hsequence, hrest, by omega, hruns, ⟨⟨hkindR, hsomeR⟩, hposR⟩, hshortR, ⟨⟨hkindS, hsomeS⟩, hposS⟩,
      hshortS⟩

section

variable {h₀ h₁ h₂ h₃ m₀ m₁ t : UInt8} {rBytes sBytes : Bytes}

theorem strictDer_parts : StrictDer (parts h₀ h₁ h₂ h₃ rBytes m₀ m₁ sBytes t) rBytes.length sBytes.length ↔
    rBytes.length + sBytes.length + 7 ≤ 73 ∧ h₀ = 0x30 ∧ h₁.toNat = rBytes.length + sBytes.length + 4 ∧ h₂ = 0x02 ∧
      m₀ = 0x02 ∧ Minimal rBytes ∧ Minimal sBytes := by
  constructor
  · rintro ⟨⟨-, htotal⟩, hsequence, hrest, -, ⟨hkindR, hsomeR, hposR⟩, hshortR, ⟨hkindS, hsomeS, hposS⟩, hshortS⟩
    rw [length_parts] at htotal hrest
    rw [parts_r 0 (by omega)] at hposR hshortR
    rw [parts_s 0 (by omega)] at hposS hshortS
    rw [parts_kind] at hkindS
    refine ⟨htotal, hsequence, by simpa [parts] using hrest, hkindR, hkindS, ⟨?_, hposR, fun h => ?_⟩, ?_, hposS, fun h => ?_⟩
    · exact fun h => hsomeR (by rw [h]; rfl)
    · rw [← parts_r 1 h]
      exact hshortR h
    · exact fun h => hsomeS (by rw [h]; rfl)
    · rw [← parts_s 1 h]
      exact hshortS h
  · rintro ⟨htotal, hsequence, hrest, hkindR, hkindS, ⟨hsomeR, hposR, hshortR⟩, ⟨hsomeS, hposS, hshortS⟩⟩
    have hR := List.length_pos_iff.mpr hsomeR
    have hS := List.length_pos_iff.mpr hsomeS
    refine ⟨by rw [length_parts]; omega, hsequence, ?_, length_parts.symm, ⟨hkindR, by omega, ?_⟩, fun h => ?_,
      ⟨parts_kind.trans hkindS, by omega, ?_⟩, fun h => ?_⟩
    · rw [length_parts]
      exact hrest
    · rw [parts_r 0 hR]
      exact hposR
    · rw [parts_r 0 hR, parts_r 1 h]
      exact hshortR h
    · rw [parts_s 0 hS]
      exact hposS
    · rw [parts_s 0 hS, parts_s 1 h]
      exact hshortS h

end

/-! ### The check accepts the grammar -/

theorem derText_eq (rBytes sBytes : Bytes) (t : UInt8) : derText rBytes sBytes t =
    parts 0x30 (UInt8.ofNat (rBytes.length + sBytes.length + 4)) 0x02 (UInt8.ofNat rBytes.length) rBytes
      0x02 (UInt8.ofNat sBytes.length) sBytes t := by
  simp [derText, parts]

theorem toNat_ofNat_length {n : ℕ} (h : n ≤ 73) : (UInt8.ofNat n).toNat = n := by
  rw [UInt8.toNat_ofNat']
  omega

/-- The lengths that the check reads from a text of the grammar. -/
theorem derText_lengths {rBytes sBytes : Bytes} {t : UInt8} (h : (derText rBytes sBytes t).length ≤ 73) :
    ((derText rBytes sBytes t).getD 3 0).toNat = rBytes.length ∧
      ((derText rBytes sBytes t).getD (5 + rBytes.length) 0).toNat = sBytes.length := by
  rw [derText_eq, length_parts] at h
  rw [derText_eq, parts_length]
  exact ⟨toNat_ofNat_length (by omega), toNat_ofNat_length (by omega)⟩

theorem readsAs_derSignature {r s : ℕ} {t : UInt8} (h : (derSignature r s t).length ≤ 73) :
    ReadsAs (derSignature r s t) r s t := by
  obtain ⟨hr, hs⟩ := derText_lengths h
  refine ⟨?_, ?_, ?_⟩
  · rw [derSignature, hr, derText_eq, slice_r]
    exact bigEndianValue_signedBytes r
  · rw [derSignature, hr, hs, derText_eq, slice_s]
    exact bigEndianValue_signedBytes s
  · rw [derSignature, derText, List.getLast?_concat]

theorem inRange_derSignature {r s : ℕ} {t : UInt8} (h : (derSignature r s t).length ≤ 73) :
    InRange (derSignature r s t) := by
  obtain ⟨hr, hs⟩ := derText_lengths h
  have hR := List.length_pos_iff.mpr (minimal_signedBytes r).some
  have hS := List.length_pos_iff.mpr (minimal_signedBytes s).some
  have hlength : (derSignature r s t).length = (signedBytes r).length + (signedBytes s).length + 7 := by
    rw [derSignature, derText_eq, length_parts]
  rw [derSignature] at hlength
  constructor <;> (simp only [derSignature, hr, hs, hlength]; omega)

/-- **The strict DER check accepts exactly its grammar.** A signature is accepted when it is the text of two natural
numbers and a hash type in at most 73 bytes. They are then unique, they are what is read from the slices, and no
index is out of range. -/
theorem isStrictDerWithHashType_iff (sig : Bytes) :
    (isStrictDerWithHashType sig = true ↔ ∃ r s t, sig = derSignature r s t ∧ sig.length ≤ 73) ∧
      ∀ r s t, sig = derSignature r s t → sig.length ≤ 73 → ReadsAs sig r s t ∧ InRange sig ∧
        ∀ r' s' t', sig = derSignature r' s' t' → r' = r ∧ s' = s ∧ t' = t := by
  refine ⟨?_, ?_⟩
  · rw [isStrictDerWithHashType_eq_true]
    constructor
    · intro strict
      obtain ⟨h₀, h₁, h₂, h₃, rBytes, m₀, m₁, sBytes, t, rfl, hr, hs⟩ := exists_parts strict.runs
      rw [← hr] at hs
      rw [← hr, ← hs, strictDer_parts] at strict
      obtain ⟨htotal, rfl, hrest, rfl, rfl, hR, hS⟩ := strict
      have h₃' : h₃ = UInt8.ofNat rBytes.length := by
        rw [hr]
        exact (UInt8.ofNat_toNat (x := h₃)).symm
      have h₁' : h₁ = UInt8.ofNat (rBytes.length + sBytes.length + 4) := by
        rw [← hrest, UInt8.ofNat_toNat]
      have hm₁ : m₁ = UInt8.ofNat sBytes.length := by
        rw [hs, parts_length, UInt8.ofNat_toNat]
      refine ⟨bigEndianValue rBytes, bigEndianValue sBytes, t, ?_, by rwa [length_parts]⟩
      rw [derSignature, signedBytes_bigEndianValue hR, signedBytes_bigEndianValue hS, derText_eq, h₁', h₃', hm₁]
    · rintro ⟨r, s, t, rfl, hlength⟩
      obtain ⟨hr, hs⟩ := derText_lengths hlength
      rw [derSignature, hr, hs]
      rw [derSignature, derText_eq, length_parts] at hlength
      rw [derText_eq, strictDer_parts]
      exact ⟨hlength, rfl, toNat_ofNat_length (by omega), rfl, rfl, minimal_signedBytes r, minimal_signedBytes s⟩
  · rintro r s t rfl hlength
    refine ⟨readsAs_derSignature hlength, inRange_derSignature hlength, fun r' s' t' he => ?_⟩
    have reads := readsAs_derSignature hlength
    have reads' := readsAs_derSignature (he ▸ hlength)
    rw [← he] at reads'
    exact ⟨reads'.r.symm.trans reads.r, reads'.s.symm.trans reads.s,
      Option.some.inj (reads'.hashType.symm.trans reads.hashType)⟩

theorem isStrictDerWithHashType_iff_sample : isStrictDerWithHashType (derSignature 200 7 1) = true ∧
    ReadsAs (derSignature 200 7 1) 200 7 1 := by
  have hlength : (derSignature 200 7 1).length ≤ 73 := by decide +kernel
  obtain ⟨accepted, reads⟩ := isStrictDerWithHashType_iff (derSignature 200 7 1)
  exact ⟨accepted.mpr ⟨200, 7, 1, rfl, hlength⟩, (reads 200 7 1 rfl hlength).1⟩

end IndexTandem.Indexer
