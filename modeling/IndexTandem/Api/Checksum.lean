import IndexTandem.Api.CarrierAddress
import Mathlib.Data.Nat.Bitwise
import Mathlib.Tactic.IntervalCases

/-!
# The checksum

`polymod` is linear over exclusive or: a text with some characters changed has the residue
of the text and that of the changes (`residue_xor`). A step loses nothing
(`polymodStep_eq_zero`), so one change always shows. Two changes show because a single
value, carried on over fewer than 59 further places, never comes back below 32
(`orbit_high`).

Six values after a text reach any residue in exactly one way (`residue_tail`).
-/

namespace IndexTandem.Api

/-! ### A step -/

/-- A generator, if its bit is set. -/
def select (bit : Bool) (generator : ℕ) : ℕ := if bit then generator else 0

theorem select_xor (a b : Bool) (generator : ℕ) : select (a ^^ b) generator = select a generator ^^^ select b generator := by
  cases a <;> cases b <;> simp [select]

/-- The generators of the top bits of a residue. -/
def fold (checksum : ℕ) : ℕ :=
  select (checksum.testBit 25) 0x3b6a57b2 ^^^ (select (checksum.testBit 26) 0x26508e6d ^^^
    (select (checksum.testBit 27) 0x1ea119fa ^^^ (select (checksum.testBit 28) 0x3d4233dd ^^^
      select (checksum.testBit 29) 0x2a1462b3)))

theorem fold_xor (a b : ℕ) : fold (a ^^^ b) = fold a ^^^ fold b := by
  simp only [fold, Nat.testBit_xor, select_xor]
  ac_rfl

/-- A step shifts the residue, adds the value and folds what was shifted out. -/
theorem polymodStep_eq (checksum value : ℕ) :
    polymodStep checksum value = ((checksum &&& 0x1ff_ffff) <<< 5) ^^^ (value ^^^ fold checksum) := by
  have hbit : ∀ i, ((checksum >>> 25) >>> i) &&& 1 ≠ 0 ↔ checksum.testBit (25 + i) = true := by
    intro i
    rw [← Nat.shiftRight_add, Nat.testBit, Nat.land_comm]
    simp
  have hselect : ∀ (i generator c : ℕ), (if ((checksum >>> 25) >>> i) &&& 1 ≠ 0 then c ^^^ generator else c) =
      c ^^^ select (checksum.testBit (25 + i)) generator := by
    intro i generator c
    by_cases h : checksum.testBit (25 + i) = true
    · rw [if_pos ((hbit i).mpr h), select, if_pos h]
    · rw [if_neg fun h' => h ((hbit i).mp h'), select, if_neg h, Nat.xor_zero]
  simp only [polymodStep, GENERATORS, List.zipIdx_cons, List.zipIdx_nil, List.foldl_cons, List.foldl_nil, hselect, fold]
  ac_rfl

theorem polymodStep_xor (a b v w : ℕ) : polymodStep (a ^^^ b) (v ^^^ w) = polymodStep a v ^^^ polymodStep b w := by
  simp only [polymodStep_eq, fold_xor, Nat.and_xor_distrib_right, Nat.shiftLeft_xor_distrib]
  ac_rfl

theorem polymodStep_lt {value : ℕ} (h : value < 32) (checksum : ℕ) : polymodStep checksum value < 2 ^ 30 := by
  have hselect : ∀ (bit : Bool) {generator : ℕ}, generator < 2 ^ 30 → select bit generator < 2 ^ 30 := by
    intro bit generator hg
    cases bit
    · exact Nat.two_pow_pos 30
    · exact hg
  have hlow : (checksum &&& 0x1ff_ffff) <<< 5 < 2 ^ 30 := by
    have hand : checksum &&& 0x1ff_ffff ≤ 0x1ff_ffff := Nat.and_le_right
    rw [Nat.shiftLeft_eq]
    omega
  rw [polymodStep_eq, fold]
  refine Nat.xor_lt_two_pow hlow (Nat.xor_lt_two_pow (by omega) ?_)
  refine Nat.xor_lt_two_pow (hselect _ (by decide)) (Nat.xor_lt_two_pow (hselect _ (by decide)) ?_)
  refine Nat.xor_lt_two_pow (hselect _ (by decide)) ?_
  exact Nat.xor_lt_two_pow (hselect _ (by decide)) (hselect _ (by decide))

theorem select_mod : ∀ a b c d e : Bool, (select a 0x3b6a57b2 ^^^ (select b 0x26508e6d ^^^ (select c 0x1ea119fa ^^^
    (select d 0x3d4233dd ^^^ select e 0x2a1462b3)))) % 32 = 0 →
      a = false ∧ b = false ∧ c = false ∧ d = false ∧ e = false := by decide +kernel

/-- **A step loses nothing.** -/
theorem polymodStep_eq_zero {checksum : ℕ} (hc : checksum < 2 ^ 30) (h : polymodStep checksum 0 = 0) : checksum = 0 := by
  rw [polymodStep_eq, Nat.zero_xor] at h
  have hfold : (checksum &&& 0x1ff_ffff) <<< 5 = fold checksum := Nat.xor_eq_zero_iff.mp h
  have hmod : fold checksum % 32 = 0 := by
    rw [← hfold, Nat.shiftLeft_eq]
    omega
  obtain ⟨h₀, h₁, h₂, h₃, h₄⟩ := select_mod _ _ _ _ _ hmod
  have hlow : checksum &&& 0x1ff_ffff = 0 := by
    have hzero : fold checksum = 0 := by
      simp only [fold, h₀, h₁, h₂, h₃, h₄]
      rfl
    rw [hzero, Nat.shiftLeft_eq] at hfold
    omega
  refine Nat.eq_of_testBit_eq fun i => ?_
  rw [Nat.zero_testBit]
  by_cases hi : i < 25
  · have hlast : checksum % 2 ^ 25 = 0 := (Nat.and_two_pow_sub_one_eq_mod checksum 25).symm.trans hlow
    have hbit := Nat.testBit_mod_two_pow checksum 25 i
    rw [hlast, Nat.zero_testBit, decide_eq_true hi, Bool.true_and] at hbit
    exact hbit.symm
  · by_cases hi' : i < 30
    · interval_cases i
      · exact h₀
      · exact h₁
      · exact h₂
      · exact h₃
      · exact h₄
    · exact Nat.testBit_lt_two_pow (lt_of_lt_of_le hc (Nat.pow_le_pow_right (by omega) (by omega)))

/-! ### Residues -/

/-- The residue after some values, from a residue on. -/
def residue (checksum : ℕ) (values : List ℕ) : ℕ := values.foldl polymodStep checksum

theorem polymod_eq (values : List ℕ) : polymod values = residue 1 values := rfl

theorem residue_append (checksum : ℕ) (values more : List ℕ) :
    residue checksum (values ++ more) = residue (residue checksum values) more := List.foldl_append

theorem residue_lt {checksum : ℕ} (hc : checksum < 2 ^ 30) {values : List ℕ} (h : ∀ v ∈ values, v < 32) :
    residue checksum values < 2 ^ 30 := by
  induction values generalizing checksum with
  | nil => exact hc
  | cons v values ih =>
    exact ih (polymodStep_lt (h v List.mem_cons_self) checksum) fun w hw => h w (List.mem_cons_of_mem _ hw)

/-- **Residues are linear.** -/
theorem residue_xor (a b : ℕ) {values changes : List ℕ} (h : values.length = changes.length) :
    residue (a ^^^ b) (List.zipWith (· ^^^ ·) values changes) = residue a values ^^^ residue b changes := by
  induction values generalizing a b changes with
  | nil =>
    cases changes with
    | nil => rfl
    | cons w changes => cases h
  | cons v values ih =>
    cases changes with
    | nil => cases h
    | cons w changes =>
      have hrest := ih (polymodStep a v) (polymodStep b w) (Nat.succ.inj h)
      rw [← polymodStep_xor] at hrest
      exact hrest

theorem residue_zeros (n : ℕ) : residue 0 (List.replicate n 0) = 0 := by
  induction n with
  | zero => rfl
  | succ n ih => exact ih

theorem residue_zeros_ne {checksum : ℕ} (hc : checksum < 2 ^ 30) (hne : checksum ≠ 0) (n : ℕ) :
    residue checksum (List.replicate n 0) ≠ 0 := by
  induction n generalizing checksum with
  | zero => exact hne
  | succ n ih =>
    refine ih (polymodStep_lt (by decide) checksum) fun h => ?_
    exact hne (polymodStep_eq_zero hc h)

/-- The residues that a value is carried on to. -/
def orbit : ℕ → ℕ → List ℕ
  | 0, _ => []
  | n + 1, checksum => polymodStep checksum 0 :: orbit n (polymodStep checksum 0)

theorem residue_mem_orbit {n bound : ℕ} (hn : n < bound) (checksum : ℕ) :
    residue checksum (List.replicate (n + 1) 0) ∈ orbit bound checksum := by
  induction n generalizing bound checksum with
  | zero =>
    cases bound with
    | zero => omega
    | succ bound => exact List.mem_cons_self
  | succ n ih =>
    cases bound with
    | zero => omega
    | succ bound => exact List.mem_cons_of_mem _ (ih (by omega) _)

/-- **A value that is carried on does not come back below 32** within 58 places. -/
theorem orbit_high {value : ℕ} (h : value < 32) (hne : value ≠ 0) {n : ℕ} (hn : n < 58) :
    32 ≤ residue value (List.replicate (n + 1) 0) := by
  have hall : ((List.range 32).all fun x => x = 0 || (orbit 58 x).all fun r => 32 ≤ r) = true := by decide +kernel
  have hvalue := List.all_eq_true.mp hall value (List.mem_range.mpr h)
  simp only [hne, decide_false, Bool.false_or, List.all_eq_true, decide_eq_true_eq] at hvalue
  exact hvalue _ (residue_mem_orbit hn value)

/-! ### The last six values -/

/-- The number that six values write. -/
def packed : List ℕ → ℕ := List.foldl (fun n v => 32 * n + v) 0

theorem polymodStep_small {checksum value : ℕ} (hc : checksum < 2 ^ 25) (hv : value < 32) :
    polymodStep checksum value = 32 * checksum + value := by
  have hbit : ∀ i, 25 ≤ i → checksum.testBit i = false := fun i hi =>
    Nat.testBit_lt_two_pow (lt_of_lt_of_le hc (Nat.pow_le_pow_right (by omega) hi))
  have hmask : checksum &&& 0x1ff_ffff = checksum := by
    have := Nat.and_two_pow_sub_one_eq_mod checksum 25
    rw [Nat.mod_eq_of_lt hc] at this
    exact this
  have hfold : fold checksum = 0 := by
    simp only [fold, hbit 25 (by omega), hbit 26 (by omega), hbit 27 (by omega), hbit 28 (by omega),
      hbit 29 (by omega)]
    rfl
  have hdisjoint : (checksum <<< 5) ^^^ value = (checksum <<< 5) + value := by
    have hor := Nat.shiftLeft_add_eq_or_of_lt (i := 5) (b := value) (by omega) checksum
    rw [hor]
    refine Nat.eq_of_testBit_eq fun i => ?_
    rw [Nat.testBit_xor, Nat.testBit_or, Nat.testBit_shiftLeft]
    by_cases hi : i < 5
    · have : decide (i ≥ 5) = false := by simpa using hi
      simp [this]
    · have hhigh : value.testBit i = false :=
        Nat.testBit_lt_two_pow (lt_of_lt_of_le (show value < 2 ^ 5 from hv)
          (Nat.pow_le_pow_right (by omega) (show 5 ≤ i by omega)))
      simp [hhigh]
  rw [polymodStep_eq, hmask, hfold, Nat.xor_zero, hdisjoint, Nat.shiftLeft_eq]
  omega

theorem residue_packed {values : List ℕ} (hlength : values.length = 6) (h : ∀ v ∈ values, v < 32) :
    residue 0 values = packed values := by
  match values, hlength with
  | [a, b, c, d, e, f], _ =>
    have ha := h a (by simp)
    have hb := h b (by simp)
    have hc := h c (by simp)
    have hd := h d (by simp)
    have he := h e (by simp)
    have hf := h f (by simp)
    simp only [residue, packed, List.foldl_cons, List.foldl_nil]
    rw [@polymodStep_small 0 _ (by omega) ha, polymodStep_small (by omega) hb,
      polymodStep_small (by omega) hc, polymodStep_small (by omega) hd, polymodStep_small (by omega) he,
      polymodStep_small (by omega) hf]

/-- The six groups of five bits of a residue. -/
def checksumOf (residue : ℕ) : List ℕ := (List.range 6).map fun index => (residue >>> (5 * (5 - index))) &&& 31

theorem checksumOf_eq (r : ℕ) : checksumOf r = [r / 2 ^ 25 % 32, r / 2 ^ 20 % 32, r / 2 ^ 15 % 32, r / 2 ^ 10 % 32,
    r / 2 ^ 5 % 32, r % 32] := by
  have hmask : ∀ n : ℕ, n &&& 31 = n % 32 := fun n => Nat.and_two_pow_sub_one_eq_mod n 5
  simp only [checksumOf, hmask, Nat.shiftRight_eq_div_pow]
  simp [List.range_succ]

/-- **Six values write a number in one way.** -/
theorem packed_eq_iff {values : List ℕ} (hlength : values.length = 6) (h : ∀ v ∈ values, v < 32) {r : ℕ}
    (hr : r < 2 ^ 30) : packed values = r ↔ values = checksumOf r := by
  match values, hlength with
  | [a, b, c, d, e, f], _ =>
    have ha := h a (by simp)
    have hb := h b (by simp)
    have hc := h c (by simp)
    have hd := h d (by simp)
    have he := h e (by simp)
    have hf := h f (by simp)
    rw [checksumOf_eq]
    simp only [packed, List.foldl_cons, List.foldl_nil, List.cons.injEq, and_true]
    omega

/-- **Six values after a text reach the residue one in exactly one way.** -/
theorem residue_tail {checksum : ℕ} (hc : checksum < 2 ^ 30) {values : List ℕ} (hlength : values.length = 6)
    (h : ∀ v ∈ values, v < 32) :
    residue checksum values = 1 ↔ values = checksumOf (residue checksum (List.replicate 6 0) ^^^ 1) := by
  have hsplit : residue checksum values = residue checksum (List.replicate 6 0) ^^^ packed values := by
    have hx := residue_xor checksum 0 (show (List.replicate 6 0).length = values.length by simp [hlength])
    have hzip : List.zipWith (· ^^^ ·) (List.replicate 6 0) values = values := by
      match values, hlength with
      | [a, b, c, d, e, f], _ => simp [List.replicate]
    rw [hzip, Nat.xor_zero, residue_packed hlength h] at hx
    exact hx
  have hzeros : residue checksum (List.replicate 6 0) < 2 ^ 30 :=
    residue_lt hc fun v hv => by rw [List.eq_of_mem_replicate hv]; decide
  rw [hsplit, ← packed_eq_iff hlength h (Nat.xor_lt_two_pow hzeros (by decide))]
  constructor
  · intro he
    rw [← he, ← Nat.xor_assoc, Nat.xor_self, Nat.zero_xor]
  · intro he
    rw [he, ← Nat.xor_assoc, Nat.xor_self, Nat.zero_xor]

end IndexTandem.Api
