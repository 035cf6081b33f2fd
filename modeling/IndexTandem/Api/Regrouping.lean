import IndexTandem.Api.CarrierAddress
import IndexTandem.Library.Bits
import IndexTandem.Library.Codes

/-!
# Regrouping bits

`convertBits` reads its values as one row of bits and cuts the row into groups of another
width. With padding the last group is filled up with zeros, without padding the bits that
are left over have to be zeros, and fewer than a group that is read. So one direction
inverts the other (`convertBits_pad_iff`, `convertBits_exact_iff`).
-/

namespace IndexTandem.Api

open Library Protocol

variable {fromBits toBits : ℕ}

/-! ### The loops -/

theorem one_shiftLeft_sub (width : ℕ) : 1 <<< width - 1 = 2 ^ width - 1 := by rw [Nat.one_shiftLeft]

theorem drain_bits (hto : 0 < toBits) (accumulator : ℕ) {turns bits : ℕ} (h : bits ≤ turns) :
    bitsOf bits accumulator = (drain toBits accumulator turns bits).1.flatMap (bitsOf toBits) ++
        bitsOf (drain toBits accumulator turns bits).2 accumulator ∧
      (drain toBits accumulator turns bits).2 < toBits ∧
      ∀ value ∈ (drain toBits accumulator turns bits).1, value < 2 ^ toBits := by
  induction turns generalizing bits with
  | zero =>
    obtain rfl : bits = 0 := by omega
    simpa [drain] using hto
  | succ turns ih =>
    rw [drain]
    split_ifs with hbits
    · obtain ⟨hrow, hleft, hfit⟩ := @ih (bits - toBits) (by omega)
      refine ⟨?_, hleft, ?_⟩
      · calc bitsOf bits accumulator
            = bitsOf (toBits + (bits - toBits)) accumulator := by rw [Nat.add_sub_cancel' hbits]
          _ = bitsOf toBits (accumulator >>> (bits - toBits)) ++ bitsOf (bits - toBits) accumulator := bitsOf_add _ _ _
          _ = _ := by
            rw [hrow, one_shiftLeft_sub, List.flatMap_cons, bitsOf_mask le_rfl, List.append_assoc]
      · rw [one_shiftLeft_sub]
        refine List.forall_mem_cons.mpr ⟨?_, hfit⟩
        exact lt_of_le_of_lt Nat.and_le_right (Nat.sub_lt (Nat.two_pow_pos _) (by omega))
    · exact ⟨by simp, by omega, by simp⟩

/-- What the outer loop keeps: the row of bits read is the row of bits written and the pending ones. -/
theorem regroup_bits (hto : 0 < toBits) {values : List ℕ} {accumulator bits : ℕ} (hbits : bits < toBits)
    {result : List ℕ} {accumulator' bits' : ℕ}
    (h : regroup fromBits toBits values accumulator bits = some (result, accumulator', bits')) :
    bitsOf bits accumulator ++ values.flatMap (bitsOf fromBits) =
        result.flatMap (bitsOf toBits) ++ bitsOf bits' accumulator' ∧
      bits' < toBits ∧ (∀ value ∈ values, value < 2 ^ fromBits) ∧ ∀ value ∈ result, value < 2 ^ toBits := by
  induction values generalizing accumulator bits result with
  | nil =>
    cases h
    simpa using hbits
  | cons value values ih =>
    rw [regroup] at h
    split_ifs at h with hvalue
    have hfit : value < 2 ^ fromBits := by
      rw [Nat.shiftRight_eq_div_pow] at hvalue
      exact (Nat.div_eq_zero_iff_lt (Nat.two_pow_pos _)).mp (not_not.mp hvalue)
    dsimp only at h
    generalize hacc : ((accumulator <<< fromBits) ||| value) &&& (1 <<< (fromBits + toBits - 1) - 1) = next at h
    obtain ⟨⟨later, accumulator'', bits''⟩, hrest, heq⟩ := Option.map_eq_some_iff.mp h
    cases heq
    obtain ⟨hrow, hleft, hgroups⟩ := drain_bits hto next (le_refl (bits + fromBits))
    obtain ⟨hlater, hbits', hvalues, hlaterFit⟩ := ih hleft hrest
    -- The mask keeps the pending bits and those of the new value.
    have hin : bitsOf (bits + fromBits) next = bitsOf bits accumulator ++ bitsOf fromBits value := by
      rw [← hacc, one_shiftLeft_sub, bitsOf_mask (by omega), bitsOf_shiftIn hfit]
    refine ⟨?_, hbits', List.forall_mem_cons.mpr ⟨hfit, hvalues⟩, ?_⟩
    · calc bitsOf bits accumulator ++ (value :: values).flatMap (bitsOf fromBits)
          = bitsOf (bits + fromBits) next ++ values.flatMap (bitsOf fromBits) := by
            rw [hin, List.flatMap_cons, List.append_assoc]
        _ = (drain toBits next (bits + fromBits) (bits + fromBits)).1.flatMap (bitsOf toBits) ++
            (bitsOf (drain toBits next (bits + fromBits) (bits + fromBits)).2 next ++
              values.flatMap (bitsOf fromBits)) := by rw [hrow, List.append_assoc]
        _ = _ := by rw [hlater, List.flatMap_append, List.append_assoc]
    · intro v hv
      rcases List.mem_append.mp hv with hv | hv
      · exact hgroups v hv
      · exact hlaterFit v hv

theorem regroup_total {values : List ℕ} (h : ∀ value ∈ values, value < 2 ^ fromBits) (accumulator bits : ℕ) :
    ∃ done, regroup fromBits toBits values accumulator bits = some done := by
  induction values generalizing accumulator bits with
  | nil => exact ⟨_, rfl⟩
  | cons value values ih =>
    have hzero : ¬value >>> fromBits ≠ 0 := by
      rw [Nat.shiftRight_eq_div_pow, not_not]
      exact Nat.div_eq_of_lt (h value List.mem_cons_self)
    rw [regroup, if_neg hzero]
    refine Option.isSome_iff_exists.mp ?_
    rw [Option.isSome_map]
    exact Option.isSome_iff_exists.mpr (ih (fun v hv => h v (List.mem_cons_of_mem _ hv)) _ _)

/-! ### Rows of groups -/

theorem groups_inj {width : ℕ} (hwidth : 0 < width) {l l' : List ℕ} (hl : ∀ v ∈ l, v < 2 ^ width)
    (hl' : ∀ v ∈ l', v < 2 ^ width) (h : l.flatMap (bitsOf width) = l'.flatMap (bitsOf width)) : l = l' := by
  have hcode : Delimited (bitsOf width) (· < 2 ^ width) :=
    delimited_of_length width (fun _ _ => length_bitsOf width _) fun _ _ ha hb he => bitsOf_inj ha hb he
  refine hcode.flatMap_inj (fun v _ he => ?_) hl hl' h
  have := congrArg List.length he
  simp at this
  omega

theorem length_groups (width : ℕ) (l : List ℕ) : (l.flatMap (bitsOf width)).length = width * l.length := by
  induction l with
  | nil => simp
  | cons v l ih => simp [ih, Nat.mul_succ, Nat.add_comm]

/-- Groups with fewer bits after them than a group are determined, and so are these bits. -/
theorem groups_append_inj {width : ℕ} (hwidth : 0 < width) {l l' : List ℕ} {row row' : List Bool}
    (hl : ∀ v ∈ l, v < 2 ^ width) (hl' : ∀ v ∈ l', v < 2 ^ width) (hrow : row.length < width)
    (hrow' : row'.length < width) (h : l.flatMap (bitsOf width) ++ row = l'.flatMap (bitsOf width) ++ row') :
    l = l' ∧ row = row' := by
  have hlength := congrArg List.length h
  rw [List.length_append, List.length_append, length_groups, length_groups] at hlength
  have hsame : l.length = l'.length := by
    rcases Nat.lt_trichotomy l.length l'.length with hlt | heq | hgt
    · have := Nat.mul_le_mul_left width (show l.length + 1 ≤ l'.length from hlt)
      rw [Nat.mul_add] at this
      omega
    · exact heq
    · have := Nat.mul_le_mul_left width (show l'.length + 1 ≤ l.length from hgt)
      rw [Nat.mul_add] at this
      omega
  obtain ⟨hgroups, hrows⟩ := List.append_inj h (by rw [length_groups, length_groups, hsame])
  exact ⟨groups_inj hwidth hl hl' hgroups, hrows⟩

/-! ### Both directions -/

theorem bitsOf_last {bits accumulator : ℕ} (hbits : bits < toBits) :
    bitsOf toBits ((accumulator <<< (toBits - bits)) &&& (1 <<< toBits - 1)) =
      bitsOf bits accumulator ++ List.replicate (toBits - bits) false := by
  rw [one_shiftLeft_sub, bitsOf_mask le_rfl]
  have := bitsOf_shiftLeft bits (toBits - bits) accumulator
  rwa [Nat.add_sub_cancel' hbits.le] at this

/-- The row of the first values is that of the second, and `k` zeros. -/
def Padded (fromBits toBits : ℕ) (values result : List ℕ) (k : ℕ) : Prop :=
  result.flatMap (bitsOf toBits) = values.flatMap (bitsOf fromBits) ++ List.replicate k false

/-- **With padding** the result is the row of the values, and fewer zeros than a group has bits. -/
theorem convertBits_pad_iff (hto : 0 < toBits) {values result : List ℕ} :
    convertBits values fromBits toBits true = some result ↔
      (∀ value ∈ values, value < 2 ^ fromBits) ∧ (∀ value ∈ result, value < 2 ^ toBits) ∧
        ∃ k < toBits, Padded fromBits toBits values result k := by
  have forward : ∀ {result : List ℕ}, convertBits values fromBits toBits true = some result →
      (∀ value ∈ values, value < 2 ^ fromBits) ∧ (∀ value ∈ result, value < 2 ^ toBits) ∧
        ∃ k < toBits, Padded fromBits toBits values result k := by
    intro result h
    unfold convertBits at h
    split at h
    · cases h
    · rename_i groups accumulator bits hregroup
      obtain ⟨hrow, hbits, hvalues, hgroups⟩ := regroup_bits hto hto hregroup
      rw [bitsOf, List.nil_append] at hrow
      obtain rfl := Option.some.inj h
      split_ifs with hsome
      · refine ⟨hvalues, fun v hv => ?_, toBits - bits, by omega, ?_⟩
        · rcases List.mem_append.mp hv with hv | hv
          · exact hgroups v hv
          · rw [List.mem_singleton.mp hv, one_shiftLeft_sub]
            exact lt_of_le_of_lt Nat.and_le_right (Nat.sub_lt (Nat.two_pow_pos _) (by omega))
        · rw [Padded, hrow, List.flatMap_append, List.flatMap_singleton, bitsOf_last hbits, List.append_assoc]
      · obtain rfl : bits = 0 := by omega
        exact ⟨hvalues, hgroups, 0, hto, by simp [Padded, hrow, bitsOf]⟩
  refine ⟨forward, ?_⟩
  rintro ⟨hvalues, hresult, k, hk, hrow⟩
  obtain ⟨⟨groups, accumulator, bits⟩, hdone⟩ := @regroup_total fromBits toBits _ hvalues 0 0
  obtain ⟨other, hother⟩ : ∃ other, convertBits values fromBits toBits true = some other := by
    unfold convertBits
    rw [hdone]
    exact ⟨_, rfl⟩
  obtain ⟨-, hfit, k', hk', hrow'⟩ := forward hother
  -- The lengths leave no choice for the number of zeros.
  have hlength := congrArg List.length hrow
  have hlength' := congrArg List.length hrow'
  simp only [length_groups, List.length_append, List.length_replicate] at hlength hlength'
  have hmod : ∀ {a b n : ℕ}, toBits * a = n + k → toBits * b = n + k' → a = b := by
    intro a b n ha hb
    rcases Nat.lt_trichotomy a b with hlt | heq | hgt
    · have := Nat.mul_le_mul_left toBits (show a + 1 ≤ b from hlt)
      rw [Nat.mul_add] at this
      omega
    · exact heq
    · have := Nat.mul_le_mul_left toBits (show b + 1 ≤ a from hgt)
      rw [Nat.mul_add] at this
      omega
  have hsame := hmod hlength hlength'
  obtain rfl : k = k' := by
    rw [hsame] at hlength
    omega
  rw [hother, groups_inj hto hfit hresult (hrow'.trans hrow.symm)]

/-- **Without padding** the row of the values is that of the result, and zeros, fewer than a group of either width. -/
theorem convertBits_exact_iff (hto : 0 < toBits) {values result : List ℕ} :
    convertBits values fromBits toBits false = some result ↔
      (∀ value ∈ values, value < 2 ^ fromBits) ∧ (∀ value ∈ result, value < 2 ^ toBits) ∧
        ∃ k, k < toBits ∧ k < fromBits ∧ Padded toBits fromBits result values k := by
  have hlast : ∀ {bits accumulator : ℕ}, bits < toBits →
      ((accumulator <<< (toBits - bits)) &&& (1 <<< toBits - 1) = 0 ↔
        bitsOf bits accumulator = List.replicate bits false) := by
    intro bits accumulator hbits
    have hrow := @bitsOf_last toBits bits accumulator hbits
    have hzeros : List.replicate toBits false =
        List.replicate bits false ++ List.replicate (toBits - bits) false := by
      rw [List.replicate_append_replicate, Nat.add_sub_cancel' hbits.le]
    constructor
    · intro hz
      rw [hz, bitsOf_zero, hzeros] at hrow
      exact (List.append_cancel_right hrow).symm
    · intro hz
      refine bitsOf_inj ?_ (Nat.two_pow_pos toBits) ?_
      · rw [one_shiftLeft_sub]
        exact lt_of_le_of_lt Nat.and_le_right (Nat.sub_lt (Nat.two_pow_pos _) (by omega))
      · rw [hrow, hz, ← hzeros, bitsOf_zero]
  constructor
  · intro h
    unfold convertBits at h
    split at h
    · cases h
    · rename_i groups accumulator bits hregroup
      obtain ⟨hrow, hbits, hvalues, hgroups⟩ := regroup_bits hto hto hregroup
      rw [bitsOf, List.nil_append] at hrow
      rw [if_neg Bool.false_ne_true] at h
      split_ifs at h with hleft
      obtain rfl := Option.some.inj h
      rw [not_or, Nat.not_le, not_not] at hleft
      exact ⟨hvalues, hgroups, bits, hbits, hleft.1, by rw [Padded, hrow, (hlast hbits).mp hleft.2]⟩
  · rintro ⟨hvalues, hresult, k, hk, hk', hpadded⟩
    obtain ⟨⟨groups, accumulator, bits⟩, hdone⟩ := @regroup_total fromBits toBits _ hvalues 0 0
    obtain ⟨hrow, hbits, -, hgroups⟩ := regroup_bits hto hto hdone
    rw [bitsOf, List.nil_append, hpadded] at hrow
    obtain ⟨rfl, hzeros⟩ := groups_append_inj hto hresult hgroups (by simpa using hk) (by simpa using hbits) hrow
    have hcount : bits = k := by
      have := congrArg List.length hzeros
      simpa using this.symm
    subst hcount
    unfold convertBits
    rw [hdone]
    dsimp only
    rw [if_neg Bool.false_ne_true, if_neg]
    rw [not_or, Nat.not_le, not_not]
    exact ⟨hk', (hlast hbits).mpr hzeros.symm⟩

end IndexTandem.Api
