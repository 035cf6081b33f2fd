import IndexTandem.Api.AddressCodec
import IndexTandem.Library.Words

/-!
# Regrouping in 32 bits

`convertBits` as JavaScript runs it: the values are numbers, and the accumulator is a word of
32 bits that every turn of the loop shifts, fills and masks. No turn loses a bit that is still
to be written, and no shift leaves the word (`Kept`), so on values that fit their width the
loop computes what the regrouping of natural numbers computes (`convertBits_eq`); and that is
exact in both directions (`convertBits_inverse`).

The width of a value is checked on its low 32 bits. A number from `2 ^ 32` on whose low bits
fit is not refused, but read as these bits (`convertBits_emod`).
-/

namespace IndexTandem.Api.Word32

open Library Protocol

/-! ### Source -/

/-- The variables of the loop. -/
structure Loop where
  /-- `accumulator`. -/
  accumulator : BitVec 32
  /-- `bits`. -/
  bits : ℕ
  /-- `result`. -/
  result : List ℤ
  deriving DecidableEq

/-- They start empty. -/
def Loop.start : Loop := ⟨0, 0, []⟩

/-- The inner loop; it makes at most `turns` turns. -/
def drain (toBits : ℕ) : ℕ → Loop → Loop
  | 0, loop => loop
  | turns + 1, loop =>
    if loop.bits ≥ toBits then
      let bits := loop.bits - toBits
      drain toBits turns { loop with
        bits := bits
        result := loop.result ++ [(shiftRightWord loop.accumulator bits &&& maskWord toBits).toInt] }
    else loop

/-- `(accumulator << fromBits) | value`. -/
def filled (fromBits : ℕ) (loop : Loop) (value : ℤ) : BitVec 32 := shiftLeftWord loop.accumulator fromBits ||| word value

/-- One turn of the outer loop; nothing for a value that is refused. -/
def turn (fromBits toBits : ℕ) (loop : Loop) (value : ℤ) : Option Loop :=
  if value < 0 ∨ shiftRightWord (word value) fromBits ≠ 0 then none
  else
    let accumulator := filled fromBits loop value &&& maskWord (fromBits + toBits - 1)
    let bits := loop.bits + fromBits
    some (drain toBits bits ⟨accumulator, bits, loop.result⟩)

/-- `convertBits(values, fromBits, toBits, pad)`. -/
def convertBits (values : List ℤ) (fromBits toBits : ℕ) (pad : Bool) : Option (List ℤ) := do
  let loop ← values.foldlM (turn fromBits toBits) .start
  let last := shiftLeftWord loop.accumulator (toBits - loop.bits) &&& maskWord toBits
  if pad then pure (if loop.bits > 0 then loop.result ++ [last.toInt] else loop.result)
  else if loop.bits ≥ fromBits ∨ last ≠ 0 then none
  else pure loop.result

/-! ### The natural numbers below -/

/-- Widths whose turns stay inside a word. -/
structure Roomy (fromBits toBits : ℕ) : Prop where
  /-- A value has bits. -/
  reads : 0 < fromBits
  /-- So has a group. -/
  writes : 0 < toBits
  /-- There is room for a masked accumulator and a value, -/
  room : 2 * fromBits + toBits ≤ 32
  /-- and for a masked accumulator and the zeros of the last group. -/
  roomLast : fromBits + 2 * toBits ≤ 32

variable {fromBits toBits : ℕ}

/-- The variables with a natural accumulator and natural groups. -/
def Loop.ofNat (groups : List ℕ) (accumulator bits : ℕ) : Loop := ⟨BitVec.ofNat 32 accumulator, bits, groups.map Nat.cast⟩

theorem group_toInt (hto : toBits < 32) {accumulator bits : ℕ} (hacc : accumulator < 2 ^ 31) (hbits : bits < 32) :
    (shiftRightWord (BitVec.ofNat 32 accumulator) bits &&& maskWord toBits).toInt =
      ((accumulator >>> bits) &&& (1 <<< toBits - 1) : ℕ) := by
  have hnat : (shiftRightWord (BitVec.ofNat 32 accumulator) bits &&& maskWord toBits).toNat =
      (accumulator >>> bits) &&& (1 <<< toBits - 1) := by
    rw [BitVec.toNat_and, toNat_shiftRightWord hbits, toNat_maskWord hto, BitVec.toNat_ofNat,
      Nat.mod_eq_of_lt (by omega), one_shiftLeft_sub]
  rw [toInt_of_lt, hnat]
  rw [hnat]
  refine lt_of_le_of_lt Nat.and_le_left (lt_of_le_of_lt ?_ hacc)
  rw [Nat.shiftRight_eq_div_pow]
  exact Nat.div_le_self _ _

/-- The inner loop is that of natural numbers. -/
theorem drain_ofNat (hto : toBits < 32) {accumulator : ℕ} (hacc : accumulator < 2 ^ 31) {turns bits : ℕ} (hbits : bits < 32)
    (groups : List ℕ) : drain toBits turns (Loop.ofNat groups accumulator bits) =
      Loop.ofNat (groups ++ (Api.drain toBits accumulator turns bits).1) accumulator
        (Api.drain toBits accumulator turns bits).2 := by
  induction turns generalizing bits groups with
  | zero => simp [drain, Api.drain]
  | succ turns ih =>
    rw [drain, Api.drain]
    by_cases hle : toBits ≤ bits
    · have hleft : bits - toBits < 32 := by omega
      have hcut : (Loop.ofNat groups accumulator bits).bits ≥ toBits := hle
      rw [if_pos hcut, if_pos hle]
      have hnext := ih hleft (groups ++ [(accumulator >>> (bits - toBits)) &&& (1 <<< toBits - 1)])
      rw [List.append_assoc, List.singleton_append] at hnext
      refine Eq.trans ?_ hnext
      simp only [Loop.ofNat, List.map_append, List.map_singleton, group_toInt hto hacc hleft]
    · have hdone : ¬(Loop.ofNat groups accumulator bits).bits ≥ toBits := hle
      rw [if_neg hdone, if_neg hle, List.append_nil]

/-- The accumulator of the outer loop stays below the mask. -/
theorem masked_lt (n : ℕ) (width : ℕ) : n &&& (1 <<< width - 1) < 2 ^ width := by
  rw [one_shiftLeft_sub]
  exact lt_of_le_of_lt Nat.and_le_right (Nat.sub_lt (Nat.two_pow_pos _) (by omega))

/-- The pending bits and those of a value are the bits of a sum. -/
theorem shiftIn_eq {value : ℕ} (hvalue : value < 2 ^ fromBits) (accumulator : ℕ) :
    (accumulator <<< fromBits) ||| value = accumulator * 2 ^ fromBits + value := by
  rw [← Nat.shiftLeft_add_eq_or_of_lt hvalue, Nat.shiftLeft_eq]

theorem Roomy.sum_lt (widths : Roomy fromBits toBits) {accumulator value : ℕ}
    (hacc : accumulator < 2 ^ (fromBits + toBits - 1)) (hvalue : value < 2 ^ fromBits) :
    accumulator * 2 ^ fromBits + value < 2 ^ 31 := by
  have hwidth : fromBits + toBits - 1 + fromBits ≤ 31 := by
    have := widths.room
    omega
  calc accumulator * 2 ^ fromBits + value
      < accumulator * 2 ^ fromBits + 2 ^ fromBits := by omega
    _ = (accumulator + 1) * 2 ^ fromBits := (Nat.succ_mul _ _).symm
    _ ≤ 2 ^ (fromBits + toBits - 1) * 2 ^ fromBits := Nat.mul_le_mul_right _ hacc
    _ = 2 ^ (fromBits + toBits - 1 + fromBits) := (pow_add _ _ _).symm
    _ ≤ 2 ^ 31 := Nat.pow_le_pow_right (by omega) hwidth

/-- **The shift of a turn stays inside the word.** -/
theorem toNat_filled (widths : Roomy fromBits toBits) {loop : Loop}
    (hacc : loop.accumulator.toNat < 2 ^ (fromBits + toBits - 1)) {value : ℕ} (hvalue : value < 2 ^ fromBits) :
    (filled fromBits loop value).toNat = (loop.accumulator.toNat <<< fromBits) ||| value := by
  have hroom := widths.room
  have hwrites := widths.writes
  have hlt := widths.sum_lt hacc hvalue
  have hshift : loop.accumulator.toNat <<< fromBits < 2 ^ 32 := by
    rw [Nat.shiftLeft_eq]
    omega
  have hsmall : value < 2 ^ 32 := by omega
  rw [filled, BitVec.toNat_or, toNat_shiftLeftWord (by omega) hshift, toNat_word_natCast hsmall]

/-- What a turn refuses: a negative value, and one whose low 32 bits do not fit. -/
theorem refused_iff (hfrom : fromBits < 32) (value : ℤ) :
    shiftRightWord (word value) fromBits ≠ 0 ↔ 2 ^ fromBits ≤ value % 2 ^ 32 := by
  have hzero : shiftRightWord (word value) fromBits = 0 ↔ (value % 2 ^ 32).toNat < 2 ^ fromBits := by
    rw [← BitVec.toNat_inj, toNat_shiftRightWord hfrom, toNat_word, Nat.shiftRight_eq_div_pow]
    exact Nat.div_eq_zero_iff_lt (Nat.two_pow_pos _)
  have hcast : ((2 ^ fromBits : ℕ) : ℤ) = 2 ^ fromBits := by push_cast; rfl
  rw [Ne, hzero]
  omega

theorem taken (widths : Roomy fromBits toBits) {value : ℕ} (hvalue : value < 2 ^ fromBits) :
    ¬((value : ℤ) < 0 ∨ shiftRightWord (word value) fromBits ≠ 0) := by
  have hroom := widths.room
  have hwrites := widths.writes
  have hcast : ((2 ^ fromBits : ℕ) : ℤ) = 2 ^ fromBits := by push_cast; rfl
  have hpow : 2 ^ fromBits < 2 ^ 32 := Nat.pow_lt_pow_right (by omega) (by omega)
  rw [refused_iff (by omega)]
  omega

theorem turn_ofNat (widths : Roomy fromBits toBits) {accumulator bits value : ℕ}
    (hacc : accumulator < 2 ^ (fromBits + toBits - 1)) (hbits : bits < toBits) (hvalue : value < 2 ^ fromBits)
    (groups : List ℕ) :
    let next := ((accumulator <<< fromBits) ||| value) &&& (1 <<< (fromBits + toBits - 1) - 1)
    let drained := Api.drain toBits next (bits + fromBits) (bits + fromBits)
    turn fromBits toBits (Loop.ofNat groups accumulator bits) value =
      some (Loop.ofNat (groups ++ drained.1) next drained.2) := by
  intro next drained
  have hroom := widths.room
  have hreads := widths.reads
  have hpow : 2 ^ (fromBits + toBits - 1) ≤ 2 ^ 31 := Nat.pow_le_pow_right (by omega) (by omega)
  have hword : (Loop.ofNat groups accumulator bits).accumulator.toNat = accumulator := by
    refine Nat.mod_eq_of_lt ?_
    omega
  have hnext : filled fromBits (Loop.ofNat groups accumulator bits) value &&& maskWord (fromBits + toBits - 1) =
      BitVec.ofNat 32 next := by
    have hlt : next < 2 ^ (fromBits + toBits - 1) := masked_lt _ _
    refine BitVec.eq_of_toNat_eq ?_
    rw [BitVec.toNat_and, toNat_filled widths (hword.symm ▸ hacc) hvalue, toNat_maskWord (by omega), hword,
      BitVec.toNat_ofNat, Nat.mod_eq_of_lt (by omega), ← one_shiftLeft_sub]
  rw [turn, if_neg (taken widths hvalue)]
  dsimp only
  rw [hnext]
  refine congrArg some (drain_ofNat (by omega) ?_ ?_ groups)
  · exact lt_of_lt_of_le (masked_lt _ _) hpow
  · show bits + fromBits < 32
    omega

/-- The outer loop is that of natural numbers. -/
theorem foldlM_turn (widths : Roomy fromBits toBits) {values : List ℕ} (hvalues : ∀ value ∈ values, value < 2 ^ fromBits)
    {accumulator bits : ℕ} (hacc : accumulator < 2 ^ (fromBits + toBits - 1)) (hbits : bits < toBits) (groups : List ℕ) :
    (values.map Nat.cast).foldlM (turn fromBits toBits) (Loop.ofNat groups accumulator bits) =
      (regroup fromBits toBits values accumulator bits).map fun done => Loop.ofNat (groups ++ done.1) done.2.1 done.2.2 := by
  induction values generalizing accumulator bits groups with
  | nil => simp [regroup]
  | cons value values ih =>
    have hfits := hvalues value List.mem_cons_self
    have hzero : ¬value >>> fromBits ≠ 0 := by
      rw [Nat.shiftRight_eq_div_pow, not_not]
      exact Nat.div_eq_of_lt hfits
    rw [List.map_cons, List.foldlM_cons, turn_ofNat widths hacc hbits hfits, regroup, if_neg hzero, Option.map_map]
    obtain ⟨-, hleft, -⟩ := drain_bits widths.writes
      (((accumulator <<< fromBits) ||| value) &&& (1 <<< (fromBits + toBits - 1) - 1)) (le_refl (bits + fromBits))
    refine (ih (fun v hv => hvalues v (List.mem_cons_of_mem _ hv)) (masked_lt _ _) hleft _).trans ?_
    simp [Function.comp_def, List.append_assoc]

theorem last_ofNat (widths : Roomy fromBits toBits) {accumulator : ℕ} (hacc : accumulator < 2 ^ (fromBits + toBits - 1))
    (bits : ℕ) :
    (shiftLeftWord (BitVec.ofNat 32 accumulator) (toBits - bits)).toNat = accumulator <<< (toBits - bits) ∧
      accumulator <<< (toBits - bits) < 2 ^ 31 := by
  have hroom := widths.roomLast
  have hreads := widths.reads
  have hlt : accumulator <<< (toBits - bits) < 2 ^ 31 := by
    rw [Nat.shiftLeft_eq]
    calc accumulator * 2 ^ (toBits - bits)
        < 2 ^ (fromBits + toBits - 1) * 2 ^ (toBits - bits) := (Nat.mul_lt_mul_right (Nat.two_pow_pos _)).mpr hacc
      _ = 2 ^ (fromBits + toBits - 1 + (toBits - bits)) := (pow_add _ _ _).symm
      _ ≤ 2 ^ 31 := Nat.pow_le_pow_right (by omega) (by omega)
  have hsmall : accumulator < 2 ^ 32 := lt_of_lt_of_le hacc (Nat.pow_le_pow_right (by omega) (by omega))
  have hword : (BitVec.ofNat 32 accumulator).toNat = accumulator := Nat.mod_eq_of_lt hsmall
  refine ⟨?_, hlt⟩
  rw [toNat_shiftLeftWord (by omega) (by rw [hword]; omega), hword]

/-- The accumulator of natural numbers stays below the mask. -/
theorem regroup_lt {values : List ℕ} {accumulator bits : ℕ} (hacc : accumulator < 2 ^ (fromBits + toBits - 1))
    {result : List ℕ} {accumulator' bits' : ℕ}
    (h : regroup fromBits toBits values accumulator bits = some (result, accumulator', bits')) :
    accumulator' < 2 ^ (fromBits + toBits - 1) := by
  induction values generalizing accumulator bits result with
  | nil =>
    cases h
    exact hacc
  | cons value values ih =>
    rw [regroup] at h
    split_ifs at h
    obtain ⟨⟨later, accumulator'', bits''⟩, hrest, heq⟩ := Option.map_eq_some_iff.mp h
    cases heq
    exact ih (masked_lt _ _) hrest

/-- **On values that fit, the loop in 32 bits regroups as natural numbers do.** -/
theorem convertBits_eq (widths : Roomy fromBits toBits) {values : List ℕ}
    (hvalues : ∀ value ∈ values, value < 2 ^ fromBits) (pad : Bool) :
    convertBits (values.map Nat.cast) fromBits toBits pad =
      (Api.convertBits values fromBits toBits pad).map (List.map Nat.cast) := by
  have hstart : (values.map Nat.cast).foldlM (turn fromBits toBits) Loop.start = _ :=
    foldlM_turn widths hvalues (Nat.two_pow_pos _) widths.writes []
  obtain ⟨⟨groups, accumulator, bits⟩, hdone⟩ := @regroup_total fromBits toBits values hvalues 0 0
  have hacc := regroup_lt (Nat.two_pow_pos _) hdone
  obtain ⟨hshift, hlt⟩ := last_ofNat widths hacc bits
  have hto : toBits < 32 := by
    have := widths.room
    have := widths.reads
    omega
  have hnat : (shiftLeftWord (BitVec.ofNat 32 accumulator) (toBits - bits) &&& maskWord toBits).toNat =
      (accumulator <<< (toBits - bits)) &&& (1 <<< toBits - 1) := by
    rw [BitVec.toNat_and, hshift, toNat_maskWord hto, one_shiftLeft_sub]
  have hint : (shiftLeftWord (BitVec.ofNat 32 accumulator) (toBits - bits) &&& maskWord toBits).toInt =
      ((accumulator <<< (toBits - bits)) &&& (1 <<< toBits - 1) : ℕ) := by
    rw [toInt_of_lt, hnat]
    rw [hnat]
    exact lt_of_le_of_lt Nat.and_le_left hlt
  have hzero : shiftLeftWord (BitVec.ofNat 32 accumulator) (toBits - bits) &&& maskWord toBits ≠ 0 ↔
      (accumulator <<< (toBits - bits)) &&& (1 <<< toBits - 1) ≠ 0 := by
    rw [Ne, ← BitVec.toNat_inj, hnat]
    rfl
  rw [hdone, Option.map_some] at hstart
  unfold convertBits Api.convertBits
  rw [hstart, hdone]
  simp only [Loop.ofNat, Option.bind_eq_bind, Option.bind_some, List.nil_append, hint]
  cases pad with
  | true =>
    by_cases hsome : bits > 0
    · simp [hsome]
    · simp [hsome]
  | false =>
    by_cases hleft : bits ≥ fromBits ∨ (accumulator <<< (toBits - bits)) &&& (1 <<< toBits - 1) ≠ 0
    · rw [if_neg Bool.false_ne_true, if_pos (hleft.imp_right hzero.mpr), if_neg Bool.false_ne_true, if_pos hleft]
      rfl
    · rw [if_neg Bool.false_ne_true, if_neg fun h => hleft (h.imp_right hzero.mp), if_neg Bool.false_ne_true,
        if_neg hleft]
      rfl

/-! ### What the loop keeps -/

/-- The low 32 bits of a number. -/
def low (value : ℤ) : ℕ := (value % 2 ^ 32).toNat

/-- A value that a turn takes. -/
def Taken (fromBits : ℕ) (value : ℤ) : Prop := 0 ≤ value ∧ value % 2 ^ 32 < 2 ^ fromBits

/-- The variables after some values. -/
structure Kept (fromBits toBits : ℕ) (read : List ℤ) (loop : Loop) : Prop where
  /-- Fewer bits are pending than a group has. -/
  pending : loop.bits < toBits
  /-- The accumulator is below the mask. -/
  inMask : loop.accumulator.toNat < 2 ^ (fromBits + toBits - 1)
  /-- The bits read are the bits written and the pending ones. -/
  row : (read.map low).flatMap (bitsOf fromBits) =
    (loop.result.map Int.toNat).flatMap (bitsOf toBits) ++ bitsOf loop.bits loop.accumulator.toNat
  /-- The next shift stays inside the word. -/
  shifted : ∀ value, Taken fromBits value →
    (filled fromBits loop value).toInt = loop.accumulator.toNat * 2 ^ fromBits + low value
  /-- The mask loses neither a pending bit nor one of the next value. -/
  masked : ∀ value, Taken fromBits value →
    bitsOf (loop.bits + fromBits) (filled fromBits loop value &&& maskWord (fromBits + toBits - 1)).toNat =
      bitsOf loop.bits loop.accumulator.toNat ++ bitsOf fromBits (low value)
  /-- The shift of the last group stays inside the word. -/
  padded : (shiftLeftWord loop.accumulator (toBits - loop.bits)).toInt =
    loop.accumulator.toNat * 2 ^ (toBits - loop.bits)

theorem low_lt {value : ℤ} (h : Taken fromBits value) : low value < 2 ^ fromBits := by
  have hcast : ((2 ^ fromBits : ℕ) : ℤ) = 2 ^ fromBits := by push_cast; rfl
  have hlt := h.2
  unfold low
  omega

theorem word_low (value : ℤ) : word (low value) = word value := by
  have hcast : ((low value : ℕ) : ℤ) = value % 2 ^ 32 := by
    unfold low
    omega
  rw [hcast, word_emod]

/-- A turn takes what is not negative and fits in its low 32 bits. -/
theorem turn_eq_none (hfrom : fromBits < 32) (loop : Loop) (value : ℤ) :
    turn fromBits toBits loop value = none ↔ ¬Taken fromBits value := by
  have hrefused := refused_iff hfrom value
  unfold turn Taken
  split_ifs with h
  · rw [hrefused] at h
    simp only [true_iff]
    omega
  · rw [hrefused] at h
    simp only [false_iff, not_not]
    omega

theorem turn_low {value : ℤ} (h : 0 ≤ value) (loop : Loop) :
    turn fromBits toBits loop value = turn fromBits toBits loop (low value) := by
  have hneg : ((low value : ℕ) : ℤ) < 0 ↔ value < 0 := by omega
  simp only [turn, filled, word_low, hneg]

theorem foldlM_low {values : List ℤ} (h : ∀ value ∈ values, 0 ≤ value) (loop : Loop) :
    values.foldlM (turn fromBits toBits) loop =
      ((values.map low).map Nat.cast : List ℤ).foldlM (turn fromBits toBits) loop := by
  induction values generalizing loop with
  | nil => rfl
  | cons value values ih =>
    rw [List.map_cons, List.map_cons, List.foldlM_cons, List.foldlM_cons, turn_low (h value List.mem_cons_self)]
    refine congrArg _ (funext fun next => ?_)
    exact ih (fun v hv => h v (List.mem_cons_of_mem _ hv)) next

/-- A run takes each of its values. -/
theorem taken_of_foldlM (hfrom : fromBits < 32) {values : List ℤ} {loop loop' : Loop}
    (h : values.foldlM (turn fromBits toBits) loop = some loop') : ∀ value ∈ values, Taken fromBits value := by
  induction values generalizing loop with
  | nil => exact fun _ hv => absurd hv List.not_mem_nil
  | cons value values ih =>
    rw [List.foldlM_cons] at h
    obtain ⟨next, hnext, h⟩ := Option.bind_eq_some_iff.mp h
    refine List.forall_mem_cons.mpr ⟨?_, ih h⟩
    by_contra hrefused
    rw [(turn_eq_none hfrom loop value).mpr hrefused] at hnext
    cases hnext

/-- A value that is not taken is refused, wherever it stands. -/
theorem convertBits_refuses (hfrom : fromBits < 32) {values : List ℤ} {value : ℤ} (hvalue : value ∈ values)
    (h : ¬Taken fromBits value) (pad : Bool) : convertBits values fromBits toBits pad = none := by
  have hnone : values.foldlM (turn fromBits toBits) .start = none := by
    by_contra hsome
    obtain ⟨loop, hloop⟩ := Option.ne_none_iff_exists'.mp hsome
    exact h (taken_of_foldlM hfrom hloop value hvalue)
  unfold convertBits
  rw [hnone]
  rfl

/-- A number that is not negative stands for its low 32 bits. -/
theorem convertBits_emod {values : List ℤ} (h : ∀ value ∈ values, 0 ≤ value) (pad : Bool) :
    convertBits values fromBits toBits pad =
      convertBits ((values.map low).map Nat.cast) fromBits toBits pad := by
  unfold convertBits
  rw [foldlM_low h]

/-- **After any values the variables keep every bit.** -/
theorem kept_of_foldlM (widths : Roomy fromBits toBits) {read : List ℤ} {loop : Loop}
    (h : read.foldlM (turn fromBits toBits) .start = some loop) : Kept fromBits toBits read loop := by
  have hroom := widths.room
  have hwrites := widths.writes
  have htaken := taken_of_foldlM (by omega) h
  have hfits : ∀ value ∈ read.map low, value < 2 ^ fromBits := by
    intro value hvalue
    obtain ⟨number, hnumber, rfl⟩ := List.mem_map.mp hvalue
    exact low_lt (htaken number hnumber)
  have hrun : ((read.map low).map Nat.cast : List ℤ).foldlM (turn fromBits toBits) Loop.start = _ :=
    foldlM_turn widths hfits (Nat.two_pow_pos _) hwrites []
  rw [foldlM_low fun value hvalue => (htaken value hvalue).1, hrun] at h
  obtain ⟨⟨groups, accumulator, bits⟩, hdone, rfl⟩ := Option.map_eq_some_iff.mp h
  obtain ⟨hrow, hbits, -, -⟩ := regroup_bits hwrites hwrites hdone
  have hacc := regroup_lt (Nat.two_pow_pos _) hdone
  have hsmall : accumulator < 2 ^ 32 := lt_of_lt_of_le hacc (Nat.pow_le_pow_right (by omega) (by omega))
  have hword : (Loop.ofNat ([] ++ groups) accumulator bits).accumulator.toNat = accumulator := Nat.mod_eq_of_lt hsmall
  have hfilled : ∀ value, Taken fromBits value →
      (filled fromBits (Loop.ofNat ([] ++ groups) accumulator bits) value).toNat =
        (accumulator <<< fromBits) ||| low value := by
    intro value hvalue
    have hnat := @toNat_filled _ _ widths (Loop.ofNat ([] ++ groups) accumulator bits) (hword.symm ▸ hacc) _
      (low_lt hvalue)
    rw [hword] at hnat
    rw [← hnat, filled, filled, word_low]
  refine ⟨hbits, hword.symm ▸ hacc, ?_, fun value hvalue => ?_, fun value hvalue => ?_, ?_⟩
  · have hgroups : (Loop.ofNat ([] ++ groups) accumulator bits).result.map Int.toNat = groups := by
      simp [Loop.ofNat, Function.comp_def]
    rw [hword, hgroups]
    exact hrow
  · have hlt := widths.sum_lt hacc (low_lt hvalue)
    have hsum := shiftIn_eq (low_lt hvalue) accumulator
    rw [toInt_of_lt (by rw [hfilled value hvalue, hsum]; exact hlt), hfilled value hvalue, hsum, hword]
    push_cast
    rfl
  · rw [hword, BitVec.toNat_and, hfilled value hvalue, toNat_maskWord (by omega)]
    show bitsOf (bits + fromBits) _ = bitsOf bits _ ++ _
    rw [bitsOf_mask (by omega), bitsOf_shiftIn (low_lt hvalue)]
  · obtain ⟨hshift, hlt⟩ := last_ofNat widths hacc bits
    show (shiftLeftWord (BitVec.ofNat 32 accumulator) (toBits - bits)).toInt = _
    rw [toInt_of_lt (by rw [hshift]; exact hlt), hshift, hword, Nat.shiftLeft_eq]
    push_cast
    rfl

/-! ### Both directions -/

/-- Values of a width. -/
def InWidth (width : ℕ) (values : List ℤ) : Prop := ∀ value ∈ values, 0 ≤ value ∧ value < 2 ^ width

/-- The widths of the calls: bytes to groups of five bits, and back. -/
theorem roomy_encode : Roomy 8 5 := by constructor <;> omega

theorem roomy_decode : Roomy 5 8 := by constructor <;> omega

theorem InWidth.natural {width : ℕ} {values : List ℤ} (h : InWidth width values) :
    ∃ naturals : List ℕ, values = naturals.map Nat.cast ∧ ∀ value ∈ naturals, value < 2 ^ width := by
  have hcast : ((2 ^ width : ℕ) : ℤ) = 2 ^ width := by push_cast; rfl
  refine ⟨values.map Int.toNat, ?_, fun value hvalue => ?_⟩
  · rw [List.map_map]
    refine (List.map_id values).symm.trans (List.map_congr_left fun value hvalue => ?_)
    exact (Int.toNat_of_nonneg (h value hvalue).1).symm
  · obtain ⟨number, hnumber, rfl⟩ := List.mem_map.mp hvalue
    have := h number hnumber
    omega

theorem inWidth_natCast {width : ℕ} {naturals : List ℕ} (h : ∀ value ∈ naturals, value < 2 ^ width) :
    InWidth width (naturals.map Nat.cast) := by
  have hcast : ((2 ^ width : ℕ) : ℤ) = 2 ^ width := by push_cast; rfl
  intro value hvalue
  obtain ⟨n, hn, rfl⟩ := List.mem_map.mp hvalue
  have := h n hn
  omega

/-- **One direction inverts the other**, in 32 bits. -/
theorem convertBits_inverse {groups : List ℤ} (hgroups : InWidth 5 groups) (program : List ℤ) :
    convertBits groups 5 8 false = some program ↔
      InWidth 8 program ∧ convertBits program 8 5 true = some groups := by
  obtain ⟨naturals, rfl, hfit⟩ := hgroups.natural
  rw [convertBits_eq roomy_decode hfit]
  constructor
  · intro h
    obtain ⟨found, hfound, rfl⟩ := Option.map_eq_some_iff.mp h
    have hback := Api.convertBits_inverse.mp hfound
    obtain ⟨hprogram, -⟩ := (convertBits_pad_iff (by omega)).mp hback
    refine ⟨inWidth_natCast hprogram, ?_⟩
    rw [convertBits_eq roomy_encode hprogram, hback]
    rfl
  · rintro ⟨hprogram, h⟩
    obtain ⟨found, rfl, hfound⟩ := hprogram.natural
    rw [convertBits_eq roomy_encode hfound] at h
    obtain ⟨written, hwritten, hsame⟩ := Option.map_eq_some_iff.mp h
    have hcast : Function.Injective (Nat.cast : ℕ → ℤ) := fun _ _ => Int.ofNat.inj
    obtain rfl := List.map_injective_iff.mpr hcast hsame
    rw [Api.convertBits_inverse.mpr hwritten]
    rfl

/-- Bytes are always regrouped. -/
theorem convertBits_bytes {program : List ℤ} (h : InWidth 8 program) :
    ∃ groups, InWidth 5 groups ∧ convertBits program 8 5 true = some groups := by
  obtain ⟨naturals, rfl, hfit⟩ := h.natural
  obtain ⟨done, hdone⟩ := @regroup_total 8 5 naturals hfit 0 0
  obtain ⟨groups, hgroups⟩ : ∃ groups, Api.convertBits naturals 8 5 true = some groups := by
    unfold Api.convertBits
    rw [hdone]
    exact ⟨_, rfl⟩
  obtain ⟨-, hfive, -⟩ := (convertBits_pad_iff (by omega)).mp hgroups
  refine ⟨groups.map Nat.cast, inWidth_natCast hfive, ?_⟩
  rw [convertBits_eq roomy_encode hfit, hgroups]
  rfl

/-- **Regrouping is exact in both directions**: bytes come back from their groups, groups of five bits are read only
when they are those of the bytes, a value is refused when it is negative or its low 32 bits do not fit, any other
stands for its low 32 bits, and the loop keeps every bit at each step. -/
theorem regrouping_exact :
    (∀ program, InWidth 8 program → ∃ groups, InWidth 5 groups ∧ convertBits program 8 5 true = some groups ∧
      convertBits groups 5 8 false = some program) ∧
    (∀ groups, InWidth 5 groups → ∀ program, convertBits groups 5 8 false = some program ↔
      InWidth 8 program ∧ convertBits program 8 5 true = some groups) ∧
    ∀ fromBits toBits, (fromBits, toBits) ∈ [(8, 5), (5, 8)] →
      (∀ values pad, (∃ value ∈ values, value < 0 ∨ 2 ^ fromBits ≤ value % 2 ^ 32) →
        convertBits values fromBits toBits pad = none) ∧
      (∀ values pad, (∀ value ∈ values, 0 ≤ value) →
        convertBits values fromBits toBits pad = convertBits ((values.map low).map Nat.cast) fromBits toBits pad) ∧
      ∀ read loop, read.foldlM (turn fromBits toBits) .start = some loop → Kept fromBits toBits read loop := by
  refine ⟨fun program hprogram => ?_, fun groups hgroups program => convertBits_inverse hgroups program,
    fun fromBits toBits hwidths => ?_⟩
  · obtain ⟨groups, hgroups, hforth⟩ := convertBits_bytes hprogram
    exact ⟨groups, hgroups, hforth, (convertBits_inverse hgroups program).mpr ⟨hprogram, hforth⟩⟩
  · have widths : Roomy fromBits toBits := by
      rcases List.mem_pair.mp hwidths with h | h
      · cases h
        exact roomy_encode
      · cases h
        exact roomy_decode
    refine ⟨?_, fun values pad h => convertBits_emod h pad, fun read loop h => kept_of_foldlM widths h⟩
    rintro values pad ⟨value, hvalue, hrefused⟩
    have hroom := widths.room
    have hwrites := widths.writes
    refine convertBits_refuses (by omega) hvalue (fun taken => ?_) pad
    rcases hrefused with hneg | hbig
    · exact absurd taken.1 (by omega)
    · exact absurd taken.2 (by omega)

theorem regrouping_exact_sample : ∃ groups, InWidth 5 groups ∧ convertBits [255, 1, 0] 8 5 true = some groups ∧
    convertBits groups 5 8 false = some [255, 1, 0] := by
  have hbytes : InWidth 8 [255, 1, 0] := by
    unfold InWidth
    decide
  exact regrouping_exact.1 [255, 1, 0] hbytes

/-- `2 ^ 32` is no byte, but its low 32 bits are: it is read as 0. -/
theorem wide_value_taken : ¬InWidth 8 [2 ^ 32] ∧ convertBits [2 ^ 32] 8 5 true = some [0, 0] := by
  refine ⟨fun h => ?_, by decide⟩
  have := (h _ List.mem_cons_self).2
  omega

end IndexTandem.Api.Word32
