import IndexTandem.Api.AddressCodec

/-!
# Typing errors

One or two wrong characters in the part of an address after the separator leave a residue
other than one, so the text is refused (`decodeCarrierAddress_typing`). The residue of the
changes is that of a first value carried on to the end, or of the second value added to the
first carried on; the first has grown past 31 by then, and a step loses nothing.
-/

namespace IndexTandem.Api

open Library Protocol

/-! ### The residue of changes -/

/-- How many values are changed. -/
def changed (changes : List ℕ) : ℕ := changes.countP fun v => v ≠ 0

theorem eq_zeros {changes : List ℕ} (h : changed changes = 0) : changes = List.replicate changes.length 0 := by
  rw [changed, List.countP_eq_zero] at h
  refine List.eq_replicate_of_mem fun v hv => ?_
  simpa using h v hv

theorem first_change {changes : List ℕ} (h : changed changes ≠ 0) :
    ∃ n value rest, changes = List.replicate n 0 ++ value :: rest ∧ value ≠ 0 ∧ changed changes = changed rest + 1 := by
  induction changes with
  | nil => exact absurd rfl h
  | cons v changes ih =>
    by_cases hv : v = 0
    · subst hv
      have hcount : changed (0 :: changes) = changed changes := List.countP_cons_of_neg (by simp)
      obtain ⟨n, value, rest, rfl, hvalue, hrest⟩ := ih (hcount ▸ h)
      exact ⟨n + 1, value, rest, rfl, hvalue, hcount.trans hrest⟩
    · exact ⟨0, v, changes, rfl, hv, List.countP_cons_of_pos (by simpa using hv)⟩

theorem polymodStep_zero {value : ℕ} (h : value < 32) : polymodStep 0 value = value := by
  rw [polymodStep_small (by omega) h, Nat.mul_zero, Nat.zero_add]

theorem residue_first {n value : ℕ} (h : value < 32) (rest : List ℕ) :
    residue 0 (List.replicate n 0 ++ value :: rest) = residue value rest := by
  rw [residue_append, residue_zeros]
  show residue (polymodStep 0 value) rest = residue value rest
  rw [polymodStep_zero h]

/-- **One or two changes within 59 values show.** -/
theorem residue_changes {changes : List ℕ} (hfit : ∀ v ∈ changes, v < 32) (hlength : changes.length ≤ 59)
    (hsome : 1 ≤ changed changes) (htwo : changed changes ≤ 2) : residue 0 changes ≠ 0 := by
  obtain ⟨n, value, rest, rfl, hvalue, hcount⟩ := first_change (show changed changes ≠ 0 by omega)
  have hlow : value < 32 := hfit value (by simp)
  rw [residue_first hlow]
  have hrestLength : rest.length ≤ 58 := by
    rw [List.length_append, List.length_cons] at hlength
    omega
  by_cases hone : changed rest = 0
  · rw [eq_zeros hone]
    exact residue_zeros_ne (by omega) hvalue _
  · obtain ⟨m, second, last, rfl, -, hcount'⟩ := first_change hone
    have hsecond : second < 32 := hfit second (by simp)
    have hm : m < 58 := by
      rw [List.length_append, List.length_replicate, List.length_cons] at hrestLength
      omega
    have hnext : polymodStep (residue value (List.replicate m 0)) second =
        residue value (List.replicate (m + 1) 0) ^^^ second := by
      have hstep := polymodStep_xor (residue value (List.replicate m 0)) 0 0 second
      rw [Nat.xor_zero, Nat.zero_xor, polymodStep_zero hsecond] at hstep
      rw [hstep, List.replicate_succ', residue_append]
      rfl
    have hcarried : residue value (List.replicate (m + 1) 0) < 2 ^ 30 := by
      refine residue_lt (by omega) fun v hv => ?_
      rw [List.eq_of_mem_replicate hv]
      decide
    have hgrown := orbit_high hlow hvalue hm
    rw [residue_append, eq_zeros (show changed last = 0 by omega)]
    show residue (polymodStep (residue value (List.replicate m 0)) second) (List.replicate last.length 0) ≠ 0
    rw [hnext]
    refine residue_zeros_ne (Nat.xor_lt_two_pow hcarried (by omega)) (fun hzero => ?_) _
    have := Nat.xor_eq_zero_iff.mp hzero
    omega

/-! ### Characters -/

/-- In how many places two texts differ. -/
def differences (text typed : List Char) : ℕ := (text.zip typed).countP fun pair => pair.1 ≠ pair.2

theorem differences_charactersOf {data data' : List ℕ} (hlength : data.length = data'.length)
    (hfit : ∀ v ∈ data, v < 32) (hfit' : ∀ v ∈ data', v < 32) :
    differences (charactersOf data) (charactersOf data') = changed (List.zipWith (· ^^^ ·) data data') := by
  induction data generalizing data' with
  | nil =>
    cases data' with
    | nil => rfl
    | cons w data' => cases hlength
  | cons v data ih =>
    cases data' with
    | nil => cases hlength
    | cons w data' =>
      obtain ⟨c, hc, hv⟩ := idxOf_charset (hfit v List.mem_cons_self)
      obtain ⟨d, hd, hw⟩ := idxOf_charset (hfit' w List.mem_cons_self)
      have hrest := ih (Nat.succ.inj hlength) (fun u hu => hfit u (List.mem_cons_of_mem _ hu))
        fun u hu => hfit' u (List.mem_cons_of_mem _ hu)
      have hsame : c = d ↔ v ^^^ w = 0 := by
        rw [Nat.xor_eq_zero_iff]
        constructor
        · rintro rfl
          exact Option.some.inj (hv.symm.trans hw)
        · rintro rfl
          exact Option.some.inj (hc.symm.trans hd)
      rw [charactersOf, charactersOf, List.filterMap_cons_some hc, List.filterMap_cons_some hd]
      rw [differences, changed] at hrest
      rw [differences, changed, List.zip_cons_cons, List.zipWith_cons_cons, List.countP_cons, List.countP_cons]
      simp only [ne_eq, hsame, decide_not] at hrest ⊢
      exact congrArg (· + _) hrest

/-- Different characters that are swapped are two differences. -/
theorem differences_swap (before after : List Char) {a b : Char} (h : a ≠ b) :
    differences (before ++ a :: b :: after) (before ++ b :: a :: after) = 2 := by
  have hsame : ∀ text : List Char, differences text text = 0 := by
    intro text
    induction text with
    | nil => rfl
    | cons c text ih =>
      rw [differences, List.zip_cons_cons, List.countP_cons_of_neg (by simp)]
      exact ih
  induction before with
  | nil =>
    show differences (a :: b :: after) (b :: a :: after) = 2
    have hrest := hsame after
    rw [differences] at hrest
    rw [differences, List.zip_cons_cons, List.zip_cons_cons, List.countP_cons_of_pos (by simpa using h),
      List.countP_cons_of_pos (by simpa using h.symm), hrest]
  | cons c before ih =>
    rw [differences] at ih
    rw [differences, List.cons_append, List.cons_append, List.zip_cons_cons, List.countP_cons_of_neg (by simp), ih]

/-! ### Addresses -/

/-- A text that begins with the prefix of a network is accepted as an address only. -/
theorem spelled_of_hrp {network : NetworkCode} {program : Hash} {typed : List Char}
    (h : Spelled network program ((networkHrp network).toList ++ ['1'] ++ typed)) :
    typed = charactersOf (addressValues network program) := by
  rcases h with h | h
  · exact List.append_cancel_left h
  · have hhead := congrArg List.head? h
    cases network <;> exact absurd hhead (by simp [addressText, networkHrp, withoutKelvin, kelvinSign])

/-- **Wrong characters are found** by the check values. -/
theorem decodeCarrierAddress_changed {casing : Casing} (lawful : casing.Lawful) (network : NetworkCode) (program : Hash)
    {typed : List Char} (hsome : 1 ≤ differences (charactersOf (addressValues network program)) typed)
    (htwo : differences (charactersOf (addressValues network program)) typed ≤ 2) :
    decodeCarrierAddress casing (String.ofList ((networkHrp network).toList ++ ['1'] ++ typed)) network = none := by
  by_contra haccepted
  obtain ⟨decoded, hdecoded⟩ := Option.ne_none_iff_exists'.mp haccepted
  obtain ⟨other, -, hspelled⟩ := (decodeCarrierAddress_spelled lawful _ _ _).mp hdecoded
  rw [String.toList_ofList] at hspelled
  obtain rfl := spelled_of_hrp hspelled
  have hfit := addressValues_lt network program
  have hfit' := addressValues_lt network other
  have hlength := length_addressValues network program
  have hlength' := length_addressValues network other
  have hone := ((addressValues_iff network program hfit (by omega)).mp rfl).1
  have hone' := ((addressValues_iff network other hfit' (by omega)).mp rfl).1
  rw [differences_charactersOf (hlength.trans hlength'.symm) hfit hfit'] at hsome htwo
  rw [polymod_eq, residue_append] at hone hone'
  have hlinear := residue_xor (residue 1 (hrpExpand (networkHrp network).toList))
    (residue 1 (hrpExpand (networkHrp network).toList)) (hlength.trans hlength'.symm)
  rw [hone, hone', Nat.xor_self, Nat.xor_self] at hlinear
  refine residue_changes (fun v hv => ?_) ?_ hsome htwo hlinear
  · obtain ⟨i, hi, rfl⟩ := List.mem_iff_getElem.mp hv
    rw [List.getElem_zipWith]
    exact Nat.xor_lt_two_pow (n := 5) (hfit _ (List.getElem_mem _)) (hfit' _ (List.getElem_mem _))
  · rw [List.length_zipWith]
    omega

/-- **Typing errors are always caught**: one or two characters changed, or two neighbours swapped. -/
theorem decodeCarrierAddress_typing {casing : Casing} (lawful : casing.Lawful) (network : NetworkCode)
    {witnessProgramHex address : String} (h : encodeCarrierAddress witnessProgramHex network = .ok address) :
    ∃ characters, address = String.ofList ((networkHrp network).toList ++ ['1'] ++ characters) ∧
      (∀ typed, typed.length = characters.length → (∀ c ∈ typed, c ∈ CHARSET) →
        1 ≤ differences characters typed → differences characters typed ≤ 2 →
        decodeCarrierAddress casing (String.ofList ((networkHrp network).toList ++ ['1'] ++ typed)) network = none) ∧
      ∀ before a b after, characters = before ++ a :: b :: after → a ≠ b →
        decodeCarrierAddress casing (String.ofList ((networkHrp network).toList ++ ['1'] ++
          (before ++ b :: a :: after))) network = none := by
  have hhex : IsHex 32 witnessProgramHex := by
    by_contra hno
    unfold encodeCarrierAddress at h
    rw [if_pos hno] at h
    cases h
  obtain ⟨program, rfl⟩ : ∃ program : Hash, witnessProgramHex = program.text :=
    ⟨⟨bytes witnessProgramHex, length_bytes hhex⟩, (toHex_bytes hhex).symm⟩
  rw [encodeCarrierAddress_text] at h
  cases h
  refine ⟨charactersOf (addressValues network program), rfl, ?_, ?_⟩
  · intro typed _ _ hsome htwo
    exact decodeCarrierAddress_changed lawful network program hsome htwo
  · intro before a b after hsplit hne
    have htwo : differences (charactersOf (addressValues network program)) (before ++ b :: a :: after) = 2 := by
      rw [hsplit]
      exact differences_swap before after hne
    exact decodeCarrierAddress_changed lawful network program (by omega) htwo.le

theorem decodeCarrierAddress_typing_sample :
    decodeCarrierAddress plainCasing "bc1qrp33g0q5c5txsp9arysrx4k6zdkfs4nce4xj0gdcccefvpysxf3qccfmv3" .mainnet ≠ none ∧
    decodeCarrierAddress plainCasing "bc1qrp33g0q5c5txsp9arysrx4k6zdkfs4nce4xj0gdcccefvpysxf3qccfm3v" .mainnet = none := by
  refine ⟨by decide +kernel, ?_⟩
  have hencode : encodeCarrierAddress "1863143c14c5166804bd19203356da136c985678cd4d27a1b8c6329604903262" .mainnet =
      .ok "bc1qrp33g0q5c5txsp9arysrx4k6zdkfs4nce4xj0gdcccefvpysxf3qccfmv3" := by decide +kernel
  obtain ⟨characters, haddress, -, hswap⟩ := decodeCarrierAddress_typing plainCasing_lawful .mainnet hencode
  have hcharacters : characters = "qrp33g0q5c5txsp9arysrx4k6zdkfs4nce4xj0gdcccefvpysxf3qccfm".toList ++ 'v' :: '3' :: [] := by
    have htext := (congrArg String.toList haddress).trans String.toList_ofList
    have hsplit : "bc1qrp33g0q5c5txsp9arysrx4k6zdkfs4nce4xj0gdcccefvpysxf3qccfmv3".toList =
        (networkHrp .mainnet).toList ++ ['1'] ++
          ("qrp33g0q5c5txsp9arysrx4k6zdkfs4nce4xj0gdcccefvpysxf3qccfm".toList ++ 'v' :: '3' :: []) := by decide +kernel
    exact (List.append_cancel_left (hsplit.symm.trans htext)).symm
  have hnone := hswap _ 'v' '3' [] hcharacters (by decide)
  exact hnone

end IndexTandem.Api
