import IndexTandem.Api.Checksum
import IndexTandem.Api.Regrouping

/-!
# Encoding an address

`encodeCarrierAddress` writes version 0 and the groups of five bits of a program, with six
check values after them. What `decodeCarrierAddress` accepts is a text whose lower case is
such an address (`decodeCarrierAddress_iff`): both regroupings are inverse
(`convertBits_inverse`) and the check values are determined.

The case test is made with the case mappings of all of Unicode. The Kelvin sign U+212A is its
own upper case, and its lower case is the letter `k`; so an address in upper case may be
spelled with Kelvin signs, and exactly these spellings are accepted beside the address and its
upper case in ASCII (`carrierAddress_canonical_iff`).
-/

namespace IndexTandem.Api

open Library Protocol

/-! ### Source -/

/-- The characters of values: `values.map((value) => CHARSET[value]).join("")`. -/
def charactersOf (values : List ℕ) : List Char := values.filterMap fun value => CHARSET[value]?

instance (n : ℕ) (s : String) : Decidable (IsHex n s) :=
  @instDecidableAnd _ _ _ (List.decidableBAll (· ∈ hexDigits) s.toList)

/-- `encodeCarrierAddress(witnessProgramHex, network)`. -/
def encodeCarrierAddress (witnessProgramHex : String) (network : NetworkCode) : Except String String :=
  if ¬IsHex 32 witnessProgramHex then throw "carrier witness program must be 32-byte lowercase hex"
  else
    let hrp := (networkHrp network).toList
    let program := (bytes witnessProgramHex).map UInt8.toNat
    match convertBits program 8 5 true with
    | none => throw "carrier witness program cannot be encoded"
    | some converted =>
      let data := 0 :: converted
      let checksumInput := hrpExpand hrp ++ data ++ [0, 0, 0, 0, 0, 0]
      let residue := polymod checksumInput ^^^ 1
      let checksum := (List.range 6).map fun index => (residue >>> (5 * (5 - index))) &&& 31
      pure (String.ofList (hrp ++ ['1'] ++ charactersOf (data ++ checksum)))

/-! ### Characters -/

theorem idxOf_charset {v : ℕ} (h : v < 32) : ∃ c, CHARSET[v]? = some c ∧ CHARSET.idxOf? c = some v := by
  have hall : ((List.range 32).all fun v => (CHARSET[v]?).any fun c => CHARSET.idxOf? c = some v) = true := by
    decide +kernel
  obtain ⟨c, hc, hv⟩ := (Option.any_eq_true _ _).mp (List.all_eq_true.mp hall v (List.mem_range.mpr h))
  exact ⟨c, hc, of_decide_eq_true hv⟩

theorem charset_idxOf {v : ℕ} {c : Char} (h : CHARSET.idxOf? c = some v) : v < 32 ∧ CHARSET[v]? = some c := by
  obtain ⟨hv, hc, -⟩ := List.idxOf?_eq_some_iff.mp h
  exact ⟨hv, List.getElem?_eq_some_iff.mpr ⟨hv, hc⟩⟩

/-- **Reading characters inverts writing them.** -/
theorem mapM_idxOf_iff {characters : List Char} {data : List ℕ} :
    (characters.mapM fun character => CHARSET.idxOf? character) = some data ↔
      (∀ v ∈ data, v < 32) ∧ characters = charactersOf data := by
  induction characters generalizing data with
  | nil =>
    constructor
    · intro h
      cases h
      exact ⟨fun v hv => absurd hv List.not_mem_nil, rfl⟩
    · rintro ⟨hfit, h⟩
      cases data with
      | nil => rfl
      | cons v data =>
        obtain ⟨c, hc, -⟩ := idxOf_charset (hfit v List.mem_cons_self)
        rw [charactersOf, List.filterMap_cons_some hc] at h
        cases h
  | cons c characters ih =>
    rw [List.mapM_cons]
    constructor
    · intro h
      obtain ⟨v, hv, h⟩ := Option.bind_eq_some_iff.mp h
      obtain ⟨rest, hrest, h⟩ := Option.bind_eq_some_iff.mp h
      obtain rfl := Option.some.inj h
      obtain ⟨hfit, htext⟩ := ih.mp hrest
      obtain ⟨hlt, hc⟩ := charset_idxOf hv
      exact ⟨List.forall_mem_cons.mpr ⟨hlt, hfit⟩, by rw [charactersOf, List.filterMap_cons_some hc, htext]; rfl⟩
    · rintro ⟨hfit, h⟩
      cases data with
      | nil => cases h
      | cons v data =>
        obtain ⟨c', hc', hv⟩ := idxOf_charset (hfit v List.mem_cons_self)
        rw [charactersOf, List.filterMap_cons_some hc'] at h
        obtain ⟨rfl, htext⟩ := List.cons.inj h
        have hrest := ih.mpr ⟨fun w hw => hfit w (List.mem_cons_of_mem _ hw), htext⟩
        rw [hv, hrest]
        rfl

theorem length_charactersOf {data : List ℕ} (h : ∀ v ∈ data, v < 32) : (charactersOf data).length = data.length := by
  have hread := mapM_idxOf_iff.mpr ⟨h, rfl⟩
  induction data with
  | nil => rfl
  | cons v data ih =>
    obtain ⟨c, hc, -⟩ := idxOf_charset (h v List.mem_cons_self)
    have hfit : ∀ w ∈ data, w < 32 := fun w hw => h w (List.mem_cons_of_mem _ hw)
    rw [charactersOf, List.filterMap_cons_some hc, List.length_cons, List.length_cons]
    exact congrArg (· + 1) (ih hfit (mapM_idxOf_iff.mpr ⟨hfit, rfl⟩))

theorem charactersOf_mem {data : List ℕ} {c : Char} (h : c ∈ charactersOf data) : c ∈ CHARSET := by
  obtain ⟨v, -, hc⟩ := List.mem_filterMap.mp h
  exact List.mem_of_getElem? hc

theorem one_not_mem_charset : '1' ∉ CHARSET := by decide

/-! ### The separator -/

theorem splitAtLast_append {separator : Char} {after : List Char} (h : separator ∉ after) (before : List Char) :
    splitAtLast separator (before ++ [separator] ++ after) = some (before, after) := by
  have hafter : ((before ++ [separator] ++ after).reverse.takeWhile (· ≠ separator)).reverse = after := by
    have hall : ∀ c ∈ after.reverse, decide (c ≠ separator) = true := fun c hc =>
      decide_eq_true fun he => h (he ▸ List.mem_reverse.mp hc)
    have hrow : (before ++ [separator] ++ after).reverse = after.reverse ++ separator :: before.reverse := by simp
    rw [hrow, List.takeWhile_append_of_pos hall, List.takeWhile_cons_of_neg (by simp), List.append_nil,
      List.reverse_reverse]
  rw [splitAtLast, if_pos (by simp)]
  dsimp only
  rw [hafter]
  have hbefore : (before ++ [separator] ++ after).length - after.length - 1 = before.length := by
    simp only [List.length_append, List.length_singleton]
    omega
  rw [hbefore, List.append_assoc, List.take_left]

theorem of_splitAtLast {separator : Char} {characters before after : List Char}
    (h : splitAtLast separator characters = some (before, after)) :
    characters = before ++ [separator] ++ after ∧ separator ∉ after := by
  rw [splitAtLast] at h
  split_ifs at h with hmem
  obtain ⟨first, last, hsplit, hlast⟩ : ∃ first last, characters = first ++ [separator] ++ last ∧ separator ∉ last := by
    obtain ⟨t, s, hst, ht⟩ := List.eq_append_cons_of_mem (List.mem_reverse.mpr hmem)
    refine ⟨s.reverse, t.reverse, ?_, fun hc => ht (List.mem_reverse.mp hc)⟩
    rw [← List.reverse_reverse characters, hst]
    simp
  have hother := splitAtLast_append hlast first
  rw [← hsplit, splitAtLast, if_pos hmem] at hother
  rw [hother] at h
  cases h
  exact ⟨hsplit, hlast⟩

/-! ### Programs and values -/

/-- **The regroupings are inverse.** -/
theorem convertBits_inverse {groups program : List ℕ} :
    convertBits groups 5 8 false = some program ↔ convertBits program 8 5 true = some groups := by
  rw [convertBits_exact_iff (by omega), convertBits_pad_iff (by omega)]
  constructor
  · rintro ⟨hgroups, hprogram, k, -, hk, hpadded⟩
    exact ⟨hprogram, hgroups, k, hk, hpadded⟩
  · rintro ⟨hprogram, hgroups, k, hk, hpadded⟩
    exact ⟨hgroups, hprogram, k, by omega, hk, hpadded⟩

/-- The bytes of a program as numbers. -/
def programValues (program : Hash) : List ℕ := program.bytes.map UInt8.toNat

theorem programValues_lt (program : Hash) : ∀ v ∈ programValues program, v < 2 ^ 8 := by
  intro v hv
  obtain ⟨b, -, rfl⟩ := List.mem_map.mp hv
  exact b.toNat_lt

theorem length_programValues (program : Hash) : (programValues program).length = 32 := by
  rw [programValues, List.length_map, program.length_bytes]

theorem programValues_of {values : List ℕ} (hfit : ∀ v ∈ values, v < 2 ^ 8) (hlength : values.length = 32) :
    ∃ program : Hash, values = programValues program ∧ toHex (values.map UInt8.ofNat) = program.text := by
  refine ⟨⟨values.map UInt8.ofNat, by rw [List.length_map, hlength]⟩, ?_, rfl⟩
  rw [programValues, List.map_map]
  conv_lhs => rw [← List.map_id values]
  refine List.map_congr_left fun v hv => ?_
  have := hfit v hv
  simp only [id_eq, Function.comp_apply, UInt8.toNat_ofNat']
  omega

/-- The groups of five bits of a program. -/
def groupsOf (program : Hash) : List ℕ := (convertBits (programValues program) 8 5 true).getD []

theorem convertBits_program (program : Hash) : convertBits (programValues program) 8 5 true = some (groupsOf program) := by
  obtain ⟨groups, h⟩ : ∃ groups, convertBits (programValues program) 8 5 true = some groups := by
    obtain ⟨done, hdone⟩ := @regroup_total 8 5 _ (programValues_lt program) 0 0
    unfold convertBits
    rw [hdone]
    exact ⟨_, rfl⟩
  rw [groupsOf, h, Option.getD_some]

theorem groupsOf_spec (program : Hash) : (∀ v ∈ groupsOf program, v < 32) ∧ (groupsOf program).length = 52 := by
  obtain ⟨-, hfit, k, hk, hpadded⟩ := (convertBits_pad_iff (by omega)).mp (convertBits_program program)
  have hlength := congrArg List.length hpadded
  rw [length_groups, List.length_append, length_groups, length_programValues, List.length_replicate] at hlength
  exact ⟨hfit, by omega⟩

/-- The values of an address: version 0, the program and the check values. -/
def addressValues (network : NetworkCode) (program : Hash) : List ℕ :=
  0 :: groupsOf program ++
    checksumOf (polymod (hrpExpand (networkHrp network).toList ++ (0 :: groupsOf program) ++ [0, 0, 0, 0, 0, 0]) ^^^ 1)

/-- The address of a program. -/
def addressText (network : NetworkCode) (program : Hash) : List Char :=
  (networkHrp network).toList ++ ['1'] ++ charactersOf (addressValues network program)

/-- **Every program is encoded.** -/
theorem encodeCarrierAddress_text (network : NetworkCode) (program : Hash) :
    encodeCarrierAddress program.text network = .ok (String.ofList (addressText network program)) := by
  have hvalues : (bytes program.text).map UInt8.toNat = programValues program := by
    rw [Hash.bytes_text]
    rfl
  unfold encodeCarrierAddress
  rw [if_neg (not_not.mpr program.isHex_text)]
  dsimp only
  rw [hvalues, convertBits_program]
  rfl

theorem hrpExpand_lt (network : NetworkCode) : ∀ v ∈ hrpExpand (networkHrp network).toList, v < 32 := by
  cases network <;> decide +kernel

theorem checksumOf_lt (r : ℕ) : ∀ v ∈ checksumOf r, v < 32 := by
  intro v hv
  rw [checksumOf_eq] at hv
  simp only [List.mem_cons, List.not_mem_nil, or_false] at hv
  omega

theorem length_checksumOf (r : ℕ) : (checksumOf r).length = 6 := by
  rw [checksumOf_eq]
  rfl

theorem addressValues_lt (network : NetworkCode) (program : Hash) : ∀ v ∈ addressValues network program, v < 32 := by
  intro v hv
  rcases List.mem_append.mp hv with hv | hv
  · rcases List.mem_cons.mp hv with rfl | hv
    · decide
    · exact (groupsOf_spec program).1 v hv
  · exact checksumOf_lt _ v hv

theorem length_addressValues (network : NetworkCode) (program : Hash) : (addressValues network program).length = 59 := by
  rw [addressValues, List.length_append, List.length_cons, (groupsOf_spec program).2, length_checksumOf]

/-- **What the values of an address are**: version 0 with a program of 32 bytes, and the residue one. -/
theorem addressValues_iff (network : NetworkCode) (program : Hash) {data : List ℕ} (hfit : ∀ v ∈ data, v < 32)
    (hlength : 6 ≤ data.length) :
    data = addressValues network program ↔
      polymod (hrpExpand (networkHrp network).toList ++ data) = 1 ∧ (data.take (data.length - 6)).head? = some 0 ∧
        convertBits ((data.take (data.length - 6)).drop 1) 5 8 false = some (programValues program) := by
  have hcheck : ∀ {payload tail : List ℕ}, (∀ v ∈ payload, v < 32) → (∀ v ∈ tail, v < 32) → tail.length = 6 →
      (polymod (hrpExpand (networkHrp network).toList ++ (payload ++ tail)) = 1 ↔
        tail = checksumOf (polymod (hrpExpand (networkHrp network).toList ++ payload ++ [0, 0, 0, 0, 0, 0]) ^^^ 1)) := by
    intro payload tail hpayload htail hsix
    have hlow : residue 1 (hrpExpand (networkHrp network).toList ++ payload) < 2 ^ 30 := by
      refine residue_lt (by decide) fun v hv => ?_
      rcases List.mem_append.mp hv with hv | hv
      · exact hrpExpand_lt network v hv
      · exact hpayload v hv
    rw [← List.append_assoc, polymod_eq, polymod_eq, residue_append 1 (_ ++ payload) tail,
      residue_append 1 (_ ++ payload) [0, 0, 0, 0, 0, 0]]
    exact residue_tail hlow hsix htail
  constructor
  · rintro rfl
    have hpayload : (addressValues network program).take ((addressValues network program).length - 6) =
        0 :: groupsOf program := by
      rw [length_addressValues, addressValues]
      exact List.take_left' (by rw [List.length_cons, (groupsOf_spec program).2])
    rw [hpayload]
    refine ⟨(hcheck ?_ (checksumOf_lt _) (length_checksumOf _)).mpr rfl, rfl,
      convertBits_inverse.mpr (convertBits_program program)⟩
    exact List.forall_mem_cons.mpr ⟨by omega, (groupsOf_spec program).1⟩
  · rintro ⟨hone, hversion, hprogram⟩
    have hsplit := List.take_append_drop (data.length - 6) data
    have hsix : (data.drop (data.length - 6)).length = 6 := by
      rw [List.length_drop]
      omega
    generalize data.take (data.length - 6) = payload at *
    generalize data.drop (data.length - 6) = tail at *
    subst hsplit
    have hpayloadFit : ∀ v ∈ payload, v < 32 := fun v hv => hfit v (List.mem_append_left _ hv)
    have htail := (hcheck hpayloadFit (fun v hv => hfit v (List.mem_append_right _ hv)) hsix).mp hone
    cases payload with
    | nil => cases hversion
    | cons version groups =>
      obtain rfl := Option.some.inj hversion
      have hgroups := convertBits_inverse.mp hprogram
      rw [convertBits_program] at hgroups
      obtain rfl := Option.some.inj hgroups
      rw [htail]
      rfl

/-! ### What is accepted -/

theorem utf16Length_eq {characters : List Char} (h : ∀ c ∈ characters, c.toNat < 0x1_0000) :
    utf16Length characters = characters.length := by
  induction characters with
  | nil => rfl
  | cons c characters ih =>
    have hrest := ih fun d hd => h d (List.mem_cons_of_mem _ hd)
    rw [utf16Length, List.foldr_cons, if_pos (h c List.mem_cons_self), List.length_cons]
    rw [utf16Length] at hrest
    omega

theorem charset_ascii : ∀ c ∈ CHARSET, c.toNat < 128 := by
  have hall : (CHARSET.all fun c => c.toNat < 128) = true := by decide +kernel
  simpa only [List.all_eq_true, decide_eq_true_eq] using hall

theorem addressText_mem {network : NetworkCode} {program : Hash} {c : Char} (h : c ∈ addressText network program) :
    c ∈ CHARSET ∨ c = 'b' ∨ c = '1' := by
  have hhrp : ∀ network, ∀ c ∈ (networkHrp network).toList ++ ['1'], c ∈ CHARSET ∨ c = 'b' ∨ c = '1' := by
    intro network
    have hall : ((networkHrp network).toList ++ ['1']).all (fun c => c ∈ CHARSET ∨ c = 'b' ∨ c = '1') = true := by
      cases network <;> decide +kernel
    simpa only [List.all_eq_true, decide_eq_true_eq] using hall
  rcases List.mem_append.mp h with h | h
  · exact hhrp network c h
  · exact .inl (charactersOf_mem h)

theorem length_addressText (network : NetworkCode) (program : Hash) :
    (addressText network program).length = (networkHrp network).toList.length + 60 := by
  rw [addressText, List.length_append, List.length_append, length_charactersOf (addressValues_lt network program),
    length_addressValues, List.length_singleton]

theorem addressText_bounds (network : NetworkCode) (program : Hash) :
    14 ≤ (addressText network program).length ∧ (addressText network program).length ≤ 90 := by
  rw [length_addressText]
  cases network <;> decide +kernel

/-- **What is accepted** is a text whose lower case is an address. -/
theorem decodeCarrierAddress_iff (casing : Casing) (value : String) (network : NetworkCode) (decoded : CarrierAddress) :
    decodeCarrierAddress casing value network = some decoded ↔
      (14 ≤ utf16Length value.toList ∧ utf16Length value.toList ≤ 90) ∧
      (value = casing.toLowerCase value ∨ value = casing.toUpperCase value) ∧
      ∃ program, decoded = ⟨casing.toLowerCase value, program.text⟩ ∧
        (casing.toLowerCase value).toList = addressText network program := by
  constructor
  · intro h
    unfold decodeCarrierAddress at h
    split_ifs at h with hbounds hcase
    dsimp only at h
    split at h
    · cases h
    rename_i hrp characters hsplit
    split_ifs at h with hshort hhrp
    split at h
    · cases h
    rename_i data hdata
    split_ifs at h with hone hversion
    split at h
    · cases h
    rename_i values hvalues
    split_ifs at h with hlength
    obtain ⟨hsplit, -⟩ := of_splitAtLast hsplit
    obtain ⟨hfit, hcharacters⟩ := mapM_idxOf_iff.mp hdata
    rw [not_or, Nat.not_lt, Nat.not_lt] at hbounds
    rw [not_and_or, not_not, not_not] at hcase
    refine ⟨hbounds, hcase, ?_⟩
    -- The numbers after the regrouping are bytes.
    obtain ⟨-, hbytes, -⟩ := (convertBits_exact_iff (by omega)).mp hvalues
    obtain ⟨program, hprogram, htext⟩ := programValues_of hbytes (not_not.mp hlength)
    have hlong : 6 ≤ data.length := by
      rw [← length_charactersOf hfit, ← hcharacters, ← utf16Length_eq fun c hc => ?_]
      · omega
      · have := charset_ascii c (charactersOf_mem (hcharacters ▸ hc))
        omega
    have haddress := (addressValues_iff network program hfit hlong).mpr
      ⟨by rw [← not_not.mp hhrp]; exact not_not.mp hone, not_not.mp hversion, by rw [← hprogram]; exact hvalues⟩
    refine ⟨program, ?_, ?_⟩
    · rw [← htext]
      exact (Option.some.inj h).symm
    · rw [hsplit, hcharacters, haddress, not_not.mp hhrp]
      rfl
  · rintro ⟨hbounds, hcase, program, rfl, htext⟩
    have hsplit : splitAtLast '1' (casing.toLowerCase value).toList =
        some ((networkHrp network).toList, charactersOf (addressValues network program)) := by
      rw [htext]
      exact splitAtLast_append (fun hc => one_not_mem_charset (charactersOf_mem hc)) _
    have hfit := addressValues_lt network program
    have hlength := length_addressValues network program
    have hlong : utf16Length (charactersOf (addressValues network program)) = 59 := by
      rw [utf16Length_eq fun c hc => ?_, length_charactersOf hfit, hlength]
      have := charset_ascii c (charactersOf_mem hc)
      omega
    have hhrp : (networkHrp network).toList ≠ [] := by cases network <;> decide +kernel
    obtain ⟨hone, hversion, hvalues⟩ := (addressValues_iff network program hfit (by omega)).mp rfl
    have htext' : toHex ((programValues program).map UInt8.ofNat) = program.text := by
      obtain ⟨other, hother, hhex⟩ := programValues_of (programValues_lt program) (length_programValues program)
      rw [hhex]
      refine congrArg Hash.text (Hash.ext ?_)
      exact (List.map_injective_iff.mpr (fun _ _ => UInt8.toNat_inj.mp) hother).symm
    unfold decodeCarrierAddress
    rw [if_neg (by omega), if_neg (by tauto)]
    dsimp only
    rw [hsplit]
    dsimp only
    rw [if_neg (by rw [hlong]; exact fun h => h.elim hhrp (by omega)), if_neg (not_not.mpr rfl),
      mapM_idxOf_iff.mpr ⟨hfit, rfl⟩]
    dsimp only
    rw [if_neg (not_not.mpr hone), if_neg (not_not.mpr hversion), hvalues]
    dsimp only
    rw [if_neg (not_not.mpr (length_programValues program)), htext']

/-! ### Case -/

/-- The Kelvin sign. -/
def kelvinSign : Char := '\u212A'

/-- An ASCII character or a Kelvin sign. -/
def Plain (c : Char) : Prop := c.toNat < 128 ∨ c = kelvinSign

/-- A `K` in place of a Kelvin sign. -/
def withoutKelvin (c : Char) : Char := if c = kelvinSign then 'K' else c

/-- The case mappings on ASCII characters and Kelvin signs are those of Unicode, and the Kelvin sign is the only
character outside ASCII whose lower case is in ASCII. -/
structure Casing.Lawful (casing : Casing) : Prop where
  /-- A Kelvin sign is a `k` in lower case. -/
  lower_plain : ∀ v : String, (∀ c ∈ v.toList, Plain c) →
    casing.toLowerCase v = String.ofList (v.toList.map fun c => (withoutKelvin c).toLower)
  /-- A Kelvin sign is its own upper case. -/
  upper_plain : ∀ v : String, (∀ c ∈ v.toList, Plain c) →
    casing.toUpperCase v = String.ofList (v.toList.map Char.toUpper)
  /-- Other characters leave one outside ASCII. -/
  lower_other : ∀ v : String, ∀ c ∈ v.toList, ¬Plain c → ∃ d ∈ (casing.toLowerCase v).toList, 128 ≤ d.toNat

theorem toUpper_toLower {c : Char} (h : c.toNat < 128) : c.toLower.toUpper = c.toUpper := by
  have hall : ((List.range 128).all fun n => (Char.ofNat n).toLower.toUpper = (Char.ofNat n).toUpper) = true := by
    decide +kernel
  have hc := of_decide_eq_true (List.all_eq_true.mp hall c.toNat (List.mem_range.mpr h))
  rwa [Char.ofNat_toNat] at hc

theorem addressText_case {network : NetworkCode} {program : Hash} {a : Char} (h : a ∈ addressText network program) :
    a.toNat < 128 ∧ a.toLower = a ∧ a.toUpper.toNat < 128 ∧ a.toUpper.toUpper = a.toUpper ∧ a.toUpper.toLower = a := by
  have hall : (('b' :: '1' :: CHARSET).all fun a => a.toNat < 128 ∧ a.toLower = a ∧ a.toUpper.toNat < 128 ∧
      a.toUpper.toUpper = a.toUpper ∧ a.toUpper.toLower = a) = true := by decide +kernel
  refine of_decide_eq_true (List.all_eq_true.mp hall a ?_)
  rcases addressText_mem h with h | rfl | rfl
  · exact List.mem_cons_of_mem _ (List.mem_cons_of_mem _ h)
  · exact List.mem_cons_self
  · exact List.mem_cons_of_mem _ List.mem_cons_self

theorem withoutKelvin_ascii {c : Char} (h : c.toNat < 128) : withoutKelvin c = c := by
  refine if_neg fun he => ?_
  rw [he] at h
  exact absurd h (by decide)

/-- The address itself, or its upper case with some `K` as Kelvin signs. -/
def Spelled (network : NetworkCode) (program : Hash) (characters : List Char) : Prop :=
  characters = addressText network program ∨
    characters.map withoutKelvin = (addressText network program).map Char.toUpper

/-- **What is accepted** under the case mappings of Unicode. -/
theorem decodeCarrierAddress_spelled {casing : Casing} (lawful : casing.Lawful) (value : String) (network : NetworkCode)
    (decoded : CarrierAddress) :
    decodeCarrierAddress casing value network = some decoded ↔
      ∃ program, decoded = ⟨String.ofList (addressText network program), program.text⟩ ∧
        Spelled network program value.toList := by
  rw [decodeCarrierAddress_iff]
  constructor
  · rintro ⟨-, hcase, program, rfl, htext⟩
    have hplain : ∀ c ∈ value.toList, Plain c := by
      intro c hc
      by_contra hother
      obtain ⟨d, hd, hhigh⟩ := lawful.lower_other value c hc hother
      rw [htext] at hd
      have := (addressText_case hd).1
      omega
    refine ⟨program, by rw [← htext, String.ofList_toList], ?_⟩
    rcases hcase with hlower | hupper
    · exact .inl (by rw [hlower, htext])
    · refine .inr ?_
      have hself := congrArg String.toList hupper
      rw [lawful.upper_plain value hplain, String.toList_ofList] at hself
      rw [lawful.lower_plain value hplain, String.toList_ofList] at htext
      rw [← htext, List.map_map]
      refine List.map_congr_left fun c hc => ?_
      have hc' : c.toUpper = c := List.map_inj_left.mp (hself.symm.trans (List.map_id _).symm) c hc
      show withoutKelvin c = (withoutKelvin c).toLower.toUpper
      rcases hplain c hc with hascii | rfl
      · rw [withoutKelvin_ascii hascii, toUpper_toLower hascii, hc']
      · decide
  · rintro ⟨program, rfl, hspelled⟩
    have hbounds := addressText_bounds network program
    have hfacts : (∀ c ∈ value.toList, Plain c) ∧ value.toList.length = (addressText network program).length ∧
        (value.toList.map fun c => (withoutKelvin c).toLower) = addressText network program ∧
        (value.toList = addressText network program ∨ value.toList.map Char.toUpper = value.toList) := by
      rcases hspelled with hself | hupper
      · rw [hself]
        refine ⟨fun c hc => .inl (addressText_case hc).1, rfl, ?_, .inl rfl⟩
        conv_rhs => rw [← List.map_id (addressText network program)]
        refine List.map_congr_left fun c hc => ?_
        rw [withoutKelvin_ascii (addressText_case hc).1, (addressText_case hc).2.1, id_eq]
      · have hchar : ∀ c ∈ value.toList, Plain c ∧ c.toUpper = c := by
          intro c hc
          by_cases hk : c = kelvinSign
          · subst hk
            exact ⟨.inr rfl, by decide⟩
          · have hmem := List.mem_map_of_mem (f := withoutKelvin) hc
            rw [hupper, withoutKelvin, if_neg hk] at hmem
            obtain ⟨a, ha, rfl⟩ := List.mem_map.mp hmem
            obtain ⟨-, -, hascii, hself, -⟩ := addressText_case ha
            exact ⟨.inl hascii, hself⟩
        refine ⟨fun c hc => (hchar c hc).1, ?_, ?_, .inr ?_⟩
        · have hlength := congrArg List.length hupper
          rwa [List.length_map, List.length_map] at hlength
        · have hlower := congrArg (List.map Char.toLower) hupper
          rw [List.map_map, List.map_map] at hlower
          refine hlower.trans ?_
          conv_rhs => rw [← List.map_id (addressText network program)]
          exact List.map_congr_left fun c hc => (addressText_case hc).2.2.2.2
        · conv_rhs => rw [← List.map_id value.toList]
          exact List.map_congr_left fun c hc => (hchar c hc).2
    obtain ⟨hplain, hlength, hlower, hcase⟩ := hfacts
    have hutf16 : utf16Length value.toList = (addressText network program).length := by
      rw [utf16Length_eq fun c hc => ?_, hlength]
      rcases hplain c hc with hascii | rfl
      · omega
      · decide
    have htext : casing.toLowerCase value = String.ofList (addressText network program) := by
      rw [lawful.lower_plain value hplain, hlower]
    refine ⟨by omega, ?_, program, by rw [htext], by rw [htext, String.toList_ofList]⟩
    rcases hcase with hself | hself
    · exact .inl (by rw [htext, ← hself, String.ofList_toList])
    · exact .inr (by rw [lawful.upper_plain value hplain, hself, String.ofList_toList])

/-! ### The codec -/

/-- The upper case of ASCII. -/
def asciiUpperCase (text : String) : String := String.ofList (text.toList.map Char.toUpper)

/-- A text is accepted only as an address, or its upper case, of the program that is returned. -/
def Canonical (casing : Casing) (network : NetworkCode) (value : String) : Prop :=
  ∀ decoded, decodeCarrierAddress casing value network = some decoded →
    encodeCarrierAddress decoded.witnessProgramHex network = .ok decoded.address ∧
      (value = decoded.address ∨ value = asciiUpperCase decoded.address)

/-- An address in upper case, with at least one `K` spelled as a Kelvin sign. -/
def KelvinSpelling (network : NetworkCode) (value : String) : Prop :=
  kelvinSign ∈ value.toList ∧
    ∃ program, value.toList.map withoutKelvin = (addressText network program).map Char.toUpper

theorem addressText_no_kelvin {network : NetworkCode} {program : Hash} :
    kelvinSign ∉ addressText network program ∧ kelvinSign ∉ (addressText network program).map Char.toUpper := by
  constructor
  · intro h
    exact absurd (addressText_case h).1 (by decide)
  · intro h
    obtain ⟨a, ha, hk⟩ := List.mem_map.mp h
    have hascii := (addressText_case ha).2.2.1
    rw [hk] at hascii
    exact absurd hascii (by decide)

theorem map_withoutKelvin {characters : List Char} (h : kelvinSign ∉ characters) :
    characters.map withoutKelvin = characters := by
  conv_rhs => rw [← List.map_id characters]
  refine List.map_congr_left fun c hc => ?_
  have hne : c ≠ kelvinSign := fun he => h (he ▸ hc)
  rw [withoutKelvin, if_neg hne, id_eq]

/-- Programs come back from their address, in either case. -/
theorem encodeCarrierAddress_decode {casing : Casing} (lawful : casing.Lawful) (network : NetworkCode)
    {witnessProgramHex : String} (h : IsHex 32 witnessProgramHex) :
    ∃ address, encodeCarrierAddress witnessProgramHex network = .ok address ∧
      decodeCarrierAddress casing address network = some ⟨address, witnessProgramHex⟩ ∧
      decodeCarrierAddress casing (casing.toUpperCase address) network = some ⟨address, witnessProgramHex⟩ := by
  obtain ⟨program, rfl⟩ : ∃ program : Hash, witnessProgramHex = program.text :=
    ⟨⟨bytes witnessProgramHex, length_bytes h⟩, (toHex_bytes h).symm⟩
  refine ⟨_, encodeCarrierAddress_text network program, ?_, ?_⟩
  · exact (decodeCarrierAddress_spelled lawful _ _ _).mpr ⟨program, rfl, .inl String.toList_ofList⟩
  · refine (decodeCarrierAddress_spelled lawful _ _ _).mpr ⟨program, rfl, .inr ?_⟩
    rw [lawful.upper_plain _ fun c hc => .inl (addressText_case (String.toList_ofList ▸ hc)).1, String.toList_ofList,
      String.toList_ofList]
    exact map_withoutKelvin addressText_no_kelvin.2

/-- **The codec is a bijection with canonical text, but for Kelvin signs.** -/
theorem carrierAddress_canonical_iff {casing : Casing} (lawful : casing.Lawful) (network : NetworkCode) :
    (∀ witnessProgramHex, IsHex 32 witnessProgramHex →
      ∃ address, encodeCarrierAddress witnessProgramHex network = .ok address ∧
        decodeCarrierAddress casing address network = some ⟨address, witnessProgramHex⟩ ∧
        decodeCarrierAddress casing (casing.toUpperCase address) network = some ⟨address, witnessProgramHex⟩) ∧
    ∀ value, Canonical casing network value ↔ ¬KelvinSpelling network value := by
  refine ⟨fun _ h => encodeCarrierAddress_decode lawful network h, fun value => ?_⟩
  constructor
  · rintro hcanonical ⟨hkelvin, program, hspelled⟩
    have hdecoded := (decodeCarrierAddress_spelled lawful value network _).mpr ⟨program, rfl, .inr hspelled⟩
    obtain ⟨-, hvalue⟩ := hcanonical _ hdecoded
    rw [asciiUpperCase, String.toList_ofList] at hvalue
    rcases hvalue with rfl | rfl
    · exact addressText_no_kelvin.1 (String.toList_ofList ▸ hkelvin)
    · exact addressText_no_kelvin.2 (String.toList_ofList ▸ hkelvin)
  · intro hplain decoded hdecoded
    obtain ⟨program, rfl, hspelled⟩ := (decodeCarrierAddress_spelled lawful value network _).mp hdecoded
    refine ⟨encodeCarrierAddress_text network program, ?_⟩
    rcases hspelled with hself | hupper
    · exact .inl (by rw [← hself, String.ofList_toList])
    · have hkelvin : kelvinSign ∉ value.toList := fun h => hplain ⟨h, program, hupper⟩
      rw [map_withoutKelvin hkelvin] at hupper
      exact .inr (by rw [asciiUpperCase, String.toList_ofList, ← hupper, String.ofList_toList])

/-- Case mappings that change ASCII characters and Kelvin signs only. -/
def plainCasing : Casing where
  toLowerCase text := String.ofList (text.toList.map fun c => (withoutKelvin c).toLower)
  toUpperCase := asciiUpperCase

theorem plainCasing_lawful : plainCasing.Lawful where
  lower_plain _ _ := rfl
  upper_plain _ _ := rfl
  lower_other v c hc hother := by
    rw [Plain, not_or] at hother
    refine ⟨c, ?_, Nat.not_lt.mp hother.1⟩
    have hself : (withoutKelvin c).toLower = c := by
      rw [withoutKelvin, if_neg hother.2]
      refine dif_neg fun h => ?_
      have hbound : c.toNat ≤ 90 := UInt32.le_iff_toNat_le.mp h.2
      have := hother.1
      omega
    show c ∈ (String.ofList _).toList
    rw [String.toList_ofList]
    exact List.mem_map.mpr ⟨c, hc, hself⟩

theorem carrierAddress_canonical_sample :
    (∃ address, encodeCarrierAddress "1863143c14c5166804bd19203356da136c985678cd4d27a1b8c6329604903262" .mainnet = .ok address ∧
      decodeCarrierAddress plainCasing address .mainnet =
        some ⟨address, "1863143c14c5166804bd19203356da136c985678cd4d27a1b8c6329604903262"⟩) ∧
    Canonical plainCasing .mainnet "BC1QRP33G0Q5C5TXSP9ARYSRX4K6ZDKFS4NCE4XJ0GDCCCEFVPYSXF3QCCFMV3" := by
  obtain ⟨hround, hcanonical⟩ := carrierAddress_canonical_iff plainCasing_lawful .mainnet
  constructor
  · have hhex : IsHex 32 "1863143c14c5166804bd19203356da136c985678cd4d27a1b8c6329604903262" := by decide +kernel
    obtain ⟨address, hencode, hdecode, -⟩ := hround _ hhex
    exact ⟨address, hencode, hdecode⟩
  · exact (hcanonical _).mpr fun h => absurd h.1 (by decide +kernel)

/-- A Kelvin sign is read as a `k`. -/
theorem decodeCarrierAddress_kelvin :
    decodeCarrierAddress plainCasing "BC1QRP33G0Q5C5TXSP9ARYSRX4\u212A6ZDKFS4NCE4XJ0GDCCCEFVPYSXF3QCCFMV3" .mainnet =
      some ⟨"bc1qrp33g0q5c5txsp9arysrx4k6zdkfs4nce4xj0gdcccefvpysxf3qccfmv3",
        "1863143c14c5166804bd19203356da136c985678cd4d27a1b8c6329604903262"⟩ ∧
    ¬Canonical plainCasing .mainnet "BC1QRP33G0Q5C5TXSP9ARYSRX4\u212A6ZDKFS4NCE4XJ0GDCCCEFVPYSXF3QCCFMV3" := by
  have hdecoded : decodeCarrierAddress plainCasing
      "BC1QRP33G0Q5C5TXSP9ARYSRX4\u212A6ZDKFS4NCE4XJ0GDCCCEFVPYSXF3QCCFMV3" .mainnet =
      some ⟨"bc1qrp33g0q5c5txsp9arysrx4k6zdkfs4nce4xj0gdcccefvpysxf3qccfmv3",
        "1863143c14c5166804bd19203356da136c985678cd4d27a1b8c6329604903262"⟩ := by decide +kernel
  refine ⟨hdecoded, fun hcanonical => ?_⟩
  rcases (hcanonical _ hdecoded).2 with h | h
  · exact absurd h (by decide +kernel)
  · exact absurd h (by decide +kernel)

end IndexTandem.Api
