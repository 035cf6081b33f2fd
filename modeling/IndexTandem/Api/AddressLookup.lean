import IndexTandem.Api.AddressCodec
import IndexTandem.Indexer.CarrierScripts
import IndexTandem.Indexer.OutpointText
import IndexTandem.Library.Keyset
import Mathlib.Data.Prod.Lex
import Mathlib.Data.String.Basic

/-!
# Looking up an address

`address` decodes a carrier address, joins every carrier with its state and its object, and
selects the rows whose generated column is the witness program of the address. The column
is computed from the keys of a state, so it is a witness program on the chain only
if the output of the state pays these keys; then the lookup returns exactly the carriers whose output on the
chain has the program of the address (`address_exact`).
-/

namespace IndexTandem.Api.AddressLookup

open Library Protocol Database Indexer

/-! ### The query -/

/-- A row of the answer. -/
structure AddressItem where
  /-- The address. -/
  address : String
  /-- The carrier. -/
  outpoint : Outpoint
  /-- Its object. -/
  objectKey : Hash
  /-- The height it was created at. -/
  createdHeight : ℕ
  /-- The height it was spent at. -/
  spentHeight : Option ℕ
  /-- The transaction that spent it. -/
  spentTxid : Option Hash
  /-- Its amount, as text. -/
  valueSats : String
  /-- The status of the object. -/
  status : ObjectStatusName
  /-- The object's sequence. -/
  stateSequence : ℕ
  deriving DecidableEq

/-- The columns selected. -/
def itemOf (address : String) (row : CarrierRow × ObjectRow) : AddressItem where
  address := address
  outpoint := row.1.outpoint
  objectKey := row.1.objectKey
  createdHeight := row.1.createdHeight
  spentHeight := row.1.spentHeight
  spentTxid := row.1.spentTxid
  valueSats := toString row.1.valueSats
  status := row.2.status
  stateSequence := row.2.stateSequence

/-- The rows of `tandem_states s ON s.outpoint = c.outpoint JOIN tandem_objects o ON o.object_key = c.object_key
WHERE s.carrier_program = ?` for one carrier. -/
def joinedWith (sha256 : Bytes → Hash) (db : Db) (program : String) (c : CarrierRow) : List (CarrierRow × ObjectRow) :=
  (db.states.filter fun s => s.outpoint = c.outpoint && carrierProgram sha256 s = some program).flatMap fun _ =>
    (db.objects.filter fun o => o.objectKey = c.objectKey).map fun o => (c, o)

/-- They for all carriers. -/
def joined (sha256 : Bytes → Hash) (db : Db) (program : String) : List (CarrierRow × ObjectRow) :=
  db.carriers.flatMap (joinedWith sha256 db program)

/-- `ORDER BY c.created_height DESC, c.outpoint ASC`. -/
def rank (row : CarrierRow × ObjectRow) : ℕᵒᵈ ×ₗ String :=
  toLex (OrderDual.toDual row.1.createdHeight, row.1.outpoint.display)

/-- `checkedLimit(limit)`; nothing for a number that is no safe integer. -/
def checkedLimit (limit : Option ℤ) : Except String ℕ :=
  match limit with
  | none => throw "limit must be between 1 and 200"
  | some limit =>
    if limit < 1 ∨ limit > 200 then throw "limit must be between 1 and 200" else pure limit.toNat

/-- The answer. -/
structure AddressAnswer where
  /-- The address in lower case. -/
  address : String
  /-- The carriers. -/
  items : List AddressItem

/-- `address(addressValue, limit)`. -/
def address (casing : Casing) (sha256 : Bytes → Hash) (network : NetworkCode) (db : Db) (addressValue : String)
    (limit : Option ℤ) : Except String AddressAnswer :=
  match decodeCarrierAddress casing addressValue network with
  | none => throw "address is not a valid carrier P2WSH address"
  | some decoded => do
    let limit ← checkedLimit limit
    let rows := (orderBy rank (joined sha256 db decoded.witnessProgramHex)).take limit
    pure ⟨decoded.address, rows.map (itemOf decoded.address)⟩

/-! ### What is on the chain -/

/-- The output at an outpoint, in a chain, has a script. -/
def OnChain (chain : List BitcoinBlock) (outpoint : Outpoint) (script : Bytes) : Prop :=
  ∃ tx ∈ transactionsOf chain, tx.txid = outpoint.txid ∧ outputScript tx outpoint.vout.toNat = some script

instance (chain : List BitcoinBlock) (outpoint : Outpoint) (script : Bytes) :
    Decidable (OnChain chain outpoint script) :=
  inferInstanceAs (Decidable (∃ tx ∈ transactionsOf chain,
    tx.txid = outpoint.txid ∧ outputScript tx outpoint.vout.toNat = some script))

/-- A txid is the hash of a transaction, so it determines the outputs. -/
def OutputsDetermined (chain : List BitcoinBlock) : Prop :=
  ∀ tx ∈ transactionsOf chain, ∀ other ∈ transactionsOf chain, tx.txid = other.txid → tx.outputs = other.outputs

/-- The carriers whose output has a witness program. -/
def carriersWith (chain : List BitcoinBlock) (db : Db) (program : Hash) : List CarrierRow :=
  db.carriers.filter fun c => OnChain chain c.outpoint (programScript program)

/-- The rows are those of the carriers whose output has the program, each once, the newest first. -/
structure Exactly (chain : List BitcoinBlock) (db : Db) (address : String) (program : Hash) (items : List AddressItem) :
    Prop where
  /-- These carriers and no others. -/
  outpoints : (items.map AddressItem.outpoint).Perm ((carriersWith chain db program).map CarrierRow.outpoint)
  /-- Each once. -/
  once : (items.map AddressItem.outpoint).Nodup
  /-- What an item says is in the rows of the carrier and of its object. -/
  rows : ∀ item ∈ items, ∃ c ∈ db.carriers, ∃ o ∈ db.objects, o.objectKey = c.objectKey ∧ item = itemOf address (c, o)
  /-- The newest first. -/
  sorted : items.Pairwise fun a b => b.createdHeight < a.createdHeight ∨
    a.createdHeight = b.createdHeight ∧ a.outpoint.display < b.outpoint.display

section

variable {packages : Packages} {binding : Binding} {chain : List BitcoinBlock} {db : Db}

/-- **The generated column** of a state whose output pays its keys is the witness program of the output. -/
theorem carrierProgram_iff (determined : OutputsDetermined chain) {s : StateRow}
    (paid : PaidTo packages.sha256 (transactionsOf chain) s.outpoint s.key0 s.key1) (program : Hash) :
    carrierProgram packages.sha256 s = some program.text ↔ OnChain chain s.outpoint (programScript program) := by
  obtain ⟨k0, k1, h₀, h₁, tx, htx, htxid, hscript⟩ := paid
  rw [carrierProgram_of_keys packages.sha256 h₀ h₁, Option.some.injEq]
  constructor
  · intro h
    obtain rfl := Hash.text_injective h
    exact ⟨tx, htx, htxid, hscript⟩
  · rintro ⟨other, hother, hid, hsame⟩
    have houtputs := determined tx htx other hother (htxid.trans hid.symm)
    unfold outputScript at hscript hsame
    rw [houtputs] at hscript
    have hscripts : programScript (packages.sha256 (carrierWitnessScript k0 k1)) = programScript program :=
      Option.some.inj (hscript.symm.trans hsame)
    rw [programScript_injective hscripts]

/-- The rows of the tables that the joins rest on. -/
structure Joins (packages : Packages) (chain : List BitcoinBlock) (db : Db) : Prop where
  /-- The carriers repeat the states. -/
  carriers : db.carriers = db.states.map carrierOf
  /-- An outpoint has one state. -/
  states : (db.states.map StateRow.outpoint).Nodup
  /-- An object has one row, -/
  objects : (db.objects.map ObjectRow.objectKey).Nodup
  /-- and every state has one. -/
  owned : ∀ s ∈ db.states, ∃ o ∈ db.objects, o.objectKey = s.objectKey
  /-- The output of a state pays its keys. -/
  paid : ∀ s ∈ db.states, PaidTo packages.sha256 (transactionsOf chain) s.outpoint s.key0 s.key1

theorem joins_of_stored (contract : ScriptContract packages.sha256 packages.validate) {history : History}
    (stored : Stored packages binding history db) (hex : ∀ tx ∈ transactionsOf history.blocks, WitnessHex tx) :
    Joins packages history.blocks db := by
  obtain ⟨index, replay, htab⟩ := stored.recorded.1
  have hpaid : ∀ row ∈ db.states, PaidTo packages.sha256 (transactionsOf history.blocks) row.outpoint row.key0 row.key1 :=
    fun row hrow => stored.paid contract hex hrow
  obtain ⟨j, rfl⟩ : ∃ j, db = withReorgs j index.db := ⟨_, tables_eq_iff.mp htab⟩
  have m := replay.mirrors
  refine ⟨m.carriers, ?_, m.nodup, fun s hs => ?_, hpaid⟩
  · exact List.pairwise_map.mpr (m.apart.imp fun h => h.1)
  · obtain ⟨r, hr⟩ := m.statesOwned s hs
    exact ⟨objectRow r, (m.rows _).mpr ⟨_, r, hr, rfl⟩, m.settled.named _ r hr⟩

/-- A carrier is joined, once, when its output has the program. -/
theorem joinedWith_carrier (determined : OutputsDetermined chain) (joins : Joins packages chain db) (program : Hash)
    {s : StateRow} (hs : s ∈ db.states) :
    (joinedWith packages.sha256 db program.text (carrierOf s)).map Prod.fst =
      [carrierOf s].filter fun c => OnChain chain c.outpoint (programScript program) := by
  obtain ⟨o, ho, hkey⟩ := joins.owned s hs
  have hobject : db.objects.filter (fun o => o.objectKey = (carrierOf s).objectKey) = [o] := by
    have h := filter_eq_singleton joins.objects ho
    rw [hkey] at h
    exact h
  have hstate : db.states.filter (fun other => other.outpoint = (carrierOf s).outpoint) = [s] :=
    filter_eq_singleton joins.states hs
  have hselect : (db.states.filter fun other => other.outpoint = (carrierOf s).outpoint &&
      carrierProgram packages.sha256 other = some program.text) =
      [s].filter fun other => carrierProgram packages.sha256 other = some program.text := by
    rw [← hstate, List.filter_filter]
    exact List.filter_congr fun other _ => Bool.and_comm _ _
  have hiff : carrierProgram packages.sha256 s = some program.text ↔
      OnChain chain (carrierOf s).outpoint (programScript program) :=
    carrierProgram_iff determined (joins.paid s hs) program
  unfold joinedWith
  rw [hselect, hobject]
  by_cases hprogram : carrierProgram packages.sha256 s = some program.text
  · simp [hprogram, hiff.mp hprogram]
  · simp [hprogram, hiff.not.mp hprogram]

/-- **The join** selects the carriers whose output has the program. -/
theorem joined_carriers (determined : OutputsDetermined chain) (joins : Joins packages chain db) (program : Hash) :
    (joined packages.sha256 db program.text).map Prod.fst = carriersWith chain db program := by
  unfold joined carriersWith
  refine flatMap_map_filter fun c hc => ?_
  rw [joins.carriers] at hc
  obtain ⟨s, hs, rfl⟩ := List.mem_map.mp hc
  exact joinedWith_carrier determined joins program hs

/-- A joined row is that of a carrier and of its object. -/
theorem mem_joined {program : String} {row : CarrierRow × ObjectRow} (h : row ∈ joined packages.sha256 db program) :
    row.1 ∈ db.carriers ∧ row.2 ∈ db.objects ∧ row.2.objectKey = row.1.objectKey := by
  obtain ⟨c, hc, h⟩ := List.mem_flatMap.mp h
  obtain ⟨s, -, h⟩ := List.mem_flatMap.mp h
  obtain ⟨o, ho, rfl⟩ := List.mem_map.mp h
  obtain ⟨ho, hkey⟩ := List.mem_filter.mp ho
  exact ⟨hc, ho, by simpa using hkey⟩

/-- Rows of different carriers have different places in the order. -/
theorem joined_ranks (determined : OutputsDetermined chain) (joins : Joins packages chain db) (program : Hash) :
    ((joined packages.sha256 db program.text).map rank).Nodup := by
  have houtpoints : ((joined packages.sha256 db program.text).map fun row => row.1.outpoint).Nodup := by
    have hcarriers : (db.carriers.map CarrierRow.outpoint).Nodup := by
      rw [joins.carriers, List.map_map]
      exact joins.states
    have hsub : ((carriersWith chain db program).map CarrierRow.outpoint).Sublist (db.carriers.map CarrierRow.outpoint) :=
      List.filter_sublist.map _
    have h := hcarriers.sublist hsub
    rw [← joined_carriers determined joins, List.map_map] at h
    exact h
  have hdisplays : ((joined packages.sha256 db program.text).map fun row => row.1.outpoint.display).Nodup := by
    have h := houtpoints.map Text.display_injective
    rw [List.map_map] at h
    exact h
  refine List.Nodup.of_map (fun place : ℕᵒᵈ ×ₗ String => (ofLex place).2) ?_
  rw [List.map_map]
  exact hdisplays

theorem checkedLimit_eq {limit : ℕ} (h : 1 ≤ limit ∧ limit ≤ 200) : checkedLimit (some (limit : ℤ)) = .ok limit := by
  unfold checkedLimit
  dsimp only
  rw [if_neg (by omega), Int.toNat_natCast]
  rfl

/-- **The lookup of an address is exact.** In every store that appends and rollbacks lead to, for every network, every
text that decodes and every limit from 1 to 200 that is not below the number of matches, the answer has exactly the
carriers whose output on the chain has the program of the address; and the column of every state is the program of
its output. -/
theorem address_exact (contract : ScriptContract packages.sha256 packages.validate) {history : History}
    (stored : Stored packages binding history db) (hex : ∀ tx ∈ transactionsOf history.blocks, WitnessHex tx)
    (determined : OutputsDetermined history.blocks) :
    (∀ (casing : Casing) (network : NetworkCode) (value : String) (decoded : CarrierAddress) (limit : ℕ),
      decodeCarrierAddress casing value network = some decoded → 1 ≤ limit ∧ limit ≤ 200 →
        ∃ program : Hash, decoded.witnessProgramHex = program.text ∧
          ((carriersWith history.blocks db program).length ≤ limit →
            ∃ items, address casing packages.sha256 network db value (some (limit : ℤ)) = .ok ⟨decoded.address, items⟩ ∧
              Exactly history.blocks db decoded.address program items)) ∧
      ∀ s ∈ db.states, ∃ program : Hash, carrierProgram packages.sha256 s = some program.text ∧
        OnChain history.blocks s.outpoint (programScript program) := by
  have joins := joins_of_stored contract stored hex
  constructor
  · intro casing network value decoded limit hdecode hlimit
    obtain ⟨program, hprogram⟩ := decodeCarrierAddress_program hdecode
    refine ⟨program, hprogram, fun enough => ?_⟩
    have hcarriers := joined_carriers determined joins program
    have hperm : (orderBy rank (joined packages.sha256 db program.text)).Perm (joined packages.sha256 db program.text) :=
      orderBy_perm
    have hall : (orderBy rank (joined packages.sha256 db program.text)).take limit =
        orderBy rank (joined packages.sha256 db program.text) := by
      refine List.take_of_length_le ?_
      rw [hperm.length_eq, ← List.length_map (f := Prod.fst), hcarriers]
      exact enough
    refine ⟨(orderBy rank (joined packages.sha256 db program.text)).map (itemOf decoded.address), ?_, ?_⟩
    · unfold address
      rw [hdecode]
      refine bind_eq_ok.mpr ⟨limit, checkedLimit_eq hlimit, ?_⟩
      rw [hprogram, hall]
      rfl
    · have houtpoints : (((orderBy rank (joined packages.sha256 db program.text)).map (itemOf decoded.address)).map
          AddressItem.outpoint).Perm ((carriersWith history.blocks db program).map CarrierRow.outpoint) := by
        rw [← hcarriers, List.map_map, List.map_map]
        exact hperm.map _
      have hnodup : ((carriersWith history.blocks db program).map CarrierRow.outpoint).Nodup := by
        have hstates : (db.carriers.map CarrierRow.outpoint).Nodup := by
          rw [joins.carriers, List.map_map]
          exact joins.states
        exact hstates.sublist (List.filter_sublist.map _)
      refine ⟨houtpoints, houtpoints.nodup_iff.mpr hnodup, fun item hitem => ?_, ?_⟩
      · obtain ⟨row, hrow, rfl⟩ := List.mem_map.mp hitem
        obtain ⟨hc, ho, hkey⟩ := mem_joined (hperm.mem_iff.mp hrow)
        exact ⟨row.1, hc, row.2, ho, hkey, rfl⟩
      · refine List.pairwise_map.mpr ((orderBy_sorted (joined_ranks determined joins program)).imp fun {a b} h => ?_)
        rw [rank, rank, Prod.Lex.toLex_lt_toLex] at h
        exact h.imp (fun h => h) fun h => ⟨OrderDual.toDual_inj.mp h.1, h.2⟩
  · intro s hs
    obtain ⟨k0, k1, h₀, h₁, tx, htx, htxid, hscript⟩ := joins.paid s hs
    exact ⟨_, carrierProgram_of_keys packages.sha256 h₀ h₁, tx, htx, htxid, hscript⟩

end

/-! ### A store with one carrier -/

/-- Output 1 has the carrier script of the keys that two inputs reveal. -/
def paysRevealed (evidence : TransactionEvidence) (first second : ℕ) : Bool :=
  match revealedAt evidence first, revealedAt evidence second with
  | some key0, some key1 => scriptAt evidence 1 = some (carrierScriptPubKey openPackages.sha256 key0 key1)
  | _, _ => false

/-- The INIT is valid, and a transaction that spends no carrier and pays the keys of inputs 0 and 1 is a CREATE. -/
def payValidate : Validator := fun evidence context =>
  if evidence.txid = context.init.txid then pure ⟨true, none, [⟨.INIT, .VALID_OPERATION, .VALID, none⟩]⟩
  else if context.activeCarriers = [] && paysRevealed evidence 0 1 then
    pure ⟨true, none, [⟨.CREATE, .VALID_OPERATION, .VALID, none⟩]⟩
  else pure ⟨false, none, []⟩

/-- Packages that judge by it. -/
def payPackages : Packages := { openPackages with validate := payValidate }

theorem payValidate_scripts : ScriptContract payPackages.sha256 payPackages.validate := by
  have hcases : ∀ {evidence context result}, payPackages.validate evidence context = .ok result →
      result.events = [⟨.INIT, .VALID_OPERATION, .VALID, none⟩] ∨
        result.events = [⟨.CREATE, .VALID_OPERATION, .VALID, none⟩] ∧ paysRevealed evidence 0 1 = true ∨
          result.events = [] := by
    intro evidence context result h
    change payValidate evidence context = .ok result at h
    unfold payValidate at h
    split_ifs at h with hinit hcreate
    · obtain rfl := pure_eq_ok.mp h
      exact .inl rfl
    · obtain rfl := pure_eq_ok.mp h
      rw [Bool.and_eq_true] at hcreate
      exact .inr (.inl ⟨rfl, hcreate.2⟩)
    · obtain rfl := pure_eq_ok.mp h
      exact .inr (.inr rfl)
  have hother : ∀ {evidence context result event}, payPackages.validate evidence context = .ok result →
      event ∈ result.events → event.operation = .INIT ∨ event.operation = .CREATE ∧ paysRevealed evidence 0 1 = true := by
    intro evidence context result event h hevent
    rcases hcases h with he | ⟨he, hpays⟩ | he
    · rw [he, List.mem_singleton] at hevent
      exact .inl (hevent ▸ rfl)
    · rw [he, List.mem_singleton] at hevent
      exact .inr ⟨hevent ▸ rfl, hpays⟩
    · rw [he] at hevent
      cases hevent
  constructor
  case single =>
    intro evidence context result event h hevent _
    rcases hcases h with he | ⟨he, -⟩ | he
    · rw [he, List.mem_singleton] at hevent
      rw [he, hevent]
    · rw [he, List.mem_singleton] at hevent
      rw [he, hevent]
    · rw [he] at hevent
      cases hevent
  case create =>
    intro evidence context result event h hevent _ hop
    rcases hother h hevent with hinit | ⟨-, hpays⟩
    · rw [hinit] at hop
      cases hop
    · unfold paysRevealed at hpays
      split at hpays
      · rename_i key0 key1 h₀ h₁
        exact ⟨key0, key1, h₀, h₁, of_decide_eq_true hpays⟩
      · cases hpays
  case mark =>
    intro evidence context result event h hevent _ hop
    rcases hother h hevent with hinit | ⟨hinit, -⟩ <;> rw [hinit] at hop <;> cases hop
  case rotate =>
    intro evidence context result event h hevent _ hop
    rcases hother h hevent with hinit | ⟨hinit, -⟩ <;> rw [hinit] at hop <;> cases hop
  case close =>
    intro evidence context result event h hevent _ hop
    rcases hother h hevent with hinit | ⟨hinit, -⟩ <;> rw [hinit] at hop <;> cases hop

/-- An input that reveals a key. -/
def payInput (vout : UInt32) (key : String) : BitcoinInput :=
  ⟨some (sampleHash 9), some vout, none, "", 0, ["", key],
    some ⟨CARRIER_VALUE, "0014" ++ toHex (List.replicate 20 0), true, some 1⟩⟩

/-- The witness program of the keys. -/
def payProgram : Hash := openPackages.sha256 (carrierWitnessScript (bytes (sampleKey 1)) (bytes (sampleKey 2)))

/-- A transaction that creates an object and pays its keys. -/
def payTransaction : BitcoinTransaction where
  txid := sampleHash 11
  wtxid := sampleHash 11
  version := 2
  locktime := 0
  inputs := [payInput 0 (sampleKey 1), payInput 1 (sampleKey 2)]
  outputs := [⟨0, 0, createScript⟩, ⟨1, CARRIER_VALUE, toHex (programScript payProgram)⟩]

/-- A block with the INIT and this transaction. -/
def payBlock : BitcoinBlock := { windowBlock with transactions := windowBlock.transactions ++ [payTransaction] }

theorem payBlock_hex : ∀ tx ∈ transactionsOf [payBlock], WitnessHex tx := by
  have hblock : transactionsOf [payBlock] = [sampleCoinbase (sampleHash 3),
      { spendTransaction (sampleHash 1) ⟨sampleHash 8, 0⟩ with outputs := [⟨0, 0, initScript⟩] }, payTransaction] := rfl
  rw [hblock]
  simp only [List.forall_mem_cons, List.not_mem_nil, false_imp_iff, implies_true, and_true]
  refine ⟨?_, ?_, ?_⟩
  · intro input hinput item hitem
    obtain rfl := List.mem_singleton.mp hinput
    cases hitem
  · intro input hinput item hitem
    obtain rfl := List.mem_singleton.mp hinput
    cases hitem
  · have hkey : ∀ (vout : UInt32) (last : UInt8), ∀ item ∈ (payInput vout (sampleKey last)).witness,
        ∃ data, item = toHex data := by
      intro vout last item hitem
      rcases List.mem_cons.mp hitem with rfl | hitem
      · exact ⟨[], rfl⟩
      · exact ⟨_, List.mem_singleton.mp hitem⟩
    intro input hinput
    rcases List.mem_cons.mp hinput with rfl | hinput
    · exact hkey 0 1
    · rw [List.mem_singleton.mp hinput]
      exact hkey 1 2

theorem payBlock_determined : OutputsDetermined [payBlock] := by
  unfold OutputsDetermined
  decide +kernel

theorem payTransaction_onChain : OnChain [payBlock] (successorOf (sampleHash 11)) (programScript payProgram) := by
  refine ⟨payTransaction, ?_, rfl, ?_⟩
  · show payTransaction ∈ transactionsOf [payBlock]
    simp [transactionsOf, payBlock]
  · show some (bytes (toHex (programScript payProgram))) = some (programScript payProgram)
    rw [bytes_toHex]

/-- The store with the block, which has one carrier with the program. -/
theorem payBlock_stored : ∃ history db, Stored payPackages sampleBinding history db ∧
    history.blocks = [payBlock] ∧ (carriersWith history.blocks db payProgram).length = 1 := by
  have hrun : (((Cursor.initial payPackages sampleBinding).reduce payPackages sampleBinding payBlock >>=
      fun reduced => writeBlock reduced Db.empty).toOption.any fun db =>
        decide (db.carriers.map CarrierRow.outpoint = [successorOf (sampleHash 11)])) = true := by
    decide +kernel
  obtain ⟨db, hdb, hfacts⟩ := (Option.any_eq_true ..).mp hrun
  obtain ⟨reduced, hreduced, hwrites⟩ := bind_eq_ok.mp (ok_of_toOption hdb)
  obtain ⟨history, stored, hchain⟩ := Stored.single hreduced hwrites
  obtain ⟨c, hc, houtpoint⟩ := List.map_eq_singleton_iff.mp (of_decide_eq_true hfacts)
  refine ⟨history, db, stored, hchain, ?_⟩
  have hselected : OnChain history.blocks c.outpoint (programScript payProgram) := by
    rw [hchain, houtpoint]
    exact payTransaction_onChain
  unfold carriersWith
  rw [hc, List.filter_cons_of_pos (by simpa using hselected)]
  rfl

/-- The carrier is found by its address. -/
theorem address_exact_sample : ∃ history db value items, Stored payPackages sampleBinding history db ∧
    address plainCasing payPackages.sha256 .mainnet db value (some 5) = .ok ⟨value, items⟩ ∧
      Exactly history.blocks db value payProgram items ∧ items.length = 1 := by
  obtain ⟨history, db, stored, hchain, hone⟩ := payBlock_stored
  obtain ⟨value, -, hdecode, -⟩ := encodeCarrierAddress_decode plainCasing_lawful .mainnet payProgram.isHex_text
  obtain ⟨program, hprogram, hfound⟩ := (address_exact payValidate_scripts stored (hchain ▸ payBlock_hex)
    (hchain ▸ payBlock_determined)).1 plainCasing .mainnet value _ 5 hdecode (by decide)
  obtain rfl := Hash.text_injective hprogram
  obtain ⟨items, haddress, hitems⟩ := hfound (by rw [hone]; decide)
  refine ⟨history, db, value, items, stored, haddress, hitems, ?_⟩
  have hlength := hitems.outpoints.length_eq
  rwa [List.length_map, List.length_map, hone] at hlength

/-- **A limit above 200** is refused, although it is not below the number of matches. -/
theorem address_refuses : ∃ (history : History) (db : Db) (value : String) (decoded : CarrierAddress) (program : Hash),
    ScriptContract payPackages.sha256 payPackages.validate ∧ Stored payPackages sampleBinding history db ∧
      (∀ tx ∈ transactionsOf history.blocks, WitnessHex tx) ∧ OutputsDetermined history.blocks ∧
      decodeCarrierAddress plainCasing value .mainnet = some decoded ∧ decoded.witnessProgramHex = program.text ∧
      (carriersWith history.blocks db program).length ≤ 201 ∧
      ¬∃ items, address plainCasing payPackages.sha256 .mainnet db value (some 201) = .ok ⟨decoded.address, items⟩ := by
  obtain ⟨history, db, stored, hchain, hone⟩ := payBlock_stored
  obtain ⟨value, -, hdecode, -⟩ := encodeCarrierAddress_decode plainCasing_lawful .mainnet payProgram.isHex_text
  refine ⟨history, db, value, _, payProgram, payValidate_scripts, stored, hchain ▸ payBlock_hex,
    hchain ▸ payBlock_determined, hdecode, rfl, by rw [hone]; decide, ?_⟩
  rintro ⟨items, h⟩
  unfold address at h
  rw [hdecode] at h
  cases h

end IndexTandem.Api.AddressLookup
