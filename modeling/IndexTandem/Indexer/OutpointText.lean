import IndexTandem.Agreement.Envelope
import IndexTandem.Indexer.Naive
import IndexTandem.Indexer.Reachable
import IndexTandem.Library.Fields

/-!
# Outpoints as texts and as bytes

The reducer finds the carriers that a transaction spends by their display outpoints
`txid:vout`, the validator by the 36 bytes of their wire forms. Two encoders lead from a
display outpoint to its bytes: one splits the text, the other starts from the fields of an
input. They agree on every input that has an outpoint, different outpoints have different
bytes, and the null outpoint of a coinbase input is no carrier's. So both joins find the
same objects, in the order of the inputs (`Join`), in every state a block passes through.
-/

namespace IndexTandem.Indexer.Text

open Library Protocol

/-! ### Source -/

/-- `wire32(displayHex)`. -/
def wire32 (displayHex : String) : Except String Bytes := do
  let bytes := bytes displayHex
  ensure (bytes.length = 32) "expected a 32-byte hash"
  pure bytes.reverse

/-- The display outpoint of an output. -/
def display (txid : String) (vout : ℕ) : String := txid ++ ":" ++ toString vout

/-- `outpointWire(outpoint)`; the index is read as decimal digits. -/
def outpointWire (outpoint : String) : Except String Bytes := do
  let fields := fieldsBetween ':' outpoint.toList
  let txid ← wire32 (String.ofList (fields.getD 0 []))
  let vout := Agreement.decimal (String.ofList (fields.getD 1 []))
  ensure (vout ≤ 0xffff_ffff) "The value of \"value\" is out of range."
  pure (txid ++ littleEndian 4 vout)

/-- `inputDisplayOutpoint(input)`. -/
def inputDisplayOutpoint (input : BitcoinInput) : Option String :=
  match input.txid, input.vout with
  | some txid, some vout => some (display txid.text vout.toNat)
  | _, _ => none

/-- `inputOutpoint(input)`. -/
def inputOutpoint (input : BitcoinInput) : Except String Bytes :=
  match input.txid, input.vout with
  | some txid, some vout => do
    let txid ← wire32 txid.text
    pure (txid ++ word32 vout.toNat)
  | _, _ => pure (List.replicate 32 0 ++ word32 0xffff_ffff)

/-! ### Texts -/

theorem colon_not_mem_hex {n : ℕ} {s : String} (h : IsHex n s) : ':' ∉ s.toList := fun hc =>
  absurd (h.2 ':' hc) (by decide)

theorem colon_not_mem_digits (n : ℕ) : ':' ∉ Nat.toDigits 10 n := fun hc =>
  absurd (Nat.isDigit_of_mem_toDigits (by omega) (by omega) hc) (by decide)

theorem fieldsBetween_display {txid : String} (h : IsHex 32 txid) (vout : ℕ) :
    fieldsBetween ':' (display txid vout).toList = [txid.toList, Nat.toDigits 10 vout] := by
  have htext : (display txid vout).toList = txid.toList ++ ':' :: Nat.toDigits 10 vout := by simp [display]
  rw [htext, fieldsBetween_append (colon_not_mem_hex h), fieldsBetween_of_free (colon_not_mem_digits vout)]

theorem wire32_hex {txid : String} (h : IsHex 32 txid) : wire32 txid = .ok (bytes txid).reverse := by
  simp [wire32, length_bytes h, ensure]

/-- **The bytes of a display outpoint.** -/
theorem outpointWire_display {txid : String} (h : IsHex 32 txid) {vout : ℕ} (hvout : vout ≤ 0xffff_ffff) :
    outpointWire (display txid vout) = .ok ((bytes txid).reverse ++ littleEndian 4 vout) := by
  unfold outpointWire
  rw [fieldsBetween_display h]
  simp only [List.getD_cons_zero, List.getD_cons_succ, String.ofList_toList, wire32_hex h,
    Agreement.decimal_toDigits, ensure, if_pos hvout]
  rfl

/-- **Equal texts and equal bytes are the same.** -/
theorem display_iff {txid txid' : String} (h : IsHex 32 txid) (h' : IsHex 32 txid') {vout vout' : ℕ}
    (hvout : vout ≤ 0xffff_ffff) (hvout' : vout' ≤ 0xffff_ffff) :
    display txid vout = display txid' vout' ↔
      outpointWire (display txid vout) = outpointWire (display txid' vout') := by
  refine ⟨congrArg outpointWire, fun hwire => ?_⟩
  rw [outpointWire_display h hvout, outpointWire_display h' hvout'] at hwire
  obtain ⟨htxid, hindex⟩ := List.append_inj (Except.ok.inj hwire) (by simp [length_bytes h, length_bytes h'])
  have hbytes : bytes txid = bytes txid' := List.reverse_injective htxid
  rw [← toHex_bytes h, ← toHex_bytes h', hbytes, littleEndian_inj (by omega) (by omega) hindex]

theorem outpointWire_outpoint (o : Outpoint) : outpointWire o.display = .ok (Protocol.outpointWire o) := by
  have hvout := o.vout.toNat_lt
  refine (outpointWire_display o.txid.isHex_text (by omega)).trans ?_
  rw [Hash.bytes_text]
  rfl

theorem display_injective : Function.Injective Outpoint.display := fun o p h =>
  outpointWire_injective (Except.ok.inj (by rw [← outpointWire_outpoint, ← outpointWire_outpoint, h]))

/-! ### Inputs -/

/-- The display outpoint of an input is the text of the outpoint it spends. -/
theorem inputDisplayOutpoint_eq (input : BitcoinInput) :
    inputDisplayOutpoint input = (Protocol.inputDisplayOutpoint input).map Outpoint.display := by
  unfold inputDisplayOutpoint Protocol.inputDisplayOutpoint
  cases input.txid <;> cases input.vout <;> rfl

theorem word32_natCast {n : ℕ} (h : n < 0x1_0000_0000) : word32 n = littleEndian 4 n := by
  unfold word32
  congr 1
  omega

theorem inputOutpoint_eq (input : BitcoinInput) : inputOutpoint input = .ok (Indexer.inputOutpoint input) := by
  unfold inputOutpoint Indexer.inputOutpoint Protocol.inputDisplayOutpoint
  cases input.txid with
  | none => rfl
  | some txid =>
    cases input.vout with
    | none => rfl
    | some vout =>
      have hvout := vout.toNat_lt
      simp only [wire32_hex txid.isHex_text, word32_natCast hvout, Hash.bytes_text]
      rfl

/-- **Both encoders write the same bytes** for an input that has an outpoint. -/
theorem outpointWire_input {input : BitcoinInput} {outpoint : String} (h : inputDisplayOutpoint input = some outpoint) :
    outpointWire outpoint = inputOutpoint input := by
  rw [inputDisplayOutpoint_eq] at h
  obtain ⟨o, ho, rfl⟩ := Option.map_eq_some_iff.mp h
  rw [outpointWire_outpoint, inputOutpoint_eq, Indexer.inputOutpoint, ho]

/-- The null outpoint is no output of index 1. -/
theorem null_ne_carrier (txid : Bytes) (h : txid.length = 32) :
    List.replicate 32 0 ++ littleEndian 4 0xffff_ffff ≠ txid ++ littleEndian 4 1 := by
  intro he
  obtain ⟨-, hindex⟩ := List.append_inj he (by simp [h])
  exact absurd (littleEndian_inj (by omega) (by omega) hindex) (by omega)

/-- **The bytes of a coinbase input are those of no carrier.** -/
theorem inputOutpoint_coinbase {input : BitcoinInput} (h : inputDisplayOutpoint input = none) {txid : String}
    (hex : IsHex 32 txid) : inputOutpoint input ≠ outpointWire (display txid 1) := by
  rw [inputDisplayOutpoint_eq, Option.map_eq_none_iff] at h
  rw [inputOutpoint_eq, outpointWire_display hex (by omega), Indexer.inputOutpoint, h]
  intro he
  exact null_ne_carrier _ (by simp [length_bytes hex]) (Except.ok.inj he)

/-! ### Joins -/

/-- `state.activeByOutpoint` as the source has it: by display outpoint. -/
def activeByOutpoint (w : WorkingState) : JsMap String Hash where
  entries := w.activeByOutpoint.entries.map fun entry => (entry.1.display, entry.2)
  nodup := by
    have hkeys := w.activeByOutpoint.nodup.map display_injective
    rw [List.map_map] at hkeys ⊢
    exact hkeys

/-- The keys `classifyTransaction` selects: the display outpoints of the inputs are looked up. -/
def selected (w : WorkingState) (transaction : BitcoinTransaction) : List Hash :=
  (transaction.inputs.filterMap inputDisplayOutpoint).filterMap (activeByOutpoint w).get?

theorem get?_activeByOutpoint (w : WorkingState) (o : Outpoint) :
    (activeByOutpoint w).get? o.display = w.activeByOutpoint.get? o := by
  show (w.activeByOutpoint.entries.map fun entry => (entry.1.display, entry.2)).lookup o.display =
    w.activeByOutpoint.entries.lookup o
  induction w.activeByOutpoint.entries with
  | nil => rfl
  | cons entry entries ih =>
    obtain ⟨p, key⟩ := entry
    rw [List.map_cons, JsMap.lookup_cons, JsMap.lookup_cons, ih]
    simp only [display_injective.eq_iff]

/-- **The texts select the objects whose carriers are spent.** -/
theorem selected_eq (w : WorkingState) (transaction : BitcoinTransaction) :
    selected w transaction = consumedKeys w transaction := by
  unfold selected consumedKeys BitcoinTransaction.spends
  rw [List.filterMap_filterMap, List.filterMap_filterMap]
  refine List.filterMap_congr fun input _ => ?_
  rw [inputDisplayOutpoint_eq]
  cases Protocol.inputDisplayOutpoint input with
  | none => rfl
  | some o => exact get?_activeByOutpoint w o

/-- A live state whose carriers are outputs of index 1. -/
structure Carried (w : WorkingState) : Prop where
  /-- It is live. -/
  live : Live w
  /-- A carrier is the output of index 1. -/
  output : ∀ k r o, w.objects.get? k = some r → r.status = .active → r.currentOutpoint = some o → o.vout = 1

/-- The join by texts and the join by bytes find the same carriers. -/
structure Join (w : WorkingState) (transaction : BitcoinTransaction) (evidence : TransactionEvidence)
    (carriers : List ActiveCarrierEvidence) : Prop where
  /-- The evidence about carriers is about the objects selected by texts, in the same order. -/
  given : carriers.map ActiveCarrierEvidence.objectKey = selected w transaction
  /-- The validator finds each of them among the inputs. -/
  found : (carriers.filter fun carrier => evidence.inputs.any fun input => input.outpoint = carrier.outpoint) = carriers
  /-- Input by input, the carrier with its bytes is that of the object selected by its text. -/
  inOrder : (evidence.inputs.filterMap fun input =>
    (carriers.find? fun carrier => carrier.outpoint = input.outpoint).map ActiveCarrierEvidence.objectKey) =
      selected w transaction
  /-- A carrier of the state is selected by its text exactly when its bytes are among the inputs. -/
  complete : ∀ key r o, w.objects.get? key = some r → r.status = .active → r.currentOutpoint = some o →
    (key ∈ selected w transaction ↔ ∃ input ∈ evidence.inputs, input.outpoint = Protocol.outpointWire o)

section

variable {packages : Packages} {binding : Binding} {w : WorkingState} {transaction : BitcoinTransaction}
  {evidence : TransactionEvidence} {carriers : List ActiveCarrierEvidence}

/-- The carrier with an input's bytes is that of the object selected by its text. -/
theorem find_carrier (carried : Carried w)
    (hkeys : carriers.map ActiveCarrierEvidence.objectKey = consumedKeys w transaction)
    (hpres : ∀ carrier ∈ carriers, ∃ record, Presents w transaction carrier record) {input : BitcoinInput}
    (hinput : input ∈ transaction.inputs) :
    (carriers.find? fun carrier => carrier.outpoint = Indexer.inputOutpoint input).map ActiveCarrierEvidence.objectKey =
      (Protocol.inputDisplayOutpoint input).bind w.activeByOutpoint.get? := by
  -- A carrier with the bytes of an input belongs to the object that the index names.
  have hnamed : ∀ carrier ∈ carriers, carrier.outpoint = Indexer.inputOutpoint input →
      (Protocol.inputDisplayOutpoint input).bind w.activeByOutpoint.get? = some carrier.objectKey := by
    intro carrier hc hbytes
    obtain ⟨record, hrecord⟩ := hpres carrier hc
    obtain ⟨o, -, ho, hwire⟩ := hrecord.spent
    rw [hwire, Indexer.inputOutpoint] at hbytes
    cases hdisplay : Protocol.inputDisplayOutpoint input with
    | none =>
      rw [hdisplay] at hbytes
      have hvout : o.vout = 1 := carried.output _ _ o hrecord.found hrecord.active ho
      rw [Protocol.outpointWire, hvout] at hbytes
      exact absurd hbytes.symm (null_ne_carrier _ (length_wire32 o.txid))
    | some p =>
      rw [hdisplay] at hbytes
      obtain rfl := outpointWire_injective hbytes
      exact (carried.live.index o _).mpr ⟨record, hrecord.found, hrecord.active, ho⟩
  cases hfind : carriers.find? fun carrier => carrier.outpoint = Indexer.inputOutpoint input with
  | some carrier =>
    have hbytes : carrier.outpoint = Indexer.inputOutpoint input := by simpa using List.find?_some hfind
    exact (hnamed carrier (List.mem_of_find?_eq_some hfind) hbytes).symm
  | none =>
    cases hdisplay : Protocol.inputDisplayOutpoint input with
    | none => rfl
    | some o =>
      cases hindex : w.activeByOutpoint.get? o with
      | none => exact hindex.symm
      | some key =>
        -- Its evidence would be among the carriers, with the bytes of the input.
        have hmem : key ∈ consumedKeys w transaction :=
          List.mem_filterMap.mpr ⟨o, List.mem_filterMap.mpr ⟨input, hinput, hdisplay⟩, hindex⟩
        rw [← hkeys] at hmem
        obtain ⟨carrier, hc, hkey⟩ := List.mem_map.mp hmem
        obtain ⟨record, hrecord⟩ := hpres carrier hc
        obtain ⟨p, -, hp, hwire⟩ := hrecord.spent
        obtain ⟨r, hr, -, ho⟩ := (carried.live.index o key).mp hindex
        obtain rfl : record = r := Option.some.inj (hrecord.found.symm.trans (hkey ▸ hr))
        obtain rfl : p = o := Option.some.inj (hp.symm.trans ho)
        refine absurd ?_ (List.find?_eq_none.mp hfind carrier hc)
        rw [hwire, Indexer.inputOutpoint, hdisplay]
        simp

/-- **Both joins find the same carriers** of a transaction, in the order of its inputs. -/
theorem Carried.join (carried : Carried w) {height : ℕ}
    (hev : buildTransactionEvidence packages.sha256 packages.verify transaction height = .ok evidence) :
    ∃ consumed carriers, consumedRecords w transaction = .ok consumed ∧ consumed.mapM carrierEvidence = .ok carriers ∧
      Join w transaction evidence carriers := by
  have hconsumed := consumedRecords_eq carried.live transaction
  have htotal : ∀ r ∈ transaction.spends.filterMap (recordAt w.objects), ∃ carrier, carrierEvidence r = .ok carrier := by
    intro r hr
    obtain ⟨o, -, hat⟩ := List.mem_filterMap.mp hr
    have hactive := List.find?_some hat
    simp only [decide_eq_true_eq] at hactive
    unfold carrierEvidence
    rw [hactive.2]
    exact ⟨_, rfl⟩
  obtain ⟨carriers, hcarriers⟩ := mapM_total htotal
  obtain ⟨hkeys, hpres⟩ := carriers_present carried.live hconsumed hcarriers
  have hinputs := (buildTransactionEvidence_ok _ _ hev).2.1
  refine ⟨_, carriers, hconsumed, hcarriers, hkeys.trans (selected_eq w transaction).symm, ?_, ?_, ?_⟩
  · rw [List.filter_eq_self]
    intro carrier hc
    obtain ⟨record, hrecord⟩ := hpres carrier hc
    obtain ⟨o, ho, -, hwire⟩ := hrecord.spent
    obtain ⟨input, hi, hio⟩ := mem_inputs_of_spends _ _ hev ho
    simpa using ⟨input, hi, hio.trans hwire.symm⟩
  · rw [selected_eq, consumedKeys, BitcoinTransaction.spends, List.filterMap_filterMap]
    calc _ = (evidence.inputs.map TransactionInputEvidence.outpoint).filterMap (fun bytes =>
          (carriers.find? fun carrier => carrier.outpoint = bytes).map ActiveCarrierEvidence.objectKey) := by
          rw [List.filterMap_map]
          rfl
      _ = transaction.inputs.filterMap fun input => (carriers.find? fun carrier =>
          carrier.outpoint = Indexer.inputOutpoint input).map ActiveCarrierEvidence.objectKey := by
          rw [hinputs, List.filterMap_map]
          rfl
      _ = _ := List.filterMap_congr fun input hinput => find_carrier carried hkeys hpres hinput
  · intro key r o hr ha ho
    have hindex := (carried.live.index o key).mpr ⟨r, hr, ha, ho⟩
    rw [selected_eq]
    constructor
    · intro hkey
      obtain ⟨p, hp, r', hr', -, ho'⟩ := carried.live.active hkey
      obtain rfl := Option.some.inj (hr.symm.trans hr')
      obtain rfl := Option.some.inj (ho.symm.trans ho')
      exact mem_inputs_of_spends _ _ hev hp
    · rintro ⟨input, hi, hwire⟩
      have hmem : Protocol.outpointWire o ∈ transaction.inputs.map Indexer.inputOutpoint := by
        rw [← hinputs, ← hwire]
        exact List.mem_map_of_mem hi
      obtain ⟨source, hsource, hbytes⟩ := List.mem_map.mp hmem
      rw [Indexer.inputOutpoint] at hbytes
      cases hdisplay : Protocol.inputDisplayOutpoint source with
      | none =>
        rw [hdisplay] at hbytes
        rw [Protocol.outpointWire, carried.output key r o hr ha ho] at hbytes
        exact absurd hbytes (null_ne_carrier _ (length_wire32 o.txid))
      | some p =>
        rw [hdisplay] at hbytes
        obtain rfl := outpointWire_injective hbytes
        exact List.mem_filterMap.mpr ⟨p, List.mem_filterMap.mpr ⟨source, hsource, hdisplay⟩, hindex⟩

end

/-! ### The states of a block -/

/-- The states in which `reduceBlock` classifies transactions of a block, with the transactions. -/
inductive Midway (packages : Packages) (binding : Binding) (cursor : Cursor) (block : BitcoinBlock) :
    WorkingState → OrderedTransaction → Prop
  /-- The INIT of the activation block is classified first. -/
  | confirm {ordered : List OrderedTransaction} {entry : OrderedTransaction}
      (orders : orderedBlockTransactions block = .ok ordered) (mem : entry ∈ ordered)
      (unknown : cursor.activation = none) : Midway packages binding cursor block (.start cursor.objects) entry
  /-- The loop has gone through the transactions before. -/
  | turn {ordered before after : List OrderedTransaction} {entry : OrderedTransaction} {activated : Activated}
      {heights : InitHeights} {w : WorkingState} {events : List EventRecord}
      (orders : orderedBlockTransactions block = .ok ordered)
      (activates : activateBlock packages binding cursor.activation block ordered (.start cursor.objects) = .ok activated)
      (active : activated.activation.heights? = some heights) (split : ordered = before ++ entry :: after)
      (passes : before.foldlM (connectTransaction packages binding heights block.height) activated.progress =
        .ok ⟨w, events⟩) : Midway packages binding cursor block w entry

/-- What is owned by transactions are outputs of index 1. -/
theorem Carried.of_owned {packages : Packages} {binding : Binding} {w : WorkingState} {txids : List Hash} (live : Live w)
    (owned : Owned packages binding txids w.objects) : Carried w where
  live := live
  output k r o hr _ ho := by
    obtain ⟨t, -, rfl⟩ := owned.carriers k r o hr ho
    rfl

/-- **Every state of a block is carried**, after any reached cursor. -/
theorem Midway.carried {packages : Packages} {binding : Binding} (contract : ValidatorContract packages.validate)
    {chain : List BitcoinBlock} {log : List EventRecord} {cursor : Cursor} {block : BitcoinBlock}
    (reached : Reachable packages binding chain log cursor) (d : Distinct packages binding (block :: chain))
    {w : WorkingState} {entry : OrderedTransaction} (h : Midway packages binding cursor block w entry) : Carried w := by
  have rooted := reached.rooted contract d.tail
  have input := rooted.admissible d
  have live := Live.start input.named input.distinct
  cases h with
  | confirm => exact .of_owned live rooted.owned
  | @turn ordered before after _ activated heights _ events orders activates active split passes =>
    obtain ⟨hstart, hmarked⟩ := activateBlock_ready contract input orders activates active
    have hunused : Unused packages binding (.start cursor.objects) (before.map fun e => e.transaction.txid) := by
      have hall := input.unused
      rw [← (orderFrom_ok orders).1, List.map_map, split, List.map_append] at hall
      exact hall.of_append
    rw [hstart] at passes
    obtain ⟨tolds, heffects, -, hlive⟩ := connect_effects contract live hunused
      (fun e he => hmarked e (split ▸ List.mem_append_left _ he)) passes
    refine .of_owned hlive (heffects.owned live ?_ rooted.owned)
    rwa [List.map_map]

/-- **The two encodings of outpoints join identically**: texts are equal exactly when their bytes are, an input's text
and the input have the same bytes, a coinbase input has the bytes of no carrier; so in every live state whose carriers are
outputs of index 1, as in all in which a block's transactions are classified, the texts and the bytes find the same
carriers, in the order of the inputs. -/
theorem outpoint_encodings_join :
    (∀ txid txid' vout vout', IsHex 32 txid → IsHex 32 txid' → vout ≤ 0xffff_ffff → vout' ≤ 0xffff_ffff →
      (∃ wire, outpointWire (display txid vout) = .ok wire ∧ wire.length = 36) ∧
      (display txid vout = display txid' vout' ↔
        outpointWire (display txid vout) = outpointWire (display txid' vout'))) ∧
    (∀ input outpoint, inputDisplayOutpoint input = some outpoint → outpointWire outpoint = inputOutpoint input) ∧
    (∀ input txid, inputDisplayOutpoint input = none → IsHex 32 txid →
      inputOutpoint input ≠ outpointWire (display txid 1)) ∧
    (∀ w, Carried w → ∀ (packages : Packages) transaction height evidence,
      buildTransactionEvidence packages.sha256 packages.verify transaction height = .ok evidence →
        ∃ consumed carriers, consumedRecords w transaction = .ok consumed ∧
          consumed.mapM carrierEvidence = .ok carriers ∧ Join w transaction evidence carriers) ∧
    ∀ packages binding, ValidatorContract packages.validate → ∀ chain log cursor block,
      Reachable packages binding chain log cursor → Distinct packages binding (block :: chain) →
      ∀ w entry, Midway packages binding cursor block w entry → ∀ evidence,
        buildTransactionEvidence packages.sha256 packages.verify entry.transaction block.height = .ok evidence →
        ∃ consumed carriers, consumedRecords w entry.transaction = .ok consumed ∧
          consumed.mapM carrierEvidence = .ok carriers ∧ Join w entry.transaction evidence carriers := by
  refine ⟨fun txid txid' vout vout' h h' hvout hvout' => ⟨⟨_, outpointWire_display h hvout, ?_⟩,
    display_iff h h' hvout hvout'⟩, fun _ _ => outpointWire_input, fun _ _ hnone hex => inputOutpoint_coinbase hnone hex,
    fun _ carried _ _ _ _ hev => carried.join hev, ?_⟩
  · simp [length_bytes h]
  · intro packages binding contract chain log cursor block reached d w entry midway evidence hev
    exact (midway.carried contract reached d).join hev

/-- The state after the first `n` transactions of a block, and the next transaction. -/
def stateAfter (packages : Packages) (binding : Binding) (cursor : Cursor) (block : BitcoinBlock) (n : ℕ) :
    Option (WorkingState × OrderedTransaction) := do
  let ordered ← (orderedBlockTransactions block).toOption
  let activated ← (activateBlock packages binding cursor.activation block ordered (.start cursor.objects)).toOption
  let heights ← activated.activation.heights?
  let progress ← ((ordered.take n).foldlM (connectTransaction packages binding heights block.height)
    activated.progress).toOption
  let entry ← (ordered.drop n).head?
  pure (progress.state, entry)

theorem stateAfter_midway {packages : Packages} {binding : Binding} {cursor : Cursor} {block : BitcoinBlock} {n : ℕ}
    {w : WorkingState} {entry : OrderedTransaction} (h : stateAfter packages binding cursor block n = some (w, entry)) :
    Midway packages binding cursor block w entry := by
  obtain ⟨ordered, ho, h⟩ := Option.bind_eq_some_iff.mp h
  obtain ⟨activated, ha, h⟩ := Option.bind_eq_some_iff.mp h
  obtain ⟨heights, hh, h⟩ := Option.bind_eq_some_iff.mp h
  obtain ⟨progress, hp, h⟩ := Option.bind_eq_some_iff.mp h
  obtain ⟨found, hn, h⟩ := Option.bind_eq_some_iff.mp h
  obtain ⟨rfl, rfl⟩ := Prod.mk.inj (Option.some.inj h)
  have hsplit : ordered = ordered.take n ++ found :: (ordered.drop n).tail := by
    rw [List.cons_head?_tail hn, List.take_append_drop]
  exact .turn (ok_of_toOption ho) (ok_of_toOption ha) hh hsplit (ok_of_toOption hp)

theorem lifeMark_selects : ((stateAfter lifePackages sampleBinding (.initial lifePackages sampleBinding) lifeBlock 3).map
    fun mark => (selected mark.1 mark.2.transaction).length) = some 1 := by decide +kernel

theorem outpoint_encodings_join_sample : ∃ (w : WorkingState) (entry : OrderedTransaction)
    (consumed : List ObjectRecord) (carriers : List ActiveCarrierEvidence) (evidence : TransactionEvidence),
    (selected w entry.transaction).length = 1 ∧ consumedRecords w entry.transaction = .ok consumed ∧
      consumed.mapM carrierEvidence = .ok carriers ∧ Join w entry.transaction evidence carriers := by
  obtain ⟨⟨w, entry⟩, hmark, hone⟩ := Option.map_eq_some_iff.mp lifeMark_selects
  have hfits : ((stateAfter lifePackages sampleBinding (.initial lifePackages sampleBinding) lifeBlock 3).all
      fun mark => mark.2.transaction.outputs.all fun output => decide (output.valueSats < 0x1_0000_0000_0000_0000 ∧
        (bytes output.scriptPubKeyHex).length < 0x1_0000_0000)) = true := by decide +kernel
  rw [hmark, Option.all_some, List.all_eq_true] at hfits
  obtain ⟨evidence, hev⟩ := buildTransactionEvidence_total lifePackages.sha256 lifePackages.verify lifeBlock.height
    fun output ho => of_decide_eq_true (hfits output ho)
  obtain ⟨consumed, carriers, hconsumed, hcarriers, join⟩ := outpoint_encodings_join.2.2.2.2 lifePackages sampleBinding
    (validateTandemTransaction_contract lifeChecks_sound) [] [] _ lifeBlock .start life_distinct w entry
    (stateAfter_midway hmark) evidence hev
  exact ⟨w, entry, consumed, carriers, evidence, hone, hconsumed, hcarriers, join⟩

end IndexTandem.Indexer.Text
