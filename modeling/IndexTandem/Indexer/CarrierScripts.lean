import IndexTandem.Database.CarrierProgram
import IndexTandem.Indexer.Carriers
import IndexTandem.Indexer.History

/-!
# The keys of a state and the script of its carrier

A state keeps the keys of its carrier: a CREATE and a ROTATE copy them from the witnesses of
their inputs, a MARK keeps those of the state before. The validator promises of each of them
what script the new carrier has (`ScriptContract`). So the output that a state names has the
carrier script of the state's keys, after every transaction (`Scripted.classifyTransaction`), after every
block (`Replay.paid`), and in every store whose blocks were appended and rolled back in any order (`Stored.paid`).
-/

namespace IndexTandem.Indexer

open Library Protocol Database

variable {packages : Packages} {binding : Binding}

/-! ### What the validator promises about scripts -/

/-- The script of an output. -/
def scriptAt (evidence : TransactionEvidence) (index : ℕ) : Option Bytes :=
  evidence.outputs[index]?.map TransactionOutputEvidence.scriptPubKey

/-- The key that an input reveals. -/
def revealedAt (evidence : TransactionEvidence) (index : ℕ) : Option Bytes :=
  evidence.inputs[index]?.bind TransactionInputEvidence.revealedPublicKey

/-- Output 1 has the carrier script of the keys that two inputs reveal. -/
def PaysRevealed (sha256 : Bytes → Hash) (evidence : TransactionEvidence) (first second : ℕ) : Prop :=
  ∃ key0 key1, revealedAt evidence first = some key0 ∧ revealedAt evidence second = some key1 ∧
    scriptAt evidence 1 = some (carrierScriptPubKey sha256 key0 key1)

/-- **What the protocol documents** about a valid operation: it is the only event, it is the one the marker names, and
the new carrier has the script of the revealed keys, or that of the carrier consumed. -/
structure ScriptContract (sha256 : Bytes → Hash) (validate : Validator) : Prop where
  /-- A valid operation is the only event. -/
  single : ∀ {evidence context result event}, validate evidence context = .ok result → event ∈ result.events →
    event.validityClass = .VALID_OPERATION → result.events = [event]
  /-- A CREATE pays the keys of inputs 0 and 1. -/
  create : ∀ {evidence context result event}, validate evidence context = .ok result → event ∈ result.events →
    event.validityClass = .VALID_OPERATION → event.operation = .CREATE → PaysRevealed sha256 evidence 0 1
  /-- A MARK pays the carrier it consumes. -/
  mark : ∀ {evidence context result event}, validate evidence context = .ok result → event ∈ result.events →
    event.validityClass = .VALID_OPERATION → event.operation = .MARK →
      (∃ network ns sequence kind commitment, result.marker = some (.mark network ns sequence kind commitment)) ∧
        ∃ carrier ∈ context.activeCarriers, event.objectKey = some carrier.objectKey ∧
          scriptAt evidence 1 = some (carrierScriptPubKey sha256 carrier.key0 carrier.key1)
  /-- A ROTATE pays the keys of inputs 1 and 2. -/
  rotate : ∀ {evidence context result event}, validate evidence context = .ok result → event ∈ result.events →
    event.validityClass = .VALID_OPERATION → event.operation = .ROTATE →
      (∃ network ns sequence, result.marker = some (.rotate network ns sequence)) ∧ PaysRevealed sha256 evidence 1 2
  /-- A CLOSE is one by its marker. -/
  close : ∀ {evidence context result event}, validate evidence context = .ok result → event ∈ result.events →
    event.validityClass = .VALID_OPERATION → event.operation = .CLOSE →
      ∃ network ns sequence reason commitment, result.marker = some (.close network ns sequence reason commitment)

/-! ### Keys and scripts on the chain -/

/-- The node writes the witnesses of a transaction as lowercase hexadecimal bytes. -/
def WitnessHex (transaction : BitcoinTransaction) : Prop :=
  ∀ input ∈ transaction.inputs, ∀ item ∈ input.witness, ∃ data, item = toHex data

/-- The script of an output of a transaction. -/
def outputScript (transaction : BitcoinTransaction) (index : ℕ) : Option Bytes :=
  transaction.outputs[index]?.map fun output => bytes output.scriptPubKeyHex

/-- The outpoint is an output of a transaction of the list, and has the carrier script of the keys. -/
def PaidTo (sha256 : Bytes → Hash) (transactions : List BitcoinTransaction) (outpoint : Outpoint) (key0 key1 : String) :
    Prop :=
  ∃ k0 k1, key0 = toHex k0 ∧ key1 = toHex k1 ∧ ∃ tx ∈ transactions, tx.txid = outpoint.txid ∧
    outputScript tx outpoint.vout.toNat = some (carrierScriptPubKey sha256 k0 k1)

theorem PaidTo.mono {sha256 : Bytes → Hash} {transactions transactions' : List BitcoinTransaction} {outpoint : Outpoint}
    {key0 key1 : String} (h : PaidTo sha256 transactions outpoint key0 key1)
    (hsub : ∀ tx ∈ transactions, tx ∈ transactions') : PaidTo sha256 transactions' outpoint key0 key1 := by
  obtain ⟨k0, k1, h₀, h₁, tx, htx, h⟩ := h
  exact ⟨k0, k1, h₀, h₁, tx, hsub tx htx, h⟩

theorem toLowerCase_toHex (data : Bytes) : toLowerCase (toHex data) = toHex data := by
  unfold toLowerCase
  rw [map_toLower_hexDigits (isHex_toHex data).2, String.ofList_toList]

/-- The key that an input reveals is the second element of its witness. -/
theorem revealedAt_some {transaction : BitcoinTransaction} {height index : ℕ} {evidence : TransactionEvidence} {key : Bytes}
    (hex : WitnessHex transaction)
    (hev : buildTransactionEvidence packages.sha256 packages.verify transaction height = .ok evidence)
    (h : revealedAt evidence index = some key) : revealed transaction index = toHex key := by
  obtain ⟨sighash, -, hev⟩ := bind_eq_ok.mp hev
  obtain rfl := pure_eq_ok.mp hev
  obtain ⟨found, hfound, hkey⟩ := Option.bind_eq_some_iff.mp h
  obtain ⟨entry, hentry, rfl⟩ : ∃ entry, transaction.inputs.zipIdx[index]? = some entry ∧
      inputEvidence packages.sha256 packages.verify sighash entry.2 entry.1 = found := by
    rw [List.getElem?_map] at hfound
    exact Option.map_eq_some_iff.mp hfound
  have hinput : transaction.inputs[index]? = some entry.1 := by
    rw [List.getElem?_zipIdx] at hentry
    obtain ⟨input, hi, rfl⟩ := Option.map_eq_some_iff.mp hentry
    exact hi
  obtain ⟨signature, item, hwitness, hitem⟩ : ∃ signature item, entry.1.witness = [signature, item] ∧ bytes item = key := by
    unfold inputEvidence at hkey
    dsimp only at hkey
    split at hkey
    · rename_i hlist
      obtain ⟨a, l, hw, ha, hl⟩ := List.map_eq_cons_iff.mp hlist
      obtain ⟨b, rfl, hb⟩ := List.map_eq_singleton_iff.mp hl
      exact ⟨a, b, hw, hb.trans (Option.some.inj hkey)⟩
    · cases hkey
    · cases hkey
  obtain ⟨data, hdata⟩ := hex entry.1 (List.mem_of_getElem? hinput) item (by simp [hwitness])
  have hbytes : data = key := by rw [← hitem, hdata, bytes_toHex]
  unfold revealed
  rw [hinput]
  simp only [Option.bind_some, hwitness, List.getElem?_cons_succ, List.getElem?_cons_zero, Option.getD_some]
  rw [hdata, toLowerCase_toHex, hbytes]

/-- The script in the evidence is that of the transaction. -/
theorem scriptAt_eq {transaction : BitcoinTransaction} {height : ℕ} {evidence : TransactionEvidence}
    (hev : buildTransactionEvidence packages.sha256 packages.verify transaction height = .ok evidence) (index : ℕ) :
    scriptAt evidence index = outputScript transaction index := by
  unfold scriptAt outputScript
  rw [(buildTransactionEvidence_ok _ _ hev).2.2, List.getElem?_map, Option.map_map]
  rfl

/-- A transaction that pays the keys its inputs reveal, pays the keys that are copied from it. -/
theorem PaysRevealed.paidTo {transaction : BitcoinTransaction} {height first second : ℕ} {evidence : TransactionEvidence}
    (hex : WitnessHex transaction)
    (hev : buildTransactionEvidence packages.sha256 packages.verify transaction height = .ok evidence)
    (h : PaysRevealed packages.sha256 evidence first second) {transactions : List BitcoinTransaction}
    (hmem : transaction ∈ transactions) :
    PaidTo packages.sha256 transactions (successorOf transaction.txid) (revealed transaction first)
      (revealed transaction second) := by
  obtain ⟨key0, key1, h₀, h₁, hscript⟩ := h
  exact ⟨key0, key1, revealedAt_some hex hev h₀, revealedAt_some hex hev h₁, transaction, hmem, rfl,
    (scriptAt_eq hev 1).symm.trans hscript⟩

/-! ### A transaction -/

/-- The keys of the objects are hexadecimal, and the states created pay their keys. -/
structure Scripted (sha256 : Bytes → Hash) (transactions : List BitcoinTransaction) (w : WorkingState) : Prop where
  /-- Every record is under its key. -/
  named : Named w.objects
  /-- The keys of a record are hexadecimal. -/
  spelled : ∀ k r, w.objects.get? k = some r → ∃ k0 k1, r.key0 = toHex k0 ∧ r.key1 = toHex k1
  /-- The output of a state pays its keys. -/
  paid : ∀ s ∈ w.newStates, PaidTo sha256 transactions s.outpoint s.key0 s.key1

section

variable {heights : InitHeights} {height : ℕ} {transaction : BitcoinTransaction} {transactions : List BitcoinTransaction}
  {w w' : WorkingState}

theorem Scripted.terminate (h : Scripted packages.sha256 transactions w) {key : Hash} {record : ObjectRecord}
    (found : w.objects.get? key = some record) (status : ObjectStatusName) (txid : Hash) (sequence : ℕ) :
    Scripted packages.sha256 transactions (terminate w record status txid sequence) where
  named := named_terminate h.named status txid sequence
  spelled k r hr := by
    simp only [Indexer.terminate, spendCurrent_objects, touch_objects, JsMap.get?_set] at hr
    split_ifs at hr
    · obtain rfl := Option.some.inj hr
      exact h.spelled key record found
    · exact h.spelled k r hr
  paid s hs := h.paid s (by simpa [Indexer.terminate] using hs)

/-- Moving a record to an output that pays the new keys. -/
theorem Scripted.advance (h : Scripted packages.sha256 transactions w) {record : ObjectRecord} {txid : Hash}
    {sequence : ℕ} {key0 key1 : String} (pays : PaidTo packages.sha256 transactions (successorOf txid) key0 key1)
    (chapter : Option ChapterContent) :
    Scripted packages.sha256 transactions (advance w record txid height sequence key0 key1 chapter) where
  named k r hr := by
    simp only [Indexer.advance, spendCurrent_objects, touch_objects, JsMap.get?_set] at hr
    split_ifs at hr with hk
    · obtain rfl := Option.some.inj hr
      exact hk.symm
    · exact h.named k r hr
  spelled k r hr := by
    simp only [Indexer.advance, spendCurrent_objects, touch_objects, JsMap.get?_set] at hr
    split_ifs at hr
    · obtain rfl := Option.some.inj hr
      obtain ⟨k0, k1, h₀, h₁, -⟩ := pays
      exact ⟨k0, k1, h₀, h₁⟩
    · exact h.spelled k r hr
  paid s hs := by
    simp only [Indexer.advance, spendCurrent_newStates, touch_newStates, List.mem_append, List.mem_singleton] at hs
    rcases hs with hs | rfl
    · exact h.paid s hs
    · exact pays

theorem Scripted.create (h : Scripted packages.sha256 transactions w) {record : ObjectRecord} {outpoint : Outpoint}
    (pays : PaidTo packages.sha256 transactions outpoint record.key0 record.key1) :
    Scripted packages.sha256 transactions (create w record outpoint) where
  named k r hr := by
    simp only [Indexer.create, touch_objects, JsMap.get?_set] at hr
    split_ifs at hr with hk
    · obtain rfl := Option.some.inj hr
      exact hk.symm
    · exact h.named k r hr
  spelled k r hr := by
    simp only [Indexer.create, touch_objects, JsMap.get?_set] at hr
    split_ifs at hr
    · obtain rfl := Option.some.inj hr
      obtain ⟨k0, k1, h₀, h₁, -⟩ := pays
      exact ⟨k0, k1, h₀, h₁⟩
    · exact h.spelled k r hr
  paid s hs := by
    simp only [Indexer.create, touch_newStates, List.mem_append, List.mem_singleton] at hs
    rcases hs with hs | rfl
    · exact h.paid s hs
    · exact pays

/-- An event that is no valid operation ends an object, or nothing. -/
theorem Scripted.unapplied (h : Scripted packages.sha256 transactions w) {marker : Option Marker}
    {candidates : List Candidate} {event : TransactionValidationEvent} {base : EventBase} {record : EventRecord}
    (hcls : event.validityClass ≠ .VALID_OPERATION)
    (applied : applyEvent packages binding heights transaction height marker candidates w event base = .ok (w', record)) :
    Scripted packages.sha256 transactions w' := by
  unfold applyEvent at applied
  split at applied
  · rename_i hvalid
    exact absurd hvalid hcls
  · obtain ⟨key, -, applied⟩ := bind_eq_ok.mp applied
    obtain ⟨r, hr, applied⟩ := bind_eq_ok.mp applied
    cases applied
    exact h.terminate (recordOf_eq_ok.mp hr) _ _ _
  · cases applied
    exact h

/-- The evidence about a carrier has the keys of its object. -/
theorem carrierEvidence_keys {consumed : List ObjectRecord} {carriers : List ActiveCarrierEvidence} (named : Named w.objects)
    (hc : consumedRecords w transaction = .ok consumed) (he : consumed.mapM carrierEvidence = .ok carriers) :
    ∀ carrier ∈ carriers, ∃ r, w.objects.get? carrier.objectKey = some r ∧ carrier.key0 = bytes r.key0 ∧
      carrier.key1 = bytes r.key1 := by
  have hrecords := mapM_ok_forall₂ hc
  have hcarriers := mapM_ok_forall₂ he
  intro carrier hcarrier
  obtain ⟨record, hrecord, hevidence⟩ := exists_left_of_forall₂ hcarriers hcarrier
  obtain ⟨key, -, hfound⟩ := exists_left_of_forall₂ hrecords hrecord
  have hget := recordOf_eq_ok.mp hfound
  unfold carrierEvidence at hevidence
  split at hevidence
  · cases hevidence
  · obtain rfl := pure_eq_ok.mp hevidence
    exact ⟨record, by rw [named key record hget]; exact hget, rfl, rfl⟩

/-- **A classified transaction** keeps the keys with their scripts. -/
theorem Scripted.classifyTransaction (contract : ScriptContract packages.sha256 packages.validate)
    (hex : WitnessHex transaction) (hmem : transaction ∈ transactions) (h : Scripted packages.sha256 transactions w)
    {txIndex : ℕ} {progress : Progress}
    (hc : classifyTransaction packages binding heights w transaction txIndex height = .ok progress) :
    Scripted packages.sha256 transactions progress.state := by
  obtain ⟨consumed, evidence, carriers, result, hconsumed, hev, hcarriers, hanswer, hrest⟩ := classifyTransaction_ok hc
  rcases hrest with ⟨-, rfl⟩ | ⟨-, -, candidates, -, happly⟩
  · exact h
  by_cases hvalid : ∃ event ∈ result.events, event.validityClass = .VALID_OPERATION
  · obtain ⟨event, hevent, hcls⟩ := hvalid
    rw [contract.single hanswer hevent hcls] at happly
    obtain ⟨w', record, hdone, rfl⟩ := applyEvents_single happly
    unfold applyEvent at hdone
    rw [hcls] at hdone
    unfold applyValid at hdone
    dsimp only at hdone
    split at hdone
    · cases hdone
      exact h
    · rename_i hop
      cases hdone
      exact h.create ((contract.create hanswer hevent hcls hop).paidTo hex hev hmem)
    · obtain ⟨key, -, hdone⟩ := bind_eq_ok.mp hdone
      obtain ⟨r, hr, hdone⟩ := bind_eq_ok.mp hdone
      cases hdone
      exact h.terminate (recordOf_eq_ok.mp hr) _ _ _
    · -- A MARK keeps the keys of the carrier it consumes.
      rename_i hop
      obtain ⟨⟨network, ns, sequence, kind, commitment, hmarker⟩, carrier, hcarrier, hkey, hscript⟩ :=
        contract.mark hanswer hevent hcls hop
      obtain ⟨key, hnamed, hdone⟩ := bind_eq_ok.mp hdone
      obtain ⟨r, hr, hdone⟩ := bind_eq_ok.mp hdone
      obtain ⟨_, -, hdone⟩ := bind_eq_ok.mp hdone
      rw [hmarker] at hdone
      cases hdone
      obtain rfl := Option.some.inj ((namedKey_eq_ok.mp hnamed).symm.trans hkey)
      obtain ⟨r', hr', h₀, h₁⟩ := carrierEvidence_keys h.named hconsumed hcarriers carrier hcarrier
      obtain rfl := Option.some.inj ((recordOf_eq_ok.mp hr).symm.trans hr')
      obtain ⟨k0, k1, hk₀, hk₁⟩ := h.spelled _ _ hr'
      refine h.advance ⟨k0, k1, hk₀, hk₁, transaction, hmem, rfl, ?_⟩ _
      rw [h₀, h₁, hk₀, hk₁, bytes_toHex, bytes_toHex] at hscript
      exact (scriptAt_eq hev 1).symm.trans hscript
    · rename_i hop
      obtain ⟨⟨network, ns, sequence, hmarker⟩, hpays⟩ := contract.rotate hanswer hevent hcls hop
      obtain ⟨key, -, hdone⟩ := bind_eq_ok.mp hdone
      obtain ⟨r, -, hdone⟩ := bind_eq_ok.mp hdone
      obtain ⟨_, -, hdone⟩ := bind_eq_ok.mp hdone
      rw [hmarker] at hdone
      cases hdone
      exact h.advance (hpays.paidTo hex hev hmem) _
    · rename_i hop
      obtain ⟨network, ns, sequence, reason, commitment, hmarker⟩ := contract.close hanswer hevent hcls hop
      obtain ⟨key, -, hdone⟩ := bind_eq_ok.mp hdone
      obtain ⟨r, hr, hdone⟩ := bind_eq_ok.mp hdone
      obtain ⟨_, -, hdone⟩ := bind_eq_ok.mp hdone
      rw [hmarker] at hdone
      cases hdone
      exact h.terminate (recordOf_eq_ok.mp hr) _ _ _
    · cases hdone
    · cases hdone
  · have hnone : ∀ event ∈ result.events, event.validityClass ≠ .VALID_OPERATION :=
      fun event hevent hcls => hvalid ⟨event, hevent, hcls⟩
    refine foldlM_induct (fun p => Scripted packages.sha256 transactions p.state) happly h fun entry hentry a b ha hb => ?_
    obtain ⟨⟨state', record⟩, hdone, hb⟩ := bind_eq_ok.mp hb
    cases hb
    exact ha.unapplied (hnone entry.1 (List.fst_mem_of_mem_zipIdx hentry)) hdone

end

/-! ### A block -/

section

variable {block : BitcoinBlock}

theorem Scripted.activateBlock (contract : ScriptContract packages.sha256 packages.validate)
    (hex : ∀ tx ∈ block.transactions, WitnessHex tx) {activation : Option InitActivation}
    {ordered : List OrderedTransaction} (ho : orderedBlockTransactions block = .ok ordered) {w : WorkingState}
    (h : Scripted packages.sha256 block.transactions w) {activated : Activated}
    (ha : activateBlock packages binding activation block ordered w = .ok activated) :
    Scripted packages.sha256 block.transactions activated.progress.state := by
  cases activation with
  | some a =>
    obtain rfl := pure_eq_ok.mp ha
    exact h
  | none =>
    obtain ⟨init, hi, -, _, classified, -, hc, -, -, -, -, -, hs, -⟩ := confirmInit_ok ha
    have hmem := mem_ordered ho hi
    rw [hs]
    exact h.classifyTransaction contract (hex _ hmem) hmem hc

/-- **Reducing a block** keeps the keys with their scripts. -/
theorem reduceBlock_scripted (contract : ScriptContract packages.sha256 packages.validate)
    (hex : ∀ tx ∈ block.transactions, WitnessHex tx) {activation : Option InitActivation} {previousRoot : Hash}
    {objects : JsMap Hash ObjectRecord} {reduced : ReducedBlock} (named : Named objects)
    (spelled : ∀ k r, objects.get? k = some r → ∃ k0 k1, r.key0 = toHex k0 ∧ r.key1 = toHex k1)
    (reduces : reduceBlock packages binding activation previousRoot objects block = .ok reduced) :
    ∃ w, Scripted packages.sha256 block.transactions w ∧ reduced.objects = w.objects ∧
      reduced.newStates = w.newStates := by
  obtain ⟨ordered, activated, progress, ho, ha, hp, hfin⟩ := reduceBlock_ok reduces
  obtain ⟨-, -, -, -, -, -, hobjects, -, hstates, -⟩ := finishBlock_ok hfin
  have start : Scripted packages.sha256 block.transactions (.start objects) :=
    ⟨named, spelled, fun s hs => absurd hs List.not_mem_nil⟩
  have activatedScripts := start.activateBlock contract hex ho ha
  refine ⟨progress.state, ?_, hobjects, hstates⟩
  unfold connectTransactions at hp
  split at hp
  · refine foldlM_induct (fun p => Scripted packages.sha256 block.transactions p.state) hp activatedScripts
      fun entry he a b hab hb => ?_
    have hmem := mem_ordered ho he
    unfold connectTransaction at hb
    split_ifs at hb
    · obtain ⟨classified, hc, hb⟩ := bind_eq_ok.mp hb
      have hnext := hab.classifyTransaction contract (hex _ hmem) hmem hc
      obtain rfl := pure_eq_ok.mp hb
      exact hnext
    · obtain rfl := pure_eq_ok.mp hb
      exact hab
  · obtain rfl := pure_eq_ok.mp hp
    exact activatedScripts

end

/-! ### The store -/

/-- The transactions of a chain. -/
def transactionsOf (chain : List BitcoinBlock) : List BitcoinTransaction := chain.flatMap BitcoinBlock.transactions

theorem markState_keys (height : ℕ) (spent : List SpentOutpoint) (row : StateRow) :
    (markState height spent row).key0 = row.key0 ∧ (markState height spent row).key1 = row.key1 := by
  rcases markState_eq height spent row with ⟨-, h⟩ | ⟨_, -, -, h⟩ <;> simp [h, spendState]

/-- **After every block** the output of a state pays the state's keys. -/
theorem Replay.paid (contract : ScriptContract packages.sha256 packages.validate) {chain : List BitcoinBlock}
    {index : Index} (h : Replay packages binding chain index)
    (hex : ∀ tx ∈ transactionsOf chain, WitnessHex tx) :
    (∀ k r, index.objects.get? k = some r → ∃ k0 k1, r.key0 = toHex k0 ∧ r.key1 = toHex k1) ∧
      ∀ row ∈ index.db.states, PaidTo packages.sha256 (transactionsOf chain) row.outpoint row.key0 row.key1 := by
  induction h with
  | empty => exact ⟨fun k r hr => by simp [Index.empty, Cursor.initial] at hr, fun row hrow => by simp [Index.empty, Db.empty] at hrow⟩
  | @connect chain index block reduced db replay follows reduces writes ih =>
    have hown : ∀ tx ∈ block.transactions, tx ∈ transactionsOf (block :: chain) := fun tx htx =>
      List.mem_flatMap.mpr ⟨block, List.mem_cons_self, htx⟩
    have hearlier : ∀ tx ∈ transactionsOf chain, tx ∈ transactionsOf (block :: chain) := fun tx htx => by
      obtain ⟨b, hb, htx⟩ := List.mem_flatMap.mp htx
      exact List.mem_flatMap.mpr ⟨b, List.mem_cons_of_mem _ hb, htx⟩
    obtain ⟨spelled, paid⟩ := ih fun tx htx => hex tx (hearlier tx htx)
    obtain ⟨rfl, -⟩ := writeBlock_ok writes
    obtain ⟨w, scripted, hobjects, hstates⟩ := reduceBlock_scripted contract (fun tx htx => hex tx (hown tx htx))
      replay.mirrors.settled.named spelled reduces
    refine ⟨fun k r hr => scripted.spelled k r (hobjects ▸ hr), fun row hrow => ?_⟩
    obtain ⟨before, hbefore, rfl⟩ := List.mem_map.mp hrow
    obtain ⟨h₀, h₁⟩ := markState_keys reduced.height reduced.spentOutpoints before
    rw [markState_outpoint, h₀, h₁]
    rcases List.mem_append.mp hbefore with hold | hnew
    · exact (paid before hold).mono hearlier
    · obtain ⟨s, hs, rfl⟩ := List.mem_map.mp hnew
      exact (scripted.paid s (hstates ▸ hs)).mono hown

/-- **In every store** whose blocks were appended and rolled back in any order, the output of a state pays its keys. -/
theorem Stored.paid (contract : ScriptContract packages.sha256 packages.validate) {history : History} {db : Db}
    (stored : Stored packages binding history db) (hex : ∀ tx ∈ transactionsOf history.blocks, WitnessHex tx)
    {row : StateRow} (hrow : row ∈ db.states) :
    PaidTo packages.sha256 (transactionsOf history.blocks) row.outpoint row.key0 row.key1 := by
  obtain ⟨index, replay, htab⟩ := stored.recorded.1
  have hstates : index.db.states = db.states := by
    rw [tables_eq_iff.mp htab]
    rfl
  exact (replay.paid contract hex).2 row (hstates ▸ hrow)

end IndexTandem.Indexer
