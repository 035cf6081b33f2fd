import IndexTandem.Indexer.BlockReducer
import Mathlib.Logic.Relation

/-!
# What the reducer can do

Whatever the validator says, reducing a block changes the working state in three ways
only: an object is created, advanced to a new carrier, or ended (`Step`). This module
says so once (`reduceBlock_ok`); every invariant of the reducer is then proved for the
three steps.
-/

namespace IndexTandem.Indexer

open Library Protocol

variable {packages : Packages} {binding : Binding}

/-- One change to the working state, made for a transaction of the block at `height`. -/
inductive Step (packages : Packages) (binding : Binding) (height : ℕ) (txid : Hash) :
    WorkingState → WorkingState → Prop
  /-- The transaction creates its object. -/
  | create {state : WorkingState} (activation : InitHeights) (key0 key1 : String) :
      Step packages binding height txid state (create state
        (createdRecord activation (objectKeyFromWire packages.sha256 binding.ns txid) txid height key0 key1)
        (successorOf txid))
  /-- An object moves to the transaction's carrier. -/
  | advance {state : WorkingState} {key : Hash} {record : ObjectRecord}
      (found : state.objects.get? key = some record) (sequence : ℕ) (key0 key1 : String)
      (chapter : Option ChapterContent) :
      Step packages binding height txid state (advance state record txid height sequence key0 key1 chapter)
  /-- An object ends. -/
  | terminate {state : WorkingState} {key : Hash} {record : ObjectRecord}
      (found : state.objects.get? key = some record) (status : ObjectStatusName) (sequence : ℕ) :
      Step packages binding height txid state (terminate state record status txid sequence)

/-- Any number of changes, each for one of the transactions `txids`. -/
abbrev Steps (packages : Packages) (binding : Binding) (height : ℕ) (txids : List Hash) :
    WorkingState → WorkingState → Prop :=
  Relation.ReflTransGen fun state state' => ∃ txid ∈ txids, Step packages binding height txid state state'

theorem recordOf_eq_ok {state : WorkingState} {key : Hash} {record : ObjectRecord} :
    recordOf state key = .ok record ↔ state.objects.get? key = some record := by
  unfold recordOf
  split
  · rename_i r hr
    rw [pure_eq_ok, hr, Option.some.injEq]
  · rename_i hr
    simp [hr]

/-- A valid operation makes one change, or none. -/
theorem applyValid_step {activation : InitHeights} {state state' : WorkingState} {transaction : BitcoinTransaction}
    {height : ℕ} {event : TransactionValidationEvent} {marker : Option Marker} {base : EventBase}
    {record : EventRecord}
    (h : applyValid packages binding activation state transaction height event marker base = .ok (state', record)) :
    state' = state ∨ Step packages binding height transaction.txid state state' := by
  unfold applyValid at h
  dsimp only at h
  split at h
  · cases h
    exact .inl rfl
  · cases h
    exact .inr (.create ..)
  · obtain ⟨key, -, h⟩ := bind_eq_ok.mp h
    obtain ⟨r, hr, h⟩ := bind_eq_ok.mp h
    cases h
    exact .inr (.terminate (recordOf_eq_ok.mp hr) ..)
  iterate 3
    · obtain ⟨key, -, h⟩ := bind_eq_ok.mp h
      obtain ⟨r, hr, h⟩ := bind_eq_ok.mp h
      obtain ⟨sequence, -, h⟩ := bind_eq_ok.mp h
      have hr := recordOf_eq_ok.mp hr
      split at h
      · cases h
        exact .inr (.terminate hr ..)
      · cases h
        exact .inr (.advance hr ..)
      · cases h
        exact .inr (.advance hr ..)
  · cases h
  · cases h

/-- An event makes one change, or none. -/
theorem applyEvent_step {activation : InitHeights} {state state' : WorkingState} {transaction : BitcoinTransaction}
    {height : ℕ} {event : TransactionValidationEvent} {marker : Option Marker} {candidates : List Candidate}
    {base : EventBase} {record : EventRecord}
    (h : applyEvent packages binding activation transaction height marker candidates state event base =
      .ok (state', record)) :
    state' = state ∨ Step packages binding height transaction.txid state state' := by
  unfold applyEvent at h
  split at h
  · exact applyValid_step h
  · obtain ⟨key, -, h⟩ := bind_eq_ok.mp h
    obtain ⟨r, hr, h⟩ := bind_eq_ok.mp h
    cases h
    exact .inr (.terminate (recordOf_eq_ok.mp hr) ..)
  · cases h
    exact .inl rfl

theorem steps_of_eq_or_step {height : ℕ} {txid : Hash} {txids : List Hash} {state state' : WorkingState}
    (hm : txid ∈ txids) (h : state' = state ∨ Step packages binding height txid state state') :
    Steps packages binding height txids state state' := by
  rcases h with rfl | h
  · exact .refl
  · exact .single ⟨txid, hm, h⟩

theorem applyEvents_steps {activation : InitHeights} {state : WorkingState} {transaction : BitcoinTransaction}
    {txIndex height : ℕ} {marker : Option Marker} {candidates : List Candidate}
    {events : List TransactionValidationEvent} {progress : Progress} {txids : List Hash}
    (hm : transaction.txid ∈ txids)
    (h : applyEvents packages binding activation transaction txIndex height marker candidates state events =
      .ok progress) : Steps packages binding height txids state progress.state := by
  refine foldlM_induct (fun p => Steps packages binding height txids state p.state) h .refl
    fun entry _ a b ha hb => ?_
  obtain ⟨⟨state', record⟩, hd, hb⟩ := bind_eq_ok.mp hb
  cases hb
  exact ha.trans (steps_of_eq_or_step hm (applyEvent_step hd))

/-- What `classifyTransaction` computes on the way to the events. -/
theorem classifyTransaction_ok {activation : InitHeights} {state : WorkingState} {transaction : BitcoinTransaction}
    {txIndex height : ℕ} {progress : Progress}
    (h : classifyTransaction packages binding activation state transaction txIndex height = .ok progress) :
    ∃ consumed evidence activeCarriers result, consumedRecords state transaction = .ok consumed ∧
      buildTransactionEvidence packages.sha256 packages.verify transaction height = .ok evidence ∧
      consumed.mapM carrierEvidence = .ok activeCarriers ∧
      packages.validate evidence ⟨binding.networkCode, binding.ns, ⟨binding.initTxid, binding.specHash,
        activation.height, activation.openHeight, activation.closeHeight⟩, activeCarriers⟩ = .ok result ∧
      ((result.relevant = false ∨ result.events = []) ∧ progress = ⟨state, []⟩ ∨
        result.relevant = true ∧ result.events ≠ [] ∧
          ∃ candidates, remainingCandidates transaction binding.initTxid = .ok candidates ∧
            applyEvents packages binding activation transaction txIndex height result.marker candidates state
              result.events = .ok progress) := by
  obtain ⟨consumed, h₁, h⟩ := bind_eq_ok.mp h
  obtain ⟨evidence, h₂, h⟩ := bind_eq_ok.mp h
  obtain ⟨carriers, h₃, h⟩ := bind_eq_ok.mp h
  obtain ⟨result, h₄, h⟩ := bind_eq_ok.mp h
  refine ⟨consumed, evidence, carriers, result, h₁, h₂, h₃, h₄, ?_⟩
  split_ifs at h with hr
  · refine .inl ⟨?_, (pure_eq_ok.mp h).symm⟩
    simpa using hr
  · obtain ⟨candidates, h₅, h⟩ := bind_eq_ok.mp h
    simp only [Bool.or_eq_true, Bool.not_eq_true', List.isEmpty_iff, not_or, Bool.not_eq_false] at hr
    exact .inr ⟨hr.1, hr.2, candidates, h₅, h⟩

theorem classifyTransaction_steps {activation : InitHeights} {state : WorkingState}
    {transaction : BitcoinTransaction} {txIndex height : ℕ} {progress : Progress} {txids : List Hash}
    (hm : transaction.txid ∈ txids)
    (h : classifyTransaction packages binding activation state transaction txIndex height = .ok progress) :
    Steps packages binding height txids state progress.state := by
  obtain ⟨_, _, _, _, _, _, _, _, ⟨-, rfl⟩ | ⟨-, -, _, _, h⟩⟩ := classifyTransaction_ok h
  · exact .refl
  · exact applyEvents_steps hm h

theorem connectTransaction_steps {heights : InitHeights} {height : ℕ} {progress progress' : Progress}
    {entry : OrderedTransaction} {txids : List Hash} (hm : entry.transaction.txid ∈ txids)
    (h : connectTransaction packages binding heights height progress entry = .ok progress') :
    Steps packages binding height txids progress.state progress'.state := by
  unfold connectTransaction at h
  split_ifs at h
  · obtain ⟨classified, hc, h⟩ := bind_eq_ok.mp h
    have hs := classifyTransaction_steps hm hc
    cases h
    exact hs
  · cases h
    exact .refl

theorem confirmInit_ok {block : BitcoinBlock} {ordered : List OrderedTransaction} {state : WorkingState}
    {activated : Activated} (h : confirmInit packages binding block ordered state = .ok activated) :
    ∃ init ∈ ordered, init.transaction.txid = binding.initTxid ∧ ∃ heights classified,
      initHeights init.transaction binding.networkCode = .ok heights ∧
      classifyTransaction packages binding
        ⟨block.height, (heights.map Prod.fst).getD 0, (heights.map Prod.snd).getD 0⟩
        state init.transaction init.txIndex block.height = .ok classified ∧
      activated.activation.openHeight = heights.map Prod.fst ∧
      activated.activation.closeHeight = heights.map Prod.snd ∧
      activated.activation.txid = binding.initTxid ∧ activated.activation.height = block.height ∧
      activated.activation.blockHash = block.hash ∧
      activated.progress.state = classified.state ∧
      (activated.activation.valid = true ↔ ∃ event, classified.events.head? = some event ∧
        event.validityClass = .VALID_OPERATION) ∧
      activated.progress.events = if activated.activation.valid then [] else classified.events := by
  unfold confirmInit at h
  split at h
  · cases h
  · rename_i init hf
    obtain ⟨heights, hh, h⟩ := bind_eq_ok.mp h
    obtain ⟨classified, hc, h⟩ := bind_eq_ok.mp h
    cases h
    refine ⟨init, List.mem_of_find?_eq_some hf, by simpa using List.find?_some hf, heights, classified, hh, hc,
      rfl, rfl, rfl, rfl, rfl, rfl, ?_, rfl⟩
    cases classified.events.head? <;> simp

theorem finishBlock_ok {previousRoot : Hash} {block : BitcoinBlock} {ordered : List OrderedTransaction}
    {activation : InitActivation} {initConfirmed : Bool} {progress : Progress} {reduced : ReducedBlock}
    (h : finishBlock packages binding previousRoot block ordered activation initConfirmed progress = .ok reduced) :
    reduced.height = block.height ∧ reduced.hash = block.hash ∧ reduced.previousHash = block.previousBlockHash ∧
      reduced.activation = activation ∧ reduced.initConfirmed = initConfirmed ∧
      reduced.events = progress.events ∧ reduced.objects = progress.state.objects ∧
      reduced.undo = progress.state.undo ∧ reduced.newStates = progress.state.newStates ∧
      reduced.spentOutpoints = progress.state.spentOutpoints ∧ reduced.chapters = progress.state.chapters ∧
      reduced.foundingCreated = (progress.state.objects.values.filter fun record => record.founding).length ∧
      reduced.allObjects = progress.state.objects.values.length ∧
      reduced.activeObjects =
        (progress.state.objects.values.filter fun record => record.status = .active).length ∧
      reduced.transactions =
        (ordered.filter fun entry => progress.events.any fun event => event.txid = entry.transaction.txid).map
          fun entry => ⟨entry.transaction.txid, entry.transaction.wtxid, entry.txIndex, entry.transaction.version,
            entry.transaction.locktime⟩ := by
  obtain ⟨_, _, h⟩ := bind_eq_ok.mp h
  obtain ⟨_, _, h⟩ := bind_eq_ok.mp h
  obtain ⟨_, _, h⟩ := bind_eq_ok.mp h
  cases h
  exact ⟨rfl, rfl, rfl, rfl, rfl, rfl, rfl, rfl, rfl, rfl, rfl, rfl, rfl, rfl, rfl⟩

/-- The transactions that `reduceBlock` goes through are those of the block. -/
theorem mem_txids_of_ordered {block : BitcoinBlock} {ordered : List OrderedTransaction}
    (h : orderedBlockTransactions block = .ok ordered) {entry : OrderedTransaction} (he : entry ∈ ordered) :
    entry.transaction.txid ∈ block.transactions.map BitcoinTransaction.txid := by
  rw [← (orderFrom_ok h).1, List.map_map]
  exact List.mem_map_of_mem he

theorem activateBlock_steps {activation : Option InitActivation} {block : BitcoinBlock}
    {ordered : List OrderedTransaction} (ho : orderedBlockTransactions block = .ok ordered) {start : WorkingState}
    {activated : Activated} (h : activateBlock packages binding activation block ordered start = .ok activated) :
    Steps packages binding block.height (block.transactions.map BitcoinTransaction.txid) start
      activated.progress.state := by
  cases activation with
  | some a =>
    obtain rfl := pure_eq_ok.mp h
    exact .refl
  | none =>
    obtain ⟨init, hi, -, _, classified, -, hc, -, -, -, -, -, hs, -⟩ := confirmInit_ok h
    rw [hs]
    exact classifyTransaction_steps (mem_txids_of_ordered ho hi) hc

theorem connectTransactions_steps {block : BitcoinBlock} {ordered : List OrderedTransaction}
    (ho : orderedBlockTransactions block = .ok ordered) {activated : Activated} {progress : Progress}
    (h : connectTransactions packages binding block.height ordered activated = .ok progress) :
    Steps packages binding block.height (block.transactions.map BitcoinTransaction.txid) activated.progress.state
      progress.state := by
  unfold connectTransactions at h
  split at h
  · exact foldlM_induct (fun p => Steps packages binding block.height
      (block.transactions.map BitcoinTransaction.txid) activated.progress.state p.state) h .refl
      fun entry he a b ha hb => ha.trans (connectTransaction_steps (mem_txids_of_ordered ho he) hb)
  · obtain rfl := pure_eq_ok.mp h
    exact .refl

/-- What `reduceBlock` computes on the way to the reduced block. -/
theorem reduceBlock_ok {activation : Option InitActivation} {previousRoot : Hash} {objects : JsMap Hash ObjectRecord}
    {block : BitcoinBlock} {reduced : ReducedBlock}
    (h : reduceBlock packages binding activation previousRoot objects block = .ok reduced) :
    ∃ ordered activated progress, orderedBlockTransactions block = .ok ordered ∧
      activateBlock packages binding activation block ordered (.start objects) = .ok activated ∧
      connectTransactions packages binding block.height ordered activated = .ok progress ∧
      finishBlock packages binding previousRoot block ordered activated.activation activation.isNone progress =
        .ok reduced := by
  obtain ⟨ordered, ho, h⟩ := bind_eq_ok.mp h
  obtain ⟨activated, ha, h⟩ := bind_eq_ok.mp h
  obtain ⟨progress, hp, h⟩ := bind_eq_ok.mp h
  exact ⟨ordered, activated, progress, ho, ha, hp, h⟩

/-- **Reducing a block is a sequence of steps**, and its result is read off the last state. -/
theorem reduceBlock_steps {activation : Option InitActivation} {previousRoot : Hash}
    {objects : JsMap Hash ObjectRecord} {block : BitcoinBlock} {reduced : ReducedBlock}
    (h : reduceBlock packages binding activation previousRoot objects block = .ok reduced) :
    ∃ state, Steps packages binding block.height (block.transactions.map BitcoinTransaction.txid)
        (.start objects) state ∧ reduced.height = block.height ∧
      reduced.objects = state.objects ∧ reduced.undo = state.undo ∧ reduced.newStates = state.newStates ∧
      reduced.spentOutpoints = state.spentOutpoints ∧ reduced.chapters = state.chapters := by
  obtain ⟨ordered, activated, progress, ho, ha, hp, hfin⟩ := reduceBlock_ok h
  obtain ⟨hh, -, -, -, -, -, h₁, h₂, h₃, h₄, h₅, -⟩ := finishBlock_ok hfin
  exact ⟨progress.state, (activateBlock_steps ho ha).trans (connectTransactions_steps ho hp), hh, h₁, h₂, h₃, h₄, h₅⟩

/-- The INIT that a reduced block carries: the one it was reduced with, or the one it confirms. -/
theorem reduceBlock_activation {activation : Option InitActivation} {previousRoot : Hash}
    {objects : JsMap Hash ObjectRecord} {block : BitcoinBlock} {reduced : ReducedBlock}
    (h : reduceBlock packages binding activation previousRoot objects block = .ok reduced) :
    (∀ a, activation = some a → reduced.initConfirmed = false ∧ reduced.activation = a) ∧
      (activation = none → reduced.initConfirmed = true ∧ reduced.activation.height = block.height ∧
        reduced.activation.blockHash = block.hash ∧ reduced.activation.txid = binding.initTxid ∧
        ∃ tx ∈ block.transactions, tx.txid = binding.initTxid) := by
  obtain ⟨ordered, activated, progress, ho, ha, -, hfin⟩ := reduceBlock_ok h
  obtain ⟨-, -, -, hact, hconf, -⟩ := finishBlock_ok hfin
  refine ⟨?_, ?_⟩
  · rintro a rfl
    obtain rfl := pure_eq_ok.mp ha
    exact ⟨hconf, hact⟩
  · rintro rfl
    obtain ⟨init, hi, hid, _, _, -, -, -, -, htxid, hheight, hhash, -⟩ := confirmInit_ok ha
    rw [hact]
    refine ⟨hconf, hheight, hhash, htxid, init.transaction, ?_, hid⟩
    rw [← (orderFrom_ok ho).1]
    exact List.mem_map_of_mem hi

end IndexTandem.Indexer
