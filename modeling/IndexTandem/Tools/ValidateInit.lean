import IndexTandem.Config.Configuration
import IndexTandem.Indexer.Activation

/-!
# Validating an INIT ahead

The operator validates the INIT before configuring it. The tool reduces the block that confirmed the INIT, or, while
there is none, a block of its own making at the next height: a coinbase and the INIT, with the spent outputs that the
node reports now.

It prints what the indexer stores, before the INIT confirms and afterwards (`validateInit_agrees`): a block without
objects tells the INIT's event from the transaction and the height alone, wherever it stands in the block and whatever
stands around it (`reduceBlock_alone`).
-/

namespace IndexTandem.Tools

open Library Protocol Database Indexer

variable {packages : Packages} {binding : Binding} {heights : InitHeights} {height : ℕ}

/-! ### At another place in the block -/

/-- The event, at another place. -/
def placedAt (txIndex : ℕ) (event : EventRecord) : EventRecord := { event with txIndex := txIndex }

/-- The effect of an event does not depend on the place of the transaction. -/
theorem applyEvent_placedAt {transaction : BitcoinTransaction} {marker : Option Marker} {candidates : List Candidate}
    {state : WorkingState} {event : TransactionValidationEvent} {base : EventBase} {done : WorkingState × EventRecord}
    (h : applyEvent packages binding heights transaction height marker candidates state event base = .ok done)
    (txIndex : ℕ) :
    applyEvent packages binding heights transaction height marker candidates state event { base with txIndex := txIndex } =
      .ok (done.1, placedAt txIndex done.2) := by
  unfold applyEvent at h ⊢
  cases hcls : event.validityClass with
  | INVALID_NO_STATE =>
    simp only [hcls] at h ⊢
    obtain rfl := pure_eq_ok.mp h
    rfl
  | TERMINAL_NONCANONICAL =>
    simp only [hcls] at h ⊢
    obtain ⟨key, hkey, h⟩ := bind_eq_ok.mp h
    obtain ⟨record, hrecord, h⟩ := bind_eq_ok.mp h
    obtain rfl := pure_eq_ok.mp h
    exact bind_eq_ok.mpr ⟨key, hkey, bind_eq_ok.mpr ⟨record, hrecord, rfl⟩⟩
  | VALID_OPERATION =>
    simp only [hcls] at h ⊢
    unfold applyValid at h ⊢
    cases hop : event.operation with
    | INIT =>
      simp only [hop] at h ⊢
      obtain rfl := pure_eq_ok.mp h
      rfl
    | CREATE =>
      simp only [hop] at h ⊢
      obtain rfl := pure_eq_ok.mp h
      rfl
    | REFUND =>
      simp only [hop] at h ⊢
      obtain ⟨key, hkey, h⟩ := bind_eq_ok.mp h
      obtain ⟨record, hrecord, h⟩ := bind_eq_ok.mp h
      obtain rfl := pure_eq_ok.mp h
      exact bind_eq_ok.mpr ⟨key, hkey, bind_eq_ok.mpr ⟨record, hrecord, rfl⟩⟩
    | MARK | ROTATE | CLOSE =>
      simp only [hop] at h ⊢
      obtain ⟨key, hkey, h⟩ := bind_eq_ok.mp h
      obtain ⟨record, hrecord, h⟩ := bind_eq_ok.mp h
      obtain ⟨sequence, hsequence, h⟩ := bind_eq_ok.mp h
      refine bind_eq_ok.mpr ⟨key, hkey, bind_eq_ok.mpr ⟨record, hrecord, bind_eq_ok.mpr ⟨sequence, hsequence, ?_⟩⟩⟩
      split at h <;>
      · obtain rfl := pure_eq_ok.mp h
        rfl
    | EXITED_NONCANONICAL | INVALID =>
      simp only [hop] at h
      cases h

/-- **A transaction is classified alike at every place**, but for the place in its events. -/
theorem classifyTransaction_placedAt {state : WorkingState} {transaction : BitcoinTransaction} {txIndex : ℕ}
    {progress : Progress}
    (h : classifyTransaction packages binding heights state transaction txIndex height = .ok progress) (txIndex' : ℕ) :
    classifyTransaction packages binding heights state transaction txIndex' height =
      .ok ⟨progress.state, progress.events.map (placedAt txIndex')⟩ := by
  obtain ⟨consumed, hconsumed, h⟩ := bind_eq_ok.mp h
  obtain ⟨evidence, hevidence, h⟩ := bind_eq_ok.mp h
  obtain ⟨carriers, hcarriers, h⟩ := bind_eq_ok.mp h
  obtain ⟨result, hresult, h⟩ := bind_eq_ok.mp h
  refine bind_eq_ok.mpr ⟨consumed, hconsumed, bind_eq_ok.mpr ⟨evidence, hevidence, bind_eq_ok.mpr ⟨carriers, hcarriers,
    bind_eq_ok.mpr ⟨result, hresult, ?_⟩⟩⟩⟩
  by_cases hsilent : (!result.relevant || result.events.isEmpty) = true
  · rw [if_pos hsilent] at h ⊢
    obtain rfl := pure_eq_ok.mp h
    rfl
  · rw [if_neg hsilent] at h ⊢
    obtain ⟨candidates, hcandidates, h⟩ := bind_eq_ok.mp h
    refine bind_eq_ok.mpr ⟨candidates, hcandidates, ?_⟩
    -- The loop over the events of the verdict, from any events on.
    have hloop : ∀ (l : List (TransactionValidationEvent × ℕ)) (before after : Progress),
        l.foldlM (applyEntry packages binding heights transaction txIndex height result.marker candidates) before =
          .ok after →
        l.foldlM (applyEntry packages binding heights transaction txIndex' height result.marker candidates)
          ⟨before.state, before.events.map (placedAt txIndex')⟩ =
            .ok ⟨after.state, after.events.map (placedAt txIndex')⟩ := by
      intro l
      induction l with
      | nil =>
        intro before after h
        obtain rfl := pure_eq_ok.mp h
        rfl
      | cons entry l ih =>
        intro before after h
        obtain ⟨next, hnext, h⟩ := bind_eq_ok.mp h
        obtain ⟨done, hdone, hnext⟩ := bind_eq_ok.mp hnext
        obtain rfl := pure_eq_ok.mp hnext
        have hplaced := applyEvent_placedAt hdone txIndex'
        have hrest := ih _ after h
        rw [List.map_append, List.map_singleton] at hrest
        exact bind_eq_ok.mpr ⟨_, bind_eq_ok.mpr ⟨_, hplaced, rfl⟩, hrest⟩
    exact hloop _ _ _ h

/-! ### A block of its own -/

/-- The block that the tool makes: a coinbase, and the INIT. -/
def aloneBlock (bestblockhash : Hash) (height : ℕ) (transaction : BitcoinTransaction) : BitcoinBlock where
  hash := Hash.zero
  previousBlockHash := some bestblockhash
  height := height
  time := 0
  transactions := [⟨Hash.zero, Hash.zero, 2, 0, [⟨none, none, some "00", "00", 0xffff_ffff, [], none⟩], []⟩, transaction]

theorem ordered_aloneBlock {transaction : BitcoinTransaction} (named : transaction.txid ≠ Hash.zero)
    (spends : transaction.inputs.any BitcoinInput.isCoinbase = false) (bestblockhash : Hash) (height : ℕ) :
    ∃ coinbase, orderedBlockTransactions (aloneBlock bestblockhash height transaction) =
        .ok [⟨0, coinbase⟩, ⟨1, transaction⟩] ∧ coinbase.txid = Hash.zero ∧ coinbase.outputs = [] ∧ coinbase.spends = [] := by
  refine ⟨⟨Hash.zero, Hash.zero, 2, 0, [⟨none, none, some "00", "00", 0xffff_ffff, [], none⟩], []⟩, ?_, rfl, rfl, rfl⟩
  simp [orderedBlockTransactions, aloneBlock, orderFrom, ensure, named, spends, BitcoinInput.isCoinbase, bind, Except.bind,
    pure, Except.pure]

/-- A leaf that can be written can be written at the second place of a block without a hash. -/
theorem leaf_placedAt {blockHash : Hash} {event : EventRecord} {leaf : Bytes}
    (h : eventLeafPreimage (canonicalEvent blockHash height event) = .ok leaf) :
    ∃ leaf', eventLeafPreimage (canonicalEvent Hash.zero height (placedAt 1 event)) = .ok leaf' := by
  obtain ⟨checked, hcheck, h⟩ := bind_eq_ok.mp h
  obtain ⟨heightBytes, hheight, h⟩ := bind_eq_ok.mp h
  obtain ⟨txIndex, -, h⟩ := bind_eq_ok.mp h
  obtain ⟨eventIndex, hevent, h⟩ := bind_eq_ok.mp h
  obtain ⟨subIndex, hsub, h⟩ := bind_eq_ok.mp h
  obtain ⟨eventType, htype, h⟩ := bind_eq_ok.mp h
  obtain ⟨validityClass, hclass, h⟩ := bind_eq_ok.mp h
  obtain ⟨reason, hreason, h⟩ := bind_eq_ok.mp h
  obtain ⟨stateSequence, hsequence, -⟩ := bind_eq_ok.mp h
  exact ⟨_, bind_eq_ok.mpr ⟨checked, hcheck, bind_eq_ok.mpr ⟨heightBytes, hheight, bind_eq_ok.mpr ⟨_, rfl,
    bind_eq_ok.mpr ⟨eventIndex, hevent, bind_eq_ok.mpr ⟨subIndex, hsub, bind_eq_ok.mpr ⟨eventType, htype,
      bind_eq_ok.mpr ⟨validityClass, hclass, bind_eq_ok.mpr ⟨reason, hreason, bind_eq_ok.mpr ⟨stateSequence, hsequence,
        rfl⟩⟩⟩⟩⟩⟩⟩⟩⟩⟩

theorem leaf_of_eventRoot {sha256 : Bytes → Hash} {ns root : Hash} {events : List CanonicalEvent}
    (h : eventRoot sha256 ns events = .ok root) {event : CanonicalEvent} (he : event ∈ events) :
    ∃ leaf, eventLeafPreimage event = .ok leaf := by
  unfold eventRoot at h
  have hsome : ¬events.isEmpty = true := fun hempty => List.ne_nil_of_mem he (List.isEmpty_iff.mp hempty)
  rw [if_neg hsome] at h
  obtain ⟨-, -, h⟩ := bind_eq_ok.mp h
  obtain ⟨leaves, hleaves, -⟩ := bind_eq_ok.mp h
  have hsorted := (sortBy_perm (fun left right : CanonicalEvent => positionLE left.position right.position) events).mem_iff.mpr he
  obtain ⟨leaf, -, hleaf⟩ := exists_left_of_forall₂ (mapM_ok_forall₂ hleaves).flip hsorted
  exact ⟨leaf, hleaf⟩

theorem eventRoot_single (sha256 : Bytes → Hash) (ns : Hash) {event : CanonicalEvent} {leaf : Bytes}
    (h : eventLeafPreimage event = .ok leaf) : ∃ root, eventRoot sha256 ns [event] = .ok root := by
  refine ⟨sha256 leaf, ?_⟩
  have hleaves : [event].mapM eventLeafPreimage = .ok [leaf] := by
    rw [List.mapM_cons, h]
    rfl
  exact bind_eq_ok.mpr ⟨(), rfl, bind_eq_ok.mpr ⟨[leaf], hleaves, rfl⟩⟩

/-- Without objects a block can be finished once its events have a root and its height fits. -/
theorem finishBlock_bare {previousRoot root : Hash} {block : BitcoinBlock} (ordered : List OrderedTransaction)
    (activation : InitActivation) (confirmed : Bool) {events : List EventRecord}
    (hroot : eventRoot packages.sha256 binding.ns (events.map (canonicalEvent block.hash block.height)) = .ok root)
    (fits : block.height ≤ 0xffff_ffff_ffff_ffff) :
    ∃ reduced, finishBlock packages binding previousRoot block ordered activation confirmed ⟨.start ∅, events⟩ =
      .ok reduced ∧ reduced.activation = activation := by
  obtain ⟨objects, hobjects⟩ : ∃ objects, objectStateRoot packages.sha256 binding.ns
      ((WorkingState.start ∅).objects.values.map snapshot) = .ok objects := ⟨_, rfl⟩
  obtain ⟨chained, hchained⟩ : ∃ chained, chainedBlockRoot packages.sha256 ⟨binding.ns, previousRoot, block.hash,
      block.height, root, objects, 0, 0, 0⟩ = .ok chained := by
    simp only [chainedBlockRoot, u64le, if_neg (not_lt.mpr fits)]
    exact ⟨_, rfl⟩
  exact ⟨_, bind_eq_ok.mpr ⟨_, hroot, bind_eq_ok.mpr ⟨_, hobjects, bind_eq_ok.mpr ⟨_, hchained, rfl⟩⟩⟩, rfl⟩

theorem height_of_finishBlock {previousRoot : Hash} {block : BitcoinBlock} {ordered : List OrderedTransaction}
    {activation : InitActivation} {confirmed : Bool} {progress : Progress} {reduced : ReducedBlock}
    (h : finishBlock packages binding previousRoot block ordered activation confirmed progress = .ok reduced) :
    block.height ≤ 0xffff_ffff_ffff_ffff ∧
      ∃ root, eventRoot packages.sha256 binding.ns (progress.events.map (canonicalEvent block.hash block.height)) =
        .ok root := by
  obtain ⟨root, hroot, h⟩ := bind_eq_ok.mp h
  obtain ⟨objects, -, h⟩ := bind_eq_ok.mp h
  obtain ⟨chained, hchained, -⟩ := bind_eq_ok.mp h
  obtain ⟨bytes, hbytes, -⟩ := bind_eq_ok.mp hchained
  refine ⟨?_, root, hroot⟩
  by_contra hover
  have hbytes' : u64le block.height = .ok bytes := hbytes
  rw [u64le, if_pos (not_le.mp hover)] at hbytes'
  cases hbytes'

/-- The loop over the block of a valid INIT tells the INIT as the first look did. -/
theorem event_of_connect (contract : ValidatorContract packages.validate) (dated : InitContract packages.validate)
    {block : BitcoinBlock} {ordered : List OrderedTransaction} (ho : orderedBlockTransactions block = .ok ordered)
    (early : height < heights.openHeight) {init : OrderedTransaction} (hi : init ∈ ordered)
    (configured : init.transaction.txid = binding.initTxid) {event : EventRecord}
    (classified : classifyTransaction packages binding heights (.start ∅) init.transaction init.txIndex height =
      .ok ⟨.start ∅, [event]⟩) {progress : Progress}
    (h : ordered.foldlM (connectTransaction packages binding heights height) ⟨.start ∅, []⟩ = .ok progress) :
    event ∈ progress.events := by
  have hnodup : (ordered.map fun entry => entry.transaction.txid).Nodup := by
    obtain ⟨htransactions, -, hnodup, -⟩ := orderFrom_ok ho
    rwa [← htransactions, List.map_map] at hnodup
  obtain ⟨before, after, rfl⟩ := List.append_of_mem hi
  rw [List.map_append, List.map_cons] at hnodup
  obtain ⟨-, hrest, hapart⟩ := List.nodup_append.mp hnodup
  have hothersBefore : ∀ entry ∈ before, entry.transaction.txid ≠ binding.initTxid := fun entry he =>
    configured ▸ hapart _ (List.mem_map_of_mem he) _ List.mem_cons_self
  have hothersAfter : ∀ entry ∈ after, entry.transaction.txid ≠ binding.initTxid := fun entry he hid =>
    (List.nodup_cons.mp hrest).1 (configured.trans hid.symm ▸ List.mem_map_of_mem he)
  obtain ⟨first, hfirst, h⟩ := foldlM_append_ok.mp h
  obtain ⟨second, hsecond, h⟩ := bind_eq_ok.mp h
  obtain ⟨hstate, -⟩ := connect_early contract dated early hothersBefore rfl hfirst
  have hrelevant : isRelevant init.transaction first.state.activeByOutpoint binding.initTxid = true := by
    simp [isRelevant, configured]
  unfold connectTransaction at hsecond
  rw [if_pos hrelevant, hstate, classified] at hsecond
  obtain rfl := pure_eq_ok.mp hsecond
  obtain ⟨-, events, hevents, -⟩ := connect_early contract dated early hothersAfter rfl h
  rw [hevents]
  exact List.mem_append_left _ (List.mem_append_right _ (List.mem_singleton.mpr rfl))

/-- What the first look at the INIT finds out in a block without objects, and what the block goes on with. -/
structure FirstLook (packages : Packages) (binding : Binding) (block : BitcoinBlock) (init : OrderedTransaction)
    (window : Option (ℕ × ℕ)) (event : EventRecord) (activated : Activated) : Prop where
  /-- The INIT names the window. -/
  named : initHeights init.transaction binding.networkCode = .ok window
  /-- It has one event. -/
  classified : classifyTransaction packages binding
    ⟨block.height, (window.map Prod.fst).getD 0, (window.map Prod.snd).getD 0⟩
    (.start ∅) init.transaction init.txIndex block.height = .ok ⟨.start ∅, [event]⟩
  /-- The INIT. -/
  activation : activated.activation = ⟨binding.initTxid, block.height, block.hash, window.map Prod.fst,
    window.map Prod.snd, decide (event.validityClass = .VALID_OPERATION), event.reason⟩
  /-- Its event is kept when it is not valid. -/
  progress : activated.progress = ⟨.start ∅, if activated.activation.valid then [] else [event]⟩

theorem firstLook_of_confirmInit (contract : ValidatorContract packages.validate) (dated : InitContract packages.validate)
    {block : BitcoinBlock} {ordered : List OrderedTransaction} {activated : Activated}
    (h : confirmInit packages binding block ordered (.start ∅) = .ok activated) :
    ∃ init window event, ordered.find? (fun entry => entry.transaction.txid = binding.initTxid) = some init ∧
      FirstLook packages binding block init window event activated := by
  unfold confirmInit at h
  cases hfound : ordered.find? fun entry => entry.transaction.txid = binding.initTxid with
  | none =>
    rw [hfound] at h
    cases h
  | some init =>
    rw [hfound] at h
    obtain ⟨window, hwindow, h⟩ := bind_eq_ok.mp h
    obtain ⟨⟨state, events⟩, hclassified, h⟩ := bind_eq_ok.mp h
    obtain rfl := pure_eq_ok.mp h
    have hid : init.transaction.txid = binding.initTxid := by simpa using List.find?_some hfound
    have hidle := classifyTransaction_early contract dated (fun hne => absurd hid hne) hclassified
    obtain ⟨event, hevents, -⟩ := hidle.configured hid
    obtain rfl : state = .start ∅ := hidle.state
    obtain rfl : events = [event] := hevents
    exact ⟨init, window, event, rfl, hwindow, hclassified, rfl, rfl⟩

section

variable {block : BitcoinBlock} {init : OrderedTransaction} {window : Option (ℕ × ℕ)} {event : EventRecord}
  {activated : Activated} (look : FirstLook packages binding block init window event activated)

include look

theorem FirstLook.confirmInit {ordered : List OrderedTransaction}
    (found : ordered.find? (fun entry => entry.transaction.txid = binding.initTxid) = some init) :
    Indexer.confirmInit packages binding block ordered (.start ∅) = .ok activated := by
  obtain ⟨activation, progress⟩ := activated
  obtain ⟨hnamed, hclassified, hactivation, hprogress⟩ := look
  dsimp only at hactivation hprogress
  unfold Indexer.confirmInit
  rw [found]
  refine bind_eq_ok.mpr ⟨window, hnamed, bind_eq_ok.mpr ⟨_, hclassified, ?_⟩⟩
  rw [hprogress, hactivation]
  rfl

/-- In the block of its own the INIT is looked at alike. -/
theorem FirstLook.alone (bestblockhash : Hash) :
    FirstLook packages binding (aloneBlock bestblockhash block.height init.transaction) ⟨1, init.transaction⟩ window
      (placedAt 1 event) ⟨{ activated.activation with blockHash := Hash.zero },
        ⟨.start ∅, if activated.activation.valid then [] else [placedAt 1 event]⟩⟩ where
  named := look.named
  classified := classifyTransaction_placedAt look.classified 1
  activation := by
    rw [look.activation]
    rfl
  progress := rfl

variable (contract : ValidatorContract packages.validate) (dated : InitContract packages.validate)
  (configured : init.transaction.txid = binding.initTxid) (rendered : Rendered init.transaction)

include contract dated configured rendered

/-- A valid INIT names its window, which is the one the block goes on with. -/
theorem FirstLook.opens (valid : activated.activation.valid = true) :
    ∃ openHeight closeHeight, window = some (openHeight, closeHeight) ∧ block.height < openHeight ∧
      activated.activation.heights? = some ⟨block.height, openHeight, closeHeight⟩ := by
  have hvalid : activated.activation.valid = decide (event.validityClass = .VALID_OPERATION) := by rw [look.activation]
  have hclass : event.validityClass = .VALID_OPERATION := of_decide_eq_true (hvalid.symm.trans valid)
  obtain ⟨openHeight, closeHeight, hnamed, hlater⟩ :=
    initHeights_of_valid contract dated rendered configured look.classified rfl hclass
  obtain rfl : window = some (openHeight, closeHeight) := Except.ok.inj (look.named.symm.trans hnamed)
  refine ⟨openHeight, closeHeight, rfl, hlater, ?_⟩
  unfold InitActivation.heights?
  rw [valid, look.activation]
  rfl

/-- The event of the look is among those of the block. -/
theorem FirstLook.told {ordered : List OrderedTransaction} (ho : orderedBlockTransactions block = .ok ordered)
    (hi : init ∈ ordered) {progress : Progress}
    (h : connectTransactions packages binding block.height ordered activated = .ok progress) :
    event ∈ progress.events := by
  unfold connectTransactions at h
  cases hv : activated.activation.valid with
  | false =>
    simp only [heights?_failed hv, look.progress, hv] at h
    obtain rfl := pure_eq_ok.mp h
    exact List.mem_singleton.mpr rfl
  | true =>
    have hclassified := look.classified
    obtain ⟨openHeight, closeHeight, rfl, hlater, hknown⟩ := look.opens contract dated configured rendered hv
    simp only [hknown, look.progress, hv] at h
    exact event_of_connect contract dated ho hlater hi configured hclassified h

/-- With a coinbase that does not matter, the block has the event of the look and no other. -/
theorem FirstLook.connect {coinbase : OrderedTransaction}
    (passed : isRelevant coinbase.transaction (WorkingState.start ∅).activeByOutpoint binding.initTxid = false) :
    connectTransactions packages binding block.height [coinbase, init] activated = .ok ⟨.start ∅, [event]⟩ := by
  unfold connectTransactions
  cases hv : activated.activation.valid with
  | false =>
    simp only [heights?_failed hv, look.progress, hv]
    rfl
  | true =>
    have hclassified := look.classified
    obtain ⟨openHeight, closeHeight, rfl, -, hknown⟩ := look.opens contract dated configured rendered hv
    have hrelevant : isRelevant init.transaction (WorkingState.start ∅).activeByOutpoint binding.initTxid = true := by
      simp [isRelevant, configured]
    simp only [hknown, look.progress, hv]
    refine bind_eq_ok.mpr ⟨⟨.start ∅, []⟩, ?_, bind_eq_ok.mpr ⟨⟨.start ∅, [event]⟩, ?_, rfl⟩⟩
    · unfold connectTransaction
      simp [passed]
    · unfold connectTransaction
      simp only [hrelevant, if_true]
      exact bind_eq_ok.mpr ⟨_, hclassified, rfl⟩

end

/-- **The INIT is told alike in a block of its own**: the same verdict, for the same height. -/
theorem reduceBlock_alone (contract : ValidatorContract packages.validate) (dated : InitContract packages.validate)
    {block : BitcoinBlock} {previousRoot : Hash} {reduced : ReducedBlock}
    (h : reduceBlock packages binding none previousRoot ∅ block = .ok reduced) {transaction : BitcoinTransaction}
    (mined : transaction ∈ block.transactions) (configured : transaction.txid = binding.initTxid)
    (rendered : Rendered transaction) (named : transaction.txid ≠ Hash.zero)
    (spends : transaction.inputs.any BitcoinInput.isCoinbase = false) (bestblockhash previousRoot' : Hash) :
    ∃ alone, reduceBlock packages binding none previousRoot' ∅ (aloneBlock bestblockhash block.height transaction) =
        .ok alone ∧ alone.activation = { reduced.activation with blockHash := Hash.zero } := by
  obtain ⟨ordered, activated, progress, ho, ha, hp, hfin⟩ := reduceBlock_ok h
  obtain ⟨fits, root, hroot⟩ := height_of_finishBlock hfin
  obtain ⟨-, -, -, hactivation, -⟩ := finishBlock_ok hfin
  obtain ⟨init, window, event, hfound, look⟩ := firstLook_of_confirmInit contract dated ha
  have hi : init ∈ ordered := List.mem_of_find?_eq_some hfound
  have hid : init.transaction.txid = binding.initTxid := by simpa using List.find?_some hfound
  obtain rfl : init.transaction = transaction := by
    obtain ⟨-, -, hnodup, -⟩ := orderFrom_ok ho
    exact List.inj_on_of_nodup_map hnodup (mem_ordered ho hi) mined (hid.trans configured.symm)
  -- The event can be written in the block of its own, because it was in the real one.
  have hevent := look.told contract dated hid rendered ho hi hp
  obtain ⟨leaf, hleaf⟩ := leaf_of_eventRoot hroot (List.mem_map_of_mem hevent)
  obtain ⟨leaf', hleaf'⟩ := leaf_placedAt hleaf
  obtain ⟨root', hroot'⟩ := eventRoot_single packages.sha256 binding.ns hleaf'
  obtain ⟨coinbase, hordered, hcoinbase, houtputs, hspends⟩ :=
    ordered_aloneBlock named spends bestblockhash block.height
  have hother : coinbase.txid ≠ binding.initTxid := fun he => named (hid.trans (he.symm.trans hcoinbase))
  have hpassed : isRelevant coinbase (WorkingState.start ∅).activeByOutpoint binding.initTxid = false := by
    simp [isRelevant, hother, houtputs, hspends]
  have look' := look.alone bestblockhash
  have hfirst : [⟨0, coinbase⟩, ⟨1, init.transaction⟩].find?
      (fun entry : OrderedTransaction => entry.transaction.txid = binding.initTxid) = some ⟨1, init.transaction⟩ := by
    rw [List.find?_cons_of_neg (by simpa using hother), List.find?_cons_of_pos (by simpa using hid)]
  have hconfirm := look'.confirmInit hfirst
  have hconnect := @FirstLook.connect packages binding _ _ _ _ _ look' contract dated hid rendered ⟨0, coinbase⟩ hpassed
  obtain ⟨alone, hdone, hsame⟩ := @finishBlock_bare packages binding previousRoot' root'
    (aloneBlock bestblockhash block.height init.transaction) [⟨0, coinbase⟩, ⟨1, init.transaction⟩]
    { activated.activation with blockHash := Hash.zero } true [placedAt 1 event] hroot' fits
  refine ⟨alone, ?_, ?_⟩
  · exact bind_eq_ok.mpr ⟨_, hordered, bind_eq_ok.mpr ⟨_, hconfirm, bind_eq_ok.mpr ⟨_, hconnect, hdone⟩⟩⟩
  · rw [hsame, hactivation]

/-! ### The tool -/

/-- `Exit`, or another error with the code of the process. -/
structure Exit where
  /-- The message. -/
  message : String
  /-- The exit code. -/
  code : ℕ

/-- An error ends the process with the code. -/
def exitWith {α : Type} (code : ℕ) (result : Except String α) : Except Exit α :=
  result.mapError fun message => ⟨message, code⟩

@[simp] theorem exitWith_ok {α : Type} (code : ℕ) (value : α) : exitWith code (.ok value) = .ok value := rfl

/-- A transaction and the block it is in. -/
structure Location where
  /-- The transaction, without its spent outputs. -/
  transaction : BitcoinTransaction
  /-- The block; absent in the mempool. -/
  blockhash : Option Hash

/-- What the node answers. -/
structure Node where
  /-- `getblockchaininfo`. -/
  getblockchaininfo : Except String BlockchainInfo
  /-- `getrawtransaction`. -/
  getrawtransaction : Hash → Except String Location
  /-- `getblockheader`. -/
  getblockheader : Hash → Except String BlockHeader
  /-- `getblock`. -/
  getblock : Hash → Except String BitcoinBlock

/-- The block of a transaction, when that is in the best chain. -/
def confirmedIn (node : Node) (location : Location) : Except String (Option (Hash × BlockHeader)) :=
  match location.blockhash with
  | none => pure none
  | some blockhash => do
    let header ← node.getblockheader blockhash
    pure (if 0 < header.confirmations then some (blockhash, header) else none)

/-- An input with the output it spends, as `withPrevouts` fills it in. -/
def withPrevout (node : Node) (input : BitcoinInput) : Except String BitcoinInput :=
  match input.txid, input.vout with
  | some txid, some vout => do
    let parent ← node.getrawtransaction txid
    let output ← orError ("prevout " ++ txid.text ++ ":" ++ toString vout.toNat ++ " not found")
      (parent.transaction.outputs.find? fun item => item.n = vout.toNat)
    let confirmed ← confirmedIn node parent
    let height := confirmed.map fun found => found.2.height
    pure { input with prevout := some ⟨output.valueSats, output.scriptPubKeyHex, height.isSome, height⟩ }
  | _, _ => pure input

/-- `withPrevouts(raw)`. -/
def withPrevouts (node : Node) (raw : BitcoinTransaction) : Except String BitcoinTransaction := do
  let inputs ← raw.inputs.mapM (withPrevout node)
  pure { raw with inputs := inputs }

/-- The result that the tool prints. -/
structure ValidationResult where
  /-- The INIT. -/
  txid : Hash
  /-- The network. -/
  network : String
  /-- The id of the protocol. -/
  protocolId : String
  /-- The spec hash. -/
  specHash : Hash
  /-- The namespace. -/
  ns : Hash
  /-- The INIT has confirmed. -/
  confirmed : Bool
  /-- The height it has confirmed at. -/
  height : Option ℕ
  /-- The block that has confirmed it. -/
  blockHash : Option Hash
  /-- The height it was evaluated at. -/
  evaluatedAtHeight : ℕ
  /-- The window it names opens here. -/
  openHeight : Option ℕ
  /-- The window closes here. -/
  closeHeight : Option ℕ
  /-- It is valid. -/
  valid : Bool
  /-- Why. -/
  reason : Reason
  deriving DecidableEq

/-- `result`. -/
def resultOf (binding : Binding) (confirmed : Bool) (activation : InitActivation) : ValidationResult where
  txid := binding.initTxid
  network := Agreement.networkName binding.networkCode
  protocolId := "tndm:" ++ Agreement.networkName binding.networkCode ++ ":" ++ binding.initTxid.text
  specHash := binding.specHash
  ns := binding.ns
  confirmed := confirmed
  height := if confirmed then some activation.height else none
  blockHash := if confirmed then some activation.blockHash else none
  evaluatedAtHeight := activation.height
  openHeight := activation.openHeight
  closeHeight := activation.closeHeight
  valid := activation.valid
  reason := activation.reason

/-- The exit code of a result. -/
def ValidationResult.exitCode (result : ValidationResult) : ℕ :=
  let pendingParent := !result.confirmed && decide (result.reason = .UNCONFIRMED_OR_SAME_BLOCK_PREVOUT)
  if result.confirmed then (if result.valid then 0 else 2)
  else if result.valid || pendingParent then 3 else 2

/-- Before it confirms, an INIT is at best provisionally valid. -/
theorem exitCode_ahead (binding : Binding) (activation : InitActivation) : (resultOf binding false activation).exitCode =
    if activation.valid = true ∨ activation.reason = .UNCONFIRMED_OR_SAME_BLOCK_PREVOUT then 3 else 2 := by
  simp [ValidationResult.exitCode, resultOf]

/-- `expectedChain`. -/
def expectedChain (network : NetworkCode) : String :=
  if Agreement.networkName network = "mainnet" then "main" else Agreement.networkName network

/-- The binding of the INIT on the command line. -/
def bindingOf (packages : Packages) (network : NetworkCode) (txid specHash : Hash) : Binding :=
  ⟨network, txid, specHash, Config.namespaceCommitment packages.sha256 network txid specHash⟩

/-- The block to reduce: the one that has confirmed the INIT, or one of its own. -/
def evidenceBlock (node : Node) (info : BlockchainInfo) (location : Location) : Except String (Bool × BitcoinBlock) := do
  match ← confirmedIn node location with
  | some (blockhash, _) => do
    let block ← node.getblock blockhash
    pure (true, block)
  | none => do
    let transaction ← withPrevouts node location.transaction
    pure (false, aloneBlock info.bestblockhash (info.blocks + 1) transaction)

/-- `main()`, with the hash of the specification that comes with the package: what it prints, and the exit code. -/
def main (packages : Packages) (bundled : Hash) (node : Node) (argument : String) (env : Config.Env) :
    Except Exit (ValidationResult × ℕ) := do
  let txid ← exitWith 1 (orError "usage: validate-init <init_txid as 64 lowercase hex>"
    (Config.parseHash (Config.toLowerCase argument)))
  let network ← exitWith 1 (orError "TANDEM_NETWORK is missing or unsupported"
    ([NetworkCode.mainnet, .signet, .testnet4, .regtest].find? fun network =>
      Agreement.networkName network = (env "TANDEM_NETWORK").getD ""))
  let specHash ← exitWith 1 (orError "TANDEM_SPEC_HASH must be 32-byte hex"
    (Config.parseHash (Config.toLowerCase ((env "TANDEM_SPEC_HASH").getD ""))))
  exitWith 1 (ensure (bundled = specHash)
    ("TANDEM_SPEC_HASH " ++ specHash.text ++ " does not match the bundled specification " ++ bundled.text))
  let info ← exitWith 1 node.getblockchaininfo
  exitWith 1 (ensure (info.chain = expectedChain network)
    ("Bitcoin Core chain " ++ info.chain ++ " does not match " ++ expectedChain network))
  let location ← exitWith 4 ((node.getrawtransaction txid).mapError fun message =>
    "INIT " ++ txid.text ++ " is unknown to Bitcoin Core: " ++ message)
  let binding := bindingOf packages network txid specHash
  let (confirmed, block) ← exitWith 1 (evidenceBlock node info location)
  let reduced ← exitWith 1 (reduceBlock packages binding none (initialStateRoot packages.sha256 binding.ns) ∅ block)
  let result := resultOf binding confirmed reduced.activation
  pure (result, result.exitCode)

/-! ### The verdict of the indexer -/

/-- The tool, run for the INIT of a deployment. -/
def validateInit (packages : Packages) (binding : Binding) (node : Node) : Except Exit (ValidationResult × ℕ) :=
  main packages binding.specHash node binding.initTxid.text
    (Config.deploymentEnv binding.networkCode binding.initTxid binding.specHash)

/-- A node of the network that knows the INIT. -/
structure Knows (binding : Binding) (node : Node) (info : BlockchainInfo) (location : Location) : Prop where
  /-- It answers. -/
  answers : node.getblockchaininfo = .ok info
  /-- It is on the chain of the network. -/
  chain : info.chain = expectedChain binding.networkCode
  /-- It finds the INIT. -/
  location : node.getrawtransaction binding.initTxid = .ok location

/-- The block has confirmed the INIT, and is in the best chain. -/
structure Confirmed (node : Node) (location : Location) (block : BitcoinBlock) : Prop where
  /-- The INIT is in the block. -/
  blockhash : location.blockhash = some block.hash
  /-- The block is in the best chain. -/
  header : ∃ header, node.getblockheader block.hash = .ok header ∧ 0 < header.confirmations
  /-- The node has the block. -/
  block : node.getblock block.hash = .ok block

/-- The INIT waits for the block at the height. -/
structure Pending (node : Node) (info : BlockchainInfo) (location : Location) (transaction : BitcoinTransaction)
    (height : ℕ) : Prop where
  /-- It is in no block of the best chain. -/
  unconfirmed : confirmedIn node location = .ok none
  /-- The outputs it spends are those that the block will report. -/
  prevouts : withPrevouts node location.transaction = .ok transaction
  /-- The block is the next one. -/
  next : info.blocks + 1 = height

theorem Confirmed.evidence {node : Node} {location : Location} {block : BitcoinBlock}
    (confirmed : Confirmed node location block) (info : BlockchainInfo) :
    evidenceBlock node info location = .ok (true, block) := by
  obtain ⟨hhash, ⟨header, hheader, hdeep⟩, hblock⟩ := confirmed
  have hin : confirmedIn node location = .ok (some (block.hash, header)) := by
    unfold confirmedIn
    rw [hhash]
    refine bind_eq_ok.mpr ⟨header, hheader, ?_⟩
    rw [if_pos hdeep]
    rfl
  exact bind_eq_ok.mpr ⟨_, hin, bind_eq_ok.mpr ⟨block, hblock, rfl⟩⟩

theorem Pending.evidence {node : Node} {info : BlockchainInfo} {location : Location} {transaction : BitcoinTransaction}
    (pending : Pending node info location transaction height) :
    evidenceBlock node info location = .ok (false, aloneBlock info.bestblockhash height transaction) := by
  obtain ⟨hin, hprevouts, rfl⟩ := pending
  exact bind_eq_ok.mpr ⟨none, hin, bind_eq_ok.mpr ⟨transaction, hprevouts, rfl⟩⟩

/-- The tool prints what the reduction of its block says. -/
theorem Knows.result {node : Node} {info : BlockchainInfo} {location : Location} (knows : Knows binding node info location)
    (bound : binding = bindingOf packages binding.networkCode binding.initTxid binding.specHash) {confirmed : Bool}
    {block : BitcoinBlock} (evidence : evidenceBlock node info location = .ok (confirmed, block)) {reduced : ReducedBlock}
    (reduces : reduceBlock packages binding none (initialStateRoot packages.sha256 binding.ns) ∅ block = .ok reduced) :
    validateInit packages binding node = .ok (resultOf binding confirmed reduced.activation,
      (resultOf binding confirmed reduced.activation).exitCode) := by
  obtain ⟨hinfo, hchain, hlocation⟩ := knows
  have hnetwork : ([NetworkCode.mainnet, .signet, .testnet4, .regtest].find? fun network =>
      Agreement.networkName network = Agreement.networkName binding.networkCode) = some binding.networkCode := by
    cases binding.networkCode <;> decide
  have hname : Config.deploymentEnv binding.networkCode binding.initTxid binding.specHash "TANDEM_NETWORK" =
      some (Agreement.networkName binding.networkCode) := by
    simp [Config.deploymentEnv]
  have hspec : Config.deploymentEnv binding.networkCode binding.initTxid binding.specHash "TANDEM_SPEC_HASH" =
      some binding.specHash.text := by
    simp [Config.deploymentEnv]
  unfold validateInit main
  rw [hname, hspec, Option.getD_some, Option.getD_some, Config.parseHash_text, Config.parseHash_text, hnetwork,
    hinfo]
  refine bind_eq_ok.mpr ⟨binding.initTxid, rfl, bind_eq_ok.mpr ⟨binding.networkCode, rfl,
    bind_eq_ok.mpr ⟨binding.specHash, rfl, bind_eq_ok.mpr ⟨(), ?_, bind_eq_ok.mpr ⟨info, rfl,
      bind_eq_ok.mpr ⟨(), ?_, bind_eq_ok.mpr ⟨location, ?_, ?_⟩⟩⟩⟩⟩⟩⟩
  · rw [ensure_eq_ok.mpr rfl, exitWith_ok]
  · rw [ensure_eq_ok.mpr hchain, exitWith_ok]
  · rw [hlocation]
    rfl
  · rw [← bound, evidence]
    refine bind_eq_ok.mpr ⟨(confirmed, block), rfl, bind_eq_ok.mpr ⟨reduced, ?_, rfl⟩⟩
    rw [reduces, exitWith_ok]

/-- **The tool tells ahead what the indexer stores.** Run on the INIT before it confirms, for the height at which it
then confirms, it prints the verdict that every database of the chain reads back; and so does it afterwards, with the
block. -/
theorem validateInit_agrees (contract : ValidatorContract packages.validate) (dated : InitContract packages.validate)
    (bound : binding = bindingOf packages binding.networkCode binding.initTxid binding.specHash)
    {chain : List BitcoinBlock} {db : Db} (holds : Holds packages binding chain db) {first : BitcoinBlock}
    (oldest : chain.getLast? = some first) {transaction : BitcoinTransaction} (mined : transaction ∈ first.transactions)
    (configured : transaction.txid = binding.initTxid) (rendered : Rendered transaction)
    (named : transaction.txid ≠ Hash.zero) (spends : transaction.inputs.any BitcoinInput.isCoinbase = false) :
    ∃ activation, loadActivation db = some activation ∧
      (∀ node info location, Knows binding node info location → Pending node info location transaction first.height →
        validateInit packages binding node = .ok (resultOf binding false activation,
          if activation.valid = true ∨ activation.reason = .UNCONFIRMED_OR_SAME_BLOCK_PREVOUT then 3 else 2)) ∧
      ∀ node info location, Knows binding node info location → Confirmed node location first →
        validateInit packages binding node = .ok (resultOf binding true activation, if activation.valid then 0 else 2) := by
  obtain ⟨index, replay, htab⟩ := holds
  obtain ⟨reduced, hreduced, hactivation⟩ := replay.confirmed oldest
  have hread : loadActivation db = some reduced.activation := by
    rw [← loadActivation_tables htab, replay.loadActivation.1, hactivation]
  refine ⟨reduced.activation, hread, fun node info location knows pending => ?_,
    fun node info location knows confirmed => knows.result bound (confirmed.evidence info) hreduced⟩
  obtain ⟨alone, halone, hsame⟩ := reduceBlock_alone contract dated hreduced mined configured rendered named spends
    info.bestblockhash (initialStateRoot packages.sha256 binding.ns)
  -- An INIT that has not confirmed has no block in the result.
  have hprinted : resultOf binding false alone.activation = resultOf binding false reduced.activation := by
    rw [hsame]
    rfl
  rw [knows.result bound pending.evidence halone, hprinted, exitCode_ahead]

/-- An INIT that spends a confirmed output. -/
def announcedInit : BitcoinTransaction := { spendTransaction (sampleHash 1) ⟨sampleHash 8, 0⟩ with
  inputs := [⟨some (sampleHash 8), some 0, none, "", 0, [], some ⟨20000, "51", true, some 196⟩⟩]
  outputs := [⟨0, 0, initScript⟩] }

/-- The block that confirms it. -/
def announcedBlock : BitcoinBlock := { windowBlock with
  transactions := [sampleCoinbase (sampleHash 3), announcedInit] }

theorem rendered_announcedInit : Rendered announcedInit := by
  have hlower : ∀ output ∈ announcedInit.outputs,
      (output.scriptPubKeyHex.toList.all fun c => hexDigits.contains c) = true := by decide +kernel
  have hnumbered : (announcedInit.outputs.map BitcoinOutput.n).Nodup := by decide +kernel
  refine ⟨fun output ho c hc => ?_, hnumbered⟩
  simpa using List.all_eq_true.mp (hlower output ho) c hc

/-- The INIT in the mempool. -/
def announcedLocation : Location where
  transaction := { announcedInit with inputs := [⟨some (sampleHash 8), some 0, none, "", 0, [], none⟩] }
  blockhash := none

/-- A node before the block. -/
def pendingNode : Node where
  getblockchaininfo := .ok ⟨"main", 199, sampleHash 10, false⟩
  getrawtransaction txid :=
    if txid = sampleHash 1 then .ok announcedLocation
    else .ok ⟨{ sampleCoinbase txid with outputs := [⟨0, 20000, "51"⟩] }, some (sampleHash 6)⟩
  getblockheader _ := .ok ⟨196, 4⟩
  getblock _ := .error "Block not found"

/-- The node some blocks later. -/
def confirmedNode : Node where
  getblockchaininfo := .ok ⟨"main", 202, sampleHash 12, false⟩
  getrawtransaction _ := .ok ⟨announcedInit, some (sampleHash 2)⟩
  getblockheader _ := .ok ⟨200, 3⟩
  getblock _ := .ok announcedBlock

/-- The INIT is found valid before its block and after it. -/
theorem validateInit_agrees_sample : ∃ db activation, loadActivation db = some activation ∧ activation.valid = true ∧
    validateInit datedPackages sampleBinding pendingNode = .ok (resultOf sampleBinding false activation, 3) ∧
    validateInit datedPackages sampleBinding confirmedNode = .ok (resultOf sampleBinding true activation, 0) := by
  have hrun : (((Cursor.initial datedPackages sampleBinding).reduce datedPackages sampleBinding announcedBlock >>=
      fun reduced => writeBlock reduced Db.empty).toOption.any fun db =>
        (loadActivation db).any InitActivation.valid) = true := by
    decide +kernel
  obtain ⟨db, hdb, hvalid⟩ := (Option.any_eq_true ..).mp hrun
  obtain ⟨reduced, hreduced, hwrites⟩ := bind_eq_ok.mp (ok_of_toOption hdb)
  obtain ⟨history, stored, hchain⟩ := Stored.single hreduced hwrites
  have holds : Holds datedPackages sampleBinding [announcedBlock] db := hchain ▸ stored.recorded.1
  have bound : sampleBinding = bindingOf datedPackages sampleBinding.networkCode sampleBinding.initTxid
      sampleBinding.specHash := by
    decide +kernel
  have mined : announcedInit ∈ announcedBlock.transactions := List.mem_cons_of_mem _ List.mem_cons_self
  obtain ⟨activation, hread, hahead, hafter⟩ := validateInit_agrees (validateTandemTransaction_contract datedChecks_sound)
    (validateTandemTransaction_dated datedChecks_dated) bound holds rfl mined rfl rendered_announcedInit
    (by decide) (by decide)
  rw [hread] at hvalid
  have hv : activation.valid = true := hvalid
  rw [hv] at hahead hafter
  have hprevouts : withPrevouts pendingNode announcedLocation.transaction = .ok announcedInit := by decide +kernel
  exact ⟨db, activation, hread, hv,
    hahead pendingNode ⟨"main", 199, sampleHash 10, false⟩ announcedLocation ⟨rfl, rfl, rfl⟩ ⟨rfl, hprevouts, rfl⟩,
    hafter confirmedNode ⟨"main", 202, sampleHash 12, false⟩ ⟨announcedInit, some (sampleHash 2)⟩ ⟨rfl, rfl, rfl⟩
      ⟨rfl, ⟨⟨200, 3⟩, rfl, by decide⟩, rfl⟩⟩

end IndexTandem.Tools
