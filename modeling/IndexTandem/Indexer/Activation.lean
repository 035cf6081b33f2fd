import IndexTandem.Indexer.Emission
import IndexTandem.Indexer.Growth
import IndexTandem.Indexer.InitWindow
import IndexTandem.Indexer.Rollback

/-!
# The block that confirms the INIT

The reducer classifies the configured INIT once before it goes through the block: to
find out whether it is valid, and with which window. That first look leaves no trace.
When the INIT is valid, the block is reduced as if its window had been known from the
start, and its one event stands at its own place. When it is not, its event is all there
is: no later block has an event or an object, and only the roots go on, until the block
is disconnected (`init_settled`).

As the window opens later, there is no object to spend while the block is gone through,
and the INIT is asked about twice in the same way.
-/

namespace IndexTandem.Indexer

open Library Protocol Database

variable {packages : Packages} {binding : Binding} {heights : InitHeights} {height : ℕ}

/-! ### Before the window -/

/-- The state of a block that is reduced without objects. -/
theorem live_bare : Live (.start ∅) := by
  have named : Named (∅ : JsMap Hash ObjectRecord) := fun k r hr => by simp at hr
  have distinct : DistinctActive (∅ : JsMap Hash ObjectRecord) := fun k k' r r' o hr => by simp at hr
  exact Live.start named distinct

theorem consumedKeys_start (transaction : BitcoinTransaction) : consumedKeys (.start ∅) transaction = [] :=
  consumedKeys_bare live_bare (fun k => JsMap.get?_empty k) transaction

/-- What a transaction does while there is no object and none can be created. -/
structure Idle (binding : Binding) (transaction : BitcoinTransaction) (progress : Progress) : Prop where
  /-- There is still none. -/
  state : progress.state = .start ∅
  /-- It is not an operation, unless it is the INIT. -/
  other : transaction.txid ≠ binding.initTxid → ∀ e ∈ progress.events, e.validityClass = .INVALID_NO_STATE
  /-- The INIT has one event. -/
  configured : transaction.txid = binding.initTxid → ∃ e, progress.events = [e] ∧
    (e.validityClass = .INVALID_NO_STATE ∨ e.validityClass = .VALID_OPERATION ∧ e.eventType = .INIT)

/-- **Before the window opens** a transaction does nothing. For the INIT itself the window does not matter. -/
theorem classifyTransaction_early (contract : ValidatorContract packages.validate)
    (dated : InitContract packages.validate) {transaction : BitcoinTransaction} {txIndex : ℕ} {progress : Progress}
    (early : transaction.txid ≠ binding.initTxid → height < heights.openHeight)
    (h : classifyTransaction packages binding heights (.start ∅) transaction txIndex height = .ok progress) :
    Idle binding transaction progress := by
  have hunspent := consumedKeys_start transaction
  obtain ⟨evidence, carriers, result, ⟨hev, hkeys, hpres, hanswer, verdict⟩, hdone⟩ :=
    classifyTransaction_asked contract live_bare (fun hne => absurd hunspent hne) h
  have hnone : carriers = [] := List.map_eq_nil_iff.mp (hkeys.trans hunspent)
  have htx := (buildTransactionEvidence_ok _ _ hev).1
  have proper : ProperCall evidence (contextOf binding heights carriers) :=
    properCall (fun hne => absurd hnone hne) hev hpres
  have hspends : ∀ {carrier}, carriers = [carrier] → False := by
    intro carrier hone
    rw [hnone] at hone
    cases hone
  rcases hdone with ⟨hsilent, rfl⟩ | ⟨-, hne, candidates, -, happly⟩
  · refine ⟨rfl, fun _ e he => by simp at he, fun hid => ?_⟩
    -- The INIT is never passed over.
    cases verdict with
    | ignored _ other => exact absurd (htx.trans hid) other
    | exits some => exact absurd hnone some
    | _ => simp at hsilent
  cases verdict with
  | ignored => exact absurd rfl hne
  | invalid _ _ cls =>
    obtain ⟨w', record, hd, rfl⟩ := applyEvents_single happly
    simp only [applyEvent, cls, pure_eq_ok, Prod.mk.injEq] at hd
    obtain ⟨rfl, rfl⟩ := hd
    refine ⟨rfl, fun _ e he => ?_, fun _ => ⟨_, rfl, .inl rfl⟩⟩
    rw [List.mem_singleton.mp he]
  | init _ configured _ cls op =>
    obtain ⟨w', record, hd, rfl⟩ := applyEvents_single happly
    simp only [applyEvent, cls, applyValid, op, pure_eq_ok, Prod.mk.injEq] at hd
    obtain ⟨rfl, rfl⟩ := hd
    exact ⟨rfl, fun hother => absurd (htx.symm.trans configured) hother, fun _ => ⟨_, rfl, .inr ⟨rfl, rfl⟩⟩⟩
  | create _ other _ cls op =>
    have hopen : heights.openHeight ≤ evidence.height :=
      dated.create proper hanswer (List.mem_singleton.mpr rfl) cls op
    rw [buildTransactionEvidence_height hev] at hopen
    have := early fun hid => other (htx.trans hid)
    omega
  | mark one => exact (hspends one).elim
  | rotate one => exact (hspends one).elim
  | close one => exact (hspends one).elim
  | refund one => exact (hspends one).elim
  | exits some => exact absurd hnone some

/-- **A valid INIT names its window**, which opens later. -/
theorem initHeights_of_valid (contract : ValidatorContract packages.validate)
    (dated : InitContract packages.validate) {transaction : BitcoinTransaction} {txIndex : ℕ} {progress : Progress}
    (rendered : Rendered transaction) (configured : transaction.txid = binding.initTxid)
    (h : classifyTransaction packages binding heights (.start ∅) transaction txIndex height = .ok progress)
    {event : EventRecord} (first : progress.events.head? = some event) (valid : event.validityClass = .VALID_OPERATION) :
    ∃ openHeight closeHeight, initHeights transaction binding.networkCode = .ok (some (openHeight, closeHeight)) ∧
      height < openHeight := by
  have hunspent := consumedKeys_start transaction
  obtain ⟨evidence, carriers, result, ⟨hev, hkeys, hpres, hanswer, verdict⟩, hdone⟩ :=
    classifyTransaction_asked contract live_bare (fun hne => absurd hunspent hne) h
  have hnone : carriers = [] := List.map_eq_nil_iff.mp (hkeys.trans hunspent)
  have htx := (buildTransactionEvidence_ok _ _ hev).1
  have proper : ProperCall evidence (contextOf binding heights carriers) :=
    properCall (fun hne => absurd hnone hne) hev hpres
  rcases hdone with ⟨-, rfl⟩ | ⟨-, hne, candidates, hcandidates, happly⟩
  · cases first
  obtain ⟨judged, hjudged, hcls⟩ : ∃ judged ∈ result.events, judged.validityClass = .VALID_OPERATION := by
    cases verdict with
    | ignored => exact absurd rfl hne
    | init _ _ _ cls => exact ⟨_, List.mem_singleton.mpr rfl, cls⟩
    | invalid _ _ cls =>
      obtain ⟨w', record, hd, rfl⟩ := applyEvents_single happly
      simp only [applyEvent, cls, pure_eq_ok, Prod.mk.injEq] at hd
      obtain ⟨rfl, rfl⟩ := hd
      obtain rfl := Option.some.inj first
      cases valid
    | create _ _ _ cls => exact ⟨_, List.mem_singleton.mpr rfl, cls⟩
    | mark _ cls => exact ⟨_, List.mem_singleton.mpr rfl, cls⟩
    | rotate _ cls => exact ⟨_, List.mem_singleton.mpr rfl, cls⟩
    | close _ cls => exact ⟨_, List.mem_singleton.mpr rfl, cls⟩
    | refund _ cls => exact ⟨_, List.mem_singleton.mpr rfl, cls⟩
    | exits some => exact absurd hnone some
  obtain ⟨-, -, candidate, network, openHeight, closeHeight, carrierValue, refundDelay, specHash, hone, hparse, hlater⟩ :=
    dated.init proper hanswer (htx.trans configured) hjudged hcls
  rw [← configured] at hcandidates
  have hcounted : countedCandidates evidence transaction.txid = [candidate] := by
    rw [configured]
    exact hone
  rw [buildTransactionEvidence_height hev] at hlater
  exact ⟨openHeight, closeHeight, initHeights_of_counted rendered hev hcandidates hcounted hparse, hlater⟩

/-- The transactions other than the INIT, before the window opens: no operation among them. -/
theorem connect_early (contract : ValidatorContract packages.validate) (dated : InitContract packages.validate)
    (early : height < heights.openHeight) {ordered : List OrderedTransaction}
    (others : ∀ entry ∈ ordered, entry.transaction.txid ≠ binding.initTxid) {progress progress' : Progress}
    (bare : progress.state = .start ∅)
    (h : ordered.foldlM (connectTransaction packages binding heights height) progress = .ok progress') :
    progress'.state = .start ∅ ∧ ∃ events, progress'.events = progress.events ++ events ∧
      ∀ e ∈ events, e.validityClass = .INVALID_NO_STATE ∧ ∃ entry ∈ ordered, e.txIndex = entry.txIndex := by
  induction ordered generalizing progress with
  | nil =>
    obtain rfl := pure_eq_ok.mp h
    exact ⟨bare, [], (List.append_nil _).symm, fun e he => by simp at he⟩
  | cons entry ordered ih =>
    obtain ⟨next, hnext, h⟩ := bind_eq_ok.mp h
    have hother := others entry List.mem_cons_self
    obtain ⟨first, hfirst, -, hof⟩ := connectTransaction_events hnext
    have hstep : next.state = .start ∅ ∧ ∀ e ∈ first, e.validityClass = .INVALID_NO_STATE := by
      unfold connectTransaction at hnext
      split_ifs at hnext
      · obtain ⟨classified, hc, hnext⟩ := bind_eq_ok.mp hnext
        obtain rfl := pure_eq_ok.mp hnext
        obtain rfl : classified.events = first := List.append_cancel_left hfirst
        rw [bare] at hc
        have hidle := classifyTransaction_early contract dated (fun _ => early) hc
        exact ⟨hidle.state, hidle.other hother⟩
      · obtain rfl := pure_eq_ok.mp hnext
        obtain rfl : first = [] := List.append_cancel_left (hfirst.symm.trans (List.append_nil _).symm)
        exact ⟨bare, fun e he => by simp at he⟩
    obtain ⟨hstate, later, hlater, hevents⟩ := ih (fun e he => others e (List.mem_cons_of_mem _ he)) hstep.1 h
    refine ⟨hstate, first ++ later, by rw [hlater, hfirst, List.append_assoc], fun e he => ?_⟩
    rcases List.mem_append.mp he with he | he
    · exact ⟨hstep.2 e he, entry, List.mem_cons_self, (hof e he).2⟩
    · obtain ⟨hcls, source, hs, hindex⟩ := hevents e he
      exact ⟨hcls, source, List.mem_cons_of_mem _ hs, hindex⟩

/-! ### A valid INIT -/

/-- The event of the INIT is valid, the only valid one, and at the INIT's place among the events of the block. -/
def Placed (binding : Binding) (block : BitcoinBlock) (events : List EventRecord) : Prop :=
  ∃ before event after, events = before ++ event :: after ∧ event.validityClass = .VALID_OPERATION ∧
    event.eventType = .INIT ∧ event.txid = binding.initTxid ∧
    block.transactions[event.txIndex]?.map BitcoinTransaction.txid = some binding.initTxid ∧
    (∀ e ∈ before, e.validityClass = .INVALID_NO_STATE ∧ e.txIndex < event.txIndex) ∧
    ∀ e ∈ after, e.validityClass = .INVALID_NO_STATE ∧ event.txIndex < e.txIndex

/-- A numbered transaction is the block's at that number. -/
theorem getElem?_of_ordered {block : BitcoinBlock} {ordered : List OrderedTransaction}
    (ho : orderedBlockTransactions block = .ok ordered) {entry : OrderedTransaction} (he : entry ∈ ordered) :
    block.transactions[entry.txIndex]? = some entry.transaction := by
  obtain ⟨htransactions, hindexes, -⟩ := orderFrom_ok ho
  obtain ⟨i, hi, rfl⟩ := List.mem_iff_getElem.mp he
  have hindex : (ordered.map OrderedTransaction.txIndex)[i]? = some (ordered[i].txIndex) := by simp [hi]
  have hlength : ordered.length = block.transactions.length := by rw [← htransactions, List.length_map]
  rw [hindexes, List.getElem?_range' (by omega)] at hindex
  have hnumber : ordered[i].txIndex = i := by
    have := Option.some.inj hindex
    omega
  rw [hnumber, ← htransactions]
  simp [hi]

/-- The last part of `reduceBlock` only notes whether the block confirmed the INIT. -/
theorem finishBlock_confirmed {previousRoot : Hash} {block : BitcoinBlock} {ordered : List OrderedTransaction}
    {activation : InitActivation} {confirmed : Bool} {progress : Progress} {reduced : ReducedBlock}
    (h : finishBlock packages binding previousRoot block ordered activation confirmed progress = .ok reduced)
    (confirmed' : Bool) : finishBlock packages binding previousRoot block ordered activation confirmed' progress =
      .ok { reduced with initConfirmed := confirmed' } := by
  obtain ⟨eventRoot, he, h⟩ := bind_eq_ok.mp h
  obtain ⟨objectStateRoot, hs, h⟩ := bind_eq_ok.mp h
  obtain ⟨chainedRoot, hc, h⟩ := bind_eq_ok.mp h
  obtain rfl := pure_eq_ok.mp h
  exact bind_eq_ok.mpr ⟨_, he, bind_eq_ok.mpr ⟨_, hs, bind_eq_ok.mpr ⟨_, hc, rfl⟩⟩⟩

/-- What the first look at the INIT finds out, in a block without objects. -/
theorem confirmInit_bare (contract : ValidatorContract packages.validate) (dated : InitContract packages.validate)
    {block : BitcoinBlock} {ordered : List OrderedTransaction} {activated : Activated}
    (h : confirmInit packages binding block ordered (.start ∅) = .ok activated) :
    ∃ init ∈ ordered, init.transaction.txid = binding.initTxid ∧ ∃ heights event,
      initHeights init.transaction binding.networkCode = .ok heights ∧
      classifyTransaction packages binding
        ⟨block.height, (heights.map Prod.fst).getD 0, (heights.map Prod.snd).getD 0⟩
        (.start ∅) init.transaction init.txIndex block.height = .ok ⟨.start ∅, [event]⟩ ∧
      event.txid = binding.initTxid ∧ event.txIndex = init.txIndex ∧
      activated.activation.openHeight = heights.map Prod.fst ∧
      activated.activation.closeHeight = heights.map Prod.snd ∧ activated.activation.height = block.height ∧
      (event.validityClass = .VALID_OPERATION ∧ event.eventType = .INIT ∧ activated.activation.valid = true ∧
          activated.progress = ⟨.start ∅, []⟩ ∨
        event.validityClass = .INVALID_NO_STATE ∧ activated.activation.valid = false ∧
          activated.progress = ⟨.start ∅, [event]⟩) := by
  obtain ⟨init, hi, hid, heights, classified, hheights, hc, hopen, hclose, -, hheight, -, hstate, hvalid, hevents⟩ :=
    confirmInit_ok h
  have hidle := classifyTransaction_early contract dated (fun hne => absurd hid hne) hc
  obtain ⟨event, hevent, hcls⟩ := hidle.configured hid
  obtain ⟨-, hof⟩ := classifyTransaction_events hc
  obtain ⟨htxid, hindex⟩ := hof event (hevent ▸ List.mem_singleton.mpr rfl)
  have hclassified : classified = ⟨.start ∅, [event]⟩ := by
    calc classified = ⟨classified.state, classified.events⟩ := rfl
      _ = ⟨.start ∅, [event]⟩ := by rw [hidle.state, hevent]
  subst hclassified
  have hprogress : activated.progress = ⟨.start ∅, if activated.activation.valid then [] else [event]⟩ := by
    calc activated.progress = ⟨activated.progress.state, activated.progress.events⟩ := rfl
      _ = _ := by rw [hstate, hevents]
  refine ⟨init, hi, hid, heights, event, hheights, hc, htxid.trans hid, hindex, hopen, hclose, hheight, ?_⟩
  have hiff : activated.activation.valid = true ↔ event.validityClass = .VALID_OPERATION := by
    rw [hvalid]
    simp
  rcases hcls with hcls | ⟨hcls, htype⟩
  · have hv : activated.activation.valid = false := by
      rw [Bool.eq_false_iff]
      intro hv
      cases hcls.symm.trans (hiff.mp hv)
    exact .inr ⟨hcls, hv, by rw [hprogress, hv]; rfl⟩
  · have hv := hiff.mpr hcls
    exact .inl ⟨hcls, htype, hv, by rw [hprogress, hv]; rfl⟩

/-- **The loop over the block of a valid INIT** has the INIT's event at its place, and no other operation. -/
theorem connect_placed (contract : ValidatorContract packages.validate) (dated : InitContract packages.validate)
    {block : BitcoinBlock} {ordered : List OrderedTransaction} (ho : orderedBlockTransactions block = .ok ordered)
    (early : height < heights.openHeight) {init : OrderedTransaction} (hi : init ∈ ordered)
    (configured : init.transaction.txid = binding.initTxid) {event : EventRecord}
    (classified : classifyTransaction packages binding heights (.start ∅) init.transaction init.txIndex height =
      .ok ⟨.start ∅, [event]⟩)
    (cls : event.validityClass = .VALID_OPERATION) (type : event.eventType = .INIT)
    (txid : event.txid = binding.initTxid) (index : event.txIndex = init.txIndex) {progress : Progress}
    (h : ordered.foldlM (connectTransaction packages binding heights height) ⟨.start ∅, []⟩ = .ok progress) :
    Placed binding block progress.events := by
  have hsorted := ordered_pairwise ho
  have hnodup : (ordered.map fun entry => entry.transaction.txid).Nodup := by
    obtain ⟨htransactions, -, hnodup, -⟩ := orderFrom_ok ho
    rwa [← htransactions, List.map_map] at hnodup
  have hplace : block.transactions[event.txIndex]?.map BitcoinTransaction.txid = some binding.initTxid := by
    rw [index, getElem?_of_ordered ho hi, Option.map_some, configured]
  obtain ⟨before, after, rfl⟩ := List.append_of_mem hi
  obtain ⟨-, hlater, hbetween⟩ := List.pairwise_append.mp hsorted
  have hafter := (List.pairwise_cons.mp hlater).1
  rw [List.map_append, List.map_cons] at hnodup
  obtain ⟨-, hrest, hapart⟩ := List.nodup_append.mp hnodup
  have hothersBefore : ∀ entry ∈ before, entry.transaction.txid ≠ binding.initTxid := fun entry he =>
    configured ▸ hapart _ (List.mem_map_of_mem he) _ List.mem_cons_self
  have hothersAfter : ∀ entry ∈ after, entry.transaction.txid ≠ binding.initTxid := fun entry he hid =>
    (List.nodup_cons.mp hrest).1 (configured.trans hid.symm ▸ List.mem_map_of_mem he)
  obtain ⟨first, hfirst, h⟩ := foldlM_append_ok.mp h
  obtain ⟨second, hsecond, h⟩ := bind_eq_ok.mp h
  obtain ⟨hstate, events₁, hevents₁, hearly₁⟩ := connect_early contract dated early hothersBefore rfl hfirst
  -- The INIT is always relevant, and is asked about as it was the first time.
  have hrelevant : isRelevant init.transaction first.state.activeByOutpoint binding.initTxid = true := by
    simp [isRelevant, configured]
  unfold connectTransaction at hsecond
  rw [if_pos hrelevant, hstate, classified] at hsecond
  obtain rfl := pure_eq_ok.mp hsecond
  obtain ⟨-, events₂, hevents₂, hearly₂⟩ := connect_early contract dated early hothersAfter rfl h
  refine ⟨events₁, event, events₂, ?_, cls, type, txid, hplace, fun e he => ?_, fun e he => ?_⟩
  · rw [hevents₂, hevents₁, List.nil_append, List.append_assoc, List.singleton_append]
  · obtain ⟨hinvalid, entry, hm, hindex⟩ := hearly₁ e he
    refine ⟨hinvalid, ?_⟩
    rw [hindex, index]
    exact hbetween entry hm init List.mem_cons_self
  · obtain ⟨hinvalid, entry, hm, hindex⟩ := hearly₂ e he
    refine ⟨hinvalid, ?_⟩
    rw [hindex, index]
    exact hafter entry hm

/-- **A valid INIT leaves no trace of the first look**: the block is reduced as with its window known. -/
theorem reduceBlock_again (contract : ValidatorContract packages.validate) (dated : InitContract packages.validate)
    {block : BitcoinBlock} (rendered : ∀ tx ∈ block.transactions, tx.txid = binding.initTxid → Rendered tx)
    {previousRoot : Hash} {reduced : ReducedBlock}
    (h : reduceBlock packages binding none previousRoot ∅ block = .ok reduced) (valid : reduced.activation.valid = true) :
    reduceBlock packages binding (some reduced.activation) previousRoot ∅ block =
        .ok { reduced with initConfirmed := false } ∧
      Placed binding block reduced.events := by
  obtain ⟨ordered, activated, progress, ho, ha, hp, hfin⟩ := reduceBlock_ok h
  obtain ⟨-, -, -, hactivation, -, hevents, -⟩ := finishBlock_ok hfin
  rw [hactivation] at valid
  obtain ⟨init, hi, hid, window, event, hwindow, hc, htxid, hindex, hopen, hclose, hheight,
    ⟨hcls, htype, -, hprogress⟩ | ⟨-, hv, -⟩⟩ := confirmInit_bare contract dated ha
  case inr => exact (Bool.false_ne_true (hv.symm.trans valid)).elim
  obtain ⟨openHeight, closeHeight, hnamed, hlater⟩ :=
    initHeights_of_valid contract dated (rendered _ (mem_ordered ho hi) hid) hid hc rfl hcls
  obtain rfl : window = some (openHeight, closeHeight) := Except.ok.inj (hwindow.symm.trans hnamed)
  have hheights : activated.activation.heights? = some ⟨block.height, openHeight, closeHeight⟩ := by
    unfold InitActivation.heights?
    rw [valid, hopen, hclose, hheight]
    rfl
  constructor
  · refine bind_eq_ok.mpr ⟨ordered, ho, bind_eq_ok.mpr ⟨_, rfl, bind_eq_ok.mpr ⟨progress, ?_, ?_⟩⟩⟩
    · rw [hactivation, ← hprogress]
      exact hp
    · have hdone := finishBlock_confirmed hfin false
      rwa [← hactivation] at hdone
  · unfold connectTransactions at hp
    simp only [hheights, hprogress] at hp
    rw [hevents]
    exact connect_placed contract dated ho hlater hi hid hc hcls htype htxid hindex hp

/-! ### An INIT that is not valid -/

/-- The root of a block without events and objects. -/
def restingRoot (packages : Packages) (binding : Binding) (previousRoot : Hash) (block : BitcoinBlock) :
    Except String Hash :=
  chainedBlockRoot packages.sha256 ⟨binding.ns, previousRoot, block.hash, block.height,
    packages.sha256 (ascii "TANDEM/EVENT-EMPTY\x00" ++ binding.ns.bytes),
    packages.sha256 (ascii "TANDEM/OBJECT-EMPTY\x00" ++ binding.ns.bytes), 0, 0, 0⟩

/-- Nothing is created, spent or written. -/
structure Bare (reduced : ReducedBlock) : Prop where
  /-- No object. -/
  objects : reduced.objects = ∅
  /-- None touched. -/
  undo : reduced.undo = ∅
  /-- No state. -/
  newStates : reduced.newStates = []
  /-- No carrier. -/
  spentOutpoints : reduced.spentOutpoints = []
  /-- No chapter. -/
  chapters : reduced.chapters = []

/-- A block after an INIT that is not valid: only the root goes on. -/
structure Resting (packages : Packages) (binding : Binding) (activation : InitActivation) (previousRoot : Hash)
    (block : BitcoinBlock) (reduced : ReducedBlock) : Prop extends Bare reduced where
  /-- The INIT stays. -/
  activation : reduced.activation = activation
  /-- It is not confirmed again. -/
  initConfirmed : reduced.initConfirmed = false
  /-- There is no event. -/
  events : reduced.events = []
  /-- The root advances by the block. -/
  root : restingRoot packages binding previousRoot block = .ok reduced.chainedRoot

/-- A reduction that ends in the state without objects. -/
theorem bare_of_finishBlock {previousRoot : Hash} {block : BitcoinBlock} {ordered : List OrderedTransaction}
    {activation : InitActivation} {confirmed : Bool} {events : List EventRecord} {reduced : ReducedBlock}
    (h : finishBlock packages binding previousRoot block ordered activation confirmed ⟨.start ∅, events⟩ =
      .ok reduced) : Bare reduced := by
  obtain ⟨-, -, -, -, -, -, hobjects, hundo, hstates, hspent, hchapters, -⟩ := finishBlock_ok h
  exact ⟨hobjects, hundo, hstates, hspent, hchapters⟩

/-- Without events and objects only the height has to fit. -/
theorem finishBlock_resting {previousRoot : Hash} {block : BitcoinBlock} {ordered : List OrderedTransaction}
    {activation : InitActivation} {confirmed : Bool} :
    (∀ {reduced}, finishBlock packages binding previousRoot block ordered activation confirmed ⟨.start ∅, []⟩ =
      .ok reduced → restingRoot packages binding previousRoot block = .ok reduced.chainedRoot) ∧
    (block.height ≤ 0xffff_ffff_ffff_ffff →
      ∃ reduced, finishBlock packages binding previousRoot block ordered activation confirmed ⟨.start ∅, []⟩ =
        .ok reduced) := by
  constructor
  · intro reduced h
    obtain ⟨events, he, h⟩ := bind_eq_ok.mp h
    obtain ⟨states, hs, h⟩ := bind_eq_ok.mp h
    obtain ⟨root, hr, h⟩ := bind_eq_ok.mp h
    obtain rfl := pure_eq_ok.mp h
    cases he
    cases hs
    exact hr
  · intro hfits
    obtain ⟨root, hr⟩ : ∃ root, restingRoot packages binding previousRoot block = .ok root := by
      simp only [restingRoot, chainedBlockRoot, u64le, if_neg (not_lt.mpr hfits)]
      exact ⟨_, rfl⟩
    exact ⟨_, bind_eq_ok.mpr ⟨_, rfl, bind_eq_ok.mpr ⟨_, rfl, bind_eq_ok.mpr ⟨root, hr, rfl⟩⟩⟩⟩

section

variable {activation : InitActivation}

theorem heights?_failed (failed : activation.valid = false) : activation.heights? = none := by
  unfold InitActivation.heights?
  rw [failed]

/-- **After an INIT that is not valid** every block rests. -/
theorem reduceBlock_resting (failed : activation.valid = false) {previousRoot : Hash} {block : BitcoinBlock}
    {reduced : ReducedBlock}
    (h : reduceBlock packages binding (some activation) previousRoot ∅ block = .ok reduced) :
    Resting packages binding activation previousRoot block reduced := by
  obtain ⟨ordered, activated, progress, ho, ha, hp, hfin⟩ := reduceBlock_ok h
  obtain rfl := pure_eq_ok.mp ha
  unfold connectTransactions at hp
  simp only [heights?_failed failed] at hp
  obtain rfl := pure_eq_ok.mp hp
  obtain ⟨-, -, -, hactivation, hconfirmed, hevents, -⟩ := finishBlock_ok hfin
  exact ⟨bare_of_finishBlock hfin, hactivation, hconfirmed, hevents, finishBlock_resting.1 hfin⟩

/-- Such a block is always connected. -/
theorem reduceBlock_goes_on (failed : activation.valid = false) (previousRoot : Hash) {block : BitcoinBlock}
    {ordered : List OrderedTransaction} (ho : orderedBlockTransactions block = .ok ordered)
    (fits : block.height ≤ 0xffff_ffff_ffff_ffff) :
    ∃ reduced, reduceBlock packages binding (some activation) previousRoot ∅ block = .ok reduced := by
  obtain ⟨reduced, hfin⟩ := (@finishBlock_resting packages binding previousRoot block ordered activation false).2 fits
  refine ⟨reduced, bind_eq_ok.mpr ⟨ordered, ho, bind_eq_ok.mpr ⟨_, rfl, bind_eq_ok.mpr ⟨⟨.start ∅, []⟩, ?_, hfin⟩⟩⟩⟩
  unfold connectTransactions
  simp only [heights?_failed failed]
  rfl

/-- Blocks that rest one after the other, each on the root of the one before. -/
def Rest (packages : Packages) (binding : Binding) (activation : InitActivation) :
    Hash → List BitcoinBlock → List ReducedBlock → Prop
  | _, [], [] => True
  | root, block :: blocks, reduced :: rest =>
    Resting packages binding activation root block reduced ∧
      Rest packages binding activation reduced.chainedRoot blocks rest
  | _, _, _ => False

/-- **All later blocks rest**, however many there are. -/
theorem reduceChain_rest (failed : activation.valid = false) {root : Hash} {blocks : List BitcoinBlock}
    {later : List ReducedBlock} (h : reduceChain packages binding ⟨some activation, root, ∅⟩ blocks = .ok later) :
    Rest packages binding activation root blocks later := by
  induction blocks generalizing root later with
  | nil =>
    obtain rfl := pure_eq_ok.mp h
    exact trivial
  | cons block blocks ih =>
    obtain ⟨reduced, hreduced, h⟩ := bind_eq_ok.mp h
    obtain ⟨rest, hrest, h⟩ := bind_eq_ok.mp h
    obtain rfl := pure_eq_ok.mp h
    have hresting := reduceBlock_resting failed hreduced
    refine ⟨hresting, ih ?_⟩
    have hcursor : Cursor.after reduced = ⟨some activation, reduced.chainedRoot, ∅⟩ := by
      unfold Cursor.after
      rw [hresting.activation, hresting.objects]
    rwa [hcursor] at hrest

end

/-- **The block of an INIT that is not valid** has the INIT's one event. -/
theorem reduceBlock_failed (contract : ValidatorContract packages.validate) (dated : InitContract packages.validate)
    {block : BitcoinBlock} {previousRoot : Hash} {reduced : ReducedBlock}
    (h : reduceBlock packages binding none previousRoot ∅ block = .ok reduced)
    (failed : reduced.activation.valid = false) :
    Bare reduced ∧ ∃ event, reduced.events = [event] ∧ event.txid = binding.initTxid ∧
      event.validityClass = .INVALID_NO_STATE := by
  obtain ⟨ordered, activated, progress, ho, ha, hp, hfin⟩ := reduceBlock_ok h
  obtain ⟨-, -, -, hactivation, -, hevents, -⟩ := finishBlock_ok hfin
  rw [hactivation] at failed
  obtain ⟨-, -, -, -, event, -, -, htxid, -, -, -, -, ⟨-, -, hv, -⟩ | ⟨hcls, -, hprogress⟩⟩ :=
    confirmInit_bare contract dated ha
  · exact (Bool.false_ne_true (failed.symm.trans hv)).elim
  unfold connectTransactions at hp
  simp only [heights?_failed failed, hprogress] at hp
  obtain rfl := pure_eq_ok.mp hp
  exact ⟨bare_of_finishBlock hfin, event, hevents, htxid, hcls⟩

/-! ### The store after it -/

/-- The tables hold the event of an INIT that is not valid, and nothing else happens. -/
structure Dormant (binding : Binding) (activation : InitActivation) (db : Db) : Prop where
  /-- The INIT is read back. -/
  read : loadActivation db = some activation
  /-- Every event is the INIT's. -/
  events : ∀ row ∈ db.events, row.blockHeight = activation.height ∧ row.txid = binding.initTxid
  /-- There is no object. -/
  objects : db.objects = []
  /-- There is no state. -/
  states : db.states = []
  /-- There is no carrier. -/
  carriers : db.carriers = []
  /-- There is no chapter. -/
  chapters : db.chapters = []

section

variable {chain : List BitcoinBlock} {index : Index}

/-- The INIT of a replayed chain is the one its oldest block confirms. -/
theorem Replay.confirmed (h : Replay packages binding chain index) {first : BitcoinBlock}
    (oldest : chain.getLast? = some first) : ∃ reduced,
      reduceBlock packages binding none (initialStateRoot packages.sha256 binding.ns) ∅ first = .ok reduced ∧
      index.activation = some reduced.activation := by
  induction h with
  | empty => cases oldest
  | @connect chain index block reduced db replay follows reduces writes ih =>
    cases chain with
    | nil =>
      cases replay
      obtain rfl : block = first := by simpa using oldest
      exact ⟨reduced, reduces, rfl⟩
    | cons parent rest =>
      obtain ⟨confirming, hconfirming, hactivation⟩ := ih (by simpa using oldest)
      obtain ⟨hsome, -⟩ := reduceBlock_activation reduces
      exact ⟨confirming, hconfirming, congrArg some (hsome _ hactivation).2⟩

/-- A replayed chain whose INIT is not valid has no object, and the INIT's event only. -/
theorem Replay.failed (contract : ValidatorContract packages.validate) (dated : InitContract packages.validate)
    (h : Replay packages binding chain index) {activation : InitActivation} (known : index.activation = some activation)
    (failed : activation.valid = false) :
    index.objects = ∅ ∧ ∀ row ∈ index.db.events, row.blockHeight = activation.height ∧ row.txid = binding.initTxid := by
  induction h with
  | empty => cases known
  | @connect chain index block reduced db replay follows reduces writes ih =>
    obtain ⟨rfl, -⟩ := writeBlock_ok writes
    obtain rfl : reduced.activation = activation := Option.some.inj known
    obtain ⟨hsome, hnone⟩ := reduceBlock_activation reduces
    obtain ⟨_, -, hheight, -⟩ := reduceBlock_steps reduces
    cases hact : index.activation with
    | none =>
      obtain rfl := replay.loadActivation.2.mp hact
      cases replay
      obtain ⟨hbare, event, hevents, htxid, -⟩ := reduceBlock_failed contract dated reduces failed
      refine ⟨hbare.objects, fun row hrow => ?_⟩
      change row ∈ [] ++ reduced.events.map (eventRow reduced.height) at hrow
      rw [hevents, List.nil_append, List.map_singleton, List.mem_singleton] at hrow
      subst hrow
      exact ⟨hheight.trans (hnone rfl).2.1.symm, htxid⟩
    | some before =>
      obtain ⟨-, hsame⟩ := hsome before hact
      obtain ⟨hobjects, hevents⟩ := ih (hact.trans (congrArg some hsame.symm))
      have hreduces : reduceBlock packages binding (some reduced.activation) index.root ∅ block = .ok reduced := by
        rw [← hobjects, hsame, ← hact]
        exact reduces
      have hresting := reduceBlock_resting failed hreduces
      refine ⟨hresting.objects, fun row hrow => ?_⟩
      change row ∈ index.db.events ++ reduced.events.map (eventRow reduced.height) at hrow
      rw [hresting.events, List.map_nil, List.append_nil] at hrow
      exact hevents row hrow

/-- The database of an object map without objects has no rows of objects, states, carriers and chapters. -/
theorem Mirrors.bare {db : Db} (m : Mirrors packages binding ∅ db) :
    db.objects = [] ∧ db.states = [] ∧ db.carriers = [] ∧ db.chapters = [] := by
  have hobjects : db.objects = [] := by
    refine List.eq_nil_iff_forall_not_mem.mpr fun row hrow => ?_
    obtain ⟨k, r, hr, -⟩ := (m.rows row).mp hrow
    simp at hr
  have hstates : db.states = [] := by
    refine List.eq_nil_iff_forall_not_mem.mpr fun row hrow => ?_
    obtain ⟨r, hr⟩ := m.statesOwned row hrow
    simp at hr
  have hchapters : db.chapters = [] := by
    refine List.eq_nil_iff_forall_not_mem.mpr fun row hrow => ?_
    obtain ⟨r, hr⟩ := m.chaptersOwned row hrow
    simp at hr
  exact ⟨hobjects, hstates, by rw [m.carriers, hstates, List.map_nil], hchapters⟩

end

/-- The INIT that a block confirms does not depend on the root it starts from. -/
theorem reduceBlock_confirms_same {block : BitcoinBlock} {root root' : Hash} {reduced reduced' : ReducedBlock}
    (h : reduceBlock packages binding none root ∅ block = .ok reduced)
    (h' : reduceBlock packages binding none root' ∅ block = .ok reduced') :
    reduced.activation = reduced'.activation := by
  obtain ⟨ordered, activated, progress, ho, ha, -, hfin⟩ := reduceBlock_ok h
  obtain ⟨ordered', activated', progress', ho', ha', -, hfin'⟩ := reduceBlock_ok h'
  obtain rfl : ordered = ordered' := Except.ok.inj (ho.symm.trans ho')
  obtain rfl : activated = activated' := Except.ok.inj (ha.symm.trans ha')
  obtain ⟨-, -, -, hactivation, -⟩ := finishBlock_ok hfin
  obtain ⟨-, -, -, hactivation', -⟩ := finishBlock_ok hfin'
  exact hactivation.trans hactivation'.symm

/-- **A store is dormant** as long as the block of an INIT that is not valid is its oldest. -/
theorem Stored.dormant (contract : ValidatorContract packages.validate) (dated : InitContract packages.validate)
    {history : History} {db : Db} (stored : Stored packages binding history db) {block : BitcoinBlock}
    (oldest : history.blocks.getLast? = some block) {root : Hash} {reduced : ReducedBlock}
    (h : reduceBlock packages binding none root ∅ block = .ok reduced) (failed : reduced.activation.valid = false) :
    Dormant binding reduced.activation db := by
  obtain ⟨index, replay, htab⟩ := stored.recorded.1
  obtain ⟨confirming, hconfirming, hactivation⟩ := replay.confirmed oldest
  rw [reduceBlock_confirms_same hconfirming h] at hactivation
  obtain ⟨hobjects, hevents⟩ := replay.failed contract dated hactivation failed
  have hrows := Mirrors.bare (hobjects ▸ replay.mirrors)
  have hload := (loadActivation_tables htab).symm.trans (replay.loadActivation.1.trans hactivation)
  rw [tables_eq_iff.mp htab]
  rw [tables_eq_iff.mp htab] at hload
  exact ⟨hload, hevents, hrows.1, hrows.2.1, hrows.2.2.1, hrows.2.2.2⟩

theorem Stored.unactivated {db : Db} (stored : Stored packages binding [] db) : loadActivation db = none := by
  obtain ⟨index, replay, htab⟩ := stored.recorded.1
  rw [← loadActivation_tables htab, replay.loadActivation.1]
  exact replay.loadActivation.2.mpr rfl

/-! ### The first look leaves no trace -/

/-- What follows from whether the INIT of the block is valid. -/
structure InitSettled (packages : Packages) (binding : Binding) (previousRoot : Hash) (block : BitcoinBlock)
    (reduced : ReducedBlock) : Prop where
  /-- A valid INIT: everything is as with the activation supplied. -/
  supplied : reduced.activation.valid = true →
    reduceBlock packages binding (some reduced.activation) previousRoot ∅ block =
      .ok { reduced with initConfirmed := false }
  /-- Its one event is at its own place. -/
  placed : reduced.activation.valid = true → Placed binding block reduced.events
  /-- An INIT that is not valid has its event, and nothing comes of it. -/
  failed : reduced.activation.valid = false → Bare reduced ∧ ∃ event, reduced.events = [event] ∧
    event.txid = binding.initTxid ∧ event.validityClass = .INVALID_NO_STATE
  /-- Later blocks rest. -/
  later : reduced.activation.valid = false → ∀ blocks later,
    reduceChain packages binding (.after reduced) blocks = .ok later →
    Rest packages binding reduced.activation reduced.chainedRoot blocks later
  /-- Each of them is connected. -/
  goesOn : reduced.activation.valid = false → ∀ root later ordered, orderedBlockTransactions later = .ok ordered →
    later.height ≤ 0xffff_ffff_ffff_ffff →
    ∃ resting, reduceBlock packages binding (some reduced.activation) root ∅ later = .ok resting
  /-- So does every store, over any appends and rollbacks that leave the block. -/
  stored : reduced.activation.valid = false → ∀ history db, Stored packages binding history db →
    history.blocks.getLast? = some block → Dormant binding reduced.activation db
  /-- A rollback of the block removes the INIT. -/
  removed : ∀ db, Stored packages binding [] db → loadActivation db = none

/-- **The provisional classification of the INIT leaves no trace.** -/
theorem init_settled (contract : ValidatorContract packages.validate) (dated : InitContract packages.validate)
    {block : BitcoinBlock} (rendered : ∀ tx ∈ block.transactions, tx.txid = binding.initTxid → Rendered tx)
    {previousRoot : Hash} {reduced : ReducedBlock}
    (h : reduceBlock packages binding none previousRoot ∅ block = .ok reduced) :
    InitSettled packages binding previousRoot block reduced where
  supplied valid := (reduceBlock_again contract dated rendered h valid).1
  placed valid := (reduceBlock_again contract dated rendered h valid).2
  failed failed := reduceBlock_failed contract dated h failed
  later failed blocks later hchain := by
    have hbare := (reduceBlock_failed contract dated h failed).1
    rw [show Cursor.after reduced = ⟨some reduced.activation, reduced.chainedRoot, ∅⟩ by
      unfold Cursor.after
      rw [hbare.objects]] at hchain
    exact reduceChain_rest failed hchain
  goesOn failed root later ordered ho fits := reduceBlock_goes_on failed root ho fits
  stored failed history db stored oldest := stored.dormant contract dated oldest h failed
  removed db stored := stored.unactivated

/-! ### Blocks to evaluate -/

/-- Checks that accept an INIT whose window opens later and a CREATE inside the window, when they spend no carrier. -/
def datedChecks : Checks := { openChecks with
  checkInit := fun marker transaction context index => match marker with
    | .init _ openHeight _ _ _ _ =>
      if transaction.height < openHeight then openChecks.checkCreate transaction context index
      else .BAD_MARKER_ENCODING_OR_LENGTH
    | _ => .BAD_MARKER_ENCODING_OR_LENGTH
  checkCreate := fun transaction context index =>
    if context.init.openHeight ≤ transaction.height then openChecks.checkCreate transaction context index
    else .BAD_MARKER_ENCODING_OR_LENGTH }

/-- The dispatch over them. -/
def datedPackages : Packages := { openPackages with validate := validateTandemTransaction datedChecks }

theorem datedChecks_sound : ChecksSound datedChecks where
  init marker transaction context index h := by
    simp only [datedChecks] at h
    split at h
    · split_ifs at h
      exact openChecks_sound.create transaction context index h
    · cases h
  create transaction context index h := by
    simp only [datedChecks] at h
    split_ifs at h
    exact openChecks_sound.create transaction context index h
  mark _ _ _ _ _ _ _ _ h := by cases h
  rotate _ _ _ _ _ _ h := by cases h
  close _ _ _ _ _ _ _ _ h := by cases h

theorem datedChecks_dated : ChecksDated datedChecks where
  init h := by
    simp only [datedChecks] at h
    split_ifs at h with hlater
    exact hlater
  create h := by
    simp only [datedChecks] at h
    split_ifs at h with hopen
    exact hopen

/-- The block of the INIT, with a CREATE that comes too early. -/
def earlyBlock : BitcoinBlock := { windowBlock with
  transactions := windowBlock.transactions ++ [createTransaction (sampleHash 11) (sampleHash 9)] }

theorem rendered_sample : ∀ tx ∈ earlyBlock.transactions, tx.txid = sampleBinding.initTxid → Rendered tx := by
  have hlower : ∀ tx ∈ earlyBlock.transactions, tx.txid = sampleBinding.initTxid → ∀ output ∈ tx.outputs,
      (output.scriptPubKeyHex.toList.all fun c => hexDigits.contains c) = true := by decide +kernel
  have hnumbered : ∀ tx ∈ earlyBlock.transactions, (tx.outputs.map BitcoinOutput.n).Nodup := by decide +kernel
  refine fun tx ht hid => ⟨fun output ho c hc => ?_, hnumbered tx ht⟩
  simpa using List.all_eq_true.mp (hlower tx ht hid output ho) c hc

/-- The INIT is valid, and the CREATE is not an operation. -/
theorem init_settled_sample : ∃ reduced,
    reduceBlock datedPackages sampleBinding none Hash.zero ∅ earlyBlock = .ok reduced ∧
      reduced.activation.valid = true ∧ reduced.events.length = 2 ∧
      InitSettled datedPackages sampleBinding Hash.zero earlyBlock reduced := by
  have hdone : (reduceBlock datedPackages sampleBinding none Hash.zero ∅ earlyBlock).toOption.map
      (fun reduced => (reduced.activation.valid, reduced.events.length)) = some (true, 2) := by decide +kernel
  obtain ⟨reduced, hreduced, hend⟩ := Option.map_eq_some_iff.mp hdone
  have hok : reduceBlock datedPackages sampleBinding none Hash.zero ∅ earlyBlock = .ok reduced := by
    cases hr : reduceBlock datedPackages sampleBinding none Hash.zero ∅ earlyBlock with
    | error e =>
      rw [hr] at hreduced
      cases hreduced
    | ok other =>
      rw [hr] at hreduced
      rw [Option.some.inj hreduced]
  obtain ⟨hvalid, hlength⟩ := Prod.mk.inj hend
  exact ⟨reduced, hok, hvalid, hlength, init_settled (validateTandemTransaction_contract datedChecks_sound)
    (validateTandemTransaction_dated datedChecks_dated) rendered_sample hok⟩

end IndexTandem.Indexer
