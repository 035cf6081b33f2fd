import IndexTandem.Indexer.Steps

/-!
# The order of events

A transaction's events carry its position in the block and are numbered one after the
other, and the transactions are gone through in the order of their positions. So the
events of a block are emitted in the order of their positions, and each belongs to a
transaction that is stored with it (`reduceBlock_events`).
-/

namespace IndexTandem.Indexer

open Library Protocol

variable {packages : Packages} {binding : Binding}

/-- The position of an event is before that of another: `(txIndex, eventIndex, subIndex)` in this order. -/
def EventBase.Before (e e' : EventBase) : Prop :=
  e.txIndex < e'.txIndex ∨ e.txIndex = e'.txIndex ∧
    (e.eventIndex < e'.eventIndex ∨ e.eventIndex = e'.eventIndex ∧ e.subIndex < e'.subIndex)

/-- Events in order. -/
def InOrder (events : List EventRecord) : Prop :=
  events.Pairwise fun e e' => e.toEventBase.Before e'.toEventBase

theorem EventBase.Before.position_ne {e e' : EventBase} (h : e.Before e') :
    (e.txIndex, e.eventIndex, e.subIndex) ≠ (e'.txIndex, e'.eventIndex, e'.subIndex) := by
  unfold EventBase.Before at h
  intro he
  simp only [Prod.mk.injEq] at he
  omega

section

variable {activation : InitHeights} {transaction : BitcoinTransaction} {txIndex height : ℕ} {marker : Option Marker}
  {candidates : List Candidate}

theorem applyValid_base {state state' : WorkingState} {event : TransactionValidationEvent} {base : EventBase}
    {record : EventRecord}
    (h : applyValid packages binding activation state transaction height event marker base = .ok (state', record)) :
    record.toEventBase = base := by
  unfold applyValid at h
  dsimp only at h
  split at h
  · cases h
    rfl
  · cases h
    rfl
  · obtain ⟨key, -, h⟩ := bind_eq_ok.mp h
    obtain ⟨r, -, h⟩ := bind_eq_ok.mp h
    cases h
    rfl
  iterate 3
    · obtain ⟨key, -, h⟩ := bind_eq_ok.mp h
      obtain ⟨r, -, h⟩ := bind_eq_ok.mp h
      obtain ⟨sequence, -, h⟩ := bind_eq_ok.mp h
      split at h <;> cases h <;> rfl
  · cases h
  · cases h

theorem applyEvent_base {state state' : WorkingState} {event : TransactionValidationEvent} {base : EventBase}
    {record : EventRecord}
    (h : applyEvent packages binding activation transaction height marker candidates state event base =
      .ok (state', record)) : record.toEventBase = base := by
  unfold applyEvent at h
  split at h
  · exact applyValid_base h
  · obtain ⟨key, -, h⟩ := bind_eq_ok.mp h
    obtain ⟨r, -, h⟩ := bind_eq_ok.mp h
    cases h
    rfl
  · cases h
    rfl

/-- The events of a verdict are numbered one after the other. -/
theorem applyEntries_base {entries : List (TransactionValidationEvent × ℕ)} {before progress : Progress}
    (h : entries.foldlM (applyEntry packages binding activation transaction txIndex height marker candidates) before =
      .ok progress) : progress.events.map EventRecord.toEventBase = before.events.map EventRecord.toEventBase ++
        entries.map fun entry => eventBase transaction txIndex candidates entry.1 entry.2 := by
  induction entries generalizing before with
  | nil =>
    obtain rfl := pure_eq_ok.mp h
    simp
  | cons entry entries ih =>
    obtain ⟨next, hnext, h⟩ := bind_eq_ok.mp h
    obtain ⟨done, hd, hnext⟩ := bind_eq_ok.mp hnext
    obtain rfl := pure_eq_ok.mp hnext
    have hbase : done.2.toEventBase = _ := applyEvent_base hd
    rw [ih h]
    simp [hbase]

end

/-- The events of a transaction are in order, and carry its txid and position. -/
theorem classifyTransaction_events {activation : InitHeights} {state : WorkingState}
    {transaction : BitcoinTransaction} {txIndex height : ℕ} {progress : Progress}
    (h : classifyTransaction packages binding activation state transaction txIndex height = .ok progress) :
    InOrder progress.events ∧ ∀ e ∈ progress.events, e.txid = transaction.txid ∧ e.txIndex = txIndex := by
  obtain ⟨_, _, _, result, _, _, _, _, ⟨-, rfl⟩ | ⟨-, -, candidates, -, h⟩⟩ := classifyTransaction_ok h
  · exact ⟨List.Pairwise.nil, by simp⟩
  have hbases := applyEntries_base h
  rw [List.map_nil, List.nil_append] at hbases
  refine ⟨?_, fun e he => ?_⟩
  · have hnumbers : result.events.zipIdx.Pairwise fun p q => p.2 < q.2 := by
      rw [← List.pairwise_map (f := Prod.snd), List.zipIdx_map_snd]
      exact List.pairwise_lt_range'
    have horder : (progress.events.map EventRecord.toEventBase).Pairwise EventBase.Before := by
      rw [hbases, List.pairwise_map]
      exact hnumbers.imp fun hlt => .inr ⟨rfl, .inr ⟨rfl, hlt⟩⟩
    exact List.pairwise_map.mp horder
  · have hm : e.toEventBase ∈ progress.events.map EventRecord.toEventBase := List.mem_map_of_mem he
    rw [hbases] at hm
    obtain ⟨entry, -, heq⟩ := List.mem_map.mp hm
    rw [← heq]
    exact ⟨rfl, rfl⟩

/-- The transactions that `orderedBlockTransactions` numbers are in the order of their numbers. -/
theorem ordered_pairwise {block : BitcoinBlock} {ordered : List OrderedTransaction}
    (h : orderedBlockTransactions block = .ok ordered) : ordered.Pairwise fun a b => a.txIndex < b.txIndex := by
  rw [← List.pairwise_map (f := OrderedTransaction.txIndex), (orderFrom_ok h).2.1]
  exact List.pairwise_lt_range'

/-- A turn of the loop appends the events of its transaction. -/
theorem connectTransaction_events {heights : InitHeights} {height : ℕ} {entry : OrderedTransaction}
    {progress progress' : Progress}
    (h : connectTransaction packages binding heights height progress entry = .ok progress') :
    ∃ events, progress'.events = progress.events ++ events ∧ InOrder events ∧
      ∀ e ∈ events, e.txid = entry.transaction.txid ∧ e.txIndex = entry.txIndex := by
  unfold connectTransaction at h
  split_ifs at h
  · obtain ⟨classified, hc, h⟩ := bind_eq_ok.mp h
    obtain rfl := pure_eq_ok.mp h
    exact ⟨_, rfl, classifyTransaction_events hc⟩
  · obtain rfl := pure_eq_ok.mp h
    exact ⟨[], (List.append_nil _).symm, List.Pairwise.nil, by simp⟩

theorem connect_inOrder {heights : InitHeights} {height : ℕ} {ordered : List OrderedTransaction}
    (sorted : ordered.Pairwise fun a b => a.txIndex < b.txIndex) {progress progress' : Progress}
    (inOrder : InOrder progress.events) (behind : ∀ e ∈ progress.events, ∀ entry ∈ ordered, e.txIndex < entry.txIndex)
    (h : ordered.foldlM (connectTransaction packages binding heights height) progress = .ok progress') :
    InOrder progress'.events ∧ ∀ e ∈ progress'.events, e ∈ progress.events ∨
      ∃ entry ∈ ordered, e.txid = entry.transaction.txid := by
  induction ordered generalizing progress with
  | nil =>
    obtain rfl := pure_eq_ok.mp h
    exact ⟨inOrder, fun e he => .inl he⟩
  | cons entry ordered ih =>
    obtain ⟨next, hnext, h⟩ := bind_eq_ok.mp h
    obtain ⟨events, happ, hevents, hof⟩ := connectTransaction_events hnext
    obtain ⟨hfirst, hsorted⟩ := List.pairwise_cons.mp sorted
    have hin : InOrder next.events := by
      unfold InOrder
      rw [happ, List.pairwise_append]
      refine ⟨inOrder, hevents, fun e he e' he' => .inl ?_⟩
      rw [(hof e' he').2]
      exact behind e he entry List.mem_cons_self
    have hbehind : ∀ e ∈ next.events, ∀ later ∈ ordered, e.txIndex < later.txIndex := by
      intro e he later hlater
      rw [happ] at he
      rcases List.mem_append.mp he with he | he
      · exact behind e he later (List.mem_cons_of_mem _ hlater)
      · rw [(hof e he).2]
        exact hfirst later hlater
    obtain ⟨h₁, h₂⟩ := ih hsorted hin hbehind h
    refine ⟨h₁, fun e he => ?_⟩
    rcases h₂ e he with he | ⟨later, hlater, hid⟩
    · rw [happ] at he
      rcases List.mem_append.mp he with he | he
      · exact .inl he
      · exact .inr ⟨entry, List.mem_cons_self, (hof e he).1⟩
    · exact .inr ⟨later, List.mem_cons_of_mem _ hlater, hid⟩

/-- What the events and the transactions of a reduced block look like. -/
structure Emitted (block : BitcoinBlock) (reduced : ReducedBlock) : Prop where
  /-- The events are in order. -/
  inOrder : InOrder reduced.events
  /-- Every event has its transaction. -/
  told : ∀ e ∈ reduced.events, ∃ tx ∈ reduced.transactions, tx.txid = e.txid
  /-- The transactions are transactions of the block. -/
  part : ∀ tx ∈ reduced.transactions, tx.txid ∈ block.transactions.map BitcoinTransaction.txid
  /-- They have different txids and positions. -/
  apart : reduced.transactions.Pairwise fun tx tx' => tx.txid ≠ tx'.txid ∧ tx.txIndex ≠ tx'.txIndex

/-- **The events of a block are emitted in order**, each with its transaction. -/
theorem reduceBlock_events {activation : Option InitActivation} {previousRoot : Hash}
    {objects : JsMap Hash ObjectRecord} {block : BitcoinBlock} {reduced : ReducedBlock}
    (h : reduceBlock packages binding activation previousRoot objects block = .ok reduced) : Emitted block reduced := by
  obtain ⟨ordered, activated, progress, ho, ha, hp, hfin⟩ := reduceBlock_ok h
  obtain ⟨-, -, -, -, -, hevents, -, -, -, -, -, -, -, -, htransactions⟩ := finishBlock_ok hfin
  have hsorted := ordered_pairwise ho
  -- The events from before the loop: those of an INIT that is not valid.
  have hfirst : activated.progress.events = [] ∨ activated.activation.heights? = none ∧
      InOrder activated.progress.events ∧ ∃ init ∈ ordered,
        ∀ e ∈ activated.progress.events, e.txid = init.transaction.txid := by
    cases activation with
    | some a =>
      obtain rfl := pure_eq_ok.mp ha
      exact .inl rfl
    | none =>
      obtain ⟨init, hi, -, _, classified, -, hc, -, -, -, -, -, -, -, hev⟩ := confirmInit_ok ha
      by_cases hv : activated.activation.valid = true
      · rw [if_pos hv] at hev
        exact .inl hev
      · rw [if_neg hv] at hev
        obtain ⟨hin, hof⟩ := classifyTransaction_events hc
        refine .inr ⟨?_, hev ▸ hin, init, hi, fun e he => (hof e (hev ▸ he)).1⟩
        unfold InitActivation.heights?
        rw [Bool.eq_false_iff.mpr hv]
  have hall : InOrder progress.events ∧ ∀ e ∈ progress.events, ∃ entry ∈ ordered, e.txid = entry.transaction.txid := by
    unfold connectTransactions at hp
    rcases hfirst with hnil | ⟨hnone, hin, init, hi, hof⟩
    · cases hheights : activated.activation.heights? with
      | none =>
        simp only [hheights] at hp
        obtain rfl := pure_eq_ok.mp hp
        rw [hnil]
        exact ⟨List.Pairwise.nil, by simp⟩
      | some heights =>
        simp only [hheights] at hp
        have hloop := connect_inOrder hsorted (hnil ▸ List.Pairwise.nil) (by simp [hnil]) hp
        simpa [hnil] using hloop
    · simp only [hnone] at hp
      obtain rfl := pure_eq_ok.mp hp
      exact ⟨hin, fun e he => ⟨init, hi, hof e he⟩⟩
  have hids : (ordered.map fun entry => entry.transaction.txid) = block.transactions.map BitcoinTransaction.txid := by
    rw [← (orderFrom_ok ho).1, List.map_map]
    rfl
  have hnodup : (ordered.map fun entry => entry.transaction.txid).Nodup := hids ▸ (orderFrom_ok ho).2.2.1
  refine ⟨hevents ▸ hall.1, fun e he => ?_, fun tx htx => ?_, ?_⟩
  · rw [hevents] at he
    obtain ⟨entry, hentry, hid⟩ := hall.2 e he
    rw [htransactions]
    refine ⟨_, List.mem_map_of_mem (List.mem_filter.mpr ⟨hentry, ?_⟩), hid.symm⟩
    exact List.any_eq_true.mpr ⟨e, he, by simpa using hid⟩
  · rw [htransactions] at htx
    obtain ⟨entry, hentry, rfl⟩ := List.mem_map.mp htx
    rw [← hids]
    exact List.mem_map_of_mem (List.mem_filter.mp hentry).1
  · rw [htransactions, List.pairwise_map]
    have hpair : ordered.Pairwise fun a b => a.transaction.txid ≠ b.transaction.txid ∧ a.txIndex ≠ b.txIndex :=
      (List.pairwise_map.mp hnodup).and (hsorted.imp Nat.ne_of_lt)
    exact hpair.filter _

end IndexTandem.Indexer
