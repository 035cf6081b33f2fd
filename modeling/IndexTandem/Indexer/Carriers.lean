import IndexTandem.Indexer.Effects

/-!
# Carriers and their spends

A carrier that a transaction of the block spends is gone after it: its object has moved to
the transaction's own carrier, or has ended and stays as it is. Objects none of whose
carriers is spent keep their records, and none disappears (`carriers_spent`).

A block may name a carrier before it exists: a transaction that spends `t:1` and comes
before `t` in the block spends nothing. Bitcoin has no such blocks; where the order of the
transactions is not assumed, the new carrier does outlive that input
(`spend_ahead_outlives`).
-/

namespace IndexTandem.Indexer

open Library Protocol

variable {packages : Packages} {binding : Binding} {heights : InitHeights} {height : ℕ}

/-! ### Records over several transactions -/

section

variable {txs : List BitcoinTransaction} {w w' : WorkingState} {tolds : List Told}

theorem Effects.inactive (h : Effects packages binding heights height txs w w' tolds) (live : Live w)
    (unused : Unused packages binding w (txs.map BitcoinTransaction.txid)) {k : Hash} {r : ObjectRecord}
    (hr : w.objects.get? k = some r) (finished : r.status ≠ .active) : w'.objects.get? k = some r := by
  induction h with
  | nil => exact hr
  | @cons transaction rest w w₁ w₂ tolds later first _ ih =>
    have hspent : k ∉ consumedKeys w transaction := fun hm => by
      obtain ⟨_, _, r', hr', ha, -⟩ := live.active hm
      exact finished (Option.some.inj (hr.symm.trans hr') ▸ ha)
    refine ih (live.effect unused first) (unused.effect live first) ?_
    cases first.fate live unused k with
    | kept _ same => exact same.trans hr
    | born unborn => exact (not_none_of_some hr unborn).elim
    | moved spent => exact absurd spent hspent
    | ended spent => exact absurd spent hspent

/-- No object disappears. -/
theorem Effects.persists (h : Effects packages binding heights height txs w w' tolds) (live : Live w)
    (unused : Unused packages binding w (txs.map BitcoinTransaction.txid)) {k : Hash} {r : ObjectRecord}
    (hr : w.objects.get? k = some r) : ∃ r', w'.objects.get? k = some r' := by
  induction h generalizing r with
  | nil => exact ⟨r, hr⟩
  | @cons transaction rest w w₁ w₂ tolds later first _ ih =>
    have hnext : ∃ r₁, w₁.objects.get? k = some r₁ := by
      cases first.fate live unused k with
      | kept _ same => exact ⟨r, same.trans hr⟩
      | born _ _ made => exact ⟨_, made⟩
      | moved _ _ made => exact ⟨_, made⟩
      | ended _ _ _ _ made => exact ⟨_, made⟩
    obtain ⟨r₁, hr₁⟩ := hnext
    exact ih (live.effect unused first) (unused.effect live first) hr₁

/-- An active record whose carrier is not spent stays as it is. -/
theorem Effects.unspent (h : Effects packages binding heights height txs w w' tolds) (live : Live w)
    (unused : Unused packages binding w (txs.map BitcoinTransaction.txid)) {k : Hash} {r : ObjectRecord}
    (hr : w.objects.get? k = some r) (unspent : ∀ o, r.currentOutpoint = some o → ∀ tx ∈ txs, o ∉ tx.spends) :
    w'.objects.get? k = some r := by
  induction h with
  | nil => exact hr
  | @cons transaction rest w w₁ w₂ tolds later first _ ih =>
    have hspent : k ∉ consumedKeys w transaction := fun hm => by
      obtain ⟨o, ho, r', hr', -, hro⟩ := live.active hm
      obtain rfl := Option.some.inj (hr.symm.trans hr')
      exact unspent o hro transaction List.mem_cons_self ho
    refine ih (live.effect unused first) (unused.effect live first) ?_ fun o ho tx ht =>
      unspent o ho tx (List.mem_cons_of_mem _ ht)
    cases first.fate live unused k with
    | kept _ same => exact same.trans hr
    | born unborn => exact (not_none_of_some hr unborn).elim
    | moved spent => exact absurd spent hspent
    | ended spent => exact absurd spent hspent

/-- The carrier of a record that is active at the end is not spent, or it was created by a transaction and is not
spent after it. -/
theorem Effects.carrier (h : Effects packages binding heights height txs w w' tolds) (live : Live w)
    (unused : Unused packages binding w (txs.map BitcoinTransaction.txid)) {k : Hash} {r : ObjectRecord}
    (hr : w'.objects.get? k = some r) (active : r.status = .active) {o : Outpoint} (ho : r.currentOutpoint = some o) :
    w.objects.get? k = some r ∧ (∀ tx ∈ txs, o ∉ tx.spends) ∨
      ∃ before tx after, txs = before ++ tx :: after ∧ o = successorOf tx.txid ∧ ∀ u ∈ after, o ∉ u.spends := by
  induction h with
  | nil => exact .inl ⟨hr, fun tx ht => absurd ht List.not_mem_nil⟩
  | @cons transaction rest w w₁ w₂ tolds later first _ ih =>
    rcases ih (live.effect unused first) (unused.effect live first) hr with ⟨hr₁, hrest⟩ | ⟨before, tx, after, rfl, h⟩
    · have hborn (he : o = successorOf transaction.txid) : ∃ before tx after,
          transaction :: rest = before ++ tx :: after ∧ o = successorOf tx.txid ∧ ∀ u ∈ after, o ∉ u.spends :=
        ⟨[], transaction, rest, rfl, he, hrest⟩
      cases first.fate live unused k with
      | kept unspent same =>
        have hr₀ := same.symm.trans hr₁
        refine .inl ⟨hr₀, fun tx ht => ?_⟩
        rcases List.mem_cons.mp ht with rfl | ht
        · exact fun hs => unspent (List.mem_filterMap.mpr ⟨o, hs, (live.index o k).mpr ⟨r, hr₀, active, ho⟩⟩)
        · exact hrest tx ht
      | born _ _ made =>
        obtain rfl := Option.some.inj (made.symm.trans hr₁)
        exact .inr (hborn (Option.some.inj ho).symm)
      | moved _ _ made =>
        obtain rfl := Option.some.inj (made.symm.trans hr₁)
        exact .inr (hborn (Option.some.inj ho).symm)
      | ended _ _ finished _ made =>
        obtain rfl := Option.some.inj (made.symm.trans hr₁)
        exact absurd active finished
    · exact .inr ⟨transaction :: before, tx, after, rfl, h⟩

end

/-! ### A block -/

/-- The objects before a block, and the block: every record is under its key, active records have different
carriers, the block's transactions would create neither an object nor a carrier that is there, and the configured
INIT, which was found valid, has a marker. -/
structure Connectable (packages : Packages) (binding : Binding) (objects : JsMap Hash ObjectRecord)
    (block : BitcoinBlock) : Prop where
  /-- Every record is under its key. -/
  named : Named objects
  /-- Active records have different carriers. -/
  distinct : DistinctActive objects
  /-- What the transactions would create is new. -/
  unused : Unused packages binding (.start objects) (block.transactions.map BitcoinTransaction.txid)
  /-- The INIT has a marker. -/
  marked : ∀ tx ∈ block.transactions, InitMarked packages binding block.height tx

theorem Connectable.of_same {m n : JsMap Hash ObjectRecord} {block : BitcoinBlock}
    (h : Connectable packages binding m block) (s : JsMap.Same m n) : Connectable packages binding n block where
  named := h.named.of_same s
  distinct := h.distinct.of_same s
  unused := ⟨fun txid ht => (s _).symm.trans (h.unused.keys txid ht),
    fun txid ht k r hr => h.unused.outpoints txid ht k r ((s k).trans hr), h.unused.distinct, h.unused.apart⟩
  marked := h.marked

theorem mem_ordered {block : BitcoinBlock} {ordered : List OrderedTransaction}
    (ho : orderedBlockTransactions block = .ok ordered) {entry : OrderedTransaction} (he : entry ∈ ordered) :
    entry.transaction ∈ block.transactions :=
  (orderFrom_ok ho).1 ▸ List.mem_map_of_mem he

/-- What holds of the block's transactions holds of them in order. -/
theorem Connectable.ordered {objects : JsMap Hash ObjectRecord} {block : BitcoinBlock}
    (h : Connectable packages binding objects block) {ordered : List OrderedTransaction}
    (ho : orderedBlockTransactions block = .ok ordered) :
    Unused packages binding (.start objects) (ordered.map fun entry => entry.transaction.txid) ∧
      ∀ entry ∈ ordered, InitMarked packages binding block.height entry.transaction := by
  have hids : ordered.map (fun entry => entry.transaction.txid) = block.transactions.map BitcoinTransaction.txid := by
    rw [← (orderFrom_ok ho).1, List.map_map]
    rfl
  exact ⟨hids ▸ h.unused, fun entry he => h.marked _ (mem_ordered ho he)⟩

/-- A block reduced with a valid activation goes through its transactions. -/
theorem reduceBlock_loop {activation : InitActivation} (valid : activation.heights? = some heights)
    {previousRoot : Hash} {objects : JsMap Hash ObjectRecord} {block : BitcoinBlock} {reduced : ReducedBlock}
    (h : reduceBlock packages binding (some activation) previousRoot objects block = .ok reduced) :
    ∃ ordered last, orderedBlockTransactions block = .ok ordered ∧
      ordered.foldlM (connectTransaction packages binding heights block.height) ⟨.start objects, []⟩ = .ok last ∧
      finishBlock packages binding previousRoot block ordered activation false last = .ok reduced := by
  obtain ⟨ordered, activated, progress, ho, ha, hp, hfin⟩ := reduceBlock_ok h
  obtain rfl := pure_eq_ok.mp ha
  simp only [connectTransactions, valid] at hp
  exact ⟨ordered, progress, ho, hp, hfin⟩

/-- The object has moved to the transaction's carrier. -/
structure MovedOn (txid : Hash) (before after : ObjectRecord) : Prop where
  /-- It is active. -/
  active : after.status = .active
  /-- Its carrier is the transaction's. -/
  outpoint : after.currentOutpoint = some (successorOf txid)
  /-- Its sequence is the next. -/
  sequence : after.stateSequence = before.stateSequence + 1

/-- The object was ended by the transaction. -/
structure Ended (txid : Hash) (after : ObjectRecord) : Prop where
  /-- It is not active. -/
  finished : after.status ≠ .active
  /-- The transaction ended it. -/
  terminal : after.terminalTxid = some txid
  /-- It has no carrier. -/
  outpoint : after.currentOutpoint = none
  /-- Nor a height of one. -/
  height : after.currentHeight = none

/-- No transaction of the list spends the carrier that it or a later one would create. -/
def NoSpendAhead (txs : List BitcoinTransaction) : Prop :=
  ∀ before tx after, txs = before ++ tx :: after → ∀ u ∈ before ++ [tx], successorOf tx.txid ∉ u.spends

/-- What connecting a block does to carriers. -/
structure CarriersSpent (packages : Packages) (binding : Binding) (heights : InitHeights)
    (objects : JsMap Hash ObjectRecord) (block : BitcoinBlock) (ordered : List OrderedTransaction)
    (reduced : ReducedBlock) : Prop where
  /-- The states before and after each transaction: an object whose carrier it spends moves on or ends, and an
  ended one stays as it is to the end of the block. -/
  spent : ∀ before entry after, ordered = before ++ entry :: after → ∃ p p' : Progress,
    before.foldlM (connectTransaction packages binding heights block.height) ⟨.start objects, []⟩ = .ok p ∧
    connectTransaction packages binding heights block.height p entry = .ok p' ∧
    (∀ o ∈ entry.transaction.spends, ∀ k r, p.state.objects.get? k = some r → r.status = .active →
      r.currentOutpoint = some o → ∃ r', p'.state.objects.get? k = some r' ∧
        (MovedOn entry.transaction.txid r r' ∨ Ended entry.transaction.txid r')) ∧
    (∀ k r, p'.state.objects.get? k = some r → r.status ≠ .active →
      (∀ mid rest p'', after = mid ++ rest →
        mid.foldlM (connectTransaction packages binding heights block.height) p' = .ok p'' →
        p''.state.objects.get? k = some r) ∧ reduced.objects.get? k = some r)
  /-- An object none of whose carriers is spent in the block keeps its record. -/
  unspent : ∀ k r, objects.get? k = some r →
    (r.status = .active → ∀ o, r.currentOutpoint = some o → ∀ tx ∈ block.transactions, o ∉ tx.spends) →
    reduced.objects.get? k = some r
  /-- No object disappears. -/
  persists : ∀ k r, objects.get? k = some r → ∃ r', reduced.objects.get? k = some r'
  /-- A carrier that is left is not spent in the block, when the block spends no carrier ahead. -/
  outlives : NoSpendAhead block.transactions → ∀ k r o, reduced.objects.get? k = some r → r.status = .active →
    r.currentOutpoint = some o → ∀ tx ∈ block.transactions, o ∉ tx.spends

/-- **No carrier outlives its spend, and nothing else moves.** -/
theorem carriers_spent (contract : ValidatorContract packages.validate) {activation : InitActivation}
    (valid : activation.heights? = some heights) {previousRoot : Hash} {objects : JsMap Hash ObjectRecord}
    {block : BitcoinBlock} (input : Connectable packages binding objects block) {reduced : ReducedBlock}
    (h : reduceBlock packages binding (some activation) previousRoot objects block = .ok reduced) :
    ∃ ordered, orderedBlockTransactions block = .ok ordered ∧
      CarriersSpent packages binding heights objects block ordered reduced := by
  obtain ⟨ordered, last, ho, hlast, hfin⟩ := reduceBlock_loop valid h
  obtain ⟨-, -, -, -, -, -, hobjects, -⟩ := finishBlock_ok hfin
  have htxs : ordered.map OrderedTransaction.transaction = block.transactions := (orderFrom_ok ho).1
  have live := Live.start input.named input.distinct
  obtain ⟨hunused, hmarked⟩ := input.ordered ho
  obtain ⟨tolds, heffects, -, -⟩ := connect_effects contract live hunused hmarked hlast
  rw [htxs] at heffects
  refine ⟨ordered, ho, ⟨?_, ?_, ?_, ?_⟩⟩
  · rintro before entry after rfl
    rw [List.map_append] at hunused
    obtain ⟨p, hp, hlast⟩ := foldlM_append_ok.mp hlast
    obtain ⟨p', hp', hlast⟩ := bind_eq_ok.mp hlast
    -- The states before and after the transaction are live, with nothing still to come in them.
    obtain ⟨_, hbefore, -, hlive⟩ := connect_effects contract live hunused.of_append (fun e he =>
      hmarked e (List.mem_append_left _ he)) hp
    have hrest : Unused packages binding p.state ((entry :: after).map fun entry => entry.transaction.txid) :=
      hbefore.unused live (by rwa [List.map_map])
    obtain ⟨_, heffect, -⟩ := connectTransaction_effect contract hlive (hmarked entry (by simp)) hp'
    have hlive' := hlive.effect hrest heffect
    have hunused' := hrest.effect hlive heffect
    have hstays : ∀ k r, p'.state.objects.get? k = some r → r.status ≠ .active → ∀ mid rest p'', after = mid ++ rest →
        mid.foldlM (connectTransaction packages binding heights block.height) p' = .ok p'' →
        p''.state.objects.get? k = some r := by
      rintro k r hr finished mid rest p'' rfl hmid
      rw [List.map_append] at hunused'
      obtain ⟨_, hmidEffects, -, -⟩ := connect_effects contract hlive' hunused'.of_append (fun e he =>
        hmarked e (by simp [he])) hmid
      refine hmidEffects.inactive hlive' ?_ hr finished
      rw [List.map_map]
      exact hunused'.of_append
    refine ⟨p, p', hp, hp', fun o hos k r hr ha hro => ?_, fun k r hr finished => ⟨hstays k r hr finished, ?_⟩⟩
    · have hconsumed : k ∈ consumedKeys p.state entry.transaction :=
        List.mem_filterMap.mpr ⟨o, hos, (hlive.index o k).mpr ⟨r, hr, ha, hro⟩⟩
      cases heffect.fate hlive hrest k with
      | kept unspent => exact absurd hconsumed unspent
      | born unborn => exact (not_none_of_some hr unborn).elim
      | moved _ found made =>
        obtain rfl := Option.some.inj (hr.symm.trans found)
        exact ⟨_, made, .inl ⟨ha, rfl, rfl⟩⟩
      | ended _ found finished _ made =>
        obtain rfl := Option.some.inj (hr.symm.trans found)
        exact ⟨_, made, .inr ⟨finished, rfl, rfl, rfl⟩⟩
    · rw [hobjects]
      exact hstays k r hr finished after [] last (List.append_nil after).symm hlast
  · intro k r hr hun
    rw [hobjects]
    by_cases ha : r.status = .active
    · exact heffects.unspent live input.unused hr (hun ha)
    · exact heffects.inactive live input.unused hr ha
  · intro k r hr
    rw [hobjects]
    exact heffects.persists live input.unused hr
  · intro hahead k r o hr ha hro tx ht
    rw [hobjects] at hr
    rcases heffects.carrier live input.unused hr ha hro with ⟨-, hun⟩ | ⟨before, u, after, hsplit, rfl, hun⟩
    · exact hun tx ht
    · rw [hsplit] at ht
      rcases List.mem_append.mp ht with hb | ha'
      · exact hahead before u after hsplit tx (List.mem_append_left _ hb)
      · rcases List.mem_cons.mp ha' with rfl | ha'
        · exact hahead before tx after hsplit tx (List.mem_append_right _ (List.mem_singleton.mpr rfl))
        · exact hun tx ha'

/-! ### Blocks to evaluate -/

/-- The transaction that creates an object. -/
def sampleCreated : Hash := sampleHash 11

/-- It spends two outputs of a transaction before it. -/
def sampleCreate : BitcoinTransaction := createTransaction sampleCreated (sampleHash 9)

/-- A transaction that spends the carrier it creates. -/
def sampleSpend : BitcoinTransaction := spendTransaction (sampleHash 12) (successorOf sampleCreated)

/-- A block with these transactions after the coinbase. -/
def sampleBlock (transactions : List BitcoinTransaction) : BitcoinBlock :=
  ⟨sampleHash 4, some (sampleHash 2), 201, 0, sampleCoinbase (sampleHash 5) :: transactions⟩

/-- The block reduced after a valid INIT, without objects. -/
def sampleReduction (transactions : List BitcoinTransaction) : Except String ReducedBlock :=
  reduceBlock openPackages sampleBinding (some openActivation) Hash.zero ∅ (sampleBlock transactions)

/-- A block of new transactions is connectable to no objects. -/
theorem connectable_sample {transactions : List BitcoinTransaction}
    (distinct : ((sampleBlock transactions).transactions.map BitcoinTransaction.txid).Nodup)
    (apart : (((sampleBlock transactions).transactions.map BitcoinTransaction.txid).map
      (keyOf openPackages sampleBinding)).Nodup)
    (other : ∀ tx ∈ (sampleBlock transactions).transactions, tx.txid ≠ sampleBinding.initTxid) :
    Connectable openPackages sampleBinding ∅ (sampleBlock transactions) where
  named _ _ h := (not_none_of_some h rfl).elim
  distinct _ _ _ _ _ h := (not_none_of_some h rfl).elim
  unused := ⟨fun _ _ => rfl, fun _ _ _ _ h => (not_none_of_some h rfl).elim, distinct, apart⟩
  marked tx ht he := absurd he (other tx ht)

/-- The object is created, and its carrier spent by the next transaction of the block. -/
theorem carriers_spent_sample : ∃ reduced ordered,
    sampleReduction [sampleCreate, sampleSpend] = .ok reduced ∧
      reduced.objects.values.map ObjectRecord.status = [.exited_noncanonical] ∧
      CarriersSpent openPackages sampleBinding ⟨200, 1208, 5528⟩ ∅
        (sampleBlock [sampleCreate, sampleSpend]) ordered reduced := by
  have hstatus : (sampleReduction [sampleCreate, sampleSpend]).map
      (fun r => r.objects.values.map ObjectRecord.status) = .ok [.exited_noncanonical] := by decide +kernel
  obtain ⟨reduced, h, hstatus⟩ := map_eq_ok.mp hstatus
  obtain ⟨ordered, -, spent⟩ := carriers_spent (validateTandemTransaction_contract openChecks_sound) rfl
    (connectable_sample (by decide) (by decide +kernel) (by decide)) h
  exact ⟨reduced, ordered, h, hstatus, spent⟩

/-- **A carrier can outlive an input that names it ahead.** The transaction that spends `t:1` comes before `t`; after
the block the object of `t` is active at `t:1`. -/
theorem spend_ahead_outlives :
    Connectable openPackages sampleBinding ∅ (sampleBlock [sampleSpend, sampleCreate]) ∧
      ∃ reduced, sampleReduction [sampleSpend, sampleCreate] = .ok reduced ∧
        ∃ k r o, reduced.objects.get? k = some r ∧ r.status = .active ∧ r.currentOutpoint = some o ∧
          o ∈ sampleSpend.spends := by
  refine ⟨connectable_sample (by decide) (by decide +kernel) (by decide), ?_⟩
  have hrecord : (sampleReduction [sampleSpend, sampleCreate]).map
      (fun r => (r.objects.get? (keyOf openPackages sampleBinding sampleCreated)).map
        fun r => (r.status, r.currentOutpoint)) = .ok (some (.active, some (successorOf sampleCreated))) := by
    decide +kernel
  obtain ⟨reduced, h, hrecord⟩ := map_eq_ok.mp hrecord
  obtain ⟨r, hr, hs⟩ := Option.map_eq_some_iff.mp hrecord
  obtain ⟨ha, ho⟩ := Prod.mk.inj hs
  exact ⟨reduced, h, _, r, _, hr, ha, ho, by decide⟩

end IndexTandem.Indexer
