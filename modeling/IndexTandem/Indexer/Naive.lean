import IndexTandem.Indexer.Carriers

/-!
# The naive reducer

`reduceBlock` classifies only the transactions that `isRelevant` lets through, and finds the
carriers they spend in an index that it keeps up to date between them. The reducer here
does neither: it classifies every transaction, and looks each input up among all records
(`recordAt`). Both come to the same block (`reduceBlock_naive`).

What the filter passes over must be nothing to the validator (`Indifferent`), and a script must
be text that `isRelevant` recognises: the client of the node writes hexadecimal in lower
case.
-/

namespace IndexTandem.Indexer

open Library Protocol

variable {packages : Packages} {binding : Binding}

/-! ### Without an index or a filter -/

/-- The active record with the carrier, if there is one. -/
def recordAt (objects : JsMap Hash ObjectRecord) (outpoint : Outpoint) : Option ObjectRecord :=
  objects.values.find? fun record => record.status = .active ∧ record.currentOutpoint = some outpoint

/-- A classified transaction, when the records it spends are looked up among all. The index of the state is kept by
the operations, and not read. -/
def naiveClassify (packages : Packages) (binding : Binding) (activation : InitHeights) (state : WorkingState)
    (transaction : BitcoinTransaction) (txIndex height : ℕ) : Except String Progress := do
  let evidence ← buildTransactionEvidence packages.sha256 packages.verify transaction height
  let activeCarriers ← (transaction.spends.filterMap (recordAt state.objects)).mapM carrierEvidence
  let result ← packages.validate evidence {
    network := binding.networkCode
    ns := binding.ns
    init := ⟨binding.initTxid, binding.specHash, activation.height, activation.openHeight, activation.closeHeight⟩
    activeCarriers := activeCarriers }
  if !result.relevant || result.events.isEmpty then pure ⟨state, []⟩
  else do
    let candidates ← remainingCandidates transaction binding.initTxid
    applyEvents packages binding activation transaction txIndex height result.marker candidates state result.events

/-- One turn of the loop over the block's transactions. -/
def naiveConnect (packages : Packages) (binding : Binding) (heights : InitHeights) (height : ℕ) (progress : Progress)
    (entry : OrderedTransaction) : Except String Progress := do
  let classified ← naiveClassify packages binding heights progress.state entry.transaction entry.txIndex height
  pure ⟨classified.state, progress.events ++ classified.events⟩

/-- The block that the naive reducer makes with a known INIT. -/
def naiveReduceBlock (packages : Packages) (binding : Binding) (activation : InitActivation) (previousRoot : Hash)
    (objects : JsMap Hash ObjectRecord) (block : BitcoinBlock) : Except String ReducedBlock := do
  let ordered ← orderedBlockTransactions block
  let progress ← match activation.heights? with
    | some heights => ordered.foldlM (naiveConnect packages binding heights block.height) ⟨.start objects, []⟩
    | none => pure ⟨.start objects, []⟩
  finishBlock packages binding previousRoot block ordered activation false progress

/-! ### The join -/

section

variable {w : WorkingState}

/-- The index finds what the scan finds. -/
theorem recordAt_eq (live : Live w) (o : Outpoint) :
    recordAt w.objects o = (w.activeByOutpoint.get? o).bind w.objects.get? := by
  -- Whatever record the scan would accept is the one the index names.
  have hat : ∀ r ∈ w.objects.values, r.status = .active → r.currentOutpoint = some o →
      (w.activeByOutpoint.get? o).bind w.objects.get? = some r := by
    intro r hr ha ho
    obtain ⟨key, hkey⟩ := (JsMap.mem_values _ _).mp hr
    rw [(live.index o key).mpr ⟨r, hkey, ha, ho⟩]
    exact hkey
  cases hfind : recordAt w.objects o with
  | some r =>
    have hp := List.find?_some hfind
    rw [decide_eq_true_eq] at hp
    exact (hat r (List.mem_of_find?_eq_some hfind) hp.1 hp.2).symm
  | none =>
    cases hindex : w.activeByOutpoint.get? o with
    | none => rfl
    | some key =>
      obtain ⟨r, hr, ha, ho⟩ := (live.index o key).mp hindex
      have hnot := List.find?_eq_none.mp hfind r ((JsMap.mem_values _ _).mpr ⟨key, hr⟩)
      rw [decide_eq_true_eq] at hnot
      exact absurd ⟨ha, ho⟩ hnot

/-- So the records consumed are those the scan finds. -/
theorem consumedRecords_eq (live : Live w) (transaction : BitcoinTransaction) :
    consumedRecords w transaction = .ok (transaction.spends.filterMap (recordAt w.objects)) := by
  unfold consumedRecords
  induction transaction.spends with
  | nil => rfl
  | cons o rest ih =>
    rw [List.filterMap_cons, List.filterMap_cons, recordAt_eq live]
    cases hindex : w.activeByOutpoint.get? o with
    | none => exact ih
    | some key =>
      obtain ⟨r, hr, -⟩ := (live.index o key).mp hindex
      simp only [Option.bind_some, hr, List.mapM_cons, ih, recordOf_eq_ok.mpr hr]
      rfl

/-- A transaction is classified the same either way. -/
theorem naiveClassify_eq (live : Live w) (heights : InitHeights) (transaction : BitcoinTransaction)
    (txIndex height : ℕ) :
    naiveClassify packages binding heights w transaction txIndex height =
      classifyTransaction packages binding heights w transaction txIndex height := by
  unfold naiveClassify classifyTransaction
  rw [consumedRecords_eq live]
  rfl

end

/-! ### The filter -/

/-- The validator has nothing to say about a transaction other than the configured INIT that has no marker candidate
and spends no carrier. -/
def Indifferent (validate : Validator) : Prop :=
  ∀ evidence context, evidence.txid ≠ context.init.txid →
    (∀ output ∈ evidence.outputs, (inspectMarkerScript output.scriptPubKey).candidate = false) →
    context.activeCarriers = [] → ∃ result, validate evidence context = .ok result ∧ result.events = []

/-- The dispatch of the package is. -/
theorem validateTandemTransaction_indifferent (checks : Checks) : Indifferent (validateTandemTransaction checks) := by
  intro evidence context hother hnone hcarriers
  have hcounted : countedCandidates evidence context.init.txid = [] := by
    refine List.filter_eq_nil_iff.mpr fun entry he hc => ?_
    have hm : entry.1 ∈ evidence.outputs := (List.mem_zipIdx' he).2 ▸ List.getElem_mem _
    exact Bool.false_ne_true ((hnone entry.1 hm).symm.trans (Bool.and_eq_true_iff.mp hc).1)
  refine ⟨⟨false, none, []⟩, ?_, rfl⟩
  have hvalid : validateContext checks context = .ok ⟨⟩ := by
    unfold validateContext
    rw [hcarriers]
    rfl
  refine bind_eq_ok.mpr ⟨_, hvalid, ?_⟩
  simp [hcounted, hcarriers, hother]

/-- A transaction as the client of the node reports it: scripts are lower case, amounts and scripts fit the fields of
the digest. -/
structure Reported (transaction : BitcoinTransaction) : Prop where
  /-- Scripts are in lower case. -/
  lower : ∀ output ∈ transaction.outputs, ∀ c ∈ output.scriptPubKeyHex.toList, c ∈ hexDigits
  /-- Amounts and scripts fit their fields. -/
  fits : ∀ output ∈ transaction.outputs, output.valueSats < 0x1_0000_0000_0000_0000 ∧
    (bytes output.scriptPubKeyHex).length < 0x1_0000_0000

/-- Lowercase text whose first byte is `6a` starts with `6a`. -/
theorem startsWith6a_of_bytes {hex : String} (lower : ∀ c ∈ hex.toList, c ∈ hexDigits)
    (h : (bytes hex).head? = some 0x6a) : startsWith6a hex = true := by
  unfold bytes at h
  unfold startsWith6a
  generalize hex.toList = chars at lower h
  match chars with
  | [] => cases h
  | [_] => cases h
  | a :: b :: rest =>
    obtain ⟨x, hxlt, hx, rfl⟩ := hexDigits_value a (lower a (by simp))
    obtain ⟨y, hylt, hy, rfl⟩ := hexDigits_value b (lower b (by simp))
    simp only [ofHex, hx, hy, List.head?_cons, Option.some.injEq] at h
    have hn : (16 * x + y) % 256 = 106 := congrArg UInt8.toNat h
    obtain rfl : x = 6 := by omega
    obtain rfl : y = 10 := by omega
    rfl

theorem head_of_candidate {script : Bytes} (h : (inspectMarkerScript script).candidate = true) :
    script.head? = some 0x6a := by
  unfold inspectMarkerScript at h
  split_ifs at h with hshort
  rw [not_or, not_not] at hshort
  exact hshort.2

theorem no_candidate_of_not_relevant {transaction : BitcoinTransaction} {index : JsMap Outpoint Hash} {initTxid : Hash}
    (reported : Reported transaction) (h : isRelevant transaction index initTxid = false) :
    ∀ output ∈ transaction.outputs, (inspectMarkerScript (bytes output.scriptPubKeyHex)).candidate = false := by
  simp only [isRelevant, Bool.or_eq_false_iff, List.any_eq_false, Bool.and_eq_true, not_and] at h
  intro output ho
  rw [Bool.eq_false_iff]
  exact fun hc => h.1.2 output ho (startsWith6a_of_bytes (reported.lower output ho) (head_of_candidate hc)) hc

/-- **The filter passes over nothing.** -/
theorem naiveConnect_eq (indifferent : Indifferent packages.validate) {progress : Progress} (live : Live progress.state)
    {heights : InitHeights} {height : ℕ} {entry : OrderedTransaction} (reported : Reported entry.transaction) :
    naiveConnect packages binding heights height progress entry =
      connectTransaction packages binding heights height progress entry := by
  unfold naiveConnect connectTransaction
  split_ifs with hrel
  · rw [naiveClassify_eq live]
  · rw [Bool.not_eq_true] at hrel
    have hother : entry.transaction.txid ≠ binding.initTxid := by
      simp only [isRelevant, Bool.or_eq_false_iff, decide_eq_false_iff_not] at hrel
      exact hrel.1.1
    obtain ⟨evidence, hev⟩ := buildTransactionEvidence_total packages.sha256 packages.verify height reported.fits
    obtain ⟨htxid, -, houtputs⟩ := buildTransactionEvidence_ok _ _ hev
    have hnone : entry.transaction.spends.filterMap (recordAt progress.state.objects) = [] := by
      have hconsumed := consumedRecords_eq live entry.transaction
      unfold consumedRecords at hconsumed
      rw [show entry.transaction.spends.filterMap progress.state.activeByOutpoint.get? = [] from
        consumedKeys_of_not_relevant hrel] at hconsumed
      exact (Except.ok.inj hconsumed).symm
    obtain ⟨result, hval, hevents⟩ := indifferent evidence (contextOf binding heights []) (htxid ▸ hother) (fun output ho => by
      rw [houtputs] at ho
      obtain ⟨source, hs, rfl⟩ := List.mem_map.mp ho
      exact no_candidate_of_not_relevant reported hrel source hs) rfl
    have hclassify : naiveClassify packages binding heights progress.state entry.transaction entry.txIndex height =
        .ok ⟨progress.state, []⟩ := by
      refine bind_eq_ok.mpr ⟨evidence, hev, bind_eq_ok.mpr ⟨[], ?_, bind_eq_ok.mpr ⟨result, hval, ?_⟩⟩⟩
      · rw [hnone]
        rfl
      · rw [if_pos (by rw [hevents]; exact Bool.or_true _)]
        rfl
    rw [hclassify]
    exact congrArg Except.ok (congrArg (Progress.mk _) (List.append_nil _))

/-! ### A block -/

/-- **The loops are the same**, over transactions that connect. -/
theorem naiveLoop_eq (contract : ValidatorContract packages.validate) (indifferent : Indifferent packages.validate)
    {heights : InitHeights} {height : ℕ} {ordered : List OrderedTransaction} {progress : Progress}
    (live : Live progress.state)
    (unused : Unused packages binding progress.state (ordered.map fun entry => entry.transaction.txid))
    (marked : ∀ entry ∈ ordered, InitMarked packages binding height entry.transaction)
    (reported : ∀ entry ∈ ordered, Reported entry.transaction) :
    ordered.foldlM (naiveConnect packages binding heights height) progress =
      ordered.foldlM (connectTransaction packages binding heights height) progress := by
  induction ordered generalizing progress with
  | nil => rfl
  | cons entry ordered ih =>
    rw [List.foldlM_cons, List.foldlM_cons, naiveConnect_eq indifferent live (reported entry List.mem_cons_self)]
    cases hnext : connectTransaction packages binding heights height progress entry with
    | error e => rfl
    | ok next =>
      obtain ⟨_, heffect, -⟩ := connectTransaction_effect contract live (marked entry List.mem_cons_self) hnext
      exact ih (live.effect unused heffect) (unused.effect live heffect)
        (fun e he => marked e (List.mem_cons_of_mem _ he)) fun e he => reported e (List.mem_cons_of_mem _ he)

/-- **The reducer is the naive reducer**, and neither depends on the order of the object map. -/
theorem reduceBlock_naive (contract : ValidatorContract packages.validate) (indifferent : Indifferent packages.validate)
    {objects objects' : JsMap Hash ObjectRecord} {block : BitcoinBlock}
    (input : Connectable packages binding objects block) (same : JsMap.Same objects objects')
    (reported : ∀ tx ∈ block.transactions, Reported tx) (activation : InitActivation) (previousRoot : Hash) :
    Agree SameBlock (reduceBlock packages binding (some activation) previousRoot objects block)
      (naiveReduceBlock packages binding activation previousRoot objects' block) := by
  have input' := input.of_same same
  have hnaive : naiveReduceBlock packages binding activation previousRoot objects' block =
      reduceBlock packages binding (some activation) previousRoot objects' block := by
    unfold naiveReduceBlock reduceBlock
    cases ho : orderedBlockTransactions block with
    | error e => rfl
    | ok ordered =>
      obtain ⟨hunused, hmarked⟩ := input'.ordered ho
      change (_ >>= _) = ((connectTransactions packages binding block.height ordered ⟨activation, _⟩) >>= _)
      unfold connectTransactions
      cases hheights : activation.heights? with
      | none => rfl
      | some heights =>
        have hloop : ordered.foldlM (naiveConnect packages binding heights block.height) ⟨.start objects', []⟩ =
            ordered.foldlM (connectTransaction packages binding heights block.height) ⟨.start objects', []⟩ :=
          naiveLoop_eq contract indifferent (Live.start input'.named input'.distinct) hunused hmarked fun entry he =>
            reported _ (mem_ordered ho he)
        exact congrArg (· >>= fun progress =>
          finishBlock packages binding previousRoot block ordered activation false progress) hloop
  rw [hnaive]
  refine reduceBlock_same_of input.named input.distinct same (fun ordered a p ho ha hp => ?_) previousRoot
  obtain ⟨hunused, hmarked⟩ := input.ordered ho
  obtain rfl := pure_eq_ok.mp ha
  have live := Live.start input.named input.distinct
  unfold connectTransactions at hp
  split at hp
  · obtain ⟨_, -, -, hlive⟩ := connect_effects contract live hunused hmarked hp
    exact hlive.named
  · obtain rfl := pure_eq_ok.mp hp
    exact live.named

/-- The transactions of the sample block are as a client reports them. -/
theorem reported_sample :
    ∀ tx ∈ (sampleBlock [sampleCreate, sampleSpend]).transactions, Reported tx := by
  have hlower : ∀ tx ∈ (sampleBlock [sampleCreate, sampleSpend]).transactions,
      ∀ output ∈ tx.outputs, (output.scriptPubKeyHex.toList.all fun c => hexDigits.contains c) = true := by
    decide +kernel
  have hsmall : ∀ tx ∈ (sampleBlock [sampleCreate, sampleSpend]).transactions,
      ∀ output ∈ tx.outputs, (output.valueSats = 0 ∨ output.valueSats = CARRIER_VALUE) ∧
        (bytes output.scriptPubKeyHex).length ≤ 100 := by decide +kernel
  refine fun tx ht => ⟨fun output ho c hc => ?_, fun output ho => ?_⟩
  · simpa using List.all_eq_true.mp (hlower tx ht output ho) c hc
  · have hvalue : CARRIER_VALUE = 20000 := rfl
    obtain ⟨hv, hlength⟩ := hsmall tx ht output ho
    exact ⟨by omega, by omega⟩

/-- A block with a new object is reduced alike by both. -/
theorem reduceBlock_naive_sample : Agree SameBlock
    (reduceBlock openPackages sampleBinding (some openActivation) Hash.zero ∅
      (sampleBlock [sampleCreate, sampleSpend]))
    (naiveReduceBlock openPackages sampleBinding openActivation Hash.zero ∅
      (sampleBlock [sampleCreate, sampleSpend])) :=
  reduceBlock_naive (validateTandemTransaction_contract openChecks_sound)
    (validateTandemTransaction_indifferent openChecks)
    (connectable_sample (by decide) (by decide +kernel) (by decide)) (.refl ∅)
    reported_sample openActivation Hash.zero

end IndexTandem.Indexer
