import IndexTandem.Indexer.Naive

/-!
# The window of the INIT

The configured INIT names the heights between which objects are founded. This is the part
of the validator's contract that speaks of them (`InitContract`): a valid INIT opens its
window later than it confirms, and nothing is created before the window opens. The
package's dispatch keeps it when its checks do (`validateTandemTransaction_dated`).

The reducer reads the window from the transaction by itself; of a valid INIT it reads what
the validator saw (`initHeights_of_counted`).
-/

namespace IndexTandem.Indexer

open Library Protocol

/-! ### The window in the validator's contract -/

/-- What the protocol says about heights: a valid INIT has one marker, an INIT whose window opens after its own
height, and a valid CREATE is not before the window. -/
structure InitContract (validate : Validator) : Prop where
  /-- A valid event of the configured INIT is its only one. -/
  init : ∀ {transaction context result event}, ProperCall transaction context →
    validate transaction context = .ok result → transaction.txid = context.init.txid → event ∈ result.events →
    event.validityClass = .VALID_OPERATION → result.events = [event] ∧ event.operation = .INIT ∧
      ∃ candidate network openHeight closeHeight carrierValue refundDelay specHash,
        countedCandidates transaction context.init.txid = [candidate] ∧
        parseMarkerScript candidate.1.scriptPubKey context.network =
          .ok (.init network openHeight closeHeight carrierValue refundDelay specHash) ∧
        transaction.height < openHeight
  /-- A CREATE waits for the window. -/
  create : ∀ {transaction context result event}, ProperCall transaction context →
    validate transaction context = .ok result → event ∈ result.events →
    event.validityClass = .VALID_OPERATION → event.operation = .CREATE → context.init.openHeight ≤ transaction.height

/-- What the checks must see to themselves for that. -/
structure ChecksDated (checks : Checks) : Prop where
  /-- The window opens after the INIT. -/
  init : ∀ {network openHeight closeHeight carrierValue refundDelay specHash transaction context index},
    checks.checkInit (.init network openHeight closeHeight carrierValue refundDelay specHash) transaction context index =
      .VALID → transaction.height < openHeight
  /-- A CREATE is not before it. -/
  create : ∀ {transaction context index}, checks.checkCreate transaction context index = .VALID →
    context.init.openHeight ≤ transaction.height

theorem makeEvents_valid {operation : Option ValidatedOperation} {reason : Reason}
    {states : List ActiveCarrierEvidence} {event : TransactionValidationEvent}
    (h : event ∈ makeEvents operation reason states) (valid : event.validityClass = .VALID_OPERATION) :
    reason = .VALID ∧ makeEvents operation reason states = [event] ∧ event.operation = operation.getD .INVALID := by
  unfold makeEvents at h ⊢
  split_ifs at h ⊢ with hexits hreason
  · obtain ⟨state, -, rfl⟩ := List.mem_map.mp h
    cases valid
  · rw [List.mem_singleton] at h
    subst h
    exact ⟨hreason, rfl, rfl⟩
  · rw [List.mem_singleton] at h
    subst h
    cases valid

section

variable {checks : Checks} {transaction : TransactionEvidence} {context : TransactionValidationContext}
  {result : TransactionValidationResult}

/-- **What the dispatch accepts**: a REFUND without a marker, or an operation whose marker passed its check. -/
theorem validateTandemTransaction_valid (h : validateTandemTransaction checks transaction context = .ok result)
    {event : TransactionValidationEvent} (he : event ∈ result.events) (valid : event.validityClass = .VALID_OPERATION) :
    result.events = [event] ∧
      (countedCandidates transaction context.init.txid = [] ∧ transaction.txid ≠ context.init.txid ∧
          event.operation = .REFUND ∨
        ∃ candidate marker state, countedCandidates transaction context.init.txid = [candidate] ∧
          parseMarkerScript candidate.1.scriptPubKey context.network = .ok marker ∧
          (transaction.txid = context.init.txid → marker.operation = .init) ∧
          event.operation = marker.operation.validated ∧
          checkMarker checks marker transaction context state candidate.2 = .VALID) := by
  have refused : ∀ {marker operation reason states}, reason ≠ .VALID →
      (pure ⟨true, marker, makeEvents operation reason states⟩ : Except String _) = .ok result → False := by
    intro marker operation reason states hr hp
    obtain rfl := pure_eq_ok.mp hp
    exact hr (makeEvents_valid he valid).1
  simp only [validateTandemTransaction] at h
  obtain ⟨_, -, h⟩ := bind_eq_ok.mp h
  by_cases hbare : transaction.txid = context.init.txid ∧ countedCandidates transaction context.init.txid = []
  · rw [if_pos hbare] at h
    exact (refused (by decide) h).elim
  rw [if_neg hbare] at h
  by_cases hmany : (countedCandidates transaction context.init.txid).length > 1
  · rw [if_pos hmany] at h
    exact (refused (by decide) h).elim
  rw [if_neg hmany] at h
  generalize context.activeCarriers.filter _ = consumed at h
  by_cases hcarriers : consumed.length > 1
  · rw [if_pos hcarriers] at h
    exact (refused (by decide) h).elim
  rw [if_neg hcarriers] at h
  cases hcand : countedCandidates transaction context.init.txid with
  | nil =>
    have hother : transaction.txid ≠ context.init.txid := fun hid => hbare ⟨hid, hcand⟩
    cases hstate : consumed.head? with
    | none =>
      simp only [hcand, hstate, List.head?_nil] at h
      obtain rfl := pure_eq_ok.mp h
      cases he
    | some state =>
      simp only [hcand, hstate, List.head?_nil] at h
      split_ifs at h
      · obtain rfl := pure_eq_ok.mp h
        obtain ⟨-, hsingle, hop⟩ := makeEvents_valid he valid
        exact ⟨hsingle, .inl ⟨rfl, hother, hop⟩⟩
      · exact (refused (by decide) h).elim
  | cons candidate rest =>
    obtain rfl : rest = [] := by
      rw [hcand, List.length_cons] at hmany
      exact List.length_eq_zero_iff.mp (by omega)
    simp only [hcand, List.head?_cons] at h
    cases hparse : parseMarkerScript candidate.1.scriptPubKey context.network with
    | error reason =>
      simp only [hparse] at h
      exact (refused (parseMarkerScript_error hparse) h).elim
    | ok marker =>
      simp only [hparse] at h
      split_ifs at h with hown hspec hns
      · exact (refused (by decide) h).elim
      · exact (refused (by decide) h).elim
      · exact (refused (by decide) h).elim
      · obtain rfl := pure_eq_ok.mp h
        obtain ⟨hreason, hsingle, hop⟩ := makeEvents_valid he valid
        exact ⟨hsingle, .inr ⟨candidate, marker, _, rfl, hparse,
          fun hid => by_contra fun hop => hown ⟨hid, hop⟩, hop, hreason⟩⟩

/-- **The dispatch keeps that part of the contract**, when the checks do. -/
theorem validateTandemTransaction_dated (dated : ChecksDated checks) :
    InitContract (validateTandemTransaction checks) where
  init := by
    intro transaction context result event proper h hid he valid
    obtain ⟨hsingle, ⟨-, hother, -⟩ | ⟨candidate, marker, state, hcand, hparse, hown, hop, hcheck⟩⟩ :=
      validateTandemTransaction_valid h he valid
    · exact absurd hid hother
    · have hinit := hown hid
      cases marker with
      | init network openHeight closeHeight carrierValue refundDelay specHash =>
        exact ⟨hsingle, hop, candidate, network, openHeight, closeHeight, carrierValue, refundDelay, specHash, hcand,
          hparse, dated.init hcheck⟩
      | create | mark | rotate | close => cases hinit
  create := by
    intro transaction context result event proper h he valid hcreate
    obtain ⟨-, ⟨-, -, hop⟩ | ⟨candidate, marker, state, -, -, -, hop, hcheck⟩⟩ :=
      validateTandemTransaction_valid h he valid
    · cases hop.symm.trans hcreate
    · rw [hcreate] at hop
      cases marker with
      | create => exact dated.create hcheck
      | init | mark | rotate | close => cases hop

end

/-! ### The window the INIT names -/

variable {packages : Packages} {height : ℕ}

/-- The INIT as the client of the node reports it: scripts are lower case, and outputs have different indexes. -/
structure Rendered (transaction : BitcoinTransaction) : Prop where
  /-- Scripts are in lower case. -/
  lower : ∀ output ∈ transaction.outputs, ∀ c ∈ output.scriptPubKeyHex.toList, c ∈ hexDigits
  /-- Outputs are told apart by their index. -/
  numbered : (transaction.outputs.map BitcoinOutput.n).Nodup

/-- The output is a marker candidate. -/
def isCandidate (output : BitcoinOutput) : Bool := (inspectMarkerScript (bytes output.scriptPubKeyHex)).candidate

theorem buildTransactionEvidence_height {transaction : BitcoinTransaction} {evidence : TransactionEvidence}
    (h : buildTransactionEvidence packages.sha256 packages.verify transaction height = .ok evidence) :
    evidence.height = height := by
  obtain ⟨sighash, -, h⟩ := bind_eq_ok.mp h
  obtain rfl := pure_eq_ok.mp h
  rfl

/-- The candidates of a transaction, none left out for being another INIT's. -/
theorem remainingCandidates_own {transaction : BitcoinTransaction} (rendered : Rendered transaction)
    {candidates : List Candidate} (h : remainingCandidates transaction transaction.txid = .ok candidates) :
    candidates.map Candidate.vout = (transaction.outputs.filter isCandidate).map BitcoinOutput.n := by
  obtain ⟨found, hfound, hpure⟩ := bind_eq_ok.mp h
  obtain rfl := pure_eq_ok.mp hpure
  have hlower := rendered.lower
  have hmatch := mapM_ok_forall₂ hfound
  clear h hpure hfound rendered
  generalize transaction.outputs = outputs at hmatch hlower
  induction hmatch with
  | nil => rfl
  | @cons output first outputs found hfirst _ ih =>
    have hrest := ih fun o ho => hlower o (List.mem_cons_of_mem _ ho)
    unfold remainingCandidate at hfirst
    dsimp only at hfirst
    split_ifs at hfirst with hstarts hcand hforeign
    · obtain rfl := pure_eq_ok.mp hfirst
      have hno : isCandidate output = false := by
        rw [Bool.eq_false_iff]
        intro hc
        have := startsWith6a_of_bytes (hlower output List.mem_cons_self) (head_of_candidate hc)
        simp [this] at hstarts
      rw [List.filter_cons_of_neg (by simp [hno])]
      exact hrest
    · obtain rfl := pure_eq_ok.mp hfirst
      have hno : isCandidate output = false := by simpa [isCandidate] using hcand
      rw [List.filter_cons_of_neg (by simp [hno])]
      exact hrest
    · exact absurd rfl hforeign.2
    · obtain ⟨declared, -, hfirst⟩ := bind_eq_ok.mp hfirst
      obtain rfl := pure_eq_ok.mp hfirst
      have hyes : isCandidate output = true := by simpa [isCandidate] using hcand
      rw [List.filter_cons_of_pos hyes, List.map_cons, ← hrest]
      rfl

theorem countedCandidates_own {transaction : BitcoinTransaction} {evidence : TransactionEvidence}
    (h : buildTransactionEvidence packages.sha256 packages.verify transaction height = .ok evidence) :
    (countedCandidates evidence transaction.txid).map Prod.fst = (transaction.outputs.filter isCandidate).map
      fun output => ⟨output.valueSats, bytes output.scriptPubKeyHex⟩ := by
  obtain ⟨htxid, -, houtputs⟩ := buildTransactionEvidence_ok _ _ h
  have hown : countedCandidates evidence transaction.txid =
      evidence.outputs.zipIdx.filter fun entry => (inspectMarkerScript entry.1.scriptPubKey).candidate := by
    unfold countedCandidates
    simp [htxid]
  have hfst : (evidence.outputs.zipIdx.filter fun entry => (inspectMarkerScript entry.1.scriptPubKey).candidate).map
      Prod.fst = evidence.outputs.filter fun output => (inspectMarkerScript output.scriptPubKey).candidate := by
    rw [show (fun entry : TransactionOutputEvidence × ℕ => (inspectMarkerScript entry.1.scriptPubKey).candidate) =
      (fun output => (inspectMarkerScript output.scriptPubKey).candidate) ∘ Prod.fst from rfl, ← List.filter_map,
      List.zipIdx_map_fst]
  rw [hown, hfst, houtputs, List.filter_map]
  rfl

/-- **The window is the one the validator saw**: that of the transaction's only marker. -/
theorem initHeights_of_counted {transaction : BitcoinTransaction} (rendered : Rendered transaction)
    {evidence : TransactionEvidence}
    (hev : buildTransactionEvidence packages.sha256 packages.verify transaction height = .ok evidence)
    {candidates : List Candidate} (hown : remainingCandidates transaction transaction.txid = .ok candidates)
    {candidate : TransactionOutputEvidence × ℕ} (one : countedCandidates evidence transaction.txid = [candidate])
    {networkCode : NetworkCode} {network openHeight closeHeight carrierValue refundDelay : ℕ} {specHash : Bytes}
    (parsed : parseMarkerScript candidate.1.scriptPubKey networkCode =
      .ok (.init network openHeight closeHeight carrierValue refundDelay specHash)) :
    initHeights transaction networkCode = .ok (some (openHeight, closeHeight)) := by
  have hcounted := countedCandidates_own hev
  rw [one, List.map_singleton] at hcounted
  obtain ⟨output, hfilter, hout⟩ := List.map_eq_singleton_iff.mp hcounted.symm
  have hvouts := remainingCandidates_own rendered hown
  rw [hfilter, List.map_singleton] at hvouts
  obtain ⟨found, rfl, hvout⟩ := List.map_eq_singleton_iff.mp hvouts
  have hmem : output ∈ transaction.outputs :=
    (List.mem_filter.mp (hfilter ▸ List.mem_singleton.mpr rfl : output ∈ transaction.outputs.filter isCandidate)).1
  have hfind : transaction.outputs.find? (fun item => item.n = found.vout) = some output := by
    rw [hvout]
    cases hf : transaction.outputs.find? fun item => item.n = output.n with
    | none => exact absurd (List.find?_eq_none.mp hf output hmem) (by simp)
    | some item =>
      have hn : item.n = output.n := by simpa using List.find?_some hf
      rw [List.inj_on_of_nodup_map rendered.numbered (List.mem_of_find?_eq_some hf) hmem hn]
  have hscript : bytes output.scriptPubKeyHex = candidate.1.scriptPubKey := by rw [← hout]
  refine bind_eq_ok.mpr ⟨_, hown, ?_⟩
  simp only [hfind, hscript, parsed]
  rfl

end IndexTandem.Indexer
