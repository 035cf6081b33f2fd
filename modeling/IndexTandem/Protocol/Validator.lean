import IndexTandem.Protocol.Roots

/-!
# The reference validator

The indexer does not judge a transaction itself. It hands the evidence about one
transaction, and the active carriers the transaction spends, to
`validateTandemTransaction` of the protocol package, and applies the verdict.

`ValidatorContract` is what the indexer relies on, as the protocol documents it
(dispatch order): a transaction that spends no active carrier is ignored, invalid,
an INIT or a CREATE; one that validly spends exactly one carrier is a MARK, ROTATE,
CLOSE or REFUND of that carrier's object; any other spend ends every object whose
carrier is spent. The results about the indexer hold for every validator that keeps
the contract.

`validateTandemTransaction` is the package's dispatch itself, over the six
per-operation checks (signatures, scripts, amounts), which are parameters here. It
keeps the contract when the checks do (`validateTandemTransaction_contract`).
-/

namespace IndexTandem.Protocol

open Library

/-! ### Evidence and verdicts -/

/-- What was found out about one signature. -/
structure VerifiedSignatureEvidence where
  /-- The key it was checked against. -/
  publicKey : Bytes
  /-- The hash type byte; `-1` for an empty signature. -/
  sighashType : ℤ
  /-- The curve equation holds. -/
  cryptographicallyVerified : Bool
  /-- The encoding is strict DER. -/
  strictDer : Bool
  /-- The second half is in the lower half of the group. -/
  lowS : Bool
  deriving DecidableEq

/-- What is known about one input. -/
structure TransactionInputEvidence where
  /-- The wire outpoint spent. -/
  outpoint : Bytes
  /-- The sequence number. -/
  sequence : ℕ
  /-- The amount spent. -/
  prevoutValue : ℕ
  /-- The script spent. -/
  prevoutScriptPubKey : Bytes
  /-- The height of the spent output. -/
  prevoutHeight : Option ℕ
  /-- There is no scriptSig. -/
  scriptSigEmpty : Bool
  /-- The witness has the shape its script asks for. -/
  witnessShapeValid : Bool
  /-- The witness script. -/
  witnessScript : Option Bytes
  /-- The key a P2WPKH spend reveals. -/
  revealedPublicKey : Option Bytes
  /-- The signatures. -/
  signatures : List VerifiedSignatureEvidence
  deriving DecidableEq

/-- What is known about one output. -/
structure TransactionOutputEvidence where
  /-- The amount. -/
  value : ℕ
  /-- The script. -/
  scriptPubKey : Bytes
  deriving DecidableEq

/-- What is known about one transaction. -/
structure TransactionEvidence where
  /-- The transaction. -/
  txid : Hash
  /-- The version. -/
  version : ℤ
  /-- The lock time. -/
  lockTime : ℕ
  /-- The height of its block. -/
  height : ℕ
  /-- The inputs. -/
  inputs : List TransactionInputEvidence
  /-- The outputs. -/
  outputs : List TransactionOutputEvidence
  /-- Relative lock times are satisfied. -/
  relativeLocktimeMature : Bool
  deriving DecidableEq

/-- An active carrier, as the validator sees it. -/
structure ActiveCarrierEvidence where
  /-- The object it carries. -/
  objectKey : Hash
  /-- Its wire outpoint. -/
  outpoint : Bytes
  /-- The object's sequence. -/
  stateSequence : ℕ
  /-- The first key. -/
  key0 : Bytes
  /-- The second key. -/
  key1 : Bytes
  /-- The height at which it confirmed. -/
  confirmedHeight : ℕ
  deriving DecidableEq

/-- The configured INIT. -/
structure InitValidationParameters where
  /-- Its txid. -/
  txid : Hash
  /-- The spec hash it commits to. -/
  specHash : Hash
  /-- The height at which it confirmed. -/
  confirmationHeight : ℕ
  /-- The first founding height. -/
  openHeight : ℕ
  /-- The first height after the founding window. -/
  closeHeight : ℕ
  deriving DecidableEq

/-- What a transaction is judged against. -/
structure TransactionValidationContext where
  /-- The network. -/
  network : NetworkCode
  /-- The namespace of the protocol instance. -/
  ns : Hash
  /-- The configured INIT. -/
  init : InitValidationParameters
  /-- The active carriers the transaction may spend. -/
  activeCarriers : List ActiveCarrierEvidence
  deriving DecidableEq

/-- `ValidatedOperation`. -/
inductive ValidatedOperation where
  | INIT
  | CREATE
  | MARK
  | ROTATE
  | CLOSE
  | REFUND
  | EXITED_NONCANONICAL
  | INVALID
  deriving DecidableEq

/-- The operation a marker names. -/
def Opcode.validated : Opcode → ValidatedOperation
  | .init => .INIT
  | .create => .CREATE
  | .mark => .MARK
  | .rotate => .ROTATE
  | .close => .CLOSE

/-- An event of the verdict: the fields the indexer reads. -/
structure TransactionValidationEvent where
  /-- The operation. -/
  operation : ValidatedOperation
  /-- The class. -/
  validityClass : ValidityClass
  /-- The reason. -/
  reason : Reason
  /-- The object. -/
  objectKey : Option Hash
  deriving DecidableEq

/-- The verdict on a transaction. -/
structure TransactionValidationResult where
  /-- The transaction concerns the protocol. -/
  relevant : Bool
  /-- The marker, when exactly one was parsed. -/
  marker : Option Marker
  /-- The events. -/
  events : List TransactionValidationEvent
  deriving DecidableEq

/-- A function that judges transactions; it may throw. -/
abbrev Validator := TransactionEvidence → TransactionValidationContext → Except String TransactionValidationResult

/-! ### Marker candidates of a transaction -/

/-- The outputs that count as markers, with their indexes: an INIT candidate of another
transaction than the configured INIT does not count. -/
def countedCandidates (transaction : TransactionEvidence) (initTxid : Hash) : List (TransactionOutputEvidence × ℕ) :=
  transaction.outputs.zipIdx.filter fun entry =>
    let inspection := inspectMarkerScript entry.1.scriptPubKey
    inspection.candidate && !(inspection.payload[6]? = some 0 && transaction.txid ≠ initTxid)

/-! ### The contract -/

/-- The call names only carriers that the transaction spends, and does not ask about the
configured INIT without a marker while it spends a carrier: the calls the indexer makes. -/
structure ProperCall (transaction : TransactionEvidence) (context : TransactionValidationContext) : Prop where
  /-- Every carrier is spent by an input. -/
  spent : ∀ carrier ∈ context.activeCarriers, ∃ input ∈ transaction.inputs, input.outpoint = carrier.outpoint
  /-- A configured INIT that spends a carrier has a marker. -/
  marked : transaction.txid = context.init.txid → context.activeCarriers ≠ [] →
    countedCandidates transaction context.init.txid ≠ []

/-- The verdicts the protocol allows. -/
inductive Verdict (transaction : TransactionEvidence) (context : TransactionValidationContext) :
    TransactionValidationResult → Prop
  /-- No marker counts and no carrier is spent. -/
  | ignored {relevant : Bool} {marker : Option Marker} (none : context.activeCarriers = [])
      (other : transaction.txid ≠ context.init.txid)
      (unmarked : countedCandidates transaction context.init.txid = []) :
      Verdict transaction context ⟨relevant, marker, []⟩
  /-- Not an operation, and no carrier is spent. -/
  | invalid {marker : Option Marker} {event : TransactionValidationEvent}
      (none : context.activeCarriers = [])
      (counted : transaction.txid = context.init.txid ∨
        countedCandidates transaction context.init.txid ≠ [])
      (cls : event.validityClass = .INVALID_NO_STATE) : Verdict transaction context ⟨true, marker, [event]⟩
  /-- The configured INIT, valid. -/
  | init {marker : Option Marker} {event : TransactionValidationEvent}
      (none : context.activeCarriers = []) (configured : transaction.txid = context.init.txid)
      (counted : countedCandidates transaction context.init.txid ≠ [])
      (cls : event.validityClass = .VALID_OPERATION) (op : event.operation = .INIT) :
      Verdict transaction context ⟨true, marker, [event]⟩
  /-- A valid CREATE. -/
  | create {marker : Option Marker} {event : TransactionValidationEvent}
      (none : context.activeCarriers = []) (other : transaction.txid ≠ context.init.txid)
      (counted : countedCandidates transaction context.init.txid ≠ [])
      (cls : event.validityClass = .VALID_OPERATION) (op : event.operation = .CREATE) :
      Verdict transaction context ⟨true, marker, [event]⟩
  /-- A valid MARK of the one carrier spent. -/
  | mark {carrier : ActiveCarrierEvidence} {event : TransactionValidationEvent} {network kind : ℕ}
      {ns commitment : Bytes} (one : context.activeCarriers = [carrier])
      (cls : event.validityClass = .VALID_OPERATION) (op : event.operation = .MARK)
      (key : event.objectKey = some carrier.objectKey) :
      Verdict transaction context
        ⟨true, some (.mark network ns (carrier.stateSequence + 1) kind commitment), [event]⟩
  /-- A valid ROTATE of the one carrier spent. -/
  | rotate {carrier : ActiveCarrierEvidence} {event : TransactionValidationEvent} {network : ℕ}
      {ns : Bytes} (one : context.activeCarriers = [carrier])
      (cls : event.validityClass = .VALID_OPERATION) (op : event.operation = .ROTATE)
      (key : event.objectKey = some carrier.objectKey) :
      Verdict transaction context ⟨true, some (.rotate network ns (carrier.stateSequence + 1)), [event]⟩
  /-- A valid CLOSE of the one carrier spent. -/
  | close {carrier : ActiveCarrierEvidence} {event : TransactionValidationEvent} {network reason : ℕ}
      {ns commitment : Bytes} (one : context.activeCarriers = [carrier])
      (cls : event.validityClass = .VALID_OPERATION) (op : event.operation = .CLOSE)
      (key : event.objectKey = some carrier.objectKey) :
      Verdict transaction context
        ⟨true, some (.close network ns (carrier.stateSequence + 1) reason commitment), [event]⟩
  /-- A valid REFUND of the one carrier spent. -/
  | refund {carrier : ActiveCarrierEvidence} {marker : Option Marker} {event : TransactionValidationEvent}
      (one : context.activeCarriers = [carrier])
      (cls : event.validityClass = .VALID_OPERATION) (op : event.operation = .REFUND)
      (key : event.objectKey = some carrier.objectKey) : Verdict transaction context ⟨true, marker, [event]⟩
  /-- Any other spend: one terminal event for each carrier. -/
  | exits {marker : Option Marker} {events : List TransactionValidationEvent}
      (some : context.activeCarriers ≠ [])
      (cls : ∀ event ∈ events, event.validityClass = .TERMINAL_NONCANONICAL)
      (keys : (events.map TransactionValidationEvent.objectKey).Perm
        (context.activeCarriers.map fun carrier => Option.some carrier.objectKey)) :
      Verdict transaction context ⟨true, marker, events⟩

/-- **The documented contract of the validator**: on a proper call, whatever it returns is
one of the verdicts above. -/
def ValidatorContract (validate : Validator) : Prop :=
  ∀ transaction context result, ProperCall transaction context →
    validate transaction context = .ok result → Verdict transaction context result

/-! ### The dispatch -/

/-- The per-operation checks of the package, each with the reason it ends with. -/
structure Checks where
  /-- `validateCompressedPublicKey` does not throw. -/
  validCompressedKey : Bytes → Bool
  /-- `checkInit`. -/
  checkInit : Marker → TransactionEvidence → TransactionValidationContext → ℕ → Reason
  /-- `checkCreate`. -/
  checkCreate : TransactionEvidence → TransactionValidationContext → ℕ → Reason
  /-- `checkMark`. -/
  checkMark : Marker → TransactionEvidence → Option ActiveCarrierEvidence → ℕ → Reason
  /-- `checkRotate`. -/
  checkRotate : Marker → TransactionEvidence → Option ActiveCarrierEvidence → ℕ → Reason
  /-- `checkClose`. -/
  checkClose : Marker → TransactionEvidence → Option ActiveCarrierEvidence → ℕ → Reason
  /-- `checkRefund`. -/
  checkRefund : TransactionEvidence → ActiveCarrierEvidence → Reason

/-- `makeEvents(operation, check, states)`. -/
def makeEvents (operation : Option ValidatedOperation) (reason : Reason)
    (states : List ActiveCarrierEvidence) : List TransactionValidationEvent :=
  if reason ≠ .VALID ∧ states ≠ [] then
    (sortBy (fun left right => bytesLE left.objectKey.bytes right.objectKey.bytes) states).map fun state =>
      ⟨.EXITED_NONCANONICAL, .TERMINAL_NONCANONICAL, reason, some state.objectKey⟩
  else
    [⟨operation.getD .INVALID, if reason = .VALID then .VALID_OPERATION else .INVALID_NO_STATE, reason,
      states.head?.map ActiveCarrierEvidence.objectKey⟩]

section

variable (checks : Checks)

/-- `validateContext(context)`, for what the types do not fix. -/
def validateContext (context : TransactionValidationContext) : Except String Unit :=
  context.activeCarriers.forM fun state => do
    assertLength state.outpoint 36 "active outpoint"
    ensure (checks.validCompressedKey state.key0 = true) "public key is not compressed"
    ensure (checks.validCompressedKey state.key1 = true) "public key is not compressed"
    ensure (bytesLE state.key1 state.key0 = false) "active carrier keys must be sorted and distinct"

/-- The check of the operation a marker names. -/
def checkMarker (marker : Marker) (transaction : TransactionEvidence) (context : TransactionValidationContext)
    (state : Option ActiveCarrierEvidence) (markerIndex : ℕ) : Reason :=
  match marker.operation with
  | .init => checks.checkInit marker transaction context markerIndex
  | .create => checks.checkCreate transaction context markerIndex
  | .mark => checks.checkMark marker transaction state markerIndex
  | .rotate => checks.checkRotate marker transaction state markerIndex
  | .close => checks.checkClose marker transaction state markerIndex

/-- The namespace or spec hash a marker names. -/
def Marker.binds : Marker → Bytes
  | .init _ _ _ _ _ specHash => specHash
  | .create _ ns => ns
  | .mark _ ns _ _ _ => ns
  | .rotate _ ns _ => ns
  | .close _ ns _ _ _ => ns

/-- `validateTandemTransaction(transaction, context)`. -/
def validateTandemTransaction : Validator := fun transaction context => do
  validateContext checks context
  let consumedStates := context.activeCarriers.filter fun state =>
    transaction.inputs.any fun input => input.outpoint = state.outpoint
  let candidates := countedCandidates transaction context.init.txid
  let configuredInit := transaction.txid = context.init.txid
  if configuredInit ∧ candidates = [] then
    pure ⟨true, none, makeEvents none .BAD_MARKER_ENCODING_OR_LENGTH []⟩
  else if candidates.length > 1 then pure ⟨true, none, makeEvents none .MULTIPLE_MARKERS consumedStates⟩
  else if consumedStates.length > 1 then pure ⟨true, none, makeEvents none .MULTIPLE_CARRIERS consumedStates⟩
  else
    match candidates.head?, consumedStates.head? with
    | none, none => pure ⟨false, none, []⟩
    | none, some state =>
      if transaction.inputs.length = 1 ∧ transaction.outputs.length = 2 then
        pure ⟨true, none, makeEvents (some .REFUND) (checks.checkRefund transaction state) [state]⟩
      else pure ⟨true, none, makeEvents none .UNMARKED_CARRIER_SPEND [state]⟩
    | some candidate, state =>
      match parseMarkerScript candidate.1.scriptPubKey context.network with
      | .error reason => pure ⟨true, none, makeEvents none reason consumedStates⟩
      | .ok marker =>
        let operation := some marker.operation.validated
        if configuredInit ∧ marker.operation ≠ .init then
          pure ⟨true, some marker, makeEvents operation .UNSUPPORTED_OR_RESERVED_FIELD consumedStates⟩
        else if marker.operation = .init ∧ marker.binds ≠ context.init.specHash.bytes then
          pure ⟨true, some marker, makeEvents operation .UNSUPPORTED_OR_RESERVED_FIELD consumedStates⟩
        else if marker.operation ≠ .init ∧ marker.binds ≠ context.ns.bytes then
          pure ⟨true, some marker, makeEvents operation .WRONG_NAMESPACE consumedStates⟩
        else
          pure ⟨true, some marker,
            makeEvents operation (checkMarker checks marker transaction context state candidate.2) consumedStates⟩

/-- What the checks must see to themselves: an INIT or CREATE spends no carrier, the
other operations name the carrier's next sequence. -/
structure ChecksSound : Prop where
  /-- A carrier's output is no P2WPKH output, so no INIT spends one. -/
  init : ∀ marker transaction context index, checks.checkInit marker transaction context index = .VALID →
    ∀ carrier ∈ context.activeCarriers, ∀ input ∈ transaction.inputs, input.outpoint ≠ carrier.outpoint
  /-- Likewise a CREATE. -/
  create : ∀ transaction context index, checks.checkCreate transaction context index = .VALID →
    ∀ carrier ∈ context.activeCarriers, ∀ input ∈ transaction.inputs, input.outpoint ≠ carrier.outpoint
  /-- A valid MARK is the next of its object. -/
  mark : ∀ network ns sequence kind commitment transaction state index,
    checks.checkMark (.mark network ns sequence kind commitment) transaction state index = .VALID →
    ∃ carrier, state = some carrier ∧ sequence = carrier.stateSequence + 1
  /-- Likewise a ROTATE. -/
  rotate : ∀ network ns sequence transaction state index,
    checks.checkRotate (.rotate network ns sequence) transaction state index = .VALID →
    ∃ carrier, state = some carrier ∧ sequence = carrier.stateSequence + 1
  /-- Likewise a CLOSE. -/
  close : ∀ network ns sequence reason commitment transaction state index,
    checks.checkClose (.close network ns sequence reason commitment) transaction state index = .VALID →
    ∃ carrier, state = some carrier ∧ sequence = carrier.stateSequence + 1

end

/-! ### The dispatch keeps the contract -/

section

variable {checks : Checks} {transaction : TransactionEvidence} {context : TransactionValidationContext}

/-- A reason other than `VALID` ends every carrier spent, or makes the transaction invalid. -/
theorem verdict_of_failure {reason : Reason} (hr : reason ≠ .VALID) (marker : Option Marker)
    (operation : Option ValidatedOperation)
    (counted : transaction.txid = context.init.txid ∨ countedCandidates transaction context.init.txid ≠ [] ∨
      context.activeCarriers ≠ []) :
    Verdict transaction context ⟨true, marker, makeEvents operation reason context.activeCarriers⟩ := by
  by_cases hc : context.activeCarriers = []
  · rw [hc]
    simp only [makeEvents, ne_eq, not_true_eq_false, and_false, if_false, if_neg hr]
    exact .invalid hc (counted.imp_right fun h => h.resolve_right (not_not.mpr hc)) rfl
  · rw [makeEvents, if_pos ⟨hr, hc⟩]
    refine .exits hc (fun event he => ?_) ?_
    · obtain ⟨_, -, rfl⟩ := List.mem_map.mp he
      rfl
    · rw [List.map_map]
      exact (sortBy_perm _ _).map _

/-- On a proper call the dispatch finds every carrier spent. -/
theorem consumed_eq (proper : ProperCall transaction context) :
    (context.activeCarriers.filter fun state => transaction.inputs.any fun input => input.outpoint = state.outpoint) =
      context.activeCarriers := by
  rw [List.filter_eq_self]
  intro carrier hc
  obtain ⟨input, hi, ho⟩ := proper.spent carrier hc
  simpa using ⟨input, hi, ho⟩

/-- The verdict on a transaction whose marker was parsed and names this protocol. -/
theorem verdict_of_marker (sound : ChecksSound checks) (proper : ProperCall transaction context)
    {marker : Marker} {candidate : TransactionOutputEvidence × ℕ}
    (hcand : countedCandidates transaction context.init.txid = [candidate])
    (hone : context.activeCarriers.length ≤ 1)
    (hinit : transaction.txid = context.init.txid ↔ marker.operation = .init) :
    Verdict transaction context ⟨true, some marker, makeEvents (some marker.operation.validated)
      (checkMarker checks marker transaction context context.activeCarriers.head? candidate.2)
      context.activeCarriers⟩ := by
  have hcounted : countedCandidates transaction context.init.txid ≠ [] := by simp [hcand]
  by_cases hr : checkMarker checks marker transaction context context.activeCarriers.head? candidate.2 = .VALID
  case neg => exact verdict_of_failure hr _ _ (.inr (.inl hcounted))
  -- An INIT or CREATE that passed its check spends no carrier.
  have hnone : (∀ carrier ∈ context.activeCarriers, ∀ input ∈ transaction.inputs,
      input.outpoint ≠ carrier.outpoint) → context.activeCarriers = [] := fun h =>
    List.eq_nil_iff_forall_not_mem.mpr fun carrier hc =>
      let ⟨input, hi, ho⟩ := proper.spent carrier hc
      h carrier hc input hi ho
  -- A state that passed its check is the one carrier.
  have hsome : ∀ {carrier}, context.activeCarriers.head? = some carrier → context.activeCarriers = [carrier] := by
    intro carrier h
    match hl : context.activeCarriers with
    | [] => simp [hl] at h
    | [c] => simpa [hl] using h
    | _ :: _ :: _ => simp [hl] at hone
  rw [hr]
  cases marker with
  | init =>
    have hn := hnone (sound.init _ _ _ _ hr)
    simp only [makeEvents, hn, ne_eq, not_true_eq_false, false_and, if_false, if_true]
    exact .init hn (hinit.mpr rfl) hcounted rfl rfl
  | create =>
    have hn := hnone (sound.create _ _ _ hr)
    simp only [makeEvents, hn, ne_eq, not_true_eq_false, false_and, if_false, if_true]
    exact .create hn (fun h => nomatch hinit.mp h) hcounted rfl rfl
  | mark =>
    obtain ⟨carrier, hc, rfl⟩ := sound.mark _ _ _ _ _ _ _ _ hr
    simp only [makeEvents, hsome hc, ne_eq, not_true_eq_false, false_and, if_false, if_true]
    exact .mark (hsome hc) rfl rfl rfl
  | rotate =>
    obtain ⟨carrier, hc, rfl⟩ := sound.rotate _ _ _ _ _ _ hr
    simp only [makeEvents, hsome hc, ne_eq, not_true_eq_false, false_and, if_false, if_true]
    exact .rotate (hsome hc) rfl rfl rfl
  | close =>
    obtain ⟨carrier, hc, rfl⟩ := sound.close _ _ _ _ _ _ _ _ hr
    simp only [makeEvents, hsome hc, ne_eq, not_true_eq_false, false_and, if_false, if_true]
    exact .close (hsome hc) rfl rfl rfl

/-- An INIT candidate that counts belongs to the configured INIT. -/
theorem not_counted_of_init {candidate : TransactionOutputEvidence × ℕ} {marker : Marker}
    (hcand : countedCandidates transaction context.init.txid = [candidate])
    (hp : parseMarkerScript candidate.1.scriptPubKey context.network = .ok marker)
    (hi : marker.operation = .init) (he : transaction.txid ≠ context.init.txid) : False := by
  have hm : candidate ∈ countedCandidates transaction context.init.txid := by simp [hcand]
  obtain ⟨-, hlen, opcode, ho, -, -, -, hf⟩ := parseMarkerScript_ok hp
  rw [parsePayload_operation hf] at hi
  subst hi
  simp only [countedCandidates, List.mem_filter, Bool.and_eq_true, Bool.not_eq_true'] at hm
  have hn := hm.2.2
  simp only [he, ne_eq, not_false_eq_true, decide_true, Bool.and_true, decide_eq_false_iff_not] at hn
  refine hn ?_
  rw [List.getElem?_eq_getElem (by omega), Option.some.injEq, ← UInt8.toNat_inj]
  rw [List.getD_eq_getElem?_getD, List.getElem?_eq_getElem (by omega), Option.getD_some] at ho
  exact Opcode.ofCode_init ho

/-- **The dispatch keeps the contract** when the per-operation checks are sound. -/
theorem validateTandemTransaction_contract (sound : ChecksSound checks) :
    ValidatorContract (validateTandemTransaction checks) := by
  intro transaction context result proper h
  simp only [validateTandemTransaction, consumed_eq proper] at h
  obtain ⟨_, -, h⟩ := bind_eq_ok.mp h
  by_cases h₁ : transaction.txid = context.init.txid ∧ countedCandidates transaction context.init.txid = []
  · rw [if_pos h₁] at h
    obtain rfl := pure_eq_ok.mp h
    have hc : context.activeCarriers = [] := by_contra fun hc => proper.marked h₁.1 hc h₁.2
    rw [← hc]
    exact verdict_of_failure (by decide) _ _ (.inl h₁.1)
  rw [if_neg h₁] at h
  by_cases h₂ : (countedCandidates transaction context.init.txid).length > 1
  · rw [if_pos h₂] at h
    obtain rfl := pure_eq_ok.mp h
    refine verdict_of_failure (by decide) _ _ (.inr (.inl fun h => ?_))
    simp [h] at h₂
  rw [if_neg h₂] at h
  by_cases h₃ : context.activeCarriers.length > 1
  · rw [if_pos h₃] at h
    obtain rfl := pure_eq_ok.mp h
    refine verdict_of_failure (by decide) _ _ (.inr (.inr fun h => ?_))
    simp [h] at h₃
  rw [if_neg h₃] at h
  cases hcand : countedCandidates transaction context.init.txid with
  | nil =>
    cases hact : context.activeCarriers with
    | nil =>
      simp only [hcand, hact, List.head?_nil] at h
      obtain rfl := pure_eq_ok.mp h
      exact .ignored hact (fun he => h₁ ⟨he, hcand⟩) hcand
    | cons state rest =>
      obtain rfl : rest = [] := by
        rw [hact, List.length_cons] at h₃
        exact List.length_eq_zero_iff.mp (by omega)
      have hspent : context.activeCarriers ≠ [] := by simp [hact]
      simp only [hcand, hact, List.head?_nil, List.head?_cons] at h
      split_ifs at h
      · obtain rfl := pure_eq_ok.mp h
        by_cases hr : checks.checkRefund transaction state = .VALID
        · rw [hr]
          exact .refund hact rfl rfl rfl
        · exact hact ▸ verdict_of_failure hr _ _ (.inr (.inr hspent))
      · obtain rfl := pure_eq_ok.mp h
        exact hact ▸ verdict_of_failure (by decide) _ _ (.inr (.inr hspent))
  | cons candidate rest =>
    obtain rfl : rest = [] := by
      rw [hcand, List.length_cons] at h₂
      exact List.length_eq_zero_iff.mp (by omega)
    have hcounted : countedCandidates transaction context.init.txid ≠ [] := by simp [hcand]
    simp only [hcand, List.head?_cons] at h
    cases hp : parseMarkerScript candidate.1.scriptPubKey context.network with
    | error reason =>
      simp only [hp] at h
      obtain rfl := pure_eq_ok.mp h
      exact verdict_of_failure (parseMarkerScript_error hp) _ _ (.inr (.inl hcounted))
    | ok marker =>
      simp only [hp] at h
      split_ifs at h with h₄ h₅ h₆
      · obtain rfl := pure_eq_ok.mp h
        exact verdict_of_failure (by decide) _ _ (.inr (.inl hcounted))
      · obtain rfl := pure_eq_ok.mp h
        exact verdict_of_failure (by decide) _ _ (.inr (.inl hcounted))
      · obtain rfl := pure_eq_ok.mp h
        exact verdict_of_failure (by decide) _ _ (.inr (.inl hcounted))
      · obtain rfl := pure_eq_ok.mp h
        refine verdict_of_marker sound proper hcand (by omega) ⟨fun he => ?_, fun hi => ?_⟩
        · exact by_contra fun hm => h₄ ⟨he, hm⟩
        -- An INIT marker of another transaction is no counted candidate.
        · exact by_contra fun he => not_counted_of_init hcand hp hi he

end

end IndexTandem.Protocol
