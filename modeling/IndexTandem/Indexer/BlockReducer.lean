import IndexTandem.Indexer.Evidence
import IndexTandem.Library.JsMap

/-!
# The block reducer

`reduceBlock` connects one block: it goes through the transactions in order, asks the
validator about those that concern the protocol, and applies the verdicts to the object
map, recording the events, the object states created, the carriers spent, the chapters
written and a snapshot of every object before it was first touched. At the end it
computes the block's roots and counters.

The block that confirms the configured INIT is reduced without an activation: its INIT
is classified once to find out whether the protocol instance is valid, and the
transactions of the block are gone through only if it is.

A computation that throws is an `Except`; reading a field of a missing value is one of
the ways to throw.
-/

namespace IndexTandem.Indexer

open Library Protocol

/-! ### Records -/

/-- `ObjectStatusName`. -/
inductive ObjectStatusName where
  /-- The object has a carrier. -/
  | active
  /-- Ended by a CLOSE. -/
  | closed
  /-- Ended by a REFUND. -/
  | refunded
  /-- Ended by any other spend of its carrier. -/
  | exited_noncanonical
  deriving DecidableEq

/-- `STATUS_CODE`. -/
def ObjectStatusName.code : ObjectStatusName → ℕ
  | .active => 0
  | .closed => 1
  | .refunded => 2
  | .exited_noncanonical => 3

/-- The canonical state of an object and the height of its carrier. -/
structure ObjectRecord where
  /-- The object. -/
  objectKey : Hash
  /-- The transaction that created it. -/
  createTxid : Hash
  /-- The height of that transaction. -/
  createHeight : ℕ
  /-- It was created in the founding window. -/
  founding : Bool
  /-- Its status. -/
  status : ObjectStatusName
  /-- Its sequence. -/
  stateSequence : ℕ
  /-- Its carrier. -/
  currentOutpoint : Option Outpoint
  /-- The height at which the carrier confirmed. -/
  currentHeight : Option ℕ
  /-- The first key. -/
  key0 : String
  /-- The second key. -/
  key1 : String
  /-- The transaction that ended it. -/
  terminalTxid : Option Hash
  /-- The number of its chapters. -/
  chapterCount : ℕ
  deriving DecidableEq

/-- What the deployment is bound to. -/
structure Binding where
  /-- The network. -/
  networkCode : NetworkCode
  /-- The configured INIT. -/
  initTxid : Hash
  /-- The spec hash it commits to. -/
  specHash : Hash
  /-- The namespace of the protocol instance. -/
  ns : Hash
  deriving DecidableEq

/-- The configured INIT as its confirmation block showed it. -/
structure InitActivation where
  /-- The INIT. -/
  txid : Hash
  /-- The height of its block. -/
  height : ℕ
  /-- Its block. -/
  blockHash : Hash
  /-- The first founding height its marker names. -/
  openHeight : Option ℕ
  /-- The first height after the founding window. -/
  closeHeight : Option ℕ
  /-- It is a valid INIT. -/
  valid : Bool
  /-- The reason of its event. -/
  reason : Reason
  deriving DecidableEq

/-- The heights that a transaction is classified with. -/
structure InitHeights where
  /-- The height of the INIT. -/
  height : ℕ
  /-- The first founding height. -/
  openHeight : ℕ
  /-- The first height after the founding window. -/
  closeHeight : ℕ
  deriving DecidableEq

/-- The part of an event that does not depend on the verdict's class. -/
structure EventBase where
  /-- The transaction. -/
  txid : Hash
  /-- Its witness id. -/
  wtxid : Hash
  /-- Its position in the block. -/
  txIndex : ℕ
  /-- The output of its first marker candidate. -/
  eventIndex : ℕ
  /-- The position among the transaction's events. -/
  subIndex : ℕ
  /-- The reason. -/
  reason : Reason
  /-- The payload of its only marker candidate. -/
  markerPayload : Option String
  deriving DecidableEq

/-- An event. -/
structure EventRecord extends EventBase where
  /-- The type. -/
  eventType : EventType
  /-- The class. -/
  validityClass : ValidityClass
  /-- The namespace it is attributed to. -/
  ns : String
  /-- The object. -/
  objectKey : Option Hash
  /-- The object's sequence after it. -/
  stateSequence : ℕ
  /-- The carrier spent. -/
  predecessorOutpoint : Option Outpoint
  /-- The carrier created. -/
  successorOutpoint : Option Outpoint
  /-- The first key. -/
  key0 : Option String
  /-- The second key. -/
  key1 : Option String
  /-- The commitment. -/
  commitment : Option String
  deriving DecidableEq

/-- An object state that the block created. -/
structure NewState where
  /-- The carrier. -/
  outpoint : Outpoint
  /-- The object. -/
  objectKey : Hash
  /-- The sequence. -/
  sequence : ℕ
  /-- The first key. -/
  key0 : String
  /-- The second key. -/
  key1 : String
  deriving DecidableEq

/-- A carrier that the block spent. -/
structure SpentOutpoint where
  /-- The carrier. -/
  outpoint : Outpoint
  /-- The spending transaction. -/
  txid : Hash
  deriving DecidableEq

/-- What a chapter says. -/
structure ChapterContent where
  /-- Its kind. -/
  kind : ℕ
  /-- Its commitment. -/
  commitment : String
  deriving DecidableEq

/-- A chapter that the block wrote. -/
structure NewChapter extends ChapterContent where
  /-- The object. -/
  objectKey : Hash
  /-- The sequence. -/
  sequence : ℕ
  /-- The MARK. -/
  txid : Hash
  deriving DecidableEq

/-- A transaction of the block that has events. -/
structure ReducedTransaction where
  /-- The transaction. -/
  txid : Hash
  /-- Its witness id. -/
  wtxid : Hash
  /-- Its position. -/
  txIndex : ℕ
  /-- Its version. -/
  version : ℤ
  /-- Its lock time. -/
  locktime : ℕ
  deriving DecidableEq

/-- What is known about the block once it is connected. -/
structure ReducedBlock where
  /-- The height. -/
  height : ℕ
  /-- The block hash. -/
  hash : Hash
  /-- The parent. -/
  previousHash : Option Hash
  /-- The header time. -/
  time : ℕ
  /-- The INIT. -/
  activation : InitActivation
  /-- This is the block that confirms it. -/
  initConfirmed : Bool
  /-- The events, in the order they were emitted. -/
  events : List EventRecord
  /-- The transactions that have events. -/
  transactions : List ReducedTransaction
  /-- The objects after the block. -/
  objects : JsMap Hash ObjectRecord
  /-- Every object touched, as it was before the block; nothing for one created here. -/
  undo : JsMap Hash (Option ObjectRecord)
  /-- The states created. -/
  newStates : List NewState
  /-- The carriers spent. -/
  spentOutpoints : List SpentOutpoint
  /-- The chapters written. -/
  chapters : List NewChapter
  /-- The root of the events. -/
  eventRoot : Hash
  /-- The root of the objects. -/
  objectStateRoot : Hash
  /-- The root of the chain up to this block. -/
  chainedRoot : Hash
  /-- The objects created in the founding window. -/
  foundingCreated : ℕ
  /-- All objects. -/
  allObjects : ℕ
  /-- The active objects. -/
  activeObjects : ℕ

/-- `NO_SEQUENCE`. -/
def NO_SEQUENCE : ℕ := 0xffff_ffff

/-- `NO_INDEX`. -/
def NO_INDEX : ℕ := 0xffff_ffff

/-- The packages the indexer calls. -/
structure Packages where
  /-- SHA-256. -/
  sha256 : Bytes → Hash
  /-- The curve equation. -/
  verify : Verify
  /-- The validator. -/
  validate : Validator

/-! ### Marker candidates -/

/-- A marker candidate of a transaction. -/
structure Candidate where
  /-- The output. -/
  vout : ℕ
  /-- The bytes pushed. -/
  payload : Bytes
  /-- The push is not cut short. -/
  complete : Bool
  deriving DecidableEq

/-- `hex.startsWith("6a")`. -/
def startsWith6a (hex : String) : Bool := hex.toList.take 2 = ['6', 'a']

/-- `declaredLength(script)`: what the push says its length is. -/
def declaredLength (script : Bytes) : Except String ℤ :=
  let push := (script.getD 1 0).toNat
  if push ≥ 1 ∧ push ≤ 75 then pure push
  else if push = 0x4c then pure (script[2]?.elim (-1) fun b => (b.toNat : ℤ))
  else if push = 0x4d then pure ((script.getD 2 0).toNat ||| ((script.getD 3 0).toNat <<< 8) : ℕ)
  else if push = 0x4e then do
    ensure (6 ≤ script.length) "Attempt to access memory outside buffer bounds"
    pure (readU32LE script 2)
  else pure (-1)

/-- `remainingCandidates(transaction, initTxid)` for one output. -/
def remainingCandidate (transaction : BitcoinTransaction) (initTxid : Hash) (output : BitcoinOutput) :
    Except String (Option Candidate) := do
  if !startsWith6a output.scriptPubKeyHex then pure none
  else
    let script := bytes output.scriptPubKeyHex
    let inspection := inspectMarkerScript script
    if !inspection.candidate then pure none
    else if inspection.payload[6]? = some 0x00 ∧ transaction.txid ≠ initTxid then pure none
    else
      let declared ← declaredLength script
      pure (some ⟨output.n, inspection.payload, declared = inspection.payload.length⟩)

/-- `remainingCandidates(transaction, initTxid)`: the candidates of a transaction, without the
INIT candidates of another transaction than the configured INIT. -/
def remainingCandidates (transaction : BitcoinTransaction) (initTxid : Hash) : Except String (List Candidate) := do
  let found ← transaction.outputs.mapM (remainingCandidate transaction initTxid)
  pure (found.filterMap id)

/-- The event type an opcode stands for. -/
def Opcode.eventType : Opcode → EventType
  | .init => .INIT
  | .create => .CREATE
  | .mark => .MARK
  | .rotate => .ROTATE
  | .close => .CLOSE

/-- `attemptedType(candidate)`. -/
def attemptedType (candidate : Candidate) : EventType :=
  if candidate.payload[4]? ≠ some 0x01 then .INVALID
  else match candidate.payload[6]? with
    | none => .INVALID
    | some opcode => ((Opcode.ofCode opcode.toNat).map Opcode.eventType).getD .INVALID

/-- `populationNamespace(candidate)`: the namespace named by a whole payload of a defined
operation other than INIT. -/
def populationNamespace (candidate : Candidate) : Option Bytes :=
  match candidate.payload[6]?.bind fun b => Opcode.ofCode b.toNat with
  | none => none
  | some opcode =>
    if candidate.complete = false ∨ candidate.payload[4]? ≠ some 0x01 ∨ opcode = .init ∨
        candidate.payload.length ≠ PAYLOAD_LENGTH opcode then none
    else some (slice candidate.payload 8 40)

/-- `isRelevant(transaction, activeByOutpoint, initTxid)`. -/
def isRelevant (transaction : BitcoinTransaction) (activeByOutpoint : JsMap Outpoint Hash) (initTxid : Hash) :
    Bool :=
  transaction.txid = initTxid ||
    (transaction.outputs.any fun output =>
      startsWith6a output.scriptPubKeyHex && (inspectMarkerScript (bytes output.scriptPubKeyHex)).candidate) ||
    transaction.spends.any activeByOutpoint.has

/-- `initHeights(transaction, networkCode)`: the window named by the transaction's only marker. -/
def initHeights (transaction : BitcoinTransaction) (networkCode : NetworkCode) : Except String (Option (ℕ × ℕ)) := do
  let markers ← remainingCandidates transaction transaction.txid
  match markers with
  | [candidate] =>
    match transaction.outputs.find? fun item => item.n = candidate.vout with
    | none => pure none
    | some output =>
      match parseMarkerScript (bytes output.scriptPubKeyHex) networkCode with
      | .ok (.init _ openHeight closeHeight _ _ _) => pure (some (openHeight, closeHeight))
      | _ => pure none
  | _ => pure none

/-! ### Snapshots -/

/-- `snapshot(record)`. -/
def snapshot (record : ObjectRecord) : ObjectSnapshot where
  objectKey := record.objectKey
  founding := record.founding
  status := record.status.code
  createHeight := record.createHeight
  stateSequence := record.stateSequence
  currentOutpoint := record.currentOutpoint
  key0 := bytes record.key0
  key1 := bytes record.key1
  terminalTxid := record.terminalTxid
  chapterCount := record.chapterCount

/-- The error of reading a field of a missing value. -/
def missing (field : String) : String := "Cannot read properties of undefined (reading '" ++ field ++ "')"

/-- `carrierEvidence(record)`. -/
def carrierEvidence (record : ObjectRecord) : Except String ActiveCarrierEvidence :=
  match record.currentOutpoint with
  | none => throw (missing "split")
  | some outpoint => pure {
      objectKey := record.objectKey
      outpoint := outpointWire outpoint
      stateSequence := record.stateSequence
      key0 := bytes record.key0
      key1 := bytes record.key1
      confirmedHeight := record.currentHeight.getD 0 }

/-! ### The working state -/

/-- What the reducer carries from transaction to transaction. -/
structure WorkingState where
  /-- The objects. -/
  objects : JsMap Hash ObjectRecord
  /-- The object of each active carrier. -/
  activeByOutpoint : JsMap Outpoint Hash
  /-- The objects touched, as they were before. -/
  undo : JsMap Hash (Option ObjectRecord)
  /-- The states created. -/
  newStates : List NewState
  /-- The carriers spent. -/
  spentOutpoints : List SpentOutpoint
  /-- The chapters written. -/
  chapters : List NewChapter

/-- `touch(state, objectKey)`. -/
def touch (state : WorkingState) (objectKey : Hash) : WorkingState :=
  if state.undo.has objectKey then state
  else { state with undo := state.undo.set objectKey (state.objects.get? objectKey) }

/-- The carrier of a record is spent by `txid`, if it has one: the same lines of `terminate`
and `advance`. -/
def spendCurrent (state : WorkingState) (record : ObjectRecord) (txid : Hash) : WorkingState :=
  match record.currentOutpoint with
  | none => state
  | some outpoint => { state with
      activeByOutpoint := state.activeByOutpoint.delete outpoint
      spentOutpoints := state.spentOutpoints ++ [⟨outpoint, txid⟩] }

/-- The record `terminate` leaves. -/
def ObjectRecord.ended (record : ObjectRecord) (status : ObjectStatusName) (txid : Hash) (stateSequence : ℕ) :
    ObjectRecord :=
  { record with
    status := status
    stateSequence := stateSequence
    currentOutpoint := none
    currentHeight := none
    terminalTxid := some txid }

/-- `terminate(state, record, status, txid, stateSequence)`. -/
def terminate (state : WorkingState) (record : ObjectRecord) (status : ObjectStatusName) (txid : Hash)
    (stateSequence : ℕ) : WorkingState :=
  let state := spendCurrent (touch state record.objectKey) record txid
  { state with objects := state.objects.set record.objectKey (record.ended status txid stateSequence) }

/-- The carrier a transaction creates: `txid:1`. -/
def successorOf (txid : Hash) : Outpoint := ⟨txid, 1⟩

/-- The record `advance` leaves. -/
def ObjectRecord.moved (record : ObjectRecord) (txid : Hash) (height sequence : ℕ) (key0 key1 : String)
    (chapter : Option ChapterContent) : ObjectRecord :=
  { record with
    stateSequence := sequence
    currentOutpoint := some (successorOf txid)
    currentHeight := some height
    key0 := key0
    key1 := key1
    chapterCount := record.chapterCount + if chapter.isSome then 1 else 0 }

/-- `advance(state, record, txid, height, sequence, key0, key1, chapter)`. -/
def advance (state : WorkingState) (record : ObjectRecord) (txid : Hash) (height sequence : ℕ)
    (key0 key1 : String) (chapter : Option ChapterContent) : WorkingState :=
  let state := spendCurrent (touch state record.objectKey) record txid
  { state with
    activeByOutpoint := state.activeByOutpoint.set (successorOf txid) record.objectKey
    objects := state.objects.set record.objectKey (record.moved txid height sequence key0 key1 chapter)
    newStates := state.newStates ++ [⟨successorOf txid, record.objectKey, sequence, key0, key1⟩]
    chapters := state.chapters ++
      (chapter.map fun content => (⟨content, record.objectKey, sequence, txid⟩ : NewChapter)).toList }

/-- The record a CREATE makes. -/
def createdRecord (activation : InitHeights) (objectKey txid : Hash) (height : ℕ) (key0 key1 : String) :
    ObjectRecord where
  objectKey := objectKey
  createTxid := txid
  createHeight := height
  founding := activation.openHeight ≤ height && height < activation.closeHeight
  status := .active
  stateSequence := 0
  currentOutpoint := some (successorOf txid)
  currentHeight := some height
  key0 := key0
  key1 := key1
  terminalTxid := none
  chapterCount := 0

/-- The changes a CREATE makes. -/
def create (state : WorkingState) (record : ObjectRecord) (outpoint : Outpoint) : WorkingState :=
  let state := touch state record.objectKey
  { state with
    objects := state.objects.set record.objectKey record
    activeByOutpoint := state.activeByOutpoint.set outpoint record.objectKey
    newStates := state.newStates ++ [⟨outpoint, record.objectKey, 0, record.key0, record.key1⟩] }

/-! ### Classification -/

/-- The state and the events so far. -/
structure Progress where
  /-- The state. -/
  state : WorkingState
  /-- The events. -/
  events : List EventRecord

/-- `toLowerCase()` of hexadecimal text. -/
def toLowerCase (text : String) : String := String.ofList (text.toList.map Char.toLower)

/-- `revealed(index)` of `applyValid`: the second witness element of an input. -/
def revealed (transaction : BitcoinTransaction) (index : ℕ) : String :=
  toLowerCase ((transaction.inputs[index]?.bind fun input => input.witness[1]?).getD "")

/-- `marker.sequence`. -/
def markerSequence : Option Marker → Except String ℕ
  | some (.mark _ _ sequence _ _) => pure sequence
  | some (.rotate _ _ sequence) => pure sequence
  | some (.close _ _ sequence _ _) => pure sequence
  | _ => throw (missing "sequence")

/-- The object an event names. -/
def namedKey (event : TransactionValidationEvent) : Except String Hash :=
  match event.objectKey with
  | some key => pure key
  | none => throw "The first argument must be of type string or an instance of Buffer"

/-- The record of an object. -/
def recordOf (state : WorkingState) (key : Hash) : Except String ObjectRecord :=
  match state.objects.get? key with
  | some record => pure record
  | none => throw (missing "currentOutpoint")

/-- `applyValid(…)`: the effect and the event of a valid operation. -/
def applyValid (packages : Packages) (binding : Binding) (activation : InitHeights) (state : WorkingState)
    (transaction : BitcoinTransaction) (height : ℕ) (event : TransactionValidationEvent) (marker : Option Marker)
    (base : EventBase) : Except String (WorkingState × EventRecord) :=
  let common : EventRecord := { base with
    eventType := .INVALID
    validityClass := .VALID_OPERATION
    ns := binding.ns.text
    objectKey := none
    stateSequence := NO_SEQUENCE
    predecessorOutpoint := none
    successorOutpoint := none
    key0 := none
    key1 := none
    commitment := none }
  match event.operation with
  | .INIT =>
    let commitment := match marker with
      | some (.init _ _ _ _ _ specHash) => some (toHex specHash)
      | _ => none
    pure (state, { common with eventType := .INIT, commitment := commitment })
  | .CREATE =>
    let objectKey := objectKeyFromWire packages.sha256 binding.ns transaction.txid
    let record := createdRecord activation objectKey transaction.txid height (revealed transaction 0)
      (revealed transaction 1)
    let successor := successorOf transaction.txid
    pure (create state record successor, { common with
      eventType := .CREATE
      objectKey := some objectKey
      stateSequence := 0
      successorOutpoint := some successor
      key0 := some record.key0
      key1 := some record.key1 })
  | .REFUND => do
    let objectKey ← namedKey event
    let record ← recordOf state objectKey
    pure (terminate state record .refunded transaction.txid record.stateSequence, { common with
      eventType := .REFUND
      objectKey := some objectKey
      stateSequence := record.stateSequence
      predecessorOutpoint := record.currentOutpoint
      key0 := some record.key0
      key1 := some record.key1 })
  | .MARK | .ROTATE | .CLOSE => do
    let objectKey ← namedKey event
    let record ← recordOf state objectKey
    let sequence ← markerSequence marker
    match marker with
    | some (.close _ _ _ _ commitment) =>
      pure (terminate state record .closed transaction.txid sequence, { common with
        eventType := .CLOSE
        objectKey := some objectKey
        stateSequence := sequence
        predecessorOutpoint := record.currentOutpoint
        key0 := some record.key0
        key1 := some record.key1
        commitment := some (toHex commitment) })
    | some (.mark _ _ _ kind commitment) =>
      pure (advance state record transaction.txid height sequence record.key0 record.key1
          (some ⟨kind, toHex commitment⟩), { common with
        eventType := .MARK
        objectKey := some objectKey
        stateSequence := sequence
        predecessorOutpoint := record.currentOutpoint
        successorOutpoint := some (successorOf transaction.txid)
        key0 := some record.key0
        key1 := some record.key1
        commitment := some (toHex commitment) })
    | _ =>
      let key0 := revealed transaction 1
      let key1 := revealed transaction 2
      pure (advance state record transaction.txid height sequence key0 key1 none, { common with
        eventType := .ROTATE
        objectKey := some objectKey
        stateSequence := sequence
        predecessorOutpoint := record.currentOutpoint
        successorOutpoint := some (successorOf transaction.txid)
        key0 := some key0
        key1 := some key1 })
  | .EXITED_NONCANONICAL => throw "unexpected valid operation EXITED_NONCANONICAL"
  | .INVALID => throw "unexpected valid operation INVALID"

/-- The namespace an event without state is attributed to: the deployment's own, or the one its
only candidate names. -/
def eventNamespace (binding : Binding) (own : Prop) [Decidable own] (candidates : List Candidate) : String :=
  if own then toHex binding.ns.bytes
  else match candidates with
    | [candidate] => toHex ((populationNamespace candidate).getD Hash.zero.bytes)
    | _ => toHex Hash.zero.bytes

/-- The body of the loop of `classifyTransaction` over the verdict's events. -/
def applyEvent (packages : Packages) (binding : Binding) (activation : InitHeights)
    (transaction : BitcoinTransaction) (height : ℕ) (marker : Option Marker) (candidates : List Candidate)
    (state : WorkingState) (event : TransactionValidationEvent) (base : EventBase) :
    Except String (WorkingState × EventRecord) :=
  match event.validityClass with
  | .VALID_OPERATION => applyValid packages binding activation state transaction height event marker base
  | .TERMINAL_NONCANONICAL => do
    let key ← namedKey event
    let record ← recordOf state key
    pure (terminate state record .exited_noncanonical transaction.txid record.stateSequence, { base with
      eventType := .EXITED_NONCANONICAL
      validityClass := .TERMINAL_NONCANONICAL
      ns := eventNamespace binding (candidates = []) candidates
      objectKey := some key
      stateSequence := record.stateSequence
      predecessorOutpoint := record.currentOutpoint
      successorOutpoint := none
      key0 := some record.key0
      key1 := some record.key1
      commitment := none })
  | .INVALID_NO_STATE =>
    pure (state, { base with
      eventType := match candidates with
        | [candidate] => attemptedType candidate
        | _ => .INVALID
      validityClass := .INVALID_NO_STATE
      ns := eventNamespace binding (transaction.txid = binding.initTxid) candidates
      objectKey := none
      stateSequence := NO_SEQUENCE
      predecessorOutpoint := none
      successorOutpoint := none
      key0 := none
      key1 := none
      commitment := none })

/-- The records whose carriers a transaction spends, in the order of its inputs. -/
def consumedRecords (state : WorkingState) (transaction : BitcoinTransaction) : Except String (List ObjectRecord) :=
  (transaction.spends.filterMap state.activeByOutpoint.get?).mapM (recordOf state)

/-- The part of the `subIndex`-th event that does not depend on its class. -/
def eventBase (transaction : BitcoinTransaction) (txIndex : ℕ) (candidates : List Candidate)
    (event : TransactionValidationEvent) (subIndex : ℕ) : EventBase where
  txid := transaction.txid
  wtxid := transaction.wtxid
  txIndex := txIndex
  eventIndex := (candidates.head?.map Candidate.vout).getD NO_INDEX
  subIndex := subIndex
  reason := event.reason
  markerPayload := match candidates with
    | [candidate] => some (toHex candidate.payload)
    | _ => none

/-- One turn of the loop of `classifyTransaction` over the verdict's events. -/
def applyEntry (packages : Packages) (binding : Binding) (activation : InitHeights)
    (transaction : BitcoinTransaction) (txIndex height : ℕ) (marker : Option Marker) (candidates : List Candidate)
    (progress : Progress) (entry : TransactionValidationEvent × ℕ) : Except String Progress := do
  let done ← applyEvent packages binding activation transaction height marker candidates progress.state entry.1
    (eventBase transaction txIndex candidates entry.1 entry.2)
  pure ⟨done.1, progress.events ++ [done.2]⟩

/-- The events of a verdict, one after the other. -/
def applyEvents (packages : Packages) (binding : Binding) (activation : InitHeights)
    (transaction : BitcoinTransaction) (txIndex height : ℕ) (marker : Option Marker) (candidates : List Candidate)
    (state : WorkingState) (events : List TransactionValidationEvent) : Except String Progress :=
  events.zipIdx.foldlM (applyEntry packages binding activation transaction txIndex height marker candidates)
    ⟨state, []⟩

/-- `classifyTransaction(binding, activation, state, transaction, txIndex, height)`. -/
def classifyTransaction (packages : Packages) (binding : Binding) (activation : InitHeights) (state : WorkingState)
    (transaction : BitcoinTransaction) (txIndex height : ℕ) : Except String Progress := do
  let consumed ← consumedRecords state transaction
  let evidence ← buildTransactionEvidence packages.sha256 packages.verify transaction height
  let activeCarriers ← consumed.mapM carrierEvidence
  let result ← packages.validate evidence {
    network := binding.networkCode
    ns := binding.ns
    init := ⟨binding.initTxid, binding.specHash, activation.height, activation.openHeight, activation.closeHeight⟩
    activeCarriers := activeCarriers }
  if !result.relevant || result.events.isEmpty then pure ⟨state, []⟩
  else do
    let candidates ← remainingCandidates transaction binding.initTxid
    applyEvents packages binding activation transaction txIndex height result.marker candidates state result.events

/-! ### Roots -/

/-- The bytes of an optional text; zeros when it is absent or empty. -/
def bytesOr (length : ℕ) (text : Option String) : Bytes :=
  match text with
  | none => List.replicate length 0
  | some value => if value = "" then List.replicate length 0 else bytes value

/-- `canonicalEvent(record, blockHashWire, height)`. -/
def canonicalEvent (blockHash : Hash) (height : ℕ) (record : EventRecord) : CanonicalEvent where
  namespaceBytes := bytes record.ns
  blockHash := blockHash
  height := height
  txIndex := record.txIndex
  eventIndex := record.eventIndex
  subIndex := record.subIndex
  eventType := record.eventType
  validityClass := record.validityClass
  reason := record.reason
  txid := record.txid
  wtxid := record.wtxid
  objectKey := record.objectKey.getD Hash.zero
  stateSequence := record.stateSequence
  predecessorOutpoint := record.predecessorOutpoint
  successorOutpoint := record.successorOutpoint
  key0 := bytesOr 33 record.key0
  key1 := bytesOr 33 record.key1
  commitment := bytesOr 32 record.commitment

/-! ### The block -/

/-- The carriers of the active records: the index `reduceBlock` starts with. -/
def indexActive (objects : JsMap Hash ObjectRecord) : JsMap Outpoint Hash :=
  objects.values.foldl (fun index record =>
    match record.status, record.currentOutpoint with
    | .active, some outpoint => index.set outpoint record.objectKey
    | _, _ => index) ∅

/-- The state `reduceBlock` starts with. -/
def WorkingState.start (objects : JsMap Hash ObjectRecord) : WorkingState where
  objects := objects
  activeByOutpoint := indexActive objects
  undo := ∅
  newStates := []
  spentOutpoints := []
  chapters := []

/-- The heights of a valid activation; nothing when its block's transactions are not gone through. -/
def InitActivation.heights? (activation : InitActivation) : Option InitHeights :=
  match activation.valid, activation.openHeight, activation.closeHeight with
  | true, some openHeight, some closeHeight => some ⟨activation.height, openHeight, closeHeight⟩
  | _, _, _ => none

/-- What the first part of `reduceBlock` finds out. -/
structure Activated where
  /-- The INIT. -/
  activation : InitActivation
  /-- The state and the events so far. -/
  progress : Progress

/-- The branch of `reduceBlock` that confirms the configured INIT. -/
def confirmInit (packages : Packages) (binding : Binding) (block : BitcoinBlock) (ordered : List OrderedTransaction)
    (state : WorkingState) : Except String Activated :=
  match ordered.find? fun entry => entry.transaction.txid = binding.initTxid with
  | none => throw "configured INIT is not in the activation block"
  | some init => do
    let heights ← initHeights init.transaction binding.networkCode
    let classified ← classifyTransaction packages binding
      ⟨block.height, (heights.map Prod.fst).getD 0, (heights.map Prod.snd).getD 0⟩
      state init.transaction init.txIndex block.height
    let initEvent := classified.events.head?
    let valid := initEvent.any fun event => event.validityClass = .VALID_OPERATION
    pure {
      activation := {
        txid := binding.initTxid
        height := block.height
        blockHash := block.hash
        openHeight := heights.map Prod.fst
        closeHeight := heights.map Prod.snd
        valid := valid
        reason := (initEvent.map fun event => event.reason).getD .BAD_MARKER_ENCODING_OR_LENGTH }
      progress := ⟨classified.state, if valid then [] else classified.events⟩ }

/-- One turn of the loop of `reduceBlock` over the block's transactions. -/
def connectTransaction (packages : Packages) (binding : Binding) (heights : InitHeights) (height : ℕ)
    (progress : Progress) (entry : OrderedTransaction) : Except String Progress :=
  if isRelevant entry.transaction progress.state.activeByOutpoint binding.initTxid then do
    let classified ← classifyTransaction packages binding heights progress.state entry.transaction entry.txIndex height
    pure ⟨classified.state, progress.events ++ classified.events⟩
  else pure progress

/-- The last part of `reduceBlock`: roots, counters and the transactions that have events. -/
def finishBlock (packages : Packages) (binding : Binding) (previousRoot : Hash) (block : BitcoinBlock)
    (ordered : List OrderedTransaction) (activation : InitActivation) (initConfirmed : Bool) (progress : Progress) :
    Except String ReducedBlock := do
  let state := progress.state
  let events := progress.events
  let records := state.objects.values
  let eventRoot ← eventRoot packages.sha256 binding.ns (events.map (canonicalEvent block.hash block.height))
  let objectStateRoot ← objectStateRoot packages.sha256 binding.ns (records.map snapshot)
  let foundingCreated := (records.filter fun record => record.founding).length
  let allObjects := records.length
  let activeObjects := (records.filter fun record => record.status = .active).length
  let chainedRoot ← chainedBlockRoot packages.sha256
    ⟨binding.ns, previousRoot, block.hash, block.height, eventRoot, objectStateRoot, foundingCreated, allObjects,
      activeObjects⟩
  pure {
    height := block.height
    hash := block.hash
    previousHash := block.previousBlockHash
    time := block.time
    activation := activation
    initConfirmed := initConfirmed
    events := events
    transactions := (ordered.filter fun entry => events.any fun event => event.txid = entry.transaction.txid).map
      fun entry => ⟨entry.transaction.txid, entry.transaction.wtxid, entry.txIndex, entry.transaction.version,
        entry.transaction.locktime⟩
    objects := state.objects
    undo := state.undo
    newStates := state.newStates
    spentOutpoints := state.spentOutpoints
    chapters := state.chapters
    eventRoot := eventRoot
    objectStateRoot := objectStateRoot
    chainedRoot := chainedRoot
    foundingCreated := foundingCreated
    allObjects := allObjects
    activeObjects := activeObjects }

/-- The INIT that the block is reduced with: the one known, or the one the block confirms. -/
def activateBlock (packages : Packages) (binding : Binding) (activation : Option InitActivation)
    (block : BitcoinBlock) (ordered : List OrderedTransaction) (start : WorkingState) : Except String Activated :=
  match activation with
  | some activation => pure ⟨activation, ⟨start, []⟩⟩
  | none => confirmInit packages binding block ordered start

/-- The loop of `reduceBlock` over the transactions; nothing when the INIT is not valid. -/
def connectTransactions (packages : Packages) (binding : Binding) (height : ℕ) (ordered : List OrderedTransaction)
    (activated : Activated) : Except String Progress :=
  match activated.activation.heights? with
  | some heights => ordered.foldlM (connectTransaction packages binding heights height) activated.progress
  | none => pure activated.progress

/-- `reduceBlock({ binding, activation, previousRoot, objects, block })`. -/
def reduceBlock (packages : Packages) (binding : Binding) (activation : Option InitActivation) (previousRoot : Hash)
    (objects : JsMap Hash ObjectRecord) (block : BitcoinBlock) : Except String ReducedBlock := do
  let ordered ← orderedBlockTransactions block
  let activated ← activateBlock packages binding activation block ordered (.start objects)
  let progress ← connectTransactions packages binding block.height ordered activated
  finishBlock packages binding previousRoot block ordered activated.activation activation.isNone progress

/-! ### A deployment to evaluate -/

/-- Checks that accept nothing. -/
def sampleChecks : Checks where
  validCompressedKey _ := true
  checkInit _ _ _ _ := .BAD_MARKER_ENCODING_OR_LENGTH
  checkCreate _ _ _ := .BAD_MARKER_ENCODING_OR_LENGTH
  checkMark _ _ _ _ := .BAD_MARKER_ENCODING_OR_LENGTH
  checkRotate _ _ _ _ := .BAD_MARKER_ENCODING_OR_LENGTH
  checkClose _ _ _ _ := .BAD_MARKER_ENCODING_OR_LENGTH
  checkRefund _ _ := .BAD_MARKER_ENCODING_OR_LENGTH

/-- The dispatch over them. -/
def samplePackages : Packages where
  sha256 _ := Hash.zero
  verify _ _ _ _ := false
  validate := validateTandemTransaction sampleChecks

/-- A hash that ends in the byte. -/
def sampleHash (last : UInt8) : Hash := ⟨List.replicate 31 0 ++ [last], rfl⟩

/-- The configured INIT is a coinbase without a marker. -/
def sampleBinding : Binding := ⟨.mainnet, sampleHash 1, Hash.zero, Hash.zero⟩

/-- A coinbase transaction without outputs. -/
def sampleCoinbase (txid : Hash) : BitcoinTransaction :=
  ⟨txid, txid, 1, 0, [⟨none, none, some "00", "", 0xffff_ffff, [], none⟩], []⟩

/-- The block of the configured INIT. -/
def sampleInitBlock : BitcoinBlock := ⟨sampleHash 2, none, 7, 0, [sampleCoinbase (sampleHash 1)]⟩

/-- The block after it. -/
def sampleNextBlock : BitcoinBlock := ⟨sampleHash 4, some (sampleHash 2), 8, 0, [sampleCoinbase (sampleHash 3)]⟩

/-- Checks that accept every CREATE that spends no carrier, and nothing else. -/
def openChecks : Checks := { sampleChecks with
  checkCreate := fun transaction context _ =>
    if context.activeCarriers.all fun carrier => transaction.inputs.all fun input => input.outpoint ≠ carrier.outpoint
    then .VALID else .BAD_INPUT_SCRIPT }

/-- The dispatch over them, and a digest that keeps the txid of an object's key. -/
def openPackages : Packages where
  sha256 data := ⟨((data.drop 46).take 32 ++ List.replicate 32 0).take 32, by simp⟩
  verify _ _ _ _ := false
  validate := validateTandemTransaction openChecks

/-- An INIT whose founding window opens and closes as early as it may. -/
def openActivation : InitActivation := ⟨sampleHash 1, 200, sampleHash 2, some 1208, some 5528, true, .VALID⟩

/-- The script of a CREATE marker. -/
def createScript : String :=
  "6a28" ++ toHex (MAGIC ++ [1, 0, 1, 1] ++ List.replicate 32 0)

/-- The text of a key that ends in the byte. -/
def sampleKey (last : UInt8) : String := toHex (2 :: List.replicate 31 0 ++ [last])

/-- A transaction that creates an object, spending two outputs that are no carriers. -/
def createTransaction (txid funding : Hash) : BitcoinTransaction where
  txid := txid
  wtxid := txid
  version := 2
  locktime := 0
  inputs := [⟨some funding, some 0, none, "", 0, ["", sampleKey 1], none⟩,
    ⟨some funding, some 1, none, "", 0, ["", sampleKey 2], none⟩]
  outputs := [⟨0, 0, createScript⟩, ⟨1, CARRIER_VALUE, ""⟩]

/-- A transaction that spends an outpoint and has no marker. -/
def spendTransaction (txid : Hash) (outpoint : Outpoint) : BitcoinTransaction where
  txid := txid
  wtxid := txid
  version := 2
  locktime := 0
  inputs := [⟨some outpoint.txid, some outpoint.vout, none, "", 0, [], none⟩]
  outputs := [⟨0, 0, ""⟩]

/-- The script of an INIT marker with the window from height 1208 to 5528. -/
def initScript : String :=
  "6a3b" ++ toHex (MAGIC ++ [1, 0, 0, 0xb8, 4, 0, 0, 0x98, 0x15, 0, 0, 0x20, 0x4e, 0, 0, 0, 0, 0, 0, 0x50, 0xcd, 0, 0] ++
    List.replicate 32 0)

/-- The block of the configured INIT, with such a marker. -/
def windowBlock : BitcoinBlock := ⟨sampleHash 2, none, 200, 0,
  [sampleCoinbase (sampleHash 3), { spendTransaction (sampleHash 1) ⟨sampleHash 8, 0⟩ with
    outputs := [⟨0, 0, initScript⟩] }]⟩

/-- Checks that accept every INIT and CREATE that spends no carrier, and every MARK that names the next sequence. -/
def lifeChecks : Checks := { openChecks with
  checkInit := fun _ transaction context index => openChecks.checkCreate transaction context index
  checkMark := fun marker _ state _ =>
    match marker, state with
    | .mark _ _ sequence _ _, some carrier =>
      if sequence = carrier.stateSequence + 1 then .VALID else .BAD_STATE_SEQUENCE
    | _, _ => .BAD_STATE_SEQUENCE }

/-- The dispatch over them. -/
def lifePackages : Packages := { openPackages with validate := validateTandemTransaction lifeChecks }

/-- The script of the marker of a MARK. -/
def markScript (sequence : UInt8) : String :=
  "6a4c4e" ++ toHex (MAGIC ++ [1, 0, 2, 1] ++ List.replicate 32 0 ++ [sequence, 0, 0, 0, 3, 0] ++ List.replicate 32 7)

/-- A transaction that marks the object whose carrier it spends. -/
def markTransaction (txid : Hash) (outpoint : Outpoint) (sequence : UInt8) : BitcoinTransaction :=
  { spendTransaction txid outpoint with outputs := [⟨0, 0, markScript sequence⟩, ⟨1, CARRIER_VALUE, ""⟩] }

/-- A block with the INIT and a CREATE. -/
def openBlock : BitcoinBlock := { windowBlock with
  transactions := windowBlock.transactions ++ [createTransaction (sampleHash 11) (sampleHash 9)] }

/-- A block that also has a MARK of the object created. -/
def lifeBlock : BitcoinBlock := { openBlock with
  transactions := openBlock.transactions ++ [markTransaction (sampleHash 12) (successorOf (sampleHash 11)) 1] }

/-- The block after the one with the CREATE, with a MARK of the object and the CREATE of another one. -/
def laterBlock : BitcoinBlock := ⟨sampleHash 4, some (sampleHash 2), 201, 0,
  [sampleCoinbase (sampleHash 5), markTransaction (sampleHash 13) (successorOf (sampleHash 11)) 1,
    createTransaction (sampleHash 14) (sampleHash 10)]⟩

theorem openChecks_sound : ChecksSound openChecks where
  init _ _ _ _ h := by cases h
  create transaction context _ h := by
    simp only [openChecks] at h
    split_ifs at h with hall
    intro carrier hc input hi
    simpa using List.all_eq_true.mp (List.all_eq_true.mp hall carrier hc) input hi
  mark _ _ _ _ _ _ _ _ h := by cases h
  rotate _ _ _ _ _ _ h := by cases h
  close _ _ _ _ _ _ _ _ h := by cases h

theorem lifeChecks_sound : ChecksSound lifeChecks where
  init _ transaction context index h := openChecks_sound.create transaction context index h
  create := openChecks_sound.create
  mark network ns sequence kind commitment transaction state index h := by
    cases state with
    | none => cases h
    | some carrier =>
      simp only [lifeChecks] at h
      split_ifs at h with hs
      exact ⟨carrier, rfl, hs⟩
  rotate _ _ _ _ _ _ h := by cases h
  close _ _ _ _ _ _ _ _ h := by cases h

/-- The INIT without a marker is not valid. -/
example : ((reduceBlock samplePackages sampleBinding none Hash.zero ∅ sampleInitBlock).toOption.map
    fun reduced => (reduced.activation.valid, reduced.events.length)) = some (false, 1) := by decide +kernel

end IndexTandem.Indexer
