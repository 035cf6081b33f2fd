import IndexTandem.Database.Schema

/-!
# The indexer's store

`IndexerStore` writes reduced blocks and rolls them back, and `SyncService` reads the
state back. Every write runs in one database transaction: `transaction` leaves the
database as it was unless every statement succeeded and the commit went through.

A rollback undoes the blocks above the ancestor from the top down. Chapters, carriers
and states created at a height are deleted by it, spends at it are reset, the objects
get their snapshots back, and the rest goes with the block.
-/

namespace IndexTandem.Indexer

open Library Protocol Database

/-! ### Transactions -/

/-- What the server or the connection may do to a transaction on its own. -/
inductive Fault where
  /-- Nothing. -/
  | none
  /-- A statement or the commit fails. -/
  | aborted
  /-- The commit goes through and its acknowledgement is lost. -/
  | ackLost
  deriving DecidableEq

/-- `dataSource.transaction(body)`: the database afterwards, and what the caller sees. -/
def transaction (fault : Fault) (body : Db → Except String Db) (db : Db) : Db × Except String Unit :=
  match fault, body db with
  | .none, .ok db' => (db', .ok ())
  | .none, .error e => (db, .error e)
  | .aborted, _ => (db, .error "Connection lost")
  | .ackLost, .ok db' => (db', .error "Connection lost")
  | .ackLost, .error e => (db, .error e)

/-! ### Writing a block -/

/-- The row of an object. -/
def objectRow (record : ObjectRecord) : ObjectRow where
  objectKey := record.objectKey
  createTxid := record.createTxid
  createHeight := record.createHeight
  founding := record.founding
  status := record.status
  stateSequence := record.stateSequence
  currentOutpoint := record.currentOutpoint
  key0 := record.key0
  key1 := record.key1
  terminalTxid := record.terminalTxid
  chapterCount := record.chapterCount

/-- The columns that an update of an object sets. -/
def setObject (record : ObjectRecord) (row : ObjectRow) : ObjectRow := { row with
  founding := record.founding
  status := record.status
  stateSequence := record.stateSequence
  currentOutpoint := record.currentOutpoint
  key0 := record.key0
  key1 := record.key1
  terminalTxid := record.terminalTxid
  chapterCount := record.chapterCount }

/-- `upsertObject(manager, record)`: the row with the record's key, or else with its creating
transaction, is updated; if there is none, one is inserted. -/
def upsertObject (record : ObjectRecord) (db : Db) : Except String Db :=
  match (db.objects.find? fun row => row.objectKey = record.objectKey).or
      (db.objects.find? fun row => row.createTxid = record.createTxid) with
  | none => objects.insert (objectRow record) db
  | some old => objects.update (fun row => row.objectKey = old.objectKey) (setObject record) db

/-- The row of a block. -/
def blockRow (block : ReducedBlock) : BlockRow where
  height := block.height
  hash := block.hash
  previousHash := block.previousHash
  blockTime := block.time
  eventRoot := block.eventRoot
  objectStateRoot := block.objectStateRoot
  chainedRoot := block.chainedRoot
  eventCount := block.events.length

/-- The row of the INIT. -/
def initRow (init : InitActivation) : InitRow where
  txid := init.txid
  height := init.height
  blockHash := init.blockHash
  openHeight := init.openHeight
  closeHeight := init.closeHeight
  valid := init.valid
  reason := init.reason

/-- The row of a transaction; the lock time is bound as `locktime >>> 0`. -/
def transactionRow (height : ℕ) (tx : ReducedTransaction) : TransactionRow where
  txid := tx.txid
  wtxid := tx.wtxid
  blockHeight := height
  txIndex := tx.txIndex
  version := tx.version
  locktime := tx.locktime % 0x1_0000_0000

/-- The row of an event. -/
def eventRow (height : ℕ) (event : EventRecord) : EventRow where
  blockHeight := height
  txid := event.txid
  txIndex := event.txIndex
  eventIndex := event.eventIndex
  subIndex := event.subIndex
  eventType := event.eventType
  validityClass := event.validityClass
  reason := event.reason
  ns := event.ns
  objectKey := event.objectKey
  stateSequence := event.stateSequence
  predecessorOutpoint := event.predecessorOutpoint
  successorOutpoint := event.successorOutpoint
  key0 := event.key0
  key1 := event.key1
  commitment := event.commitment
  markerPayload := event.markerPayload

/-- The row of a state. -/
def stateRow (height : ℕ) (state : NewState) : StateRow where
  outpoint := state.outpoint
  objectKey := state.objectKey
  sequence := state.sequence
  createdHeight := height
  spentHeight := none
  spentTxid := none
  key0 := state.key0
  key1 := state.key1

/-- The row of a carrier. -/
def carrierRow (height : ℕ) (state : NewState) : CarrierRow where
  outpoint := state.outpoint
  objectKey := state.objectKey
  createdHeight := height
  spentHeight := none
  spentTxid := none
  valueSats := 20000

/-- The row of a chapter. -/
def chapterRow (height : ℕ) (chapter : NewChapter) : ChapterRow where
  objectKey := chapter.objectKey
  sequence := chapter.sequence
  txid := chapter.txid
  blockHeight := height
  kind := chapter.kind
  commitment := chapter.commitment

/-- The row of a checkpoint. -/
def checkpointRow (block : ReducedBlock) : CheckpointRow where
  height := block.height
  blockHash := block.hash
  eventRoot := block.eventRoot
  objectStateRoot := block.objectStateRoot
  chainedRoot := block.chainedRoot
  foundingCreated := block.foundingCreated
  allObjects := block.allObjects
  activeObjects := block.activeObjects

/-- The statements for one object the block touched. -/
def writeTouched (block : ReducedBlock) (db : Db) (entry : Hash × Option ObjectRecord) : Except String Db := do
  let db ← undo.insert ⟨block.height, entry.1, entry.2⟩ db
  match block.objects.get? entry.1 with
  | some current => upsertObject current db
  | none => pure db

/-- The statements for one state the block created. -/
def writeState (height : ℕ) (db : Db) (state : NewState) : Except String Db := do
  let db ← states.insert (stateRow height state) db
  carriers.insert (carrierRow height state) db

/-- A spent mark on a state. -/
def spendState (height : ℕ) (txid : Hash) (row : StateRow) : StateRow :=
  { row with spentHeight := some height, spentTxid := some txid }

/-- A spent mark on a carrier. -/
def spendCarrier (height : ℕ) (txid : Hash) (row : CarrierRow) : CarrierRow :=
  { row with spentHeight := some height, spentTxid := some txid }

/-- The statements for one carrier the block spent. -/
def writeSpent (height : ℕ) (db : Db) (spent : SpentOutpoint) : Except String Db := do
  let db ← states.update (fun row => row.outpoint = spent.outpoint) (spendState height spent.txid) db
  carriers.update (fun row => row.outpoint = spent.outpoint) (spendCarrier height spent.txid) db

/-- The statement for the INIT, in the block that confirms it. -/
def writeInit (block : ReducedBlock) (db : Db) : Except String Db :=
  if block.initConfirmed then Database.init.insert (initRow block.activation) db else pure db

/-- `writeBlock(manager, block)`. -/
def writeBlock (block : ReducedBlock) (db : Db) : Except String Db := do
  let db ← blocks.insert (blockRow block) db
  let db ← writeInit block db
  let db ← block.transactions.foldlM (fun db tx => transactions.insert (transactionRow block.height tx) db) db
  let db ← block.events.foldlM (fun db event => events.insert (eventRow block.height event) db) db
  let db ← block.undo.entries.foldlM (writeTouched block) db
  let db ← block.newStates.foldlM (writeState block.height) db
  let db ← block.spentOutpoints.foldlM (writeSpent block.height) db
  let db ← block.chapters.foldlM (fun db chapter => chapters.insert (chapterRow block.height chapter) db) db
  checkpoints.insert (checkpointRow block) db

/-- The body of `appendBlocks(blocks)`. -/
def appendBlocks (blocks : List ReducedBlock) (db : Db) : Except String Db :=
  blocks.foldlM (fun db block => writeBlock block db) db

/-! ### Reading the state -/

/-- The higher of two rows. -/
def higher (best : Option BlockRow) (row : BlockRow) : Option BlockRow :=
  match best with
  | none => some row
  | some other => if other.height < row.height then some row else some other

/-- The row with the greatest height. -/
def tipRow (db : Db) : Option BlockRow := db.blocks.foldl higher none

/-- The canonical tip. -/
structure CanonicalTip where
  /-- Its height. -/
  height : ℕ
  /-- Its hash. -/
  hash : Hash
  /-- The root of the chain up to it. -/
  chainedRoot : Hash
  deriving DecidableEq

/-- `canonicalTip()`. -/
def canonicalTip (db : Db) : Option CanonicalTip :=
  (tipRow db).map fun row => ⟨row.height, row.hash, row.chainedRoot⟩

/-- `blockHash(height)`. -/
def blockHash (db : Db) (height : ℤ) : Option Hash :=
  (db.blocks.find? fun row => (row.height : ℤ) = height).map BlockRow.hash

/-- `loadActivation()`. -/
def loadActivation (db : Db) : Option InitActivation :=
  db.init.head?.map fun row =>
    ⟨row.txid, row.height, row.blockHash, row.openHeight, row.closeHeight, row.valid, row.reason⟩

/-- `objectFromRow(row)`, the height of the carrier joined from `tandem_states`. -/
def objectFromRow (db : Db) (row : ObjectRow) : ObjectRecord where
  objectKey := row.objectKey
  createTxid := row.createTxid
  createHeight := row.createHeight
  founding := row.founding
  status := row.status
  stateSequence := row.stateSequence
  currentOutpoint := row.currentOutpoint
  currentHeight := (db.states.find? fun state => row.currentOutpoint = some state.outpoint).map StateRow.createdHeight
  key0 := row.key0
  key1 := row.key1
  terminalTxid := row.terminalTxid
  chapterCount := row.chapterCount

/-- `loadObjects()` when the database lists the rows in the order `rows`. -/
def objectsOf (db : Db) (rows : List ObjectRow) : JsMap Hash ObjectRecord :=
  JsMap.ofList (rows.map fun row => (row.objectKey, objectFromRow db row))

/-! ### Rolling back -/

/-- A plan to disconnect the blocks above the ancestor. -/
structure ReorgPlan where
  /-- The tip. -/
  oldTipHeight : ℕ
  /-- The ancestor; below the INIT when the INIT goes too. -/
  ancestorHeight : ℤ
  /-- The heights to disconnect, from the top down. -/
  rollbackHeights : List ℕ
  deriving DecidableEq

/-- `Number.MAX_SAFE_INTEGER`. -/
def MAX_SAFE_INTEGER : ℕ := 9007199254740991

/-- The loop of `planReorgRollback`: the heights from `height` down to above the ancestor. -/
def heightsAbove (ancestorHeight : ℤ) : ℕ → List ℕ
  | 0 => if ancestorHeight < 0 then [0] else []
  | height + 1 => if ancestorHeight < height + 1 then (height + 1) :: heightsAbove ancestorHeight height else []

/-- `planReorgRollback(oldTipHeight, ancestorHeight, initHeight)`. -/
def planReorgRollback (oldTipHeight : ℕ) (ancestorHeight : ℤ) (initHeight : ℕ) : Except String ReorgPlan := do
  ensure (oldTipHeight ≤ MAX_SAFE_INTEGER ∧ ancestorHeight.natAbs ≤ MAX_SAFE_INTEGER ∧ initHeight ≤ MAX_SAFE_INTEGER)
    "reorg heights must be safe integers"
  ensure (¬ancestorHeight < (initHeight : ℤ) - 1) "reorg ancestor crosses the configured INIT boundary"
  ensure (¬ancestorHeight ≥ oldTipHeight) "reorg ancestor must be below the old tip"
  pure ⟨oldTipHeight, ancestorHeight, heightsAbove ancestorHeight oldTipHeight⟩

/-- What a rollback writes into the journal of reorganizations. -/
structure ReorgJournal where
  /-- The hash of the tip. -/
  oldTipHash : String
  /-- The hash of the ancestor. -/
  ancestorHash : String
  /-- The hash of the node's tip. -/
  newTipHash : String
  deriving DecidableEq

/-- The statements that restore one object from its snapshot. -/
def restoreObject (db : Db) (entry : UndoRow) : Except String Db :=
  match entry.prior with
  | none => pure (deleteObject entry.objectKey db)
  | some prior => objects.update (fun row => row.objectKey = prior.objectKey) (setObject prior) db

/-- Reset a spent mark made at a height. -/
def unspendState (height : ℕ) (row : StateRow) : StateRow :=
  if row.spentHeight = some height then { row with spentHeight := none, spentTxid := none } else row

/-- Reset a spent mark made at a height. -/
def unspendCarrier (height : ℕ) (row : CarrierRow) : CarrierRow :=
  if row.spentHeight = some height then { row with spentHeight := none, spentTxid := none } else row

/-- The statements of `rollback` on chapters, carriers and states. -/
def dropCreated (height : ℕ) (db : Db) : Db := { db with
  chapters := db.chapters.filter fun row => row.blockHeight ≠ height
  carriers := (db.carriers.filter fun row => row.createdHeight ≠ height).map (unspendCarrier height)
  states := (db.states.filter fun row => row.createdHeight ≠ height).map (unspendState height) }

/-- The turn of the loop of `rollback` for one height. -/
def rollbackBlock (db : Db) (height : ℕ) : Except String Db := do
  let entries := (db.undo.filter fun row => row.height = height).reverse
  let db ← entries.foldlM restoreObject (dropCreated height db)
  pure (deleteBlock height db)

/-- The next id of the journal of reorganizations. -/
def nextReorgId (db : Db) : ℕ := (db.reorgs.map ReorgRow.id).foldl max 0 + 1

/-- The row that a rollback adds to the journal of reorganizations. -/
def reorgRow (plan : ReorgPlan) (journal : ReorgJournal) (db : Db) : ReorgRow where
  id := nextReorgId db
  oldTipHeight := plan.oldTipHeight
  oldTipHash := journal.oldTipHash
  ancestorHeight := plan.ancestorHeight
  ancestorHash := journal.ancestorHash
  newTipHash := journal.newTipHash
  rolledBackBlocks := plan.rollbackHeights.length

/-- The body of `rollback(plan, journal)`. -/
def rollback (plan : ReorgPlan) (journal : ReorgJournal) (db : Db) : Except String Db := do
  ensure ((tipRow db).any fun tip => tip.height = plan.oldTipHeight ∧ tip.hash.text = journal.oldTipHash)
    "canonical tip changed before rollback lock"
  ensure ((blockHash db plan.ancestorHeight).all fun hash => hash.text = journal.ancestorHash)
    "configured reorg ancestor does not match canonical storage"
  let db ← plan.rollbackHeights.foldlM rollbackBlock db
  reorgs.insert (reorgRow plan journal db) db

end IndexTandem.Indexer
