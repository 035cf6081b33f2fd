import IndexTandem.Indexer.BlockReducer
import IndexTandem.Library.Table

/-!
# The schema

The authoritative tables as the migrations leave them: columns, widths, unique keys and
references. Surrogate ids that nothing reads are left out; the journal of
reorganizations keeps its own, which the catalog reads. A row keeps hashes, outpoints
and enumerations as values; `fits` speaks of the texts and numbers they are bound as.

Deleting a block or an object cascades to the rows that refer to it (`deleteBlock`,
`deleteObject`).
-/

namespace IndexTandem.Database

open Library Protocol Indexer

/-! ### Column types -/

/-- `INT UNSIGNED`. -/
def fitsIntUnsigned (n : ℕ) : Bool := n < 0x1_0000_0000

/-- `INT`. -/
def fitsInt (n : ℤ) : Bool := -0x8000_0000 ≤ n && n < 0x8000_0000

/-- `BIGINT UNSIGNED`. -/
def fitsBigintUnsigned (n : ℕ) : Bool := n < 0x1_0000_0000_0000_0000

/-- `TINYINT UNSIGNED`. -/
def fitsTinyintUnsigned (n : ℕ) : Bool := n < 0x100

/-- `SMALLINT UNSIGNED`. -/
def fitsSmallintUnsigned (n : ℕ) : Bool := n < 0x1_0000

/-- `CHAR(width)` and `VARCHAR(width)`: so many characters at most (`fitsChar_iff`). The bytes are counted first, which
are as many at least and need not be decoded. -/
def fitsChar (width : ℕ) (text : String) : Bool := text.utf8ByteSize ≤ width || text.length ≤ width

/-- A hash in `CHAR(64)`: its text has two digits for each byte (`fitsHash_text`). -/
def fitsHash (hash : Hash) : Bool := 2 * hash.bytes.length ≤ 64

/-- A display outpoint in `VARCHAR(73)`. -/
def fitsOutpoint (outpoint : Outpoint) : Bool := fitsChar 73 outpoint.display

/-- A column that may be `NULL`. -/
def nullable {α : Type} (fits : α → Bool) (value : Option α) : Bool := value.all fits

/-! ### Rows -/

/-- A row of `tandem_blocks`. -/
structure BlockRow where
  height : ℕ
  hash : Hash
  previousHash : Option Hash
  blockTime : ℕ
  eventRoot : Hash
  objectStateRoot : Hash
  chainedRoot : Hash
  eventCount : ℕ
  deriving DecidableEq

/-- The row of `tandem_init`; its `id` is 1. -/
structure InitRow where
  txid : Hash
  height : ℕ
  blockHash : Hash
  openHeight : Option ℕ
  closeHeight : Option ℕ
  valid : Bool
  reason : Reason
  deriving DecidableEq

/-- A row of `tandem_transactions`. -/
structure TransactionRow where
  txid : Hash
  wtxid : Hash
  blockHeight : ℕ
  txIndex : ℕ
  version : ℤ
  locktime : ℕ
  deriving DecidableEq

/-- A row of `tandem_events`. -/
structure EventRow where
  blockHeight : ℕ
  txid : Hash
  txIndex : ℕ
  eventIndex : ℕ
  subIndex : ℕ
  eventType : EventType
  validityClass : ValidityClass
  reason : Reason
  ns : String
  objectKey : Option Hash
  stateSequence : ℕ
  predecessorOutpoint : Option Outpoint
  successorOutpoint : Option Outpoint
  key0 : Option String
  key1 : Option String
  commitment : Option String
  markerPayload : Option String
  deriving DecidableEq

/-- A row of `tandem_objects`. -/
structure ObjectRow where
  objectKey : Hash
  createTxid : Hash
  createHeight : ℕ
  founding : Bool
  status : ObjectStatusName
  stateSequence : ℕ
  currentOutpoint : Option Outpoint
  key0 : String
  key1 : String
  terminalTxid : Option Hash
  chapterCount : ℕ
  deriving DecidableEq

/-- A row of `tandem_states`. The generated column `carrier_program` is a function of the keys. -/
structure StateRow where
  outpoint : Outpoint
  objectKey : Hash
  sequence : ℕ
  createdHeight : ℕ
  spentHeight : Option ℕ
  spentTxid : Option Hash
  key0 : String
  key1 : String
  deriving DecidableEq

/-- A row of `tandem_carriers`. -/
structure CarrierRow where
  outpoint : Outpoint
  objectKey : Hash
  createdHeight : ℕ
  spentHeight : Option ℕ
  spentTxid : Option Hash
  valueSats : ℕ
  deriving DecidableEq

/-- A row of `tandem_chapters`. -/
structure ChapterRow where
  objectKey : Hash
  sequence : ℕ
  txid : Hash
  blockHeight : ℕ
  kind : ℕ
  commitment : String
  deriving DecidableEq

/-- A row of `tandem_checkpoints`. -/
structure CheckpointRow where
  height : ℕ
  blockHash : Hash
  eventRoot : Hash
  objectStateRoot : Hash
  chainedRoot : Hash
  foundingCreated : ℕ
  allObjects : ℕ
  activeObjects : ℕ
  deriving DecidableEq

/-- A row of `tandem_object_undo`. The JSON document of a record is the record. -/
structure UndoRow where
  height : ℕ
  objectKey : Hash
  prior : Option ObjectRecord
  deriving DecidableEq

/-- A row of `tandem_reorg_journal`. -/
structure ReorgRow where
  id : ℕ
  oldTipHeight : ℕ
  oldTipHash : String
  ancestorHeight : ℤ
  ancestorHash : String
  newTipHash : String
  rolledBackBlocks : ℕ
  deriving DecidableEq

/-- The database. -/
@[ext]
structure Db where
  blocks : List BlockRow
  init : List InitRow
  transactions : List TransactionRow
  events : List EventRow
  objects : List ObjectRow
  states : List StateRow
  carriers : List CarrierRow
  chapters : List ChapterRow
  checkpoints : List CheckpointRow
  undo : List UndoRow
  reorgs : List ReorgRow
  deriving DecidableEq

/-- The database after the migrations. -/
def Db.empty : Db := ⟨[], [], [], [], [], [], [], [], [], [], []⟩

/-- `REFERENCES tandem_blocks(height)`. -/
def Db.hasBlock (db : Db) (height : ℕ) : Bool := db.blocks.any fun row => row.height = height

/-- `REFERENCES tandem_transactions(txid)`. -/
def Db.hasTransaction (db : Db) (txid : Hash) : Bool := db.transactions.any fun row => row.txid = txid

/-- `REFERENCES tandem_objects(object_key)`. -/
def Db.hasObject (db : Db) (objectKey : Hash) : Bool := db.objects.any fun row => row.objectKey = objectKey

/-! ### Tables -/

/-- `tandem_blocks`. -/
def blocks : Table Db BlockRow where
  rows := Db.blocks
  put l db := { db with blocks := l }
  rows_put _ _ := rfl
  put_rows _ := rfl
  put_put _ _ _ := rfl
  fits row := fitsIntUnsigned row.height && fitsHash row.hash && nullable fitsHash row.previousHash &&
    fitsBigintUnsigned row.blockTime && fitsHash row.eventRoot && fitsHash row.objectStateRoot &&
    fitsHash row.chainedRoot && fitsIntUnsigned row.eventCount
  apart r s := r.height ≠ s.height && r.hash ≠ s.hash
  parents _ _ := true
  parents_put _ _ _ := rfl

/-- `tandem_init`. -/
def init : Table Db InitRow where
  rows := Db.init
  put l db := { db with init := l }
  rows_put _ _ := rfl
  put_rows _ := rfl
  put_put _ _ _ := rfl
  fits row := fitsHash row.txid && fitsIntUnsigned row.height && fitsHash row.blockHash &&
    nullable fitsIntUnsigned row.openHeight && nullable fitsIntUnsigned row.closeHeight &&
    fitsSmallintUnsigned row.reason.code
  apart _ _ := false
  parents db row := db.hasBlock row.height
  parents_put _ _ _ := rfl

/-- `tandem_transactions`. -/
def transactions : Table Db TransactionRow where
  rows := Db.transactions
  put l db := { db with transactions := l }
  rows_put _ _ := rfl
  put_rows _ := rfl
  put_put _ _ _ := rfl
  fits row := fitsHash row.txid && fitsHash row.wtxid && fitsIntUnsigned row.blockHeight &&
    fitsIntUnsigned row.txIndex && fitsInt row.version && fitsIntUnsigned row.locktime
  apart r s := r.txid ≠ s.txid && (r.blockHeight, r.txIndex) ≠ (s.blockHeight, s.txIndex)
  parents db row := db.hasBlock row.blockHeight
  parents_put _ _ _ := rfl

/-- `tandem_events`. -/
def events : Table Db EventRow where
  rows := Db.events
  put l db := { db with events := l }
  rows_put _ _ := rfl
  put_rows _ := rfl
  put_put _ _ _ := rfl
  fits row := fitsIntUnsigned row.blockHeight && fitsHash row.txid && fitsIntUnsigned row.txIndex &&
    fitsIntUnsigned row.eventIndex && fitsIntUnsigned row.subIndex && fitsTinyintUnsigned row.eventType.code &&
    fitsTinyintUnsigned row.validityClass.code && fitsSmallintUnsigned row.reason.code && fitsChar 64 row.ns &&
    nullable fitsHash row.objectKey && fitsIntUnsigned row.stateSequence &&
    nullable fitsOutpoint row.predecessorOutpoint && nullable fitsOutpoint row.successorOutpoint &&
    nullable (fitsChar 66) row.key0 && nullable (fitsChar 66) row.key1 && nullable (fitsChar 64) row.commitment &&
    nullable (fitsChar 164) row.markerPayload
  apart r s := (r.blockHeight, r.txIndex, r.eventIndex, r.subIndex) ≠
    (s.blockHeight, s.txIndex, s.eventIndex, s.subIndex)
  parents db row := db.hasBlock row.blockHeight && db.hasTransaction row.txid
  parents_put _ _ _ := rfl

/-- The text of a status. -/
def statusText : ObjectStatusName → String
  | .active => "active"
  | .closed => "closed"
  | .refunded => "refunded"
  | .exited_noncanonical => "exited_noncanonical"

/-- `tandem_objects`. -/
def objects : Table Db ObjectRow where
  rows := Db.objects
  put l db := { db with objects := l }
  rows_put _ _ := rfl
  put_rows _ := rfl
  put_put _ _ _ := rfl
  fits row := fitsHash row.objectKey && fitsHash row.createTxid && fitsIntUnsigned row.createHeight &&
    fitsChar 24 (statusText row.status) && fitsIntUnsigned row.stateSequence &&
    nullable fitsOutpoint row.currentOutpoint && fitsChar 66 row.key0 && fitsChar 66 row.key1 &&
    nullable fitsHash row.terminalTxid && fitsIntUnsigned row.chapterCount
  apart r s := r.objectKey ≠ s.objectKey && r.createTxid ≠ s.createTxid
  parents _ _ := true
  parents_put _ _ _ := rfl

/-- `tandem_states`. -/
def states : Table Db StateRow where
  rows := Db.states
  put l db := { db with states := l }
  rows_put _ _ := rfl
  put_rows _ := rfl
  put_put _ _ _ := rfl
  fits row := fitsOutpoint row.outpoint && fitsHash row.objectKey && fitsIntUnsigned row.sequence &&
    fitsIntUnsigned row.createdHeight && nullable fitsIntUnsigned row.spentHeight && nullable fitsHash row.spentTxid &&
    fitsChar 66 row.key0 && fitsChar 66 row.key1
  apart r s := r.outpoint ≠ s.outpoint && (r.objectKey, r.sequence) ≠ (s.objectKey, s.sequence)
  parents db row := db.hasObject row.objectKey
  parents_put _ _ _ := rfl

/-- `tandem_carriers`. -/
def carriers : Table Db CarrierRow where
  rows := Db.carriers
  put l db := { db with carriers := l }
  rows_put _ _ := rfl
  put_rows _ := rfl
  put_put _ _ _ := rfl
  fits row := fitsOutpoint row.outpoint && fitsHash row.objectKey && fitsIntUnsigned row.createdHeight &&
    nullable fitsIntUnsigned row.spentHeight && nullable fitsHash row.spentTxid && fitsBigintUnsigned row.valueSats
  apart r s := r.outpoint ≠ s.outpoint
  parents db row := db.hasObject row.objectKey
  parents_put _ _ _ := rfl

/-- `tandem_chapters`. -/
def chapters : Table Db ChapterRow where
  rows := Db.chapters
  put l db := { db with chapters := l }
  rows_put _ _ := rfl
  put_rows _ := rfl
  put_put _ _ _ := rfl
  fits row := fitsHash row.objectKey && fitsIntUnsigned row.sequence && fitsHash row.txid &&
    fitsIntUnsigned row.blockHeight && fitsTinyintUnsigned row.kind && fitsChar 64 row.commitment
  apart r s := r.txid ≠ s.txid && (r.objectKey, r.sequence) ≠ (s.objectKey, s.sequence)
  parents db row := db.hasObject row.objectKey
  parents_put _ _ _ := rfl

/-- `tandem_checkpoints`. -/
def checkpoints : Table Db CheckpointRow where
  rows := Db.checkpoints
  put l db := { db with checkpoints := l }
  rows_put _ _ := rfl
  put_rows _ := rfl
  put_put _ _ _ := rfl
  fits row := fitsIntUnsigned row.height && fitsHash row.blockHash && fitsHash row.eventRoot &&
    fitsHash row.objectStateRoot && fitsHash row.chainedRoot && fitsBigintUnsigned row.foundingCreated &&
    fitsBigintUnsigned row.allObjects && fitsBigintUnsigned row.activeObjects
  apart r s := r.height ≠ s.height
  parents db row := db.hasBlock row.height
  parents_put _ _ _ := rfl

/-- `tandem_object_undo`. -/
def undo : Table Db UndoRow where
  rows := Db.undo
  put l db := { db with undo := l }
  rows_put _ _ := rfl
  put_rows _ := rfl
  put_put _ _ _ := rfl
  fits row := fitsIntUnsigned row.height && fitsHash row.objectKey
  apart _ _ := true
  parents db row := db.hasBlock row.height
  parents_put _ _ _ := rfl

/-- `tandem_reorg_journal`. -/
def reorgs : Table Db ReorgRow where
  rows := Db.reorgs
  put l db := { db with reorgs := l }
  rows_put _ _ := rfl
  put_rows _ := rfl
  put_put _ _ _ := rfl
  fits row := fitsIntUnsigned row.oldTipHeight && fitsChar 64 row.oldTipHash && 0 ≤ row.ancestorHeight &&
    fitsIntUnsigned row.ancestorHeight.toNat && fitsChar 64 row.ancestorHash && fitsChar 64 row.newTipHash &&
    fitsIntUnsigned row.rolledBackBlocks
  apart r s := r.id ≠ s.id
  parents _ _ := true
  parents_put _ _ _ := rfl

/-! ### Deletes that cascade -/

/-- `DELETE FROM tandem_objects WHERE object_key = ?`. -/
def deleteObject (objectKey : Hash) (db : Db) : Db := { db with
  objects := db.objects.filter fun row => row.objectKey ≠ objectKey
  states := db.states.filter fun row => row.objectKey ≠ objectKey
  carriers := db.carriers.filter fun row => row.objectKey ≠ objectKey
  chapters := db.chapters.filter fun row => row.objectKey ≠ objectKey }

/-- `DELETE FROM tandem_blocks WHERE height = ?`. An event goes with its block and with its
transaction. -/
def deleteBlock (height : ℕ) (db : Db) : Db := { db with
  blocks := db.blocks.filter fun row => row.height ≠ height
  init := db.init.filter fun row => row.height ≠ height
  transactions := db.transactions.filter fun row => row.blockHeight ≠ height
  events := db.events.filter fun row => row.blockHeight ≠ height &&
    !(db.transactions.any fun tx => tx.blockHeight = height && tx.txid = row.txid)
  checkpoints := db.checkpoints.filter fun row => row.height ≠ height
  undo := db.undo.filter fun row => row.height ≠ height }

/-! ### Widths that always hold -/

theorem length_le_utf8ByteSize (text : String) : text.length ≤ text.utf8ByteSize := by
  obtain ⟨l, rfl⟩ : ∃ l, String.ofList l = text := ⟨text.toList, String.ofList_toList⟩
  induction l with
  | nil => simp
  | cons c l ih =>
    have := c.utf8Size_pos
    rw [String.ofList_cons, String.length_append, String.utf8ByteSize_append, String.utf8ByteSize_singleton]
    simp only [String.length_singleton]
    omega

theorem fitsChar_iff {width : ℕ} {text : String} : fitsChar width text = true ↔ text.length ≤ width := by
  have := length_le_utf8ByteSize text
  rw [fitsChar, Bool.or_eq_true, decide_eq_true_eq, decide_eq_true_eq]
  omega

@[simp] theorem length_text (hash : Hash) : hash.text.length = 64 := by
  rw [← String.length_toList]
  simpa using hash.isHex_text.1

@[simp] theorem fitsHash_eq (hash : Hash) : fitsHash hash = true := by simp [fitsHash, hash.length_bytes]

theorem fitsHash_text (hash : Hash) : fitsHash hash = fitsChar 64 hash.text := by
  rw [fitsHash_eq, fitsChar_iff.mpr (length_text hash).le]

@[simp] theorem nullable_fitsHash (hash : Option Hash) : nullable fitsHash hash = true := by
  cases hash <;> simp [nullable]

@[simp] theorem fits_statusText (status : ObjectStatusName) : fitsChar 24 (statusText status) = true := by
  cases status <;> decide

end IndexTandem.Database
