import IndexTandem.Api.BlockEventsCursor
import IndexTandem.Api.CatalogAdmission
import IndexTandem.Indexer.Counters
import IndexTandem.Library.Keyset
import IndexTandem.Observability.Readiness
import Mathlib.Data.Prod.Lex

/-!
# Pages of the block events

`blockEvents` returns a page of the valid operations and terminal exits of one block, in the
order of their positions, and a cursor to go on with. The cursor names the block by its hash:
while the block is stored the next page goes on after the last event, and once another block
has taken its height the cursor is refused.

A client's pages are a keyset reading of the block's events (`Session.reading`), whatever was
appended and rolled back between them. So together they are these events, each once and in
order (`block_events_pages`).
-/

namespace IndexTandem.Api

open Library Protocol Database Indexer Observability Agreement

/-! ### The service -/

/-- What a request is refused with. -/
inductive Refusal where
  /-- `BadRequestException(message)`. -/
  | badRequest (message : String)
  /-- `ServiceUnavailableException(snapshot)`. -/
  | notReady (snapshot : ReadinessSnapshot)
  /-- `ServiceUnavailableException(message)`. -/
  | unavailable (message : String)

/-- `BLOCK_EVENTS_SCHEMA`. -/
def BLOCK_EVENTS_SCHEMA : String := "universe-block-events-v1"

/-- `PROTOCOL_ID`. -/
def PROTOCOL_ID : String := "tandem"

/-- `DEFAULT_LIMIT`. -/
def DEFAULT_LIMIT : ℕ := 200

/-- `MAX_LIMIT`. -/
def MAX_LIMIT : ℕ := 500

/-- `/^[0-9]{1,10}$/`. -/
def isHeightText (text : String) : Bool :=
  1 ≤ text.toList.length && text.toList.length ≤ 10 && text.toList.all fun c => '0' ≤ c && c ≤ '9'

/-- `checkedHeight(value)`. -/
def checkedHeight : Argument → Except Refusal ℕ
  | .text value =>
    if isHeightText value then pure (decimal value)
    else throw (.badRequest "height must be an unsigned decimal of at most 10 digits")
  | _ => throw (.badRequest "height must be an unsigned decimal of at most 10 digits")

/-- `/^[1-9][0-9]{0,2}$/`. -/
def isLimitText (text : String) : Bool :=
  1 ≤ text.toList.length && text.toList.length ≤ 3 && text.toList.head?.any (fun c => '1' ≤ c && c ≤ '9') &&
    text.toList.all fun c => '0' ≤ c && c ≤ '9'

/-- `checkedLimit(value)`. -/
def checkedLimit : Argument → Except Refusal ℕ
  | .missing => pure DEFAULT_LIMIT
  | .text value =>
    if !isLimitText value || decimal value > MAX_LIMIT then throw (.badRequest "limit must be between 1 and 500")
    else pure (decimal value)
  | .other => throw (.badRequest "limit must be between 1 and 500")

/-- `checkedCursor(value, height)`. -/
def checkedCursor (value : Argument) (height : ℕ) : Except Refusal (Option BlockEventsCursor) :=
  match value with
  | .missing => pure none
  | .text value =>
    match decodeBlockEventsCursor value with
    | some cursor => if cursor.height ≠ height then throw (.badRequest "invalid cursor") else pure (some cursor)
    | none => throw (.badRequest "invalid cursor")
  | .other => throw (.badRequest "invalid cursor")

/-- `requireReady()`, with what the probe finds. -/
def requireReady (snapshot : ReadinessSnapshot) : Except Refusal Unit :=
  if snapshot.ready then pure () else throw (.notReady snapshot)

/-- `SELECT … FROM tandem_checkpoints ORDER BY height DESC LIMIT 1`. -/
def newestCheckpoint (db : Db) : Option CheckpointRow :=
  db.checkpoints.foldl (fun best row => match best with
    | none => some row
    | some other => if other.height < row.height then some row else some other) none

/-- `readCheckpoint(manager)`. -/
def readCheckpoint (db : Db) : Except Refusal CheckpointRow :=
  match newestCheckpoint db with
  | some row => pure row
  | none => throw (.unavailable "checkpoint unavailable")

/-- `OPERATIONS[eventType] ?? "unknown"`. -/
def operationOf : EventType → String
  | .INIT => "deploy"
  | .CREATE => "mint"
  | .MARK => "update"
  | .ROTATE => "update"
  | .CLOSE => "burn"
  | .REFUND => "unlock"
  | _ => "unknown"

/-- An event as it is presented; outpoints stand for their texts. -/
structure PresentedEvent where
  eventId : String
  protocolId : String
  txid : Hash
  txIndex : ℕ
  operation : String
  assetId : Option Hash
  ticker : Option String
  displayName : Option String
  assetKind : String
  amountAtomic : Option String
  decimals : Option ℕ
  fromAddress : Option String
  toAddress : Option String
  inputOutpoint : Option Outpoint
  outputOutpoint : Option Outpoint
  inscriptionId : Option String
  deriving DecidableEq

/-- `presentEvent(row)`. -/
def presentEvent (row : EventRow) : PresentedEvent where
  eventId := row.txid.text ++ ":" ++ toString row.eventIndex ++ ":" ++ toString row.subIndex
  protocolId := PROTOCOL_ID
  txid := row.txid
  txIndex := row.txIndex
  operation := operationOf row.eventType
  assetId := if row.eventType = .INIT then none else row.objectKey
  ticker := none
  displayName := none
  assetKind := if row.eventType = .INIT then "protocol-event" else "non-fungible"
  amountAtomic := none
  decimals := none
  fromAddress := none
  toAddress := none
  inputOutpoint := row.predecessorOutpoint
  outputOutpoint := row.successorOutpoint
  inscriptionId := none

/-- A page. -/
structure BlockEventsPage where
  schemaVersion : String
  chain : String
  network : String
  protocols : List String
  height : String
  blockHash : Option Hash
  indexed : Bool
  /-- The height and the hash of the newest checkpoint. -/
  checkpoint : String × Hash
  events : List PresentedEvent
  nextCursor : Option String
  complete : Bool
  deriving DecidableEq

/-- `block_height = ? AND validity_class IN (?, ?)`. -/
def isReported (height : ℕ) (row : EventRow) : Bool :=
  row.blockHeight = height && (row.validityClass = .VALID_OPERATION || row.validityClass = .TERMINAL_NONCANONICAL)

/-- `tx_index > ? OR (tx_index = ? AND (event_index > ? OR (event_index = ? AND sub_index > ?)))`. -/
def isAfter (cursor : BlockEventsCursor) (row : EventRow) : Bool :=
  row.txIndex > cursor.txIndex || row.txIndex = cursor.txIndex &&
    (row.eventIndex > cursor.eventIndex || row.eventIndex = cursor.eventIndex && row.subIndex > cursor.subIndex)

/-- The position of an event in its block; positions are in the order of their parts. -/
def position (row : EventRow) : ℕ ×ₗ ℕ ×ₗ ℕ := toLex (row.txIndex, toLex (row.eventIndex, row.subIndex))

/-- The query of the events, up to its `LIMIT`. -/
def selectEvents (db : Db) (height : ℕ) (cursor : Option BlockEventsCursor) : List EventRow :=
  orderBy position (db.events.filter fun row => isReported height row && cursor.all fun cursor => isAfter cursor row)

/-- The page of a height that is not indexed yet. -/
def pendingPage (network : String) (height : ℕ) (checkpoint : CheckpointRow) : BlockEventsPage where
  schemaVersion := BLOCK_EVENTS_SCHEMA
  chain := "bitcoin"
  network := network
  protocols := [PROTOCOL_ID]
  height := toString height
  blockHash := none
  indexed := false
  checkpoint := (toString checkpoint.height, checkpoint.blockHash)
  events := []
  nextCursor := none
  complete := false

/-- The page of `limit` events among the rows, one more of which was asked for. -/
def indexedPage (network : String) (height : ℕ) (checkpoint : CheckpointRow) (blockHash : Option Hash) (limit : ℕ)
    (rows : List EventRow) : BlockEventsPage where
  schemaVersion := BLOCK_EVENTS_SCHEMA
  chain := "bitcoin"
  network := network
  protocols := [PROTOCOL_ID]
  height := toString height
  blockHash := blockHash
  indexed := true
  checkpoint := (toString checkpoint.height, checkpoint.blockHash)
  events := (rows.take limit).map presentEvent
  nextCursor :=
    match (rows.take limit).getLast?, blockHash with
    | some last, some blockHash =>
      if rows.length > limit then
        some (encodeBlockEventsCursor ⟨height, blockHash.text, last.txIndex, last.eventIndex, last.subIndex⟩)
      else none
    | _, _ => none
  complete := rows.length ≤ limit

/-- `blockEvents(rawHeight, rawLimit, rawCursor)`, with what the probe finds and the database at its transaction. -/
def blockEvents (network : String) (snapshot : ReadinessSnapshot) (db : Db) (rawHeight rawLimit rawCursor : Argument) :
    Except Refusal BlockEventsPage := do
  let height ← checkedHeight rawHeight
  let limit ← checkedLimit rawLimit
  let cursor ← checkedCursor rawCursor height
  requireReady snapshot
  let checkpoint ← readCheckpoint db
  if checkpoint.height < height then
    if cursor.isSome then throw (.badRequest "invalid cursor") else pure (pendingPage network height checkpoint)
  else if cursor.any fun cursor => some cursor.blockHash ≠ (Indexer.blockHash db height).map Hash.text then
    throw (.badRequest "cursor does not belong to the indexed block")
  else
    pure (indexedPage network height checkpoint (Indexer.blockHash db height) limit
      ((selectEvents db height cursor).take (limit + 1)))

/-! ### Positions -/

/-- The condition of the query is the order of positions. -/
theorem isAfter_iff (cursor : BlockEventsCursor) (row : EventRow) : isAfter cursor row = true ↔
    toLex (cursor.txIndex, toLex (cursor.eventIndex, cursor.subIndex)) < position row := by
  unfold isAfter position
  rw [Prod.Lex.toLex_lt_toLex, Prod.Lex.toLex_lt_toLex]
  simp only [Bool.or_eq_true, Bool.and_eq_true, decide_eq_true_eq, gt_iff_lt]
  constructor
  · rintro (h | ⟨h, h' | ⟨h', h''⟩⟩)
    · exact .inl h
    · exact .inr ⟨h.symm, .inl h'⟩
    · exact .inr ⟨h.symm, .inr ⟨h'.symm, h''⟩⟩
  · rintro (h | ⟨h, h' | ⟨h', h''⟩⟩)
    · exact .inl h
    · exact .inr ⟨h.symm, .inl h'⟩
    · exact .inr ⟨h.symm, .inr ⟨h'.symm, h''⟩⟩

/-- The events that a block reports. -/
def reported (db : Db) (height : ℕ) : List EventRow := orderBy position (db.events.filter (isReported height))

/-- The place that a cursor names. -/
def BlockEventsCursor.place (cursor : BlockEventsCursor) : ℕ ×ₗ ℕ ×ₗ ℕ :=
  toLex (cursor.txIndex, toLex (cursor.eventIndex, cursor.subIndex))

/-- The events of a block have positions of their own. -/
def Positioned (db : Db) (height : ℕ) : Prop := ((db.events.filter (isReported height)).map position).Nodup

/-- The query selects the events that follow the cursor's place. -/
theorem selectEvents_eq {db : Db} {height : ℕ} (positioned : Positioned db height) (cursor : Option BlockEventsCursor) :
    selectEvents db height cursor = following position (cursor.map BlockEventsCursor.place) (reported db height) := by
  unfold selectEvents following reported
  rw [← orderBy_filter _ positioned, List.filter_filter]
  congr 2
  funext row
  rw [Bool.and_comm]
  cases cursor with
  | none => rfl
  | some cursor =>
    simp only [Option.all_some, Option.map_some]
    congr 1
    rw [Bool.eq_iff_iff, isAfter_iff, decide_eq_true_eq]
    rfl

/-- **In every reachable store** the events of a block have positions of their own. -/
theorem positions_apart {packages : Packages} {binding : Binding} {chain : List BitcoinBlock} {index : Index}
    (replay : Replay packages binding chain index) :
    index.db.events.Pairwise fun r s => (r.blockHeight, r.txIndex, r.eventIndex, r.subIndex) ≠
      (s.blockHeight, s.txIndex, s.eventIndex, s.subIndex) := by
  induction replay with
  | empty => exact .nil
  | @connect chain index block reduced db replay follows reduces writes ih =>
    obtain ⟨rfl, accepted⟩ := writeBlock_ok writes
    refine List.pairwise_append.mpr ⟨ih, ?_, fun row hrow row' hrow' he => ?_⟩
    · refine List.pairwise_map.mpr ((reduceBlock_events reduces).inOrder.imp fun {e e'} h he => h.position_ne ?_)
      simpa [eventRow] using he
    · obtain ⟨event, -, rfl⟩ := List.mem_map.mp hrow'
      exact ne_height_of_accepted accepted (replay.mirrors.stamped.events row hrow) (congrArg Prod.fst he)

theorem positioned_of_stored {packages : Packages} {binding : Binding} {history : History} {db : Db}
    (stored : Stored packages binding history db) (height : ℕ) : Positioned db height := by
  obtain ⟨index, replay, htab⟩ := stored.recorded.1
  obtain ⟨j, rfl⟩ : ∃ j, db = withReorgs j index.db := ⟨_, tables_eq_iff.mp htab⟩
  refine List.pairwise_map.mpr ?_
  refine ((positions_apart replay).filter (isReported height)).imp_of_mem fun {r s} hr hs hne he => hne ?_
  have hheight : ∀ {row : EventRow}, row ∈ index.db.events.filter (isReported height) → row.blockHeight = height := by
    intro row hrow
    have := (List.mem_filter.mp hrow).2
    simp only [isReported, Bool.and_eq_true, decide_eq_true_eq] at this
    exact this.1
  have hposition : (r.txIndex, toLex (r.eventIndex, r.subIndex)) = (s.txIndex, toLex (s.eventIndex, s.subIndex)) :=
    toLex.injective he
  obtain ⟨htx, hrest⟩ := Prod.mk.inj hposition
  rw [hheight hr, hheight hs, htx, toLex.injective hrest]

/-! ### One page -/

/-- The cursor of a place. -/
def cursorAt (height : ℕ) (hash : Hash) (place : ℕ ×ₗ ℕ ×ₗ ℕ) : BlockEventsCursor :=
  ⟨height, hash.text, (ofLex place).1, (ofLex (ofLex place).2).1, (ofLex (ofLex place).2).2⟩

@[simp] theorem place_cursorAt (height : ℕ) (hash : Hash) (place : ℕ ×ₗ ℕ ×ₗ ℕ) :
    (cursorAt height hash place).place = place := rfl

/-- A cursor of the service that is decoded is the one that was encoded. -/
theorem decode_encode_cursorAt {height : ℕ} {hash : Hash} {place : ℕ ×ₗ ℕ ×ₗ ℕ} {cursor : BlockEventsCursor}
    (h : decodeBlockEventsCursor (encodeBlockEventsCursor (cursorAt height hash place)) = some cursor) :
    cursor = cursorAt height hash place := by
  obtain ⟨issuable, htext⟩ := decodeBlockEventsCursor_some h
  have hhash : isHex 32 (cursorAt height hash place).blockHash = true := isHex_text hash
  exact (eq_of_encode hhash issuable.blockHash htext).symm

theorem decimal_pos {text : String} (h : text.toList.head?.any (fun c => '1' ≤ c && c ≤ '9') = true) : 0 < decimal text := by
  have hgrows : ∀ (l : List Char) (n : ℕ), n ≤ l.foldl (fun n c => 10 * n + (c.toNat - 48)) n := by
    intro l
    induction l with
    | nil => exact fun n => le_refl n
    | cons c l ih =>
      intro n
      have hstep : n ≤ 10 * n + (c.toNat - 48) := by omega
      exact le_trans hstep (ih _)
  unfold decimal
  cases hchars : text.toList with
  | nil =>
    rw [hchars] at h
    cases h
  | cons c rest =>
    rw [hchars] at h
    simp only [List.head?_cons, Option.any_some, Bool.and_eq_true, decide_eq_true_eq] at h
    have hc : '1'.toNat ≤ c.toNat := h.1
    have h1 : '1'.toNat = 49 := rfl
    have hfirst : 0 < 10 * 0 + (c.toNat - 48) := by omega
    exact lt_of_lt_of_le hfirst (hgrows rest _)

theorem limit_pos {rawLimit : Argument} {limit : ℕ} (h : checkedLimit rawLimit = .ok limit) : 0 < limit := by
  cases rawLimit with
  | missing =>
    obtain rfl := pure_eq_ok.mp h
    decide
  | other => cases h
  | text value =>
    simp only [checkedLimit] at h
    split_ifs at h with hform
    · obtain rfl := pure_eq_ok.mp h
      simp only [isLimitText, Bool.or_eq_true, Bool.not_eq_true', Bool.not_eq_false, decide_eq_true_eq, not_or,
        Bool.and_eq_true] at hform
      exact decimal_pos hform.1.1.2

/-- **When a page is answered**: the arguments are well-formed, the process is ready, the height is indexed and the
cursor is of the block. -/
theorem blockEvents_of_indexed {network : String} {snapshot : ReadinessSnapshot} {db : Db}
    {rawHeight rawLimit rawCursor : Argument} {height limit : ℕ} {cursor : Option BlockEventsCursor}
    {checkpoint : CheckpointRow} {hash : Hash} (hheight : checkedHeight rawHeight = .ok height)
    (hlimit : checkedLimit rawLimit = .ok limit) (hcursor : checkedCursor rawCursor height = .ok cursor)
    (ready : snapshot.ready = true) (newest : newestCheckpoint db = some checkpoint)
    (indexed : height ≤ checkpoint.height) (stored : Indexer.blockHash db height = some hash)
    (bound : ∀ c, cursor = some c → c.blockHash = hash.text) :
    blockEvents network snapshot db rawHeight rawLimit rawCursor =
      .ok (indexedPage network height checkpoint (some hash) limit ((selectEvents db height cursor).take (limit + 1))) := by
  have hbound : ¬(cursor.any fun cursor => some cursor.blockHash ≠ (Indexer.blockHash db height).map Hash.text) = true := by
    cases cursor with
    | none => exact Bool.false_ne_true
    | some c => simp [bound c rfl, stored]
  refine bind_eq_ok.mpr ⟨height, hheight, bind_eq_ok.mpr ⟨limit, hlimit, bind_eq_ok.mpr ⟨cursor, hcursor, ?_⟩⟩⟩
  refine bind_eq_ok.mpr ⟨(), if_pos ready, bind_eq_ok.mpr ⟨checkpoint, ?_, ?_⟩⟩
  · rw [readCheckpoint, newest]
    rfl
  · rw [if_neg (not_lt.mpr indexed), if_neg hbound, stored]
    rfl

theorem indexedPage_eq (network : String) (height : ℕ) (checkpoint : CheckpointRow) (hash : Hash) {limit : ℕ}
    (positive : 0 < limit) (found : List EventRow) :
    let page := indexedPage network height checkpoint (some hash) limit (found.take (limit + 1))
    let slice := sliceOf position limit found
    page.events = slice.items.map presentEvent ∧
      page.nextCursor = slice.next.map (fun place => encodeBlockEventsCursor (cursorAt height hash place)) ∧
      page.complete = slice.next.isNone := by
  have htake : (found.take (limit + 1)).take limit = found.take limit := by
    rw [List.take_take, Nat.min_eq_left (by omega)]
  have hmore : (found.take (limit + 1)).length > limit ↔ limit < found.length := by
    rw [List.length_take]
    omega
  refine ⟨?_, ?_, ?_⟩
  · simp only [indexedPage, htake, sliceOf]
  · simp only [indexedPage, htake, sliceOf]
    cases hlast : (found.take limit).getLast? with
    | none => simp
    | some last =>
      by_cases h : limit < found.length
      · simp only [if_pos (hmore.mpr h), if_pos h, Option.map_some]
        rfl
      · simp only [if_neg fun h' => h (hmore.mp h'), if_neg h, Option.map_none]
  · simp only [indexedPage, sliceOf]
    by_cases h : limit < found.length
    · have hne : found.take limit ≠ [] := by
        intro hnil
        have hzero := congrArg List.length hnil
        rw [List.length_take, List.length_nil] at hzero
        omega
      have hnot : ¬(found.take (limit + 1)).length ≤ limit := by
        have := hmore.mpr h
        omega
      rw [if_pos h, List.getLast?_eq_some_getLast hne, decide_eq_false hnot]
      rfl
    · have hle : (found.take (limit + 1)).length ≤ limit := by
        have := mt hmore.mp h
        omega
      rw [if_neg h, decide_eq_true hle]
      rfl

/-- **What a page holds**: a slice of the events that follow the place of the cursor, and the cursor of the next
place. -/
theorem blockEvents_ok {network : String} {snapshot : ReadinessSnapshot} {db : Db} {rawHeight rawLimit rawCursor : Argument}
    {page : BlockEventsPage} (h : blockEvents network snapshot db rawHeight rawLimit rawCursor = .ok page)
    (indexed : page.indexed = true) {hash : Hash} (hashed : page.blockHash = some hash) :
    ∃ height limit cursor, checkedHeight rawHeight = .ok height ∧ 0 < limit ∧
      checkedCursor rawCursor height = .ok cursor ∧ Indexer.blockHash db height = some hash ∧
      (∀ c, cursor = some c → c.blockHash = hash.text) ∧
      page.events = (sliceOf position limit (selectEvents db height cursor)).items.map presentEvent ∧
      page.nextCursor = (sliceOf position limit (selectEvents db height cursor)).next.map
        (fun place => encodeBlockEventsCursor (cursorAt height hash place)) ∧
      page.complete = (sliceOf position limit (selectEvents db height cursor)).next.isNone := by
  obtain ⟨height, hheight, h⟩ := bind_eq_ok.mp h
  obtain ⟨limit, hlimit, h⟩ := bind_eq_ok.mp h
  obtain ⟨cursor, hcursor, h⟩ := bind_eq_ok.mp h
  obtain ⟨_, -, h⟩ := bind_eq_ok.mp h
  obtain ⟨checkpoint, -, h⟩ := bind_eq_ok.mp h
  by_cases hlow : checkpoint.height < height
  · rw [if_pos hlow] at h
    split_ifs at h
    obtain rfl := pure_eq_ok.mp h
    cases indexed
  · rw [if_neg hlow] at h
    split_ifs at h with hforeign
    obtain rfl := pure_eq_ok.mp h
    have hstored : Indexer.blockHash db height = some hash := hashed
    have hpositive := limit_pos hlimit
    refine ⟨height, limit, cursor, hheight, hpositive, hcursor, hstored, fun c hc => ?_, ?_⟩
    · simpa [hc, hstored] using hforeign
    · rw [hstored]
      exact indexedPage_eq network height checkpoint hash hpositive (selectEvents db height cursor)

/-! ### Sessions -/

/-- A request of a client and its answer: what the probe found, the database at the transaction, the limit and
the page. -/
structure Visit where
  /-- What the probe found. -/
  snapshot : ReadinessSnapshot
  /-- The database. -/
  db : Db
  /-- The limit. -/
  limit : Argument
  /-- The page. -/
  page : BlockEventsPage

/-- The argument of a cursor. -/
def argument : Option String → Argument
  | none => .missing
  | some raw => .text raw

/-- The request succeeds at an indexed block. -/
structure Visit.Succeeds (network : String) (height : Argument) (cursor : Option String) (visit : Visit) : Prop where
  /-- The answer is the page. -/
  answers : blockEvents network visit.snapshot visit.db height visit.limit (argument cursor) = .ok visit.page
  /-- The height is indexed. -/
  indexed : visit.page.indexed = true
  /-- The block is there. -/
  hashed : visit.page.blockHash ≠ none

/-- Requests one after the other, each with the cursor of the page before it. -/
inductive Session (network : String) (height : Argument) : Option String → List Visit → Prop
  /-- The last one. -/
  | last {cursor : Option String} {visit : Visit} (succeeds : visit.Succeeds network height cursor) :
      Session network height cursor [visit]
  /-- One more. -/
  | more {cursor : Option String} {visit : Visit} {next : String} {visits : List Visit}
      (succeeds : visit.Succeeds network height cursor) (goesOn : visit.page.nextCursor = some next)
      (rest : Session network height (some next) visits) : Session network height cursor (visit :: visits)

theorem Session.ne_nil {network : String} {height : Argument} {cursor : Option String} {visits : List Visit}
    (session : Session network height cursor visits) : visits ≠ [] := by
  cases session <;> exact List.cons_ne_nil _ _

/-- The page of a visit presents a slice of the events of the block with the hash. -/
structure Visit.Presents (height : ℕ) (hash : Hash) (visit : Visit) (slice : Slice EventRow (ℕ ×ₗ ℕ ×ₗ ℕ)) : Prop where
  /-- The page names the block, -/
  blockHash : visit.page.blockHash = some hash
  /-- which is stored. -/
  stored : Indexer.blockHash visit.db height = some hash
  /-- The events. -/
  events : visit.page.events = slice.items.map presentEvent
  /-- The cursor. -/
  nextCursor : visit.page.nextCursor = slice.next.map fun place => encodeBlockEventsCursor (cursorAt height hash place)
  /-- Whether it is the last. -/
  complete : visit.page.complete = slice.next.isNone

section

variable {network : String} {rawHeight : Argument} {height : ℕ} {hash : Hash} {rows : List EventRow}

/-- A page presents the slice at the place of its cursor. -/
theorem Visit.Succeeds.presents {visit : Visit} {start : Option (ℕ ×ₗ ℕ ×ₗ ℕ)}
    (succeeds : visit.Succeeds network rawHeight
      (start.map fun place => encodeBlockEventsCursor (cursorAt height hash place)))
    (checked : checkedHeight rawHeight = .ok height)
    (same : Indexer.blockHash visit.db height = some hash → reported visit.db height = rows)
    (positioned : Positioned visit.db height) (first : start = none → visit.page.blockHash = some hash) :
    ∃ limit, 0 < limit ∧ visit.Presents height hash (sliceOf position limit (following position start rows)) := by
  obtain ⟨other, hother⟩ := Option.ne_none_iff_exists'.mp succeeds.hashed
  obtain ⟨height', limit, cursor, hheight, hpositive, hcursor, hstored, hbound, hpage⟩ :=
    blockEvents_ok succeeds.answers succeeds.indexed hother
  obtain rfl := Except.ok.inj (hheight.symm.trans checked)
  -- The cursor names the place, and the block when there is one.
  have hplace : cursor.map BlockEventsCursor.place = start ∧ other = hash := by
    cases start with
    | none =>
      obtain rfl := pure_eq_ok.mp hcursor
      exact ⟨rfl, Option.some.inj (hother.symm.trans (first rfl))⟩
    | some place =>
      simp only [Option.map_some, argument, checkedCursor] at hcursor
      split at hcursor
      · rename_i decoded hdecoded
        obtain rfl := decode_encode_cursorAt hdecoded
        split_ifs at hcursor
        obtain rfl := pure_eq_ok.mp hcursor
        refine ⟨rfl, ?_⟩
        exact Hash.text_injective (hbound _ rfl).symm
      · cases hcursor
  obtain ⟨rfl, rfl⟩ := hplace
  rw [selectEvents_eq positioned, same hstored] at hpage
  obtain ⟨hevents, hnext, hcomplete⟩ := hpage
  exact ⟨limit, hpositive, hother, hstored, hevents, hnext, hcomplete⟩

/-- **A session is a keyset reading** of the events of one block. -/
theorem Session.reading {cursor : Option String} {visits : List Visit} (session : Session network rawHeight cursor visits)
    {start : Option (ℕ ×ₗ ℕ ×ₗ ℕ)}
    (hcursor : cursor = start.map fun place => encodeBlockEventsCursor (cursorAt height hash place))
    (checked : checkedHeight rawHeight = .ok height)
    (same : ∀ visit ∈ visits, Indexer.blockHash visit.db height = some hash → reported visit.db height = rows)
    (positioned : ∀ visit ∈ visits, Positioned visit.db height)
    (first : start = none → ∀ visit, visits.head? = some visit → visit.page.blockHash = some hash) :
    ∃ slices, Reading position rows start slices ∧ List.Forall₂ (Visit.Presents height hash) visits slices := by
  induction session generalizing start with
  | last succeeds =>
    subst hcursor
    obtain ⟨limit, hpositive, presents⟩ := succeeds.presents checked (same _ List.mem_cons_self)
      (positioned _ List.mem_cons_self) fun hnone => first hnone _ rfl
    exact ⟨_, .last hpositive, .cons presents .nil⟩
  | @more cursor visit next visits succeeds goesOn _ ih =>
    subst hcursor
    obtain ⟨limit, hpositive, presents⟩ := succeeds.presents checked (same _ List.mem_cons_self)
      (positioned _ List.mem_cons_self) fun hnone => first hnone _ rfl
    obtain ⟨place, hplace, htext⟩ := Option.map_eq_some_iff.mp (presents.nextCursor.symm.trans goesOn)
    have hnext : some next = (some place).map fun place => encodeBlockEventsCursor (cursorAt height hash place) :=
      congrArg some htext.symm
    obtain ⟨slices, reading, hall⟩ := ih hnext (fun v hv => same v (List.mem_cons_of_mem _ hv))
      (fun v hv => positioned v (List.mem_cons_of_mem _ hv)) fun hnone => absurd hnone (Option.some_ne_none place)
    exact ⟨_, .more hpositive hplace reading, .cons presents hall⟩

theorem Session.first {cursor : Option String} {visits : List Visit} (session : Session network rawHeight cursor visits) :
    ∃ visit, visits.head? = some visit ∧ visit.Succeeds network rawHeight cursor := by
  cases session with
  | last succeeds => exact ⟨_, rfl, succeeds⟩
  | more succeeds => exact ⟨_, rfl, succeeds⟩

/-- The pages of visits present the items of their slices. -/
theorem flatMap_presents {visits : List Visit} {slices : List (Slice EventRow (ℕ ×ₗ ℕ ×ₗ ℕ))}
    (h : List.Forall₂ (Visit.Presents height hash) visits slices) :
    (visits.flatMap fun visit => visit.page.events) = (slices.flatMap Slice.items).map presentEvent := by
  induction h with
  | nil => rfl
  | cons presents _ ih => rw [List.flatMap_cons, List.flatMap_cons, List.map_append, ih, presents.events]

theorem getLast_presents {visits : List Visit} {slices : List (Slice EventRow (ℕ ×ₗ ℕ ×ₗ ℕ))}
    (h : List.Forall₂ (Visit.Presents height hash) visits slices) {visit : Visit} (hlast : visits.getLast? = some visit) :
    ∃ slice, slices.getLast? = some slice ∧ visit.Presents height hash slice := by
  induction h with
  | nil => cases hlast
  | @cons first slice visits slices presents rest ih =>
    cases rest with
    | nil =>
      obtain rfl : first = visit := by simpa using hlast
      exact ⟨slice, rfl, presents⟩
    | cons _ _ =>
      rw [List.getLast?_cons_cons] at hlast ⊢
      exact ih hlast

theorem exists_of_forall₂ {visits : List Visit} {slices : List (Slice EventRow (ℕ ×ₗ ℕ ×ₗ ℕ))}
    (h : List.Forall₂ (Visit.Presents height hash) visits slices) {visit : Visit} (hvisit : visit ∈ visits) :
    ∃ slice ∈ slices, visit.Presents height hash slice := by
  induction h with
  | nil => cases hvisit
  | cons presents _ ih =>
    rcases List.mem_cons.mp hvisit with rfl | hvisit
    · exact ⟨_, List.mem_cons_self, presents⟩
    · obtain ⟨slice, hslice, h⟩ := ih hvisit
      exact ⟨slice, List.mem_cons_of_mem _ hslice, h⟩

/-- A cursor is refused unless the block that it names is stored. -/
theorem cursor_refused {snapshot : ReadinessSnapshot} {db : Db} {limit : Argument} {place : ℕ ×ₗ ℕ ×ₗ ℕ}
    {page : BlockEventsPage} (checked : checkedHeight rawHeight = .ok height)
    (foreign : Indexer.blockHash db height ≠ some hash) :
    blockEvents network snapshot db rawHeight limit
      (.text (encodeBlockEventsCursor (cursorAt height hash place))) ≠ .ok page := by
  intro h
  obtain ⟨height', hheight, h⟩ := bind_eq_ok.mp h
  obtain rfl := Except.ok.inj (hheight.symm.trans checked)
  obtain ⟨_, -, h⟩ := bind_eq_ok.mp h
  obtain ⟨cursor, hcursor, h⟩ := bind_eq_ok.mp h
  obtain ⟨_, -, h⟩ := bind_eq_ok.mp h
  obtain ⟨checkpoint, -, h⟩ := bind_eq_ok.mp h
  simp only [checkedCursor] at hcursor
  split at hcursor
  · rename_i decoded hdecoded
    obtain rfl := decode_encode_cursorAt hdecoded
    split_ifs at hcursor
    obtain rfl := pure_eq_ok.mp hcursor
    by_cases hlow : checkpoint.height < height'
    · rw [if_pos hlow] at h
      cases h
    · rw [if_neg hlow] at h
      split_ifs at h with hforeign
      have hsame : some hash.text = (Indexer.blockHash db height').map Hash.text := by simpa [cursorAt] using hforeign
      obtain ⟨other, hother, htext⟩ := Option.map_eq_some_iff.mp hsame.symm
      exact foreign (hother.trans (congrArg some (Hash.text_injective htext)))
  · cases hcursor

end

/-- The pages of a block's events. -/
structure Paged (rawHeight : Argument) (height : ℕ) (hash : Hash) (rows : List EventRow) (visits : List Visit) : Prop where
  /-- The rows are the block's valid operations and terminal exits, in whatever database was read, -/
  events : ∀ visit ∈ visits, rows.Perm (visit.db.events.filter (isReported height))
  /-- in the order of their positions. -/
  sorted : rows.Pairwise fun row later => position row < position later
  /-- All pages report the block. -/
  blockHash : ∀ visit ∈ visits, visit.page.blockHash = some hash
  /-- Together they are the first events; -/
  part : (visits.flatMap fun visit => visit.page.events) <+: rows.map presentEvent
  /-- all of them when the last page is complete. -/
  whole : ∀ visit, visits.getLast? = some visit → visit.page.complete = true →
    (visits.flatMap fun visit => visit.page.events) = rows.map presentEvent
  /-- A page has a cursor unless it is complete, -/
  cursors : ∀ visit ∈ visits, (visit.page.nextCursor = none ↔ visit.page.complete = true)
  /-- and then an event. -/
  nonempty : ∀ visit ∈ visits, visit.page.complete = false → visit.page.events ≠ []
  /-- There are no more pages than events, or one. -/
  count : visits.length ≤ max 1 rows.length
  /-- Its cursor is refused where another block is at the height. -/
  refused : ∀ visit ∈ visits, ∀ raw, visit.page.nextCursor = some raw → ∀ network snapshot db limit page,
    Indexer.blockHash db height ≠ some hash → blockEvents network snapshot db rawHeight limit (.text raw) ≠ .ok page

/-- The events of a height. -/
def eventsAt (db : Db) (height : ℕ) : List EventRow := db.events.filter fun row => row.blockHeight = height

theorem filter_eventsAt (db : Db) (height : ℕ) :
    (eventsAt db height).filter (isReported height) = db.events.filter (isReported height) := by
  unfold eventsAt
  rw [List.filter_filter]
  refine List.filter_congr fun row _ => ?_
  unfold isReported
  cases decide (row.blockHeight = height) <;> simp

/-- **Pagination neither loses nor repeats events.** A client asks for the events of a height without a cursor and
passes every cursor on, whatever limits it asks with, and whatever the store went through before each request. As long
as blocks with one hash have the same rows, its pages are those of one block. -/
theorem block_events_pages {packages : Packages} {binding : Binding} {network : String} {rawHeight : Argument}
    {visits : List Visit} (session : Session network rawHeight none visits)
    (stored : ∀ visit ∈ visits, ∃ history, Stored packages binding history visit.db)
    (determined : ∀ visit ∈ visits, ∀ other ∈ visits, ∀ height : ℕ,
      Indexer.blockHash visit.db height = Indexer.blockHash other.db height →
        (eventsAt visit.db height).Perm (eventsAt other.db height)) :
    ∃ height hash rows, checkedHeight rawHeight = .ok height ∧ Paged rawHeight height hash rows visits := by
  obtain ⟨visit₀, hhead, succeeds⟩ := session.first
  have hmem : visit₀ ∈ visits := List.mem_of_mem_head? hhead
  obtain ⟨hash, hhash⟩ := Option.ne_none_iff_exists'.mp succeeds.hashed
  obtain ⟨height, -, -, hheight, -, -, hstored, -⟩ := blockEvents_ok succeeds.answers succeeds.indexed hhash
  have positioned : ∀ visit ∈ visits, Positioned visit.db height := by
    intro visit hvisit
    obtain ⟨history, hstored⟩ := stored visit hvisit
    exact positioned_of_stored hstored height
  have hperm : ∀ visit ∈ visits, Indexer.blockHash visit.db height = some hash →
      (visit.db.events.filter (isReported height)).Perm (visit₀.db.events.filter (isReported height)) := by
    intro visit hvisit hsame
    have := (determined visit hvisit visit₀ hmem height (hsame.trans hstored.symm)).filter (isReported height)
    rwa [filter_eventsAt, filter_eventsAt] at this
  have hnone : (none : Option String) =
      (none : Option (ℕ ×ₗ ℕ ×ₗ ℕ)).map fun place => encodeBlockEventsCursor (cursorAt height hash place) := rfl
  obtain ⟨slices, reading, hall⟩ := session.reading hnone hheight
    (fun visit hvisit hsame => orderBy_congr (hperm visit hvisit hsame) (positioned visit hvisit)) positioned
    fun _ visit hvisit => Option.some.inj (hhead.symm.trans hvisit) ▸ hhash
  have hsorted := orderBy_sorted (positioned visit₀ hmem)
  obtain ⟨rest, hrest, hdone, hcount⟩ := reading.items hsorted
  rw [following_none] at hrest hcount
  have hpresents : ∀ visit ∈ visits, ∃ slice ∈ slices, visit.Presents height hash slice :=
    fun visit hvisit => exists_of_forall₂ hall hvisit
  have hpages : (reported visit₀.db height).map presentEvent =
      (visits.flatMap fun visit => visit.page.events) ++ rest.map presentEvent := by
    rw [flatMap_presents hall, ← List.map_append, ← hrest]
    rfl
  refine ⟨height, hash, reported visit₀.db height, hheight, ⟨fun visit hvisit => ?_, hsorted, fun visit hvisit => ?_,
    ⟨_, hpages.symm⟩, fun visit hlast hcomplete => ?_, fun visit hvisit => ?_, fun visit hvisit hmore => ?_, ?_,
    fun visit hvisit raw hraw network snapshot db limit page hforeign => ?_⟩⟩
  · obtain ⟨slice, -, presents⟩ := hpresents visit hvisit
    exact orderBy_perm.trans (hperm visit hvisit presents.stored).symm
  · obtain ⟨slice, -, presents⟩ := hpresents visit hvisit
    exact presents.blockHash
  · obtain ⟨slice, hslice, presents⟩ := getLast_presents hall hlast
    rw [presents.complete, Option.isNone_iff_eq_none] at hcomplete
    rw [hpages, hdone slice hslice hcomplete, List.map_nil, List.append_nil]
  · obtain ⟨slice, -, presents⟩ := hpresents visit hvisit
    rw [presents.nextCursor, presents.complete, Option.map_eq_none_iff, Option.isNone_iff_eq_none]
  · obtain ⟨slice, hslice, presents⟩ := hpresents visit hvisit
    rw [presents.complete] at hmore
    rw [presents.events, ne_eq, List.map_eq_nil_iff]
    exact reading.nonempty slice hslice fun h => by simp [h] at hmore
  · rw [hall.length_eq]
    exact hcount
  · obtain ⟨slice, -, presents⟩ := hpresents visit hvisit
    obtain ⟨place, -, rfl⟩ := Option.map_eq_some_iff.mp (presents.nextCursor.symm.trans hraw)
    exact cursor_refused hheight hforeign

/-! ### Reading to the end -/

/-- A store from which the events of a block are served. -/
structure Serves (height : ℕ) (hash : Hash) (rows : List EventRow) (db : Db) : Prop where
  /-- The height is indexed. -/
  indexed : ∃ checkpoint, newestCheckpoint db = some checkpoint ∧ height ≤ checkpoint.height
  /-- The block is there. -/
  stored : Indexer.blockHash db height = some hash
  /-- Its events have positions of their own, -/
  positioned : Positioned db height
  /-- and are these. -/
  reported : reported db height = rows

section

variable {network : String} {rawHeight rawLimit : Argument} {height limit : ℕ} {hash : Hash} {rows : List EventRow}
  {snapshot : ReadinessSnapshot}

/-- A request with the cursor of a place is answered with the slice there. -/
theorem Serves.visit {db : Db} (serves : Serves height hash rows db) (checked : checkedHeight rawHeight = .ok height)
    (limited : checkedLimit rawLimit = .ok limit) (ready : snapshot.ready = true) {start : Option (ℕ ×ₗ ℕ ×ₗ ℕ)}
    (issuable : ∀ place ∈ start, Issuable (cursorAt height hash place)) :
    ∃ visit : Visit, visit.db = db ∧
      visit.Succeeds network rawHeight (start.map fun place => encodeBlockEventsCursor (cursorAt height hash place)) ∧
      visit.Presents height hash (sliceOf position limit (following position start rows)) := by
  obtain ⟨checkpoint, newest, low⟩ := serves.indexed
  have hcursor : checkedCursor (argument (start.map fun place => encodeBlockEventsCursor (cursorAt height hash place)))
      height = .ok (start.map (cursorAt height hash)) := by
    cases start with
    | none => rfl
    | some place =>
      simp only [Option.map_some, argument, checkedCursor, (issuable place rfl).decode]
      exact if_neg (not_not.mpr rfl)
  have hbound : ∀ c, start.map (cursorAt height hash) = some c → c.blockHash = hash.text := by
    intro c hc
    obtain ⟨_, -, rfl⟩ := Option.map_eq_some_iff.mp hc
    rfl
  have hpage := @blockEvents_of_indexed network _ _ _ _ _ _ _ _ _ _ checked limited hcursor ready newest low serves.stored hbound
  have hplace : (start.map (cursorAt height hash)).map BlockEventsCursor.place = start := by cases start <;> rfl
  have hselect : selectEvents db height (start.map (cursorAt height hash)) = following position start rows := by
    rw [selectEvents_eq serves.positioned, hplace, serves.reported]
  rw [hselect] at hpage
  obtain ⟨hevents, hnext, hcomplete⟩ := indexedPage_eq network height checkpoint hash (limit_pos limited)
    (following position start rows)
  exact ⟨⟨snapshot, db, rawLimit, _⟩, rfl, ⟨hpage, rfl, Option.some_ne_none _⟩, rfl, serves.stored, hevents, hnext,
    hcomplete⟩

/-- **The pages of a block can be read to its end**, whatever the limit, and whatever is appended and rolled back
between the requests as long as the block is there. -/
theorem Serves.session {stores : ℕ → Db} (serves : ∀ i, Serves height hash rows (stores i))
    (checked : checkedHeight rawHeight = .ok height) (limited : checkedLimit rawLimit = .ok limit)
    (ready : snapshot.ready = true) (issuable : ∀ row ∈ rows, Issuable (cursorAt height hash (position row)))
    {start : Option (ℕ ×ₗ ℕ ×ₗ ℕ)} (hstart : ∀ place ∈ start, ∃ row ∈ rows, position row = place) :
    ∃ visits, Session network rawHeight
        (start.map fun place => encodeBlockEventsCursor (cursorAt height hash place)) visits ∧
      (∀ visit, visits.head? = some visit → visit.page.blockHash = some hash) ∧
      (∀ visit, visits.getLast? = some visit → visit.page.complete = true) ∧
      (∀ i visit, visits[i]? = some visit → visit.db = stores i) ∧
      (following position start rows).length ≤ limit * visits.length := by
  have hpositive := limit_pos limited
  have hsorted : rows.Pairwise fun row later => position row < position later :=
    (serves 0).reported ▸ orderBy_sorted (serves 0).positioned
  -- What is left gets shorter with every page.
  induction hn : (following position start rows).length using Nat.strong_induction_on generalizing stores start with
  | _ n ih =>
    have hissuable : ∀ place ∈ start, Issuable (cursorAt height hash place) := fun place hplace => by
      obtain ⟨row, hrow, rfl⟩ := hstart place hplace
      exact issuable row hrow
    obtain ⟨visit, hdb, succeeds, presents⟩ := (serves 0).visit checked limited ready hissuable
    have hslice : (sliceOf position limit (following position start rows)).items.length ≤ limit := List.length_take_le _ _
    cases hnext : (sliceOf position limit (following position start rows)).next with
    | none =>
      refine ⟨[visit], .last succeeds, fun v hv => ?_, fun v hv => ?_, fun i v hv => ?_, ?_⟩
      · obtain rfl : visit = v := Option.some.inj hv
        exact presents.blockHash
      · obtain rfl : visit = v := Option.some.inj hv
        rw [presents.complete, hnext]
        rfl
      · obtain ⟨rfl, rfl⟩ : i = 0 ∧ visit = v := by
          cases i with
          | zero => exact ⟨rfl, Option.some.inj hv⟩
          | succ i => cases hv
        exact hdb
      · rw [sliceOf_last position hpositive hnext] at hslice
        rw [List.length_singleton, Nat.mul_one]
        exact hn ▸ hslice
    | some place =>
      obtain ⟨hsplit, hitems, -, hplace⟩ := following_next hpositive hsorted hnext
      have hlength := congrArg List.length hsplit
      have hpage := List.length_pos_iff.mpr hitems
      rw [List.length_append] at hlength
      obtain ⟨visits, session, -, hcomplete, hstores, hcount⟩ := ih (following position (some place) rows).length (by omega)
        (fun i => serves (i + 1)) (fun later h => Option.some.inj h ▸ hplace) rfl
      refine ⟨visit :: visits, .more succeeds (presents.nextCursor.trans (congrArg _ hnext)) session,
        fun v hv => ?_, fun v hv => ?_, fun i v hv => ?_, ?_⟩
      · obtain rfl : visit = v := Option.some.inj hv
        exact presents.blockHash
      · rw [List.getLast?_cons_of_ne_nil session.ne_nil] at hv
        exact hcomplete v hv
      · cases i with
        | zero =>
          obtain rfl : visit = v := Option.some.inj hv
          exact hdb
        | succ i => exact hstores i v hv
      · rw [List.length_cons, Nat.mul_succ]
        omega

end

/-! ### The pages of two lives -/

/-- A process that is ready. -/
def readySnapshot : ReadinessSnapshot :=
  evaluateReadiness ⟨true, true, true, true, false, some 201, some 201, some 201, 1, true, none, none⟩

/-- The store at a request; the second block is appended after the first one. -/
def storyStore (story : Story) (i : ℕ) : Db := if i = 0 then story.before else story.db

section

variable {story : Story} (ran : tellStory = .ok story) (told : story.Told)

include ran

theorem storyStore_stored (i : ℕ) : ∃ history, Stored lifePackages sampleBinding history (storyStore story i) := by
  by_cases hi : i = 0
  · exact ⟨_, by rw [storyStore, if_pos hi]; exact (Story.stored ran).1⟩
  · exact ⟨_, by rw [storyStore, if_neg hi]; exact (Story.stored ran).2⟩

include told

theorem story_eventsAt {height : ℕ} (h : height ≠ 201) (i : ℕ) :
    eventsAt (storyStore story i) height = eventsAt story.db height := by
  obtain ⟨-, -, events, hevents, hheights⟩ := Story.before_told ran told
  by_cases hi : i = 0
  · have hnew : events.filter (fun row => decide (row.blockHeight = height)) = [] :=
      List.filter_eq_nil_iff.mpr fun row hrow => by
        rw [hheights row hrow]
        simpa using h.symm
    rw [storyStore, if_pos hi, eventsAt, eventsAt, hevents, List.filter_append, hnew, List.append_nil]
  · rw [storyStore, if_neg hi]

theorem story_blockHash (i : ℕ) (height : ℤ) : Indexer.blockHash (storyStore story i) height =
    ((if i = 0 then [(200, sampleHash 2)] else [(200, sampleHash 2), (201, sampleHash 4)]).find? fun stored : ℕ × Hash =>
      (stored.1 : ℤ) = height).map Prod.snd := by
  have hfind : ∀ db : Db, Indexer.blockHash db height = ((db.blocks.map fun row => (row.height, row.hash)).find? fun stored =>
      (stored.1 : ℤ) = height).map Prod.snd := fun db => by
    rw [List.find?_map, Option.map_map]
    rfl
  by_cases hi : i = 0
  · rw [storyStore, if_pos hi, if_pos hi, hfind, (Story.before_told ran told).1]
  · rw [storyStore, if_neg hi, if_neg hi, hfind, told.blocks]

/-- Stores with one block at a height have the same events there. -/
theorem story_determined {height : ℕ} {i j : ℕ}
    (same : Indexer.blockHash (storyStore story i) height = Indexer.blockHash (storyStore story j) height) :
    (eventsAt (storyStore story i) height).Perm (eventsAt (storyStore story j) height) := by
  by_cases hheight : height = 201
  · subst hheight
    rw [story_blockHash ran told, story_blockHash ran told] at same
    have hboth : i = 0 ↔ j = 0 := by
      by_cases hi : i = 0 <;> by_cases hj : j = 0 <;> simp_all
    by_cases hi : i = 0
    · rw [hi, hboth.mp hi]
    · rw [storyStore, storyStore, if_neg hi, if_neg (mt hboth.mpr hi)]
  · rw [story_eventsAt ran told hheight, story_eventsAt ran told hheight]

/-- The first block is served before and after the append, and the second one after it. -/
theorem story_serves :
    (∀ i, Serves 200 (sampleHash 2) (reported story.db 200) (storyStore story i)) ∧
      Serves 201 (sampleHash 4) (reported story.db 201) story.db := by
  have hnewest : ∀ i, ∃ checkpoint, newestCheckpoint (storyStore story i) = some checkpoint ∧ 200 ≤ checkpoint.height ∧
      (i ≠ 0 → 201 ≤ checkpoint.height) := by
    intro i
    by_cases hi : i = 0
    · obtain ⟨row, hrows, hrow⟩ := List.map_eq_singleton_iff.mp (Story.before_told ran told).2.1
      refine ⟨row, ?_, (Prod.mk.inj hrow).1.ge, fun h => absurd hi h⟩
      rw [storyStore, if_pos hi, newestCheckpoint, hrows]
      rfl
    · obtain ⟨first, others, hsplit, hfirst, hothers⟩ := List.map_eq_cons_iff.mp told.checkpoints
      obtain ⟨row, rfl, hrow⟩ := List.map_eq_singleton_iff.mp hothers
      have hlow := (Prod.mk.inj hfirst).1
      have hhigh := (Prod.mk.inj hrow).1
      refine ⟨row, ?_, by omega, fun _ => hhigh.ge⟩
      rw [storyStore, if_neg hi, newestCheckpoint, hsplit]
      simp [hlow, hhigh]
  have hpositioned : ∀ i height, Positioned (storyStore story i) height := fun i height => by
    obtain ⟨history, stored⟩ := storyStore_stored ran i
    exact positioned_of_stored stored height
  constructor
  · intro i
    obtain ⟨checkpoint, newest, low, -⟩ := hnewest i
    refine ⟨⟨checkpoint, newest, low⟩, ?_, hpositioned i 200, ?_⟩
    · rw [story_blockHash ran told]
      by_cases hi : i = 0 <;> simp [hi]
    · rw [reported, reported, ← filter_eventsAt, ← filter_eventsAt, story_eventsAt ran told (by decide)]
  · obtain ⟨checkpoint, newest, -, high⟩ := hnewest 1
    refine ⟨⟨checkpoint, newest, high Nat.one_ne_zero⟩, ?_, hpositioned 1 201, rfl⟩
    exact (story_blockHash ran told 1 201).trans (by simp)

omit ran

theorem story_issuable {height : ℕ} (h : height = 200 ∨ height = 201) (hash : Hash) :
    ∀ row ∈ reported story.db height, Issuable (cursorAt height hash (position row)) := by
  intro row hrow
  have hmem : (row.blockHeight, row.txIndex, row.eventIndex, row.subIndex, row.validityClass) ∈ story.db.events.map
      fun row => (row.blockHeight, row.txIndex, row.eventIndex, row.subIndex, row.validityClass) :=
    List.mem_map.mpr ⟨row, (List.mem_filter.mp (orderBy_perm.mem_iff.mp hrow)).1, rfl⟩
  rw [told.events] at hmem
  simp only [List.mem_cons, Prod.mk.injEq, List.not_mem_nil, or_false] at hmem
  have hmax : U32_MAX = 4294967295 := rfl
  refine ⟨?_, isHex_text hash, ?_, ?_, ?_⟩
  · show height ≤ 9999999999
    omega
  · show row.txIndex ≤ U32_MAX
    omega
  · show row.eventIndex ≤ U32_MAX
    omega
  · show row.subIndex ≤ U32_MAX
    omega

/-- Two events are reported of each block. -/
theorem story_reported : (reported story.db 200).length = 2 ∧ (reported story.db 201).length = 2 := by
  have hlength : ∀ height, (reported story.db height).length =
      ((story.db.events.map fun row => (row.blockHeight, row.txIndex, row.eventIndex, row.subIndex, row.validityClass)).filter
        fun row => row.1 = height && (row.2.2.2.2 = .VALID_OPERATION || row.2.2.2.2 = .TERMINAL_NONCANONICAL)).length := by
    intro height
    rw [List.filter_map, List.length_map, reported, orderBy_perm.length_eq]
    rfl
  rw [hlength, hlength, told.events]
  exact ⟨rfl, rfl⟩

end

/-- Two requests are answered from either side of the append. -/
theorem story_sides {story : Story} {visits : List Visit} (told : story.Told) (two : 2 ≤ visits.length)
    (stores : ∀ i visit, visits[i]? = some visit → visit.db = storyStore story i) :
    (∃ visit ∈ visits, visit.db.objects.length = 1) ∧ ∃ visit ∈ visits, visit.db.objects.length = 2 := by
  obtain ⟨hbefore, hafter⟩ := told.objects
  obtain ⟨first, second, others, rfl⟩ : ∃ first second others, visits = first :: second :: others := by
    match visits, two with
    | first :: second :: others, _ => exact ⟨first, second, others, rfl⟩
  refine ⟨⟨first, List.mem_cons_self, ?_⟩, second, List.mem_cons_of_mem _ List.mem_cons_self, ?_⟩
  · rw [stores 0 first rfl, storyStore, if_pos rfl]
    simpa using congrArg List.length hbefore
  · rw [stores 1 second rfl, storyStore, if_neg Nat.one_ne_zero]
    simpa using congrArg List.length hafter

/-- The two events of the first block, on a page each; the second block is appended after the first page. -/
theorem block_events_pages_sample : ∃ visits hash rows, 2 ≤ visits.length ∧
    (∃ visit ∈ visits, visit.db.objects.length = 1) ∧ (∃ visit ∈ visits, visit.db.objects.length = 2) ∧
      Paged (.text "200") 200 hash rows visits := by
  obtain ⟨story, ran, told⟩ := Story.exists_told
  have checked : checkedHeight (.text "200") = .ok 200 := ok_of_toOption (by decide +kernel)
  have limited : checkedLimit (.text "1") = .ok 1 := ok_of_toOption (by decide +kernel)
  have ready : readySnapshot.ready = true := by decide +kernel
  obtain ⟨visits, session, hnamed, -, hstores, hcount⟩ := @Serves.session "regtest" _ _ _ _ _ _ _ _
    (story_serves ran told).1 checked limited ready (story_issuable told (.inl rfl) _) none fun _ h => by cases h
  rw [following_none, (story_reported told).1, Nat.one_mul] at hcount
  have hdb : ∀ visit ∈ visits, ∃ i, visit.db = storyStore story i := fun visit hvisit => by
    obtain ⟨i, hi⟩ := List.mem_iff_getElem?.mp hvisit
    exact ⟨i, hstores i visit hi⟩
  have hstored : ∀ visit ∈ visits, ∃ history, Stored lifePackages sampleBinding history visit.db := fun visit hvisit => by
    obtain ⟨i, hi⟩ := hdb visit hvisit
    exact hi ▸ storyStore_stored ran i
  have hsame : ∀ visit ∈ visits, ∀ other ∈ visits, ∀ height : ℕ,
      Indexer.blockHash visit.db height = Indexer.blockHash other.db height →
        (eventsAt visit.db height).Perm (eventsAt other.db height) := by
    intro visit hvisit other hother height
    obtain ⟨i, hi⟩ := hdb visit hvisit
    obtain ⟨j, hj⟩ := hdb other hother
    rw [hi, hj]
    exact story_determined ran told
  obtain ⟨height, hash, rows, hheight, paged⟩ := block_events_pages session hstored hsame
  obtain rfl := Except.ok.inj (hheight.symm.trans checked)
  obtain ⟨hone, htwo⟩ := story_sides told (by omega) hstores
  exact ⟨visits, hash, rows, hcount, hone, htwo, paged⟩

end IndexTandem.Api
