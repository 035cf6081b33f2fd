import IndexTandem.Api.BlockEvents
import IndexTandem.Api.CatalogCursor
import IndexTandem.Verification.Interleaving

/-!
# Pages of the catalog

A page of the catalog is read in one snapshot of the store between two resolutions of one agreement, and compared with
it. Its cursor names the snapshot, so the next page is refused once the agreement, the number of the last
reorganization or the number of objects is another one. A page that is returned is a slice of the objects of the store
(`readSnapshot_ok`).

The requests here are in time; the deadline, the connection and the slots are those of the admission.
-/

namespace IndexTandem.Api.Catalog

open Library Protocol Database Indexer Agreement Verification

variable {packages : Packages} {binding : Binding}

/-! ### The service -/

/-- What the platform provides. -/
structure Platform extends CursorPlatform where
  /-- `digest({ verification, reorgEpoch, total })`, the SHA-256 of the JSON. -/
  digest : VerificationMetadata → String → ℕ → Hash

/-- `safeCount(value)`. -/
def safeCount (text : String) : Except String ℕ := do
  ensure (isCounter text = true ∧ decimal text ≤ Agreement.MAX_SAFE_INTEGER) "catalog counter is invalid"
  pure (decimal text)

/-- `SELECT COALESCE(MAX(id),0) FROM tandem_reorg_journal`. -/
def reorgEpoch (db : Db) : ℕ := (db.reorgs.map ReorgRow.id).foldl max 0

/-- An object of a page. -/
structure Item where
  /-- The columns. -/
  row : ObjectRow
  /-- The first carrier. -/
  genesisOutpoint : String
  /-- The name to display. -/
  displayId : String
  deriving DecidableEq

/-- `verification.protocolId.split(":")[2]`. -/
def initTxid (protocolId : String) : String :=
  ((fieldsBetween ':' protocolId.toList)[2]?.map String.ofList).getD "undefined"

/-- The object of a row. -/
def itemOf (verification : VerificationMetadata) (row : ObjectRow) : Item where
  row := row
  genesisOutpoint := row.createTxid.text ++ ":1"
  displayId := "tandem:" ++ verification.network ++ ":" ++ initTxid verification.protocolId ++ ":" ++
    row.createTxid.text ++ ":1"

/-- A page. -/
structure Page where
  schema : String
  scope : String
  snapshotHash : String
  reorgEpoch : String
  totalAtomic : String
  offset : ℕ
  limit : ℕ
  items : List Item
  hasMore : Bool
  deriving DecidableEq

/-- `create_height < ? OR (create_height = ? AND object_key > ?)`; the driver writes an array as its elements. -/
def isAfter (cursor : CatalogCursor) (row : ObjectRow) : Bool :=
  row.createHeight < cursor.height || row.createHeight = cursor.height && cursor.key.written < row.objectKey.text

/-- `ORDER BY create_height DESC, object_key ASC`. -/
def rank (row : ObjectRow) : ℕᵒᵈ ×ₗ String := toLex (OrderDual.toDual row.createHeight, row.objectKey.text)

/-- The query of the objects, up to its `LIMIT`. -/
def selectObjects (db : Db) (cursor : Option CatalogCursor) : List ObjectRow :=
  orderBy rank (db.objects.filter fun row => cursor.all fun cursor => isAfter cursor row)

/-- The object may not come after the one before it. -/
def misplaced (height : ℕ) (previous : Option ObjectRow) (row : ObjectRow) : Bool :=
  !isHex 32 row.objectKey.text || !isHex 32 row.createTxid.text || !decide (row.createHeight ≤ Agreement.MAX_SAFE_INTEGER) ||
    row.createHeight > height || previous.any fun previous =>
      row.createHeight > previous.createHeight ||
        row.createHeight = previous.createHeight && row.objectKey.text ≤ previous.objectKey.text

/-- `items.some((row, i) => …)`. -/
def someMisplaced (height : ℕ) : Option ObjectRow → List ObjectRow → Bool
  | _, [] => false
  | previous, row :: rows => misplaced height previous row || someMisplaced height (some row) rows

/-- The tip and the counters are those of the agreement. -/
def SameState (verification : VerificationMetadata) (tip : BlockRow) (db : Db) : Prop :=
  tip.height = verification.height ∧ tip.hash.text = verification.blockHash ∧
    tip.eventRoot.text = verification.eventRoot ∧ tip.objectStateRoot.text = verification.objectStateRoot ∧
    tip.chainedRoot.text = verification.chainedRoot ∧ toString db.objects.length = verification.allObjects ∧
    toString (db.objects.countP ObjectRow.founding) = verification.foundingCreated ∧
    toString (db.objects.countP fun row => row.status = .active) = verification.activeObjects

instance (verification : VerificationMetadata) (tip : BlockRow) (db : Db) : Decidable (SameState verification tip db) :=
  inferInstanceAs (Decidable (_ ∧ _))

/-- `readSnapshot(verification, limit, cursor)`, of the store that the transaction sees. -/
def readSnapshot (platform : Platform) (verification : VerificationMetadata) (limit : ℕ) (cursor : Option CatalogCursor)
    (db : Db) : Except String Page := do
  let tip ← orError "catalog SQL state differs from signed agreement" (tipRow db)
  ensure (SameState verification tip db) "catalog SQL state differs from signed agreement"
  let total ← safeCount (toString db.objects.length)
  let epoch := toString (reorgEpoch db)
  let _ ← safeCount epoch
  let snapshotHash := (platform.digest verification epoch total).text
  ensure (∀ c ∈ cursor, c.snapshot = .text snapshotHash ∧ c.offset < total) "catalog snapshot changed; restart pagination"
  let rows := (selectObjects db cursor).take (limit + 1)
  let offset := (cursor.map CatalogCursor.offset).getD 0
  let hasMore := decide (limit < rows.length)
  let items := (rows.take limit).map (itemOf verification)
  ensure (offset + items.length ≤ total ∧ hasMore = decide (offset + items.length < total) ∧
    someMisplaced verification.height none (items.map Item.row) = false) "catalog page is inconsistent"
  pure ⟨"tandem-verified-catalog-v1", "complete-canonical-object-membership", snapshotHash, epoch,
    toString db.objects.length, offset, limit, items, hasMore⟩

/-- The data of a response. -/
structure PageData extends Page where
  nextCursor : Option String
  deriving DecidableEq

/-- The cursor of the next page. -/
def nextOf (limit : ℕ) (page : Page) : Option CatalogCursor :=
  if page.hasMore then
    page.items.getLast?.map fun last =>
      ⟨.text page.snapshotHash, limit, last.row.createHeight, .text last.row.objectKey.text,
        page.offset + page.items.length⟩
  else none

/-- A request, the moments at which it reads the store, and what else it meets. -/
structure Turn where
  /-- `authorization`. -/
  authorization : Argument
  /-- `rawLimit`. -/
  rawLimit : Argument
  /-- The requests that are worked on. -/
  inFlight : ℤ
  /-- The first resolution. -/
  before : Moments
  /-- What it meets. -/
  first : Circumstances
  /-- The snapshot of the transaction. -/
  snapshot : ℕ
  /-- `this.rpc.getBlockHash(height)`. -/
  getBlockHash : ℕ → Except String String
  /-- The second resolution. -/
  after : Moments
  /-- What it meets. -/
  second : Circumstances

/-- One statement comes after the other. -/
structure Turn.InOrder (turn : Turn) : Prop where
  /-- The page is read after the first resolution, -/
  before : turn.before.tip ≤ turn.before.checkpoint ∧ turn.before.checkpoint ≤ turn.before.signed ∧
    turn.before.signed ≤ turn.snapshot
  /-- and before the second. -/
  after : turn.snapshot ≤ turn.after.tip ∧ turn.after.tip ≤ turn.after.checkpoint ∧
    turn.after.checkpoint ≤ turn.after.signed

/-- The service. -/
structure Service where
  /-- The platform. -/
  platform : Platform
  /-- The gateway. -/
  gateway : GatewayConfiguration
  /-- The configuration of the catalog. -/
  catalog : Option CatalogConfiguration

/-- `page(authorization, rawLimit, rawCursor)`, beside the commits of the sync service. -/
def page (service : Service) (store : ℕ → Db) (turn : Turn) (rawCursor : Argument) :
    Except String (VerifiedResponse PageData) := do
  let catalog ← orError "catalog is not configured" service.catalog
  let granted ← admission (some catalog) (catalogCursor service.platform.toCursorPlatform) turn.inFlight
    turn.authorization turn.rawLimit rawCursor
  executeBound (resolveAt service.gateway store turn.before turn.first)
    (fun verification => do
      let page ← readSnapshot service.platform verification granted.1 granted.2 (store turn.snapshot)
      let canonical ← turn.getBlockHash verification.height
      ensure (canonical = verification.blockHash) "catalog checkpoint is not canonical"
      pure ⟨page, (nextOf granted.1 page).map (issue service.platform.toCursorPlatform catalog.cursorSecret)⟩)
    (resolveAt service.gateway store turn.after turn.second)

/-! ### One page -/

theorem nodup_keys {kept : Kept} (h : Sound packages binding kept) : (kept.2.objects.map ObjectRow.objectKey).Nodup := by
  obtain ⟨⟨index, replay, htab⟩, -⟩ := h
  obtain ⟨j, hj⟩ : ∃ j, kept.2 = withReorgs j index.db := ⟨_, tables_eq_iff.mp htab⟩
  rw [hj]
  exact replay.mirrors.nodup

theorem nodup_ranks {rows : List ObjectRow} (h : (rows.map ObjectRow.objectKey).Nodup) : (rows.map rank).Nodup := by
  refine List.Nodup.of_map (fun place => (ofLex place).2) ?_
  rw [List.map_map]
  have htexts := h.map Hash.text_injective
  rwa [List.map_map] at htexts

/-- The condition of the query is the order of the list. -/
theorem isAfter_iff (cursor : CatalogCursor) (row : ObjectRow) : isAfter cursor row = true ↔
    toLex (OrderDual.toDual cursor.height, cursor.key.written) < rank row := by
  unfold isAfter rank
  rw [Prod.Lex.toLex_lt_toLex]
  simp only [Bool.or_eq_true, Bool.and_eq_true, decide_eq_true_eq, OrderDual.toDual_lt_toDual]
  constructor
  · rintro (h | ⟨h, h'⟩)
    · exact .inl h
    · exact .inr ⟨congrArg OrderDual.toDual h.symm, h'⟩
  · rintro (h | ⟨h, h'⟩)
    · exact .inl h
    · exact .inr ⟨(OrderDual.toDual_inj.mp h).symm, h'⟩

/-- The place that a cursor names. -/
def place (cursor : CatalogCursor) : ℕᵒᵈ ×ₗ String := toLex (OrderDual.toDual cursor.height, cursor.key.written)

/-- The objects of a store, in the order of the catalog. -/
def listed (db : Db) : List ObjectRow := orderBy rank db.objects

/-- The query selects the objects that follow the cursor's place. -/
theorem selectObjects_eq {db : Db} (apart : (db.objects.map rank).Nodup) (cursor : Option CatalogCursor) :
    selectObjects db cursor = following rank (cursor.map place) (listed db) := by
  unfold selectObjects following listed
  rw [← orderBy_filter _ apart]
  congr 2
  funext row
  cases cursor with
  | none => rfl
  | some cursor =>
    rw [Option.all_some, Option.map_some, Option.all_some, Bool.eq_iff_iff, isAfter_iff, decide_eq_true_eq]
    rfl

theorem safeCount_toString {n m : ℕ} (h : safeCount (toString n) = .ok m) : m = n ∧ n ≤ Agreement.MAX_SAFE_INTEGER := by
  have hread : decimal (toString n) = n := decimal_toDigits n
  obtain ⟨_, hform, h⟩ := bind_eq_ok.mp h
  obtain rfl := pure_eq_ok.mp h
  rw [hread]
  exact ⟨rfl, hread ▸ (ensure_eq_ok.mp hform).2⟩

/-- The objects that are not misplaced have heights that are safe integers. -/
theorem safe_of_placed {height : ℕ} {previous : Option ObjectRow} {rows : List ObjectRow}
    (h : someMisplaced height previous rows = false) : ∀ row ∈ rows, row.createHeight ≤ Agreement.MAX_SAFE_INTEGER := by
  induction rows generalizing previous with
  | nil => exact fun _ hrow => absurd hrow List.not_mem_nil
  | cons first rows ih =>
    rw [someMisplaced, Bool.or_eq_false_iff] at h
    intro row hrow
    rcases List.mem_cons.mp hrow with rfl | hrow
    · have hplaced := h.1
      simp only [misplaced, Bool.or_eq_false_iff, Bool.not_eq_false', decide_eq_true_eq] at hplaced
      exact hplaced.1.1.2
    · exact ih h.2 row hrow

/-- The items that follow a cursor. -/
def found (db : Db) (cursor : Option CatalogCursor) : List ObjectRow := following rank (cursor.map place) (listed db)

/-- What is known of a page that is returned. -/
structure Returned (platform : Platform) (verification : VerificationMetadata) (limit : ℕ) (cursor : Option CatalogCursor)
    (db : Db) (page : Page) : Prop where
  /-- The agreement is that of the store's tip and counters. -/
  agreed : ∃ tip, tipRow db = some tip ∧ SameState verification tip db
  /-- The objects can be counted. -/
  safe : db.objects.length ≤ Agreement.MAX_SAFE_INTEGER
  /-- The snapshot. -/
  snapshot : page.snapshotHash =
    (platform.digest verification (toString (reorgEpoch db)) db.objects.length).text
  /-- The cursor is of it. -/
  same : ∀ c ∈ cursor, c.snapshot = .text page.snapshotHash
  /-- The items are those that follow. -/
  items : page.items = (sliceOf rank limit (found db cursor)).items.map (itemOf verification)
  /-- There are more when it says so. -/
  hasMore : page.hasMore = (sliceOf rank limit (found db cursor)).next.isSome
  /-- The number of items before. -/
  offset : page.offset = (cursor.map CatalogCursor.offset).getD 0
  /-- The page size. -/
  limit : page.limit = limit
  /-- There are no more than all. -/
  bounded : page.offset + page.items.length ≤ db.objects.length
  /-- Their heights are safe integers. -/
  heights : ∀ item ∈ page.items, item.row.createHeight ≤ Agreement.MAX_SAFE_INTEGER
  /-- All objects. -/
  total : page.totalAtomic = toString db.objects.length
  /-- The number of the last reorganization. -/
  epoch : page.reorgEpoch = toString (reorgEpoch db)

/-- One row more than the page size is enough to see whether there are more. -/
theorem sliceOf_take {limit : ℕ} (positive : 0 < limit) (rows : List ObjectRow) :
    (rows.take (limit + 1)).take limit = (sliceOf rank limit rows).items ∧
      decide (limit < (rows.take (limit + 1)).length) = (sliceOf rank limit rows).next.isSome := by
  have hmore : limit < (rows.take (limit + 1)).length ↔ limit < rows.length := by
    rw [List.length_take]
    omega
  refine ⟨by rw [List.take_take, Nat.min_eq_left (by omega)]; rfl, ?_⟩
  unfold sliceOf
  by_cases h : limit < rows.length
  · have hne : rows.take limit ≠ [] := by
      intro hnil
      have hzero := congrArg List.length hnil
      rw [List.length_take, List.length_nil] at hzero
      omega
    simpa [if_pos h, List.getLast?_eq_some_getLast hne] using h
  · simpa [if_neg h] using Nat.not_lt.mp h

theorem readSnapshot_ok {platform : Platform} {verification : VerificationMetadata} {limit : ℕ}
    {cursor : Option CatalogCursor} {db : Db} {page : Page} (positive : 0 < limit) (apart : (db.objects.map rank).Nodup)
    (h : readSnapshot platform verification limit cursor db = .ok page) :
    Returned platform verification limit cursor db page := by
  obtain ⟨tip, htip, h⟩ := bind_eq_ok.mp h
  obtain ⟨_, hsame, h⟩ := bind_eq_ok.mp h
  obtain ⟨total, htotal, h⟩ := bind_eq_ok.mp h
  obtain ⟨_, -, h⟩ := bind_eq_ok.mp h
  obtain ⟨_, hcursor, h⟩ := bind_eq_ok.mp h
  obtain ⟨_, hconsistent, h⟩ := bind_eq_ok.mp h
  obtain rfl := pure_eq_ok.mp h
  obtain ⟨rfl, hsafe⟩ := safeCount_toString htotal
  obtain ⟨hbounded, -, hplaced⟩ := ensure_eq_ok.mp hconsistent
  have hselect : selectObjects db cursor = found db cursor := selectObjects_eq apart cursor
  obtain ⟨hitems, hmore⟩ := sliceOf_take positive (found db cursor)
  refine ⟨⟨tip, orError_eq_ok.mp htip, ensure_eq_ok.mp hsame⟩, hsafe, rfl, fun c hc => (ensure_eq_ok.mp hcursor c hc).1, ?_, ?_,
    rfl, rfl, hbounded, fun item hitem => ?_, rfl, rfl⟩
  · rw [hselect, hitems]
  · rw [hselect, hmore]
  · exact safe_of_placed hplaced _ (List.mem_map_of_mem hitem)

section

variable {platform : Platform} {verification : VerificationMetadata} {limit : ℕ} {cursor : Option CatalogCursor} {db : Db}
  {page : Page} (returned : Returned platform verification limit cursor db page)

include returned

/-- The cursor of the next page names the place of the last item, and can be issued. -/
theorem Returned.next {next : CatalogCursor} (small : limit ≤ 200) (h : nextOf limit page = some next) :
    (sliceOf rank limit (found db cursor)).next = some (place next) ∧ next.Issuable ∧ next.limit = limit ∧
      next.snapshot = .text page.snapshotHash ∧ next.offset = page.offset + page.items.length := by
  unfold nextOf at h
  split_ifs at h with hmore
  obtain ⟨last, hlast, rfl⟩ := Option.map_eq_some_iff.mp h
  have hmem : last ∈ page.items := List.mem_of_getLast? hlast
  have hnext : (sliceOf rank limit (found db cursor)).next = some (rank last.row) := by
    rw [returned.hasMore] at hmore
    rw [returned.items, List.getLast?_map] at hlast
    obtain ⟨row, hrow, rfl⟩ := Option.map_eq_some_iff.mp hlast
    unfold sliceOf at hmore hrow ⊢
    dsimp only at hmore hrow ⊢
    split_ifs at hmore ⊢
    · rw [hrow]
      rfl
    · cases hmore
  have hbounded := returned.bounded
  have hsafe := returned.safe
  have hone : 1 ≤ page.items.length := List.length_pos_of_mem hmem
  have hsmall : 200 ≤ Agreement.MAX_SAFE_INTEGER := by decide
  have hhex : isHex 32 page.snapshotHash = true := by
    rw [returned.snapshot]
    exact isHex_text _
  refine ⟨hnext, ⟨⟨_, rfl, hhex⟩, ⟨_, rfl, isHex_text _⟩, small.trans hsmall, returned.heights last hmem, ?_, ?_⟩, rfl, rfl, rfl⟩
  · exact hbounded.trans hsafe
  · exact hone.trans (Nat.le_add_left _ _)

theorem Returned.goesOn : (nextOf limit page).isSome = page.hasMore := by
  unfold nextOf
  by_cases hmore : page.hasMore = true
  · rw [if_pos hmore, hmore]
    rw [returned.hasMore] at hmore
    rw [returned.items, List.getLast?_map]
    unfold sliceOf at hmore ⊢
    dsimp only at hmore ⊢
    split_ifs at hmore
    · simpa using hmore
    · cases hmore
  · rw [if_neg hmore]
    simpa using hmore

end

end IndexTandem.Api.Catalog
