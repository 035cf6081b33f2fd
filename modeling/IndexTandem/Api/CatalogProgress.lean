import IndexTandem.Api.Catalog
import IndexTandem.Indexer.Chronicle

/-!
# The catalog can be read to its end

The checks of a page compare the store with the agreement, the counters with the offset, and the rows with each other.
In a store whose tip has the agreed checkpoint they all go through (`readSnapshot_eq`): the counters signed are those
of the rows, and the rows that follow a cursor are as many as are left. So a client that passes every cursor on gets
every object (`catalog_readable`).
-/

namespace IndexTandem.Api.Catalog

open Library Protocol Database Indexer Agreement Verification

variable {packages : Packages} {binding : Binding}

/-! ### The tip and its checkpoint -/

/-- The checkpoint is that of the block. -/
structure CheckpointOf (row : CheckpointRow) (tip : BlockRow) : Prop where
  /-- Their heights, -/
  height : tip.height = row.height
  /-- hashes -/
  hash : tip.hash = row.blockHash
  /-- and roots are the same. -/
  roots : tip.eventRoot = row.eventRoot ∧ tip.objectStateRoot = row.objectStateRoot ∧ tip.chainedRoot = row.chainedRoot

theorem mem_of_foldl_higher {rows : List BlockRow} {best : Option BlockRow} {row : BlockRow}
    (h : rows.foldl higher best = some row) : row ∈ rows ∨ best = some row := by
  induction rows generalizing best with
  | nil => exact .inr h
  | cons first rows ih =>
    rcases ih h with hmem | hbest
    · exact .inl (List.mem_cons_of_mem _ hmem)
    · cases best with
      | none => exact .inl (Option.some.inj hbest ▸ List.mem_cons_self)
      | some other =>
        unfold higher at hbest
        dsimp only at hbest
        split_ifs at hbest
        · exact .inl (Option.some.inj hbest ▸ List.mem_cons_self)
        · exact .inr hbest

theorem mem_of_tipRow {db : Db} {row : BlockRow} (h : tipRow db = some row) : row ∈ db.blocks :=
  (mem_of_foldl_higher h).resolve_right (by simp)

/-- **The checkpoint at the height of the tip** is the tip's, and no block is above it. -/
theorem tip_checkpointOf {chain : List BitcoinBlock} {index : Index} (contract : ValidatorContract packages.validate)
    (replay : Replay packages binding chain index) (d : Distinct packages binding chain) {row : CheckpointRow}
    (hrow : row ∈ index.db.checkpoints) (attip : (canonicalTip index.db).map CanonicalTip.height = some row.height) :
    ∃ tip, tipRow index.db = some tip ∧ CheckpointOf row tip ∧ ∀ height ∈ Indexer.heights index.db, height ≤ row.height := by
  cases replay with
  | empty => cases hrow
  | @connect chain index block reduced db replay follows reduces writes =>
    obtain ⟨rfl, -⟩ := writeBlock_ok writes
    obtain ⟨_, -, hheight, -⟩ := reduceBlock_steps reduces
    have hbelow : ∀ height ∈ Indexer.heights index.db, height < reduced.height := fun height hh =>
      hheight ▸ (replay.sourced contract d.tail).below replay follows hh
    have htip : tipRow (written reduced index.db) = some (blockRow reduced) :=
      tipRow_written fun other hother => hbelow _ (List.mem_map_of_mem (mem_of_tipRow hother))
    have hat : reduced.height = row.height := by
      simpa [canonicalTip, Index.next, Cursor.after, htip, blockRow] using attip
    rcases List.mem_append.mp hrow with hrow | hrow
    · exact absurd (hbelow _ (replay.mirrors.stamped.checkpoints row hrow)) (hat ▸ lt_irrefl _)
    · obtain rfl := List.mem_singleton.mp hrow
      refine ⟨_, htip, ⟨rfl, rfl, rfl, rfl, rfl⟩, fun height hh => ?_⟩
      have hh' : height ∈ Indexer.heights index.db ++ [reduced.height] := by rwa [← heights_written]
      rcases List.mem_append.mp hh' with hh' | hh'
      · exact (hbelow height hh').le
      · exact (List.mem_singleton.mp hh').le

/-! ### The rows are placed -/

theorem placed {height : ℕ} (safe : height ≤ Agreement.MAX_SAFE_INTEGER) {rows : List ObjectRow}
    (sorted : rows.Pairwise fun row later => rank row < rank later) (low : ∀ row ∈ rows, row.createHeight ≤ height)
    {previous : Option ObjectRow} (after : ∀ p ∈ previous, ∀ row ∈ rows, rank p < rank row) :
    someMisplaced height previous rows = false := by
  induction rows generalizing previous with
  | nil => rfl
  | cons row rows ih =>
    obtain ⟨hfirst, hsorted⟩ := List.pairwise_cons.mp sorted
    have hlow := low row List.mem_cons_self
    have hordered : (previous.any fun previous => row.createHeight > previous.createHeight ||
        row.createHeight = previous.createHeight && row.objectKey.text ≤ previous.objectKey.text) = false := by
      cases previous with
      | none => rfl
      | some p =>
        have hlt := after p rfl row List.mem_cons_self
        rw [rank, rank, Prod.Lex.toLex_lt_toLex] at hlt
        simp only [Option.any_some, Bool.or_eq_false_iff, Bool.and_eq_false_imp, decide_eq_false_iff_not,
          decide_eq_true_eq, not_lt, not_le]
        rcases hlt with hlt | ⟨heq, hlt⟩
        · have hlt' : row.createHeight < p.createHeight := hlt
          exact ⟨hlt'.le, fun he => absurd he hlt'.ne⟩
        · have heq' : p.createHeight = row.createHeight := OrderDual.toDual_inj.mp heq
          exact ⟨heq'.ge, fun _ => hlt⟩
    rw [someMisplaced, ih hsorted (fun r hr => low r (List.mem_cons_of_mem _ hr)) fun p hp r hr =>
      Option.some.inj hp ▸ hfirst r hr, Bool.or_false, misplaced, hordered, isHex_text, isHex_text,
      decide_eq_true (hlow.trans safe)]
    simpa using hlow

/-! ### A page -/

/-- A store that can be read page by page. -/
structure Readable (verification : VerificationMetadata) (db : Db) : Prop where
  /-- It has the state of the agreement. -/
  agreed : ∃ tip, tipRow db = some tip ∧ SameState verification tip db
  /-- Every object has one row. -/
  apart : (db.objects.map rank).Nodup
  /-- No object is above the agreed height. -/
  low : ∀ row ∈ db.objects, row.createHeight ≤ verification.height
  /-- Heights are safe integers. -/
  safe : verification.height ≤ Agreement.MAX_SAFE_INTEGER
  /-- So is the number of objects, -/
  few : db.objects.length ≤ Agreement.MAX_SAFE_INTEGER
  /-- and that of the last reorganization. -/
  epochs : reorgEpoch db ≤ Agreement.MAX_SAFE_INTEGER

/-- A cursor that was issued for the store. -/
structure Continues (platform : Platform) (verification : VerificationMetadata) (db : Db) (before : List ObjectRow)
    (cursor : Option CatalogCursor) : Prop where
  /-- The objects before its place are those that were returned. -/
  split : listed db = before ++ found db cursor
  /-- It counts them. -/
  offset : (cursor.map CatalogCursor.offset).getD 0 = before.length
  /-- It names the snapshot, and there are more. -/
  names : ∀ c ∈ cursor,
    c.snapshot = .text (platform.digest verification (toString (reorgEpoch db)) db.objects.length).text ∧
      found db cursor ≠ []

theorem safeCount_of_safe {n : ℕ} (h : n ≤ Agreement.MAX_SAFE_INTEGER) : safeCount (toString n) = .ok n := by
  have hread : decimal (toString n) = n := decimal_toDigits n
  have hcounter : isCounter (toString n) = true := isCounter_toDigits n
  refine bind_eq_ok.mpr ⟨(), ensure_eq_ok.mpr ⟨hcounter, hread.trans_le h⟩, ?_⟩
  rw [hread]
  rfl

/-- **The checks of a page go through.** -/
theorem readSnapshot_eq {platform : Platform} {verification : VerificationMetadata} {db : Db}
    (readable : Readable verification db) {before : List ObjectRow} {cursor : Option CatalogCursor}
    (continues : Continues platform verification db before cursor) (limit : ℕ) :
    ∃ page, readSnapshot platform verification limit cursor db = .ok page := by
  obtain ⟨tip, htip, hsame⟩ := readable.agreed
  have hselect : selectObjects db cursor = found db cursor := selectObjects_eq readable.apart cursor
  have hlength := congrArg List.length continues.split
  rw [List.length_append, listed, orderBy_perm.length_eq] at hlength
  have hsorted : ((found db cursor).take limit).Pairwise fun row later => rank row < rank later :=
    ((orderBy_sorted readable.apart).filter _).sublist (List.take_sublist _ _)
  have hlow : ∀ row ∈ (found db cursor).take limit, row.createHeight ≤ verification.height := fun row hrow =>
    readable.low row (orderBy_perm.mem_iff.mp (List.mem_filter.mp (List.mem_of_mem_take hrow)).1)
  have htake : ((found db cursor).take (limit + 1)).take limit = (found db cursor).take limit := by
    rw [List.take_take, Nat.min_eq_left (by omega)]
  have hrows : (((found db cursor).take limit).map (itemOf verification)).map Item.row = (found db cursor).take limit := by
    rw [List.map_map]
    exact List.map_id _
  refine ⟨_, bind_eq_ok.mpr ⟨tip, orError_eq_ok.mpr htip, bind_eq_ok.mpr ⟨(), ensure_eq_ok.mpr hsame, bind_eq_ok.mpr
    ⟨_, safeCount_of_safe readable.few, bind_eq_ok.mpr ⟨_, safeCount_of_safe readable.epochs, bind_eq_ok.mpr
    ⟨(), ensure_eq_ok.mpr fun c hc => ?_, bind_eq_ok.mpr ⟨(), ensure_eq_ok.mpr ?_, rfl⟩⟩⟩⟩⟩⟩⟩
  · obtain ⟨hname, hmore⟩ := continues.names c hc
    have hoffset := continues.offset
    rw [hc] at hoffset
    have hpositive := List.length_pos_iff.mpr hmore
    refine ⟨hname, ?_⟩
    have : c.offset = before.length := hoffset
    omega
  · rw [hselect, htake, continues.offset, hrows]
    simp only [List.length_map, List.length_take]
    refine ⟨by omega, ?_, placed readable.safe hsorted hlow fun p hp => by cases hp⟩
    rw [decide_eq_decide]
    omega

/-! ### The whole catalog -/

/-- The pages of a store, up to the last one. -/
inductive Pages (platform : Platform) (verification : VerificationMetadata) (limit : ℕ) (db : Db) :
    Option CatalogCursor → List Page → Prop
  /-- The last page. -/
  | last {cursor : Option CatalogCursor} {page : Page}
    (reads : readSnapshot platform verification limit cursor db = .ok page) (done : page.hasMore = false) :
    Pages platform verification limit db cursor [page]
  /-- A page with a next one. -/
  | more {cursor : Option CatalogCursor} {page : Page} {next : CatalogCursor} {pages : List Page}
    (reads : readSnapshot platform verification limit cursor db = .ok page) (goesOn : nextOf limit page = some next)
    (rest : Pages platform verification limit db (some next) pages) :
    Pages platform verification limit db cursor (page :: pages)

theorem Pages.length_le {platform : Platform} {verification : VerificationMetadata} {limit : ℕ} {db : Db}
    {cursor : Option CatalogCursor} {pages : List Page} (h : Pages platform verification limit db cursor pages) :
    (pages.flatMap Page.items).length ≤ limit * pages.length := by
  have hsize : ∀ {cursor : Option CatalogCursor} {page : Page},
      readSnapshot platform verification limit cursor db = .ok page → page.items.length ≤ limit := by
    intro cursor page reads
    obtain ⟨_, -, reads⟩ := bind_eq_ok.mp reads
    obtain ⟨_, -, reads⟩ := bind_eq_ok.mp reads
    obtain ⟨_, -, reads⟩ := bind_eq_ok.mp reads
    obtain ⟨_, -, reads⟩ := bind_eq_ok.mp reads
    obtain ⟨_, -, reads⟩ := bind_eq_ok.mp reads
    obtain ⟨_, -, reads⟩ := bind_eq_ok.mp reads
    obtain rfl := pure_eq_ok.mp reads
    rw [List.length_map]
    exact List.length_take_le _ _
  induction h with
  | last reads => simpa using hsize reads
  | more reads _ _ ih =>
    rw [List.flatMap_cons, List.length_append, List.length_cons, Nat.mul_succ]
    have := hsize reads
    omega

/-- The next cursor continues. -/
theorem Returned.continues {platform : Platform} {verification : VerificationMetadata} {limit : ℕ}
    {cursor : Option CatalogCursor} {db : Db} {page : Page} (returned : Returned platform verification limit cursor db page)
    (readable : Readable verification db) {before : List ObjectRow}
    (continues : Continues platform verification db before cursor) (positive : 0 < limit) (small : limit ≤ 200)
    {next : CatalogCursor} (goesOn : nextOf limit page = some next) :
    ∃ items, items ≠ [] ∧ found db cursor = items ++ found db (some next) ∧ page.items = items.map (itemOf verification) ∧
      Continues platform verification db (before ++ items) (some next) := by
  obtain ⟨hnext, -, -, hsnapshot, hoffset⟩ := returned.next small goesOn
  obtain ⟨hsplit, hitems, hmore, -⟩ := following_next positive (orderBy_sorted readable.apart) hnext
  have hleft : found db cursor = (sliceOf rank limit (found db cursor)).items ++ found db (some next) := hsplit
  refine ⟨(sliceOf rank limit (found db cursor)).items, hitems, hleft, returned.items, ?_, ?_, fun c hc => ?_⟩
  · rw [List.append_assoc, ← hleft]
    exact continues.split
  · have hbase : ((some next).map CatalogCursor.offset).getD 0 = next.offset := rfl
    rw [hbase, hoffset, returned.offset, continues.offset, returned.items, List.length_map, List.length_append]
  · obtain rfl := Option.some.inj hc
    rw [hsnapshot]
    exact ⟨congrArg _ returned.snapshot, hmore⟩

/-- A page without a next one has what is left. -/
theorem Returned.rest {platform : Platform} {verification : VerificationMetadata} {limit : ℕ}
    {cursor : Option CatalogCursor} {db : Db} {page : Page} (returned : Returned platform verification limit cursor db page)
    (positive : 0 < limit) (done : page.hasMore = false) : page.items = (found db cursor).map (itemOf verification) := by
  rw [returned.hasMore, Option.isSome_eq_false_iff, Option.isNone_iff_eq_none] at done
  rw [returned.items, sliceOf_last rank positive done]

theorem Continues.pages {platform : Platform} {verification : VerificationMetadata} {db : Db}
    (readable : Readable verification db) {limit : ℕ} (positive : 0 < limit) (small : limit ≤ 200)
    {before : List ObjectRow} {cursor : Option CatalogCursor} (continues : Continues platform verification db before cursor) :
    ∃ pages, Pages platform verification limit db cursor pages ∧
      pages.flatMap Page.items = (found db cursor).map (itemOf verification) := by
  induction hn : (found db cursor).length using Nat.strong_induction_on generalizing before cursor with
  | _ n ih =>
    obtain ⟨page, hpage⟩ := readSnapshot_eq readable continues limit
    have returned := readSnapshot_ok positive readable.apart hpage
    cases hnext : nextOf limit page with
    | none =>
      have hmore := returned.goesOn
      rw [hnext] at hmore
      refine ⟨_, .last hpage hmore.symm, ?_⟩
      rw [List.flatMap_singleton, returned.rest positive hmore.symm]
    | some next =>
      obtain ⟨items, hne, hsplit, hitems, hcontinues⟩ := returned.continues readable continues positive small hnext
      have hshorter := congrArg List.length hsplit
      rw [List.length_append] at hshorter
      have hpositive := List.length_pos_iff.mpr hne
      obtain ⟨pages, hpages, hall⟩ := ih _ (by omega) hcontinues rfl
      refine ⟨_, .more hpage hnext hpages, ?_⟩
      rw [List.flatMap_cons, hall, hitems, hsplit, List.map_append]

/-- All objects are listed. -/
theorem Readable.pages {verification : VerificationMetadata} {db : Db} (readable : Readable verification db)
    (platform : Platform) {limit : ℕ} (positive : 0 < limit) (small : limit ≤ 200) :
    ∃ pages, Pages platform verification limit db none pages ∧
      pages.flatMap Page.items = (listed db).map (itemOf verification) := by
  have hall : found db none = listed db := following_none
  have continues : Continues platform verification db [] none := ⟨hall.symm, rfl, fun c hc => by cases hc⟩
  exact hall ▸ continues.pages readable positive small

/-! ### Every store -/

/-- **A store with the agreed checkpoint can be read**: the agreement has the state of its tip and its counters. -/
theorem readable_of_agreed (contract : ValidatorContract packages.validate) {history : History} {db : Db}
    (stored : Stored packages binding history db) (d : Distinct packages binding history.blocks)
    (once : SpendsOnce history.blocks) {verification : VerificationMetadata} (agreed : AgreedState verification db)
    (safe : verification.height ≤ Agreement.MAX_SAFE_INTEGER) (few : db.objects.length ≤ Agreement.MAX_SAFE_INTEGER)
    (epochs : reorgEpoch db ≤ Agreement.MAX_SAFE_INTEGER) : Readable verification db := by
  obtain ⟨lives, tells⟩ := stored.lives contract d once
  obtain ⟨index, replay, htab⟩ := stored.recorded.1
  obtain ⟨j, rfl⟩ : ∃ j, db = withReorgs j index.db := ⟨_, tables_eq_iff.mp htab⟩
  obtain ⟨row, hrow, htip, described⟩ := agreed
  obtain ⟨tip, htipRow, checks, hhighest⟩ := tip_checkpointOf contract replay d hrow htip
  have hcounts := (replay.tallied contract d once).tip row hrow fun other hother =>
    hhighest _ (replay.mirrors.stamped.checkpoints other hother)
  have hperm := replay.mirrors.objects_perm
  refine ⟨⟨tip, htipRow, ?_⟩, nodup_ranks replay.mirrors.nodup, fun object ho => ?_, safe, few, epochs⟩
  · have hobjects : (withReorgs j index.db).objects = index.db.objects := rfl
    refine ⟨checks.height.trans described.height.symm, ?_, ?_, ?_, ?_, ?_, ?_, ?_⟩
    · rw [checks.hash, described.blockHash]
    · rw [checks.roots.1, described.eventRoot]
    · rw [checks.roots.2.1, described.objectStateRoot]
    · rw [checks.roots.2.2, described.chainedRoot]
    · rw [described.allObjects, hcounts.1, hobjects, hperm.length_eq, List.length_map]
    · rw [described.foundingCreated, hcounts.2.1, hobjects, hperm.countP_eq, List.countP_map]
      rfl
    · rw [described.activeObjects, hcounts.2.2, hobjects, hperm.countP_eq, List.countP_map]
      rfl
  · obtain ⟨life, hl, rfl⟩ := List.mem_map.mp (tells.objects.mem_iff.mp ho)
    obtain ⟨first, hfirst, -, hcreated⟩ := life.linked.first
    have hstate : first ∈ index.db.states := by
      have hmem := List.mem_of_mem_head? hfirst
      rw [← tells.states life hl] at hmem
      exact (List.mem_filter.mp hmem).1
    rw [← hcreated, described.height]
    exact hhighest _ (replay.mirrors.stamped.created first hstate)

/-- **The catalog of an agreed store can be read to its end**: whatever the page size, every request that passes the
cursor on goes through until there are no more objects, and the pages list every object once and in order. -/
theorem catalog_readable (contract : ValidatorContract packages.validate) {history : History} {db : Db}
    (stored : Stored packages binding history db) (d : Distinct packages binding history.blocks)
    (once : SpendsOnce history.blocks) {verification : VerificationMetadata} (agreed : AgreedState verification db)
    (safe : verification.height ≤ Agreement.MAX_SAFE_INTEGER) (few : db.objects.length ≤ Agreement.MAX_SAFE_INTEGER)
    (epochs : reorgEpoch db ≤ Agreement.MAX_SAFE_INTEGER) (platform : Platform) {limit : ℕ} (positive : 0 < limit)
    (small : limit ≤ 200) :
    ∃ pages, Pages platform verification limit db none pages ∧
      pages.flatMap Page.items = (listed db).map (itemOf verification) ∧ (listed db).Perm db.objects := by
  have readable := readable_of_agreed contract stored d once agreed safe few epochs
  obtain ⟨pages, hpages, hitems⟩ := readable.pages platform positive small
  exact ⟨pages, hpages, hitems, orderBy_perm⟩

/-- A platform whose codes and hashes tell what they are of by its length, its height and its count. -/
def samplePlatform : Platform where
  hmac secret text := sampleHash (UInt8.ofNat (secret.length + text.length))
  spelled _ := none
  digest verification _ total := sampleHash (UInt8.ofNat (verification.height + 2 * total))

/-- An agreement on a checkpoint. -/
def agreementOn (row : CheckpointRow) : VerificationMetadata where
  protocolId := "tndm:main:" ++ (sampleHash 1).text
  network := "mainnet"
  specHash := Hash.zero.text
  height := row.height
  blockHash := row.blockHash.text
  chainedRoot := row.chainedRoot.text
  eventRoot := row.eventRoot.text
  objectStateRoot := row.objectStateRoot.text
  foundingCreated := toString row.foundingCreated
  allObjects := toString row.allObjects
  activeObjects := toString row.activeObjects
  pipelineA := ⟨"a", "", ⟨"", "", "", ""⟩⟩
  pipelineB := ⟨"b", "", ⟨"", "", "", ""⟩⟩

/-- The checkpoint of the newer of two blocks can be agreed on. -/
theorem story_agreed {story : Story} (told : story.Told) : ∃ row, story.db.checkpoints.find? (fun row => row.height = 201) =
    some row ∧ (row.height, row.allObjects, row.activeObjects, row.foundingCreated) = (201, 2, 2, 0) ∧
      AgreedState (agreementOn row) story.db := by
  obtain ⟨first, others, hsplit, hfirst, hothers⟩ := List.map_eq_cons_iff.mp told.checkpoints
  obtain ⟨row, rfl, hrow⟩ := List.map_eq_singleton_iff.mp hothers
  obtain ⟨tip, htip, hheight, -⟩ := told.tip
  have hlow := (Prod.mk.inj hfirst).1
  have hhigh := (Prod.mk.inj hrow).1
  refine ⟨row, by simp [hsplit, hlow, hhigh], hrow, row, ?_, ?_, ⟨rfl, rfl, rfl, rfl, rfl, rfl, rfl, rfl⟩⟩
  · rw [hsplit]
    exact List.mem_cons_of_mem _ List.mem_cons_self
  · rw [canonicalTip, htip, hhigh]
    exact congrArg some hheight

theorem story_counts {story : Story} (told : story.Told) : story.db.objects.length = 2 ∧ reorgEpoch story.db = 0 := by
  refine ⟨by simpa using congrArg List.length told.objects.2, ?_⟩
  rw [reorgEpoch, told.reorgs]
  rfl

/-- The catalog of a store with two objects, one on a page. -/
theorem catalog_readable_sample : ∃ history db verification pages, Stored lifePackages sampleBinding history db ∧
    db.objects.length = 2 ∧ 2 ≤ pages.length ∧ Pages samplePlatform verification 1 db none pages ∧
      pages.flatMap Page.items = (listed db).map (itemOf verification) := by
  obtain ⟨story, ran, told⟩ := Story.exists_told
  obtain ⟨hlength, hepoch⟩ := story_counts told
  obtain ⟨row, -, hrow, agreed⟩ := story_agreed told
  have hsafe : (agreementOn row).height ≤ Agreement.MAX_SAFE_INTEGER := by
    show row.height ≤ _
    rw [(Prod.mk.inj hrow).1]
    decide
  obtain ⟨pages, hpages, hitems, hperm⟩ := catalog_readable (validateTandemTransaction_contract lifeChecks_sound)
    (Story.stored ran).2 story_distinct story_once agreed hsafe (by rw [hlength]; decide) (by rw [hepoch]; decide)
    samplePlatform (show 0 < 1 by decide) (show 1 ≤ 200 by decide)
  have htwo := hpages.length_le
  rw [hitems, List.length_map, hperm.length_eq, hlength, Nat.one_mul] at htwo
  exact ⟨_, story.db, _, pages, (Story.stored ran).2, hlength, htwo, hpages, hitems⟩

end IndexTandem.Api.Catalog
