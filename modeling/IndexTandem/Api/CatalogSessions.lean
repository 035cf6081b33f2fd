import IndexTandem.Api.CatalogProgress

/-!
# The pages of the catalog together

The number of the last reorganization grows with every rollback and the tip with every append (`commit_progress`). So
pages that go on from each other are of one state of the store, whatever is committed beside them (`Chain.steady`), and
together they are its objects, each once and in order (`catalog_pages`).
-/

namespace IndexTandem.Api.Catalog

open Library Protocol Database Indexer Agreement Verification

variable {packages : Packages} {binding : Binding}

/-! ### The number of the last reorganization -/

/-- What no commit takes back: the number of the last reorganization, and the tip under it. -/
def progress (kept : Kept) : ℕ ×ₗ ℕ := toLex (reorgEpoch kept.2, heightAboveTip kept.2)

theorem appendBlocks_reorgs {reduced : List ReducedBlock} {db db' : Db} (h : appendBlocks reduced db = .ok db') :
    db'.reorgs = db.reorgs := by
  induction reduced generalizing db with
  | nil =>
    obtain rfl := pure_eq_ok.mp h
    rfl
  | cons block reduced ih =>
    obtain ⟨d, hd, h⟩ := bind_eq_ok.mp h
    obtain ⟨rfl, -⟩ := writeBlock_ok hd
    rw [ih h]
    rfl

/-- Every number in the journal is at most the last one. -/
theorem reorgEpoch_append (d : Db) (row : ReorgRow) :
    reorgEpoch (withReorgs (d.reorgs ++ [row]) d) = max (reorgEpoch d) row.id := by
  show ((d.reorgs ++ [row]).map ReorgRow.id).foldl max 0 = _
  rw [List.map_append, List.foldl_append]
  rfl

/-- **A commit** leaves the store as it was, or makes progress. -/
theorem commit_progress {kind : Committed} {kept kept' : Kept} (h : Commit packages binding kind kept kept')
    (sound : Sound packages binding kept) : kept' = kept ∨ progress kept < progress kept' := by
  have hkind : kind = .rollback → reorgEpoch kept.2 < reorgEpoch kept'.2 := by
    rintro rfl
    cases h with
    | rollback activated plans rolls =>
      obtain ⟨⟨⟨tip, ht, hheight, -⟩, -⟩, d, hd, -, rfl⟩ := rollback_eq_ok.mp rolls
      obtain ⟨d', hd', hreorgs, -⟩ := sound.1.disconnect activated plans ht hheight
      obtain rfl := Except.ok.inj (hd.symm.trans hd')
      have hsame : reorgEpoch d = reorgEpoch _ := congrArg (fun rows => (rows.map ReorgRow.id).foldl max 0) hreorgs
      rw [reorgEpoch_append, ← hsame]
      exact lt_max_of_lt_right (Nat.lt_succ_self _)
  by_cases hroll : kind = .rollback
  · exact .inr (Prod.Lex.toLex_lt_toLex.mpr (.inl (hkind hroll)))
  · have hepoch : reorgEpoch kept'.2 = reorgEpoch kept.2 := by
      cases h with
      | nothing => rfl
      | append linked listed same reduces appends =>
        exact congrArg (fun rows => (rows.map ReorgRow.id).foldl max 0) (appendBlocks_reorgs appends)
      | rollback => exact absurd rfl hroll
    rcases h.higher sound hroll with same | higher
    · exact .inl same
    · exact .inr (Prod.Lex.toLex_lt_toLex.mpr (.inr ⟨hepoch.symm, higher⟩))

/-- **A store that comes back** with the same last reorganization and the same height of the tip never left. -/
theorem unchanged_of_progress {t : Timeline (Commit packages binding)} (start : t.state 0 = ([], Db.empty))
    {first last : ℕ} (epoch : reorgEpoch (t.state first).2 = reorgEpoch (t.state last).2)
    (tip : heightAboveTip (t.state first).2 = heightAboveTip (t.state last).2) {moment : ℕ} (h : first ≤ moment)
    (h' : moment ≤ last) : t.state moment = t.state first := by
  have grows : t.Grows progress first last := fun i _ _ => commit_progress (t.changes i) (sound_of_start start i)
  have same : progress (t.state first) = progress (t.state last) := by
    unfold progress
    rw [epoch, tip]
  exact grows.steady same h h'

/-! ### Sessions -/

/-- A request of a client and its answer. -/
structure Visit where
  /-- The request. -/
  turn : Turn
  /-- The answer. -/
  response : VerifiedResponse PageData

/-- Requests that follow the cursors: the first with the given one, each other with the one that the request before it
returned. -/
inductive Session (service : Service) (store : ℕ → Db) : Option String → List Visit → Prop
  /-- The last request. -/
  | last {cursor : Option String} {visit : Visit}
    (answers : page service store visit.turn (argument cursor) = .ok visit.response) : Session service store cursor [visit]
  /-- A request whose cursor is passed on. -/
  | more {cursor : Option String} {visit : Visit} {next : String} {visits : List Visit}
    (answers : page service store visit.turn (argument cursor) = .ok visit.response)
    (goesOn : visit.response.data.nextCursor = some next) (rest : Session service store (some next) visits) :
    Session service store cursor (visit :: visits)

theorem Session.ne_nil {service : Service} {store : ℕ → Db} {cursor : Option String} {visits : List Visit}
    (session : Session service store cursor visits) : visits ≠ [] := by
  cases session <;> exact List.cons_ne_nil _ _

theorem limitOf_some {rawLimit : Argument} {limit : ℕ} (h : limitOf rawLimit = some limit) : 0 < limit ∧ limit ≤ 200 := by
  cases rawLimit with
  | missing =>
    obtain rfl := Option.some.inj h
    decide
  | other => cases h
  | text text =>
    rw [limitOf] at h
    split_ifs at h with hform
    obtain rfl := Option.some.inj h
    simp only [isLimit, Bool.and_eq_true, decide_eq_true_eq, ne_eq] at hform
    obtain ⟨⟨⟨hcounter, hzero⟩, -⟩, hsmall⟩ := hform
    refine ⟨decimal_pos ?_, hsmall⟩
    rw [isCounter, Bool.or_eq_true, Bool.and_eq_true] at hcounter
    rcases hcounter with hcounter | hcounter
    · have htext : text = "0" := String.toList_injective ((of_decide_eq_true hcounter).trans (by decide))
      exact absurd htext hzero
    · exact hcounter.1

/-- The page of a visit. -/
structure Reads (service : Service) (secret : String) (store : ℕ → Db) (limit : ℕ) (cursor : Option CatalogCursor)
    (visit : Visit) (page : Page) : Prop where
  /-- It is of the store at its snapshot. -/
  returned : Returned service.platform visit.response.verification limit cursor (store visit.turn.snapshot) page
  /-- The data are the page with the next cursor. -/
  data : visit.response.data =
    ⟨page, (nextOf limit page).map (issue service.platform.toCursorPlatform secret)⟩

theorem page_ok {service : Service} {store : ℕ → Db} (apart : ∀ moment, ((store moment).objects.map rank).Nodup)
    {visit : Visit} {rawCursor : Argument} (h : page service store visit.turn rawCursor = .ok visit.response) :
    ∃ catalog limit cursor page, service.catalog = some catalog ∧ 0 < limit ∧ limit ≤ 200 ∧
      catalogCursor service.platform.toCursorPlatform rawCursor catalog.cursorSecret limit = .ok cursor ∧
      Reads service catalog.cursorSecret store limit cursor visit page := by
  obtain ⟨catalog, hcatalog, h⟩ := bind_eq_ok.mp h
  obtain ⟨⟨limit, cursor⟩, hgranted, h⟩ := bind_eq_ok.mp h
  obtain ⟨_, hsome, hgranted⟩ := bind_eq_ok.mp hgranted
  obtain rfl := Except.ok.inj hsome
  obtain ⟨_, -, hgranted⟩ := bind_eq_ok.mp hgranted
  obtain ⟨_, hlimit, hgranted⟩ := bind_eq_ok.mp hgranted
  obtain ⟨_, hcursor, hgranted⟩ := bind_eq_ok.mp hgranted
  obtain ⟨_, -, hgranted⟩ := bind_eq_ok.mp hgranted
  obtain ⟨rfl, rfl⟩ := Prod.mk.inj (pure_eq_ok.mp hgranted)
  obtain ⟨hpositive, hsmall⟩ := limitOf_some (orError_eq_ok.mp hlimit)
  obtain ⟨-, -, hread⟩ := executeBound_ok h
  obtain ⟨page, hpage, hread⟩ := bind_eq_ok.mp hread
  obtain ⟨_, -, hread⟩ := bind_eq_ok.mp hread
  obtain ⟨_, -, hread⟩ := bind_eq_ok.mp hread
  exact ⟨catalog, _, _, page, orError_eq_ok.mp hcatalog, hpositive, hsmall, hcursor,
    readSnapshot_ok hpositive (apart _) hpage, (pure_eq_ok.mp hread).symm⟩

/-- **When a request is answered**: it is admitted, both resolutions give one agreement, the page is read and the block
is the node's. -/
theorem page_eq_ok {service : Service} {store : ℕ → Db} {turn : Turn} {rawCursor : Argument}
    {catalog : CatalogConfiguration} {limit : ℕ} {cursor : Option CatalogCursor} {verification : VerificationMetadata}
    {page : Page} (configured : service.catalog = some catalog)
    (admitted : admission (some catalog) (catalogCursor service.platform.toCursorPlatform) turn.inFlight turn.authorization
      turn.rawLimit rawCursor = .ok (limit, cursor))
    (first : resolveAt service.gateway store turn.before turn.first = .ok verification)
    (second : resolveAt service.gateway store turn.after turn.second = .ok verification)
    (reads : readSnapshot service.platform verification limit cursor (store turn.snapshot) = .ok page)
    (canonical : turn.getBlockHash verification.height = .ok verification.blockHash) :
    Catalog.page service store turn rawCursor = .ok ⟨verification,
      ⟨page, (nextOf limit page).map (issue service.platform.toCursorPlatform catalog.cursorSecret)⟩⟩ := by
  refine bind_eq_ok.mpr ⟨catalog, orError_eq_ok.mpr configured, bind_eq_ok.mpr ⟨(limit, cursor), admitted, ?_⟩⟩
  rw [first, second]
  exact bind_eq_ok.mpr ⟨_, bind_eq_ok.mpr ⟨page, reads, bind_eq_ok.mpr ⟨_, canonical, bind_eq_ok.mpr
    ⟨(), ensure_eq_ok.mpr rfl, rfl⟩⟩⟩, if_pos rfl⟩

/-- A session with its cursors read, all of them for one page size. -/
inductive Chain (service : Service) (secret : String) (store : ℕ → Db) (limit : ℕ) :
    Option CatalogCursor → List Visit → Prop
  /-- The last request. -/
  | last {cursor : Option CatalogCursor} {visit : Visit} {page : Page}
    (reads : Reads service secret store limit cursor visit page) : Chain service secret store limit cursor [visit]
  /-- A request whose cursor is passed on. -/
  | more {cursor : Option CatalogCursor} {visit : Visit} {page : Page} {next : CatalogCursor} {visits : List Visit}
    (reads : Reads service secret store limit cursor visit page) (goesOn : nextOf limit page = some next)
    (rest : Chain service secret store limit (some next) visits) :
    Chain service secret store limit cursor (visit :: visits)

section

variable {service : Service} {catalog : CatalogConfiguration} {store : ℕ → Db}

theorem read_argument {limit : ℕ} {cursor read : Option CatalogCursor} (issuable : ∀ c ∈ cursor, c.Issuable)
    (h : catalogCursor service.platform.toCursorPlatform
      (argument (cursor.map (issue service.platform.toCursorPlatform catalog.cursorSecret))) catalog.cursorSecret limit =
        .ok read) : read = cursor ∧ ∀ c ∈ cursor, c.limit = limit := by
  cases cursor with
  | none => exact ⟨(pure_eq_ok.mp h).symm, fun c hc => by cases hc⟩
  | some c =>
    have hread := (issuable c rfl).parseCursor service.platform.toCursorPlatform catalog.cursorSecret limit
    rw [Option.map_some, argument, catalogCursor, hread] at h
    split_ifs at h with hlimit
    · refine ⟨(Except.ok.inj h).symm, fun d hd => ?_⟩
      obtain rfl := Option.some.inj hd
      exact hlimit
    · cases h

/-- **A session is a chain** of pages of one size. -/
theorem Session.chain (configured : service.catalog = some catalog)
    (apart : ∀ moment, ((store moment).objects.map rank).Nodup) {text : Option String} {visits : List Visit}
    (session : Session service store text visits) {cursor : Option CatalogCursor}
    (issued : text = cursor.map (issue service.platform.toCursorPlatform catalog.cursorSecret))
    (issuable : ∀ c ∈ cursor, c.Issuable) :
    ∃ limit, 0 < limit ∧ limit ≤ 200 ∧ (∀ c ∈ cursor, c.limit = limit) ∧
      Chain service catalog.cursorSecret store limit cursor visits := by
  induction session generalizing cursor with
  | last answers =>
    obtain ⟨other, limit, read, page, hother, hpositive, hsmall, hcursor, reads⟩ := page_ok apart answers
    obtain rfl := Option.some.inj (hother.symm.trans configured)
    subst issued
    obtain ⟨rfl, hlimit⟩ := read_argument issuable hcursor
    exact ⟨limit, hpositive, hsmall, hlimit, .last reads⟩
  | more answers goesOn rest ih =>
    obtain ⟨other, limit, read, page, hother, hpositive, hsmall, hcursor, reads⟩ := page_ok apart answers
    obtain rfl := Option.some.inj (hother.symm.trans configured)
    subst issued
    obtain ⟨rfl, hlimit⟩ := read_argument issuable hcursor
    rw [reads.data] at goesOn
    obtain ⟨next, hnext, rfl⟩ := Option.map_eq_some_iff.mp goesOn
    obtain ⟨-, hissuable, hsize, -⟩ := reads.returned.next hsmall hnext
    obtain ⟨limit', -, -, hlimit', chain⟩ := ih (show _ = (some next).map _ from rfl) fun c hc =>
      Option.some.inj hc ▸ hissuable
    obtain rfl : limit' = limit := (hlimit' next rfl).symm.trans hsize
    exact ⟨limit', hpositive, hsmall, hlimit, .more reads hnext chain⟩

/-! ### One state of the store -/

/-- What the hash of a snapshot is of. -/
def fingerprint (store : ℕ → Db) (visit : Visit) : VerificationMetadata × ℕ × ℕ :=
  (visit.response.verification, reorgEpoch (store visit.turn.snapshot), (store visit.turn.snapshot).objects.length)

/-- The hash of the snapshot of a visit. -/
def snapshotOf (platform : Platform) (store : ℕ → Db) (visit : Visit) : Hash :=
  let (verification, epoch, total) := fingerprint store visit
  platform.digest verification (toString epoch) total

/-- The hash tells the snapshots of the visits apart. -/
def Collisionless (platform : Platform) (store : ℕ → Db) (visits : List Visit) : Prop :=
  ∀ visit ∈ visits, ∀ other ∈ visits, snapshotOf platform store visit = snapshotOf platform store other →
    fingerprint store visit = fingerprint store other

variable {secret : String} {limit : ℕ} {cursor : Option CatalogCursor}

theorem Reads.snapshotHash {visit : Visit} {page : Page} (reads : Reads service secret store limit cursor visit page) :
    page.snapshotHash = (snapshotOf service.platform store visit).text := reads.returned.snapshot

/-- The first page is of the snapshot that the cursor names. -/
theorem Chain.head {visits : List Visit} (chain : Chain service secret store limit cursor visits) :
    ∃ visit later, visits = visit :: later ∧
      ∀ c ∈ cursor, c.snapshot = .text (snapshotOf service.platform store visit).text := by
  cases chain with
  | last reads => exact ⟨_, _, rfl, fun c hc => (reads.returned.same c hc).trans (congrArg _ reads.snapshotHash)⟩
  | more reads => exact ⟨_, _, rfl, fun c hc => (reads.returned.same c hc).trans (congrArg _ reads.snapshotHash)⟩

/-- All pages are of one snapshot. -/
theorem Chain.fingerprints {visits : List Visit} (chain : Chain service secret store limit cursor visits)
    (collisionless : Collisionless service.platform store visits) :
    ∀ visit ∈ visits, ∀ other ∈ visits, fingerprint store visit = fingerprint store other := by
  have hall : ∃ mark, ∀ visit ∈ visits, fingerprint store visit = mark := by
    induction chain with
    | @last _ visit => exact ⟨_, fun v hv => by rw [List.mem_singleton.mp hv]⟩
    | @more _ visit page next visits reads goesOn rest ih =>
      obtain ⟨mark, hmark⟩ := ih fun v hv w hw =>
        collisionless v (List.mem_cons_of_mem _ hv) w (List.mem_cons_of_mem _ hw)
      obtain ⟨second, later, rfl, hsecond⟩ := rest.head
      refine ⟨mark, fun v hv => ?_⟩
      rcases List.mem_cons.mp hv with rfl | hv
      · have hnext : next.snapshot = .text page.snapshotHash := by
          unfold nextOf at goesOn
          split_ifs at goesOn
          obtain ⟨_, -, rfl⟩ := Option.map_eq_some_iff.mp goesOn
          rfl
        have htexts := HashValue.text.inj (hnext.symm.trans (hsecond next rfl))
        have hsame : snapshotOf service.platform store v = snapshotOf service.platform store second :=
          Hash.text_injective (reads.snapshotHash.symm.trans htexts)
        exact (collisionless v List.mem_cons_self second (List.mem_cons_of_mem _ List.mem_cons_self) hsame).trans
          (hmark second List.mem_cons_self)
      · exact hmark v hv
  obtain ⟨mark, hmark⟩ := hall
  exact fun visit hv other hw => (hmark visit hv).trans (hmark other hw).symm

/-- Every page is returned for the agreement of the store that it read. -/
theorem Chain.returned {visits : List Visit} (chain : Chain service secret store limit cursor visits) :
    ∀ visit ∈ visits, ∃ cursor page, Reads service secret store limit cursor visit page := by
  induction chain with
  | last reads =>
    intro v hv
    obtain rfl := List.mem_singleton.mp hv
    exact ⟨_, _, reads⟩
  | more reads _ _ ih =>
    intro v hv
    rcases List.mem_cons.mp hv with rfl | hv
    · exact ⟨_, _, reads⟩
    · exact ih v hv

/-- **Pages that go on from each other are of one state of the store**, and it did not change between them. -/
theorem Chain.steady {t : Timeline (Commit packages binding)} (start : t.state 0 = ([], Db.empty)) {visits : List Visit}
    (chain : Chain service secret (fun moment => (t.state moment).2) limit cursor visits)
    (collisionless : Collisionless service.platform (fun moment => (t.state moment).2) visits) {visit other : Visit}
    (hv : visit ∈ visits) (hw : other ∈ visits) {moment : ℕ} (h : visit.turn.snapshot ≤ moment)
    (h' : moment ≤ other.turn.snapshot) : t.state moment = t.state visit.turn.snapshot := by
  have hprints := chain.fingerprints collisionless visit hv other hw
  obtain ⟨hagreement, hrest⟩ := Prod.mk.inj hprints
  have htip : ∀ v ∈ visits, heightAboveTip (t.state v.turn.snapshot).2 = v.response.verification.height + 1 := by
    intro v hv
    obtain ⟨_, _, reads⟩ := chain.returned v hv
    obtain ⟨tip, htip, hsame⟩ := reads.returned.agreed
    refine heightAboveTip_of_tip ?_
    rw [← hsame.1, canonicalTip, htip]
    rfl
  refine unchanged_of_progress start (Prod.mk.inj hrest).1 ?_ h h'
  rw [htip visit hv, htip other hw, hagreement]

/-! ### The pages together -/

/-- A visit shows the items of a slice, after some others. -/
structure Shows (limit before : ℕ) (visit : Visit) (slice : Slice ObjectRow (ℕᵒᵈ ×ₗ String)) : Prop where
  /-- The items. -/
  items : visit.response.data.items = slice.items.map (itemOf visit.response.verification)
  /-- The number of items before. -/
  offset : visit.response.data.offset = before
  /-- The page size. -/
  size : visit.response.data.limit = limit
  /-- Whether there are more. -/
  hasMore : visit.response.data.hasMore = slice.next.isSome
  /-- There is a cursor when there are more. -/
  nextCursor : visit.response.data.nextCursor.isSome = visit.response.data.hasMore
  /-- The page is full when there are more. -/
  sized : slice.items.length ≤ limit ∧ (slice.next ≠ none → slice.items.length = limit)

/-- Visits show slices, one after the other. -/
inductive AllShow (limit : ℕ) : ℕ → List Visit → List (Slice ObjectRow (ℕᵒᵈ ×ₗ String)) → Prop
  /-- None. -/
  | nil {before : ℕ} : AllShow limit before [] []
  /-- One more. -/
  | cons {before : ℕ} {visit : Visit} {slice : Slice ObjectRow (ℕᵒᵈ ×ₗ String)} {visits : List Visit}
    {slices : List (Slice ObjectRow (ℕᵒᵈ ×ₗ String))} (shows : Shows limit before visit slice)
    (rest : AllShow limit (before + slice.items.length) visits slices) :
    AllShow limit before (visit :: visits) (slice :: slices)

theorem Reads.shows {visit : Visit} {page : Page} (reads : Reads service secret store limit cursor visit page) :
    Shows limit ((cursor.map CatalogCursor.offset).getD 0) visit
      (sliceOf rank limit (found (store visit.turn.snapshot) cursor)) where
  items := by rw [reads.data]; exact reads.returned.items
  offset := by rw [reads.data]; exact reads.returned.offset
  size := by rw [reads.data]; exact reads.returned.limit
  hasMore := by rw [reads.data]; exact reads.returned.hasMore
  nextCursor := by
    rw [reads.data, Option.isSome_map]
    exact reads.returned.goesOn
  sized := by
    unfold sliceOf
    dsimp only
    rw [List.length_take]
    refine ⟨Nat.min_le_left _ _, fun hnext => ?_⟩
    split_ifs at hnext with hmore
    · exact Nat.min_eq_left hmore.le
    · exact absurd rfl hnext

/-- **A chain is a reading** of the objects of the store. -/
theorem Chain.reading (positive : 0 < limit) (small : limit ≤ 200) {db : Db} {visits : List Visit}
    (chain : Chain service secret store limit cursor visits) (same : ∀ visit ∈ visits, store visit.turn.snapshot = db) :
    ∃ slices, Reading rank (listed db) (cursor.map place) slices ∧
      AllShow limit ((cursor.map CatalogCursor.offset).getD 0) visits slices := by
  induction chain with
  | last reads =>
    have hshows := reads.shows
    rw [same _ List.mem_cons_self] at hshows
    exact ⟨_, .last positive, .cons hshows .nil⟩
  | @more cursor visit page next visits reads goesOn rest ih =>
    have hshows := reads.shows
    obtain ⟨hnext, -, -, -, hoffset⟩ := reads.returned.next small goesOn
    have hlength : page.items.length = (sliceOf rank limit (found (store visit.turn.snapshot) cursor)).items.length := by
      rw [reads.returned.items, List.length_map]
    rw [reads.returned.offset, hlength, same _ List.mem_cons_self] at hoffset
    rw [same _ List.mem_cons_self] at hshows hnext
    obtain ⟨slices, reading, all⟩ := ih fun v hv => same v (List.mem_cons_of_mem _ hv)
    have hbase : ((some next).map CatalogCursor.offset).getD 0 = next.offset := rfl
    rw [hbase, hoffset] at all
    exact ⟨_, .more positive hnext reading, .cons hshows all⟩

end

section

variable {limit before : ℕ} {visits : List Visit} {slices : List (Slice ObjectRow (ℕᵒᵈ ×ₗ String))}
  (all : AllShow limit before visits slices)

include all

theorem AllShow.length_eq : visits.length = slices.length := by
  induction all with
  | nil => rfl
  | cons _ _ ih => rw [List.length_cons, List.length_cons, ih]

theorem AllShow.of_mem {visit : Visit} (h : visit ∈ visits) : ∃ before, ∃ slice ∈ slices, Shows limit before visit slice := by
  induction all with
  | nil => cases h
  | cons shows _ ih =>
    rcases List.mem_cons.mp h with rfl | h
    · exact ⟨_, _, List.mem_cons_self, shows⟩
    · obtain ⟨before, slice, hs, shows⟩ := ih h
      exact ⟨before, slice, List.mem_cons_of_mem _ hs, shows⟩

theorem AllShow.of_slice {slice : Slice ObjectRow (ℕᵒᵈ ×ₗ String)} (h : slice ∈ slices) :
    ∃ before visit, Shows limit before visit slice := by
  induction all with
  | nil => cases h
  | cons shows _ ih =>
    rcases List.mem_cons.mp h with rfl | h
    · exact ⟨_, _, shows⟩
    · exact ih h

theorem AllShow.getLast {slice : Slice ObjectRow (ℕᵒᵈ ×ₗ String)} (h : slices.getLast? = some slice) :
    ∃ before visit, visits.getLast? = some visit ∧ Shows limit before visit slice := by
  induction all with
  | nil => cases h
  | @cons before visit first visits slices shows rest ih =>
    cases rest with
    | nil =>
      obtain rfl : first = slice := by simpa using h
      exact ⟨before, visit, rfl, shows⟩
    | cons _ _ =>
      rw [List.getLast?_cons_cons] at h ⊢
      exact ih h

/-- The items of the pages, when they are of one agreement. -/
theorem AllShow.flatMap {verification : VerificationMetadata} (same : ∀ visit ∈ visits, visit.response.verification = verification) :
    (visits.flatMap fun visit => visit.response.data.items) = (slices.flatMap Slice.items).map (itemOf verification) := by
  induction all with
  | nil => rfl
  | cons shows _ ih =>
    rw [List.flatMap_cons, List.flatMap_cons, List.map_append, ih fun v hv => same v (List.mem_cons_of_mem _ hv),
      shows.items, same _ List.mem_cons_self]

/-- The offset of a page is the number of items before it. -/
theorem AllShow.offset {earlier later : List Visit} {visit : Visit} (split : visits = earlier ++ visit :: later) :
    visit.response.data.offset = before + (earlier.flatMap fun visit => visit.response.data.items).length := by
  induction all generalizing earlier with
  | nil => simp at split
  | @cons before first slice visits slices shows _ ih =>
    cases earlier with
    | nil =>
      obtain ⟨rfl, -⟩ := List.cons.inj split
      exact shows.offset
    | cons _ earlier =>
      obtain ⟨rfl, hrest⟩ := List.cons.inj split
      rw [ih hrest, List.flatMap_cons, List.length_append, shows.items, List.length_map]
      omega

end

/-- The pages that a client has read. -/
structure Paged (t : Timeline (Commit packages binding)) (service : Service) (catalog : CatalogConfiguration) (limit : ℕ)
    (db : Db) (verification : VerificationMetadata) (visits : List Visit) : Prop where
  /-- All have one size. -/
  size : 0 < limit ∧ limit ≤ 200 ∧ ∀ visit ∈ visits, visit.response.data.limit = limit
  /-- All were read from one state of the store; no other was there in between. -/
  steady : ∀ visit ∈ visits, (t.state visit.turn.snapshot).2 = db ∧ ∀ other ∈ visits, ∀ moment,
    visit.turn.snapshot ≤ moment → moment ≤ other.turn.snapshot → t.state moment = t.state visit.turn.snapshot
  /-- All were returned with one agreement. -/
  verified : ∀ visit ∈ visits, visit.response.verification = verification
  /-- It is that of the tip and the counters. -/
  agreed : ∃ tip, tipRow db = some tip ∧ SameState verification tip db
  /-- The objects of the store are listed, each once: -/
  members : (listed db).Perm db.objects
  /-- the higher ones first, and those of one height by their keys. -/
  sorted : (listed db).Pairwise fun row later => later.createHeight < row.createHeight ∨
    later.createHeight = row.createHeight ∧ row.objectKey.text < later.objectKey.text
  /-- The pages are a first part of the list; -/
  part : (visits.flatMap fun visit => visit.response.data.items) <+: (listed db).map (itemOf verification)
  /-- all of it when the last one says that there are no more, -/
  whole : ∀ visit, visits.getLast? = some visit → visit.response.data.hasMore = false →
    (visits.flatMap fun visit => visit.response.data.items) = (listed db).map (itemOf verification)
  /-- and then there are as many pages as it takes. -/
  count : ∀ visit, visits.getLast? = some visit → visit.response.data.hasMore = false →
    visits.length = max 1 ((db.objects.length + limit - 1) / limit)
  /-- The offset of a page is the number of items before it. -/
  offsets : ∀ earlier visit later, visits = earlier ++ visit :: later →
    visit.response.data.offset = (earlier.flatMap fun visit => visit.response.data.items).length
  /-- There is a cursor exactly when there are more, -/
  cursors : ∀ visit ∈ visits, visit.response.data.nextCursor.isSome = visit.response.data.hasMore
  /-- and it is accepted for the page size. -/
  accepted : ∀ visit ∈ visits, ∀ raw, visit.response.data.nextCursor = some raw →
    ∃ next, catalogCursor service.platform.toCursorPlatform (.text raw) catalog.cursorSecret limit = .ok (some next)
  /-- Once the store has changed, it is refused. -/
  moved : ∀ visit ∈ visits, ∀ raw, visit.response.data.nextCursor = some raw → ∀ turn : Turn,
    visit.turn.snapshot ≤ turn.snapshot → t.state turn.snapshot ≠ t.state visit.turn.snapshot →
      ∀ response, Collisionless service.platform (fun moment => (t.state moment).2) [visit, ⟨turn, response⟩] →
        page service (fun moment => (t.state moment).2) turn (.text raw) ≠ .ok response

/-- **Pagination of the catalog is complete.** A client asks without a cursor and passes every cursor on, while the
sync service commits appends and rollbacks in whatever order. -/
theorem catalog_pages {t : Timeline (Commit packages binding)} (start : t.state 0 = ([], Db.empty)) {service : Service}
    {catalog : CatalogConfiguration} (configured : service.catalog = some catalog) {visits : List Visit}
    (session : Session service (fun moment => (t.state moment).2) none visits)
    (inOrder : visits.Pairwise fun visit later => visit.turn.snapshot ≤ later.turn.snapshot)
    (collisionless : Collisionless service.platform (fun moment => (t.state moment).2) visits) :
    ∃ limit db verification, Paged t service catalog limit db verification visits := by
  have apart : ∀ moment, ((t.state moment).2.objects.map rank).Nodup := fun moment =>
    nodup_ranks (nodup_keys (sound_of_start start moment))
  obtain ⟨limit, hpositive, hsmall, -, chain⟩ := session.chain configured apart (show none = Option.map _ none from rfl)
    fun c hc => by cases hc
  obtain ⟨first, later, rfl, -⟩ := chain.head
  have hsnapshots : ∀ visit ∈ first :: later, (t.state visit.turn.snapshot).2 = (t.state first.turn.snapshot).2 := by
    intro visit hv
    rcases List.mem_cons.mp hv with rfl | hv'
    · rfl
    · have hle := (List.pairwise_cons.mp inOrder).1 visit hv'
      rw [chain.steady start collisionless List.mem_cons_self hv hle le_rfl]
  have hverified : ∀ visit ∈ first :: later, visit.response.verification = first.response.verification := fun visit hv =>
    congrArg Prod.fst (chain.fingerprints collisionless visit hv first List.mem_cons_self)
  obtain ⟨slices, reading, all⟩ := chain.reading hpositive hsmall hsnapshots
  have hbefore : ((none : Option CatalogCursor).map CatalogCursor.offset).getD 0 = 0 := rfl
  have hsorted := orderBy_sorted (apart first.turn.snapshot)
  obtain ⟨rest, hrest, hdone, -⟩ := reading.items hsorted
  rw [hbefore] at all
  rw [Option.map_none, following_none] at hrest
  have hall := all.flatMap hverified
  have hlast : ∀ visit, (first :: later).getLast? = some visit → visit.response.data.hasMore = false →
      ∀ slice, slices.getLast? = some slice → slice.next = none := by
    intro visit hvisit hmore slice hslice
    obtain ⟨before, visit', hvisit', shows⟩ := all.getLast hslice
    obtain rfl := Option.some.inj (hvisit'.symm.trans hvisit)
    rw [shows.hasMore] at hmore
    simpa using hmore
  refine ⟨limit, (t.state first.turn.snapshot).2, first.response.verification, ⟨⟨hpositive, hsmall, fun visit hv => ?_⟩,
    fun visit hv => ⟨hsnapshots visit hv, fun other hw moment h h' => chain.steady start collisionless hv hw h h'⟩, hverified, ?_,
    orderBy_perm, hsorted.imp fun {a b} h => ?_, ?_, fun visit hvisit hmore => ?_, fun visit hvisit hmore => ?_,
    fun earlier visit later split => ?_, fun visit hv => ?_, fun visit hv raw hraw => ?_,
    fun visit hv raw hraw turn hafter hmoved response hapart hok => ?_⟩⟩
  · obtain ⟨_, _, -, shows⟩ := all.of_mem hv
    exact shows.size
  · obtain ⟨_, _, reads⟩ := chain.returned first List.mem_cons_self
    exact reads.returned.agreed
  · rw [rank, rank, Prod.Lex.toLex_lt_toLex] at h
    exact h.imp id fun h => ⟨(OrderDual.toDual_inj.mp h.1).symm, h.2⟩
  · refine ⟨rest.map (itemOf first.response.verification), ?_⟩
    rw [hall, ← List.map_append, ← hrest]
  · obtain ⟨slice, hslice⟩ : ∃ slice, slices.getLast? = some slice := ⟨_, List.getLast?_eq_some_getLast reading.ne_nil⟩
    have hnil := hdone slice hslice (hlast visit hvisit hmore slice hslice)
    rw [hnil, List.append_nil] at hrest
    rw [hall, ← hrest]
  · have hsized : ∀ slice ∈ slices, slice.items.length ≤ limit ∧ (slice.next ≠ none → slice.items.length = limit) := by
      intro slice hslice
      obtain ⟨_, _, shows⟩ := all.of_slice hslice
      exact shows.sized
    have hcount := reading.length_eq hsorted hpositive hsized (hlast visit hvisit hmore)
    rw [Option.map_none, following_none, listed, orderBy_perm.length_eq] at hcount
    rw [all.length_eq, hcount]
  · rw [all.offset split, Nat.zero_add]
  · obtain ⟨_, _, -, shows⟩ := all.of_mem hv
    exact shows.nextCursor
  · obtain ⟨_, _, reads⟩ := chain.returned visit hv
    rw [reads.data] at hraw
    obtain ⟨next, hnext, rfl⟩ := Option.map_eq_some_iff.mp hraw
    obtain ⟨-, issuable, hsize, -⟩ := reads.returned.next hsmall hnext
    refine ⟨next, ?_⟩
    rw [catalogCursor, issuable.parseCursor, if_pos hsize]
    rfl
  · obtain ⟨_, _, reads⟩ := chain.returned visit hv
    have hraw' := hraw
    rw [reads.data] at hraw'
    obtain ⟨next, hnext, hissued⟩ := Option.map_eq_some_iff.mp hraw'
    obtain ⟨-, issuable, hsize, -⟩ := reads.returned.next hsmall hnext
    have hlater : Session service (fun moment => (t.state moment).2) (some raw) [⟨turn, response⟩] := .last hok
    have hargument : some raw = (some next).map (issue service.platform.toCursorPlatform catalog.cursorSecret) :=
      congrArg some hissued.symm
    obtain ⟨limit', -, -, hlimit', chain'⟩ := hlater.chain configured apart hargument fun c hc =>
      Option.some.inj hc ▸ issuable
    obtain rfl : limit' = limit := (hlimit' next rfl).symm.trans hsize
    exact hmoved ((Chain.more reads hnext chain').steady start hapart List.mem_cons_self
      (List.mem_cons_of_mem _ List.mem_cons_self) hafter le_rfl)

/-! ### Two pages -/

/-- What a request meets that is answered with a page of the store. -/
structure Turn.Meets (turn : Turn) (service : Service) (catalog : CatalogConfiguration) (rawLimit : Argument)
    (store : ℕ → Db) (db : Db) (verification : VerificationMetadata) : Prop where
  /-- The token is right, -/
  authorized : turn.authorization = .text ("Bearer " ++ catalog.token)
  /-- the limit is this one -/
  limited : turn.rawLimit = rawLimit
  /-- and a slot is free. -/
  free : turn.inFlight < 2
  /-- Both resolutions give the agreement. -/
  resolved : resolveAt service.gateway store turn.before turn.first = .ok verification ∧
    resolveAt service.gateway store turn.after turn.second = .ok verification
  /-- The page is read from the store. -/
  snapshot : store turn.snapshot = db
  /-- The node has the block. -/
  canonical : turn.getBlockHash verification.height = .ok verification.blockHash

/-- A page that is read is returned with the next cursor. -/
theorem Turn.Meets.page {service : Service} {catalog : CatalogConfiguration} {turn : Turn} {rawLimit : Argument}
    {limit : ℕ} {store : ℕ → Db} {db : Db} {verification : VerificationMetadata}
    (meets : turn.Meets service catalog rawLimit store db verification) (configured : service.catalog = some catalog)
    (limited : limitOf rawLimit = some limit) {cursor : Option CatalogCursor}
    (accepted : ∀ c ∈ cursor, c.Issuable ∧ c.limit = limit) {page : Page}
    (reads : readSnapshot service.platform verification limit cursor db = .ok page) :
    Catalog.page service store turn
        (argument (cursor.map (issue service.platform.toCursorPlatform catalog.cursorSecret))) =
      .ok ⟨verification, page, (nextOf limit page).map (issue service.platform.toCursorPlatform catalog.cursorSecret)⟩ := by
  have hcursor : catalogCursor service.platform.toCursorPlatform
      (argument (cursor.map (issue service.platform.toCursorPlatform catalog.cursorSecret))) catalog.cursorSecret limit =
        .ok cursor := by
    cases cursor with
    | none => rfl
    | some c =>
      obtain ⟨issuable, hsize⟩ := accepted c rfl
      rw [Option.map_some, argument, catalogCursor, issuable.parseCursor, if_pos hsize]
      rfl
  refine page_eq_ok configured ?_ meets.resolved.1 meets.resolved.2 (meets.snapshot ▸ reads) meets.canonical
  exact bind_eq_ok.mpr ⟨catalog, rfl, bind_eq_ok.mpr ⟨(), ensure_eq_ok.mpr meets.authorized, bind_eq_ok.mpr
    ⟨limit, orError_eq_ok.mpr (meets.limited ▸ limited), bind_eq_ok.mpr ⟨cursor, hcursor, bind_eq_ok.mpr
    ⟨(), ensure_eq_ok.mpr meets.free, rfl⟩⟩⟩⟩⟩

/-- The pages of a store are returned to a client whose requests all find it. -/
theorem Pages.session (service : Service) {catalog : CatalogConfiguration} (configured : service.catalog = some catalog)
    {rawLimit : Argument} {limit : ℕ} (limited : limitOf rawLimit = some limit) {store : ℕ → Db} {db : Db}
    (apart : (db.objects.map rank).Nodup) {verification : VerificationMetadata} (turns : ℕ → Turn)
    (meets : ∀ i, (turns i).Meets service catalog rawLimit store db verification) {cursor : Option CatalogCursor}
    {pages : List Page} (h : Pages service.platform verification limit db cursor pages)
    (accepted : ∀ c ∈ cursor, c.Issuable ∧ c.limit = limit) :
    ∃ visits, Session service store (cursor.map (issue service.platform.toCursorPlatform catalog.cursorSecret)) visits ∧
      (∀ i visit, visits[i]? = some visit → visit.turn = turns i ∧ visit.response.verification = verification ∧
        visit.response.data.limit = limit) ∧
      ∀ visit, visits.getLast? = some visit → visit.response.data.hasMore = false := by
  obtain ⟨positive, small⟩ := limitOf_some limited
  induction h generalizing turns with
  | @last cursor page reads done =>
    have returned := readSnapshot_ok positive apart reads
    refine ⟨[⟨turns 0, _⟩], .last ((meets 0).page configured limited accepted reads), fun i visit hvisit => ?_, fun visit hvisit => ?_⟩
    · cases i with
      | zero =>
        obtain rfl := Option.some.inj hvisit
        exact ⟨rfl, rfl, returned.limit⟩
      | succ i => cases hvisit
    · obtain rfl := Option.some.inj hvisit
      exact done
  | @more cursor page next pages reads goesOn _ ih =>
    have returned := readSnapshot_ok positive apart reads
    obtain ⟨-, issuable, hsize, -⟩ := returned.next small goesOn
    obtain ⟨visits, session, hvisits, hlast⟩ := ih (fun i => turns (i + 1)) (fun i => meets (i + 1))
      fun c hc => Option.some.inj hc ▸ ⟨issuable, hsize⟩
    refine ⟨⟨turns 0, _⟩ :: visits, .more ((meets 0).page configured limited accepted reads) (congrArg (Option.map _) goesOn) session,
      fun i visit hvisit => ?_, fun visit hvisit => ?_⟩
    · cases i with
      | zero =>
        obtain rfl := Option.some.inj hvisit
        exact ⟨rfl, rfl, returned.limit⟩
      | succ i => exact hvisits i visit hvisit
    · rw [List.getLast?_cons_of_ne_nil session.ne_nil] at hvisit
      exact hlast visit hvisit

/-- A request for one object, at a moment of a timeline. -/
def sampleTurn (pipelineB : Json) (blockHash : String) (moment : ℕ) : Turn where
  authorization := .text "Bearer t"
  rawLimit := .text "1"
  inFlight := 0
  before := ⟨moment, moment, moment⟩
  first := sampleCircumstances 201 pipelineB
  snapshot := moment
  getBlockHash _ := .ok blockHash
  after := ⟨moment, moment, moment⟩
  second := sampleCircumstances 201 pipelineB

/-- The pipelines agree with the store on its last block, from the second moment on. -/
theorem story_resolved {story : Story} (ran : tellStory = .ok story) (told : story.Told) :
    ∃ pipelineB metadata, metadata.height = 201 ∧ ∀ i,
      resolveAt sampleGateway (fun moment => ((storyTimeline ran).state moment).2) ⟨i + 2, i + 2, i + 2⟩
        (sampleCircumstances 201 pipelineB) = .ok metadata := by
  obtain ⟨row, hfind, hrow, -⟩ := story_agreed told
  obtain ⟨tip, htip, htipHeight, -⟩ := told.tip
  have hheight : row.height = 201 := (Prod.mk.inj hrow).1
  have hheights : story.db.checkpoints.map CheckpointRow.height = [200, 201] := by
    simpa [Function.comp_def] using congrArg (List.map Prod.fst) told.checkpoints
  obtain ⟨pipelineB, metadata, hmetadata, hresolve⟩ := resolveAt_sample (hheight.trans_le (by decide))
  refine ⟨pipelineB, metadata, hmetadata.trans hheight, fun i => hheight ▸ hresolve _ _ ⟨?_, ?_, ?_⟩⟩
  · show (canonicalTip story.db).map CanonicalTip.height = some row.height
    rw [canonicalTip, htip, hheight]
    exact congrArg some htipHeight
  · show (story.db.checkpoints.map CheckpointRow.height).max? = some row.height
    rw [hheights, hheight]
    rfl
  · rw [hheight]
    exact hfind

/-- Two objects are listed on a page each. -/
theorem catalog_pages_sample : ∃ (t : Timeline (Commit lifePackages sampleBinding)) (visits : List Visit) (db : Db)
    (verification : VerificationMetadata), visits.length = 2 ∧ db.objects.length = 2 ∧
      Paged t ⟨samplePlatform, sampleGateway, sampleCatalog⟩ ⟨"t", "s"⟩ 1 db verification visits := by
  obtain ⟨story, ran, told⟩ := Story.exists_told
  obtain ⟨hlength, hepoch⟩ := story_counts told
  obtain ⟨pipelineB, metadata, hheight, hresolved⟩ := story_resolved ran told
  have readable : Readable metadata story.db :=
    readable_of_agreed (validateTandemTransaction_contract lifeChecks_sound) (Story.stored ran).2 story_distinct story_once
      (resolveAt_ok (hresolved 0)) (by rw [hheight]; decide) (by rw [hlength]; decide) (by rw [hepoch]; decide)
  obtain ⟨pages, hpages, -⟩ := readable.pages samplePlatform (show 0 < 1 by decide) (show 1 ≤ 200 by decide)
  have limited : limitOf (.text "1") = some 1 := by decide +kernel
  have bearer : Argument.text "Bearer t" = .text ("Bearer " ++ "t") := congrArg Argument.text (by decide)
  obtain ⟨visits, session, hvisits, hlast⟩ := hpages.session ⟨samplePlatform, sampleGateway, sampleCatalog⟩ rfl limited
    readable.apart (fun i => sampleTurn pipelineB metadata.blockHash (i + 2))
    (fun i => ⟨bearer, rfl, show (0 : ℤ) < 2 by decide, ⟨hresolved i, hresolved i⟩, rfl, rfl⟩) fun c hc => by cases hc
  have inOrder : visits.Pairwise fun visit later => visit.turn.snapshot ≤ later.turn.snapshot := by
    refine List.pairwise_iff_getElem.mpr fun i j hi hj hij => ?_
    rw [(hvisits i _ (List.getElem?_eq_getElem hi)).1, (hvisits j _ (List.getElem?_eq_getElem hj)).1]
    show i + 2 ≤ j + 2
    omega
  have found : ∀ visit ∈ visits, ((storyTimeline ran).state visit.turn.snapshot).2 = story.db ∧
      visit.response.verification = metadata ∧ visit.response.data.limit = 1 := by
    intro visit hvisit
    obtain ⟨i, hi⟩ := List.mem_iff_getElem?.mp hvisit
    obtain ⟨hturn, hverification, hlimit⟩ := hvisits i visit hi
    exact ⟨by rw [hturn]; rfl, hverification, hlimit⟩
  have collisionless : Collisionless samplePlatform (fun moment => ((storyTimeline ran).state moment).2) visits := by
    intro visit hvisit other hother _
    obtain ⟨hdb, hverification, -⟩ := found visit hvisit
    obtain ⟨hdb', hverification', -⟩ := found other hother
    simp only [fingerprint, hdb, hverification, hdb', hverification']
  obtain ⟨limit, db, verification, paged⟩ := catalog_pages (t := storyTimeline ran) rfl rfl session inOrder collisionless
  obtain ⟨last, hmem⟩ : ∃ last, visits.getLast? = some last := ⟨_, List.getLast?_eq_some_getLast session.ne_nil⟩
  have hin : last ∈ visits := List.mem_of_getLast? hmem
  obtain ⟨hdb, -, hone⟩ := found last hin
  obtain rfl : limit = 1 := (paged.size.2.2 last hin).symm.trans hone
  obtain rfl : db = story.db := (paged.steady last hin).1.symm.trans hdb
  have hcount := paged.count last hmem (hlast last hmem)
  rw [hlength] at hcount
  exact ⟨storyTimeline ran, visits, story.db, verification, hcount, hlength, paged⟩

end IndexTandem.Api.Catalog
