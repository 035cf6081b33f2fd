import IndexTandem.Indexer.Replay

/-!
# The store over a run

`Stored history db` is the store after any sequence of appends and rollbacks. An append
reduces further blocks in memory, starting from what the store holds, and writes them in
one transaction or in several; a rollback disconnects blocks. The history remembers, for
each block still connected, the database right after it was written.

Whatever the run was, the authoritative tables are those of the replay of the blocks
still connected, and so is every database of the history (`Stored.recorded`).
-/

namespace IndexTandem.Indexer

open Library Protocol Database

variable {packages : Packages} {binding : Binding}

/-! ### Appending -/

/-- The blocks reduced one after the other, each with what the one before it left. -/
def reduceChain (packages : Packages) (binding : Binding) (cursor : Cursor) :
    List BitcoinBlock → Except String (List ReducedBlock)
  | [] => pure []
  | block :: rest => do
    let reduced ← cursor.reduce packages binding block
    let later ← reduceChain packages binding (.after reduced) rest
    pure (reduced :: later)

/-- The root to go on from: that of the tip, or the initial one. -/
def rootOf (packages : Packages) (binding : Binding) (tip : Option CanonicalTip) : Hash :=
  (tip.map CanonicalTip.chainedRoot).getD (initialStateRoot packages.sha256 binding.ns)

/-- What the next block is reduced with, read from the database, the objects as it lists them. -/
def Cursor.read (packages : Packages) (binding : Binding) (db : Db) (rows : List ObjectRow) : Cursor :=
  ⟨loadActivation db, rootOf packages binding (canonicalTip db), objectsOf db rows⟩

/-- The blocks extend the chain one after the other. -/
def Extends (chain : List BitcoinBlock) : List BitcoinBlock → Prop
  | [] => True
  | block :: rest => Follows block chain ∧ Extends (block :: chain) rest

/-- The blocks of a chain that are still connected, each with the database right after it was written;
the newest comes first. -/
abbrev History := List (BitcoinBlock × Db)

/-- The blocks. -/
def History.blocks (history : History) : List BitcoinBlock := history.map Prod.fst

/-- The history after the blocks are written one after the other. -/
def History.record (history : History) (db : Db) : List BitcoinBlock → List ReducedBlock → History
  | block :: blocks, reduced :: rest =>
    match writeBlock reduced db with
    | .ok db' => History.record ((block, db') :: history) db' blocks rest
    | .error _ => history
  | _, _ => history

/-- The store after a run. -/
inductive Stored (packages : Packages) (binding : Binding) : History → Db → Prop
  /-- Nothing was written yet. -/
  | empty : Stored packages binding [] Db.empty
  /-- Further blocks, reduced from what the store holds, are written in some transactions. -/
  | append {history : History} {db db' : Db} {rows : List ObjectRow} {further : List BitcoinBlock}
      {reduced : List ReducedBlock} {batches : List (List ReducedBlock)}
      (stored : Stored packages binding history db) (linked : Extends history.blocks further)
      (listed : rows.Perm db.objects)
      (reduces : reduceChain packages binding (.read packages binding db rows) further = .ok reduced)
      (batched : batches.flatten = reduced)
      (appends : batches.foldlM (fun db batch => appendBlocks batch db) db = .ok db') :
      Stored packages binding (history.record db further reduced) db'
  /-- Blocks are disconnected. -/
  | rollback {history : History} {db db' : Db} {init : InitActivation} {oldTipHeight : ℕ} {ancestorHeight : ℤ}
      {plan : ReorgPlan} {journal : ReorgJournal} (stored : Stored packages binding history db)
      (activated : loadActivation db = some init)
      (plans : planReorgRollback oldTipHeight ancestorHeight init.height = .ok plan)
      (rolls : Indexer.rollback plan journal db = .ok db') :
      Stored packages binding (history.dropWhile fun entry => ancestorHeight < entry.1.height) db'

/-! ### Blocks that differ in the order of the object map -/

theorem writeTouched_same {a b : ReducedBlock} (h : SameBlock a b) : writeTouched a = writeTouched b := by
  funext db entry
  obtain ⟨hb, hobjects⟩ := h
  unfold writeTouched
  rw [hobjects entry.1, hb]

/-- The same blocks are written alike. -/
theorem writeBlock_same {a b : ReducedBlock} (h : SameBlock a b) : writeBlock a = writeBlock b := by
  funext db
  have ht := writeTouched_same h
  obtain ⟨hb, -⟩ := h
  unfold writeBlock
  rw [ht, hb]
  rfl

/-! ### The tables of a run are those of a replay -/

/-- Every database of the history has the tables of the replay of its blocks. -/
def Recorded (packages : Packages) (binding : Binding) (history : History) : Prop :=
  ∀ entry rest, entry :: rest <:+ history →
    ∃ index, Replay packages binding (History.blocks (entry :: rest)) index ∧ tables index.db = tables entry.2

/-- The database has the tables of the replay of the chain. -/
def Holds (packages : Packages) (binding : Binding) (chain : List BitcoinBlock) (db : Db) : Prop :=
  ∃ index, Replay packages binding chain index ∧ tables index.db = tables db

theorem tables_eq_iff {db db' : Db} : tables db = tables db' ↔ db' = withReorgs db'.reorgs db := by
  constructor
  · intro h
    calc db' = withReorgs db'.reorgs (tables db') := rfl
      _ = withReorgs db'.reorgs (tables db) := by rw [h]
      _ = withReorgs db'.reorgs db := rfl
  · intro h
    rw [h]
    rfl

/-- A computation that leaves the journal alone does the same to databases with the same tables. -/
theorem Framed.of_tables {f : Db → Except String Db} (hf : Framed f) {db db' : Db} (h : tables db = tables db') :
    f db' = (f db).map (withReorgs db'.reorgs) := by
  have hdb := tables_eq_iff.mp h
  calc f db' = f (withReorgs db'.reorgs db) := congrArg f hdb
    _ = (f db).map (withReorgs db'.reorgs) := hf _ db

theorem canonicalTip_tables {db db' : Db} (h : tables db = tables db') : canonicalTip db = canonicalTip db' := by
  rw [tables_eq_iff.mp h]
  rfl

theorem loadActivation_tables {db db' : Db} (h : tables db = tables db') : loadActivation db = loadActivation db' := by
  rw [tables_eq_iff.mp h]
  rfl

/-- The reductions that a block was reduced with and that were written one after the other. -/
theorem appendBlocks_flatten {batches : List (List ReducedBlock)} {db : Db} :
    batches.foldlM (fun db batch => appendBlocks batch db) db = appendBlocks batches.flatten db := by
  induction batches generalizing db with
  | nil => rfl
  | cons batch batches ih =>
    rw [List.foldlM_cons, List.flatten_cons]
    unfold appendBlocks at ih ⊢
    rw [List.foldlM_append]
    exact bind_congr fun d => ih

/-- The cursors are the same up to the order of the object map. -/
structure SameCursor (a b : Cursor) : Prop where
  /-- The same INIT. -/
  activation : a.activation = b.activation
  /-- The same root. -/
  root : a.root = b.root
  /-- The same objects. -/
  objects : JsMap.Same a.objects b.objects

/-- A block reduced with the replayed state, in whatever order its objects come. -/
theorem Replay.reduces_same {chain : List BitcoinBlock} {index : Index} (h : Replay packages binding chain index)
    {cursor : Cursor} (same : SameCursor index.toCursor cursor) {block : BitcoinBlock} {reduced : ReducedBlock}
    (reduces : cursor.reduce packages binding block = .ok reduced) :
    ∃ own, index.reduce packages binding block = .ok own ∧ SameBlock own reduced := by
  have hagree := reduceBlock_same h.mirrors.settled same.objects index.activation index.root block
  unfold Cursor.reduce at reduces ⊢
  rw [← same.activation, ← same.root] at reduces
  rw [reduces] at hagree
  generalize reduceBlock packages binding index.activation index.root index.objects block = x at hagree
  cases hagree with
  | ok h => exact ⟨_, rfl, h⟩

/-- **One more block.** A block reduced with the replayed state, in whatever order its objects come,
and written, gives the replay of one more block. -/
theorem Replay.connects {chain : List BitcoinBlock} {index : Index} (h : Replay packages binding chain index)
    {cursor : Cursor} (same : SameCursor index.toCursor cursor) {db db' : Db} (hdb : tables index.db = tables db)
    {block : BitcoinBlock} {reduced : ReducedBlock} (follows : Follows block chain)
    (reduces : cursor.reduce packages binding block = .ok reduced) (writes : writeBlock reduced db = .ok db') :
    ∃ next, Replay packages binding (block :: chain) next ∧ SameCursor next.toCursor (.after reduced) ∧
      tables next.db = tables db' := by
  obtain ⟨own, hown, hs⟩ := h.reduces_same same reduces
  rw [← writeBlock_same hs, (framed_writeBlock own).of_tables hdb] at writes
  cases hw : writeBlock own index.db with
  | error e => rw [hw] at writes; cases writes
  | ok d =>
    rw [hw] at writes
    cases writes
    obtain ⟨hb, hobj⟩ := hs
    refine ⟨Index.next own d, .connect h follows hown hw, ⟨?_, ?_, hobj⟩, rfl⟩
    · rw [hb]
      rfl
    · rw [hb]
      rfl

/-- **Further blocks**, reduced in memory and written one after the other. -/
theorem Replay.extends {further : List BitcoinBlock} {reduced : List ReducedBlock} {history : History} {index : Index}
    (h : Replay packages binding history.blocks index) {cursor : Cursor} (same : SameCursor index.toCursor cursor)
    {db db' : Db} (hdb : tables index.db = tables db) (recorded : Recorded packages binding history)
    (linked : Extends history.blocks further) (reduces : reduceChain packages binding cursor further = .ok reduced)
    (appends : appendBlocks reduced db = .ok db') :
    Holds packages binding (history.record db further reduced).blocks db' ∧
      Recorded packages binding (history.record db further reduced) := by
  induction further generalizing history index cursor db reduced with
  | nil =>
    obtain rfl := pure_eq_ok.mp reduces
    obtain rfl := pure_eq_ok.mp appends
    exact ⟨⟨index, h, hdb⟩, recorded⟩
  | cons block further ih =>
    obtain ⟨first, hfirst, reduces⟩ := bind_eq_ok.mp reduces
    obtain ⟨later, hlater, reduces⟩ := bind_eq_ok.mp reduces
    cases reduces
    obtain ⟨d, hd, appends⟩ := bind_eq_ok.mp appends
    replace hd : writeBlock first db = .ok d := hd
    obtain ⟨next, hnext, hsame, htab⟩ := h.connects same hdb linked.1 hfirst hd
    have hrecord : history.record db (block :: further) (first :: later) =
        History.record ((block, d) :: history) d further later := by
      rw [History.record, hd]
    have hrecorded : Recorded packages binding ((block, d) :: history) := by
      intro entry rest hs
      rcases List.suffix_cons_iff.mp hs with he | hs
      · cases he
        exact ⟨next, hnext, htab⟩
      · exact recorded entry rest hs
    have hnext' : Replay packages binding (History.blocks ((block, d) :: history)) next := hnext
    rw [hrecord]
    exact ih hnext' hsame htab hrecorded linked.2 hlater appends

/-- **Reading the state** of a database that holds a chain gives what the next block of the chain is
reduced with. -/
theorem Holds.read {chain : List BitcoinBlock} {db : Db} (h : Holds packages binding chain db)
    {rows : List ObjectRow} (listed : rows.Perm db.objects) :
    ∃ index, Replay packages binding chain index ∧ tables index.db = tables db ∧
      SameCursor index.toCursor (.read packages binding db rows) := by
  obtain ⟨index, replay, htab⟩ := h
  refine ⟨index, replay, htab, ?_, ?_, ?_⟩
  · exact replay.loadActivation.1.symm.trans (loadActivation_tables htab)
  · have htip := replay.canonicalTip
    rw [canonicalTip_tables htab] at htip
    change index.root = rootOf packages binding (canonicalTip db)
    cases chain with
    | nil =>
      cases replay
      rw [htip]
      rfl
    | cons block rest =>
      rw [htip]
      rfl
  · have hdb := tables_eq_iff.mp htab
    have hp : rows.Perm index.db.objects := by
      rw [hdb] at listed
      exact listed
    have hs := (objectsOf_same replay.mirrors hp).symm
    change JsMap.Same index.objects (objectsOf db rows)
    rw [hdb]
    exact hs

theorem History.blocks_dropWhile (history : History) (ancestor : ℤ) :
    History.blocks (history.dropWhile fun entry => ancestor < entry.1.height) = upTo ancestor history.blocks := by
  unfold History.blocks upTo
  rw [List.dropWhile_map]
  rfl

/-! ### Rolling back -/

/-- The tip and the ancestor that a rollback was planned for are still the stored ones. -/
def Unmoved (plan : ReorgPlan) (journal : ReorgJournal) (db : Db) : Prop :=
  (∃ tip, tipRow db = some tip ∧ tip.height = plan.oldTipHeight ∧ tip.hash.text = journal.oldTipHash) ∧
    ∀ hash, blockHash db plan.ancestorHeight = some hash → hash.text = journal.ancestorHash

theorem planReorgRollback_ok {oldTipHeight initHeight : ℕ} {ancestorHeight : ℤ} {plan : ReorgPlan}
    (h : planReorgRollback oldTipHeight ancestorHeight initHeight = .ok plan) :
    (initHeight : ℤ) - 1 ≤ ancestorHeight ∧ ancestorHeight < oldTipHeight ∧
      plan = ⟨oldTipHeight, ancestorHeight, heightsAbove ancestorHeight oldTipHeight⟩ := by
  obtain ⟨_, -, h⟩ := bind_eq_ok.mp h
  obtain ⟨_, h₁, h⟩ := bind_eq_ok.mp h
  obtain ⟨_, h₂, h⟩ := bind_eq_ok.mp h
  exact ⟨by simpa using h₁, by simpa using h₂, (pure_eq_ok.mp h).symm⟩

theorem le_foldl_max (l : List ℕ) (n : ℕ) : n ≤ l.foldl max n ∧ ∀ m ∈ l, m ≤ l.foldl max n := by
  induction l generalizing n with
  | nil => simp
  | cons a l ih =>
    obtain ⟨h₁, h₂⟩ := ih (max n a)
    refine ⟨(le_max_left n a).trans h₁, fun m hm => ?_⟩
    rcases List.mem_cons.mp hm with rfl | hm
    · exact (le_max_right n m).trans h₁
    · exact h₂ m hm

theorem nextReorgId_new {db : Db} {row : ReorgRow} (hrow : row ∈ db.reorgs) : row.id ≠ nextReorgId db := by
  have h := (le_foldl_max (db.reorgs.map ReorgRow.id) 0).2 row.id (List.mem_map_of_mem hrow)
  unfold nextReorgId
  omega

/-- **What a rollback does.** It goes through exactly when nothing moved, the blocks can be disconnected
and the row of the journal fits. -/
theorem rollback_eq_ok {plan : ReorgPlan} {journal : ReorgJournal} {db db' : Db} :
    rollback plan journal db = .ok db' ↔ Unmoved plan journal db ∧
      ∃ d, plan.rollbackHeights.foldlM rollbackBlock db = .ok d ∧ reorgs.fits (reorgRow plan journal d) = true ∧
        db' = withReorgs (d.reorgs ++ [reorgRow plan journal d]) d := by
  unfold rollback Unmoved
  simp only [bind_eq_ok, ensure_eq_ok, Option.any_eq_true, Option.all_eq_true, decide_eq_true_eq, exists_const]
  constructor
  · rintro ⟨htip, hancestor, d, hd, h⟩
    obtain ⟨hfits, -, -, rfl⟩ := reorgs.insert_eq_ok.mp h
    exact ⟨⟨htip, hancestor⟩, d, hd, hfits, rfl⟩
  · rintro ⟨⟨htip, hancestor⟩, d, hd, hfits, rfl⟩
    refine ⟨htip, hancestor, d, hd, reorgs.insert_eq_ok.mpr ⟨hfits, fun row hrow => ?_, rfl, rfl⟩⟩
    simpa [reorgs, reorgRow] using nextReorgId_new hrow

section

variable {chain : List BitcoinBlock} {db : Db}

/-- The tip of a database that holds a chain is the newest block. -/
theorem Holds.tip (h : Holds packages binding chain db) {tip : BlockRow} (ht : tipRow db = some tip) :
    ∃ block rest, chain = block :: rest ∧ tip.height = block.height ∧ tip.hash = block.hash := by
  obtain ⟨index, replay, htab⟩ := h
  have htip := replay.canonicalTip
  rw [canonicalTip_tables htab, canonicalTip, ht] at htip
  cases chain with
  | nil => simp at htip
  | cons block rest =>
    simp only [Option.map_some, List.head?_cons, Option.some.injEq, CanonicalTip.mk.injEq] at htip
    exact ⟨block, rest, rfl, htip.1, htip.2.1⟩

/-- The INIT of a database that holds a chain is at the height of the oldest block. -/
theorem Holds.initHeight (h : Holds packages binding chain db) {init : InitActivation}
    (hinit : loadActivation db = some init) {first : BitcoinBlock} (hfirst : chain.getLast? = some first) :
    init.height = first.height := by
  obtain ⟨index, replay, htab⟩ := h
  rw [← loadActivation_tables htab, replay.loadActivation.1] at hinit
  obtain ⟨first', hlast, hheight, -⟩ := replay.activation hinit
  rw [hheight, Option.some.inj (hlast.symm.trans hfirst)]

/-- **Disconnecting** the blocks above the ancestor goes through and leaves the blocks up to it. -/
theorem Holds.disconnect (h : Holds packages binding chain db) {init : InitActivation}
    (hinit : loadActivation db = some init) {oldTipHeight : ℕ} {ancestorHeight : ℤ} {plan : ReorgPlan}
    (plans : planReorgRollback oldTipHeight ancestorHeight init.height = .ok plan) {tip : BlockRow}
    (ht : tipRow db = some tip) (hheight : tip.height = plan.oldTipHeight) :
    ∃ d, plan.rollbackHeights.foldlM rollbackBlock db = .ok d ∧ d.reorgs = db.reorgs ∧
      Holds packages binding (upTo ancestorHeight chain) d := by
  obtain ⟨hlow, -, rfl⟩ := planReorgRollback_ok plans
  obtain ⟨block, rest, rfl, hb, -⟩ := h.tip ht
  have hfirst : ∀ first, (block :: rest).getLast? = some first → (first.height : ℤ) - 1 ≤ ancestorHeight :=
    fun first hf => h.initHeight hinit hf ▸ hlow
  obtain ⟨index, replay, htab⟩ := h
  obtain ⟨before, hbefore, hroll⟩ := replay.rollbackTo hfirst
  have hframed : Framed fun db => (heightsAbove ancestorHeight oldTipHeight).foldlM rollbackBlock db :=
    Framed.foldlM fun height _ => framed_rollbackBlock height
  have hgo := hframed.of_tables htab
  dsimp only at hgo hheight ⊢
  rw [← hheight, hb] at hgo ⊢
  rw [hroll] at hgo
  exact ⟨_, hgo, rfl, before, hbefore, rfl⟩

end

/-- **A rollback** that goes through leaves a database that holds the blocks up to the ancestor. -/
theorem Holds.rollback {chain : List BitcoinBlock} {db db' : Db} (h : Holds packages binding chain db)
    {init : InitActivation} (hinit : loadActivation db = some init) {oldTipHeight : ℕ} {ancestorHeight : ℤ}
    {plan : ReorgPlan} (plans : planReorgRollback oldTipHeight ancestorHeight init.height = .ok plan)
    {journal : ReorgJournal} (rolls : Indexer.rollback plan journal db = .ok db') :
    Holds packages binding (upTo ancestorHeight chain) db' := by
  obtain ⟨⟨⟨tip, ht, hheight, -⟩, -⟩, d, hd, -, rfl⟩ := rollback_eq_ok.mp rolls
  obtain ⟨d', hd', -, index, replay, htab⟩ := h.disconnect hinit plans ht hheight
  obtain rfl : d' = d := Except.ok.inj (hd'.symm.trans hd)
  exact ⟨index, replay, htab.trans rfl⟩

theorem Recorded.dropWhile {history : History} (h : Recorded packages binding history) (p : BitcoinBlock × Db → Bool) :
    Recorded packages binding (history.dropWhile p) :=
  fun entry rest hs => h entry rest (hs.trans (List.dropWhile_suffix p))

/-- **The store over any run** holds the blocks still connected, and so did every database of its history. -/
theorem Stored.recorded {history : History} {db : Db} (h : Stored packages binding history db) :
    Holds packages binding history.blocks db ∧ Recorded packages binding history := by
  induction h with
  | empty => exact ⟨⟨_, .empty, rfl⟩, fun entry rest hs => by simp at hs⟩
  | @append history db db' rows further reduced batches stored linked listed reduces batched appends ih =>
    obtain ⟨holds, recorded⟩ := ih
    obtain ⟨index, replay, htab, hsame⟩ := holds.read listed
    rw [appendBlocks_flatten, batched] at appends
    exact replay.extends hsame htab recorded linked reduces appends
  | @rollback history db db' init oldTipHeight ancestorHeight plan journal stored activated plans rolls ih =>
    refine ⟨?_, ih.2.dropWhile _⟩
    rw [History.blocks_dropWhile]
    exact ih.1.rollback activated plans rolls

theorem History.record_single {history : History} {block : BitcoinBlock} {reduced : ReducedBlock} {db db' : Db}
    (writes : writeBlock reduced db = .ok db') : history.record db [block] [reduced] = (block, db') :: history := by
  unfold History.record
  rw [writes]
  rfl

theorem Stored.next {history : History} {db db' : Db} {block : BitcoinBlock} {reduced : ReducedBlock}
    (stored : Stored packages binding history db) (follows : Follows block history.blocks)
    (reduces : (Cursor.read packages binding db db.objects).reduce packages binding block = .ok reduced)
    (writes : writeBlock reduced db = .ok db') : Stored packages binding ((block, db') :: history) db' := by
  have chained : reduceChain packages binding (.read packages binding db db.objects) [block] = .ok [reduced] :=
    bind_eq_ok.mpr ⟨reduced, reduces, rfl⟩
  have appends : [[reduced]].foldlM (fun db batch => appendBlocks batch db) db = .ok db' := by
    rw [appendBlocks_flatten]
    exact bind_eq_ok.mpr ⟨db', writes, rfl⟩
  exact History.record_single writes ▸
    .append stored ⟨follows, trivial⟩ (.refl db.objects) chained List.flatten_singleton appends

theorem Stored.single {block : BitcoinBlock} {reduced : ReducedBlock} {db : Db}
    (reduces : (Cursor.initial packages binding).reduce packages binding block = .ok reduced)
    (writes : writeBlock reduced Db.empty = .ok db) :
    ∃ history, Stored packages binding history db ∧ history.blocks = [block] :=
  ⟨[(block, db)], .next .empty trivial reduces writes, rfl⟩

end IndexTandem.Indexer
