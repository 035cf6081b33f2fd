import IndexTandem.Indexer.Rollback
import IndexTandem.Indexer.SyncReads
import Mathlib.Data.List.Chain

/-!
# Following a node

A node follows an arbitrary sequence of hash-linked chains, and answers a call from the
chain it follows at that moment, or fails. Whatever the node does, and wherever calls
fail and the process is restarted, the tables are those of the replay of some chain of
blocks that starts with the block of the configured INIT (`index_of_chain`).

Two invariants carry the argument. The database holds a chain after every call
(`Holds`), because it changes in one transaction per call. And between two ticks the
objects in memory are those of the database (`Fresh`), because every tick that fails
drops them.
-/

namespace IndexTandem.Indexer

open Library Protocol Database

/-! ### The node -/

/-- The blocks there are. A block hash determines its block. -/
structure World where
  /-- The block of a hash. -/
  block : Hash → Option BitcoinBlock
  /-- It has that hash. -/
  hash_block : ∀ {hash block'}, block hash = some block' → block'.hash = hash
  /-- The node keeps an index of all transactions. -/
  txindex : Bool

/-- Every block is the child of the next, one higher. -/
def Linked : List BitcoinBlock → Prop
  | [] => True
  | block :: rest => Follows block rest ∧ Linked rest

/-- A chain the node may follow; the newest block comes first. -/
structure World.IsChain (world : World) (node : List BitcoinBlock) : Prop where
  /-- Its blocks are blocks there are. -/
  known : ∀ block ∈ node, world.block block.hash = some block
  /-- They are linked, at their true heights. -/
  linked : Linked node
  /-- A transaction is in one block only. -/
  txids : (node.flatMap fun block => block.transactions.map BitcoinTransaction.txid).Nodup

/-- What is not under the control of the process. -/
structure Surroundings where
  /-- The chain the node follows. -/
  node : List BitcoinBlock
  /-- The node's mempool. -/
  mempool : List Hash
  /-- The database. -/
  db : Db

/-- The transaction is in the block. -/
def Contains (block : BitcoinBlock) (txid : Hash) : Prop := ∃ tx ∈ block.transactions, tx.txid = txid

/-- What a call may return, the surroundings being `s` when it is answered. -/
def World.Returns (world : World) (s : Surroundings) : (c : SyncCall) → c.Value → Prop
  | .getBlockchainInfo, info => ∃ tip, s.node.head? = some tip ∧ info.blocks = tip.height ∧ info.bestblockhash = tip.hash
  | .getBlockHash height, hash => ∃ block ∈ s.node, block.height = height ∧ block.hash = hash
  | .getBlock hash, block => world.block hash = some block
  | .getBlockTxids hash, txids =>
    ∃ block, world.block hash = some block ∧ txids = block.transactions.map BitcoinTransaction.txid
  | .getRawTransactionLocation txid, location => match location with
    | none => txid ∈ s.mempool
    | some hash => world.txindex = true ∧ ∃ block, world.block hash = some block ∧ Contains block txid
  | .getBlockHeader hash, header => ∃ block, world.block hash = some block ∧ header.height = block.height ∧
      (0 < header.confirmations ↔ block ∈ s.node)
  | .selectInit, init => init = loadActivation s.db
  | .canonicalTip, tip => tip = canonicalTip s.db
  | .selectObjects, objects => ∃ rows, rows.Perm s.db.objects ∧ objects = objectsOf s.db rows
  | .blockHash height, hash => hash = blockHash s.db height
  | .appendBlocks _, _ => True
  | .rollback _ _, _ => True
  | .stopping, _ => True

/-- A call is answered. The node may have moved to any chain in the meantime; a call that writes runs in
one transaction, and any call may fail. -/
structure World.Answers (world : World) (c : SyncCall) (s : Surroundings) (answer : Except String c.Value)
    (s' : Surroundings) : Prop where
  /-- The node follows a chain. -/
  chain : world.IsChain s'.node
  /-- A call that returns, returns what it may. -/
  returns : ∀ value, answer = .ok value → world.Returns s' c value
  /-- Reading a field of the process does not fail. -/
  fails : ∀ e, answer = .error e → c ≠ .stopping
  /-- A call that does not write leaves the database alone. -/
  reads : c.body = none → s'.db = s.db
  /-- A call that writes runs its transaction. -/
  writes : ∀ body, c.body = some body → ∃ fault, s'.db = (transaction fault body s.db).1 ∧
    ((∃ value, answer = .ok value) → (transaction fault body s.db).2 = .ok ())

/-- Between two ticks the node may move. -/
structure World.Moves (world : World) (s s' : Surroundings) : Prop where
  /-- To another chain. -/
  chain : world.IsChain s'.node
  /-- The database stays. -/
  db : s'.db = s.db

/-- The states of a process that is started with empty tables. -/
def World.Runs (world : World) (packages : Packages) (config : SyncConfiguration) (node : List BitcoinBlock)
    (mempool : List Hash) :
    Activity SyncCall SyncCall.Value String SyncMemory × Surroundings → Prop :=
  Turns world.Answers world.Moves (tick packages config) (SyncMemory.fresh config) ⟨node, mempool, Db.empty⟩

theorem Linked.descending {blocks : List BitcoinBlock} (h : Linked blocks) :
    blocks.Pairwise fun block earlier => earlier.height < block.height := by
  induction blocks with
  | nil => exact .nil
  | cons block blocks ih =>
    refine List.pairwise_cons.mpr ⟨fun earlier he => ?_, ih h.2⟩
    cases blocks with
    | nil => cases he
    | cons parent rest =>
      have hb : block.height = parent.height + 1 := h.1.2
      rcases List.mem_cons.mp he with rfl | he
      · omega
      · have := (List.pairwise_cons.mp (ih h.2)).1 earlier he
        omega

theorem World.IsChain.unique {world : World} {node : List BitcoinBlock} (h : world.IsChain node) {a b : BitcoinBlock} (ha : a ∈ node)
    (hb : b ∈ node) (heights : a.height = b.height) : a = b := by
  have hdesc := h.linked.descending
  have hnodup : (node.map BitcoinBlock.height).Nodup :=
    List.pairwise_map.mpr (hdesc.imp fun hlt => (ne_of_lt hlt).symm)
  exact List.inj_on_of_nodup_map hnodup ha hb heights

/-! ### Invariants -/

variable {world : World} {packages : Packages} {binding : Binding} {config : SyncConfiguration}

/-- The database holds some chain. -/
def Indexed (packages : Packages) (binding : Binding) (s : Surroundings) : Prop :=
  ∃ chain, Holds packages binding chain s.db

/-- The objects are those of the database. -/
def Current (packages : Packages) (binding : Binding) (objects : JsMap Hash ObjectRecord) (db : Db) : Prop :=
  ∃ chain index, Replay packages binding chain index ∧ tables index.db = tables db ∧
    JsMap.Same index.objects objects

/-- The objects in memory, if there are any, are those of the database. -/
def Cached (packages : Packages) (binding : Binding) (memory : SyncMemory) (s : Surroundings) : Prop :=
  ∀ objects, memory.objects = some objects → Current packages binding objects s.db

variable (world packages binding) in
/-- The action keeps the database indexed and ends in `post`. -/
abbrev Ends {α : Type} (x : Sync α) (post : Except String α → SyncMemory → Surroundings → Prop) (memory : SyncMemory)
    (s : Surroundings) : Prop :=
  x.wp world.Answers (Indexed packages binding) post memory s

variable {memory : SyncMemory} {s : Surroundings} {α β : Type}

theorem Indexed.of_db {s s' : Surroundings} (h : Indexed packages binding s) (hdb : s'.db = s.db) :
    Indexed packages binding s' := by
  obtain ⟨chain, holds⟩ := h
  exact ⟨chain, hdb ▸ holds⟩

theorem ends_read {c : SyncCall} (hc : c.body = none) (hs : Indexed packages binding s)
    {post : Except String c.Value → SyncMemory → Surroundings → Prop}
    (h : ∀ answer s', s'.db = s.db → world.IsChain s'.node → (∀ value, answer = .ok value → world.Returns s' c value) →
      post answer memory s') : Ends world packages binding (await c) post memory s :=
  fun answer s' ha => ⟨hs.of_db (ha.reads hc), h answer s' (ha.reads hc) ha.chain ha.returns⟩

/-- A transaction leaves the database alone, or goes through. -/
theorem transaction_cases (fault : Fault) (body : Db → Except String Db) (db : Db) :
    (transaction fault body db).1 = db ∨ body db = .ok (transaction fault body db).1 := by
  cases h : body db <;> cases fault <;> simp [transaction, h]

/-- A transaction that is reported to have gone through, did. -/
theorem transaction_done {fault : Fault} {body : Db → Except String Db} {db : Db}
    (h : (transaction fault body db).2 = .ok ()) : body db = .ok (transaction fault body db).1 := by
  cases hb : body db <;> cases fault <;> simp [transaction, hb] at h ⊢

/-! ### Actions that only read -/

variable (world packages binding) in
/-- The action leaves the database and the objects in memory alone. -/
def Quiet (x : Sync α) : Prop := ∀ memory s, Indexed packages binding s →
  Ends world packages binding x (fun _ memory' s' => s'.db = s.db ∧ memory'.objects = memory.objects) memory s

theorem frame_db : Action.Frame (fun s s' : Surroundings => s'.db = s.db) (Indexed packages binding) where
  refl _ := rfl
  trans h h' := h'.trans h
  keeps h hs := hs.of_db h

theorem Quiet.read {c : SyncCall} (hc : c.body = none) : Quiet world packages binding (await c) :=
  Action.Leaves.call frame_db fun _ _ _ ha => ha.reads hc

theorem quiet_locateInit (txid : Hash) (nodeHeight : ℕ) :
    Quiet world packages binding (locateInit config txid nodeHeight) :=
  leaves_locateInit frame_db (fun _ hc => Quiet.read hc) (fun _ _ => rfl) (fun _ => rfl) config txid nodeHeight

theorem quiet_searchAncestor (initHeight height : ℕ) :
    Quiet world packages binding (searchAncestor initHeight height) :=
  leaves_searchAncestor frame_db (fun _ hc => Quiet.read hc) initHeight height

theorem quiet_ancestorHashText (initHeight : ℕ) (ancestor : ℤ) :
    Quiet world packages binding (ancestorHashText initHeight ancestor) :=
  leaves_ancestorHashText frame_db (fun _ hc => Quiet.read hc) initHeight ancestor

theorem quiet_tipLeft (tip : CanonicalTip) (nodeHeight : ℕ) :
    Quiet world packages binding (tipLeft tip nodeHeight) :=
  leaves_tipLeft frame_db (fun _ hc => Quiet.read hc) tip nodeHeight

/-! ### Connecting blocks -/

/-- The blocks fetched are at the heights asked for, whatever the node did in between. -/
theorem ends_fetchBlocks (heights : List ℕ) (hs : Indexed packages binding s) :
    Ends world packages binding (fetchBlocks heights) (fun r memory' s' =>
      s'.db = s.db ∧ memory' = memory ∧ ∀ blocks, r = .ok blocks → blocks.map BitcoinBlock.height = heights)
      memory s := by
  induction heights generalizing s with
  | nil => exact ⟨rfl, rfl, by rintro blocks ⟨⟩; rfl⟩
  | cons height heights ih =>
    refine Action.wp_bind.mpr (ends_read rfl hs fun answer s₁ h₁ c₁ r₁ => ?_)
    cases answer with
    | error e => exact ⟨h₁, rfl, nofun⟩
    | ok hash =>
      refine Action.wp_bind.mpr (ends_read rfl (hs.of_db h₁) fun answer s₂ h₂ c₂ r₂ => ?_)
      cases answer with
      | error e => exact ⟨h₂.trans h₁, rfl, nofun⟩
      | ok block =>
        obtain ⟨known, hk, rfl, rfl⟩ := r₁ hash rfl
        obtain rfl : known = block := Option.some.inj ((c₁.known known hk).symm.trans (r₂ block rfl))
        refine Action.wp_bind.mpr (Action.wp_mono (ih (hs.of_db (h₂.trans h₁))) ?_)
        rintro (e | blocks) memory' s₃ ⟨h₃, rfl, hb⟩
        · exact ⟨h₃.trans (h₂.trans h₁), rfl, nofun⟩
        · refine ⟨h₃.trans (h₂.trans h₁), rfl, ?_⟩
          rintro all ⟨⟩
          rw [List.map_cons, hb blocks rfl]

/-- The batch was reduced from what the database holds, and its next block is the one at height `next`. -/
def Prepared (packages : Packages) (binding : Binding) (db : Db) (batch : Batch) (next : ℕ) : Prop :=
  ∃ chain : List BitcoinBlock, batch.previousHash = chain.head?.map BitcoinBlock.hash ∧
    (∀ parent, chain.head? = some parent → next = parent.height + 1) ∧
    ∀ db', Indexer.appendBlocks batch.reduced db = .ok db' →
      ∃ index, Replay packages binding chain index ∧ tables index.db = tables db' ∧
        SameCursor index.toCursor batch.toCursor

theorem Prepared.push {db : Db} {batch : Batch} {block : BitcoinBlock} (h : Prepared packages binding db batch block.height)
    (hlink : ¬(batch.previousHash.isSome ∧ block.previousBlockHash ≠ batch.previousHash)) {reduced : ReducedBlock}
    (hr : batch.reduce packages binding block = .ok reduced) :
    Prepared packages binding db (batch.push reduced) (block.height + 1) := by
  obtain ⟨chain, hprev, hnext, happ⟩ := h
  obtain ⟨_, _, _, _, _, _, hfin⟩ := reduceBlock_ok hr
  obtain ⟨-, hhash, -⟩ := finishBlock_ok hfin
  refine ⟨block :: chain, congrArg some hhash, ?_, fun db' hdb => ?_⟩
  · rintro parent ⟨⟩
    rfl
  · obtain ⟨mid, hmid, hlast⟩ := foldlM_append_ok.mp hdb
    obtain ⟨d, hd, hdone⟩ := bind_eq_ok.mp hlast
    cases hdone
    obtain ⟨index, replay, htab, hsame⟩ := happ mid hmid
    have follows : Follows block chain := by
      cases chain with
      | nil => trivial
      | cons parent rest =>
        refine ⟨?_, hnext parent rfl⟩
        rw [hprev] at hlink
        simpa using hlink
    obtain ⟨next, hnext, hsame', htab'⟩ := replay.connects hsame htab follows hr hd
    exact ⟨next, hnext, htab', hsame'⟩

/-- Connecting fetched blocks keeps the batch prepared. -/
theorem ends_connectBlocks (blocks : List BitcoinBlock) {batch : Batch} {next : ℕ}
    (hb : Prepared packages binding s.db batch next)
    (hheights : blocks.map BitcoinBlock.height = List.range' next blocks.length) :
    Ends world packages binding (connectBlocks packages binding batch blocks) (fun r memory' s' =>
      s'.db = s.db ∧ memory'.objects = memory.objects ∧ ∀ batch', r = .ok batch' →
        ∃ next', Prepared packages binding s.db batch' next' ∧
          (batch'.broken = false → next' = next + blocks.length)) memory s := by
  induction blocks generalizing batch next memory with
  | nil => exact ⟨rfl, rfl, by rintro batch' ⟨⟩; exact ⟨next, hb, fun _ => rfl⟩⟩
  | cons block blocks ih =>
    rw [List.length_cons, List.range'_succ, List.map_cons, List.cons.injEq] at hheights
    obtain ⟨rfl, hrest⟩ := hheights
    have broken : Prepared packages binding s.db { batch with broken := true } block.height := hb
    unfold connectBlocks
    split_ifs with hlink hinit
    · exact ⟨rfl, rfl, by rintro batch' ⟨⟩; exact ⟨_, broken, nofun⟩⟩
    · exact ⟨rfl, rfl, by rintro batch' ⟨⟩; exact ⟨_, broken, nofun⟩⟩
    · refine Action.wp_bind.mpr (Action.wp_lift.mpr ?_)
      cases hr : batch.reduce packages binding block with
      | error e => exact ⟨rfl, rfl, nofun⟩
      | ok reduced =>
        refine Action.wp_mono (ih (hb.push hlink hr) hrest) ?_
        rintro r memory' s' ⟨hdb, hobj, hall⟩
        refine ⟨hdb, hobj, fun batch' hr => ?_⟩
        obtain ⟨next', hp, hn⟩ := hall batch' hr
        exact ⟨next', hp, fun h => (hn h).trans (by rw [List.length_cons]; omega)⟩

/-- The groups are the heights from `next` on, in order. -/
def Contiguous (next : ℕ) : List (List ℕ) → Prop
  | [] => True
  | heights :: rest => heights = List.range' next heights.length ∧ Contiguous (next + heights.length) rest

/-- The groups that are fetched together leave no height out. -/
theorem contiguous_fetchGroups (size turns start remaining : ℕ) :
    Contiguous start (fetchGroups size turns start remaining) := by
  induction turns generalizing start remaining with
  | zero => trivial
  | succ turns ih =>
    unfold fetchGroups
    split_ifs
    · trivial
    · refine ⟨by rw [List.length_range'], ?_⟩
      rw [List.length_range']
      exact ih _ _

/-- Connecting the groups keeps the batch prepared. -/
theorem ends_connectGroups (hs : Indexed packages binding s) (groups : List (List ℕ)) {batch : Batch} {next : ℕ}
    (hb : Prepared packages binding s.db batch next) (hg : batch.broken = false → Contiguous next groups) :
    Ends world packages binding (connectGroups packages binding batch groups) (fun r memory' s' =>
      s'.db = s.db ∧ memory'.objects = memory.objects ∧ ∀ batch', r = .ok batch' →
        ∃ next', Prepared packages binding s.db batch' next') memory s := by
  induction groups generalizing batch next memory s with
  | nil => exact ⟨rfl, rfl, by rintro batch' ⟨⟩; exact ⟨next, hb⟩⟩
  | cons heights groups ih =>
    refine Action.wp_bind.mpr (ends_read rfl hs fun answer s₁ h₁ _ _ => ?_)
    cases answer with
    | error e => exact ⟨h₁, rfl, nofun⟩
    | ok stopping =>
      dsimp only
      split_ifs with hstop
      · exact ⟨h₁, rfl, by rintro batch' ⟨⟩; exact ⟨next, hb⟩⟩
      · obtain ⟨hheights, hrest⟩ := hg (by simpa using (not_or.mp hstop).1)
        have hs₁ := hs.of_db h₁
        refine Action.wp_bind.mpr (Action.wp_mono (ends_fetchBlocks heights hs₁) ?_)
        rintro (e | blocks) memory₂ s₂ ⟨h₂, rfl, hblocks⟩
        · exact ⟨h₂.trans h₁, rfl, nofun⟩
        · have hmap := hblocks blocks rfl
          have hlen : blocks.length = heights.length := by rw [← hmap, List.length_map]
          have hdb : s₂.db = s.db := h₂.trans h₁
          have hb₂ : Prepared packages binding s₂.db batch next := hdb.symm ▸ hb
          refine Action.wp_bind.mpr (Action.wp_mono (ends_connectBlocks blocks hb₂ ?_) ?_)
          · rw [hlen, hmap]
            exact hheights
          · rintro (e | batch₃) memory₃ s₃ ⟨h₃, hobj, hall⟩
            · exact ⟨h₃.trans hdb, hobj, nofun⟩
            · obtain ⟨next₃, hb₃, hnext⟩ := hall batch₃ rfl
              rw [← h₃] at hb₃
              refine Action.wp_mono (ih ((hs₁.of_db h₂).of_db h₃) hb₃ fun hbroken => ?_) ?_
              · rw [hnext hbroken, hlen]
                exact hrest
              · rintro r memory₄ s₄ ⟨h₄, hobj₄, hall₄⟩
                rw [h₃.trans hdb] at hall₄
                exact ⟨h₄.trans (h₃.trans hdb), hobj₄.trans hobj, hall₄⟩

/-! ### A tick -/

theorem Cached.of_db {s s' : Surroundings} {memory' : SyncMemory} (h : Cached packages binding memory s)
    (hdb : s'.db = s.db) (hobj : memory'.objects = memory.objects) : Cached packages binding memory' s' := by
  intro objects ho
  rw [hdb]
  exact h objects (hobj.symm.trans ho)

/-- Loading the objects gives those of the database, from memory or from the tables. -/
theorem ends_loadObjects (hs : Indexed packages binding s) (hc : Cached packages binding memory s) :
    Ends world packages binding loadObjects (fun r memory' s' => s'.db = s.db ∧ ∀ objects, r = .ok objects →
      memory'.objects = some objects ∧ Current packages binding objects s.db) memory s := by
  unfold loadObjects
  refine Action.wp_bind.mpr (Action.wp_get.mpr ?_)
  dsimp only
  cases hm : memory.objects with
  | some objects => exact ⟨rfl, by rintro _ ⟨⟩; exact ⟨hm, hc objects hm⟩⟩
  | none =>
    refine Action.wp_bind.mpr (ends_read rfl hs fun answer s₁ h₁ _ r₁ => ?_)
    cases answer with
    | error e => exact ⟨h₁, nofun⟩
    | ok objects =>
      refine ⟨h₁, ?_⟩
      rintro _ ⟨⟩
      obtain ⟨rows, hrows, rfl⟩ := r₁ objects rfl
      rw [h₁] at hrows
      obtain ⟨chain, holds⟩ := hs
      obtain ⟨index, replay, htab, hsame⟩ := holds.read hrows
      exact ⟨rfl, chain, index, replay, htab, h₁ ▸ hsame.objects⟩

/-- What is left after the blocks are connected: they are written and the objects kept. -/
theorem ends_append (hs : Indexed packages binding s) {batch : Batch} {next : ℕ}
    (hb : Prepared packages binding s.db batch next) {more : Bool} :
    Ends world packages binding (do
      let _ : Unit ← await (.appendBlocks batch.reduced)
      modify fun memory => { memory with
        objects := some batch.objects
        state := memory.state.setActivation batch.activation true }
      pure more) (fun r memory' s' => (∃ more, r = .ok more) → Cached packages binding memory' s') memory s := by
  refine Action.wp_bind.mpr fun answer s' ha => ?_
  obtain ⟨fault, hdb, hdone⟩ := ha.writes _ rfl
  obtain ⟨chain, -, -, happ⟩ := hb
  refine ⟨?_, ?_⟩
  · rcases transaction_cases fault (Indexer.appendBlocks batch.reduced) s.db with h | h
    · exact hs.of_db (hdb.trans h)
    · obtain ⟨index, replay, htab, -⟩ := happ _ h
      exact ⟨chain, index, replay, hdb ▸ htab⟩
  · cases answer with
    | error e => exact nofun
    | ok value =>
      obtain ⟨index, replay, htab, hsame⟩ := happ _ (transaction_done (hdone ⟨value, rfl⟩))
      rintro - objects ⟨⟩
      exact ⟨chain, index, replay, hdb ▸ htab, hsame.objects⟩

/-- Connecting a batch keeps the invariants. -/
theorem ends_connectBatch (hs : Indexed packages binding s) (hc : Cached packages binding memory s)
    {activation : Option InitActivation} (ha : activation = loadActivation s.db) {tip : Option CanonicalTip}
    (ht : tip = canonicalTip s.db) {first nodeHeight : ℕ} (hfirst : ∀ t, tip = some t → first = t.height + 1) :
    Ends world packages binding (connectBatch packages config binding activation tip first nodeHeight)
      (fun r memory' s' => (∃ more, r = .ok more) → Cached packages binding memory' s') memory s := by
  unfold connectBatch
  refine Action.wp_bind.mpr (Action.wp_mono (ends_loadObjects hs hc) ?_)
  rintro (e | objects) memory₁ s₁ ⟨h₁, hobjects⟩
  · exact nofun
  obtain ⟨hmem, chain, index, replay, htab, hsame⟩ := hobjects objects rfl
  have htip := replay.canonicalTip
  rw [canonicalTip_tables htab, ← ht] at htip
  have hroot : (tip.map CanonicalTip.chainedRoot).getD (initialStateRoot packages.sha256 binding.ns) = index.root := by
    rw [htip]
    cases chain with
    | nil =>
      cases replay
      rfl
    | cons block rest => rfl
  have hcursor : SameCursor index.toCursor
      ⟨activation, (tip.map CanonicalTip.chainedRoot).getD (initialStateRoot packages.sha256 binding.ns), objects⟩ :=
    ⟨by rw [ha, ← loadActivation_tables htab]; exact replay.loadActivation.1.symm, hroot.symm, hsame⟩
  have hprepared : Prepared packages binding s₁.db
      ⟨⟨activation, (tip.map CanonicalTip.chainedRoot).getD (initialStateRoot packages.sha256 binding.ns), objects⟩, [],
        tip.map CanonicalTip.hash, false⟩ first := by
    refine ⟨chain, ?_, fun parent hp => ?_, fun db' hdb => ?_⟩
    · rw [htip]
      cases chain <;> rfl
    · rw [hp] at htip
      exact hfirst _ htip
    · obtain rfl := pure_eq_ok.mp hdb
      exact ⟨index, replay, h₁ ▸ htab, hcursor⟩
  refine Action.wp_bind.mpr (Action.wp_mono (ends_connectGroups (hs.of_db h₁) _ hprepared fun _ =>
    contiguous_fetchGroups _ _ _ _) ?_)
  rintro (e | batch) memory₂ s₂ ⟨h₂, hobj₂, hbatch⟩
  · exact nofun
  obtain ⟨next, hnext⟩ := hbatch batch rfl
  have hs₂ : Indexed packages binding s₂ := hs.of_db (h₂.trans h₁)
  dsimp only
  split_ifs
  · -- Nothing was connected: the objects are still those of the database.
    rintro - objects' ho
    obtain rfl : objects = objects' := Option.some.inj (hmem.symm.trans (hobj₂.symm.trans ho))
    rw [h₂, h₁]
    exact ⟨chain, index, replay, htab, hsame⟩
  · rw [← h₂] at hnext
    exact ends_append hs₂ hnext

/-- Disconnecting the blocks above the common ancestor keeps the invariants. -/
theorem ends_rollback (hs : Indexed packages binding s) {init : InitActivation}
    (hinit : loadActivation s.db = some init) (tipHeight : ℕ) (tipHash : Hash) :
    Ends world packages binding (rollbackToCommonAncestor tipHeight tipHash init.height)
      (fun r memory' s' => (∃ u, r = .ok u) → Cached packages binding memory' s') memory s := by
  refine Action.wp_bind.mpr (Action.wp_mono (quiet_searchAncestor init.height tipHeight memory s hs) ?_)
  rintro (e | ancestor) memory₁ s₁ ⟨h₁, -⟩
  · exact nofun
  refine Action.wp_bind.mpr (Action.wp_mono (quiet_ancestorHashText init.height ancestor memory₁ s₁ (hs.of_db h₁)) ?_)
  rintro (e | ancestorHash) memory₂ s₂ ⟨h₂, -⟩
  · exact nofun
  have hs₂ : Indexed packages binding s₂ := hs.of_db (h₂.trans h₁)
  refine Action.wp_bind.mpr (ends_read rfl hs₂ fun answer s₃ h₃ _ _ => ?_)
  cases answer with
  | error e => exact nofun
  | ok info =>
    refine Action.wp_bind.mpr (Action.wp_lift.mpr ?_)
    cases hplan : planReorgRollback tipHeight ancestor init.height with
    | error e => exact nofun
    | ok plan =>
      refine Action.wp_bind.mpr fun answer s₄ ha => ?_
      obtain ⟨fault, hdb, -⟩ := ha.writes _ rfl
      have hs₃ := hs₂.of_db h₃
      refine ⟨?_, ?_⟩
      · rcases transaction_cases fault (Indexer.rollback plan _) s₃.db with h | h
        · exact hs₃.of_db (hdb.trans h)
        · obtain ⟨chain, holds⟩ := hs₃
          rw [h₃.trans (h₂.trans h₁)] at holds h
          exact ⟨_, hdb ▸ (h₃.trans (h₂.trans h₁)).symm ▸ holds.rollback hinit hplan h⟩
      · cases answer with
        | error e => exact nofun
        | ok value => exact fun _ _ ho => nomatch ho

/-- One step of the service keeps the invariants. -/
theorem ends_syncBound (hs : Indexed packages binding s) (hc : Cached packages binding memory s) (nodeHeight : ℕ) :
    Ends world packages binding (syncBound packages config binding nodeHeight)
      (fun r memory' s' => (∃ more, r = .ok more) → Cached packages binding memory' s') memory s := by
  have forward : ∀ {memory : SyncMemory} {s : Surroundings}, Indexed packages binding s →
      Cached packages binding memory s → ∀ {activation tip}, activation = loadActivation s.db →
      tip = canonicalTip s.db → Ends world packages binding (syncForward packages config binding activation tip nodeHeight)
        (fun r memory' s' => (∃ more, r = .ok more) → Cached packages binding memory' s') memory s := by
    intro memory s hs hc activation tip ha ht
    cases activation with
    | some init =>
      refine ends_connectBatch hs hc ha ht ?_
      rintro t rfl
      rfl
    | none =>
      -- Without an INIT there is no block either.
      have hnone : tip = none := by
        obtain ⟨chain, index, replay, htab⟩ := hs
        rw [ht, ← canonicalTip_tables htab, replay.canonicalTip]
        rw [← loadActivation_tables htab, replay.loadActivation.1] at ha
        rw [replay.loadActivation.2.mp ha.symm]
        rfl
      refine Action.wp_bind.mpr (Action.wp_mono (quiet_locateInit binding.initTxid nodeHeight memory s hs) ?_)
      rintro (e | initHeight) memory₁ s₁ ⟨h₁, hobj⟩
      · exact nofun
      cases initHeight with
      | none => exact fun _ => hc.of_db h₁ hobj
      | some height =>
        refine ends_connectBatch (hs.of_db h₁) (hc.of_db h₁ hobj) (h₁ ▸ ha) (h₁ ▸ ht) ?_
        rintro t ht
        exact nomatch hnone.symm.trans ht
  refine Action.wp_bind.mpr (ends_read rfl hs fun answer s₁ h₁ _ r₁ => ?_)
  cases answer with
  | error e => exact nofun
  | ok activation =>
    refine Action.wp_bind.mpr (Action.wp_modify.mpr ?_)
    refine Action.wp_bind.mpr (ends_read rfl (hs.of_db h₁) fun answer s₂ h₂ _ r₂ => ?_)
    cases answer with
    | error e => exact nofun
    | ok tip =>
      have ha : activation = loadActivation s₂.db := (r₁ activation rfl).trans (congrArg _ h₂.symm)
      have ht : tip = Indexer.canonicalTip s₂.db := r₂ tip rfl
      have hs₂ : Indexed packages binding s₂ := hs.of_db (h₂.trans h₁)
      have hc₂ : Cached packages binding { memory with state := { memory.state.setActivation activation true with
          initConfigMismatch := checkConfiguredHeights config.deployment activation } } s₂ :=
        hc.of_db (h₂.trans h₁) rfl
      cases tip with
      | none => exact forward hs₂ hc₂ ha ht
      | some tip' =>
        cases activation with
        | none => exact forward hs₂ hc₂ ha ht
        | some init =>
          refine Action.wp_bind.mpr (Action.wp_mono (quiet_tipLeft tip' nodeHeight _ _ hs₂) ?_)
          rintro (e | left) memory₃ s₃ ⟨h₃, hobj⟩
          · exact nofun
          dsimp only
          split_ifs
          · refine Action.wp_bind.mpr (Action.wp_mono (ends_rollback (hs₂.of_db h₃) (h₃ ▸ ha.symm) _ _) ?_)
            rintro (e | u) memory₄ s₄ h
            · exact nofun
            · exact fun _ => h ⟨u, rfl⟩
          · exact forward (hs₂.of_db h₃) (hc₂.of_db h₃ hobj) (h₃ ▸ ha) (h₃ ▸ ht)

/-- **A tick keeps the invariants**, whatever is answered to its calls. -/
theorem ends_tick (hbinding : config.binding = some binding) (hs : Indexed packages binding s)
    (hc : Cached packages binding memory s) :
    Ends world packages binding (tick packages config) (fun _ memory' s' => Cached packages binding memory' s')
      memory s := by
  refine Action.wp_bind.mpr (ends_read rfl hs fun answer s₁ h₁ _ _ => ?_)
  cases answer with
  | error e => exact hc.of_db h₁ rfl
  | ok stopping =>
    dsimp only
    split_ifs
    · exact hc.of_db h₁ rfl
    · have hsync : Ends world packages binding (syncOnce packages config)
          (fun r memory' s' => (∃ more, r = .ok more) → Cached packages binding memory' s') memory s₁ := by
        refine Action.wp_bind.mpr (ends_read rfl (hs.of_db h₁) fun answer s₂ h₂ _ _ => ?_)
        cases answer with
        | error e => exact nofun
        | ok info =>
          refine Action.wp_bind.mpr (Action.wp_modify.mpr ?_)
          dsimp only
          split_ifs
          · exact nofun
          · rw [hbinding]
            refine ends_syncBound (hs.of_db (h₂.trans h₁)) ?_ _
            exact hc.of_db (h₂.trans h₁) rfl
      refine Action.wp_tryCatch.mpr (Action.wp_bind.mpr (Action.wp_mono hsync ?_))
      rintro (e | more) memory' s' h
      · exact nofun
      · exact (h ⟨more, rfl⟩).of_db rfl rfl

/-! ### Any run -/

/-- What the next block is reduced with, after some blocks. -/
def Cursor.advance (cursor : Cursor) (reduced : List ReducedBlock) : Cursor :=
  reduced.foldl (fun _ block => .after block) cursor

theorem reduceChain_append {cursor : Cursor} {blocks : List BitcoinBlock} {reduced : List ReducedBlock}
    (h : reduceChain packages binding cursor blocks = .ok reduced) {block : BitcoinBlock} {last : ReducedBlock}
    (hlast : (cursor.advance reduced).reduce packages binding block = .ok last) :
    reduceChain packages binding cursor (blocks ++ [block]) = .ok (reduced ++ [last]) := by
  induction blocks generalizing cursor reduced with
  | nil =>
    obtain rfl := pure_eq_ok.mp h
    exact bind_eq_ok.mpr ⟨last, hlast, rfl⟩
  | cons first blocks ih =>
    obtain ⟨r, hr, h⟩ := bind_eq_ok.mp h
    obtain ⟨later, hlater, h⟩ := bind_eq_ok.mp h
    cases h
    exact bind_eq_ok.mpr ⟨r, hr, bind_eq_ok.mpr ⟨_, ih hlater hlast, rfl⟩⟩

/-- The blocks of a list, oldest first, are hash-linked, each one higher than the one before. -/
def HashLinked (blocks : List BitcoinBlock) : Prop :=
  blocks.IsChain fun parent block => block.previousBlockHash = some parent.hash ∧ block.height = parent.height + 1

/-- **A replay is the fold** of `reduceBlock` over its blocks, written from empty tables. -/
theorem Replay.folded {chain : List BitcoinBlock} {index : Index} (h : Replay packages binding chain index) :
    HashLinked chain.reverse ∧ ∃ reduced,
      reduceChain packages binding (.initial packages binding) chain.reverse = .ok reduced ∧
      (Cursor.initial packages binding).advance reduced = index.toCursor ∧
      Indexer.appendBlocks reduced Db.empty = .ok index.db := by
  induction h with
  | empty => exact ⟨.nil, [], rfl, rfl, rfl⟩
  | @connect chain index block reduced db replay follows reduces writes ih =>
    obtain ⟨hlinked, before, hchain, hcursor, happ⟩ := ih
    rw [List.reverse_cons]
    refine ⟨?_, before ++ [reduced], reduceChain_append hchain (hcursor ▸ reduces), ?_, ?_⟩
    · refine List.isChain_append.mpr ⟨hlinked, .singleton _, ?_⟩
      intro parent hparent b hb
      cases chain with
      | nil => simp at hparent
      | cons p rest =>
        obtain rfl : p = parent := by simpa using hparent
        obtain rfl : block = b := by simpa using hb
        exact follows
    · simp [Cursor.advance, Index.next]
    · exact foldlM_append_ok.mpr ⟨index.db, happ, bind_eq_ok.mpr ⟨db, writes, rfl⟩⟩

theorem Indexed.folded (h : Indexed packages binding s) :
    ∃ blocks reduced db, HashLinked blocks ∧ (∀ first, blocks.head? = some first → Contains first binding.initTxid) ∧
      reduceChain packages binding (.initial packages binding) blocks = .ok reduced ∧
      Indexer.appendBlocks reduced Db.empty = .ok db ∧ tables s.db = tables db := by
  obtain ⟨chain, index, replay, htab⟩ := h
  obtain ⟨hlinked, reduced, hreduce, -, happ⟩ := replay.folded
  refine ⟨chain.reverse, reduced, index.db, hlinked, fun first hf => ?_, hreduce, happ, htab.symm⟩
  rw [List.head?_reverse] at hf
  cases hact : index.activation with
  | none =>
    rw [replay.loadActivation.2.mp hact] at hf
    cases hf
  | some init =>
    obtain ⟨first', hlast, -, -, -, htx⟩ := replay.activation hact
    obtain rfl : first' = first := Option.some.inj (hlast.symm.trans hf)
    exact htx

/-- **Path independence.** However the node moved, whatever failed, and wherever the process was restarted:
the tables are those of a hash-linked list of blocks, the first with the configured INIT, reduced one after the
other from the initial root and written to empty tables. -/
theorem index_of_chain {binding : Binding} (hbinding : config.binding = some binding) {node : List BitcoinBlock}
    {mempool : List Hash} {activity : Activity SyncCall SyncCall.Value String SyncMemory} {s : Surroundings}
    (run : world.Runs packages config node mempool (activity, s)) :
    ∃ blocks reduced db, HashLinked blocks ∧ (∀ first, blocks.head? = some first → Contains first binding.initTxid) ∧
      reduceChain packages binding (.initial packages binding) blocks = .ok reduced ∧
      Indexer.appendBlocks reduced Db.empty = .ok db ∧ tables s.db = tables db := by
  have hinv := Turn.invariant (I := Indexed packages binding) (J := Cached packages binding)
    (fun m s hs hc => ends_tick hbinding hs hc) (fun s _ objects ho => by simp [SyncMemory.fresh] at ho)
    (fun m s s' moved hs hc => ⟨hs.of_db moved.db, hc.of_db moved.db rfl⟩)
    ⟨[], _, .empty, rfl⟩ run
  exact hinv.inv.folded

/-! ### A run to evaluate -/

/-- A node that neither moves nor fails, and that has no index of transactions. -/
def World.reply (world : World) (chain : String) (c : SyncCall) (s : Surroundings) :
    Except String c.Value × Surroundings :=
  match c with
  | .getBlockchainInfo =>
    (orError "no block" (s.node.head?.map fun tip => ⟨chain, tip.height, tip.hash, false⟩), s)
  | .getBlockHash height =>
    (orError "Block height out of range" ((s.node.find? fun block => block.height = height).map BitcoinBlock.hash), s)
  | .getBlock hash => (orError "Block not found" (world.block hash), s)
  | .getBlockTxids hash => (orError "Block not found" ((world.block hash).map fun block =>
      block.transactions.map BitcoinTransaction.txid), s)
  | .getRawTransactionLocation txid =>
    (if txid ∈ s.mempool then .ok none else .error "No such mempool transaction", s)
  | .getBlockHeader hash => (orError "Block not found" ((world.block hash).map fun block =>
      ⟨block.height, if block ∈ s.node then 1 else -1⟩), s)
  | .selectInit => (.ok (loadActivation s.db), s)
  | .canonicalTip => (.ok (Indexer.canonicalTip s.db), s)
  | .selectObjects => (.ok (objectsOf s.db s.db.objects), s)
  | .blockHash height => (.ok (Indexer.blockHash s.db height), s)
  | .appendBlocks blocks =>
    let done := transaction .none (Indexer.appendBlocks blocks) s.db
    (done.2, { s with db := done.1 })
  | .rollback plan journal =>
    let done := transaction .none (Indexer.rollback plan journal) s.db
    (done.2, { s with db := done.1 })
  | .stopping => (.ok false, s)

theorem World.reply_answers (chain : String) (c : SyncCall) (s : Surroundings) (hs : world.IsChain s.node) :
    world.Answers c s (world.reply chain c s).1 (world.reply chain c s).2 ∧
      world.IsChain (world.reply chain c s).2.node := by
  have hnode : (world.reply chain c s).2.node = s.node := by cases c <;> rfl
  refine ⟨⟨hnode ▸ hs, fun value hv => ?_, fun e he => ?_, fun hc => ?_, fun body hc => ?_⟩, hnode ▸ hs⟩
  · cases c with
    | getBlockchainInfo =>
      obtain ⟨tip, ht, rfl⟩ := Option.map_eq_some_iff.mp (orError_eq_ok.mp hv)
      exact ⟨tip, ht, rfl, rfl⟩
    | getBlockHash height =>
      obtain ⟨block, hf, rfl⟩ := Option.map_eq_some_iff.mp (orError_eq_ok.mp hv)
      exact ⟨block, List.mem_of_find?_eq_some hf, by simpa using List.find?_some hf, rfl⟩
    | getBlock hash => exact orError_eq_ok.mp hv
    | getBlockTxids hash =>
      obtain ⟨block, hb, rfl⟩ := Option.map_eq_some_iff.mp (orError_eq_ok.mp hv)
      exact ⟨block, hb, rfl⟩
    | getRawTransactionLocation txid =>
      simp only [World.reply] at hv ⊢
      split_ifs at hv with hm
      cases hv
      exact hm
    | getBlockHeader hash =>
      obtain ⟨block, hb, rfl⟩ := Option.map_eq_some_iff.mp (orError_eq_ok.mp hv)
      refine ⟨block, hb, rfl, ?_⟩
      by_cases hm : block ∈ s.node <;> simp [World.reply, hm]
    | selectInit => exact (Except.ok.inj hv).symm
    | canonicalTip => exact (Except.ok.inj hv).symm
    | selectObjects => exact ⟨_, .refl _, (Except.ok.inj hv).symm⟩
    | blockHash height => exact (Except.ok.inj hv).symm
    | appendBlocks blocks => trivial
    | rollback plan journal => trivial
    | stopping => trivial
  · rintro rfl
    cases he
  · cases c <;> first | rfl | cases hc
  · cases c with
    | appendBlocks blocks =>
      cases hc
      exact ⟨.none, rfl, fun ⟨value, hv⟩ => hv⟩
    | rollback plan journal =>
      cases hc
      exact ⟨.none, rfl, fun ⟨value, hv⟩ => hv⟩
    | _ => cases hc

/-- The deployment of the sample blocks. -/
def sampleConfig : SyncConfiguration where
  deployment := ⟨.mainnet, some (sampleHash 1), none, none, none, Hash.zero, some Hash.zero⟩
  expectedChain := "main"
  initScanDepth := 1
  batchBlocks := 5
  fetchConcurrency := 2
  batchBlocks_pos := by decide
  fetchConcurrency_pos := by decide

/-- The sample blocks. -/
def sampleWorld : World where
  block hash := [sampleNextBlock, sampleInitBlock].find? fun block => block.hash = hash
  hash_block h := by simpa using List.find?_some h
  txindex := false

theorem sampleWorld_isChain : sampleWorld.IsChain [sampleNextBlock, sampleInitBlock] where
  known := by decide +kernel
  linked := ⟨⟨rfl, rfl⟩, trivial, trivial⟩
  txids := by decide +kernel

/-- What is left of the first tick after enough calls, and the surroundings then. -/
def sampleRun : Interact SyncCall (fun c => Except String c.Value) (Except String Unit × SyncMemory) × Surroundings :=
  (tick samplePackages sampleConfig (.fresh sampleConfig)).drive (sampleWorld.reply "main") 40
    ⟨[sampleNextBlock, sampleInitBlock], [], Db.empty⟩

theorem sampleRun_runs : sampleWorld.Runs samplePackages sampleConfig [sampleNextBlock, sampleInitBlock] []
    (.busy sampleRun.1, sampleRun.2) :=
  .head (.starts _ _) (Turn.drive (fun s => sampleWorld.IsChain s.node)
    (fun c s hs => World.reply_answers "main" c s hs) 40 _ sampleWorld_isChain)

/-- The first tick finds the INIT and connects both blocks. -/
theorem index_of_chain_sample : sampleRun.2.db.blocks.length = 2 ∧
    ∃ blocks reduced db, HashLinked blocks ∧
      (∀ first, blocks.head? = some first → Contains first sampleBinding.initTxid) ∧
      reduceChain samplePackages sampleBinding (.initial samplePackages sampleBinding) blocks = .ok reduced ∧
      Indexer.appendBlocks reduced Db.empty = .ok db ∧ tables sampleRun.2.db = tables db :=
  ⟨by decide +kernel, index_of_chain rfl sampleRun_runs⟩

end IndexTandem.Indexer
