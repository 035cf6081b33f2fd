import IndexTandem.Indexer.Store
import IndexTandem.Indexer.Replay
import IndexTandem.Library.Interact

/-!
# The sync service

`SyncService` follows the best chain of a node: every tick runs one bounded step, which
disconnects blocks that are no longer in the chain, looks for the configured INIT, or
connects the next batch of blocks. The service is modelled call by call, because the
node's chain may change between any two calls, any call may fail, and the process may be
restarted between any two.

The requests of one group of blocks run concurrently in the source. They are made one
after the other here, with the node free to change its chain before each answer.
-/

namespace IndexTandem.Indexer

open Library Protocol Database

/-! ### Configuration -/

/-- `DeploymentConfiguration`. -/
structure DeploymentConfiguration where
  /-- The network. -/
  networkCode : NetworkCode
  /-- The configured INIT, when there is one. -/
  initTxid : Option Hash
  /-- The height the operator expects the INIT at. -/
  initHeight : Option ℕ
  /-- The first founding height the operator expects. -/
  openHeight : Option ℕ
  /-- The first height after the founding window the operator expects. -/
  closeHeight : Option ℕ
  /-- The spec hash. -/
  specHash : Hash
  /-- The namespace of the protocol instance. -/
  ns : Option Hash

/-- The configuration of the service; the sizes are at least one. -/
structure SyncConfiguration where
  /-- The deployment. -/
  deployment : DeploymentConfiguration
  /-- The chain the node has to be on. -/
  expectedChain : String
  /-- How far back to look for the INIT. -/
  initScanDepth : ℕ
  /-- The blocks of a batch. -/
  batchBlocks : ℕ
  /-- The blocks fetched together. -/
  fetchConcurrency : ℕ
  /-- There is at least one block in a batch. -/
  batchBlocks_pos : 0 < batchBlocks
  /-- At least one block is fetched. -/
  fetchConcurrency_pos : 0 < fetchConcurrency

/-- `binding()`. -/
def SyncConfiguration.binding (config : SyncConfiguration) : Option Binding :=
  match config.deployment.initTxid, config.deployment.ns with
  | some initTxid, some ns => some ⟨config.deployment.networkCode, initTxid, config.deployment.specHash, ns⟩
  | _, _ => none

/-! ### The state of the deployment -/

/-- `InitPhase`. -/
inductive InitPhase where
  /-- No INIT is configured. -/
  | unconfigured
  /-- It has not confirmed. -/
  | awaiting_init
  /-- It confirmed and is valid. -/
  | active
  /-- It confirmed and is not valid. -/
  | failed_init
  deriving DecidableEq

/-- `NodeTip`. -/
structure NodeTip where
  /-- The node's chain. -/
  chain : String
  /-- The height of its tip. -/
  height : ℕ
  /-- The tip. -/
  hash : Hash
  /-- It is still downloading. -/
  initialBlockDownload : Bool
  deriving DecidableEq

/-- `DeploymentStateService`. -/
structure DeploymentState where
  /-- The phase. -/
  phase : InitPhase
  /-- The INIT. -/
  activation : Option InitActivation
  /-- The INIT was seen in the mempool. -/
  initSeenInMempool : Bool
  /-- What the configuration says about the INIT and the chain does not. -/
  initConfigMismatch : Option String
  /-- The node. -/
  node : Option NodeTip
  /-- The last error. -/
  lastError : Option String

/-- `setActivation(activation, configuredInit)`. -/
def DeploymentState.setActivation (state : DeploymentState) (activation : Option InitActivation)
    (configuredInit : Bool) : DeploymentState := { state with
  activation := activation
  phase :=
    if configuredInit = false then .unconfigured
    else match activation with
      | none => .awaiting_init
      | some init => if init.valid then .active else .failed_init
  initSeenInMempool := if activation.isSome then false else state.initSeenInMempool }

/-- What the process keeps between two ticks. -/
structure SyncMemory where
  /-- The objects after the last block connected. -/
  objects : Option (JsMap Hash ObjectRecord)
  /-- Where the search for the INIT goes on. -/
  scanCursor : Option ℕ
  /-- The state of the deployment. -/
  state : DeploymentState

/-- `onApplicationBootstrap()`: what a new process starts with. -/
def SyncMemory.fresh (config : SyncConfiguration) : SyncMemory where
  objects := none
  scanCursor := none
  state := DeploymentState.setActivation ⟨.unconfigured, none, false, none, none, none⟩ none
    config.deployment.initTxid.isSome

/-! ### Calls -/

/-- `BlockchainInfo`. -/
structure BlockchainInfo where
  /-- The chain. -/
  chain : String
  /-- The height of the tip. -/
  blocks : ℕ
  /-- The tip. -/
  bestblockhash : Hash
  /-- The node is still downloading. -/
  initialblockdownload : Bool

/-- `BlockHeader`. -/
structure BlockHeader where
  /-- The height of the block. -/
  height : ℕ
  /-- Its depth; negative outside the best chain. -/
  confirmations : ℤ

/-- The calls a tick makes. -/
inductive SyncCall where
  /-- `rpc.getBlockchainInfo()`. -/
  | getBlockchainInfo
  /-- `rpc.getBlockHash(height)`. -/
  | getBlockHash (height : ℕ)
  /-- `rpc.getBlock(hash)`. -/
  | getBlock (hash : Hash)
  /-- `rpc.getBlockTxids(hash)`. -/
  | getBlockTxids (hash : Hash)
  /-- `rpc.getRawTransactionLocation(txid)`. -/
  | getRawTransactionLocation (txid : Hash)
  /-- `rpc.getBlockHeader(hash)`. -/
  | getBlockHeader (hash : Hash)
  /-- The query of `loadActivation()`. -/
  | selectInit
  /-- `store.canonicalTip()`. -/
  | canonicalTip
  /-- The query of `loadObjects()`. -/
  | selectObjects
  /-- `store.blockHash(height)`. -/
  | blockHash (height : ℤ)
  /-- `store.appendBlocks(blocks)`. -/
  | appendBlocks (blocks : List ReducedBlock)
  /-- `store.rollback(plan, journal)`. -/
  | rollback (plan : ReorgPlan) (journal : ReorgJournal)
  /-- Reading `this.stopping`, which the shutdown handler may set at any time. -/
  | stopping

/-- What the calls return. -/
def SyncCall.Value : SyncCall → Type
  | .getBlockchainInfo => BlockchainInfo
  | .getBlockHash _ => Hash
  | .getBlock _ => BitcoinBlock
  | .getBlockTxids _ => List Hash
  | .getRawTransactionLocation _ => Option Hash
  | .getBlockHeader _ => BlockHeader
  | .selectInit => Option InitActivation
  | .canonicalTip => Option CanonicalTip
  | .selectObjects => JsMap Hash ObjectRecord
  | .blockHash _ => Option Hash
  | .appendBlocks _ => Unit
  | .rollback _ _ => Unit
  | .stopping => Bool

/-- The transaction a call runs. -/
def SyncCall.body : SyncCall → Option (Db → Except String Db)
  | .appendBlocks blocks => some (Indexer.appendBlocks blocks)
  | .rollback plan journal => some (Indexer.rollback plan journal)
  | _ => none

/-- An asynchronous method of the service. -/
abbrev Sync (α : Type) := Action SyncCall SyncCall.Value String SyncMemory α

/-- Await a call. -/
abbrev await (c : SyncCall) : Sync c.Value := Action.call c

/-! ### Reading the state -/

/-- `loadObjects()`. -/
def loadObjects : Sync (JsMap Hash ObjectRecord) := do
  let memory ← get
  match memory.objects with
  | some objects => pure objects
  | none => do
    let objects : JsMap Hash ObjectRecord ← await .selectObjects
    modify fun memory => { memory with objects := some objects }
    pure objects

/-- A nullable height in a text. -/
def heightText (height : Option ℕ) : String := height.elim "null" toString

/-- What is wrong with a height the operator expects. -/
def heightProblem (name where' : String) (expected actual : Option ℕ) : List String :=
  if expected.isSome ∧ expected ≠ actual then
    [name ++ " " ++ heightText expected ++ " != " ++ where' ++ " " ++ heightText actual]
  else []

/-- `checkConfiguredHeights(activation)`: the mismatch it leaves. -/
def checkConfiguredHeights (deployment : DeploymentConfiguration) (activation : Option InitActivation) :
    Option String :=
  match activation with
  | none => none
  | some init =>
    let problems := heightProblem "TANDEM_INIT_HEIGHT" "chain" deployment.initHeight (some init.height) ++
      heightProblem "TANDEM_OPEN_HEIGHT" "INIT" deployment.openHeight init.openHeight ++
      heightProblem "TANDEM_CLOSE_HEIGHT" "INIT" deployment.closeHeight init.closeHeight
    if problems = [] then none else some ("; ".intercalate problems)

/-! ### Locating the INIT -/

/-- `MAX_INIT_SCAN_PER_TICK`. -/
def MAX_INIT_SCAN_PER_TICK : ℕ := 50

/-- The block at a height holds the transaction: `getBlockTxids(getBlockHash(height)).includes(txid)`. -/
def blockHolds (txid : Hash) (height : ℕ) : Sync Bool := do
  let hash : Hash ← await (.getBlockHash height)
  let txids : List Hash ← await (.getBlockTxids hash)
  pure (txid ∈ txids)

/-- The first part of `locateInit`: the height the operator named. -/
def hintedInit (config : SyncConfiguration) (txid : Hash) (nodeHeight : ℕ) : Sync (Option ℕ) :=
  match config.deployment.initHeight with
  | none => pure none
  | some hint =>
    if hint ≤ nodeHeight then do
      let found ← blockHolds txid hint
      pure (if found then some hint else none)
    else pure none

/-- What the node says about a transaction. -/
inductive Lookup where
  /-- It is in the block at a height. -/
  | confirmed (height : ℕ)
  /-- It is in the mempool. -/
  | waiting
  /-- The node does not know. -/
  | unknown

/-- The second part of `locateInit`: the node's mempool and its index of transactions. -/
def lookupInit (txid : Hash) (nodeHeight : ℕ) : Sync Lookup :=
  tryCatch (do
    let location : Option Hash ← await (.getRawTransactionLocation txid)
    match location with
    | some blockhash => do
      let header : BlockHeader ← await (.getBlockHeader blockhash)
      pure (if header.confirmations > 0 then .confirmed header.height else .unknown)
    | none => do
      modify fun memory => { memory with
        state := { memory.state with initSeenInMempool := true }
        scanCursor := some (max (memory.scanCursor.getD 0) nodeHeight) }
      pure .waiting) fun _ => pure .unknown

/-- The loop of `locateInit`: at most `turns` further blocks from the cursor on. -/
def scanInit (txid : Hash) (nodeHeight : ℕ) : ℕ → Sync (Option ℕ)
  | 0 => pure none
  | turns + 1 => do
    let memory ← get
    let cursor := memory.scanCursor.getD 0
    if cursor ≤ nodeHeight then do
      let found ← blockHolds txid cursor
      if found then pure (some cursor)
      else do
        modify fun memory => { memory with scanCursor := some (cursor + 1) }
        scanInit txid nodeHeight turns
    else pure none

/-- `locateInit(txid, nodeHeight)`. -/
def locateInit (config : SyncConfiguration) (txid : Hash) (nodeHeight : ℕ) : Sync (Option ℕ) := do
  let hinted ← hintedInit config txid nodeHeight
  match hinted with
  | some height => pure (some height)
  | none => do
    let lookup ← lookupInit txid nodeHeight
    match lookup with
    | .confirmed height => pure (some height)
    | .waiting => pure none
    | .unknown => do
      modify fun memory => { memory with
        scanCursor := some (memory.scanCursor.getD (nodeHeight - config.initScanDepth)) }
      scanInit txid nodeHeight MAX_INIT_SCAN_PER_TICK

/-! ### Connecting a batch -/

/-- What `connectBatch` carries from block to block. -/
structure Batch extends Cursor where
  /-- The blocks reduced so far. -/
  reduced : List ReducedBlock
  /-- The hash the next block has to name as its parent. -/
  previousHash : Option Hash
  /-- The next block did not fit. -/
  broken : Bool

/-- The batch with one more block. -/
def Batch.push (batch : Batch) (reduced : ReducedBlock) : Batch where
  toCursor := .after reduced
  reduced := batch.reduced ++ [reduced]
  previousHash := some reduced.hash
  broken := batch.broken

/-- The value of `connectBatch`: there is more to do at once. -/
def Batch.more (batch : Batch) (behind : Bool) : Bool := if batch.broken then batch.activation.isSome else behind

/-- The blocks at some heights: `getBlock(getBlockHash(height))` for each. -/
def fetchBlocks : List ℕ → Sync (List BitcoinBlock)
  | [] => pure []
  | height :: rest => do
    let hash : Hash ← await (.getBlockHash height)
    let block : BitcoinBlock ← await (.getBlock hash)
    let blocks ← fetchBlocks rest
    pure (block :: blocks)

/-- The inner loop of `connectBatch`. -/
def connectBlocks (packages : Packages) (binding : Binding) (batch : Batch) : List BitcoinBlock → Sync Batch
  | [] => pure batch
  | block :: rest =>
    if batch.previousHash.isSome ∧ block.previousBlockHash ≠ batch.previousHash then
      pure { batch with broken := true }
    else if batch.activation = none ∧ ∀ tx ∈ block.transactions, tx.txid ≠ binding.initTxid then do
      modify fun memory => { memory with scanCursor := none }
      pure { batch with broken := true }
    else do
      let reduced ← Action.lift (batch.reduce packages binding block)
      connectBlocks packages binding (batch.push reduced) rest

/-- The groups of heights that are fetched together, `remaining` heights from `start` on. -/
def fetchGroups (size : ℕ) : ℕ → ℕ → ℕ → List (List ℕ)
  | 0, _, _ => []
  | turns + 1, start, remaining =>
    if remaining = 0 then []
    else List.range' start (min size remaining) ::
      fetchGroups size turns (start + min size remaining) (remaining - min size remaining)

/-- The outer loop of `connectBatch`. -/
def connectGroups (packages : Packages) (binding : Binding) (batch : Batch) : List (List ℕ) → Sync Batch
  | [] => pure batch
  | heights :: rest => do
    let stopping : Bool ← await .stopping
    if batch.broken ∨ stopping then pure batch
    else do
      let blocks ← fetchBlocks heights
      let batch ← connectBlocks packages binding batch blocks
      connectGroups packages binding batch rest

/-- `connectBatch(binding, activation, tip, firstHeight, nodeHeight)`. -/
def connectBatch (packages : Packages) (config : SyncConfiguration) (binding : Binding)
    (activation : Option InitActivation) (tip : Option CanonicalTip) (firstHeight nodeHeight : ℕ) : Sync Bool := do
  let lastHeight : ℤ := min (nodeHeight : ℤ) (firstHeight + config.batchBlocks - 1)
  let objects ← loadObjects
  let remaining := (lastHeight + 1 - firstHeight).toNat
  let batch ← connectGroups packages binding {
    activation := activation
    root := (tip.map CanonicalTip.chainedRoot).getD (initialStateRoot packages.sha256 binding.ns)
    objects := objects
    reduced := []
    previousHash := tip.map CanonicalTip.hash
    broken := false } (fetchGroups config.fetchConcurrency remaining firstHeight remaining)
  if batch.reduced = [] then pure (batch.more (lastHeight < nodeHeight))
  else do
    let _ : Unit ← await (.appendBlocks batch.reduced)
    modify fun memory => { memory with
      objects := some batch.objects
      state := memory.state.setActivation batch.activation true }
    pure (batch.more (lastHeight < nodeHeight))

/-! ### Following a reorganization -/

/-- The loop of `rollbackToCommonAncestor` over the heights below the given one. -/
def searchAncestor (initHeight : ℕ) : ℕ → Sync ℤ
  | 0 => pure ((initHeight : ℤ) - 1)
  | height + 1 =>
    if height < initHeight then pure ((initHeight : ℤ) - 1)
    else do
      let stored : Option Hash ← await (.blockHash height)
      let nodeHash : Option Hash ← tryCatch (do
        let hash : Hash ← await (.getBlockHash height)
        pure (some hash)) fun _ => pure none
      if stored.isSome ∧ stored = nodeHash then pure (height : ℤ) else searchAncestor initHeight height

/-- The hash of the ancestor for the journal; zeros when it is below the INIT. -/
def ancestorHashText (initHeight : ℕ) (ancestor : ℤ) : Sync String :=
  if ancestor ≥ initHeight then do
    let stored : Option Hash ← await (.blockHash ancestor)
    pure ((stored.map Hash.text).getD "")
  else pure Hash.zero.text

/-- `rollbackToCommonAncestor(tipHeight, tipHash, initHeight)`. -/
def rollbackToCommonAncestor (tipHeight : ℕ) (tipHash : Hash) (initHeight : ℕ) : Sync Unit := do
  let ancestor ← searchAncestor initHeight tipHeight
  let ancestorHash ← ancestorHashText initHeight ancestor
  let info : BlockchainInfo ← await .getBlockchainInfo
  let plan ← Action.lift (planReorgRollback tipHeight ancestor initHeight)
  let _ : Unit ← await (.rollback plan ⟨tipHash.text, ancestorHash, info.bestblockhash.text⟩)
  modify fun memory => { memory with objects := none, scanCursor := none }

/-! ### A tick -/

/-- The last part of `syncOnce`: connect from the INIT, or from after the tip, on. -/
def syncForward (packages : Packages) (config : SyncConfiguration) (binding : Binding)
    (activation : Option InitActivation) (tip : Option CanonicalTip) (nodeHeight : ℕ) : Sync Bool :=
  match activation with
  | none => do
    let initHeight ← locateInit config binding.initTxid nodeHeight
    match initHeight with
    | none => pure false
    | some height => connectBatch packages config binding none tip height nodeHeight
  | some init =>
    let next := (tip.map fun tip => tip.height + 1).getD init.height
    connectBatch packages config binding (some init) tip next nodeHeight

/-- The node's block at the height of the tip is not the tip, or there is none. -/
def tipLeft (tip : CanonicalTip) (nodeHeight : ℕ) : Sync Bool :=
  if tip.height ≤ nodeHeight then do
    let hash : Hash ← await (.getBlockHash tip.height)
    pure (hash ≠ tip.hash)
  else pure true

/-- `syncOnce()` for a configured INIT, after the node's chain was checked. -/
def syncBound (packages : Packages) (config : SyncConfiguration) (binding : Binding) (nodeHeight : ℕ) :
    Sync Bool := do
  let activation : Option InitActivation ← await .selectInit
  modify fun memory => { memory with state := { memory.state.setActivation activation true with
    initConfigMismatch := checkConfiguredHeights config.deployment activation } }
  let tip : Option CanonicalTip ← await .canonicalTip
  match tip, activation with
  | some tip', some init => do
    let left ← tipLeft tip' nodeHeight
    if left then do
      rollbackToCommonAncestor tip'.height tip'.hash init.height
      pure true
    else syncForward packages config binding activation tip nodeHeight
  | _, _ => syncForward packages config binding activation tip nodeHeight

/-- `syncOnce()`. -/
def syncOnce (packages : Packages) (config : SyncConfiguration) : Sync Bool := do
  let info : BlockchainInfo ← await .getBlockchainInfo
  modify fun memory => { memory with state := { memory.state with
    node := some ⟨info.chain, info.blocks, info.bestblockhash, info.initialblockdownload⟩ } }
  if info.chain ≠ config.expectedChain then
    throw ("Bitcoin Core chain " ++ info.chain ++ " does not match " ++ config.expectedChain)
  else
    match config.binding with
    | none => do
      modify fun memory => { memory with state := memory.state.setActivation none false }
      pure false
    | some binding => syncBound packages config binding info.blocks

/-- `tick()`; an error drops the objects. -/
def tick (packages : Packages) (config : SyncConfiguration) : Sync Unit := do
  let stopping : Bool ← await .stopping
  if stopping then pure ()
  else tryCatch (do
    let _ ← syncOnce packages config
    modify fun memory => { memory with state := { memory.state with lastError := none } }) fun message =>
      modify fun memory => { memory with
        objects := none
        state := { memory.state with lastError := some (String.ofList (message.toList.take 500)) } }

end IndexTandem.Indexer
