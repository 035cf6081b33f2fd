import IndexTandem.Config.Configuration
import IndexTandem.Indexer.SyncRuns

/-!
# Whose roots are signed

A process may be restarted with another configuration, over the tables that an earlier one
left. Nothing compares the INIT they name with the configured one: such a process extends
foreign tables and signs their roots under its own protocol id (`signed_for_another`).

When the binding changes only over tables without blocks, every signed tuple states a block of
the fold under the binding that its protocol id names (`signed_of_fold`).
-/

namespace IndexTandem.Agreement

open Library Protocol Database Indexer Config

variable {world : World} {packages : Packages} {binding : Binding}

/-! ### Configurations over time -/

/-- A configuration that was loaded, and the binding of the last process that had one. -/
structure Deployed (packages : Packages) where
  /-- The configuration. -/
  config : SyncConfiguration
  /-- It was loaded. -/
  loaded : ∃ env, loadDeployment packages.sha256 env = .ok config.deployment
  /-- The binding that the tables were written under, if any was. -/
  last : Option Binding
  /-- The process's own binding is the last one. -/
  current : ∀ binding, config.binding = some binding → last = some binding

/-- The configuration of a first process. -/
def Deployed.first {packages : Packages} (config : SyncConfiguration)
    (loaded : ∃ env, loadDeployment packages.sha256 env = .ok config.deployment) : Deployed packages where
  config := config
  loaded := loaded
  last := config.binding
  current _ h := h

/-- A restart changes the binding only while no block is stored. -/
structure Rebinds (before after : Deployed packages) (s : Surroundings) : Prop where
  /-- A process without a binding leaves the last one. -/
  last : after.config.binding = none → after.last = before.last
  /-- One with a binding goes on with the last one, or starts over. -/
  same : ∀ binding binding', before.last = some binding → after.config.binding = some binding' →
    binding' = binding ∨ s.db.blocks = []

/-- The states of processes that run one after the other on a database that was empty. -/
def Deployments (world : World) (admits : Deployed packages → Deployed packages → Surroundings → Prop)
    (first : Deployed packages) (node : List BitcoinBlock) (mempool : List Hash) :
    Deployed packages × Activity SyncCall SyncCall.Value String SyncMemory × Surroundings → Prop :=
  Sessions (fun _ => world.Answers) world.Moves (fun deployed => tick packages deployed.config)
    (fun deployed => SyncMemory.fresh deployed.config) admits first ⟨node, mempool, Db.empty⟩

/-! ### Tables and tuples -/

/-- The tables are the fold of `reduceBlock` over the blocks, from the initial root of the binding's namespace. -/
structure Folded (packages : Packages) (binding : Binding) (db : Db) (blocks : List BitcoinBlock)
    (reduced : List ReducedBlock) : Prop where
  /-- The blocks are linked. -/
  linked : HashLinked blocks
  /-- The first has the INIT. -/
  starts : ∀ first, blocks.head? = some first → Contains first binding.initTxid
  /-- They are reduced one after the other. -/
  reduces : reduceChain packages binding (.initial packages binding) blocks = .ok reduced
  /-- The results are what is stored. -/
  stored : ∃ db', appendBlocks reduced Db.empty = .ok db' ∧ tables db = tables db'
  /-- The stored INIT is that of the binding. -/
  init : ∀ init, loadActivation db = some init → init.txid = binding.initTxid

/-- The tuple states the block at the height, under the protocol id of the binding. -/
structure States (binding : Binding) (reduced : List ReducedBlock) (height : ℕ) (tuple : AgreementTuple) : Prop where
  /-- The protocol id names the network and the INIT. -/
  protocol : tuple.protocol_id = "tndm:" ++ networkName binding.networkCode ++ ":" ++ binding.initTxid.text
  /-- The roots and counters are those of the fold. -/
  block : ∃ block ∈ reduced, block.height = height ∧ tuple.height = toString height ∧
    tuple.block_hash = block.hash.text ∧ tuple.event_root = block.eventRoot.text ∧
    tuple.object_state_root = block.objectStateRoot.text ∧ tuple.chained_root = block.chainedRoot.text ∧
    tuple.founding_created = toString block.foundingCreated ∧ tuple.all_objects = toString block.allObjects ∧
    tuple.active_objects = toString block.activeObjects

theorem checkpoints_appendBlocks {reduced : List ReducedBlock} {db db' : Db} (h : appendBlocks reduced db = .ok db') :
    db'.checkpoints = db.checkpoints ++ reduced.map checkpointRow := by
  induction reduced generalizing db with
  | nil =>
    obtain rfl := pure_eq_ok.mp h
    simp
  | cons block rest ih =>
    obtain ⟨mid, hmid, h⟩ := bind_eq_ok.mp h
    obtain ⟨rfl, -⟩ := writeBlock_ok hmid
    rw [ih h, List.map_cons]
    simp [written]

/-- What is signed over the tables of a fold. -/
theorem Folded.states {db : Db} {blocks : List BitcoinBlock} {reduced : List ReducedBlock}
    (folded : Folded packages binding db blocks reduced) {curve : Curve} {deployment : DeploymentConfiguration}
    {agreement : AgreementConfiguration} {height : ℕ} {envelope : SignedAgreementEnvelope}
    (h : signedAt curve deployment agreement db height = .ok envelope)
    (named : protocolId deployment =
      some ("tndm:" ++ networkName binding.networkCode ++ ":" ++ binding.initTxid.text)) :
    States binding reduced height envelope.tuple := by
  obtain ⟨row, hfind, id, hid, release, -, htuple⟩ := signedAt_ok h
  have hrow := List.mem_of_find?_eq_some hfind
  have hheight : row.height = height := by simpa using List.find?_some hfind
  obtain ⟨db', happ, htab⟩ := folded.stored
  have hcheckpoints : db.checkpoints = reduced.map checkpointRow :=
    (congrArg Db.checkpoints htab).trans (checkpoints_appendBlocks happ)
  rw [hcheckpoints] at hrow
  obtain ⟨block, hb, rfl⟩ := List.mem_map.mp hrow
  rw [htuple]
  exact ⟨Option.some.inj (hid.symm.trans named), block, hb, hheight, congrArg toString hheight, rfl, rfl, rfl, rfl, rfl,
    rfl, rfl⟩

/-! ### Runs -/

/-- The tables are indexed under the last binding, and empty before any. -/
def IndexedFor (deployed : Deployed packages) (s : Surroundings) : Prop :=
  match deployed.last with
  | some binding => Indexed packages binding s
  | none => tables s.db = tables Db.empty

theorem indexed_of_empty {s : Surroundings} (h : tables s.db = tables Db.empty) : Indexed packages binding s :=
  ⟨[], _, .empty, h.symm⟩

/-- Without a stored block there is nothing in the tables. -/
theorem empty_of_indexed {s : Surroundings} (h : Indexed packages binding s) (none : s.db.blocks = []) :
    tables s.db = tables Db.empty := by
  obtain ⟨chain, index, replay, htab⟩ := h
  cases replay with
  | empty => exact htab.symm
  | connect replay follows reduces writes =>
    obtain ⟨rfl, -⟩ := writeBlock_ok writes
    have hblocks := congrArg Db.blocks htab
    simp [tables, withReorgs, Index.next, written, none] at hblocks

theorem IndexedFor.of_db {deployed : Deployed packages} {s s' : Surroundings} (h : IndexedFor deployed s)
    (hdb : s'.db = s.db) : IndexedFor deployed s' := by
  unfold IndexedFor at h ⊢
  cases hl : deployed.last with
  | none =>
    rw [hl] at h
    exact (congrArg tables hdb).trans h
  | some binding =>
    rw [hl] at h
    exact h.of_db hdb

/-- A restart that changes the binding over empty tables only keeps the tables indexed. -/
theorem Rebinds.keeps {before after : Deployed packages} {s : Surroundings} (h : Rebinds before after s)
    (hs : IndexedFor before s) : IndexedFor after s := by
  cases hb : after.config.binding with
  | none =>
    unfold IndexedFor at hs ⊢
    rw [h.last hb]
    exact hs
  | some binding' =>
    unfold IndexedFor at hs ⊢
    rw [after.current _ hb]
    cases hl : before.last with
    | none =>
      rw [hl] at hs
      exact indexed_of_empty hs
    | some binding =>
      rw [hl] at hs
      rcases h.same _ _ hl hb with rfl | hnone
      · exact hs
      · exact indexed_of_empty (empty_of_indexed hs hnone)

/-- The objects in memory are those of the database, when there is a binding. -/
def CachedFor (deployed : Deployed packages) (memory : SyncMemory) (s : Surroundings) : Prop :=
  ∀ binding, deployed.config.binding = some binding → Cached packages binding memory s

/-- A process without a binding leaves the database alone. -/
theorem leaves_unbound {config : SyncConfiguration} (hnone : config.binding = none) {I : Surroundings → Prop}
    (frame : Action.Frame (fun s s' : Surroundings => s'.db = s.db) I) :
    Action.Leaves world.Answers I (fun s s' => s'.db = s.db) (fun _ => ()) (tick packages config) := by
  have reads : ∀ c : SyncCall, c.body = none →
      Action.Leaves world.Answers I (fun s s' => s'.db = s.db) (fun _ => ()) (await c) :=
    fun c hc => Action.Leaves.call frame fun _ _ _ ha => ha.reads hc
  have changes : ∀ f : SyncMemory → SyncMemory,
      Action.Leaves world.Answers I (fun s s' => s'.db = s.db) (fun _ => ()) (modify f : Sync PUnit) :=
    fun f => .modify frame fun _ => rfl
  refine (reads _ rfl).bind frame fun stopping => ?_
  split_ifs
  · exact .pure frame _
  · refine Action.Leaves.handle frame (Action.Leaves.bind frame ?_ fun _ => changes _) fun _ => changes _
    refine (reads _ rfl).bind frame fun info => (changes _).bind frame fun _ => ?_
    split_ifs
    · exact .lift frame _
    · rw [hnone]
      exact (changes _).bind frame fun _ => .pure frame _

/-- The tables stay indexed under the last binding. -/
theorem indexedFor_of_run {first deployed : Deployed packages} {node : List BitcoinBlock} {mempool : List Hash}
    {activity : Activity SyncCall SyncCall.Value String SyncMemory} {s : Surroundings}
    (run : Deployments world Rebinds first node mempool (deployed, activity, s)) : IndexedFor deployed s := by
  have agrees := Session.invariant (I := IndexedFor) (J := CachedFor) ?_ ?_ ?_ (fun _ _ _ rebinds hs => rebinds.keeps hs)
    ?_ run
  · exact agrees.inv
  · intro deployed memory s hs hc
    cases hb : deployed.config.binding with
    | none =>
      have frame : Action.Frame (fun s s' : Surroundings => s'.db = s.db) (IndexedFor deployed) :=
        ⟨fun _ => rfl, fun h h' => h'.trans h, fun h hs => hs.of_db h⟩
      refine Action.wp_mono (leaves_unbound hb frame memory s hs) fun r memory' s' _ => ?_
      intro binding h
      cases hb.symm.trans h
    | some binding =>
      have hindexed : IndexedFor deployed = Indexed packages binding := by
        funext s
        simp [IndexedFor, deployed.current binding hb]
      rw [hindexed] at hs ⊢
      refine Action.wp_mono (ends_tick hb hs (hc binding hb)) fun r memory' s' hc' => ?_
      rintro binding' h
      obtain rfl := Option.some.inj (hb.symm.trans h)
      exact hc'
  · intro deployed s _ binding _ objects ho
    simp [SyncMemory.fresh] at ho
  · intro deployed memory s s' moved hs hc
    exact ⟨hs.of_db moved.db, fun binding hb => (hc binding hb).of_db moved.db rfl⟩
  · unfold IndexedFor
    cases first.last with
    | none => rfl
    | some binding => exact indexed_of_empty rfl

/-- **Signed roots belong to the protocol they name.** In every run of processes that change the binding only while
no block is stored: the tables are the fold under the current binding, and a tuple that is signed states a block of
that fold. -/
theorem signed_of_fold {first deployed : Deployed packages} {node : List BitcoinBlock} {mempool : List Hash}
    {activity : Activity SyncCall SyncCall.Value String SyncMemory} {s : Surroundings}
    (run : Deployments world Rebinds first node mempool (deployed, activity, s)) :
    (∀ binding, deployed.config.binding = some binding →
      binding.ns = namespaceCommitment packages.sha256 binding.networkCode binding.initTxid binding.specHash ∧
      ∃ blocks reduced, Folded packages binding s.db blocks reduced ∧
        ∀ curve agreement height envelope,
          signedAt curve deployed.config.deployment agreement s.db height = .ok envelope →
            States binding reduced height envelope.tuple) ∧
    (deployed.config.binding = none → ∀ curve agreement height envelope,
      signedAt curve deployed.config.deployment agreement s.db height ≠ .ok envelope) := by
  obtain ⟨env, hloaded⟩ := deployed.loaded
  refine ⟨fun binding hb => ?_, fun hnone curve agreement height envelope h => ?_⟩
  · obtain ⟨-, hns, hid⟩ := binding_of_loaded hloaded hb
    have hindexed := indexedFor_of_run run
    unfold IndexedFor at hindexed
    rw [deployed.current binding hb] at hindexed
    obtain ⟨blocks, reduced, db', hlinked, hstarts, hreduces, happ, htab⟩ := hindexed.folded
    have folded : Folded packages binding s.db blocks reduced := by
      refine ⟨hlinked, hstarts, hreduces, ⟨db', happ, htab⟩, fun init hinit => ?_⟩
      obtain ⟨chain, index, replay, htab'⟩ := hindexed
      rw [← loadActivation_tables htab', replay.loadActivation.1] at hinit
      obtain ⟨_, -, -, -, htxid, -⟩ := replay.activation hinit
      exact htxid
    exact ⟨hns, blocks, reduced, folded, fun curve agreement height envelope h => folded.states h hid⟩
  · obtain ⟨_, -, id, hid, -⟩ := signedAt_ok h
    have hns := loadDeployment_ok hloaded
    unfold SyncConfiguration.binding at hnone
    unfold protocolId at hid
    cases hi : deployed.config.deployment.initTxid with
    | none => simp [hi] at hid
    | some txid => simp [hi, hns] at hnone

/-! ### A signer to evaluate -/

/-- A curve whose signatures are empty. -/
def sampleCurve : Curve where
  canonicalize _ := some ""
  verify _ _ _ := .ok false
  getPublicKey _ := .ok []
  sign _ _ := .ok []

/-- A signer with a key and a release. -/
def sampleAgreement : AgreementConfiguration where
  keyId := some "a"
  privateKeyHex := some Hash.zero.text
  publicKeyHex := none
  parserCommit := some (toHex (List.replicate 20 0))
  indexerCommit := some (toHex (List.replicate 20 0))
  parserBinarySha256 := some Hash.zero.text
  indexerBinarySha256 := some Hash.zero.text

theorem protocolNetwork_id (network : NetworkCode) (txid : Hash) :
    (protocolNetwork ("tndm:" ++ networkName network ++ ":" ++ txid.text)).isSome = true := by
  have hon : isProtocolIdOn ("tndm:" ++ networkName network ++ ":" ++ txid.text) (networkName network) = true := by
    generalize hstart : "tndm:" ++ networkName network ++ ":" = start
    simp [isProtocolIdOn, hstart, String.toList_append, isHex_text]
  unfold protocolNetwork
  rw [List.find?_isSome]
  exact ⟨networkName network, by cases network <;> decide, hon⟩

/-- The release of the sample signer. -/
def sampleRelease : String × String × String × String :=
  (toHex (List.replicate 20 0), toHex (List.replicate 20 0), Hash.zero.text, Hash.zero.text)

theorem checkpointTuple_rules (network : NetworkCode) (txid : Hash) {row : CheckpointRow}
    (safe : row.height ≤ MAX_SAFE_INTEGER) :
    TupleRules (checkpointTuple ("tndm:" ++ networkName network ++ ":" ++ txid.text) row sampleRelease) := by
  have hcommit : isHex 20 (toHex (List.replicate 20 0)) = true := by decide +kernel
  constructor
  case schema => rfl
  case protocol => exact protocolNetwork_id _ _
  case height => exact isCounter_toDigits _
  case foundingCreated => exact isCounter_toDigits _
  case allObjects => exact isCounter_toDigits _
  case activeObjects => exact isCounter_toDigits _
  case safe => exact (decimal_toDigits _).trans_le safe
  case blockHash => exact isHex_text _
  case eventRoot => exact isHex_text _
  case objectStateRoot => exact isHex_text _
  case chainedRoot => exact isHex_text _
  case parserBinary => exact isHex_text _
  case indexerBinary => exact isHex_text _
  case parserCommit => exact hcommit
  case indexerCommit => exact hcommit

/-- What the sample signer signs at a height, on any curve. -/
theorem signedAt_eq {curve : Curve} {deployment : DeploymentConfiguration} {db : Db} {txid : Hash} {row : CheckpointRow}
    {height : ℕ} (hid : deployment.initTxid = some txid)
    (hrow : db.checkpoints.find? (fun row => row.height = height) = some row) :
    signedAt curve deployment sampleAgreement db height = sign curve sampleAgreement
      (checkpointTuple ("tndm:" ++ networkName deployment.networkCode ++ ":" ++ txid.text) row sampleRelease) := by
  have hprotocol : protocolId deployment =
      some ("tndm:" ++ networkName deployment.networkCode ++ ":" ++ txid.text) := by
    rw [protocolId, hid, Option.map_some]
  have hrelease : sampleAgreement.release = some sampleRelease := by decide +kernel
  unfold signedAt
  rw [hrow, hprotocol, hrelease]
  rfl

theorem signedAt_sample {deployment : DeploymentConfiguration} {db : Db} {txid : Hash}
    (hid : deployment.initTxid = some txid)
    (hrow : (db.checkpoints.find? fun row => row.height = 8).isSome = true) :
    ∃ envelope, signedAt sampleCurve deployment sampleAgreement db 8 = .ok envelope ∧
      envelope.tuple.protocol_id = "tndm:" ++ networkName deployment.networkCode ++ ":" ++ txid.text := by
  obtain ⟨row, hfind⟩ := Option.isSome_iff_exists.mp hrow
  have hheight : row.height = 8 := by simpa using List.find?_some hfind
  have rules := checkpointTuple_rules deployment.networkCode txid (hheight.trans_le (by decide))
  have hboundary : signingBoundaryConfigured sampleCurve sampleAgreement = true := by decide +kernel
  have hkey : (bytes Hash.zero.text).length = 32 ∧ isKeyId "a" = true := by decide +kernel
  have hpresent : present sampleAgreement.keyId = some "a" ∧
      present sampleAgreement.privateKeyHex = some Hash.zero.text := by decide +kernel
  refine ⟨⟨"urn:tandem:agreement-envelope", "a", checkpointTuple _ row sampleRelease, toHex []⟩, ?_, rfl⟩
  rw [signedAt_eq hid hfind]
  simp only [sign, hboundary, hpresent]
  refine bind_eq_ok.mpr ⟨(), ensure_eq_ok.mpr hkey, bind_eq_ok.mpr ⟨encode "", ?_, rfl⟩⟩
  exact bind_eq_ok.mpr ⟨(), assertAgreementTuple_eq_ok.mpr rules, rfl⟩

/-- The sample deployment, as it is loaded. -/
def sampleDeployed : Deployed samplePackages :=
  .first sampleConfig ⟨deploymentEnv .mainnet (sampleHash 1) Hash.zero, loadDeployment_env _ _ _ _⟩

/-- The same service for another INIT. -/
def foreignConfig : SyncConfiguration := { sampleConfig with
  deployment := { sampleConfig.deployment with initTxid := some (sampleHash 99) } }

/-- The other deployment, as it is loaded. -/
def foreignDeployed : Deployed samplePackages :=
  .first foreignConfig ⟨deploymentEnv .mainnet (sampleHash 99) Hash.zero, loadDeployment_env _ _ _ _⟩

/-- The sample service with smaller batches. -/
def slowConfig : SyncConfiguration := { sampleConfig with
  batchBlocks := 1
  batchBlocks_pos := by decide }

/-- It is for the same deployment. -/
def slowDeployed : Deployed samplePackages :=
  .first slowConfig ⟨deploymentEnv .mainnet (sampleHash 1) Hash.zero, loadDeployment_env _ _ _ _⟩

/-- The service is started for another INIT, restarted before any block is stored, and once more when both are. -/
theorem sampleRun_restarts : Deployments sampleWorld Rebinds foreignDeployed [sampleNextBlock, sampleInitBlock] []
    (slowDeployed, .idle (.fresh slowConfig), sampleRun.2) := by
  have rebinds : Rebinds foreignDeployed sampleDeployed ⟨[sampleNextBlock, sampleInitBlock], [], Db.empty⟩ :=
    ⟨fun h => (by cases h), fun _ _ _ _ => .inr rfl⟩
  have goesOn : Rebinds sampleDeployed slowDeployed sampleRun.2 :=
    ⟨fun h => (by cases h), fun binding binding' h h' => .inl (Option.some.inj (h'.symm.trans h))⟩
  have ran : Deployments sampleWorld Rebinds sampleDeployed [sampleNextBlock, sampleInitBlock] []
      (sampleDeployed, .busy sampleRun.1, sampleRun.2) := Session.stretch sampleRun_runs
  exact .tail (.head (.configured rebinds) ran) (.configured goesOn)

/-- The tables of the sample run are signed for their own protocol. -/
theorem signed_of_fold_sample : ∃ envelope,
    signedAt sampleCurve slowConfig.deployment sampleAgreement sampleRun.2.db 8 = .ok envelope ∧
      ∃ reduced, States sampleBinding reduced 8 envelope.tuple := by
  obtain ⟨-, blocks, reduced, -, hsigned⟩ := (signed_of_fold sampleRun_restarts).1 sampleBinding rfl
  have checkpoint : (sampleRun.2.db.checkpoints.find? fun row => row.height = 8).isSome = true := by decide +kernel
  obtain ⟨envelope, h, -⟩ := signedAt_sample (show slowConfig.deployment.initTxid = some (sampleHash 1) from rfl)
    checkpoint
  exact ⟨envelope, h, reduced, hsigned _ _ _ _ h⟩

/-! ### A process for another INIT -/

/-- **Roots are signed for another protocol** after a restart with another INIT: the stored one is not the configured
one, and the tuple names the configured one. -/
theorem signed_for_another : ∃ activity s,
    Deployments sampleWorld (fun _ _ _ => True) sampleDeployed [sampleNextBlock, sampleInitBlock] []
      (foreignDeployed, activity, s) ∧
    (∃ init, loadActivation s.db = some init ∧ some init.txid ≠ foreignConfig.deployment.initTxid) ∧
    ∃ envelope, signedAt sampleCurve foreignConfig.deployment sampleAgreement s.db 8 = .ok envelope ∧
      envelope.tuple.protocol_id = "tndm:" ++ networkName .mainnet ++ ":" ++ (sampleHash 99).text := by
  refine ⟨.idle (.fresh foreignConfig), sampleRun.2, ?_, ?_, signedAt_sample rfl (by decide +kernel)⟩
  · exact .tail (Session.stretch sampleRun_runs) (.configured trivial)
  · have hinit : (loadActivation sampleRun.2.db).map InitActivation.txid = some (sampleHash 1) := by decide +kernel
    obtain ⟨init, h, htxid⟩ := Option.map_eq_some_iff.mp hinit
    refine ⟨init, h, ?_⟩
    rw [htxid]
    decide

end IndexTandem.Agreement
