import IndexTandem.Indexer.SyncService

/-!
# Readiness

Verified data is served only by a process that is ready: its configuration, its database
and its node are in order, the INIT confirmed as configured, and the index is complete and
close to the node's tip. `evaluateReadiness` collects the reasons against it; there is none
exactly when every condition holds (`evaluateReadiness_ready`).
-/

namespace IndexTandem.Observability

open Library Protocol Indexer

/-- `ReadinessInput`. -/
structure ReadinessInput where
  /-- The configuration names a spec hash. -/
  configurationValid : Bool
  /-- The database answers. -/
  databaseAvailable : Bool
  /-- The node answers. -/
  coreAvailable : Bool
  /-- The node is on the expected chain. -/
  coreNetworkMatches : Bool
  /-- The node is still downloading. -/
  coreInitialBlockDownload : Bool
  /-- The height of the node's tip. -/
  nodeHeight : Option ℕ
  /-- The height of the stored tip. -/
  canonicalHeight : Option ℕ
  /-- The height of the newest checkpoint. -/
  checkpointHeight : Option ℕ
  /-- How far the stored tip may lag. -/
  maxBlockLag : ℕ
  /-- Agreements can be signed. -/
  signerConfigured : Bool
  /-- The phase; `active` when omitted. -/
  initPhase : Option InitPhase
  /-- What the configuration says about the INIT and the chain does not. -/
  initConfigMismatch : Option String

/-- `ReadinessSnapshot`. -/
structure ReadinessSnapshot extends ReadinessInput where
  /-- There is no reason against it. -/
  ready : Bool
  /-- The reasons against it. -/
  reasons : List String

/-- A reason, when it applies. -/
def reasonIf (applies : Bool) (reason : String) : List String := if applies then [reason] else []

/-- A text that is there and not empty, as an `if` sees it. -/
def truthy (text : Option String) : Bool := text.any fun value => value ≠ ""

/-- The stored tip lags behind the node's by more than it may. -/
def stale (input : ReadinessInput) : Bool :=
  match input.nodeHeight, input.canonicalHeight with
  | some node, some canonical => (node : ℤ) - canonical > input.maxBlockLag
  | _, _ => false

/-- `evaluateReadiness(input)`. -/
def evaluateReadiness (input : ReadinessInput) : ReadinessSnapshot :=
  let phase := input.initPhase.getD .active
  let reasons :=
    reasonIf (!input.configurationValid) "configuration_invalid" ++
    reasonIf (phase = .unconfigured) "init_not_configured" ++
    reasonIf (phase = .awaiting_init) "init_not_confirmed" ++
    reasonIf (phase = .failed_init) "init_failed" ++
    reasonIf (truthy input.initConfigMismatch) "init_config_mismatch" ++
    reasonIf (!input.databaseAvailable) "database_unavailable" ++
    reasonIf (!input.coreAvailable) "bitcoin_core_unavailable" ++
    reasonIf (!input.coreNetworkMatches) "bitcoin_network_mismatch" ++
    reasonIf input.coreInitialBlockDownload "bitcoin_core_initial_block_download" ++
    reasonIf input.nodeHeight.isNone "node_height_unknown" ++
    reasonIf input.canonicalHeight.isNone "canonical_tip_missing" ++
    reasonIf (stale input) "canonical_tip_stale" ++
    reasonIf (input.checkpointHeight.isNone || input.checkpointHeight ≠ input.canonicalHeight)
      "checkpoint_incomplete" ++
    reasonIf (!input.signerConfigured) "agreement_signer_unavailable"
  { input with ready := reasons.isEmpty, reasons := reasons }

/-- What readiness asks for. -/
structure Ready (input : ReadinessInput) : Prop where
  /-- The configuration is valid. -/
  configuration : input.configurationValid = true
  /-- The INIT confirmed and is valid. -/
  phase : input.initPhase.getD .active = .active
  /-- It confirmed as configured. -/
  asserted : truthy input.initConfigMismatch = false
  /-- The database answers. -/
  database : input.databaseAvailable = true
  /-- The node answers, on the expected chain, and has all blocks. -/
  core : input.coreAvailable = true ∧ input.coreNetworkMatches = true ∧ input.coreInitialBlockDownload = false
  /-- There is a stored tip, close enough to the node's. -/
  tip : ∃ node canonical : ℕ, input.nodeHeight = some node ∧ input.canonicalHeight = some canonical ∧
    (node : ℤ) - canonical ≤ input.maxBlockLag
  /-- It has a checkpoint. -/
  checkpoint : input.checkpointHeight = input.canonicalHeight
  /-- Agreements can be signed. -/
  signer : input.signerConfigured = true

@[simp] theorem reasonIf_eq_nil {applies : Bool} {reason : String} : reasonIf applies reason = [] ↔ applies = false := by
  cases applies <;> simp [reasonIf]

/-- **A process is ready** exactly when every condition holds. -/
theorem evaluateReadiness_ready {input : ReadinessInput} : (evaluateReadiness input).ready = true ↔ Ready input := by
  have hreasons : (evaluateReadiness input).ready = true ↔ (evaluateReadiness input).reasons = [] :=
    List.isEmpty_iff
  rw [hreasons]
  simp only [evaluateReadiness, List.append_eq_nil_iff, reasonIf_eq_nil, Bool.not_eq_false', decide_eq_false_iff_not,
    Bool.or_eq_false_iff, ne_eq, not_not, Option.isNone_eq_false_iff]
  constructor
  · rintro ⟨⟨⟨⟨⟨⟨⟨⟨⟨⟨⟨⟨⟨h₁, h₂⟩, h₃⟩, h₄⟩, h₅⟩, h₆⟩, h₇⟩, h₈⟩, h₉⟩, hnode⟩, htip⟩, hstale⟩, -, hcheck⟩, h₁₄⟩
    obtain ⟨node, hn⟩ := Option.isSome_iff_exists.mp hnode
    obtain ⟨canonical, hc⟩ := Option.isSome_iff_exists.mp htip
    refine ⟨h₁, ?_, h₅, h₆, ⟨h₇, h₈, h₉⟩, ⟨node, canonical, hn, hc, ?_⟩, hcheck, h₁₄⟩
    · cases hp : input.initPhase.getD .active with
      | active => rfl
      | unconfigured => exact absurd hp h₂
      | awaiting_init => exact absurd hp h₃
      | failed_init => exact absurd hp h₄
    · simpa [stale, hn, hc] using hstale
  · rintro ⟨h₁, h₂, h₅, h₆, ⟨h₇, h₈, h₉⟩, ⟨node, canonical, hn, hc, hlag⟩, hcheck, h₁₄⟩
    simp [h₁, h₂, h₅, h₆, h₇, h₈, h₉, hn, hc, hcheck, h₁₄, stale, hlag]

/-! ### The probe -/

/-- What the queries of a probe return; nothing where one fails. -/
structure ProbeReads where
  /-- `SELECT 1` succeeds. -/
  alive : Bool
  /-- The height of the stored tip. -/
  tip : Option (Option ℕ)
  /-- The height of the newest checkpoint. -/
  checkpoint : Option (Option ℕ)
  /-- What the node says about its chain. -/
  core : Option BlockchainInfo

/-- The configuration a probe looks at. -/
structure ProbeConfiguration where
  /-- The spec hash. -/
  specHash : String
  /-- The chain the node has to be on. -/
  expectedChain : String
  /-- How far the stored tip may lag. -/
  maxBlockLag : ℕ
  /-- `signer.configured()`. -/
  signerConfigured : Bool

/-- `probe()`: the queries of a failed sequence stop at the one that fails. -/
def probe (config : ProbeConfiguration) (state : DeploymentState) (reads : ProbeReads) : ReadinessSnapshot :=
  evaluateReadiness {
    configurationValid := config.specHash ≠ ""
    databaseAvailable := reads.alive && reads.tip.isSome && reads.checkpoint.isSome
    coreAvailable := reads.core.isSome
    coreNetworkMatches := reads.core.any fun info => info.chain = config.expectedChain
    coreInitialBlockDownload := (reads.core.map fun info => info.initialblockdownload).getD true
    nodeHeight := reads.core.map fun info => info.blocks
    canonicalHeight := if reads.alive then reads.tip.join else none
    checkpointHeight := if reads.alive && reads.tip.isSome then reads.checkpoint.join else none
    maxBlockLag := config.maxBlockLag
    signerConfigured := config.signerConfigured
    initPhase := some state.phase
    initConfigMismatch := state.initConfigMismatch }

/-- A process whose configuration the chain contradicts is not ready. -/
theorem not_ready_of_mismatch {config : ProbeConfiguration} {state : DeploymentState} {reads : ProbeReads}
    {mismatch : String} (h : state.initConfigMismatch = some mismatch) (text : mismatch ≠ "") :
    (probe config state reads).ready = false := by
  rw [Bool.eq_false_iff]
  intro hready
  have asserted := (evaluateReadiness_ready.mp hready).asserted
  simp [h, truthy, text] at asserted

end IndexTandem.Observability
