import IndexTandem.Agreement.Bound
import IndexTandem.Indexer.Rollback
import IndexTandem.Library.Timeline
import IndexTandem.Verification.EnvelopeWire
import IndexTandem.Verification.Gateway

/-!
# A verified response beside the sync service

While `execute` resolves an agreement, runs a query and resolves again, the sync service
commits appends and rollbacks. Every statement reads the store of its own moment: the probe
the tip and the newest checkpoint, the signer the checkpoint at the tip's height, and the
query whatever it reads.

The chain may leave the agreed tip and come back, with the query in between (`verified_data_disagrees`). That is the
only way: every row the query read belongs to the agreed state exactly when no commit brings back the agreed height or
its checkpoint after a statement that ran without them (`verified_data_agreed_iff`). A height that comes back without
having gone down, or without having gone up, never left, so commits that are all appends or all rollbacks bring nothing
back (`OneWay.nothingReturns`).
-/

namespace IndexTandem.Verification

open Library Protocol Database Agreement Indexer Observability

variable {packages : Packages} {binding : Binding}

/-! ### The store over time -/

/-- What may be committed between two moments. -/
inductive Committed where
  /-- Nothing. -/
  | nothing
  /-- An append. -/
  | append
  /-- A rollback. -/
  | rollback
  deriving DecidableEq

/-- The store, and the history it has. -/
abbrev Kept := History × Db

/-- A commit of the sync service. -/
inductive Commit (packages : Packages) (binding : Binding) : Committed → Kept → Kept → Prop
  /-- Nothing is committed. -/
  | nothing {kept : Kept} : Commit packages binding .nothing kept kept
  /-- Further blocks are written, reduced from what the store holds, in whatever order its objects are in memory. -/
  | append {history : History} {db db' : Db} {rows : List ObjectRow} {cursor : Cursor}
      {further : List BitcoinBlock} {reduced : List ReducedBlock} (linked : Extends history.blocks further)
      (listed : rows.Perm db.objects) (same : SameCursor (.read packages binding db rows) cursor)
      (reduces : reduceChain packages binding cursor further = .ok reduced)
      (appends : appendBlocks reduced db = .ok db') :
      Commit packages binding .append (history, db) (history.record db further reduced, db')
  /-- Blocks are disconnected. -/
  | rollback {history : History} {db db' : Db} {init : InitActivation} {oldTipHeight : ℕ} {ancestorHeight : ℤ}
      {plan : ReorgPlan} {journal : ReorgJournal} (activated : loadActivation db = some init)
      (plans : planReorgRollback oldTipHeight ancestorHeight init.height = .ok plan)
      (rolls : Indexer.rollback plan journal db = .ok db') :
      Commit packages binding .rollback (history, db)
        (history.dropWhile fun entry => ancestorHeight < entry.1.height, db')

theorem Commit.next {history : History} {db db' : Db} {block : BitcoinBlock} {reduced : ReducedBlock}
    (follows : Follows block history.blocks)
    (reduces : (Cursor.read packages binding db db.objects).reduce packages binding block = .ok reduced)
    (writes : writeBlock reduced db = .ok db') :
    Commit packages binding .append (history, db) ((block, db') :: history, db') := by
  have chained : reduceChain packages binding (.read packages binding db db.objects) [block] = .ok [reduced] :=
    bind_eq_ok.mpr ⟨reduced, reduces, rfl⟩
  have appends : appendBlocks [reduced] db = .ok db' := bind_eq_ok.mpr ⟨db', writes, rfl⟩
  exact History.record_single writes ▸
    .append ⟨follows, trivial⟩ (.refl db.objects) ⟨rfl, rfl, fun _ => rfl⟩ chained appends

/-- The height above the newest block; 0 without one. -/
def nextHeight : List BitcoinBlock → ℕ
  | [] => 0
  | block :: _ => block.height + 1

/-- The height above the tip; 0 without one. -/
def heightAboveTip (db : Db) : ℕ := ((canonicalTip db).map fun tip => tip.height + 1).getD 0

theorem heightAboveTip_of_tip {db : Db} {height : ℕ} (h : (canonicalTip db).map CanonicalTip.height = some height) :
    heightAboveTip db = height + 1 := by
  obtain ⟨tip, ht, rfl⟩ := Option.map_eq_some_iff.mp h
  simp [heightAboveTip, ht]

/-- The store holds the blocks of its history, and so did every database of it. -/
def Sound (packages : Packages) (binding : Binding) (kept : Kept) : Prop :=
  Holds packages binding kept.1.blocks kept.2 ∧ Recorded packages binding kept.1

theorem Sound.heightAboveTip {kept : Kept} (h : Sound packages binding kept) :
    heightAboveTip kept.2 = nextHeight kept.1.blocks := by
  obtain ⟨⟨index, replay, htab⟩, -⟩ := h
  unfold Verification.heightAboveTip
  rw [← canonicalTip_tables htab, replay.canonicalTip]
  cases kept.1.blocks <;> rfl

theorem SameCursor.trans {a b c : Cursor} (h : SameCursor a b) (h' : SameCursor b c) : SameCursor a c :=
  ⟨h.activation.trans h'.activation, h.root.trans h'.root, h.objects.trans h'.objects⟩

/-- Every commit keeps the store sound. -/
theorem Sound.commit {kind : Committed} {kept kept' : Kept} (h : Commit packages binding kind kept kept')
    (sound : Sound packages binding kept) : Sound packages binding kept' := by
  cases h with
  | nothing => exact sound
  | append linked listed same reduces appends =>
    obtain ⟨index, replay, htab, hsame⟩ := sound.1.read listed
    exact replay.extends (SameCursor.trans hsame same) htab sound.2 linked reduces appends
  | rollback activated plans rolls =>
    refine ⟨?_, sound.2.dropWhile _⟩
    show Holds packages binding (History.blocks (List.dropWhile _ _)) _
    rw [History.blocks_dropWhile]
    exact sound.1.rollback activated plans rolls

/-- Writing further blocks leaves the store as it was, or makes the chain higher. -/
theorem nextHeight_record {history : History} {db db' : Db} {cursor : Cursor} {further : List BitcoinBlock}
    {reduced : List ReducedBlock} (linked : Extends history.blocks further)
    (reduces : reduceChain packages binding cursor further = .ok reduced)
    (appends : appendBlocks reduced db = .ok db') :
    (history.record db further reduced, db') = (history, db) ∨
      nextHeight history.blocks < nextHeight (history.record db further reduced).blocks := by
  induction further generalizing history db cursor reduced with
  | nil =>
    obtain rfl := pure_eq_ok.mp reduces
    obtain rfl := pure_eq_ok.mp appends
    exact .inl rfl
  | cons block further ih =>
    obtain ⟨first, -, reduces⟩ := bind_eq_ok.mp reduces
    obtain ⟨later, hlater, reduces⟩ := bind_eq_ok.mp reduces
    cases reduces
    obtain ⟨d, hd, appends⟩ := bind_eq_ok.mp appends
    replace hd : writeBlock first db = .ok d := hd
    have hrecord : history.record db (block :: further) (first :: later) =
        History.record ((block, d) :: history) d further later := by
      rw [History.record, hd]
    have hup : nextHeight history.blocks < nextHeight (History.blocks ((block, d) :: history)) := by
      have follows := linked.1
      show nextHeight history.blocks < block.height + 1
      cases hb : history.blocks with
      | nil => exact Nat.succ_pos _
      | cons parent rest =>
        rw [hb] at follows
        have : block.height = parent.height + 1 := follows.2
        show parent.height + 1 < block.height + 1
        omega
    rw [hrecord]
    have further : Extends (History.blocks ((block, d) :: history)) further := linked.2
    rcases ih further hlater appends with same | more
    · rw [(Prod.mk.inj same).1]
      exact .inr hup
    · exact .inr (hup.trans more)

theorem nextHeight_upTo {chain : List BitcoinBlock} {ancestor : ℤ} {height : ℕ} (h : ancestor < height) :
    nextHeight (upTo ancestor chain) < height + 1 := by
  induction chain with
  | nil => exact Nat.succ_pos _
  | cons block rest ih =>
    by_cases hb : ancestor < block.height
    · have hdrop : upTo ancestor (block :: rest) = upTo ancestor rest := by simp [upTo, hb]
      rw [hdrop]
      exact ih
    · have hkept : upTo ancestor (block :: rest) = block :: rest := by simp [upTo, hb]
      rw [hkept]
      show block.height + 1 < height + 1
      omega

/-- **An append** that changes the store makes its tip higher. -/
theorem Commit.higher {kind : Committed} {kept kept' : Kept} (h : Commit packages binding kind kept kept')
    (sound : Sound packages binding kept) (hkind : kind ≠ .rollback) :
    kept' = kept ∨ heightAboveTip kept.2 < heightAboveTip kept'.2 := by
  rw [sound.heightAboveTip, (sound.commit h).heightAboveTip]
  cases h with
  | nothing => exact .inl rfl
  | append linked listed same reduces appends => exact nextHeight_record linked reduces appends
  | rollback => exact absurd rfl hkind

/-- **A rollback** makes the tip lower. -/
theorem Commit.lower {kind : Committed} {kept kept' : Kept} (h : Commit packages binding kind kept kept')
    (sound : Sound packages binding kept) (hkind : kind ≠ .append) :
    kept' = kept ∨ heightAboveTip kept'.2 < heightAboveTip kept.2 := by
  rw [sound.heightAboveTip, (sound.commit h).heightAboveTip]
  cases h with
  | nothing => exact .inl rfl
  | append => exact absurd rfl hkind
  | rollback activated plans rolls =>
    obtain ⟨⟨⟨tip, ht, hheight, -⟩, -⟩, -⟩ := rollback_eq_ok.mp rolls
    obtain ⟨block, rest, hchain, hb, -⟩ := sound.1.tip ht
    obtain ⟨-, hlow, rfl⟩ := planReorgRollback_ok plans
    refine .inr ?_
    rw [History.blocks_dropWhile]
    show nextHeight (upTo _ _) < nextHeight (History.blocks _)
    rw [show nextHeight (History.blocks _) = block.height + 1 by rw [hchain]; rfl]
    refine nextHeight_upTo ?_
    rw [← hb, hheight]
    exact hlow

/-! ### A call beside the commits -/

/-- What a resolution and its services are configured with. -/
structure GatewayConfiguration where
  /-- The packages that sign. -/
  curve : Curve
  /-- What the probe looks at. -/
  readiness : ProbeConfiguration
  /-- The deployment. -/
  deployment : DeploymentConfiguration
  /-- The signer. -/
  agreement : AgreementConfiguration
  /-- Verification. -/
  verification : VerificationConfiguration

/-- The moments of a resolution's statements. -/
structure Moments where
  /-- The probe reads the tip. -/
  tip : ℕ
  /-- The probe reads the newest checkpoint. -/
  checkpoint : ℕ
  /-- The signer reads the checkpoint. -/
  signed : ℕ

/-- What a resolution meets besides the rows of the store. -/
structure Circumstances where
  /-- `SELECT 1` succeeds. -/
  alive : Bool
  /-- The statement for the tip succeeds. -/
  tipAnswers : Bool
  /-- The statement for the newest checkpoint succeeds. -/
  checkpointAnswers : Bool
  /-- The signer's statement succeeds. -/
  signerAnswers : Bool
  /-- What the node says. -/
  core : Option BlockchainInfo
  /-- The deployment state of the process. -/
  state : DeploymentState
  /-- The other pipeline. -/
  fetchPipelineB : ℕ → Except String Json

/-- `SELECT height FROM tandem_checkpoints ORDER BY height DESC LIMIT 1`. -/
def newestCheckpoint (db : Db) : Option ℕ := (db.checkpoints.map CheckpointRow.height).max?

/-- `resolve()` over a store that is changed meanwhile. -/
def resolveAt (gateway : GatewayConfiguration) (store : ℕ → Db) (moments : Moments) (c : Circumstances) :
    Except String VerificationMetadata :=
  resolve gateway.curve.toSigning gateway.deployment gateway.verification
    (probe gateway.readiness c.state {
      alive := c.alive
      tip := if c.tipAnswers then some ((canonicalTip (store moments.tip)).map CanonicalTip.height) else none
      checkpoint := if c.checkpointAnswers then some (newestCheckpoint (store moments.checkpoint)) else none
      core := c.core })
    (fun height => if c.signerAnswers then
      signedAt gateway.curve gateway.deployment gateway.agreement (store moments.signed) height
      else throw "Connection lost")
    c.fetchPipelineB

/-- When an `execute` reads the store, and what it meets. -/
structure Execution where
  /-- The first resolution. -/
  before : Moments
  /-- What it meets. -/
  first : Circumstances
  /-- The moments of the query's statements. -/
  statements : List ℕ
  /-- The second resolution. -/
  after : Moments
  /-- What it meets. -/
  second : Circumstances

/-- One statement comes after the other. -/
structure Execution.InOrder (x : Execution) : Prop where
  /-- The first resolution. -/
  before : x.before.tip ≤ x.before.checkpoint ∧ x.before.checkpoint ≤ x.before.signed
  /-- Then the query, -/
  statements : ∀ moment ∈ x.statements, x.before.signed ≤ moment ∧ moment ≤ x.after.tip
  /-- statement by statement. -/
  sequential : x.statements.Pairwise fun earlier later => earlier ≤ later
  /-- Then the second resolution. -/
  between : x.before.signed ≤ x.after.tip
  /-- It goes on likewise. -/
  after : x.after.tip ≤ x.after.checkpoint ∧ x.after.checkpoint ≤ x.after.signed

/-- `execute(query)`: every statement of the query sees the store of its moment. -/
def executeAt {α : Type} (gateway : GatewayConfiguration) (store : ℕ → Db) (x : Execution)
    (query : VerificationMetadata → List Db → Except String α) : Except String (VerifiedResponse α) :=
  executeBound (resolveAt gateway store x.before x.first)
    (fun metadata => query metadata (x.statements.map store)) (resolveAt gateway store x.after x.second)

/-- The verification describes the checkpoint. -/
structure DescribedBy (verification : VerificationMetadata) (row : CheckpointRow) : Prop where
  /-- The height. -/
  height : verification.height = row.height
  /-- The block. -/
  blockHash : verification.blockHash = row.blockHash.text
  /-- The root of the events. -/
  eventRoot : verification.eventRoot = row.eventRoot.text
  /-- The root of the objects. -/
  objectStateRoot : verification.objectStateRoot = row.objectStateRoot.text
  /-- The root of the chain. -/
  chainedRoot : verification.chainedRoot = row.chainedRoot.text
  /-- The objects created in the founding window. -/
  foundingCreated : verification.foundingCreated = toString row.foundingCreated
  /-- All objects. -/
  allObjects : verification.allObjects = toString row.allObjects
  /-- The active ones. -/
  activeObjects : verification.activeObjects = toString row.activeObjects

/-- The checkpoint of the store's tip is the agreed one. -/
def AgreedState (verification : VerificationMetadata) (db : Db) : Prop :=
  ∃ row ∈ db.checkpoints, (canonicalTip db).map CanonicalTip.height = some row.height ∧ DescribedBy verification row

/-- The tip is as high as the checkpoint. -/
def TipAt (row : CheckpointRow) (kept : Kept) : Prop :=
  (canonicalTip kept.2).map CanonicalTip.height = some row.height

/-- The checkpoint is in the store. -/
def Stores (row : CheckpointRow) (kept : Kept) : Prop := row ∈ kept.2.checkpoints

/-- The checkpoint that a resolution is for: it is read at the signing, at the height of the tip that was probed. -/
def resolvedCheckpoint (store : ℕ → Db) (moments : Moments) : Option CheckpointRow :=
  (canonicalTip (store moments.tip)).bind fun tip =>
    (store moments.signed).checkpoints.find? fun row => row.height = tip.height

/-- No commit brings back what was missing when a statement of the query ran. -/
structure NothingReturns (t : Timeline (Commit packages binding)) (x : Execution) (row : CheckpointRow) : Prop where
  /-- Before the second probe, none makes the tip as high again as the checkpoint. -/
  height : ∀ moment ∈ x.statements, ¬t.Returns (TipAt row) moment x.after.tip
  /-- Before the second signing, none writes the checkpoint again. -/
  checkpoint : ∀ moment ∈ x.statements, ¬t.Returns (Stores row) moment x.after.signed

/-- The commits between two moments are all appends, or all rollbacks. -/
def OneWay (t : Timeline (Commit packages binding)) (first last : ℕ) : Prop :=
  (∀ i, first ≤ i → i < last → t.kind i ≠ .rollback) ∨ ∀ i, first ≤ i → i < last → t.kind i ≠ .append

/-- A timeline that starts with the empty store is sound throughout. -/
theorem sound_of_start {t : Timeline (Commit packages binding)} (start : t.state 0 = ([], Db.empty)) (i : ℕ) :
    Sound packages binding (t.state i) := by
  refine t.always (I := Sound packages binding) ?_ (fun _ _ _ h => Sound.commit h) i
  rw [start]
  exact ⟨⟨_, .empty, rfl⟩, fun entry rest hs => by simp at hs⟩

/-- **A tip that comes back** after commits of one kind never left. -/
theorem unchanged_of_oneWay {t : Timeline (Commit packages binding)} (start : t.state 0 = ([], Db.empty))
    {first last : ℕ} (oneWay : OneWay t first last)
    (same : heightAboveTip (t.state first).2 = heightAboveTip (t.state last).2) {moment : ℕ} (h : first ≤ moment)
    (h' : moment ≤ last) : t.state moment = t.state first := by
  rcases oneWay with appends | rollbacks
  · have grows : t.Grows (fun kept => heightAboveTip kept.2) first last := fun i hi hl =>
      (t.changes i).higher (sound_of_start start i) (appends i hi hl)
    exact grows.steady same h h'
  · have grows : t.Grows (fun kept => OrderDual.toDual (heightAboveTip kept.2)) first last := fun i hi hl =>
      (t.changes i).lower (sound_of_start start i) (rollbacks i hi hl)
    exact grows.steady (congrArg OrderDual.toDual same) h h'

/-- **What a resolution returns** describes the checkpoint that it is for. -/
theorem resolveAt_describes {gateway : GatewayConfiguration} {store : ℕ → Db} {moments : Moments} {c : Circumstances}
    {verification : VerificationMetadata} (h : resolveAt gateway store moments c = .ok verification) :
    ∃ row, resolvedCheckpoint store moments = some row ∧ DescribedBy verification row := by
  unfold resolveAt resolve at h
  split at h
  · rename_i height hready hheight
    obtain ⟨_, -, h⟩ := bind_eq_ok.mp h
    obtain ⟨_, -, h⟩ := bind_eq_ok.mp h
    obtain ⟨pipelineA, hA, h⟩ := bind_eq_ok.mp h
    obtain ⟨pipelineB, -, h⟩ := bind_eq_ok.mp h
    obtain ⟨metadata, hestablished, h⟩ := bind_eq_ok.mp h
    obtain ⟨_, hsame, h⟩ := bind_eq_ok.mp h
    obtain rfl := pure_eq_ok.mp h
    -- The tip that the probe read.
    have htip : (canonicalTip (store moments.tip)).map CanonicalTip.height = some height := by
      simp only [probe, evaluateReadiness] at hheight
      split_ifs at hheight
      · exact hheight
      · cases hheight
    obtain ⟨tip, hread, rfl⟩ := Option.map_eq_some_iff.mp htip
    -- The checkpoint that the signer read.
    split_ifs at hA
    obtain ⟨row, hrow, id, -, release, -, htuple⟩ := signedAt_ok hA
    have hrowHeight : row.height = tip.height := by simpa using List.find?_some hrow
    obtain ⟨a, ha, h⟩ := bind_eq_ok.mp hestablished
    obtain ⟨b, -, h⟩ := bind_eq_ok.mp h
    obtain ⟨_, -, h⟩ := bind_eq_ok.mp h
    obtain ⟨network, -, h⟩ := bind_eq_ok.mp h
    obtain ⟨_, -, h⟩ := bind_eq_ok.mp h
    obtain rfl := (isEnvelope_members pipelineA).unique (verifyTrustedEnvelope_eq_ok.mp ha).parsed
    obtain ⟨hmetadata, -⟩ := ensure_eq_ok.mp hsame
    obtain rfl := pure_eq_ok.mp h
    refine ⟨row, ?_, hmetadata.trans hrowHeight.symm, ?_, ?_, ?_, ?_, ?_, ?_, ?_⟩
    · rw [resolvedCheckpoint, hread]
      exact hrow
    all_goals
      dsimp only
      rw [htuple]
      rfl
  · cases h

theorem resolvedCheckpoint_some {store : ℕ → Db} {moments : Moments} {row : CheckpointRow}
    (h : resolvedCheckpoint store moments = some row) : row ∈ (store moments.signed).checkpoints ∧
      (canonicalTip (store moments.tip)).map CanonicalTip.height = some row.height := by
  obtain ⟨tip, htip, hfind⟩ := Option.bind_eq_some_iff.mp h
  have hheight : row.height = tip.height := by simpa using List.find?_some hfind
  rw [htip, hheight]
  exact ⟨List.mem_of_find?_eq_some hfind, rfl⟩

/-- What a resolution returns describes a checkpoint at the height of the tip that the probe read. -/
theorem resolveAt_ok {gateway : GatewayConfiguration} {store : ℕ → Db} {moments : Moments} {c : Circumstances}
    {verification : VerificationMetadata} (h : resolveAt gateway store moments c = .ok verification) :
    ∃ row ∈ (store moments.signed).checkpoints,
      (canonicalTip (store moments.tip)).map CanonicalTip.height = some row.height ∧ DescribedBy verification row := by
  obtain ⟨row, hrow, described⟩ := resolveAt_describes h
  obtain ⟨hmem, htip⟩ := resolvedCheckpoint_some hrow
  exact ⟨row, hmem, htip, described⟩

/-- A verification describes one checkpoint. -/
theorem DescribedBy.unique {verification : VerificationMetadata} {row row' : CheckpointRow}
    (h : DescribedBy verification row) (h' : DescribedBy verification row') : row = row' := by
  have hcount : ∀ {n m : ℕ}, toString n = toString m → n = m := by
    intro n m hnm
    have hread := congrArg decimal hnm
    rwa [show decimal (toString n) = n from decimal_toDigits n, show decimal (toString m) = m from decimal_toDigits m]
      at hread
  have hheight := h.height.symm.trans h'.height
  have hblock := Hash.text_injective (h.blockHash.symm.trans h'.blockHash)
  have hevents := Hash.text_injective (h.eventRoot.symm.trans h'.eventRoot)
  have hobjects := Hash.text_injective (h.objectStateRoot.symm.trans h'.objectStateRoot)
  have hchained := Hash.text_injective (h.chainedRoot.symm.trans h'.chainedRoot)
  have hfounding := hcount (h.foundingCreated.symm.trans h'.foundingCreated)
  have hall := hcount (h.allObjects.symm.trans h'.allObjects)
  have hactive := hcount (h.activeObjects.symm.trans h'.activeObjects)
  cases row
  cases row'
  congr

/-- A store is of the agreed state when its tip is as high as the checkpoint, and the checkpoint is in it. -/
theorem DescribedBy.agreedState_iff {verification : VerificationMetadata} {row : CheckpointRow}
    (described : DescribedBy verification row) {kept : Kept} :
    AgreedState verification kept.2 ↔ TipAt row kept ∧ Stores row kept := by
  constructor
  · rintro ⟨row', hrow', htip, described'⟩
    obtain rfl := described.unique described'
    exact ⟨htip, hrow'⟩
  · rintro ⟨htip, hrow⟩
    exact ⟨row, hrow, htip, described⟩

section

variable {t : Timeline (Commit packages binding)} {α : Type} {gateway : GatewayConfiguration} {x : Execution}
  {query : VerificationMetadata → List Db → Except String α} {response : VerifiedResponse α} (ordered : x.InOrder)
  (h : executeAt gateway (fun moment => (t.state moment).2) x query = .ok response)

include h

/-- Both resolutions are for one checkpoint. -/
theorem executeAt_checkpoints : ∃ row, DescribedBy response.verification row ∧
    resolvedCheckpoint (fun moment => (t.state moment).2) x.before = some row ∧
    resolvedCheckpoint (fun moment => (t.state moment).2) x.after = some row := by
  obtain ⟨hbefore, hafter, -⟩ := executeBound_ok h
  obtain ⟨row, hrow, described⟩ := resolveAt_describes hbefore
  obtain ⟨row', hrow', described'⟩ := resolveAt_describes hafter
  obtain rfl := described.unique described'
  exact ⟨row, described, hrow, hrow'⟩

include ordered

/-- What is missing at a statement returns before the second resolution reads it. -/
theorem returns_of_missing {row : CheckpointRow}
    (hrow : resolvedCheckpoint (fun moment => (t.state moment).2) x.before = some row) {moment : ℕ}
    (hmoment : moment ∈ x.statements) :
    (t.Returns (TipAt row) moment x.after.tip ↔ ¬TipAt row (t.state moment)) ∧
      (t.Returns (Stores row) moment x.after.signed ↔ ¬Stores row (t.state moment)) := by
  obtain ⟨row', -, hbefore, hafter⟩ := executeAt_checkpoints h
  obtain rfl := Option.some.inj (hrow.symm.trans hbefore)
  obtain ⟨hstored, htip⟩ := resolvedCheckpoint_some hafter
  have hread := (ordered.statements moment hmoment).2
  have hsigned : moment ≤ x.after.signed := hread.trans (ordered.after.1.trans ordered.after.2)
  exact ⟨Timeline.returns_iff hread htip, Timeline.returns_iff hsigned hstored⟩

/-- Commits of one kind bring nothing back. -/
theorem OneWay.nothingReturns (start : t.state 0 = ([], Db.empty)) (oneWay : OneWay t x.before.tip x.after.tip)
    {row : CheckpointRow} (hrow : resolvedCheckpoint (fun moment => (t.state moment).2) x.before = some row) :
    NothingReturns t x row := by
  obtain ⟨row', -, hbefore, hafter⟩ := executeAt_checkpoints h
  obtain rfl := Option.some.inj (hrow.symm.trans hbefore)
  obtain ⟨hstored, htip⟩ := resolvedCheckpoint_some hbefore
  have htip' := (resolvedCheckpoint_some hafter).2
  have same : heightAboveTip (t.state x.before.tip).2 = heightAboveTip (t.state x.after.tip).2 := by
    rw [heightAboveTip_of_tip htip, heightAboveTip_of_tip htip']
  have signing : x.before.tip ≤ x.before.signed := ordered.before.1.trans ordered.before.2
  have signed := unchanged_of_oneWay start oneWay same signing ordered.between
  -- Between the two probes the store stays as it is.
  have read : ∀ moment ∈ x.statements, t.state moment = t.state x.before.tip := by
    intro moment hmoment
    obtain ⟨hfrom, hto⟩ := ordered.statements moment hmoment
    exact unchanged_of_oneWay start oneWay same (signing.trans hfrom) hto
  constructor
  · intro moment hmoment
    rw [(returns_of_missing ordered h hrow hmoment).1, not_not, read moment hmoment]
    exact htip
  · intro moment hmoment
    rw [(returns_of_missing ordered h hrow hmoment).2, not_not, read moment hmoment, ← signed]
    exact hstored

/-- **A verified response carries data of the agreed state** exactly when no commit brings back the agreed height, or
its checkpoint, after a statement of the query that ran without it. The query computes the data from the stores of its
statements. -/
theorem verified_data_agreed_iff :
    query response.verification (x.statements.map fun moment => (t.state moment).2) = .ok response.data ∧
      ((∀ moment ∈ x.statements, AgreedState response.verification (t.state moment).2) ↔
        ∀ row, resolvedCheckpoint (fun moment => (t.state moment).2) x.before = some row → NothingReturns t x row) := by
  obtain ⟨row, described, hrow, -⟩ := executeAt_checkpoints h
  refine ⟨(executeBound_ok h).2.2, ?_⟩
  constructor
  · intro agreed row' hrow'
    obtain rfl := Option.some.inj (hrow.symm.trans hrow')
    have there := fun moment hmoment => described.agreedState_iff.mp (agreed moment hmoment)
    constructor
    · intro moment hmoment
      rw [(returns_of_missing ordered h hrow hmoment).1, not_not]
      exact (there moment hmoment).1
    · intro moment hmoment
      rw [(returns_of_missing ordered h hrow hmoment).2, not_not]
      exact (there moment hmoment).2
  · intro nothing moment hmoment
    have hheight := (nothing row hrow).height moment hmoment
    have hcheckpoint := (nothing row hrow).checkpoint moment hmoment
    rw [(returns_of_missing ordered h hrow hmoment).1, not_not] at hheight
    rw [(returns_of_missing ordered h hrow hmoment).2, not_not] at hcheckpoint
    exact described.agreedState_iff.mpr ⟨hheight, hcheckpoint⟩

end

/-! ### A tip that is left and comes back -/

/-- A gateway that trusts its own key in both pipelines. -/
def sampleGateway : GatewayConfiguration where
  curve := comparingCurve
  readiness := ⟨Hash.zero.text, "main", 1, true⟩
  deployment := sampleConfig.deployment
  agreement := sampleAgreement
  verification := ⟨some "https://pipeline-b.example.test", true, .ofList [("a", Hash.zero.text)],
    .ofList [("a", Hash.zero.text)]⟩

/-- A node at a height, and another pipeline with one answer. -/
def sampleCircumstances (height : ℕ) (pipelineB : Json) : Circumstances where
  alive := true
  tipAnswers := true
  checkpointAnswers := true
  signerAnswers := true
  core := some ⟨"main", height, sampleHash 4, false⟩
  state := ⟨.active, none, false, none, none, none⟩
  fetchPipelineB _ := .ok pipelineB

/-- The checkpoint of a height is the newest, and its block is the tip. -/
structure NewestAt (row : CheckpointRow) (store : ℕ → Db) (moments : Moments) : Prop where
  /-- The tip has the height. -/
  tip : (canonicalTip (store moments.tip)).map CanonicalTip.height = some row.height
  /-- So has the newest checkpoint. -/
  newest : newestCheckpoint (store moments.checkpoint) = some row.height
  /-- The signer reads the row. -/
  signed : (store moments.signed).checkpoints.find? (fun other => other.height = row.height) = some row

/-- The other pipeline can answer such that every resolution at a checkpoint gives one agreement. -/
theorem resolveAt_sample {row : CheckpointRow} (safe : row.height ≤ Agreement.MAX_SAFE_INTEGER) :
    ∃ pipelineB metadata, metadata.height = row.height ∧ ∀ store moments, NewestAt row store moments →
      resolveAt sampleGateway store moments (sampleCircumstances row.height pipelineB) = .ok metadata := by
  have rules := checkpointTuple_rules .mainnet (sampleHash 1) safe
  have hprivate : (bytes Hash.zero.text).length = 32 := length_bytes (Hash.isHex_text _)
  obtain ⟨envelope, publicKey, hsigned, htuple, hpublic, hverify⟩ :=
    signAgreementTuple_verifies comparingCurve_lawful rules (show isKeyId "a" = true by decide) hprivate
  have hkeyId : envelope.key_id = "a" := by
    obtain ⟨_, -, h⟩ := bind_eq_ok.mp hsigned
    obtain ⟨_, -, h⟩ := bind_eq_ok.mp h
    obtain ⟨_, -, h⟩ := bind_eq_ok.mp h
    obtain rfl := pure_eq_ok.mp h
    rfl
  have htext : toHex publicKey = Hash.zero.text := by
    obtain rfl := Except.ok.inj hpublic
    exact toHex_bytes (Hash.isHex_text _)
  rw [htext] at hverify
  rw [← htuple] at rules
  have trusted : ∀ label, verifyTrustedEnvelope comparingCurve.toSigning (envelopeJson envelope)
      (.ofList [("a", Hash.zero.text)]) label = .ok envelope := by
    intro label
    refine verifyTrustedEnvelope_eq_ok.mpr ⟨isEnvelope_members envelope, rules, _, ?_,
      (verifyAgreementEnvelope_iff rules).mp hverify⟩
    rw [hkeyId]
    rfl
  obtain ⟨network, hnetwork⟩ := Option.isSome_iff_exists.mp rules.protocol
  obtain ⟨metadata, establishes, hmetadata⟩ : ∃ metadata,
      establishVerifiedAgreement comparingCurve.toSigning (envelopeJson envelope) (envelopeJson envelope)
        (.ofList [("a", Hash.zero.text)]) (.ofList [("a", Hash.zero.text)]) Hash.zero.text = .ok metadata ∧
      metadata.height = decimal envelope.tuple.height :=
    ⟨_, bind_eq_ok.mpr ⟨_, trusted "pipeline A", bind_eq_ok.mpr ⟨_, trusted "pipeline B",
      bind_eq_ok.mpr ⟨(), forM_eq_ok.mpr fun _ _ => ensure_eq_ok.mpr rfl, bind_eq_ok.mpr ⟨_,
        orError_eq_ok.mpr hnetwork, bind_eq_ok.mpr ⟨(), ensure_eq_ok.mpr (isHex_text Hash.zero), rfl⟩⟩⟩⟩⟩, rfl⟩
  have hdecimal : decimal envelope.tuple.height = row.height := by
    rw [htuple]
    exact decimal_toDigits _
  have boundary : signingBoundaryConfigured comparingCurve sampleAgreement = true := by decide +kernel
  have hpresent : present sampleAgreement.keyId = some "a" ∧
      present sampleAgreement.privateKeyHex = some Hash.zero.text := by decide +kernel
  have named : decide (Hash.zero.text ≠ "") = true := by decide +kernel
  have lag : (row.height : ℤ) - row.height ≤ (1 : ℕ) := by omega
  refine ⟨envelopeJson envelope, metadata, hmetadata.trans hdecimal, fun store moments newest => ?_⟩
  refine resolve_eq_ok ?_ newest.tip (by decide) (by decide) ?_ rfl establishes ⟨hmetadata.trans hdecimal, ?_⟩
  · exact evaluateReadiness_ready.mpr ⟨named, rfl, rfl, rfl, ⟨rfl, rfl, rfl⟩,
      ⟨row.height, row.height, rfl, newest.tip, lag⟩, newest.newest.trans newest.tip.symm, rfl⟩
  · show signedAt comparingCurve sampleConfig.deployment sampleAgreement (store moments.signed) row.height = .ok envelope
    rw [signedAt_eq rfl newest.signed]
    simp only [sign, boundary, hpresent]
    exact hsigned
  · rw [htuple]
    rfl

/-- The database after the newer block was disconnected. -/
def shorterDb : Db :=
  (rollback ⟨8, 7, [8]⟩ ⟨(sampleHash 4).text, (sampleHash 2).text, ""⟩ sampleDb).toOption.getD Db.empty

/-- The newer block, reduced again. -/
def reducedAgain : List ReducedBlock :=
  (reduceChain samplePackages sampleBinding (.read samplePackages sampleBinding shorterDb shorterDb.objects)
    [sampleNextBlock]).toOption.getD []

/-- The database after it was written again. -/
def againDb : Db := (appendBlocks reducedAgain shorterDb).toOption.getD Db.empty

/-- The history of the sample database. -/
def sampleHistory : History := History.record [] Db.empty [sampleInitBlock, sampleNextBlock] sampleReduced

/-- The history after the newer block was disconnected. -/
def shorterHistory : History := sampleHistory.dropWhile fun entry => (7 : ℤ) < entry.1.height

/-- Two blocks are appended, the newer one is disconnected, and appended again. -/
def sampleTimeline : Timeline (Commit samplePackages sampleBinding) where
  state
    | 0 => ([], Db.empty)
    | 1 => (sampleHistory, sampleDb)
    | 2 => (shorterHistory, shorterDb)
    | _ + 3 => (shorterHistory.record shorterDb [sampleNextBlock] reducedAgain, againDb)
  kind
    | 0 => .append
    | 1 => .rollback
    | 2 => .append
    | _ + 3 => .nothing
  changes
    | 0 => .append sampleBlocks_extend (.refl []) ⟨rfl, rfl, fun _ => rfl⟩ sampleReduced_reduces sampleDb_appends
    | 1 => by
      have rolls : rollback ⟨8, 7, [8]⟩ ⟨(sampleHash 4).text, (sampleHash 2).text, ""⟩ sampleDb = .ok shorterDb :=
        eq_ok_getD (by decide +kernel) Db.empty
      exact .rollback sampleDb_activated samplePlan_planned rolls
    | 2 => by
      have reduces : reduceChain samplePackages sampleBinding
          (.read samplePackages sampleBinding shorterDb shorterDb.objects) [sampleNextBlock] = .ok reducedAgain :=
        eq_ok_getD (by decide +kernel) []
      have appends : appendBlocks reducedAgain shorterDb = .ok againDb := eq_ok_getD (by decide +kernel) Db.empty
      have blocks : shorterHistory.blocks = [sampleInitBlock] := by decide +kernel
      refine .append ?_ (.refl _) ⟨rfl, rfl, fun _ => rfl⟩ reduces appends
      rw [blocks]
      exact ⟨⟨rfl, rfl⟩, trivial⟩
    | _ + 3 => .nothing

/-- The blocks of two lives are appended one after the other. -/
def storyTimeline {story : Story} (ran : tellStory = .ok story) : Timeline (Commit lifePackages sampleBinding) where
  state
    | 0 => ([], Db.empty)
    | 1 => ([(openBlock, story.before)], story.before)
    | _ + 2 => ([(laterBlock, story.db), (openBlock, story.before)], story.db)
  kind
    | 0 => .append
    | 1 => .append
    | _ + 2 => .nothing
  changes
    | 0 => .next trivial (Story.steps ran).1 (Story.steps ran).2.1
    | 1 => .next ⟨rfl, rfl⟩ (Story.steps ran).2.2.1 (Story.steps ran).2.2.2
    | _ + 2 => .nothing

/-- An `execute` that resolves at a moment, queries at others, and resolves again. -/
def sampleExecution (pipelineB : Json) (first : ℕ) (reads : List ℕ) (last : ℕ) : Execution where
  before := ⟨first, first, first⟩
  first := sampleCircumstances 8 pipelineB
  statements := reads
  after := ⟨last, last, last⟩
  second := sampleCircumstances 8 pipelineB

theorem sampleExecution_inOrder (pipelineB : Json) {first last : ℕ} {reads : List ℕ}
    (h : ∀ read ∈ reads, first ≤ read ∧ read ≤ last) (sequential : reads.Pairwise fun earlier later => earlier ≤ later)
    (h' : first ≤ last) : (sampleExecution pipelineB first reads last).InOrder where
  before := ⟨le_rfl, le_rfl⟩
  statements := h
  sequential := sequential
  between := h'
  after := ⟨le_rfl, le_rfl⟩

theorem againDb_checkpoints : againDb.checkpoints = sampleDb.checkpoints := by decide +kernel

theorem sampleTimeline_tip {moment : ℕ} (h : moment = 1 ∨ moment = 3) :
    (canonicalTip (sampleTimeline.state moment).2).map CanonicalTip.height = some 8 ∧
      (sampleTimeline.state moment).2.checkpoints = sampleDb.checkpoints := by
  have htip : (canonicalTip sampleDb).map CanonicalTip.height = some 8 := by decide +kernel
  have htip' : (canonicalTip againDb).map CanonicalTip.height = some 8 := by decide +kernel
  rcases h with rfl | rfl
  · exact ⟨htip, rfl⟩
  · exact ⟨htip', againDb_checkpoints⟩

/-- At the moments 1 and 3 the sample gateway resolves the same agreement. -/
theorem executeAt_sample : ∃ pipelineB verification, verification.height = 8 ∧ ∀ first reads last,
    (first = 1 ∨ first = 3) → (last = 1 ∨ last = 3) →
      executeAt sampleGateway (fun moment => (sampleTimeline.state moment).2)
        (sampleExecution pipelineB first reads last) (fun _ stores => .ok (stores.map canonicalTip)) =
        .ok ⟨verification, reads.map fun read => canonicalTip (sampleTimeline.state read).2⟩ := by
  obtain ⟨row, hrow⟩ : ∃ row, sampleDb.checkpoints.find? (fun row => row.height = 8) = some row :=
    Option.isSome_iff_exists.mp (by decide +kernel)
  have hnewest : newestCheckpoint sampleDb = some 8 := by decide +kernel
  have hheight : row.height = 8 := by simpa using List.find?_some hrow
  obtain ⟨pipelineB, verification, hverified, hresolve⟩ := resolveAt_sample (hheight.trans_le (by decide))
  have hresolved : ∀ moment, moment = 1 ∨ moment = 3 →
      resolveAt sampleGateway (fun moment => (sampleTimeline.state moment).2) ⟨moment, moment, moment⟩
        (sampleCircumstances 8 pipelineB) = .ok verification := by
    intro moment hmoment
    obtain ⟨htip, hcheckpoints⟩ := sampleTimeline_tip hmoment
    refine hheight ▸ hresolve _ _ ⟨htip.trans (congrArg some hheight.symm), ?_, ?_⟩
    · rw [newestCheckpoint, hcheckpoints, hheight]
      exact hnewest
    · rw [hcheckpoints, hheight]
      exact hrow
  refine ⟨pipelineB, verification, hverified.trans hheight, fun first reads last hfirst hlast => ?_⟩
  unfold executeAt
  rw [show (sampleExecution pipelineB first reads last).before = ⟨first, first, first⟩ from rfl,
    show (sampleExecution pipelineB first reads last).after = ⟨last, last, last⟩ from rfl]
  show executeBound (resolveAt sampleGateway _ _ (sampleCircumstances 8 pipelineB)) _
    (resolveAt sampleGateway _ _ (sampleCircumstances 8 pipelineB)) = _
  rw [hresolved first hfirst, hresolved last hlast]
  simp [executeBound, sampleExecution, Function.comp_def]

/-- The query runs before the newer block is disconnected and after it is appended again. -/
theorem verified_data_agreed_iff_sample : ∃ verification : VerificationMetadata, verification.height = 8 ∧
    AgreedState verification (sampleTimeline.state 1).2 ∧ AgreedState verification (sampleTimeline.state 3).2 := by
  obtain ⟨pipelineB, verification, hheight, h⟩ := executeAt_sample
  have ordered : (sampleExecution pipelineB 1 [1, 3] 3).InOrder :=
    sampleExecution_inOrder pipelineB (by decide) (by decide) (by decide)
  obtain ⟨-, hiff⟩ := verified_data_agreed_iff (t := sampleTimeline) ordered (h 1 [1, 3] 3 (.inl rfl) (.inr rfl))
  have agreed := hiff.mpr fun row hrow => by
    obtain ⟨hstored, htip⟩ := resolvedCheckpoint_some hrow
    have there : ∀ moment ∈ [1, 3], TipAt row (sampleTimeline.state moment) ∧ Stores row (sampleTimeline.state moment) := by
      intro moment hmoment
      obtain ⟨hat, hcheckpoints⟩ := @sampleTimeline_tip moment (by simpa using hmoment)
      have hrowHeight : some 8 = some row.height := (sampleTimeline_tip (.inl rfl)).1.symm.trans htip
      refine ⟨hat.trans hrowHeight, ?_⟩
      rw [Stores, hcheckpoints]
      exact hstored
    constructor
    · rintro moment hmoment ⟨i, hi, -, missing, -⟩
      exact missing moment le_rfl hi (there moment hmoment).1
    · rintro moment hmoment ⟨i, hi, -, missing, -⟩
      exact missing moment le_rfl hi (there moment hmoment).2
  exact ⟨verification, hheight, agreed 1 (by simp [sampleExecution]), agreed 3 (by simp [sampleExecution])⟩

/-- **A response is returned for data of another state**: the tip is left before the query reads and comes back
before it is read again. -/
theorem verified_data_disagrees : ∃ (t : Timeline (Commit samplePackages sampleBinding))
    (gateway : GatewayConfiguration) (x : Execution)
    (query : VerificationMetadata → List Db → Except String (List (Option CanonicalTip)))
    (response : VerifiedResponse (List (Option CanonicalTip))),
    t.state 0 = ([], Db.empty) ∧ Lawful gateway.curve ∧ x.InOrder ∧
      executeAt gateway (fun moment => (t.state moment).2) x query = .ok response ∧
      ∃ moment ∈ x.statements, ¬AgreedState response.verification (t.state moment).2 := by
  obtain ⟨pipelineB, verification, hheight, h⟩ := executeAt_sample
  refine ⟨sampleTimeline, sampleGateway, sampleExecution pipelineB 1 [2] 3, _, _, rfl, comparingCurve_lawful,
    sampleExecution_inOrder pipelineB (by decide) (by decide) (by decide), h 1 [2] 3 (.inl rfl) (.inr rfl), 2,
    List.mem_singleton_self 2, ?_⟩
  rintro ⟨row, -, htip, described⟩
  have hseven : (canonicalTip shorterDb).map CanonicalTip.height = some 7 := by decide +kernel
  have hrow : 7 = row.height := Option.some.inj (hseven.symm.trans htip)
  have hdescribed : verification.height = row.height := described.height
  omega

end IndexTandem.Verification
