import IndexTandem.Indexer.SyncRuns

/-!
# The scan for the INIT

Without an index of transactions the node cannot say where the INIT is, and the service looks
for it block by block. The cursor of the scan only moves forward. A block below it that the
node replaces is not looked at again, so an INIT that a reorganization brings there is never
found (`init_passed`). When no such block gets the INIT, the cursor never passes it, and the
scan reaches it (`init_not_passed`).
-/

namespace IndexTandem.Indexer

open Library Protocol Database

variable {world : World} {packages : Packages} {config : SyncConfiguration} {txid : Hash}

/-! ### What the process was told -/

/-- The surroundings, and what the process was told by the node while it looks for the INIT. -/
structure Watched extends Surroundings where
  /-- The greatest height of a tip that the node reported. -/
  reported : ℕ
  /-- The heights of the blocks whose hashes it gave. -/
  asked : List ℕ
  /-- The greatest height it had reported when it had the INIT in its mempool. -/
  sighted : ℕ

/-- The greatest height reported, after an answer. -/
def reportedAfter (s : Watched) : (c : SyncCall) → Except String c.Value → ℕ
  | .getBlockchainInfo, .ok info => max s.reported info.blocks
  | _, _ => s.reported

/-- The heights asked for, after an answer. -/
def askedAfter (s : Watched) : (c : SyncCall) → Except String c.Value → List ℕ
  | .getBlockHash height, .ok _ => height :: s.asked
  | _, _ => s.asked

/-- The height of the last sighting, after an answer. -/
def sightedAfter (s : Watched) : (c : SyncCall) → Except String c.Value → ℕ
  | .getRawTransactionLocation _, .ok none => max s.sighted s.reported
  | _, _ => s.sighted

/-- A transaction in the mempool is in no block of the chain. -/
def Surroundings.Apart (s : Surroundings) : Prop := ∀ block ∈ s.node, ∀ txid ∈ s.mempool, ¬Contains block txid

/-- A call is answered; `admits` says how the surroundings may change before it is. -/
structure World.Watches (world : World) (admits : Watched → Watched → Prop) (c : SyncCall) (s : Watched)
    (answer : Except String c.Value) (s' : Watched) : Prop where
  /-- The answer is one that the node may give. -/
  answers : world.Answers c s.toSurroundings answer s'.toSurroundings
  /-- The mempool is apart from the chain. -/
  apart : s'.toSurroundings.Apart
  /-- The change is admitted. -/
  admitted : admits s s'
  /-- What was reported. -/
  reported : s'.reported = reportedAfter s c answer
  /-- What was asked for. -/
  asked : s'.asked = askedAfter s c answer
  /-- What was sighted. -/
  sighted : s'.sighted = sightedAfter s c answer

/-- Between two ticks the node moves; `admits` says how. -/
structure World.Wanders (world : World) (admits : Watched → Watched → Prop) (s s' : Watched) : Prop where
  /-- The node moves. -/
  moves : world.Moves s.toSurroundings s'.toSurroundings
  /-- The mempool is apart from the chain. -/
  apart : s'.toSurroundings.Apart
  /-- The change is admitted. -/
  admitted : admits s s'
  /-- Nothing is reported. -/
  reported : s'.reported = s.reported
  /-- Nothing is asked for. -/
  asked : s'.asked = s.asked
  /-- Nothing is sighted. -/
  sighted : s'.sighted = s.sighted

/-- Where the scan began, once the memory has a cursor: the scan depth below the node's height in the step that set
it. The cursor's first value is this, or the node's height itself after a sighting. -/
def scanStart (config : SyncConfiguration) (start : Option ℕ) (memory : SyncMemory) : Option ℕ :=
  if memory.scanCursor.isNone then none
  else start <|> memory.state.node.map fun node => node.height - config.initScanDepth

/-- Where the scan began, after a move of the process. -/
def nextStart (config : SyncConfiguration) (start : Option ℕ) : Activity SyncCall SyncCall.Value String SyncMemory → Option ℕ
  | .idle memory => scanStart config start memory
  | .busy _ => start

/-- The states of a process, with where its scan began. -/
inductive Scanning (world : World) (packages : Packages) (config : SyncConfiguration)
    (admits : Watched → Watched → Prop) :
    Option ℕ → Activity SyncCall SyncCall.Value String SyncMemory × Watched → Prop
  /-- A new process, on any database and any chain, was told nothing. -/
  | begins (s : Surroundings) : Scanning world packages config admits none (.idle (.fresh config), ⟨s, 0, [], 0⟩)
  /-- The process or the node moves. -/
  | turns {start : Option ℕ} {p q : Activity SyncCall SyncCall.Value String SyncMemory × Watched}
      (scanning : Scanning world packages config admits start p)
      (turn : Turn (world.Watches admits) (world.Wanders admits) (tick packages config) (.fresh config) p q) :
      Scanning world packages config admits (nextStart config start q.1) q
  /-- Without a cursor, what the process was told does not matter any more. -/
  | forgets {start : Option ℕ} {memory : SyncMemory} {s : Watched}
      (scanning : Scanning world packages config admits start (.idle memory, s)) (idle : memory.scanCursor = none) :
      Scanning world packages config admits none (.idle memory, { s with asked := [], sighted := 0 })

/-- The change brings the INIT into no block at a height whose hash the process was given, and into none below the
height that the node had reported when it had the INIT in its mempool. -/
def Undisturbed (txid : Hash) (s s' : Watched) : Prop :=
  ∀ block ∈ s'.node, Contains block txid → block ∈ s.node ∨ (block.height ∉ s.asked ∧ s.sighted ≤ block.height)

/-! ### The invariant -/

/-- The surroundings after some admitted changes. -/
structure Drifts (txid : Hash) (s s' : Watched) : Prop where
  /-- The reported height only grows. -/
  reported : s.reported ≤ s'.reported
  /-- What was asked stays asked. -/
  asked : ∀ height ∈ s.asked, height ∈ s'.asked
  /-- So does what was sighted. -/
  sighted : s.sighted ≤ s'.sighted
  /-- The INIT did not get behind the process. -/
  undisturbed : Undisturbed txid s s'

/-- The scan began at `start`, and no block of the chain from there up to the cursor has the INIT. -/
structure Passed (txid : Hash) (start : ℕ) (memory : SyncMemory) (s : Watched) : Prop where
  /-- The cursor only moves forward. -/
  forward : ∀ cursor, memory.scanCursor = some cursor → start ≤ cursor
  /-- Every height behind it was asked for, or is below a sighting. -/
  told : ∀ cursor, memory.scanCursor = some cursor → ∀ height, start ≤ height → height < cursor →
    height ∈ s.asked ∨ height < s.sighted
  /-- No block behind it has the INIT. -/
  clear : ∀ cursor, memory.scanCursor = some cursor → ∀ block ∈ s.node, Contains block txid → start ≤ block.height →
    cursor ≤ block.height

section

variable {start : ℕ} {memory : SyncMemory} {s s' : Watched}

theorem Drifts.refl (s : Watched) : Drifts txid s s := ⟨le_rfl, fun _ h => h, le_rfl, fun _ hb _ => .inl hb⟩

theorem Drifts.trans {s'' : Watched} (h : Drifts txid s s') (h' : Drifts txid s' s'') : Drifts txid s s'' := by
  refine ⟨h.reported.trans h'.reported, fun height hh => h'.asked _ (h.asked _ hh), h.sighted.trans h'.sighted, ?_⟩
  intro block hb hc
  rcases h'.undisturbed block hb hc with hb' | ⟨hasked, hsighted⟩
  · exact h.undisturbed block hb' hc
  · exact .inr ⟨fun ha => hasked (h.asked _ ha), h.sighted.trans hsighted⟩

theorem drifts_frame : Action.Frame (Drifts txid) (fun _ => True) := ⟨.refl, .trans, fun _ _ => trivial⟩

theorem World.Watches.drifts {c : SyncCall} {answer : Except String c.Value}
    (h : world.Watches (Undisturbed txid) c s answer s') : Drifts txid s s' := by
  refine ⟨?_, fun height hh => ?_, ?_, h.admitted⟩
  · rw [h.reported]
    unfold reportedAfter
    split
    · exact le_max_left _ _
    · exact le_rfl
  · rw [h.asked]
    unfold askedAfter
    split
    · exact List.mem_cons_of_mem _ hh
    · exact hh
  · rw [h.sighted]
    unfold sightedAfter
    split
    · exact le_max_left _ _
    · exact le_rfl

/-- What was passed stays passed. -/
theorem Passed.drifts (h : Passed txid start memory s) (hd : Drifts txid s s') {memory' : SyncMemory}
    (hcursor : memory'.scanCursor = memory.scanCursor) : Passed txid start memory' s' := by
  refine ⟨fun cursor hc => h.forward cursor (hcursor ▸ hc), fun cursor hc height hle hlt => ?_, ?_⟩
  · exact (h.told cursor (hcursor ▸ hc) height hle hlt).imp (hd.asked height) fun hs => hs.trans_le hd.sighted
  · intro cursor hc block hb hcontains hle
    rw [hcursor] at hc
    rcases hd.undisturbed block hb hcontains with hb' | ⟨hasked, hsighted⟩
    · exact h.clear cursor hc block hb' hcontains hle
    · -- The height was not asked for, so it is not behind the cursor.
      by_contra hlt
      rcases h.told cursor hc block.height hle (by omega) with ha | hs
      · exact hasked ha
      · omega

theorem Passed.of_none (hnone : memory.scanCursor = none) : Passed txid start memory s := by
  constructor <;> intro cursor hc <;> exact (not_none_of_some hc hnone).elim

theorem Passed.initial (hstart : memory.scanCursor = some start) : Passed txid start memory s := by
  constructor
  · intro cursor hc
    exact (Option.some.inj (hstart.symm.trans hc)).le
  · intro cursor hc height hle hlt
    obtain rfl := Option.some.inj (hstart.symm.trans hc)
    omega
  · intro cursor hc block _ _ hle
    obtain rfl := Option.some.inj (hstart.symm.trans hc)
    exact hle

end

/-! ### What every part of a step keeps -/

/-- The scan is as it should be, in a step in which the node reported `nodeHeight`. -/
structure InScan (txid : Hash) (start nodeHeight : ℕ) (memory : SyncMemory) (s : Watched) : Prop where
  /-- No block behind the cursor has the INIT. -/
  passed : Passed txid start memory s
  /-- The node's height is kept. -/
  node : memory.state.node.map NodeTip.height = some nodeHeight
  /-- It was reported. -/
  reported : nodeHeight ≤ s.reported

section

variable {start nodeHeight : ℕ} {memory : SyncMemory} {s s' : Watched} {α : Type}

variable (world txid start nodeHeight) in
/-- The action keeps the scan as it should be. -/
abbrev Scans (x : Sync α) : Prop := Action.Keeps (world.Watches (Undisturbed txid)) (InScan txid start nodeHeight) x

theorem InScan.drifts (h : InScan txid start nodeHeight memory s) (hd : Drifts txid s s') {memory' : SyncMemory}
    (hcursor : memory'.scanCursor = memory.scanCursor) (hnode : memory'.state.node = memory.state.node) :
    InScan txid start nodeHeight memory' s' :=
  ⟨h.passed.drifts hd hcursor, hnode ▸ h.node, h.reported.trans hd.reported⟩

/-- Every call keeps it. -/
theorem scans_call (c : SyncCall) : Scans world txid start nodeHeight (await c) :=
  .call fun _ _ _ _ ha h => h.drifts ha.drifts rfl rfl

/-- So does everything done to other parts of the memory. -/
theorem scans_modify {f : SyncMemory → SyncMemory} (hcursor : ∀ m, (f m).scanCursor = m.scanCursor)
    (hnode : ∀ m, (f m).state.node = m.state.node) : Scans world txid start nodeHeight (modify f : Sync PUnit) :=
  .modify fun m s h => h.drifts (.refl s) (hcursor m) (hnode m)

/-- And giving up the cursor. -/
theorem scans_reset {f : SyncMemory → SyncMemory} (hcursor : ∀ m, (f m).scanCursor = none)
    (hnode : ∀ m, (f m).state.node = m.state.node) : Scans world txid start nodeHeight (modify f : Sync PUnit) :=
  .modify fun m _ h => ⟨.of_none (hcursor m), hnode m ▸ h.node, h.reported⟩

theorem scans_loadObjects : Scans world txid start nodeHeight loadObjects := by
  refine Action.Keeps.bind .get fun memory => ?_
  cases memory.objects with
  | some objects => exact .pure _
  | none => exact (scans_call _).bind fun _ => Action.Keeps.bind (scans_modify (by intro; rfl) (by intro; rfl)) fun _ => .pure _

theorem scans_fetchBlocks (heights : List ℕ) : Scans world txid start nodeHeight (fetchBlocks heights) := by
  induction heights with
  | nil => exact .pure _
  | cons height heights ih =>
    exact (scans_call _).bind fun _ => (scans_call _).bind fun _ => ih.bind fun _ => .pure _

theorem scans_connectBlocks {binding : Binding} (blocks : List BitcoinBlock) (batch : Batch) :
    Scans world txid start nodeHeight (connectBlocks packages binding batch blocks) := by
  induction blocks generalizing batch with
  | nil => exact .pure _
  | cons block blocks ih =>
    unfold connectBlocks
    split_ifs
    · exact .pure _
    · exact Action.Keeps.bind (scans_reset (by intro; rfl) (by intro; rfl)) fun _ => .pure _
    · exact Action.Keeps.bind (.lift _) fun reduced => ih _

theorem scans_connectGroups {binding : Binding} (groups : List (List ℕ)) (batch : Batch) :
    Scans world txid start nodeHeight (connectGroups packages binding batch groups) := by
  induction groups generalizing batch with
  | nil => exact .pure _
  | cons heights groups ih =>
    refine (scans_call _).bind fun stopping => ?_
    split_ifs
    · exact .pure _
    · refine (scans_fetchBlocks heights).bind fun blocks => ?_
      exact (scans_connectBlocks blocks batch).bind fun batch => ih batch

theorem scans_connectBatch {binding : Binding} (activation : Option InitActivation) (tip : Option CanonicalTip)
    (first last : ℕ) :
    Scans world txid start nodeHeight (connectBatch packages config binding activation tip first last) := by
  refine scans_loadObjects.bind fun objects => (scans_connectGroups _ _).bind fun batch => ?_
  split_ifs
  · exact .pure _
  · exact (scans_call _).bind fun _ => Action.Keeps.bind (scans_modify (by intro; rfl) (by intro; rfl)) fun _ => .pure _

/-- What only reads keeps it. -/
theorem scans_read {x : Sync α} (h : Action.Leaves (world.Watches (Undisturbed txid)) (fun _ => True) (Drifts txid)
    (fun memory => (memory.scanCursor, memory.state.node)) x) : Scans world txid start nodeHeight x :=
  h.keeps fun hd hview h => h.drifts hd (Prod.mk.inj hview).1 (Prod.mk.inj hview).2

theorem reads_call (c : SyncCall) : Action.Leaves (world.Watches (Undisturbed txid)) (fun _ => True) (Drifts txid)
    (fun memory => (memory.scanCursor, memory.state.node)) (await c) :=
  .call drifts_frame fun _ _ _ ha => ha.drifts

theorem scans_rollback (tipHeight : ℕ) (tipHash : Hash) (initHeight : ℕ) :
    Scans world txid start nodeHeight (rollbackToCommonAncestor tipHeight tipHash initHeight) := by
  refine (scans_read (leaves_searchAncestor drifts_frame (fun c _ => reads_call c) _ _)).bind fun ancestor => ?_
  refine (scans_read (leaves_ancestorHashText drifts_frame (fun c _ => reads_call c) _ _)).bind fun text => ?_
  refine (scans_call _).bind fun info => Action.Keeps.bind (.lift _) fun plan => ?_
  exact (scans_call _).bind fun _ => scans_reset (by intro; rfl) (by intro; rfl)

/-! ### The scan itself -/

/-- What listing the transactions of the block at a height says about the chain, while the INIT does not get behind
the process. -/
theorem watched_blockHolds (height : ℕ) :
    (blockHolds txid height).wp (world.Watches (Undisturbed txid)) (fun _ => True) (fun r memory' s' =>
      memory' = memory ∧ Drifts txid s s' ∧ (r = .ok false → height ∈ s'.asked ∧
        ∀ block ∈ s'.node, Contains block txid → block.height ≠ height)) memory s := by
  refine Action.wp_bind.mpr (Action.wp_call.mpr fun answer s₁ h₁ => ⟨trivial, ?_⟩)
  cases answer with
  | error e => exact ⟨rfl, h₁.drifts, fun h => by cases h⟩
  | ok hash =>
    refine Action.wp_bind.mpr (Action.wp_call.mpr fun answer s₂ h₂ => ⟨trivial, ?_⟩)
    cases answer with
    | error e => exact ⟨rfl, h₁.drifts.trans h₂.drifts, fun h => by cases h⟩
    | ok txids =>
      refine ⟨rfl, h₁.drifts.trans h₂.drifts, fun h => ?_⟩
      obtain ⟨block, hb, hheight, hhash⟩ := h₁.answers.returns hash rfl
      obtain ⟨listed, hlisted, rfl⟩ := h₂.answers.returns txids rfl
      have hknown : listed = block := by
        rw [← hhash, h₁.answers.chain.known block hb] at hlisted
        exact (Option.some.inj hlisted).symm
      have hnot : txid ∉ listed.transactions.map BitcoinTransaction.txid := of_decide_eq_false (Except.ok.inj h)
      have hasked : height ∈ s₁.asked := by
        rw [h₁.asked]
        exact List.mem_cons_self
      refine ⟨h₂.drifts.asked height hasked, fun other ho hcontains hsame => ?_⟩
      rcases h₂.admitted other ho hcontains with ho' | ⟨hnew, -⟩
      · -- The block of the chain at the height is the one listed.
        obtain rfl := h₁.answers.chain.unique ho' hb (hsame.trans hheight.symm)
        obtain ⟨tx, htx, hid⟩ := hcontains
        refine hnot ?_
        rw [hknown]
        exact List.mem_map.mpr ⟨tx, htx, hid⟩
      · exact hnew (hsame ▸ hasked)

/-- Scanning further blocks keeps the scan as it should be. -/
theorem scans_scanInit (turns : ℕ) : ∀ {memory : SyncMemory} {s : Watched}, InScan txid start nodeHeight memory s →
    memory.scanCursor.isSome →
    (scanInit txid nodeHeight turns).wp (world.Watches (Undisturbed txid)) (fun _ => True)
      (fun _ memory' s' => InScan txid start nodeHeight memory' s') memory s := by
  induction turns with
  | zero => exact fun h _ => h
  | succ turns ih =>
    intro memory s h hsome
    obtain ⟨cursor, hcursor⟩ := Option.isSome_iff_exists.mp hsome
    refine Action.wp_bind.mpr (Action.wp_get.mpr ?_)
    simp only [hcursor, Option.getD_some]
    split_ifs
    · refine Action.wp_bind.mpr (Action.wp_mono (watched_blockHolds cursor) ?_)
      rintro (e | found) memory₁ s₁ ⟨rfl, hd, hclear⟩
      · exact h.drifts hd rfl rfl
      have h₁ := h.drifts hd rfl rfl
      cases found with
      | true => exact h₁
      | false =>
        obtain ⟨hasked, hnone⟩ := hclear rfl
        refine Action.wp_bind.mpr (Action.wp_modify.mpr (ih ?_ rfl))
        refine ⟨⟨?_, ?_, ?_⟩, h₁.node, h₁.reported⟩
        · rintro _ ⟨⟩
          exact (h₁.passed.forward cursor hcursor).trans (Nat.le_succ cursor)
        · rintro _ ⟨⟩ height hle hlt
          rcases Nat.lt_succ_iff_lt_or_eq.mp hlt with hlt | rfl
          · exact h₁.passed.told cursor hcursor height hle hlt
          · exact .inl hasked
        · rintro _ ⟨⟩ block hb hcontains hle
          have := h₁.passed.clear cursor hcursor block hb hcontains hle
          have := hnone block hb hcontains
          omega
    · exact h

/-- Asking the node about the INIT keeps the scan as it should be: while the INIT is in the mempool, no block has it. -/
theorem scans_lookupInit {memory : SyncMemory} {s : Watched} (h : InScan txid start nodeHeight memory s)
    (hbegin : memory.scanCursor = none → start ≤ nodeHeight) :
    (lookupInit txid nodeHeight).wp (world.Watches (Undisturbed txid)) (fun _ => True)
      (fun r memory' s' => InScan txid start nodeHeight memory' s' ∧
        (r = .ok .unknown → memory'.scanCursor = memory.scanCursor)) memory s := by
  refine Action.wp_tryCatch.mpr (Action.wp_bind.mpr (Action.wp_call.mpr fun answer s₁ h₁ => ⟨trivial, ?_⟩))
  have hs₁ := h.drifts h₁.drifts rfl rfl
  cases answer with
  | error e => exact ⟨hs₁, fun _ => rfl⟩
  | ok location =>
    cases location with
    | some hash =>
      refine Action.wp_bind.mpr (Action.wp_call.mpr fun answer s₂ h₂ => ⟨trivial, ?_⟩)
      have hs₂ := hs₁.drifts h₂.drifts rfl rfl
      cases answer with
      | error e => exact ⟨hs₂, fun _ => rfl⟩
      | ok header => exact ⟨hs₂, fun _ => rfl⟩
    | none =>
      have hmempool : txid ∈ s₁.mempool := h₁.answers.returns none rfl
      have hsighted : nodeHeight ≤ s₁.sighted := by
        rw [h₁.sighted]
        exact h.reported.trans (le_max_right _ _)
      refine ⟨⟨⟨?_, ?_, ?_⟩, hs₁.node, hs₁.reported⟩, fun h => by cases h⟩
      · rintro _ ⟨⟩
        cases hcursor : memory.scanCursor with
        | none => exact (hbegin hcursor).trans (le_max_right _ _)
        | some cursor => exact (h.passed.forward cursor hcursor).trans (le_max_left _ _)
      · rintro _ ⟨⟩ height hle hlt
        replace hlt : height < max (memory.scanCursor.getD 0) nodeHeight := hlt
        rcases (by omega : height < memory.scanCursor.getD 0 ∨ height < nodeHeight) with hlt | hlt
        · cases hcursor : memory.scanCursor with
          | none => simp [hcursor] at hlt
          | some cursor =>
            rw [hcursor] at hlt
            exact hs₁.passed.told cursor hcursor height hle hlt
        · exact .inr (hlt.trans_le hsighted)
      · rintro _ ⟨⟩ block hb hcontains
        exact absurd hcontains (h₁.apart block hb txid hmempool)

/-- Locating the INIT keeps the scan as it should be. -/
theorem scans_locateInit {memory : SyncMemory} {s : Watched} (h : InScan txid start nodeHeight memory s)
    (hbegin : memory.scanCursor = none → start = nodeHeight - config.initScanDepth) :
    (locateInit config txid nodeHeight).wp (world.Watches (Undisturbed txid)) (fun _ => True)
      (fun _ memory' s' => InScan txid start nodeHeight memory' s') memory s := by
  have hinted := leaves_hintedInit drifts_frame (fun c _ => @reads_call world txid c) config txid
    nodeHeight
  refine Action.wp_bind.mpr (Action.wp_mono (hinted memory s trivial) ?_)
  rintro (e | height) memory₁ s₁ ⟨hd, hview⟩
  · exact h.drifts hd (Prod.mk.inj hview).1 (Prod.mk.inj hview).2
  have h₁ := h.drifts hd (Prod.mk.inj hview).1 (Prod.mk.inj hview).2
  have hbegin₁ : memory₁.scanCursor = none → start = nodeHeight - config.initScanDepth := by
    rw [(Prod.mk.inj hview).1]
    exact hbegin
  cases height with
  | some height => exact h₁
  | none =>
    refine Action.wp_bind.mpr (Action.wp_mono (scans_lookupInit h₁ fun hnone => ?_) ?_)
    · rw [hbegin₁ hnone]
      exact Nat.sub_le _ _
    · rintro (e | lookup) memory₂ s₂ ⟨h₂, hsame⟩
      · exact h₂
      cases lookup with
      | confirmed height => exact h₂
      | waiting => exact h₂
      | unknown =>
        refine Action.wp_bind.mpr (Action.wp_modify.mpr (scans_scanInit _ ?_ rfl))
        cases hcursor : memory₂.scanCursor with
        | some cursor => exact h₂.drifts (.refl s₂) hcursor.symm rfl
        | none =>
          rw [← hbegin₁ ((hsame rfl).symm.trans hcursor)]
          exact ⟨.initial rfl, h₂.node, h₂.reported⟩

/-! ### A tick -/

/-- Going forward keeps the scan as it should be. -/
theorem scans_syncForward {binding : Binding} (hid : binding.initTxid = txid) {memory : SyncMemory} {s : Watched}
    (h : InScan txid start nodeHeight memory s)
    (hbegin : memory.scanCursor = none → start = nodeHeight - config.initScanDepth)
    (activation : Option InitActivation) (tip : Option CanonicalTip) :
    (syncForward packages config binding activation tip nodeHeight).wp (world.Watches (Undisturbed txid))
      (fun _ => True) (fun _ memory' s' => InScan txid start nodeHeight memory' s') memory s := by
  cases activation with
  | some init => exact scans_connectBatch _ _ _ _ memory s h
  | none =>
    subst hid
    refine Action.wp_bind.mpr (Action.wp_mono (scans_locateInit h hbegin) ?_)
    rintro (e | height) memory₁ s₁ h₁
    · exact h₁
    cases height with
    | none => exact h₁
    | some height => exact scans_connectBatch _ _ _ _ memory₁ s₁ h₁

/-- So does a step. -/
theorem scans_syncBound {binding : Binding} (hid : binding.initTxid = txid) {memory : SyncMemory} {s : Watched}
    (h : InScan txid start nodeHeight memory s)
    (hbegin : memory.scanCursor = none → start = nodeHeight - config.initScanDepth) :
    (syncBound packages config binding nodeHeight).wp (world.Watches (Undisturbed txid))
      (fun _ => True) (fun _ memory' s' => InScan txid start nodeHeight memory' s') memory s := by
  refine Action.wp_bind.mpr (Action.wp_call.mpr fun answer s₁ h₁ => ⟨trivial, ?_⟩)
  have hs₁ := h.drifts h₁.drifts rfl rfl
  cases answer with
  | error e => exact hs₁
  | ok activation =>
    refine Action.wp_bind.mpr (Action.wp_modify.mpr ?_)
    generalize hmemory : ({ memory with state := { memory.state.setActivation activation true with
      initConfigMismatch := checkConfiguredHeights config.deployment activation } } : SyncMemory) = memory₁
    have hcursor : memory₁.scanCursor = memory.scanCursor := hmemory ▸ rfl
    have hm₁ : InScan txid start nodeHeight memory₁ s₁ := hs₁.drifts (.refl s₁) hcursor (hmemory ▸ rfl)
    refine Action.wp_bind.mpr (Action.wp_call.mpr fun answer s₂ h₂ => ⟨trivial, ?_⟩)
    have hs₂ := hm₁.drifts h₂.drifts rfl rfl
    cases answer with
    | error e => exact hs₂
    | ok tip =>
      have forward : ∀ {memory' : SyncMemory} {s' : Watched}, InScan txid start nodeHeight memory' s' →
          memory'.scanCursor = memory₁.scanCursor →
          (syncForward packages config binding activation tip nodeHeight).wp (world.Watches (Undisturbed txid))
            (fun _ => True) (fun _ memory' s' => InScan txid start nodeHeight memory' s') memory' s' := by
        intro memory' s' h' hsame
        refine scans_syncForward hid h' (fun hnone => ?_) _ _
        exact hbegin (hcursor.symm.trans (hsame.symm.trans hnone))
      cases tip with
      | none => exact forward hs₂ rfl
      | some tip' =>
        cases activation with
        | none => exact forward hs₂ rfl
        | some init =>
          have compared := leaves_tipLeft drifts_frame (fun c _ => @reads_call world txid c) tip'
            nodeHeight
          refine Action.wp_bind.mpr (Action.wp_mono (compared memory₁ s₂ trivial) ?_)
          rintro (e | left) memory₃ s₃ ⟨hd, hview⟩
          · exact hs₂.drifts hd (Prod.mk.inj hview).1 (Prod.mk.inj hview).2
          have hs₃ := hs₂.drifts hd (Prod.mk.inj hview).1 (Prod.mk.inj hview).2
          dsimp only
          split_ifs
          · refine Action.wp_bind.mpr (Action.wp_mono (scans_rollback _ _ _ memory₃ s₃ hs₃) ?_)
            rintro (e | u) memory₄ s₄ h₄
            · exact h₄
            · exact h₄
          · exact forward hs₃ (Prod.mk.inj hview).1

end

/-- Between two ticks: where the scan began is known while there is a cursor, and what it passed is clear. -/
structure Tracked (txid : Hash) (start : Option ℕ) (memory : SyncMemory) (s : Watched) : Prop where
  /-- There is no start without a cursor. -/
  iff : start.isNone ↔ memory.scanCursor.isNone
  /-- No block behind the cursor has the INIT. -/
  passed : ∀ first, start = some first → Passed txid first memory s

section

variable {start : Option ℕ} {memory : SyncMemory} {s s' : Watched}

theorem Tracked.drifts (h : Tracked txid start memory s) (hd : Drifts txid s s') {memory' : SyncMemory}
    (hcursor : memory'.scanCursor = memory.scanCursor) : Tracked txid (scanStart config start memory') memory' s' := by
  have hstart : scanStart config start memory' = start := by
    unfold scanStart
    rw [hcursor]
    cases hs : start with
    | none => rw [if_pos (h.iff.mp (by rw [hs]; rfl))]
    | some first =>
      rw [if_neg fun hnone => ?_]
      · rfl
      · have := h.iff.mpr hnone
        rw [hs] at this
        cases this
  rw [hstart]
  exact ⟨by rw [hcursor]; exact h.iff, fun first hf => (h.passed first hf).drifts hd hcursor⟩

/-- After a step in which the node reported its height. -/
theorem InScan.tracked {first nodeHeight : ℕ} (h : InScan txid first nodeHeight memory s)
    (hfirst : start.getD (nodeHeight - config.initScanDepth) = first) :
    Tracked txid (scanStart config start memory) memory s := by
  obtain ⟨node, hnode, hheight⟩ := Option.map_eq_some_iff.mp h.node
  unfold scanStart
  cases hcursor : memory.scanCursor with
  | none => exact ⟨by simp [hcursor], fun first hf => by cases hf⟩
  | some cursor =>
    have hstart : (start <|> memory.state.node.map fun node => node.height - config.initScanDepth) = some first := by
      rw [← hfirst, hnode]
      cases start with
      | none => simp [hheight]
      | some first => rfl
    refine ⟨by simp [hstart, hcursor], fun first' hf => ?_⟩
    obtain rfl : first = first' := Option.some.inj (hstart.symm.trans (by simpa using hf))
    exact h.passed

/-- A tick keeps track of the scan. -/
theorem tracked_tick (hid : ∀ binding, config.binding = some binding → binding.initTxid = txid)
    (h : Tracked txid start memory s) :
    (tick packages config).wp (world.Watches (Undisturbed txid)) (fun _ => True)
      (fun _ memory' s' => Tracked txid (scanStart config start memory') memory' s') memory s := by
  refine Action.wp_bind.mpr (Action.wp_call.mpr fun answer s₁ h₁ => ⟨trivial, ?_⟩)
  cases answer with
  | error e => exact h.drifts h₁.drifts rfl
  | ok stopping =>
    dsimp only
    split_ifs
    · exact h.drifts h₁.drifts rfl
    · have hsync : (syncOnce packages config).wp (world.Watches (Undisturbed txid)) (fun _ => True)
          (fun _ memory' s' => ∀ memory'' : SyncMemory, memory''.scanCursor = memory'.scanCursor →
            memory''.state.node = memory'.state.node → Tracked txid (scanStart config start memory'') memory'' s')
          memory s₁ := by
        refine Action.wp_bind.mpr (Action.wp_call.mpr fun answer s₂ h₂ => ⟨trivial, ?_⟩)
        cases answer with
        | error e => exact fun memory'' hcursor _ => h.drifts (h₁.drifts.trans h₂.drifts) hcursor
        | ok info =>
          refine Action.wp_bind.mpr (Action.wp_modify.mpr ?_)
          generalize hmemory : ({ memory with state := { memory.state with
            node := some ⟨info.chain, info.blocks, info.bestblockhash, info.initialblockdownload⟩ } } : SyncMemory) =
            memory₁
          have hcursor : memory₁.scanCursor = memory.scanCursor := hmemory ▸ rfl
          have hscan : InScan txid (start.getD (info.blocks - config.initScanDepth)) info.blocks memory₁ s₂ := by
            refine ⟨?_, hmemory ▸ rfl, ?_⟩
            · cases hs : start with
              | none =>
                refine .of_none (hcursor.trans (Option.isNone_iff_eq_none.mp (h.iff.mp ?_)))
                rw [hs]
                rfl
              | some first => exact (h.passed first hs).drifts (h₁.drifts.trans h₂.drifts) hcursor
            · rw [h₂.reported]
              exact le_max_right _ _
          have hend : ∀ {memory' : SyncMemory} {s' : Watched},
              InScan txid (start.getD (info.blocks - config.initScanDepth)) info.blocks memory' s' →
              ∀ memory'' : SyncMemory, memory''.scanCursor = memory'.scanCursor →
                memory''.state.node = memory'.state.node → Tracked txid (scanStart config start memory'') memory'' s' :=
            fun h' memory'' hc hn => (h'.drifts (.refl _) hc hn).tracked rfl
          dsimp only
          split_ifs
          · exact hend hscan
          · cases hbinding : config.binding with
            | none => exact hend (hscan.drifts (.refl _) rfl rfl)
            | some binding =>
              refine Action.wp_mono (scans_syncBound (hid binding hbinding) hscan fun hnone => ?_) fun _ _ _ => hend
              rw [hcursor] at hnone
              rw [Option.isNone_iff_eq_none.mp (h.iff.mpr (by rw [hnone]; rfl))]
              rfl
      refine Action.wp_tryCatch.mpr (Action.wp_bind.mpr (Action.wp_mono hsync ?_))
      rintro (e | more) memory' s' h'
      · exact h' _ rfl rfl
      · exact h' _ rfl rfl

end

/-! ### Any run -/

/-- What is tracked holds between two ticks, and will after one. -/
def Scanned (world : World) (config : SyncConfiguration) (txid : Hash) (start : Option ℕ) :
    Activity SyncCall SyncCall.Value String SyncMemory × Watched → Prop
  | (.idle memory, s) => Tracked txid start memory s
  | (.busy rest, s) => rest.Safe (world.Watches (Undisturbed txid)) (fun _ => True)
      (fun result s' => Tracked txid (scanStart config start result.2) result.2 s') s

/-- Every process keeps track of its scan. -/
theorem Scanning.scanned (hid : ∀ binding, config.binding = some binding → binding.initTxid = txid) {start : Option ℕ}
    {p : Activity SyncCall SyncCall.Value String SyncMemory × Watched}
    (scanning : Scanning world packages config (Undisturbed txid) start p) : Scanned world config txid start p := by
  have none_of : ∀ {memory : SyncMemory} {s : Watched}, memory.scanCursor = none → Tracked txid none memory s :=
    fun hnone => ⟨by simp [hnone], fun first hf => by cases hf⟩
  induction scanning with
  | begins s => exact none_of rfl
  | forgets _ idle _ => exact none_of idle
  | turns _ turn ih =>
    cases turn with
    | starts memory s => exact tracked_tick hid ih
    | answers answered => exact (ih _ _ answered).2
    | ends result memory s => exact ih
    | restarts activity s => exact none_of rfl
    | moves memory moved =>
      refine Tracked.drifts ih ⟨moved.reported.ge, fun height hh => ?_, moved.sighted.ge, moved.admitted⟩ rfl
      rw [moved.asked]
      exact hh

/-! ### The scan reaches the INIT -/

/-- Locating the INIT again and again. -/
def locateAgain (config : SyncConfiguration) (txid : Hash) (nodeHeight : ℕ) : ℕ → Sync (Option ℕ)
  | 0 => pure none
  | calls + 1 => do
    let found ← locateInit config txid nodeHeight
    match found with
    | some height => pure (some height)
    | none => locateAgain config txid nodeHeight calls

/-- A call answered by a node that stays at its chain and serves its blocks. -/
structure World.Serves (world : World) (node : List BitcoinBlock) (c : SyncCall) (s : Surroundings)
    (answer : Except String c.Value) (s' : Surroundings) : Prop extends world.Answers c s answer s' where
  /-- The node stays. -/
  stays : s'.node = node
  /-- Its mempool is apart from the chain. -/
  apart : s'.Apart
  /-- It gives the hash of every block that it has. -/
  hashes : ∀ height, c = .getBlockHash height → (∃ block ∈ node, block.height = height) → ∃ hash, answer = .ok hash
  /-- It lists every block that there is. -/
  lists : ∀ hash, c = .getBlockTxids hash → (∃ block, world.block hash = some block) → ∃ txids, answer = .ok txids

section

variable {node : List BitcoinBlock} {nodeHeight : ℕ}

theorem serves_blockHolds {memory : SyncMemory} {s : Surroundings} {block : BitcoinBlock} (hb : block ∈ node) :
    (blockHolds txid block.height).wp (world.Serves node) (fun _ => True) (fun r memory' _ =>
      memory' = memory ∧ r = .ok (txid ∈ block.transactions.map BitcoinTransaction.txid : Bool)) memory s := by
  refine Action.wp_bind.mpr (Action.wp_call.mpr fun answer s₁ h₁ => ⟨trivial, ?_⟩)
  obtain ⟨hash, rfl⟩ := h₁.hashes _ rfl ⟨block, hb, rfl⟩
  obtain ⟨other, ho, hheight, rfl⟩ := h₁.returns hash rfl
  obtain rfl : other = block := h₁.chain.unique ho (h₁.stays.symm ▸ hb) hheight
  have hknown := h₁.chain.known other ho
  refine Action.wp_bind.mpr (Action.wp_call.mpr fun answer s₂ h₂ => ⟨trivial, ?_⟩)
  obtain ⟨txids, rfl⟩ := h₂.lists _ rfl ⟨other, hknown⟩
  obtain ⟨listed, hlisted, rfl⟩ := h₂.returns txids rfl
  obtain rfl := Option.some.inj (hknown.symm.trans hlisted)
  exact ⟨rfl, rfl⟩

theorem contains_iff {block : BitcoinBlock} :
    txid ∈ block.transactions.map BitcoinTransaction.txid ↔ Contains block txid := List.mem_map

variable (chain : world.IsChain node) (whole : ∀ height ≤ nodeHeight, ∃ block ∈ node, block.height = height)
  {target : BitcoinBlock} (hcontains : Contains target txid) (htarget : target ∈ node)
  (hheight : target.height ≤ nodeHeight)

include chain whole hcontains htarget hheight

/-- The scan finds the INIT, or comes closer to it. -/
theorem scanInit_closer (turns : ℕ) {memory : SyncMemory} {s : Surroundings} {cursor : ℕ}
    (hcursor : memory.scanCursor = some cursor) (hle : cursor ≤ target.height) :
    (scanInit txid nodeHeight turns).wp (world.Serves node) (fun _ => True) (fun r memory' _ =>
      (∃ found ∈ node, Contains found txid ∧ r = .ok (some found.height)) ∨
      (r = .ok none ∧ memory'.scanCursor = some (cursor + turns) ∧ cursor + turns ≤ target.height)) memory s := by
  induction turns generalizing memory s cursor with
  | zero => exact .inr ⟨rfl, hcursor, hle⟩
  | succ turns ih =>
    refine Action.wp_bind.mpr (Action.wp_get.mpr ?_)
    simp only [hcursor, Option.getD_some]
    rw [if_pos (by omega)]
    obtain ⟨block, hb, rfl⟩ := whole cursor (by omega)
    refine Action.wp_bind.mpr (Action.wp_mono (serves_blockHolds hb) ?_)
    rintro r memory₁ s₁ ⟨rfl, rfl⟩
    by_cases hholds : txid ∈ block.transactions.map BitcoinTransaction.txid
    · simp only [hholds, decide_true, if_true]
      exact .inl ⟨block, hb, contains_iff.mp hholds, rfl⟩
    · simp only [hholds, decide_false, Bool.false_eq_true, if_false]
      have hlt : block.height ≠ target.height := by
        intro hsame
        obtain rfl := chain.unique hb htarget hsame
        exact hholds (contains_iff.mpr hcontains)
      refine Action.wp_bind.mpr (Action.wp_modify.mpr ?_)
      refine Action.wp_mono (ih rfl (by omega)) ?_
      rintro r memory₂ s₂ (hfound | ⟨hr, hc, hle'⟩)
      · exact .inl hfound
      · exact .inr ⟨hr, by rw [hc]; congr 1; omega, by omega⟩

/-- Without a hint and an index of transactions, locating the INIT finds it, or the cursor comes closer to it. -/
theorem locateInit_closer (noindex : world.txindex = false) (nohint : config.deployment.initHeight = none)
    {memory : SyncMemory} {s : Surroundings}
    (hle : memory.scanCursor.getD (nodeHeight - config.initScanDepth) ≤ target.height) :
    (locateInit config txid nodeHeight).wp (world.Serves node) (fun _ => True) (fun r memory' _ =>
      (∃ found ∈ node, Contains found txid ∧ r = .ok (some found.height)) ∨
      (r = .ok none ∧ ∃ cursor, memory'.scanCursor = some cursor ∧ cursor ≤ target.height ∧
        cursor = memory.scanCursor.getD (nodeHeight - config.initScanDepth) + MAX_INIT_SCAN_PER_TICK)) memory s := by
  unfold locateInit hintedInit
  rw [nohint]
  refine Action.wp_bind.mpr (Action.wp_pure.mpr ?_)
  -- The node knows nothing: the INIT is not in its mempool, and there is no index.
  have unknown : (lookupInit txid nodeHeight).wp (world.Serves node) (fun _ => True) (fun r memory' _ =>
      r = .ok .unknown ∧ memory' = memory) memory s := by
    refine Action.wp_tryCatch.mpr (Action.wp_bind.mpr (Action.wp_call.mpr fun answer s₁ h₁ => ⟨trivial, ?_⟩))
    cases answer with
    | error e => exact ⟨rfl, rfl⟩
    | ok location =>
      cases location with
      | some hash =>
        have hindex : world.txindex = true := (h₁.returns _ rfl).1
        rw [noindex] at hindex
        cases hindex
      | none =>
        have hmempool : txid ∈ s₁.mempool := h₁.returns _ rfl
        exact absurd hcontains (h₁.apart target (h₁.stays.symm ▸ htarget) txid hmempool)
  refine Action.wp_bind.mpr (Action.wp_mono unknown ?_)
  rintro r memory₁ s₁ ⟨rfl, rfl⟩
  refine Action.wp_bind.mpr (Action.wp_modify.mpr ?_)
  refine Action.wp_mono (scanInit_closer chain whole hcontains htarget hheight _ rfl hle) ?_
  rintro r memory₂ s₂ (hfound | ⟨hr, hc, hle'⟩)
  · exact .inl hfound
  · exact .inr ⟨hr, _, hc, hle', rfl⟩

/-- Again and again, it is found. -/
theorem locateAgain_finds (noindex : world.txindex = false) (nohint : config.deployment.initHeight = none) (calls : ℕ)
    {memory : SyncMemory} {s : Surroundings}
    (hle : memory.scanCursor.getD (nodeHeight - config.initScanDepth) ≤ target.height)
    (hcalls : target.height < memory.scanCursor.getD (nodeHeight - config.initScanDepth) +
      MAX_INIT_SCAN_PER_TICK * calls) :
    (locateAgain config txid nodeHeight calls).wp (world.Serves node) (fun _ => True)
      (fun r _ _ => ∃ found ∈ node, Contains found txid ∧ r = .ok (some found.height)) memory s := by
  induction calls generalizing memory s with
  | zero => omega
  | succ calls ih =>
    refine Action.wp_bind.mpr (Action.wp_mono
      (locateInit_closer chain whole hcontains htarget hheight noindex nohint hle) ?_)
    rintro r memory₁ s₁ (⟨found, hf, hc, rfl⟩ | ⟨rfl, cursor, hcursor, hle', hsum⟩)
    · exact ⟨found, hf, hc, rfl⟩
    · refine ih ?_ ?_
      · rw [hcursor]
        exact hle'
      · rw [hcursor, Option.getD_some, hsum]
        rw [Nat.mul_succ] at hcalls
        omega

end

/-- **The scan never steps over the INIT**, in a run in which no change of the chain brings the INIT behind what the
process was told: between two ticks no block of the chain from where the scan began up to the cursor has the INIT, and
on a node that stays, locating an INIT from there on finds it. -/
theorem init_not_passed (hid : config.deployment.initTxid = some txid) {start : Option ℕ} {memory : SyncMemory}
    {s : Watched} (scanning : Scanning world packages config (Undisturbed txid) start (.idle memory, s)) :
    (∀ cursor, memory.scanCursor = some cursor → ∃ first, start = some first ∧ first ≤ cursor ∧
      ∀ block ∈ s.node, first ≤ block.height → block.height < cursor → ¬Contains block txid) ∧
    ∀ nodeHeight, world.IsChain s.node → (∀ height ≤ nodeHeight, ∃ block ∈ s.node, block.height = height) →
      world.txindex = false → config.deployment.initHeight = none → ∀ target ∈ s.node, Contains target txid →
      start.getD (nodeHeight - config.initScanDepth) ≤ target.height → target.height ≤ nodeHeight →
      ∃ calls, (locateAgain config txid nodeHeight calls).wp (world.Serves s.node) (fun _ => True)
        (fun r _ _ => ∃ found ∈ s.node, Contains found txid ∧ r = .ok (some found.height)) memory s.toSurroundings := by
  have tracked : Tracked txid start memory s := by
    refine scanning.scanned fun binding hb => ?_
    unfold SyncConfiguration.binding at hb
    rw [hid] at hb
    cases hns : config.deployment.ns with
    | none => simp [hns] at hb
    | some ns =>
      simp only [hns, Option.some.injEq] at hb
      exact hb ▸ rfl
  constructor
  · intro cursor hcursor
    cases hstart : start with
    | none =>
      have hnone := tracked.iff.mp (by rw [hstart]; rfl)
      rw [hcursor] at hnone
      cases hnone
    | some first =>
      have passed := tracked.passed first hstart
      refine ⟨first, rfl, passed.forward cursor hcursor, fun block hb hle hlt hcontains => ?_⟩
      have := passed.clear cursor hcursor block hb hcontains hle
      omega
  · intro nodeHeight chain whole noindex nohint target htarget hcontains hlow hhigh
    have hle : memory.scanCursor.getD (nodeHeight - config.initScanDepth) ≤ target.height := by
      cases hstart : start with
      | none =>
        rw [Option.isNone_iff_eq_none.mp (tracked.iff.mp (by rw [hstart]; rfl))]
        rw [hstart] at hlow
        exact hlow
      | some first =>
        rw [hstart] at hlow
        cases hcursor : memory.scanCursor with
        | none =>
          have hnone := tracked.iff.mpr (by rw [hcursor]; rfl)
          rw [hstart] at hnone
          cases hnone
        | some cursor => exact (tracked.passed first hstart).clear cursor hcursor target htarget hcontains hlow
    refine ⟨target.height + 1, locateAgain_finds chain whole hcontains htarget hhigh noindex nohint _ hle ?_⟩
    simp only [MAX_INIT_SCAN_PER_TICK]
    omega

/-! ### An INIT behind the cursor -/

/-- A node that neither moves nor fails, watched. -/
def World.watch (world : World) (chain : String) (c : SyncCall) (s : Watched) : Except String c.Value × Watched :=
  let answered := world.reply chain c s.toSurroundings
  (answered.1, ⟨answered.2, reportedAfter s c answered.1, askedAfter s c answered.1, sightedAfter s c answered.1⟩)

theorem World.watch_watches {admits : Watched → Watched → Prop} (hadmits : ∀ s s', s'.node = s.node → admits s s')
    (chain : String) (c : SyncCall) (s : Watched) (hs : world.IsChain s.node ∧ s.Apart) :
    world.Watches admits c s (world.watch chain c s).1 (world.watch chain c s).2 ∧
      world.IsChain (world.watch chain c s).2.node ∧ (world.watch chain c s).2.Apart := by
  obtain ⟨hanswers, hchain⟩ := world.reply_answers chain c s.toSurroundings hs.1
  have hsame : (world.watch chain c s).2.node = s.node ∧ (world.watch chain c s).2.mempool = s.mempool := by
    cases c <;> exact ⟨rfl, rfl⟩
  have hapart : (world.watch chain c s).2.Apart := by
    unfold Surroundings.Apart
    rw [hsame.1, hsame.2]
    exact hs.2
  exact ⟨⟨hanswers, hapart, hadmits _ _ hsame.1, rfl, rfl, rfl⟩, hchain, hapart⟩

theorem Scanning.drive {admits : Watched → Watched → Prop} {reply : (c : SyncCall) → Watched → Except String c.Value × Watched}
    (P : Watched → Prop)
    (hreply : ∀ c s, P s → world.Watches admits c s (reply c s).1 (reply c s).2 ∧ P (reply c s).2) (turns : ℕ)
    {start : Option ℕ} {x : Interact SyncCall (fun c => Except String c.Value) (Except String Unit × SyncMemory)}
    {s : Watched} (hs : P s) (h : Scanning world packages config admits start (.busy x, s)) :
    Scanning world packages config admits start (.busy (x.drive reply turns s).1, (x.drive reply turns s).2) := by
  induction turns generalizing x s with
  | zero => exact h
  | succ turns ih =>
    cases x with
    | done a => exact h
    | call c next =>
      obtain ⟨hstep, hp⟩ := hreply c s hs
      exact ih hp (h.turns (.answers hstep))

theorem Scanning.tick {admits : Watched → Watched → Prop} (hadmits : ∀ s s', s'.node = s.node → admits s s')
    {chain : String} {turns : ℕ} {start : Option ℕ} {memory memory' : SyncMemory} {s : Watched}
    {result : Except String Unit} (h : Scanning world packages config admits start (.idle memory, s))
    (hs : world.IsChain s.node ∧ s.Apart)
    (hdone : ((Indexer.tick packages config memory).drive (world.watch chain) turns s).1.result? =
      some (result, memory')) :
    Scanning world packages config admits (scanStart config start memory')
      (.idle memory', ((Indexer.tick packages config memory).drive (world.watch chain) turns s).2) := by
  have hbusy := Scanning.drive (fun s => world.IsChain s.node ∧ s.Apart)
    (fun c s hs => World.watch_watches hadmits chain c s hs) turns hs (h.turns (.starts memory s))
  rw [Interact.result?_eq_some.mp hdone] at hbusy
  exact hbusy.turns (.ends result memory' _)

/-- A block with one coinbase. -/
def plainBlock (hash : UInt8) (previous : Option UInt8) (height : ℕ) (txid : UInt8) : BitcoinBlock :=
  ⟨sampleHash hash, previous.map sampleHash, height, 0, [sampleCoinbase (sampleHash txid)]⟩

/-- The chain at first: no block has the INIT. -/
def emptyNode : List BitcoinBlock := [plainBlock 22 (some 20) 8 23, plainBlock 20 none 7 21]

/-- The chain after a reorganization: the block at height 8 has the INIT. -/
def initNode : List BitcoinBlock := [plainBlock 26 (some 24) 9 27, plainBlock 24 (some 20) 8 1, plainBlock 20 none 7 21]

/-- The blocks of both. -/
def passWorld : World where
  block hash := (initNode ++ emptyNode).find? fun block => block.hash = hash
  hash_block h := by simpa using List.find?_some h
  txindex := false

theorem emptyNode_isChain : passWorld.IsChain emptyNode where
  known := by decide +kernel
  linked := ⟨⟨rfl, rfl⟩, trivial, trivial⟩
  txids := by decide +kernel

theorem initNode_isChain : passWorld.IsChain initNode where
  known := by decide +kernel
  linked := ⟨⟨rfl, rfl⟩, ⟨rfl, rfl⟩, trivial, trivial⟩
  txids := by decide +kernel

/-- The first tick: the cursor begins at height 7 and passes the tip. -/
def passRun := (tick samplePackages sampleConfig (.fresh sampleConfig)).drive (passWorld.watch "main") 40
  ⟨⟨emptyNode, [], Db.empty⟩, 0, [], 0⟩

/-- What the process remembers after it. -/
def passMemory : SyncMemory := (passRun.1.result?.map Prod.snd).getD (.fresh sampleConfig)

/-- The second tick, after the reorganization. -/
def passedRun := (tick samplePackages sampleConfig passMemory).drive (passWorld.watch "main") 40
  { passRun.2 with node := initNode }

theorem apart_of_nil {s : Surroundings} (h : s.mempool = []) : s.Apart := by
  intro block _ txid ht
  rw [h] at ht
  cases ht

theorem passRun_scanning {admits : Watched → Watched → Prop} (hadmits : ∀ s s', s'.node = s.node → admits s s') :
    Scanning passWorld samplePackages sampleConfig admits (some 7) (.idle passMemory, passRun.2) := by
  have hdone : passRun.1.result?.isSome = true := by decide +kernel
  obtain ⟨⟨result, memory⟩, hresult⟩ := Option.isSome_iff_exists.mp hdone
  have hmemory : passMemory = memory := by
    unfold passMemory
    rw [hresult]
    rfl
  have hstart : scanStart sampleConfig none passMemory = some 7 := by decide +kernel
  have h := Scanning.tick hadmits (.begins _) ⟨emptyNode_isChain, apart_of_nil rfl⟩ hresult
  rw [← hmemory, hstart] at h
  exact h

/-- **The scan can step over the INIT**: a reorganization brings it into a block that the cursor has passed, and no
INIT is found at the next tip. -/
theorem init_passed : ∃ first memory s cursor,
    Scanning passWorld samplePackages sampleConfig (fun _ _ => True) (some first) (.idle memory, s) ∧
      loadActivation s.db = none ∧ memory.scanCursor = some cursor ∧
      ∃ block ∈ s.node, first ≤ block.height ∧ block.height < cursor ∧ Contains block (sampleHash 1) := by
  have hdone : passedRun.1.result?.map (fun result => result.2.scanCursor) = some (some 10) := by decide +kernel
  obtain ⟨⟨result, memory⟩, hresult, hcursor⟩ := Option.map_eq_some_iff.mp hdone
  have hmoved : Scanning passWorld samplePackages sampleConfig (fun _ _ => True) (some 7)
      (.idle passMemory, { passRun.2 with node := initNode }) := by
    have hsame : scanStart sampleConfig (some 7) passMemory = some 7 := by decide +kernel
    have hmempool : passRun.2.mempool = [] := by decide +kernel
    have moved : passWorld.Wanders (fun _ _ => True) passRun.2 { passRun.2 with node := initNode } :=
      ⟨⟨initNode_isChain, rfl⟩, apart_of_nil hmempool, trivial, rfl, rfl, rfl⟩
    have h := (passRun_scanning fun _ _ _ => trivial).turns (.moves passMemory moved)
    rw [show nextStart sampleConfig (some 7) (.idle passMemory) = some 7 from hsame] at h
    exact h
  have hmempool : passRun.2.mempool = [] := by decide +kernel
  have h := hmoved.tick (fun _ _ _ => trivial) ⟨initNode_isChain, apart_of_nil hmempool⟩ hresult
  have hstart : scanStart sampleConfig (some 7) memory = some 7 := by
    unfold scanStart
    rw [hcursor]
    rfl
  rw [hstart] at h
  refine ⟨7, memory, passedRun.2, 10, h, by decide +kernel, hcursor, plainBlock 24 (some 20) 8 1, ?_, by decide,
    by decide, _, List.mem_singleton_self _, rfl⟩
  decide +kernel

/-- The first tick of the sample passes no INIT. -/
theorem init_not_passed_sample : passMemory.scanCursor = some 9 ∧
    ∃ first, some 7 = some first ∧ first ≤ 9 ∧
      ∀ block ∈ passRun.2.node, first ≤ block.height → block.height < 9 → ¬Contains block (sampleHash 1) := by
  have hcursor : passMemory.scanCursor = some 9 := by decide +kernel
  have undisturbed : ∀ s s' : Watched, s'.node = s.node → Undisturbed (sampleHash 1) s s' := by
    intro s s' hsame block hb _
    exact .inl (hsame ▸ hb)
  exact ⟨hcursor, (init_not_passed rfl (passRun_scanning undisturbed)).1 9 hcursor⟩

end IndexTandem.Indexer
