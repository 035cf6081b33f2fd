import IndexTandem.Indexer.SyncRuns
import IndexTandem.Observability.Readiness
import IndexTandem.Verification.Gateway

/-!
# Heights the operator asserts

An operator may configure the heights of the INIT and of its founding window. Every step
compares them with the INIT it reads from the database, and notes what is wrong. A step that
confirms the INIT itself does not: it takes over the activation and leaves the note of the
step's start, which is none (`mismatch_unnoticed`). In a run where no such step confirms an
INIT that contradicts the configuration, a contradiction is always noted, the process is not
ready, and no verified response is served (`mismatch_noted`).
-/

namespace IndexTandem.Indexer

open Library Protocol Database Observability Verification Agreement

variable {world : World} {packages : Packages} {binding : Binding}

/-! ### What is compared -/

/-- The INIT is at the configured heights. -/
structure AsConfigured (deployment : DeploymentConfiguration) (init : InitActivation) : Prop where
  /-- It confirmed at the height expected. -/
  initHeight : ∀ height, deployment.initHeight = some height → init.height = height
  /-- Its window opens at the height expected. -/
  openHeight : ∀ height, deployment.openHeight = some height → init.openHeight = some height
  /-- It closes at the height expected. -/
  closeHeight : ∀ height, deployment.closeHeight = some height → init.closeHeight = some height

theorem heightProblem_eq_nil {name place : String} {expected actual : Option ℕ} :
    heightProblem name place expected actual = [] ↔ ∀ height, expected = some height → actual = some height := by
  unfold heightProblem
  cases expected with
  | none => simp
  | some height =>
    simp only [Option.isSome_some, true_and, ite_eq_right_iff, reduceCtorEq, imp_false, ne_eq, not_not,
      Option.some.injEq, forall_eq']
    exact eq_comm

/-- A text is noted exactly when the INIT is not as configured. -/
theorem checkConfiguredHeights_eq_none {deployment : DeploymentConfiguration} {init : InitActivation} :
    checkConfiguredHeights deployment (some init) = none ↔ AsConfigured deployment init := by
  simp only [checkConfiguredHeights, ite_eq_left_iff, reduceCtorEq, imp_false, not_not, List.append_eq_nil_iff,
    heightProblem_eq_nil, Option.some.injEq]
  exact ⟨fun ⟨⟨h₁, h₂⟩, h₃⟩ => ⟨h₁, h₂, h₃⟩, fun h => ⟨⟨h.initHeight, h.openHeight⟩, h.closeHeight⟩⟩

theorem heightProblem_ne_empty {name place : String} (hname : name ≠ "") {expected actual : Option ℕ} :
    ∀ problem ∈ heightProblem name place expected actual, problem ≠ "" := by
  intro problem hp
  unfold heightProblem at hp
  split_ifs at hp
  · rw [List.mem_singleton.mp hp]
    simp [String.append_eq_empty_iff, hname]
  · exact absurd hp List.not_mem_nil

theorem checkConfiguredHeights_ne_empty {deployment : DeploymentConfiguration} {activation : Option InitActivation}
    {text : String} (h : checkConfiguredHeights deployment activation = some text) : text ≠ "" := by
  cases activation with
  | none => cases h
  | some init =>
    simp only [checkConfiguredHeights] at h
    split_ifs at h with hnone
    obtain rfl := Option.some.inj h
    generalize hproblems : heightProblem _ _ _ _ ++ _ ++ _ = problems at hnone
    have hall : ∀ problem ∈ problems, problem ≠ "" := by
      rw [← hproblems]
      intro problem hp
      rcases List.mem_append.mp hp with hp | hp
      · rcases List.mem_append.mp hp with hp | hp
        · exact heightProblem_ne_empty (by decide) problem hp
        · exact heightProblem_ne_empty (by decide) problem hp
      · exact heightProblem_ne_empty (by decide) problem hp
    match problems with
    | [] => exact absurd rfl hnone
    | [problem] =>
      rw [String.intercalate_singleton]
      exact hall problem List.mem_cons_self
    | problem :: next :: rest =>
      rw [String.intercalate_cons_cons]
      simp [String.append_eq_empty_iff, hall problem List.mem_cons_self]

/-! ### What is confirmed -/

/-- The block has the configured INIT, if it has it at all, at the heights the operator expects. -/
def ExpectedBlock (deployment : DeploymentConfiguration) (binding : Binding) (block : BitcoinBlock) : Prop :=
  ∀ tx ∈ block.transactions, tx.txid = binding.initTxid → ∀ heights,
    initHeights tx binding.networkCode = .ok heights →
      (∀ height, deployment.initHeight = some height → block.height = height) ∧
      (∀ height, deployment.openHeight = some height → heights.map Prod.fst = some height) ∧
      ∀ height, deployment.closeHeight = some height → heights.map Prod.snd = some height

/-- A block that confirms the INIT as expected gives an INIT as configured. -/
theorem ExpectedBlock.asConfigured {deployment : DeploymentConfiguration} {block : BitcoinBlock}
    (expected : ExpectedBlock deployment binding block) {previousRoot : Hash} {objects : JsMap Hash ObjectRecord}
    {reduced : ReducedBlock} (h : reduceBlock packages binding none previousRoot objects block = .ok reduced) :
    AsConfigured deployment reduced.activation := by
  obtain ⟨ordered, activated, progress, ho, ha, -, hfin⟩ := reduceBlock_ok h
  obtain ⟨-, -, -, hact, -⟩ := finishBlock_ok hfin
  obtain ⟨init, hi, hid, heights, _, hheights, -, hopen, hclose, -, hheight, -⟩ := confirmInit_ok ha
  have hm : init.transaction ∈ block.transactions := (orderFrom_ok ho).1 ▸ List.mem_map_of_mem hi
  obtain ⟨h₁, h₂, h₃⟩ := expected init.transaction hm hid heights hheights
  rw [hact]
  exact ⟨fun height he => hheight.trans (h₁ height he), fun height he => hopen.trans (h₂ height he),
    fun height he => hclose.trans (h₃ height he)⟩

/-- A call is answered, and a step that confirms an INIT while none is stored confirms one that the operator
expects. -/
structure World.Confirms (world : World) (config : SyncConfiguration) (c : SyncCall) (s : Surroundings)
    (answer : Except String c.Value) (s' : Surroundings) : Prop extends world.Answers c s answer s' where
  /-- The block that a committed batch begins with. -/
  expected : ∀ blocks first block, c = .appendBlocks blocks → (∃ value, answer = .ok value) →
    loadActivation s.db = none → blocks.head? = some first → world.block first.hash = some block →
    ∀ binding, config.binding = some binding → ExpectedBlock config.deployment binding block

/-- What is wrong with the INIT is noted. -/
def Noted (config : SyncConfiguration) (memory : SyncMemory) : Prop :=
  ∀ text, checkConfiguredHeights config.deployment memory.state.activation = some text →
    memory.state.initConfigMismatch = some text

section

variable {config : SyncConfiguration} {memory : SyncMemory} {s : Surroundings}

/-- What the note is about, and the note. -/
def noteOf (memory : SyncMemory) : Option InitActivation × Option String :=
  (memory.state.activation, memory.state.initConfigMismatch)

theorem Noted.of_view {memory memory' : SyncMemory} (h : Noted config memory) (view : noteOf memory' = noteOf memory) :
    Noted config memory' := by
  obtain ⟨hact, hnote⟩ := Prod.mk.inj view
  intro text ht
  rw [hact] at ht
  rw [hnote]
  exact h text ht

theorem frame_same : Action.Frame (fun s s' : Surroundings => s'.db = s.db) (fun _ => True) where
  refl _ := rfl
  trans h h' := h'.trans h
  keeps _ _ := trivial

variable (world config) in
/-- The action leaves the database and the note alone. -/
abbrev NoteLess {α : Type} (x : Sync α) : Prop :=
  Action.Leaves (world.Confirms config) (fun _ => True) (fun s s' => s'.db = s.db) noteOf x

theorem noteLess_read {c : SyncCall} (hc : c.body = none) : NoteLess world config (await c) :=
  Action.Leaves.call frame_same fun _ _ _ ha => ha.reads hc

variable (world config) in
/-- The action ends in `post`, in a run that confirms what is expected. -/
abbrev Confirming {α : Type} (x : Sync α) (post : Except String α → SyncMemory → Surroundings → Prop)
    (memory : SyncMemory) (s : Surroundings) : Prop :=
  x.wp (world.Confirms config) (fun _ => True) post memory s

theorem confirming_read {c : SyncCall} (hc : c.body = none)
    {post : Except String c.Value → SyncMemory → Surroundings → Prop}
    (h : ∀ answer s', s'.db = s.db → (∀ value, answer = .ok value → world.Returns s' c value) → post answer memory s') :
    Confirming world config (await c) post memory s :=
  fun answer s' ha => ⟨trivial, h answer s' (ha.reads hc) ha.returns⟩

theorem confirming_fetchBlocks (heights : List ℕ) :
    Confirming world config (fetchBlocks heights) (fun r memory' s' => s'.db = s.db ∧ memory' = memory ∧
      ∀ blocks, r = .ok blocks → ∀ block ∈ blocks, world.block block.hash = some block) memory s := by
  induction heights generalizing s with
  | nil => exact ⟨rfl, rfl, by rintro blocks ⟨⟩ block hb; exact absurd hb List.not_mem_nil⟩
  | cons height heights ih =>
    refine Action.wp_bind.mpr (confirming_read rfl fun answer s₁ h₁ _ => ?_)
    cases answer with
    | error e => exact ⟨h₁, rfl, fun blocks h => by cases h⟩
    | ok hash =>
      refine Action.wp_bind.mpr (confirming_read rfl fun answer s₂ h₂ r₂ => ?_)
      cases answer with
      | error e => exact ⟨h₂.trans h₁, rfl, fun blocks h => by cases h⟩
      | ok block =>
        have hblock : world.block hash = some block := r₂ block rfl
        refine Action.wp_bind.mpr (Action.wp_mono ih ?_)
        rintro (e | blocks) memory' s₃ ⟨h₃, rfl, hb⟩
        · exact ⟨h₃.trans (h₂.trans h₁), rfl, fun blocks h => by cases h⟩
        · refine ⟨h₃.trans (h₂.trans h₁), rfl, ?_⟩
          rintro all ⟨⟩ b hm
          rcases List.mem_cons.mp hm with rfl | hm
          · rw [world.hash_block hblock]
            exact hblock
          · exact hb blocks rfl b hm

/-- Where the activation of a batch comes from: it is the one the batch began with, or that of its first block. -/
structure Sprung (world : World) (packages : Packages) (binding : Binding) (activation : Option InitActivation)
    (batch : Batch) : Prop where
  /-- Nothing was reduced yet. -/
  none : batch.reduced = [] → batch.activation = activation
  /-- It is that of the first block, which was reduced from one there is. -/
  first : ∀ first, batch.reduced.head? = some first → batch.activation = some first.activation ∧
    ∃ block previousRoot objects, world.block first.hash = some block ∧
      reduceBlock packages binding activation previousRoot objects block = .ok first

theorem Sprung.push {activation : Option InitActivation} {batch : Batch} (h : Sprung world packages binding activation batch)
    {block : BitcoinBlock} (known : world.block block.hash = some block) {reduced : ReducedBlock}
    (hr : batch.reduce packages binding block = .ok reduced) :
    Sprung world packages binding activation (batch.push reduced) := by
  refine ⟨fun hnil => absurd hnil (List.append_ne_nil_of_right_ne_nil _ (List.cons_ne_nil _ _)), fun first hf => ?_⟩
  obtain ⟨_, _, _, _, _, _, hfin⟩ := reduceBlock_ok hr
  obtain ⟨-, hhash, -⟩ := finishBlock_ok hfin
  cases hbatch : batch.reduced with
  | nil =>
    simp only [Batch.push, hbatch, List.nil_append, List.head?_cons, Option.some.injEq] at hf
    subst hf
    refine ⟨rfl, block, batch.root, batch.objects, hhash.symm ▸ known, ?_⟩
    rw [← h.none hbatch]
    exact hr
  | cons first' rest =>
    simp only [Batch.push, hbatch, List.cons_append, List.head?_cons, Option.some.injEq] at hf
    subst hf
    obtain ⟨hact, hfirst⟩ := h.first first' (by rw [hbatch]; rfl)
    -- Later blocks keep the activation.
    exact ⟨congrArg some ((reduceBlock_activation hr).1 _ hact).2, hfirst⟩

/-- Connecting blocks keeps the note. -/
theorem confirming_connectBlocks {activation : Option InitActivation} (blocks : List BitcoinBlock) {batch : Batch}
    (hb : Sprung world packages binding activation batch)
    (known : ∀ block ∈ blocks, world.block block.hash = some block) :
    Confirming world config (connectBlocks packages binding batch blocks) (fun r memory' s' =>
      s'.db = s.db ∧ noteOf memory' = noteOf memory ∧
        ∀ batch', r = .ok batch' → Sprung world packages binding activation batch') memory s := by
  induction blocks generalizing batch memory with
  | nil => exact ⟨rfl, rfl, by rintro batch' ⟨⟩; exact hb⟩
  | cons block blocks ih =>
    have hbroken : Sprung world packages binding activation { batch with broken := true } := ⟨hb.none, hb.first⟩
    unfold connectBlocks
    split_ifs
    · exact ⟨rfl, rfl, by rintro batch' ⟨⟩; exact hbroken⟩
    · exact ⟨rfl, rfl, by rintro batch' ⟨⟩; exact hbroken⟩
    · refine Action.wp_bind.mpr (Action.wp_lift.mpr ?_)
      cases hr : batch.reduce packages binding block with
      | error e => exact ⟨rfl, rfl, fun batch' h => by cases h⟩
      | ok reduced =>
        exact ih (hb.push (known block List.mem_cons_self) hr) fun b hm => known b (List.mem_cons_of_mem _ hm)

/-- Connecting the groups keeps the note. -/
theorem confirming_connectGroups {activation : Option InitActivation} (groups : List (List ℕ)) {batch : Batch}
    (hb : Sprung world packages binding activation batch) :
    Confirming world config (connectGroups packages binding batch groups) (fun r memory' s' =>
      s'.db = s.db ∧ noteOf memory' = noteOf memory ∧
        ∀ batch', r = .ok batch' → Sprung world packages binding activation batch') memory s := by
  induction groups generalizing batch memory s with
  | nil => exact ⟨rfl, rfl, by rintro batch' ⟨⟩; exact hb⟩
  | cons heights groups ih =>
    refine Action.wp_bind.mpr (confirming_read rfl fun answer s₁ h₁ _ => ?_)
    cases answer with
    | error e => exact ⟨h₁, rfl, fun batch' h => by cases h⟩
    | ok stopping =>
      dsimp only
      split_ifs
      · exact ⟨h₁, rfl, by rintro batch' ⟨⟩; exact hb⟩
      · refine Action.wp_bind.mpr (Action.wp_mono (confirming_fetchBlocks heights) ?_)
        rintro (e | blocks) memory₂ s₂ ⟨h₂, rfl, hblocks⟩
        · exact ⟨h₂.trans h₁, rfl, fun batch' h => by cases h⟩
        · refine Action.wp_bind.mpr (Action.wp_mono (confirming_connectBlocks blocks hb (hblocks blocks rfl)) ?_)
          rintro (e | batch₃) memory₃ s₃ ⟨h₃, hnote₃, hall₃⟩
          · exact ⟨h₃.trans (h₂.trans h₁), hnote₃, fun batch' h => by cases h⟩
          · refine Action.wp_mono (ih (hall₃ batch₃ rfl)) ?_
            rintro r memory₄ s₄ ⟨h₄, hnote₄, hall₄⟩
            exact ⟨h₄.trans (h₃.trans (h₂.trans h₁)), hnote₄.trans hnote₃, hall₄⟩

theorem noteLess_loadObjects : NoteLess world config loadObjects := by
  refine Action.Leaves.bind frame_same (.get frame_same) fun memory => ?_
  cases memory.objects with
  | some objects => exact .pure frame_same _
  | none =>
    refine (noteLess_read rfl).bind frame_same fun objects => ?_
    exact Action.Leaves.bind frame_same (.modify frame_same fun _ => rfl) fun _ => .pure frame_same _

/-- Connecting a batch keeps what is wrong noted: a known INIT stays, and one that the batch confirms is as expected. -/
theorem confirming_connectBatch (hbinding : config.binding = some binding) (hnoted : Noted config memory)
    (hact : memory.state.activation = loadActivation s.db) (tip : Option CanonicalTip) (first nodeHeight : ℕ) :
    Confirming world config (connectBatch packages config binding (loadActivation s.db) tip first nodeHeight)
      (fun _ memory' _ => Noted config memory') memory s := by
  unfold connectBatch
  refine Action.wp_bind.mpr (Action.wp_mono (noteLess_loadObjects memory s trivial) ?_)
  rintro (e | objects) memory₁ s₁ ⟨h₁, hnote₁⟩
  · exact hnoted.of_view hnote₁
  refine Action.wp_bind.mpr (Action.wp_mono (confirming_connectGroups _ ⟨fun _ => rfl, fun first h => ?_⟩) ?_)
  · cases h
  rintro (e | batch) memory₂ s₂ ⟨h₂, hnote₂, hbatch⟩
  · exact hnoted.of_view (hnote₂.trans hnote₁)
  have hview := hnote₂.trans hnote₁
  have sprung := hbatch batch rfl
  dsimp only
  split_ifs with hnil
  · exact hnoted.of_view hview
  refine Action.wp_bind.mpr fun answer s₃ ha => ⟨trivial, ?_⟩
  cases answer with
  | error e => exact hnoted.of_view hview
  | ok value =>
    obtain ⟨first, hfirst⟩ := Option.ne_none_iff_exists'.mp (mt List.head?_eq_none_iff.mp hnil)
    obtain ⟨hactivation, block, root, objects', hblock, hreduced⟩ := sprung.first first hfirst
    obtain ⟨hmemory, hmismatch⟩ := Prod.mk.inj hview
    intro text ht
    replace ht : checkConfiguredHeights config.deployment batch.activation = some text := ht
    rw [hactivation] at ht
    show memory₂.state.initConfigMismatch = some text
    rw [hmismatch]
    cases hstored : loadActivation s.db with
    | some init =>
      rw [((reduceBlock_activation hreduced).1 init hstored).2] at ht
      exact hnoted text (by rw [hact, hstored, ht])
    | none =>
      rw [hstored] at hreduced
      have expected := ha.expected batch.reduced first block rfl ⟨value, rfl⟩ (by rw [h₂, h₁, hstored]) hfirst hblock
        binding hbinding
      rw [checkConfiguredHeights_eq_none.mpr (expected.asConfigured hreduced)] at ht
      cases ht

/-! ### A tick -/

theorem frame_any : Action.Frame (fun _ _ : Surroundings => True) (fun _ => True) where
  refl _ := trivial
  trans _ _ := trivial
  keeps _ _ := trivial

/-- Disconnecting blocks leaves the INIT and the note of the step's start. -/
theorem noted_rollback (tipHeight : ℕ) (tipHash : Hash) (initHeight : ℕ) :
    Action.Leaves (world.Confirms config) (fun _ => True) (fun _ _ => True) noteOf
      (rollbackToCommonAncestor tipHeight tipHash initHeight) := by
  have reads : ∀ c, Action.Leaves (world.Confirms config) (fun _ => True) (fun _ _ => True) noteOf (await c) :=
    fun c => Action.Leaves.call frame_any fun _ _ _ _ => trivial
  refine (leaves_searchAncestor frame_any (fun c _ => reads c) initHeight tipHeight).bind frame_any fun ancestor => ?_
  refine (leaves_ancestorHashText frame_any (fun c _ => reads c) initHeight ancestor).bind frame_any fun text => ?_
  refine (reads _).bind frame_any fun info => ?_
  refine Action.Leaves.bind frame_any (.lift frame_any _) fun plan => ?_
  exact (reads _).bind frame_any fun _ => .modify frame_any fun _ => rfl

/-- A step that goes forward keeps what is wrong noted. -/
theorem confirming_syncForward (hbinding : config.binding = some binding) (hnoted : Noted config memory)
    (hact : memory.state.activation = loadActivation s.db) (tip : Option CanonicalTip) (nodeHeight : ℕ) :
    Confirming world config (syncForward packages config binding (loadActivation s.db) tip nodeHeight)
      (fun _ memory' _ => Noted config memory') memory s := by
  cases hstored : loadActivation s.db with
  | some init =>
    rw [syncForward, ← hstored]
    exact confirming_connectBatch hbinding hnoted hact _ _ _
  | none =>
    have located : NoteLess world config (locateInit config binding.initTxid nodeHeight) :=
      leaves_locateInit frame_same (fun _ hc => noteLess_read hc) (fun _ _ => rfl) (fun _ => rfl) config _ _
    refine Action.wp_bind.mpr (Action.wp_mono (located memory s trivial) ?_)
    rintro (e | initHeight) memory₁ s₁ ⟨h₁, hview⟩
    · exact hnoted.of_view hview
    cases initHeight with
    | none => exact hnoted.of_view hview
    | some height =>
      rw [← hstored, ← h₁]
      refine confirming_connectBatch hbinding (hnoted.of_view hview) ?_ _ _ _
      rw [h₁, ← hact]
      exact (Prod.mk.inj hview).1

/-- A step reads the INIT and notes what is wrong with it. -/
theorem confirming_syncBound (hbinding : config.binding = some binding) (hnoted : Noted config memory) (nodeHeight : ℕ) :
    Confirming world config (syncBound packages config binding nodeHeight)
      (fun _ memory' _ => Noted config memory') memory s := by
  refine Action.wp_bind.mpr (confirming_read rfl fun answer s₁ h₁ r₁ => ?_)
  cases answer with
  | error e => exact hnoted
  | ok activation =>
    refine Action.wp_bind.mpr (Action.wp_modify.mpr ?_)
    generalize hmemory : ({ memory with state := { memory.state.setActivation activation true with
      initConfigMismatch := checkConfiguredHeights config.deployment activation } } : SyncMemory) = memory₁
    have hact₁ : memory₁.state.activation = activation := hmemory ▸ rfl
    have hnoted₁ : Noted config memory₁ := by
      intro text ht
      rw [hact₁] at ht
      rw [← ht, ← hmemory]
    refine Action.wp_bind.mpr (confirming_read rfl fun answer s₂ h₂ _ => ?_)
    cases answer with
    | error e => exact hnoted₁
    | ok tip =>
      have hstored : activation = loadActivation s₂.db := (r₁ activation rfl).trans (congrArg _ h₂.symm)
      have forward : ∀ {memory : SyncMemory} {s : Surroundings}, s.db = s₂.db → noteOf memory = noteOf memory₁ →
          Confirming world config (syncForward packages config binding activation tip nodeHeight)
            (fun _ memory' _ => Noted config memory') memory s := by
        intro memory s hs hview
        rw [hstored, ← hs]
        refine confirming_syncForward hbinding (hnoted₁.of_view hview) ?_ _ _
        rw [hs, ← hstored, ← hact₁]
        exact (Prod.mk.inj hview).1
      cases tip with
      | none => exact forward rfl rfl
      | some tip' =>
        cases activation with
        | none => exact forward rfl rfl
        | some init =>
          have compared : NoteLess world config (tipLeft tip' nodeHeight) :=
            leaves_tipLeft frame_same (fun _ hc => noteLess_read hc) tip' nodeHeight
          refine Action.wp_bind.mpr (Action.wp_mono (compared memory₁ s₂ trivial) ?_)
          rintro (e | left) memory₃ s₃ ⟨h₃, hview⟩
          · exact hnoted₁.of_view hview
          dsimp only
          split_ifs
          · refine Action.wp_bind.mpr (Action.wp_mono (noted_rollback _ _ _ memory₃ s₃ trivial) ?_)
            rintro (e | u) memory₄ s₄ ⟨-, hview₄⟩
            · exact hnoted₁.of_view (hview₄.trans hview)
            · exact hnoted₁.of_view (hview₄.trans hview)
          · exact forward h₃ hview

/-- A tick keeps what is wrong noted. -/
theorem confirming_tick (hnoted : Noted config memory) :
    Confirming world config (tick packages config) (fun _ memory' _ => Noted config memory') memory s := by
  refine Action.wp_bind.mpr (confirming_read rfl fun answer s₁ h₁ _ => ?_)
  cases answer with
  | error e => exact hnoted
  | ok stopping =>
    dsimp only
    split_ifs
    · exact hnoted
    · have hsync : Confirming world config (syncOnce packages config) (fun _ memory' _ => Noted config memory')
          memory s₁ := by
        refine Action.wp_bind.mpr (confirming_read rfl fun answer s₂ h₂ _ => ?_)
        cases answer with
        | error e => exact hnoted
        | ok info =>
          refine Action.wp_bind.mpr (Action.wp_modify.mpr ?_)
          dsimp only
          split_ifs
          · exact hnoted.of_view rfl
          · cases hbinding : config.binding with
            | none => exact fun text h => by cases h
            | some binding =>
              refine confirming_syncBound hbinding ?_ _
              exact hnoted.of_view rfl
      refine Action.wp_tryCatch.mpr (Action.wp_bind.mpr (Action.wp_mono hsync ?_))
      rintro (e | more) memory' s' h
      · exact h.of_view rfl
      · exact h.of_view rfl

end

/-! ### Any run -/

/-- The states of processes that run one after the other on a database, each with a configuration of its own; every
step that confirms an INIT confirms one that its operator expects. -/
def World.Asserted (world : World) (packages : Packages) (config : SyncConfiguration) (s : Surroundings) :
    SyncConfiguration × Activity SyncCall SyncCall.Value String SyncMemory × Surroundings → Prop :=
  Sessions world.Confirms world.Moves (tick packages) SyncMemory.fresh (fun _ _ _ => True) config s

/-- **A contradiction is noted**, and nothing is served. -/
theorem mismatch_noted {first config : SyncConfiguration} {start s : Surroundings} {memory : SyncMemory}
    (run : world.Asserted packages first start (config, .idle memory, s)) {init : InitActivation}
    (hinit : memory.state.activation = some init) (contradicted : ¬AsConfigured config.deployment init) :
    memory.state.initConfigMismatch.isSome ∧ ∀ probing reads,
      (probe probing memory.state reads).ready = false ∧
      ∀ (signing : Signing) (verification : VerificationConfiguration) signedAt fetchPipelineB {α : Type}
        (query : VerificationMetadata → Except String α) (after : Except String VerificationMetadata),
        ∃ e, executeBound (resolve signing config.deployment verification (probe probing memory.state reads) signedAt
          fetchPipelineB) query after = .error e := by
  have agrees := Session.invariant (I := fun _ _ => True) (J := fun config memory _ => Noted config memory)
    (fun config memory s _ hnoted => confirming_tick hnoted) (fun _ _ _ text ht => by cases ht)
    (fun _ _ _ _ _ _ hnoted => ⟨trivial, hnoted⟩) (fun _ _ _ _ _ => trivial) trivial run
  have hnoted : Noted config memory := agrees.2
  cases hcheck : checkConfiguredHeights config.deployment (some init) with
  | none => exact absurd (checkConfiguredHeights_eq_none.mp hcheck) contradicted
  | some text =>
    have hmismatch := hnoted text (hinit ▸ hcheck)
    refine ⟨Option.isSome_of_eq_some hmismatch, fun probing reads => ?_⟩
    have hready : (probe probing memory.state reads).ready = false :=
      not_ready_of_mismatch hmismatch (checkConfiguredHeights_ne_empty hcheck)
    refine ⟨hready, fun signing verification signedAt fetchPipelineB α query after => ?_⟩
    obtain ⟨e, he⟩ := resolve_not_ready hready
    exact executeBound_error he

/-! ### An INIT that confirms elsewhere -/

/-- Checks that also accept every INIT. -/
def initChecks : Checks := { openChecks with checkInit := fun _ _ _ _ => .VALID }

/-- The dispatch over them. -/
def initPackages : Packages := { openPackages with validate := validateTandemTransaction initChecks }

/-- There is this block only. -/
def windowWorld : World where
  block hash := [windowBlock].find? fun block => block.hash = hash
  hash_block h := by simpa using List.find?_some h
  txindex := false

theorem windowWorld_isChain : windowWorld.IsChain [windowBlock] where
  known := by decide +kernel
  linked := ⟨trivial, trivial⟩
  txids := by decide +kernel

/-- The operator expects the INIT there, and its window one block later than it is. -/
def windowConfig : SyncConfiguration := { sampleConfig with
  deployment := { sampleConfig.deployment with
    initHeight := some 200
    openHeight := some 1209
    closeHeight := some 5529 } }

/-- The first tick. -/
def windowRun := (tick initPackages windowConfig (.fresh windowConfig)).drive (windowWorld.reply "main") 40
  ⟨[windowBlock], [], Db.empty⟩

/-- What a probe reads after it. -/
def windowReads : ProbeReads := ⟨true, some (some 200), some (some 200), some ⟨"main", 200, sampleHash 2, false⟩⟩

/-- **A contradiction goes unnoticed** after the tick that confirms the INIT, and the process is ready. -/
theorem mismatch_unnoticed : ∃ memory s init,
    windowWorld.Runs initPackages windowConfig [windowBlock] [] (.idle memory, s) ∧
      memory.state.activation = some init ∧ ¬AsConfigured windowConfig.deployment init ∧
      memory.state.initConfigMismatch = none ∧
      (probe ⟨Hash.zero.text, "main", 6, true⟩ memory.state windowReads).ready = true := by
  have hdone : windowRun.1.result?.map (fun result => (result.2.state.activation.bind InitActivation.openHeight,
      result.2.state.initConfigMismatch,
      (probe ⟨Hash.zero.text, "main", 6, true⟩ result.2.state windowReads).ready)) = some (some 1208, none, true) := by
    decide +kernel
  obtain ⟨⟨result, memory⟩, hresult, hend⟩ := Option.map_eq_some_iff.mp hdone
  obtain ⟨hopen, hrest⟩ := Prod.mk.inj hend
  obtain ⟨hmismatch, hready⟩ := Prod.mk.inj hrest
  obtain ⟨init, hinit, hopen⟩ := Option.bind_eq_some_iff.mp hopen
  refine ⟨memory, windowRun.2, init, ?_, hinit, fun h => ?_, hmismatch, hready⟩
  · have turn : windowWorld.Runs initPackages windowConfig [windowBlock] [] (.busy windowRun.1, windowRun.2) :=
      .head (.starts _ _) (Turn.drive (fun s => windowWorld.IsChain s.node)
        (fun c s hs => World.reply_answers "main" c s hs) 40 _ windowWorld_isChain)
    rw [Interact.result?_eq_some.mp hresult] at turn
    exact turn.tail (.ends _ _ _)
  · have := hopen.symm.trans (h.openHeight 1209 rfl)
    cases this

/-- The same node, when no transaction goes through. -/
def heldReply (c : SyncCall) (s : Surroundings) : Except String c.Value × Surroundings :=
  if c.body.isSome then (.error "Connection lost", s) else windowWorld.reply "main" c s

theorem heldReply_confirms (c : SyncCall) (s : Surroundings) (hs : windowWorld.IsChain s.node) :
    windowWorld.Confirms windowConfig c s (heldReply c s).1 (heldReply c s).2 ∧
      windowWorld.IsChain (heldReply c s).2.node := by
  cases hc : c.body with
  | none =>
    have hreply : heldReply c s = windowWorld.reply "main" c s := by simp [heldReply, hc]
    rw [hreply]
    refine ⟨⟨(windowWorld.reply_answers "main" c s hs).1, ?_⟩, (windowWorld.reply_answers "main" c s hs).2⟩
    rintro blocks first block rfl
    cases hc
  | some body =>
    have hreply : heldReply c s = (.error "Connection lost", s) := by simp [heldReply, hc]
    rw [hreply]
    refine ⟨⟨⟨hs, fun value h => (by cases h), ?_, fun h => (by cases hc.symm.trans h), fun body' _ => ?_⟩, ?_⟩, hs⟩
    · rintro e - rfl
      cases hc
    · exact ⟨.aborted, rfl, fun ⟨value, h⟩ => by cases h⟩
    · rintro blocks first block - ⟨value, h⟩
      cases h

/-- The first tick of the next process. -/
def restartRun := (tick initPackages windowConfig (.fresh windowConfig)).drive heldReply 40
  ⟨[windowBlock], [], windowRun.2.db⟩

/-- After a restart the contradiction is noted. -/
theorem mismatch_noted_sample : ∃ memory : SyncMemory,
    (∃ init, memory.state.activation = some init ∧ ¬AsConfigured windowConfig.deployment init) ∧
      memory.state.initConfigMismatch.isSome ∧ ∀ probing reads,
        (probe probing memory.state reads).ready = false ∧
        ∀ (signing : Signing) (verification : VerificationConfiguration) signedAt fetchPipelineB {α : Type}
          (query : VerificationMetadata → Except String α) (after : Except String VerificationMetadata),
          ∃ e, executeBound (resolve signing windowConfig.deployment verification (probe probing memory.state reads)
            signedAt fetchPipelineB) query after = .error e := by
  have hdone : restartRun.1.result?.map (fun result => result.2.state.activation.bind InitActivation.openHeight) =
      some (some 1208) := by decide +kernel
  obtain ⟨⟨result, memory⟩, hresult, hopen⟩ := Option.map_eq_some_iff.mp hdone
  obtain ⟨init, hinit, hopen⟩ := Option.bind_eq_some_iff.mp hopen
  have contradicted : ¬AsConfigured windowConfig.deployment init := fun h => by
    have := hopen.symm.trans (h.openHeight 1209 rfl)
    cases this
  have turn : Turns (windowWorld.Confirms windowConfig) windowWorld.Moves (tick initPackages windowConfig)
      (.fresh windowConfig) ⟨[windowBlock], [], windowRun.2.db⟩ (.busy restartRun.1, restartRun.2) :=
    .head (.starts _ _) (Turn.drive (fun s => windowWorld.IsChain s.node) heldReply_confirms 40 _ windowWorld_isChain)
  rw [Interact.result?_eq_some.mp hresult] at turn
  have run : windowWorld.Asserted initPackages windowConfig ⟨[windowBlock], [], windowRun.2.db⟩
      (windowConfig, .idle memory, restartRun.2) := Session.stretch (turn.tail (.ends _ _ _))
  exact ⟨memory, ⟨init, hinit, contradicted⟩, mismatch_noted run hinit contradicted⟩

end IndexTandem.Indexer

