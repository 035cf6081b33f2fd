import IndexTandem.Indexer.History
import Mathlib.Data.List.TakeWhile

/-!
# Rolling back is the inverse of appending

Whatever was appended and rolled back before, a rollback to an ancestor leaves every
authoritative table with the rows it had right after the ancestor was written, and
nothing when the ancestor is below the INIT (`rollback_restores`). It adds one row to
the journal of reorganizations. A rollback that was planned for another tip or another
ancestor, or that fails, leaves the database alone.

The argument is the determinism of the replay: the tables after the rollback are those
of the replay of the remaining blocks, and so were those right after the ancestor.
-/

namespace IndexTandem.Indexer

open Library Protocol Database

variable {packages : Packages} {binding : Binding}

/-! ### Heights of a chain -/

section

variable {chain : List BitcoinBlock} {index : Index}

/-- A chain has one replay. -/
theorem Replay.unique (h : Replay packages binding chain index) {index' : Index}
    (h' : Replay packages binding chain index') : index' = index := by
  induction h generalizing index' with
  | empty =>
    cases h'
    rfl
  | connect _ _ reduces writes ih =>
    cases h' with
    | connect replay' _ reduces' writes' =>
      obtain rfl := ih replay'
      obtain rfl := Except.ok.inj (reduces.symm.trans reduces')
      obtain rfl := Except.ok.inj (writes.symm.trans writes')
      rfl

theorem Replay.descending (h : Replay packages binding chain index) :
    chain.Pairwise fun block earlier => earlier.height < block.height := by
  induction h with
  | empty => exact .nil
  | @connect chain _ block _ _ _ follows _ _ ih =>
    refine List.pairwise_cons.mpr ⟨fun earlier he => ?_, ih⟩
    cases chain with
    | nil => cases he
    | cons parent rest =>
      have hb : block.height = parent.height + 1 := follows.2
      rcases List.mem_cons.mp he with rfl | he
      · omega
      · have := (List.pairwise_cons.mp ih).1 earlier he
        omega

theorem Replay.first_le (h : Replay packages binding chain index) {first block : BitcoinBlock}
    (hfirst : chain.getLast? = some first) (hb : block ∈ chain) : first.height ≤ block.height := by
  obtain ⟨newer, rfl⟩ := List.getLast?_eq_some_iff.mp hfirst
  rcases List.mem_append.mp hb with hb | hb
  · exact ((List.pairwise_append.mp h.descending).2.2 block hb first (List.mem_singleton.mpr rfl)).le
  · exact (List.mem_singleton.mp hb ▸ le_refl _)

theorem Replay.dense (h : Replay packages binding chain index) {first tip : BitcoinBlock}
    (hfirst : chain.getLast? = some first) (htip : chain.head? = some tip) {n : ℕ} (hlow : first.height ≤ n)
    (hhigh : n ≤ tip.height) : ∃ block ∈ chain, block.height = n := by
  induction h generalizing tip with
  | empty => simp at hfirst
  | @connect chain _ block _ _ _ follows _ _ ih =>
    obtain rfl : block = tip := by simpa using htip
    by_cases hn : n = block.height
    · exact ⟨block, List.mem_cons_self, hn.symm⟩
    · cases chain with
      | nil =>
        obtain rfl : block = first := by simpa using hfirst
        omega
      | cons parent rest =>
        have hb : block.height = parent.height + 1 := follows.2
        rw [List.getLast?_cons_cons] at hfirst
        obtain ⟨b, hm, h⟩ := ih hfirst rfl (by omega)
        exact ⟨b, List.mem_cons_of_mem _ hm, h⟩

end

/-- In a history of descending heights, what is left down to an entry's height starts with the entry. -/
theorem dropWhile_height {history : History}
    (h : history.Pairwise fun entry earlier => earlier.1.height < entry.1.height) {entry : BitcoinBlock × Db}
    (he : entry ∈ history) {ancestor : ℤ} (ha : (entry.1.height : ℤ) = ancestor) :
    ∃ rest, (history.dropWhile fun entry => ancestor < entry.1.height) = entry :: rest := by
  induction history with
  | nil => cases he
  | cons newest history ih =>
    obtain ⟨hnew, h⟩ := List.pairwise_cons.mp h
    rcases List.mem_cons.mp he with rfl | he
    · exact ⟨history, by simp [ha]⟩
    · obtain ⟨rest, hrest⟩ := ih h he
      refine ⟨rest, ?_⟩
      have := hnew entry he
      rw [List.dropWhile_cons_of_pos (by simp; omega), hrest]

/-! ### What a rollback leaves -/

/-- The database after a rollback to the ancestor. -/
structure Restored (history : History) (init : InitActivation) (ancestorHeight : ℤ) (db db' : Db) : Prop where
  /-- The authoritative tables have the rows they had when the ancestor was the tip. -/
  ancestor : ∀ entry ∈ history, (entry.1.height : ℤ) = ancestorHeight → tables db' = tables entry.2
  /-- They are empty when the INIT went too. -/
  emptied : ancestorHeight = (init.height : ℤ) - 1 → tables db' = Db.empty
  /-- There is no other case. -/
  covered : (∃ entry ∈ history, (entry.1.height : ℤ) = ancestorHeight) ∨ ancestorHeight = (init.height : ℤ) - 1
  /-- One row was added to the journal of reorganizations. -/
  journaled : ∃ row, db'.reorgs = db.reorgs ++ [row]

theorem Stored.restored {history : History} {db d : Db} (stored : Stored packages binding history db)
    {init : InitActivation} (activated : loadActivation db = some init) {oldTipHeight : ℕ} {ancestorHeight : ℤ}
    {plan : ReorgPlan} (plans : planReorgRollback oldTipHeight ancestorHeight init.height = .ok plan)
    {tip : BlockRow} (ht : tipRow db = some tip) (hheight : tip.height = plan.oldTipHeight)
    (hd : plan.rollbackHeights.foldlM rollbackBlock db = .ok d) (row : ReorgRow) :
    Restored history init ancestorHeight db (withReorgs (d.reorgs ++ [row]) d) := by
  obtain ⟨holds, recorded⟩ := stored.recorded
  obtain ⟨d', hd', hreorgs, index, replay, htab⟩ := holds.disconnect activated plans ht hheight
  obtain rfl : d' = d := Except.ok.inj (hd'.symm.trans hd)
  obtain ⟨block, rest, hchain, hb, -⟩ := holds.tip ht
  obtain ⟨hlow, hhigh, hplan⟩ := planReorgRollback_ok plans
  have hold : tip.height = oldTipHeight := by rw [hheight, hplan]
  obtain ⟨whole, hwhole, -⟩ := id holds
  have hdesc : history.Pairwise fun entry earlier => earlier.1.height < entry.1.height :=
    List.pairwise_map.mp hwhole.descending
  obtain ⟨first, hfirst⟩ : ∃ first, history.blocks.getLast? = some first := by
    rw [hchain]
    exact ⟨_, List.getLast?_eq_some_getLast (List.cons_ne_nil _ _)⟩
  have hinit := holds.initHeight activated hfirst
  refine ⟨fun entry he ha => ?_, fun ha => ?_, ?_, row, by rw [← hreorgs]; rfl⟩
  · obtain ⟨rest, hrest⟩ := dropWhile_height hdesc he ha
    obtain ⟨then', hthen, hthenTab⟩ := recorded entry rest (hrest ▸ List.dropWhile_suffix _)
    rw [← History.blocks_dropWhile, hrest] at replay
    obtain rfl := hthen.unique replay
    exact htab.symm.trans hthenTab
  · have hnone : upTo ancestorHeight history.blocks = [] := by
      refine List.dropWhile_eq_nil_iff.mpr fun b hbm => decide_eq_true ?_
      -- The oldest block has the height of the INIT, and the heights go down to it.
      have hle : first.height ≤ b.height := hwhole.first_le hfirst hbm
      omega
    rw [hnone] at replay
    cases replay
    exact htab.symm
  · by_cases ha : ancestorHeight = (init.height : ℤ) - 1
    · exact .inr ha
    · have htip : history.blocks.head? = some block := by rw [hchain]; rfl
      have hlow' : first.height ≤ ancestorHeight.toNat := by omega
      obtain ⟨b, hbm, hbn⟩ := hwhole.dense hfirst htip hlow' (by omega)
      obtain ⟨entry, he, rfl⟩ := List.mem_map.mp hbm
      exact .inl ⟨entry, he, by omega⟩

/-- **A rollback is the exact inverse of the appends above the ancestor.** It goes through when the tip and
the ancestor are the ones it was planned for, its journal row fits and nothing fails; otherwise no table
changes. -/
theorem rollback_restores {history : History} {db : Db} (stored : Stored packages binding history db)
    {init : InitActivation} (activated : loadActivation db = some init) {oldTipHeight : ℕ} {ancestorHeight : ℤ}
    {plan : ReorgPlan} (plans : planReorgRollback oldTipHeight ancestorHeight init.height = .ok plan)
    (journal : ReorgJournal) (fault : Fault) :
    (Unmoved plan journal db ∧ reorgs.fits (reorgRow plan journal db) = true ∧ fault ≠ .aborted →
      Restored history init ancestorHeight db (transaction fault (rollback plan journal) db).1 ∧
        (fault = .none → (transaction fault (rollback plan journal) db).2 = .ok ())) ∧
      (¬(Unmoved plan journal db ∧ reorgs.fits (reorgRow plan journal db) = true ∧ fault ≠ .aborted) →
        (transaction fault (rollback plan journal) db).1 = db ∧
          ∃ e, (transaction fault (rollback plan journal) db).2 = .error e) := by
  have hrow : ∀ d, d.reorgs = db.reorgs → reorgRow plan journal d = reorgRow plan journal db := by
    intro d hd
    unfold reorgRow nextReorgId
    rw [hd]
  constructor
  · rintro ⟨⟨⟨tip, ht, hheight, hhash⟩, hancestor⟩, hfits, hfault⟩
    obtain ⟨d, hd, hreorgs, -⟩ := stored.recorded.1.disconnect activated plans ht hheight
    have hroll : rollback plan journal db = .ok (withReorgs (d.reorgs ++ [reorgRow plan journal d]) d) :=
      rollback_eq_ok.mpr ⟨⟨⟨tip, ht, hheight, hhash⟩, hancestor⟩, d, hd, by rw [hrow d hreorgs]; exact hfits, rfl⟩
    have hrestored := stored.restored activated plans ht hheight hd (reorgRow plan journal d)
    cases fault with
    | none => simpa [transaction, hroll] using hrestored
    | aborted => exact absurd rfl hfault
    | ackLost => simpa [transaction, hroll] using hrestored
  · intro hnot
    cases hroll : rollback plan journal db with
    | error e => cases fault <;> simp [transaction, hroll]
    | ok db' =>
      obtain ⟨⟨⟨tip, ht, hheight, hhash⟩, hancestor⟩, d, hd, hfits, -⟩ := rollback_eq_ok.mp hroll
      obtain ⟨d', hd', hreorgs, -⟩ := stored.recorded.1.disconnect activated plans ht hheight
      obtain rfl : d' = d := Except.ok.inj (hd'.symm.trans hd)
      rw [hrow _ hreorgs] at hfits
      obtain rfl : fault = .aborted := by
        by_contra hfault
        exact hnot ⟨⟨⟨tip, ht, hheight, hhash⟩, hancestor⟩, hfits, hfault⟩
      exact ⟨rfl, _, rfl⟩

/-- Two blocks, reduced from the start. -/
def sampleReduced : List ReducedBlock :=
  (reduceChain samplePackages sampleBinding (.initial samplePackages sampleBinding)
    [sampleInitBlock, sampleNextBlock]).toOption.getD []

/-- The database after they were written. -/
def sampleDb : Db := (appendBlocks sampleReduced Db.empty).toOption.getD Db.empty

theorem sampleReduced_reduces : reduceChain samplePackages sampleBinding (.initial samplePackages sampleBinding)
    [sampleInitBlock, sampleNextBlock] = .ok sampleReduced := eq_ok_getD (by decide +kernel) []

theorem sampleDb_appends : appendBlocks sampleReduced Db.empty = .ok sampleDb := eq_ok_getD (by decide +kernel) Db.empty

theorem sampleBlocks_extend : Extends [] [sampleInitBlock, sampleNextBlock] := ⟨trivial, ⟨rfl, rfl⟩, trivial⟩

theorem sampleDb_activated : loadActivation sampleDb =
    some ⟨sampleHash 1, 7, sampleHash 2, none, none, false, .BAD_MARKER_ENCODING_OR_LENGTH⟩ := by decide +kernel

theorem samplePlan_planned : planReorgRollback 8 7 7 = .ok ⟨8, 7, [8]⟩ := by decide +kernel

/-! ### Two lives -/

/-- The blocks of two lives, reduced and written one after the other. -/
structure Story where
  /-- The first block reduced, -/
  opening : ReducedBlock
  /-- and the store with it. -/
  before : Db
  /-- The second block, reduced from what is stored, -/
  later : ReducedBlock
  /-- and the store with both. -/
  db : Db

/-- They are reduced and written; that the first one can be written is a computation of its own (`opening_writes`). -/
def tellStory : Except String Story := do
  let opening ← (Cursor.initial lifePackages sampleBinding).reduce lifePackages sampleBinding openBlock
  let before := written opening Db.empty
  let later ← (Cursor.read lifePackages sampleBinding before before.objects).reduce lifePackages sampleBinding laterBlock
  let db ← writeBlock later before
  pure ⟨opening, before, later, db⟩

namespace Story

/-- What is read of them. -/
@[mk_iff]
structure Told (story : Story) : Prop where
  /-- The INIT is valid. -/
  activated : loadActivation story.db = some openActivation
  /-- The blocks, -/
  blocks : story.db.blocks.map (fun row => (row.height, row.hash)) = [(200, sampleHash 2), (201, sampleHash 4)]
  /-- their counters, -/
  checkpoints : story.db.checkpoints.map (fun row =>
    (row.height, row.allObjects, row.activeObjects, row.foundingCreated)) = [(200, 1, 1, 0), (201, 2, 2, 0)]
  /-- and their events. -/
  events : story.db.events.map (fun row =>
    (row.blockHeight, row.txIndex, row.eventIndex, row.subIndex, row.validityClass)) =
      [(200, 1, 0, 0, .VALID_OPERATION), (200, 2, 0, 0, .VALID_OPERATION), (201, 1, 0, 0, .VALID_OPERATION),
        (201, 2, 0, 0, .VALID_OPERATION)]
  /-- The object of the first block is marked in the second, and another one is created there. -/
  objects : story.before.objects.map (fun row => (row.createTxid, row.stateSequence)) = [(sampleHash 11, 0)] ∧
    story.db.objects.map (fun row => (row.createTxid, row.stateSequence)) = [(sampleHash 11, 1), (sampleHash 14, 0)]
  /-- Nothing was rolled back. -/
  reorgs : story.db.reorgs = []

instance (story : Story) : Decidable story.Told := decidable_of_iff _ (told_iff story).symm

theorem opening_writes : ((Cursor.initial lifePackages sampleBinding).reduce lifePackages sampleBinding
    openBlock).toOption.all (fun opening => (writeBlock opening Db.empty).toOption.isSome) = true := by decide +kernel

theorem runs : tellStory.toOption.any (fun story => decide story.Told) = true := by decide +kernel

theorem exists_told : ∃ story, tellStory = .ok story ∧ story.Told := by
  obtain ⟨story, ran, told⟩ := (Option.any_eq_true ..).mp runs
  exact ⟨story, ok_of_toOption ran, of_decide_eq_true told⟩

theorem Told.tip {story : Story} (told : story.Told) :
    ∃ row, tipRow story.db = some row ∧ row.height = 201 ∧ row.hash = sampleHash 4 := by
  obtain ⟨first, others, hsplit, hfirst, hothers⟩ := List.map_eq_cons_iff.mp told.blocks
  obtain ⟨second, rfl, hsecond⟩ := List.map_eq_singleton_iff.mp hothers
  obtain ⟨hlow, -⟩ := Prod.mk.inj hfirst
  obtain ⟨hhigh, hhash⟩ := Prod.mk.inj hsecond
  exact ⟨second, by simp [tipRow, hsplit, higher, hlow, hhigh], hhigh, hhash⟩

variable {story : Story} (ran : tellStory = .ok story)

include ran

theorem steps :
    (Cursor.initial lifePackages sampleBinding).reduce lifePackages sampleBinding openBlock = .ok story.opening ∧
      writeBlock story.opening Db.empty = .ok story.before ∧
      (Cursor.read lifePackages sampleBinding story.before story.before.objects).reduce lifePackages sampleBinding
        laterBlock = .ok story.later ∧
      writeBlock story.later story.before = .ok story.db := by
  obtain ⟨opening, begins, h⟩ := bind_eq_ok.mp ran
  obtain ⟨later, goesOn, h⟩ := bind_eq_ok.mp h
  obtain ⟨db, second, h⟩ := bind_eq_ok.mp h
  obtain rfl := pure_eq_ok.mp h
  have writes := opening_writes
  rw [begins] at writes
  obtain ⟨before, hbefore⟩ := Option.isSome_iff_exists.mp writes
  have first := ok_of_toOption hbefore
  obtain rfl := (writeBlock_ok first).1
  exact ⟨begins, first, goesOn, second⟩

theorem stored : Stored lifePackages sampleBinding [(openBlock, story.before)] story.before ∧
    Stored lifePackages sampleBinding [(laterBlock, story.db), (openBlock, story.before)] story.db := by
  obtain ⟨begins, first, goesOn, second⟩ := steps ran
  have earlier : Stored lifePackages sampleBinding [(openBlock, story.before)] story.before :=
    .next .empty trivial begins first
  exact ⟨earlier, .next earlier ⟨rfl, rfl⟩ goesOn second⟩

theorem before_told (told : story.Told) :
    story.before.blocks.map (fun row => (row.height, row.hash)) = [(200, sampleHash 2)] ∧
      story.before.checkpoints.map (fun row => (row.height, row.allObjects, row.activeObjects, row.foundingCreated)) =
        [(200, 1, 1, 0)] ∧
      ∃ events, story.db.events = story.before.events ++ events ∧ ∀ row ∈ events, row.blockHeight = 201 := by
  obtain ⟨-, -, goesOn, second⟩ := steps ran
  obtain ⟨hdb, -⟩ := writeBlock_ok second
  obtain ⟨_, -, hheight, -⟩ := reduceBlock_steps goesOn
  have hblocks := told.blocks
  have hcheckpoints := told.checkpoints
  rw [hdb] at hblocks hcheckpoints
  simp only [written, List.map_append, List.map_singleton] at hblocks hcheckpoints
  refine ⟨by simpa using congrArg List.dropLast hblocks, by simpa using congrArg List.dropLast hcheckpoints, _,
    congrArg Db.events hdb, fun row hrow => ?_⟩
  obtain ⟨event, -, rfl⟩ := List.mem_map.mp hrow
  exact hheight

end Story

theorem storyPlan_planned : planReorgRollback 201 200 200 = .ok ⟨201, 200, [201]⟩ := by decide +kernel

/-- The second block, with its MARK and its CREATE, is disconnected again. -/
theorem rollback_restores_sample : ∃ history db, Stored lifePackages sampleBinding history db ∧
    history.blocks = [laterBlock, openBlock] ∧
    Restored history openActivation 200 db
      (transaction .none (rollback ⟨201, 200, [201]⟩ ⟨(sampleHash 4).text, (sampleHash 2).text, ""⟩) db).1 := by
  obtain ⟨story, ran, told⟩ := Story.exists_told
  obtain ⟨tip, htip, hheight, hhash⟩ := told.tip
  obtain ⟨first, others, hsplit, hfirst, -⟩ := List.map_eq_cons_iff.mp told.blocks
  obtain ⟨hlow, hlowHash⟩ := Prod.mk.inj hfirst
  have hancestor : ∀ hash, blockHash story.db 200 = some hash → hash.text = (sampleHash 2).text := by
    simp [blockHash, hsplit, hlow, hlowHash]
  have hfits : reorgs.fits (reorgRow ⟨201, 200, [201]⟩ ⟨(sampleHash 4).text, (sampleHash 2).text, ""⟩ Db.empty) = true := by
    decide +kernel
  exact ⟨_, _, (Story.stored ran).2, rfl, ((rollback_restores (Story.stored ran).2 told.activated storyPlan_planned _ .none).1
    ⟨⟨⟨tip, htip, hheight, congrArg Hash.text hhash⟩, hancestor⟩, hfits, nofun⟩).1⟩

end IndexTandem.Indexer
