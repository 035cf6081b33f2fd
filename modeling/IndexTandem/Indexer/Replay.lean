import IndexTandem.Indexer.Sameness

/-!
# Replaying a chain

`Replay chain index` says that the index is what connecting the blocks of the chain one
after the other gives, from empty tables and the initial root. Chains are listed newest
block first. A replayed index holds its objects (`Replay.mirrors`), can be read back from
its tables (`Replay.loadActivation`, `Replay.canonicalTip`), and disconnecting its newest
blocks gives the replay of the rest (`Replay.rollback`).

The journal of reorganizations is no part of this: no statement that writes a block reads
it, so everything commutes with replacing it (`Framed`).
-/

namespace IndexTandem.Indexer

open Library Protocol Database

variable {packages : Packages} {binding : Binding}

/-! ### The journal of reorganizations stands apart -/

/-- The database with another journal of reorganizations. -/
def withReorgs (journal : List ReorgRow) (db : Db) : Db := { db with reorgs := journal }

/-- The authoritative tables: everything but the journal of reorganizations. -/
def tables (db : Db) : Db := withReorgs [] db

@[simp] theorem withReorgs_withReorgs (j j' : List ReorgRow) (db : Db) :
    withReorgs j (withReorgs j' db) = withReorgs j db := rfl

@[simp] theorem tables_withReorgs (j : List ReorgRow) (db : Db) : tables (withReorgs j db) = tables db := rfl

@[simp] theorem withReorgs_tables (j : List ReorgRow) (db : Db) : withReorgs j (tables db) = withReorgs j db := rfl

@[simp] theorem withReorgs_self (db : Db) : withReorgs db.reorgs db = db := rfl

/-- The computation does not read the journal of reorganizations and leaves it alone. -/
def Framed (f : Db → Except String Db) : Prop := ∀ j db, f (withReorgs j db) = (f db).map (withReorgs j)

theorem Framed.bind {f g : Db → Except String Db} (hf : Framed f) (hg : Framed g) : Framed fun db => f db >>= g := by
  intro j db
  change f (withReorgs j db) >>= g = (f db >>= g).map (withReorgs j)
  rw [hf]
  cases f db with
  | error e => rfl
  | ok d => exact hg j d

theorem Framed.foldlM {C : Type} {f : Db → C → Except String Db} {l : List C} (hf : ∀ c ∈ l, Framed fun db => f db c) :
    Framed fun db => l.foldlM f db := by
  induction l with
  | nil => exact fun j db => rfl
  | cons c l ih =>
    have hc := hf c List.mem_cons_self
    exact hc.bind (ih fun d hd => hf d (List.mem_cons_of_mem _ hd))

theorem Framed.insert {R : Type} (t : Table Db R) (row : R)
    (h : ∀ j db, t.rows (withReorgs j db) = t.rows db ∧ (∀ l, t.put l (withReorgs j db) = withReorgs j (t.put l db)) ∧
      t.parents (withReorgs j db) row = t.parents db row) : Framed (t.insert row) := by
  intro j db
  obtain ⟨h₁, h₂, h₃⟩ := h j db
  unfold Table.insert
  rw [h₁, h₃, h₂]
  unfold ensure
  split_ifs <;> rfl

theorem Framed.update {R : Type} (t : Table Db R) (which : R → Bool) (change : R → R)
    (h : ∀ j db, t.rows (withReorgs j db) = t.rows db ∧ ∀ l, t.put l (withReorgs j db) = withReorgs j (t.put l db)) :
    Framed (t.update which change) := by
  intro j db
  obtain ⟨h₁, h₂⟩ := h j db
  unfold Table.update
  rw [h₁, h₂]
  unfold ensure
  split_ifs <;> rfl

theorem framed_upsertObject (record : ObjectRecord) : Framed (upsertObject record) := by
  intro j db
  unfold upsertObject
  rw [show (withReorgs j db).objects = db.objects from rfl]
  cases (db.objects.find? fun row => row.objectKey = record.objectKey).or
      (db.objects.find? fun row => row.createTxid = record.createTxid) with
  | none => exact Framed.insert objects _ (fun _ _ => ⟨rfl, fun _ => rfl, rfl⟩) j db
  | some old => exact Framed.update objects _ _ (fun _ _ => ⟨rfl, fun _ => rfl⟩) j db

theorem framed_writeTouched (block : ReducedBlock) (entry : Hash × Option ObjectRecord) :
    Framed fun db => writeTouched block db entry := by
  refine Framed.bind (Framed.insert undo _ fun _ _ => ⟨rfl, fun _ => rfl, rfl⟩) ?_
  intro j db
  dsimp only
  split
  · exact framed_upsertObject _ j db
  · rfl

theorem framed_writeInit (block : ReducedBlock) : Framed (writeInit block) := by
  intro j db
  unfold writeInit
  split_ifs
  · exact Framed.insert Database.init _ (fun _ _ => ⟨rfl, fun _ => rfl, rfl⟩) j db
  · rfl

/-- Writing a block leaves the journal of reorganizations alone. -/
theorem framed_writeBlock (block : ReducedBlock) : Framed (writeBlock block) := by
  unfold writeBlock
  refine Framed.bind (Framed.insert blocks _ fun _ _ => ⟨rfl, fun _ => rfl, rfl⟩) ?_
  refine Framed.bind (framed_writeInit block) ?_
  refine Framed.bind (Framed.foldlM fun _ _ => Framed.insert transactions _ fun _ _ => ⟨rfl, fun _ => rfl, rfl⟩) ?_
  refine Framed.bind (Framed.foldlM fun _ _ => Framed.insert events _ fun _ _ => ⟨rfl, fun _ => rfl, rfl⟩) ?_
  refine Framed.bind (Framed.foldlM fun entry _ => framed_writeTouched block entry) ?_
  refine Framed.bind (Framed.foldlM fun _ _ => Framed.bind
    (Framed.insert states _ fun _ _ => ⟨rfl, fun _ => rfl, rfl⟩)
    (Framed.insert carriers _ fun _ _ => ⟨rfl, fun _ => rfl, rfl⟩)) ?_
  refine Framed.bind (Framed.foldlM fun _ _ => Framed.bind
    (Framed.update states _ _ fun _ _ => ⟨rfl, fun _ => rfl⟩)
    (Framed.update carriers _ _ fun _ _ => ⟨rfl, fun _ => rfl⟩)) ?_
  refine Framed.bind (Framed.foldlM fun _ _ => Framed.insert chapters _ fun _ _ => ⟨rfl, fun _ => rfl, rfl⟩) ?_
  exact Framed.insert checkpoints _ fun _ _ => ⟨rfl, fun _ => rfl, rfl⟩

theorem framed_restoreObject (entry : UndoRow) : Framed fun db => restoreObject db entry := by
  intro j db
  unfold restoreObject
  dsimp only
  split
  · rfl
  · exact Framed.update objects _ _ (fun _ _ => ⟨rfl, fun _ => rfl⟩) j db

/-- Disconnecting a block leaves the journal of reorganizations alone. -/
theorem framed_rollbackBlock (height : ℕ) : Framed fun db => rollbackBlock db height := by
  intro j db
  unfold rollbackBlock
  dsimp only
  have h : (db.undo.filter fun row => row.height = height).reverse.foldlM restoreObject
        (withReorgs j (dropCreated height db)) =
      ((db.undo.filter fun row => row.height = height).reverse.foldlM restoreObject (dropCreated height db)).map
        (withReorgs j) :=
    Framed.foldlM (fun entry _ => framed_restoreObject entry) j (dropCreated height db)
  change List.foldlM restoreObject (withReorgs j (dropCreated height db))
    (db.undo.filter fun row => row.height = height).reverse >>= _ = _
  rw [h]
  cases List.foldlM restoreObject (dropCreated height db) _ with
  | error e => rfl
  | ok d => rfl

/-! ### Replays -/

/-- What a block is reduced with. -/
structure Cursor where
  /-- The INIT. -/
  activation : Option InitActivation
  /-- The root of the chain. -/
  root : Hash
  /-- The objects. -/
  objects : JsMap Hash ObjectRecord

/-- What the next block is reduced with. -/
def Cursor.after (reduced : ReducedBlock) : Cursor := ⟨some reduced.activation, reduced.chainedRoot, reduced.objects⟩

/-- What the first block is reduced with. -/
def Cursor.initial (packages : Packages) (binding : Binding) : Cursor :=
  ⟨none, initialStateRoot packages.sha256 binding.ns, ∅⟩

/-- `reduceBlock` at a cursor. -/
def Cursor.reduce (packages : Packages) (binding : Binding) (cursor : Cursor) (block : BitcoinBlock) :
    Except String ReducedBlock :=
  reduceBlock packages binding cursor.activation cursor.root cursor.objects block

/-- What the indexer knows after some blocks. -/
structure Index extends Cursor where
  /-- The database. -/
  db : Db

/-- Before any block. -/
def Index.empty (packages : Packages) (binding : Binding) : Index := ⟨Cursor.initial packages binding, Db.empty⟩

/-- After one more block. -/
def Index.next (reduced : ReducedBlock) (db : Db) : Index := ⟨Cursor.after reduced, db⟩

/-- The block is the child of the newest block of the chain, one higher. -/
def Follows (block : BitcoinBlock) : List BitcoinBlock → Prop
  | [] => True
  | parent :: _ => block.previousBlockHash = some parent.hash ∧ block.height = parent.height + 1

/-- The index is what connecting the blocks of the chain gives; the newest block comes first. -/
inductive Replay (packages : Packages) (binding : Binding) : List BitcoinBlock → Index → Prop
  /-- No block. -/
  | empty : Replay packages binding [] (Index.empty packages binding)
  /-- One more block, reduced and written. -/
  | connect {chain : List BitcoinBlock} {index : Index} {block : BitcoinBlock} {reduced : ReducedBlock} {db : Db}
      (replay : Replay packages binding chain index) (follows : Follows block chain)
      (reduces : index.reduce packages binding block = .ok reduced)
      (writes : writeBlock reduced index.db = .ok db) :
      Replay packages binding (block :: chain) (Index.next reduced db)

theorem initHeight_of_reduceBlock {activation : Option InitActivation} {previousRoot : Hash}
    {objects : JsMap Hash ObjectRecord} {block : BitcoinBlock} {reduced : ReducedBlock}
    (h : reduceBlock packages binding activation previousRoot objects block = .ok reduced) :
    reduced.initConfirmed = true → reduced.activation.height = reduced.height := by
  intro hi
  obtain ⟨hsome, hnone⟩ := reduceBlock_activation h
  obtain ⟨_, -, hheight, -⟩ := reduceBlock_steps h
  cases activation with
  | none => exact (hnone rfl).2.1.trans hheight.symm
  | some a => exact nomatch hi.symm.trans (hsome a rfl).1

section

variable {chain : List BitcoinBlock} {index : Index}

/-- **A replayed database holds the replayed objects.** -/
theorem Replay.mirrors (h : Replay packages binding chain index) :
    Mirrors packages binding index.objects index.db := by
  induction h with
  | empty => exact Mirrors.empty packages binding
  | connect _ _ reduces writes ih =>
    obtain ⟨rfl, accepted⟩ := writeBlock_ok writes
    have tracks := tracks_of_reduceBlock ih.settled reduces (ih.fresh accepted)
    exact ih.written tracks accepted (initHeight_of_reduceBlock reduces)

/-- The newest block and its height are what the tables say. -/
theorem tipRow_written {block : ReducedBlock} {db : Db} (h : ∀ row, tipRow db = some row → row.height < block.height) :
    tipRow (written block db) = some (blockRow block) := by
  unfold tipRow written
  rw [List.foldl_append]
  change higher (tipRow db) (blockRow block) = some (blockRow block)
  cases ht : tipRow db with
  | none => rfl
  | some other => exact if_pos (h other ht)

/-- **Reading the tip back.** -/
theorem Replay.canonicalTip (h : Replay packages binding chain index) :
    canonicalTip index.db = chain.head?.map fun block => ⟨block.height, block.hash, index.root⟩ := by
  induction h with
  | empty => rfl
  | @connect chain index block reduced db _ follows reduces writes ih =>
    obtain ⟨rfl, -⟩ := writeBlock_ok writes
    obtain ⟨_, _, _, _, _, _, hfin⟩ := reduceBlock_ok reduces
    obtain ⟨hheight, hhash, -⟩ := finishBlock_ok hfin
    have htip : tipRow (written reduced index.db) = some (blockRow reduced) := by
      refine tipRow_written fun row hrow => ?_
      cases chain with
      | nil => simp [Indexer.canonicalTip, hrow] at ih
      | cons parent chain =>
        simp only [Indexer.canonicalTip, hrow, Option.map_some, List.head?_cons, Option.some.injEq,
          CanonicalTip.mk.injEq] at ih
        rw [hheight, ih.1, follows.2]
        exact Nat.lt_succ_self _
    simp [Indexer.canonicalTip, Index.next, Cursor.after, htip, blockRow, hheight, hhash]

/-- **Reading the INIT back.** -/
theorem Replay.loadActivation (h : Replay packages binding chain index) :
    loadActivation index.db = index.activation ∧ (index.activation = none ↔ chain = []) := by
  induction h with
  | empty => exact ⟨rfl, by simp [Index.empty, Cursor.initial]⟩
  | @connect chain index block reduced db _ follows reduces writes ih =>
    obtain ⟨rfl, accepted⟩ := writeBlock_ok writes
    obtain ⟨hsome, hnone⟩ := reduceBlock_activation reduces
    refine ⟨?_, by simp [Index.next, Cursor.after]⟩
    simp only [Index.next, Cursor.after, Indexer.loadActivation, written]
    cases hact : index.activation with
    | none =>
      obtain ⟨hconf, -⟩ := hnone hact
      rw [accepted.init hconf, hconf]
      simp [initRow]
    | some a =>
      obtain ⟨hconf, rfl⟩ := hsome a hact
      rw [hconf, if_neg Bool.false_ne_true, List.append_nil, ← hact]
      exact ih.1

/-- The oldest block of a replayed chain confirms the INIT. -/
theorem Replay.activation (h : Replay packages binding chain index) {a : InitActivation}
    (ha : index.activation = some a) : ∃ first, chain.getLast? = some first ∧ a.height = first.height ∧
      a.blockHash = first.hash ∧ a.txid = binding.initTxid ∧ ∃ tx ∈ first.transactions, tx.txid = binding.initTxid := by
  induction h with
  | empty => simp [Index.empty, Cursor.initial] at ha
  | @connect chain index block reduced db replay follows reduces writes ih =>
    obtain ⟨hsome, hnone⟩ := reduceBlock_activation reduces
    obtain rfl : reduced.activation = a := Option.some.inj ha
    cases hact : index.activation with
    | none =>
      obtain rfl := replay.loadActivation.2.mp hact
      obtain ⟨-, hheight, hhash, htxid, htx⟩ := hnone hact
      exact ⟨block, rfl, hheight, hhash, htxid, htx⟩
    | some b =>
      obtain ⟨-, rfl⟩ := hsome b hact
      obtain ⟨first, hlast, h⟩ := ih hact
      have hne : chain ≠ [] := fun he => by simp [he] at hlast
      exact ⟨first, by rw [List.getLast?_cons, hlast]; rfl, h⟩

/-- **Disconnecting the newest block** gives the replay of the others. -/
theorem Replay.rollback {block : BitcoinBlock} (h : Replay packages binding (block :: chain) index) :
    ∃ before, Replay packages binding chain before ∧ rollbackBlock index.db block.height = .ok before.db := by
  cases h with
  | @connect _ before _ reduced db replay follows reduces writes =>
    obtain ⟨rfl, accepted⟩ := writeBlock_ok writes
    have m := replay.mirrors
    have tracks := tracks_of_reduceBlock m.settled reduces (m.fresh accepted)
    obtain ⟨_, -, hheight, -⟩ := reduceBlock_steps reduces
    refine ⟨before, replay, ?_⟩
    rw [← hheight]
    exact rollbackBlock_written m tracks accepted (initHeight_of_reduceBlock reduces)

/-- The blocks of a chain up to the ancestor. -/
def upTo (ancestorHeight : ℤ) (chain : List BitcoinBlock) : List BitcoinBlock :=
  chain.dropWhile fun block => ancestorHeight < block.height

/-- The heights of a chain go down by one from block to block. -/
theorem Replay.follows {block : BitcoinBlock} (h : Replay packages binding (block :: chain) index) :
    Follows block chain := by
  cases h with
  | connect _ follows => exact follows

/-- **Disconnecting every block above the ancestor** gives the replay of the chain up to it. -/
theorem Replay.rollbackTo {block : BitcoinBlock} (h : Replay packages binding (block :: chain) index) {ancestor : ℤ}
    (hinit : ∀ first, (block :: chain).getLast? = some first → (first.height : ℤ) - 1 ≤ ancestor) :
    ∃ before, Replay packages binding (upTo ancestor (block :: chain)) before ∧
      (heightsAbove ancestor block.height).foldlM rollbackBlock index.db = .ok before.db := by
  induction chain generalizing block index with
  | nil =>
    have hlast := hinit block rfl
    by_cases hb : ancestor < block.height
    · obtain ⟨before, replay, hroll⟩ := h.rollback
      have heights : heightsAbove ancestor block.height = [block.height] := by
        cases hh : block.height with
        | zero => rw [heightsAbove, if_pos (by omega)]
        | succ n =>
          rw [heightsAbove, if_pos (by omega)]
          cases n with
          | zero => rw [heightsAbove, if_neg (by omega)]
          | succ n => rw [heightsAbove, if_neg (by omega)]
      refine ⟨before, by simpa [upTo, hb] using replay, ?_⟩
      rw [heights, List.foldlM_cons, hroll]
      rfl
    · have heights : heightsAbove ancestor block.height = [] := by
        cases hh : block.height with
        | zero => rw [heightsAbove, if_neg (by omega)]
        | succ n => rw [heightsAbove, if_neg (by omega)]
      exact ⟨index, by simpa [upTo, hb] using h, by rw [heights]; rfl⟩
  | cons parent chain ih =>
    by_cases hb : ancestor < block.height
    · obtain ⟨before, replay, hroll⟩ := h.rollback
      obtain ⟨index', replay', hroll'⟩ := ih replay fun first hf => hinit first (by rw [List.getLast?_cons, hf]; rfl)
      have heights : heightsAbove ancestor block.height = block.height :: heightsAbove ancestor parent.height := by
        rw [h.follows.2, heightsAbove, if_pos (by have := h.follows.2; omega)]
      refine ⟨index', ?_, ?_⟩
      · have hdrop : upTo ancestor (block :: parent :: chain) = upTo ancestor (parent :: chain) := by
          simp [upTo, hb]
        rw [hdrop]
        exact replay'
      · rw [heights, List.foldlM_cons, hroll]
        exact hroll'
    · have heights : heightsAbove ancestor block.height = [] := by
        cases hh : block.height with
        | zero => rw [heightsAbove, if_neg (by omega)]
        | succ n => rw [heightsAbove, if_neg (by omega)]
      refine ⟨index, ?_, by rw [heights]; rfl⟩
      have hdrop : upTo ancestor (block :: parent :: chain) = block :: parent :: chain := by simp [upTo, hb]
      rw [hdrop]
      exact h

end

end IndexTandem.Indexer
