import IndexTandem.Indexer.Writing

/-!
# Which blocks can be written

The statements of `writeBlock` check widths, unique keys and references. A block whose
keys are new and whose references are kept (`Admitted`) passes all but the widths: every
statement goes through, unless one of its values does not fit its column
(`writeBlock_yields`).
-/

namespace IndexTandem.Indexer

open Library Protocol Database

/-! ### Single statements -/

/-- An object is inserted only when neither its key nor its creating transaction is there. -/
theorem upsertObject_yields (record : ObjectRecord) (db : Db) :
    Yields (upsertObject record db) { db with objects := upsertRows record db.objects } := by
  unfold upsertObject upsertRows
  cases hf : (db.objects.find? fun row => row.objectKey = record.objectKey).or
      (db.objects.find? fun row => row.createTxid = record.createTxid) with
  | none =>
    obtain ⟨hkey, htxid⟩ := Option.or_eq_none_iff.mp hf
    rw [List.find?_eq_none] at hkey htxid
    refine objects.insert_yields (fun r hr => ?_) rfl
    have h₁ := hkey r hr
    have h₂ := htxid r hr
    simp only [decide_eq_true_eq] at h₁ h₂
    simp [objects, objectRow, h₁, h₂]
  | some old =>
    have h := objects.update_yields (fun row => row.objectKey = old.objectKey) (setObject record) db
    simpa [objects] using h

theorem writeTouched_yields {block : ReducedBlock} {db : Db} (stored : db.hasBlock block.height = true)
    (entry : Hash × Option ObjectRecord) : Yields (writeTouched block db entry) { db with
      undo := db.undo ++ [undoRow block.height entry]
      objects := touchRows block db.objects entry } := by
  unfold writeTouched
  have hundo : Yields (undo.insert ⟨block.height, entry.1, entry.2⟩ db)
      { db with undo := db.undo ++ [undoRow block.height entry] } := undo.insert_yields (fun _ _ => rfl) stored
  refine hundo.bind ?_
  unfold touchRows
  cases block.objects.get? entry.1 with
  | none => exact .pure _
  | some current => exact upsertObject_yields current _

theorem writeTouchedAll_yields {block : ReducedBlock} {l : List (Hash × Option ObjectRecord)} {db : Db}
    (stored : db.hasBlock block.height = true) : Yields (l.foldlM (writeTouched block) db) { db with
      undo := db.undo ++ l.map (undoRow block.height)
      objects := l.foldl (touchRows block) db.objects } := by
  induction l generalizing db with
  | nil =>
    rw [List.map_nil, List.append_nil]
    exact .pure db
  | cons entry l ih =>
    rw [List.foldlM_cons]
    refine (writeTouched_yields stored entry).bind ?_
    have hrest := @ih { db with
      undo := db.undo ++ [undoRow block.height entry]
      objects := touchRows block db.objects entry } stored
    simpa using hrest

theorem writeStates_yields {height : ℕ} {l : List NewState} {db : Db} (apart : l.Pairwise NewState.Apart)
    (new : ∀ row ∈ db.states, ∀ s ∈ l, NewState.New row s)
    (carriers : ∀ row ∈ db.carriers, ∀ s ∈ l, row.outpoint ≠ s.outpoint)
    (owned : ∀ s ∈ l, db.hasObject s.objectKey = true) : Yields (l.foldlM (writeState height) db) { db with
      states := db.states ++ l.map (stateRow height)
      carriers := db.carriers ++ l.map (carrierRow height) } := by
  induction l generalizing db with
  | nil =>
    rw [List.map_nil, List.map_nil, List.append_nil, List.append_nil]
    exact .pure db
  | cons s l ih =>
    obtain ⟨hs, hl⟩ := List.pairwise_cons.mp apart
    rw [List.foldlM_cons]
    have hfirst : Yields (writeState height db s) { db with
        states := db.states ++ [stateRow height s]
        carriers := db.carriers ++ [carrierRow height s] } := by
      unfold writeState
      have howned := owned s List.mem_cons_self
      refine (states.insert_yields (fun row hrow => ?_) ?_).bind ?_
      · exact states_apart_iff.mpr (new row hrow s List.mem_cons_self)
      · exact howned
      · refine Database.carriers.insert_yields (fun row hrow => ?_) ?_
        · simpa [Database.carriers, carrierRow] using carriers row hrow s List.mem_cons_self
        · exact howned
    refine hfirst.bind ?_
    have hrest := @ih { db with
      states := db.states ++ [stateRow height s]
      carriers := db.carriers ++ [carrierRow height s] } hl ?_ ?_ ?_
    · simpa using hrest
    · intro row hrow s' hs'
      rcases List.mem_append.mp hrow with hrow | hrow
      · exact new row hrow s' (List.mem_cons_of_mem _ hs')
      · obtain rfl := List.mem_singleton.mp hrow
        exact hs s' hs'
    · intro row hrow s' hs'
      rcases List.mem_append.mp hrow with hrow | hrow
      · exact carriers row hrow s' (List.mem_cons_of_mem _ hs')
      · obtain rfl := List.mem_singleton.mp hrow
        exact (hs s' hs').1
    · exact fun s' hs' => owned s' (List.mem_cons_of_mem _ hs')

theorem writeSpentAll_yields {height : ℕ} {l : List SpentOutpoint} {db : Db} :
    Yields (l.foldlM (writeSpent height) db) { db with
      states := db.states.map (markState height l)
      carriers := db.carriers.map (markCarrier height l) } := by
  induction l generalizing db with
  | nil =>
    have h₁ : markState height [] = id := rfl
    have h₂ : markCarrier height [] = id := rfl
    rw [h₁, h₂, List.map_id, List.map_id]
    exact .pure db
  | cons s l ih =>
    rw [List.foldlM_cons]
    refine (Yields.bind (states.update_yields _ _ _) (carriers.update_yields _ _ _)).bind ?_
    refine cast (congrArg (Yields _) ?_) (@ih _)
    simp only [states, carriers, List.map_map, decide_eq_true_eq]
    congr 1

/-! ### The whole block -/

/-- The keys of a block are new, and what its rows refer to is there or in the block. -/
structure Admitted (block : ReducedBlock) (db : Db) : Prop where
  /-- The height and the hash of the block are new. -/
  fresh : ∀ row ∈ db.blocks, row.height ≠ block.height ∧ row.hash ≠ block.hash
  /-- The INIT that it confirms is the first, and its own. -/
  init : block.initConfirmed = true → db.init = [] ∧ block.activation.height = block.height
  /-- Its transactions are new. -/
  transactions : ∀ row ∈ db.transactions, row.blockHeight ≠ block.height ∧
    ∀ tx ∈ block.transactions, row.txid ≠ tx.txid
  /-- They are different from one another. -/
  positions : block.transactions.Pairwise fun tx tx' => tx.txid ≠ tx'.txid ∧ tx.txIndex ≠ tx'.txIndex
  /-- Its events have positions of their own. -/
  events : (∀ row ∈ db.events, row.blockHeight ≠ block.height) ∧ block.events.Pairwise fun e e' =>
    (e.txIndex, e.eventIndex, e.subIndex) ≠ (e'.txIndex, e'.eventIndex, e'.subIndex)
  /-- Every event has its transaction. -/
  told : ∀ event ∈ block.events, ∃ tx ∈ block.transactions, tx.txid = event.txid
  /-- The states have distinct keys. -/
  states : block.newStates.Pairwise NewState.Apart
  /-- The states are new. -/
  newStates : ∀ row ∈ db.states, ∀ s ∈ block.newStates, NewState.New row s
  /-- So are their carriers. -/
  carriers : ∀ row ∈ db.carriers, ∀ s ∈ block.newStates, row.outpoint ≠ s.outpoint
  /-- Their objects are there. -/
  owned : ∀ s ∈ block.newStates, ∃ row ∈ (written block db).objects, row.objectKey = s.objectKey
  /-- The chapters have distinct keys. -/
  chapters : block.chapters.Pairwise fun c c' => c.txid ≠ c'.txid ∧
    (c.objectKey, c.sequence) ≠ (c'.objectKey, c'.sequence)
  /-- The chapters are new. -/
  newChapters : ∀ row ∈ db.chapters, ∀ c ∈ block.chapters, row.txid ≠ c.txid ∧
    (row.objectKey, row.sequence) ≠ (c.objectKey, c.sequence)
  /-- Their objects are there. -/
  chaptersOwned : ∀ c ∈ block.chapters, ∃ row ∈ (written block db).objects, row.objectKey = c.objectKey
  /-- The checkpoint is new. -/
  checkpoint : ∀ row ∈ db.checkpoints, row.height ≠ block.height

/-- `writeBlock`, up to the marks of the spent carriers. -/
def writeUnspent (block : ReducedBlock) (db : Db) : Except String Db := do
  let db ← blocks.insert (blockRow block) db
  let db ← writeInit block db
  let db ← block.transactions.foldlM (fun db tx => transactions.insert (transactionRow block.height tx) db) db
  let db ← block.events.foldlM (fun db event => events.insert (eventRow block.height event) db) db
  let db ← block.undo.entries.foldlM (writeTouched block) db
  block.newStates.foldlM (writeState block.height) db

theorem writeBlock_eq (block : ReducedBlock) (db : Db) : writeBlock block db = (do
    let db ← writeUnspent block db
    let db ← block.spentOutpoints.foldlM (writeSpent block.height) db
    let db ← block.chapters.foldlM (fun db chapter => chapters.insert (chapterRow block.height chapter) db) db
    checkpoints.insert (checkpointRow block) db) := by
  unfold writeBlock writeUnspent
  simp only [bind_assoc]

/-- The database before the spent carriers are marked. -/
def unspent (block : ReducedBlock) (db : Db) : Db := { db with
  blocks := db.blocks ++ [blockRow block]
  init := db.init ++ if block.initConfirmed then [initRow block.activation] else []
  transactions := db.transactions ++ block.transactions.map (transactionRow block.height)
  events := db.events ++ block.events.map (eventRow block.height)
  objects := block.undo.entries.foldl (touchRows block) db.objects
  states := db.states ++ block.newStates.map (stateRow block.height)
  carriers := db.carriers ++ block.newStates.map (carrierRow block.height)
  undo := db.undo ++ block.undo.entries.map (undoRow block.height) }

section

variable {block : ReducedBlock} {db : Db} (a : Admitted block db)

include a

theorem writeUnspent_yields : Yields (writeUnspent block db) (unspent block db) := by
  have hblock : ∀ d : Db, d.blocks = db.blocks ++ [blockRow block] → d.hasBlock block.height = true := by
    intro d hd
    simp [Db.hasBlock, hd, blockRow]
  refine (blocks.insert_yields (fun row hrow => ?_) rfl).bind ?_
  · have := a.fresh row hrow
    simpa [blocks, blockRow] using this
  have hinit : Yields (writeInit block (blocks.put (blocks.rows db ++ [blockRow block]) db)) { db with
      blocks := db.blocks ++ [blockRow block]
      init := db.init ++ if block.initConfirmed then [initRow block.activation] else [] } := by
    unfold writeInit
    cases hc : block.initConfirmed with
    | false =>
      rw [if_neg Bool.false_ne_true, if_neg Bool.false_ne_true, List.append_nil]
      exact .pure _
    | true =>
      obtain ⟨hnone, hheight⟩ := a.init hc
      rw [if_pos rfl, if_pos rfl]
      refine Database.init.insert_yields (fun row hrow => ?_) ?_
      · replace hrow : row ∈ db.init := hrow
        rw [hnone] at hrow
        cases hrow
      · show Db.hasBlock _ block.activation.height = true
        rw [hheight]
        exact hblock _ rfl
  refine hinit.bind ?_
  refine (transactions.insertAll_yields ?_ ?_ ?_).bind ?_
  · intro row hrow tx htx
    obtain ⟨hheight, hid⟩ := a.transactions row hrow
    simp [transactions, transactionRow, hid tx htx, hheight]
  · refine List.pairwise_map.mpr (a.positions.imp ?_)
    rintro tx tx' ⟨hid, hindex⟩
    simp [transactions, transactionRow, hid, hindex]
  · exact fun tx _ => hblock _ rfl
  refine (events.insertAll_yields ?_ ?_ fun event he => ?_).bind ?_
  · intro row hrow event he
    have hheight := a.events.1 row hrow
    simp [events, eventRow, hheight]
  · refine List.pairwise_map.mpr (a.events.2.imp ?_)
    intro e e' hne
    exact decide_eq_true fun h => hne (congrArg Prod.snd h)
  · obtain ⟨tx, htx, hid⟩ := a.told event he
    show (Db.hasBlock _ block.height && Db.hasTransaction _ event.txid) = true
    rw [hblock _ rfl, Bool.true_and, hasTransaction_iff]
    exact ⟨_, List.mem_append_right _ (List.mem_map_of_mem htx), hid⟩
  refine (writeTouchedAll_yields (hblock _ rfl)).bind ?_
  refine writeStates_yields a.states a.newStates a.carriers fun s hs => ?_
  exact hasObject_iff.mpr (a.owned s hs)

/-- **The statements of a block go through**, unless a value does not fit its column. -/
theorem writeBlock_yields : Yields (writeBlock block db) (written block db) := by
  rw [writeBlock_eq]
  refine (writeUnspent_yields a).bind (writeSpentAll_yields.bind ?_)
  refine (chapters.insertAll_yields ?_ ?_ fun c hc => ?_).bind ?_
  · intro row hrow c hc
    have h := a.newChapters row hrow c hc
    simpa [chapters, chapterRow, -Prod.mk.injEq, -not_and] using h
  · refine List.pairwise_map.mpr (a.chapters.imp ?_)
    rintro c c' h
    simpa [chapters, chapterRow, -Prod.mk.injEq, -not_and] using h
  · exact hasObject_iff.mpr (a.chaptersOwned c hc)
  refine checkpoints.insert_yields (fun row hrow => ?_) ?_
  · simpa [checkpoints, checkpointRow] using a.checkpoint row hrow
  · show Db.hasBlock _ block.height = true
    simp [Db.hasBlock, unspent, chapters, blockRow]

end

end IndexTandem.Indexer
