import IndexTandem.Indexer.Store

/-!
# What writing a block leaves

`writeBlock` is a long sequence of statements; this module says once what the database
is after it (`written`) and what its key and reference checks guarantee about the block
(`writeBlock_ok`). Everything about the store is proved from these.
-/

namespace IndexTandem.Indexer

open Library Protocol Database

/-! ### Single statements -/

/-- What `upsertObject` does to the rows. -/
def upsertRows (record : ObjectRecord) (rows : List ObjectRow) : List ObjectRow :=
  match (rows.find? fun row => row.objectKey = record.objectKey).or
      (rows.find? fun row => row.createTxid = record.createTxid) with
  | none => rows ++ [objectRow record]
  | some old => rows.map fun row => if row.objectKey = old.objectKey then setObject record row else row

theorem upsertObject_ok {record : ObjectRecord} {db db' : Db} (h : upsertObject record db = .ok db') :
    db' = { db with objects := upsertRows record db.objects } ∧
      ((∀ row ∈ db.objects, objects.fits row = true) → ∀ row ∈ db'.objects, objects.fits row = true) := by
  unfold upsertObject at h
  unfold upsertRows
  cases hf : (db.objects.find? fun row => row.objectKey = record.objectKey).or
      (db.objects.find? fun row => row.createTxid = record.createTxid) with
  | none =>
    rw [hf] at h
    obtain ⟨hfits, -, -, rfl⟩ := objects.insert_eq_ok.mp h
    refine ⟨rfl, fun hall row hr => ?_⟩
    rcases List.mem_append.mp hr with hr | hr
    · exact hall row hr
    · rw [List.mem_singleton.mp hr]
      exact hfits
  | some old =>
    rw [hf] at h
    obtain ⟨hfits, rfl⟩ := objects.update_eq_ok.mp h
    refine ⟨?_, fun hall row hr => ?_⟩
    · simp [objects]
    · obtain ⟨r, hm, rfl⟩ := List.mem_map.mp hr
      split_ifs with hk
      · exact hfits r hm hk
      · exact hall r hm

/-- What the statements for a touched object do to the rows of `tandem_objects`. -/
def touchRows (block : ReducedBlock) (rows : List ObjectRow) (entry : Hash × Option ObjectRecord) : List ObjectRow :=
  match block.objects.get? entry.1 with
  | some current => upsertRows current rows
  | none => rows

/-- The journal row of a touched object. -/
def undoRow (height : ℕ) (entry : Hash × Option ObjectRecord) : UndoRow := ⟨height, entry.1, entry.2⟩

theorem writeTouched_ok {block : ReducedBlock} {db db' : Db} {entry : Hash × Option ObjectRecord}
    (h : writeTouched block db entry = .ok db') :
    db' = { db with
      undo := db.undo ++ [undoRow block.height entry]
      objects := touchRows block db.objects entry } ∧
      ((∀ row ∈ db.objects, objects.fits row = true) → ∀ row ∈ db'.objects, objects.fits row = true) := by
  obtain ⟨e, he, h⟩ := bind_eq_ok.mp h
  obtain ⟨-, -, -, rfl⟩ := undo.insert_eq_ok.mp he
  unfold touchRows
  cases hg : block.objects.get? entry.1 with
  | none =>
    simp only [hg] at h
    obtain rfl := pure_eq_ok.mp h
    exact ⟨rfl, fun hall => hall⟩
  | some current =>
    simp only [hg] at h
    obtain ⟨rfl, hall⟩ := upsertObject_ok h
    exact ⟨rfl, hall⟩

theorem writeTouchedAll_ok {block : ReducedBlock} {l : List (Hash × Option ObjectRecord)} {db db' : Db}
    (h : l.foldlM (writeTouched block) db = .ok db') :
    db' = { db with
      undo := db.undo ++ l.map (undoRow block.height)
      objects := l.foldl (touchRows block) db.objects } ∧
      ((∀ row ∈ db.objects, objects.fits row = true) → ∀ row ∈ db'.objects, objects.fits row = true) := by
  induction l generalizing db with
  | nil =>
    obtain rfl := pure_eq_ok.mp h
    simp
  | cons entry l ih =>
    rw [List.foldlM_cons] at h
    obtain ⟨e, he, h⟩ := bind_eq_ok.mp h
    obtain ⟨rfl, hfits⟩ := writeTouched_ok he
    obtain ⟨rfl, hfits'⟩ := ih h
    exact ⟨by simp, fun hall => hfits' (hfits hall)⟩

/-- No two states of a block share a unique key. -/
def NewState.Apart (s s' : NewState) : Prop :=
  s.outpoint ≠ s'.outpoint ∧ (s.objectKey, s.sequence) ≠ (s'.objectKey, s'.sequence)

/-- A state shares no unique key with a stored one. -/
def NewState.New (row : StateRow) (s : NewState) : Prop :=
  row.outpoint ≠ s.outpoint ∧ (row.objectKey, row.sequence) ≠ (s.objectKey, s.sequence)

theorem states_apart_iff {row : StateRow} {height : ℕ} {s : NewState} :
    states.apart row (stateRow height s) = true ↔ NewState.New row s := by
  simp [states, stateRow, NewState.New, -Prod.mk.injEq, -not_and]

theorem writeStates_ok {height : ℕ} {l : List NewState} {db db' : Db}
    (h : l.foldlM (writeState height) db = .ok db') :
    db' = { db with
      states := db.states ++ l.map (stateRow height)
      carriers := db.carriers ++ l.map (carrierRow height) } ∧
      l.Pairwise NewState.Apart ∧ (∀ row ∈ db.states, ∀ s ∈ l, NewState.New row s) ∧
      ∀ s ∈ l, db.hasObject s.objectKey = true := by
  induction l generalizing db with
  | nil =>
    obtain rfl := pure_eq_ok.mp h
    simp
  | cons s l ih =>
    rw [List.foldlM_cons] at h
    obtain ⟨e, he, h⟩ := bind_eq_ok.mp h
    obtain ⟨e', he', he⟩ := bind_eq_ok.mp he
    obtain ⟨-, hnew, hparent, rfl⟩ := states.insert_eq_ok.mp he'
    obtain ⟨-, -, -, rfl⟩ := carriers.insert_eq_ok.mp he
    obtain ⟨h₁, h₂, h₃, h₄⟩ := ih h
    refine ⟨?_, ?_, ?_, ?_⟩
    · rw [h₁]
      simp [states, carriers]
    · rw [List.pairwise_cons]
      refine ⟨fun s' hs' => ?_, h₂⟩
      exact h₃ (stateRow height s) (by simp [states, carriers]) s' hs'
    · intro row hrow s' hs'
      rcases List.mem_cons.mp hs' with rfl | hs'
      · exact states_apart_iff.mp (hnew row hrow)
      · exact h₃ row (by simp [states, carriers, hrow]) s' hs'
    · intro s' hs'
      rcases List.mem_cons.mp hs' with rfl | hs'
      · exact hparent
      · exact h₄ s' hs'

/-- The spent marks of a block on one state. -/
def markState (height : ℕ) (spent : List SpentOutpoint) (row : StateRow) : StateRow :=
  spent.foldl (fun row s => if row.outpoint = s.outpoint then spendState height s.txid row else row) row

/-- The spent marks of a block on one carrier. -/
def markCarrier (height : ℕ) (spent : List SpentOutpoint) (row : CarrierRow) : CarrierRow :=
  spent.foldl (fun row s => if row.outpoint = s.outpoint then spendCarrier height s.txid row else row) row

theorem writeSpentAll_ok {height : ℕ} {l : List SpentOutpoint} {db db' : Db}
    (h : l.foldlM (writeSpent height) db = .ok db') :
    db' = { db with
      states := db.states.map (markState height l)
      carriers := db.carriers.map (markCarrier height l) } := by
  induction l generalizing db with
  | nil =>
    obtain rfl := pure_eq_ok.mp h
    have h₁ : markState height [] = id := rfl
    have h₂ : markCarrier height [] = id := rfl
    simp [h₁, h₂]
  | cons s l ih =>
    rw [List.foldlM_cons] at h
    obtain ⟨e, he, h⟩ := bind_eq_ok.mp h
    obtain ⟨e', he', he⟩ := bind_eq_ok.mp he
    obtain ⟨-, rfl⟩ := states.update_eq_ok.mp he'
    obtain ⟨-, rfl⟩ := carriers.update_eq_ok.mp he
    rw [ih h]
    simp only [states, carriers, List.map_map, decide_eq_true_eq]
    congr 1

/-! ### The whole block -/

/-- The database after a block was written. -/
def written (block : ReducedBlock) (db : Db) : Db where
  blocks := db.blocks ++ [blockRow block]
  init := db.init ++ if block.initConfirmed then [initRow block.activation] else []
  transactions := db.transactions ++ block.transactions.map (transactionRow block.height)
  events := db.events ++ block.events.map (eventRow block.height)
  objects := block.undo.entries.foldl (touchRows block) db.objects
  states := (db.states ++ block.newStates.map (stateRow block.height)).map
    (markState block.height block.spentOutpoints)
  carriers := (db.carriers ++ block.newStates.map (carrierRow block.height)).map
    (markCarrier block.height block.spentOutpoints)
  chapters := db.chapters ++ block.chapters.map (chapterRow block.height)
  checkpoints := db.checkpoints ++ [checkpointRow block]
  undo := db.undo ++ block.undo.entries.map (undoRow block.height)
  reorgs := db.reorgs

/-- What the checks of the statements guarantee about a block that was written. -/
structure Accepted (block : ReducedBlock) (db : Db) : Prop where
  /-- The height is new. -/
  height : ∀ row ∈ db.blocks, row.height ≠ block.height
  /-- The first INIT. -/
  init : block.initConfirmed = true → db.init = []
  /-- The transactions are new. -/
  transactions : ∀ row ∈ db.transactions, ∀ tx ∈ block.transactions, row.txid ≠ tx.txid
  /-- Every event has its transaction. -/
  events : ∀ event ∈ block.events, (∃ row ∈ db.transactions, row.txid = event.txid) ∨
    ∃ tx ∈ block.transactions, tx.txid = event.txid
  /-- The states have distinct keys. -/
  states : block.newStates.Pairwise NewState.Apart
  /-- The states are new. -/
  newStates : ∀ row ∈ db.states, ∀ s ∈ block.newStates, NewState.New row s
  /-- The objects of the states are there. -/
  owned : ∀ s ∈ block.newStates, ∃ row ∈ (written block db).objects, row.objectKey = s.objectKey
  /-- The objects of the chapters are there. -/
  chapters : ∀ c ∈ block.chapters, ∃ row ∈ (written block db).objects, row.objectKey = c.objectKey
  /-- Every object fits its columns. -/
  fits : (∀ row ∈ db.objects, objects.fits row = true) → ∀ row ∈ (written block db).objects, objects.fits row = true

theorem hasObject_iff {db : Db} {key : Hash} :
    db.hasObject key = true ↔ ∃ row ∈ db.objects, row.objectKey = key := by
  simp [Db.hasObject]

theorem hasTransaction_iff {db : Db} {txid : Hash} :
    db.hasTransaction txid = true ↔ ∃ row ∈ db.transactions, row.txid = txid := by
  simp [Db.hasTransaction]

/-- **Writing a block** leaves `written`, and only when its keys are new. -/
theorem writeBlock_ok {block : ReducedBlock} {db db' : Db} (h : writeBlock block db = .ok db') :
    db' = written block db ∧ Accepted block db := by
  obtain ⟨d₁, h₁, h⟩ := bind_eq_ok.mp h
  obtain ⟨d₂, h₂, h⟩ := bind_eq_ok.mp h
  obtain ⟨d₃, h₃, h⟩ := bind_eq_ok.mp h
  obtain ⟨d₄, h₄, h⟩ := bind_eq_ok.mp h
  obtain ⟨d₅, h₅, h⟩ := bind_eq_ok.mp h
  obtain ⟨d₆, h₆, h⟩ := bind_eq_ok.mp h
  obtain ⟨d₇, h₇, h⟩ := bind_eq_ok.mp h
  obtain ⟨d₈, h₈, h⟩ := bind_eq_ok.mp h
  obtain ⟨-, hheight, -, rfl⟩ := blocks.insert_eq_ok.mp h₁
  have hinit : d₂ = { blocks.put (blocks.rows db ++ [blockRow block]) db with
      init := db.init ++ if block.initConfirmed then [initRow block.activation] else [] } ∧
      (block.initConfirmed = true → db.init = []) := by
    unfold writeInit at h₂
    cases hc : block.initConfirmed with
    | false =>
      rw [hc] at h₂
      obtain rfl := pure_eq_ok.mp h₂
      simp [blocks]
    | true =>
      rw [hc] at h₂
      obtain ⟨-, hnone, -, rfl⟩ := Database.init.insert_eq_ok.mp h₂
      refine ⟨by simp [Database.init, blocks], fun _ => ?_⟩
      exact List.eq_nil_iff_forall_not_mem.mpr fun row hrow => by simpa [Database.init] using hnone row hrow
  obtain ⟨rfl, hfirst⟩ := hinit
  obtain ⟨rfl, -, htx, -⟩ := transactions.insertAll_ok h₃
  obtain ⟨rfl, -, -, hev⟩ := events.insertAll_ok h₄
  obtain ⟨rfl, hfits⟩ := writeTouchedAll_ok h₅
  obtain ⟨rfl, hst, hnew, howned⟩ := writeStates_ok h₆
  obtain rfl := writeSpentAll_ok h₇
  obtain ⟨rfl, -, -, hch⟩ := chapters.insertAll_ok h₈
  obtain ⟨-, -, -, rfl⟩ := checkpoints.insert_eq_ok.mp h
  refine ⟨rfl, ?_, hfirst, ?_, ?_, hst, hnew, fun s hs => hasObject_iff.mp (howned s hs), ?_, hfits⟩
  · intro row hrow
    have := hheight row hrow
    simp only [blocks, Bool.and_eq_true, decide_eq_true_eq] at this
    exact this.1
  · intro row hrow tx ht
    have := htx row hrow tx ht
    simp only [transactions, Bool.and_eq_true, decide_eq_true_eq] at this
    exact this.1
  · intro event he
    have := (hev event he).2
    simp only [events, Bool.and_eq_true] at this
    obtain ⟨row, hrow, hid⟩ := hasTransaction_iff.mp this.2
    rcases List.mem_append.mp hrow with hrow | hrow
    · exact .inl ⟨row, hrow, hid⟩
    · obtain ⟨tx, ht, rfl⟩ := List.mem_map.mp hrow
      exact .inr ⟨tx, ht, hid⟩
  · intro c hc
    exact hasObject_iff.mp (hch c hc).2

end IndexTandem.Indexer
