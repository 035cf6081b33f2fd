import IndexTandem.Indexer.ObjectRows

/-!
# Database and memory

`Mirrors objects db` says that the database holds the object map: each object has its
row, each carrier has an unspent row in `tandem_states` with the height it confirmed at,
`tandem_carriers` repeats `tandem_states`, and every height in the tables is the height
of a stored block.

Writing a reduced block keeps this (`Mirrors.written`), and rolling the block back gives
the database from before it, row for row and in the same order
(`rollbackBlock_written`). Both use the invariant of the reducer (`Tracks`) and the
checks the database made when it accepted the block (`Accepted`), and nothing about the
validator.
-/

namespace IndexTandem.Indexer

open Library Protocol Database

variable {packages : Packages} {binding : Binding}

/-- The heights of the stored blocks. -/
def heights (db : Db) : List ℕ := db.blocks.map BlockRow.height

/-- The carrier row of a state row. -/
def carrierOf (row : StateRow) : CarrierRow where
  outpoint := row.outpoint
  objectKey := row.objectKey
  createdHeight := row.createdHeight
  spentHeight := row.spentHeight
  spentTxid := row.spentTxid
  valueSats := 20000

/-- Every height in a table is the height of a stored block. -/
structure Stamped (db : Db) : Prop where
  /-- The INIT. -/
  init : ∀ row ∈ db.init, row.height ∈ heights db
  /-- The transactions. -/
  transactions : ∀ row ∈ db.transactions, row.blockHeight ∈ heights db
  /-- The events. -/
  events : ∀ row ∈ db.events, row.blockHeight ∈ heights db
  /-- The states created. -/
  created : ∀ row ∈ db.states, row.createdHeight ∈ heights db
  /-- The states spent. -/
  spent : ∀ row ∈ db.states, ∀ h, row.spentHeight = some h → h ∈ heights db
  /-- The chapters. -/
  chapters : ∀ row ∈ db.chapters, row.blockHeight ∈ heights db
  /-- The checkpoints. -/
  checkpoints : ∀ row ∈ db.checkpoints, row.height ∈ heights db
  /-- The undo journal. -/
  undo : ∀ row ∈ db.undo, row.height ∈ heights db

/-- The database holds the object map. -/
structure Mirrors (packages : Packages) (binding : Binding) (objects : JsMap Hash ObjectRecord) (db : Db) : Prop where
  /-- Every record is under its key. -/
  keyed : Keyed packages binding objects
  /-- Only a carrier has a height. -/
  uncarried : ∀ k r, objects.get? k = some r → r.currentOutpoint = none → r.currentHeight = none
  /-- The rows of the objects are those of the records. -/
  rows : ∀ row, row ∈ db.objects ↔ ∃ k r, objects.get? k = some r ∧ row = objectRow r
  /-- Every object has one row. -/
  nodup : (db.objects.map ObjectRow.objectKey).Nodup
  /-- It fits the columns. -/
  fits : ∀ row ∈ db.objects, Database.objects.fits row = true
  /-- Every carrier has an unspent state. -/
  carried : ∀ k r o, objects.get? k = some r → r.currentOutpoint = some o →
    ∃ h, r.currentHeight = some h ∧ ⟨o, k, r.stateSequence, h, none, none, r.key0, r.key1⟩ ∈ db.states
  /-- Every object has a first state. -/
  started : ∀ k r, objects.get? k = some r → ∃ s ∈ db.states, s.objectKey = k ∧ s.sequence = 0
  /-- The states have distinct keys. -/
  apart : db.states.Pairwise fun s s' => s.outpoint ≠ s'.outpoint ∧ (s.objectKey, s.sequence) ≠ (s'.objectKey, s'.sequence)
  /-- The carriers repeat the states. -/
  carriers : db.carriers = db.states.map carrierOf
  /-- The objects of the states are there. -/
  statesOwned : ∀ s ∈ db.states, ∃ r, objects.get? s.objectKey = some r
  /-- The objects of the chapters are there. -/
  chaptersOwned : ∀ c ∈ db.chapters, ∃ r, objects.get? c.objectKey = some r
  /-- Every event has its transaction. -/
  eventTransactions : ∀ e ∈ db.events, ∃ row ∈ db.transactions, row.txid = e.txid
  /-- The heights are those of stored blocks. -/
  stamped : Stamped db

/-- The empty database holds the empty map. -/
theorem Mirrors.empty (packages : Packages) (binding : Binding) : Mirrors packages binding ∅ Db.empty where
  keyed k r h := by simp at h
  uncarried k r h := by simp at h
  rows row := by simp [Db.empty]
  nodup := List.nodup_nil
  fits row h := by simp [Db.empty] at h
  carried k r o h := by simp at h
  started k r h := by simp at h
  apart := List.Pairwise.nil
  carriers := rfl
  statesOwned s h := by simp [Db.empty] at h
  chaptersOwned c h := by simp [Db.empty] at h
  eventTransactions e h := by simp [Db.empty] at h
  stamped := by constructor <;> simp [Db.empty]

section

variable {objects : JsMap Hash ObjectRecord} {db : Db} (m : Mirrors packages binding objects db)

include m

theorem Mirrors.rowsOk : RowsOk packages binding db.objects where
  nodup := m.nodup
  keyed row hr := by
    obtain ⟨k, r, hg, rfl⟩ := (m.rows row).mp hr
    obtain ⟨hk, hf⟩ := m.keyed k r hg
    exact hf.trans hk.symm

theorem Mirrors.state_unique {s s' : StateRow} (hs : s ∈ db.states) (hs' : s' ∈ db.states)
    (ho : s.outpoint = s'.outpoint) : s = s' := by
  have hn : (db.states.map StateRow.outpoint).Nodup :=
    List.pairwise_map.mpr (m.apart.imp fun h => h.1)
  exact List.inj_on_of_nodup_map hn hs hs' ho

theorem Mirrors.settled : Settled packages binding objects where
  keyed := m.keyed
  distinct k k' r r' o hr hr' ho ho' := by
    obtain ⟨h, -, hs⟩ := m.carried k r o hr ho
    obtain ⟨h', -, hs'⟩ := m.carried k' r' o hr' ho'
    exact congrArg StateRow.objectKey (m.state_unique hs hs' rfl)
  uncarried := m.uncarried

theorem Mirrors.fresh {block : ReducedBlock} (a : Accepted block db) : Fresh objects block.newStates where
  apart := a.states
  outpoints n hn k r hr ho := by
    obtain ⟨h, -, hs⟩ := m.carried k r _ hr ho
    exact (a.newStates _ hs n hn).1 rfl
  starts n hn hseq := by
    cases hg : objects.get? n.objectKey with
    | none => rfl
    | some r =>
      obtain ⟨s, hs, hk, h0⟩ := m.started _ r hg
      exact absurd (by rw [hk, h0, hseq]) (a.newStates s hs n hn).2

omit m in
/-- No row carries the height of a block that was accepted. -/
theorem ne_height_of_accepted {block : ReducedBlock} (a : Accepted block db) {h : ℕ} (hh : h ∈ heights db) :
    h ≠ block.height := by
  obtain ⟨row, hr, rfl⟩ := List.mem_map.mp hh
  exact a.height row hr

end

/-! ### The reduced block -/

/-- The last working state of a reduced block. -/
def ReducedBlock.final (block : ReducedBlock) : WorkingState where
  objects := block.objects
  activeByOutpoint := ∅
  undo := block.undo
  newStates := block.newStates
  spentOutpoints := block.spentOutpoints
  chapters := block.chapters

/-- A reduced block keeps the invariant of the reducer. -/
theorem tracks_of_reduceBlock {activation : Option InitActivation} {previousRoot : Hash}
    {objects : JsMap Hash ObjectRecord} {block : BitcoinBlock} {reduced : ReducedBlock}
    (settled : Settled packages binding objects)
    (h : reduceBlock packages binding activation previousRoot objects block = .ok reduced)
    (fresh : Fresh objects reduced.newStates) :
    Tracks packages binding reduced.height objects reduced.final := by
  obtain ⟨w, hsteps, hheight, ho, hu, hn, hs, hc⟩ := reduceBlock_steps h
  have t := (Tracks.start settled).steps settled hsteps (hn ▸ fresh)
  rw [hheight]
  unfold ReducedBlock.final
  rw [ho, hu, hn, hs, hc]
  exact ⟨t.keyed, t.prior, t.untouched, t.kept, t.carried, t.uncarried, t.spent, t.started⟩

section

variable {objects : JsMap Hash ObjectRecord} {db : Db} {block : ReducedBlock}
  (m : Mirrors packages binding objects db) (t : Tracks packages binding block.height objects block.final)
  (a : Accepted block db)

include m t

theorem touched_of_tracks : ∀ entry ∈ block.undo.entries, Touched packages binding db.objects block.objects entry := by
  rintro ⟨k, p⟩ he
  have hg : block.undo.get? k = some p := (JsMap.mem_entries _ _ _).mp he
  obtain ⟨hp, r, hr⟩ := t.prior k p hg
  obtain ⟨hk, hf⟩ := t.keyed k r hr
  refine ⟨⟨r, hr, hk, hf, fun prior hprior => ?_⟩, fun hnone row hrow hrk => ?_, fun prior hprior => ?_⟩
  · obtain ⟨ht, hh⟩ := t.kept k prior r (hp.symm.trans hprior) hr
    exact ⟨ht.symm, hh.symm⟩
  · obtain ⟨k', r', hg', rfl⟩ := (m.rows row).mp hrow
    have : k' = k := (m.keyed k' r' hg').1.symm.trans hrk
    subst this
    exact nomatch hg'.symm.trans (hp.symm.trans hnone)
  · have hpre : objects.get? k = some prior := hp.symm.trans hprior
    have hrow : objectRow prior ∈ db.objects := (m.rows _).mpr ⟨k, prior, hpre, rfl⟩
    exact ⟨(m.keyed k prior hpre).1, hrow, m.fits _ hrow⟩

/-- A carrier that the block spends is, if it was stored before, unspent. -/
theorem unspent_of_tracks (a : Accepted block db) {row : StateRow} (hrow : row ∈ db.states) {s : SpentOutpoint}
    (hs : s ∈ block.spentOutpoints) (ho : s.outpoint = row.outpoint) :
    row.spentHeight = none ∧ row.spentTxid = none := by
  rcases t.spent s hs with ⟨k, r, hr, hcur⟩ | ⟨n, hn, hno⟩
  · obtain ⟨h, -, hm⟩ := m.carried k r _ hr hcur
    obtain rfl := m.state_unique hrow hm ho.symm
    exact ⟨rfl, rfl⟩
  · exact absurd (ho.symm.trans hno.symm) (a.newStates row hrow n hn).1

end

/-! ### Spent marks -/

@[simp] theorem spendState_createdHeight (h : ℕ) (txid : Hash) (row : StateRow) :
    (spendState h txid row).createdHeight = row.createdHeight := rfl

theorem markState_cons (height : ℕ) (s : SpentOutpoint) (l : List SpentOutpoint) (row : StateRow) :
    markState height (s :: l) row =
      markState height l (if row.outpoint = s.outpoint then spendState height s.txid row else row) := rfl

/-- The marks of a block leave a state alone, or are the mark of one spend of it. -/
theorem markState_eq (height : ℕ) (spent : List SpentOutpoint) (row : StateRow) :
    (∀ s ∈ spent, s.outpoint ≠ row.outpoint) ∧ markState height spent row = row ∨
      ∃ s ∈ spent, s.outpoint = row.outpoint ∧ markState height spent row = spendState height s.txid row := by
  induction spent generalizing row with
  | nil => exact .inl ⟨by simp, rfl⟩
  | cons s l ih =>
    rw [markState_cons]
    split_ifs with ho
    · rcases ih (spendState height s.txid row) with ⟨-, hm⟩ | ⟨s', hs', ho', hm⟩
      · exact .inr ⟨s, List.mem_cons_self, ho.symm, hm⟩
      · exact .inr ⟨s', List.mem_cons_of_mem _ hs', ho', hm⟩
    · rcases ih row with ⟨hn, hm⟩ | ⟨s', hs', ho', hm⟩
      · refine .inl ⟨fun s' hs' => ?_, hm⟩
        rcases List.mem_cons.mp hs' with rfl | hs'
        · exact fun e => ho e.symm
        · exact hn s' hs'
      · exact .inr ⟨s', List.mem_cons_of_mem _ hs', ho', hm⟩

@[simp] theorem markState_outpoint (height : ℕ) (spent : List SpentOutpoint) (row : StateRow) :
    (markState height spent row).outpoint = row.outpoint := by
  rcases markState_eq height spent row with ⟨-, h⟩ | ⟨_, -, -, h⟩ <;> simp [h, spendState]

@[simp] theorem markState_objectKey (height : ℕ) (spent : List SpentOutpoint) (row : StateRow) :
    (markState height spent row).objectKey = row.objectKey := by
  rcases markState_eq height spent row with ⟨-, h⟩ | ⟨_, -, -, h⟩ <;> simp [h, spendState]

@[simp] theorem markState_sequence (height : ℕ) (spent : List SpentOutpoint) (row : StateRow) :
    (markState height spent row).sequence = row.sequence := by
  rcases markState_eq height spent row with ⟨-, h⟩ | ⟨_, -, -, h⟩ <;> simp [h, spendState]

@[simp] theorem markState_createdHeight (height : ℕ) (spent : List SpentOutpoint) (row : StateRow) :
    (markState height spent row).createdHeight = row.createdHeight := by
  rcases markState_eq height spent row with ⟨-, h⟩ | ⟨_, -, -, h⟩ <;> simp [h, spendState]

theorem markCarrier_carrierOf (height : ℕ) (spent : List SpentOutpoint) (row : StateRow) :
    markCarrier height spent (carrierOf row) = carrierOf (markState height spent row) := by
  induction spent generalizing row with
  | nil => rfl
  | cons s l ih =>
    rw [markState_cons, ← ih]
    unfold markCarrier
    rw [List.foldl_cons]
    congr 1
    change (if row.outpoint = s.outpoint then _ else _) = _
    split_ifs <;> rfl

theorem unspendCarrier_carrierOf (height : ℕ) (row : StateRow) :
    unspendCarrier height (carrierOf row) = carrierOf (unspendState height row) := by
  unfold unspendCarrier unspendState carrierOf
  dsimp only
  split_ifs <;> rfl

/-! ### Rolling back what was written -/

section

variable {objects : JsMap Hash ObjectRecord} {db : Db} {block : ReducedBlock}
  (m : Mirrors packages binding objects db) (t : Tracks packages binding block.height objects block.final)
  (a : Accepted block db)

include m t a

/-- Resetting the spends of the block gives back the states from before it. -/
theorem unspend_mark {row : StateRow} (hrow : row ∈ db.states) :
    unspendState block.height (markState block.height block.spentOutpoints row) = row := by
  rcases markState_eq block.height block.spentOutpoints row with ⟨-, h⟩ | ⟨s, hs, ho, h⟩
  · rw [h, unspendState, if_neg]
    exact fun hh => ne_height_of_accepted a (m.stamped.spent row hrow _ hh) rfl
  · obtain ⟨h₁, h₂⟩ := unspent_of_tracks m t a hrow hs ho
    rw [h]
    simp only [unspendState, spendState, if_true]
    cases row
    simp_all

/-- The states after the created ones are dropped and the spends reset. -/
theorem states_restored : (dropCreated block.height (written block db)).states = db.states := by
  have hp : (fun row : StateRow => decide (row.createdHeight ≠ block.height)) ∘
      markState block.height block.spentOutpoints = fun row => decide (row.createdHeight ≠ block.height) := by
    funext row
    simp
  simp only [dropCreated, written]
  rw [List.filter_map, hp, filter_append_left, List.map_map]
  · exact (List.map_congr_left fun row hr => unspend_mark m t a hr).trans (List.map_id _)
  · exact fun row hr => by simpa using ne_height_of_accepted a (m.stamped.created row hr)
  · simp [stateRow]

omit t a in
theorem written_carriers : (written block db).carriers = (written block db).states.map carrierOf := by
  have hnew : block.newStates.map (carrierRow block.height) =
      (block.newStates.map (stateRow block.height)).map carrierOf := by
    rw [List.map_map]
    rfl
  simp only [written]
  rw [m.carriers, hnew, ← List.map_append, List.map_map, List.map_map]
  exact List.map_congr_left fun row _ => markCarrier_carrierOf _ _ row

theorem carriers_restored : (dropCreated block.height (written block db)).carriers = db.carriers := by
  have hp : (fun row : CarrierRow => decide (row.createdHeight ≠ block.height)) ∘ carrierOf =
      fun row : StateRow => decide (row.createdHeight ≠ block.height) := rfl
  rw [m.carriers, ← states_restored m t a]
  simp only [dropCreated]
  rw [written_carriers m, List.filter_map, hp, List.map_map, List.map_map]
  exact List.map_congr_left fun row _ => unspendCarrier_carrierOf _ row

omit t in
theorem chapters_restored : (dropCreated block.height (written block db)).chapters = db.chapters := by
  refine filter_append_left (fun row hr => ?_) ?_
  · simpa using ne_height_of_accepted a (m.stamped.chapters row hr)
  · simp [chapterRow]

theorem objects_restored :
    (block.undo.entries.map (undoRow block.height)).reverse.foldlM restoreObject
        (dropCreated block.height (written block db)) =
      .ok { dropCreated block.height (written block db) with objects := db.objects } := by
  -- The objects created by the block own nothing that was there before it.
  have howned : ∀ entry ∈ block.undo.entries, entry.2 = none → ∀ k r, objects.get? k = some r → k ≠ entry.1 := by
    rintro ⟨k, p⟩ he hp k' r hr rfl
    have hprior := (t.prior k' p ((JsMap.mem_entries _ _ _).mp he)).1
    exact nomatch hr.symm.trans (hprior.symm.trans hp)
  refine restore_touched (dropCreated block.height (written block db)) block.undo.nodup m.rowsOk (touched_of_tracks m t) fun entry he hp => ?_
  rw [states_restored m t a, carriers_restored m t a, chapters_restored m a, m.carriers]
  refine ⟨fun row hr heq => ?_, fun row hr heq => ?_, fun row hr heq => ?_⟩
  · obtain ⟨r, hg⟩ := m.statesOwned row hr
    exact howned entry he hp _ r hg heq
  · obtain ⟨s, hs, rfl⟩ := List.mem_map.mp hr
    obtain ⟨r, hg⟩ := m.statesOwned s hs
    exact howned entry he hp _ r hg heq
  · obtain ⟨r, hg⟩ := m.chaptersOwned row hr
    exact howned entry he hp _ r hg heq

omit t in
/-- Deleting the block deletes its events and no other. -/
theorem events_restored (initHeight : block.initConfirmed = true → block.activation.height = block.height)
    (d : Db) (hd : d.carriers = db.carriers ∧ d.chapters = db.chapters ∧ d.states = db.states ∧
      d.objects = db.objects) :
    deleteBlock block.height { written block db with
      objects := d.objects, states := d.states, carriers := d.carriers, chapters := d.chapters } = db := by
  obtain ⟨hc, hch, hst, hob⟩ := hd
  have hne : ∀ {h : ℕ}, h ∈ heights db → decide (h ≠ block.height) = true := fun hh => by
    simpa using ne_height_of_accepted a hh
  have hself : ∀ {h : ℕ}, h = block.height → decide (h ≠ block.height) = false := fun hh => by simp [hh]
  refine Db.ext ?_ ?_ ?_ ?_ hob hst hc hch ?_ ?_ rfl
  · exact filter_append_left (fun row hr => hne (List.mem_map_of_mem hr)) fun row hr => by
      rw [List.mem_singleton.mp hr]
      exact hself rfl
  · refine filter_append_left (fun row hr => hne (m.stamped.init row hr)) fun row hr => ?_
    split_ifs at hr with hi
    · rw [List.mem_singleton.mp hr]
      exact hself (initHeight hi)
    · simp at hr
  · refine filter_append_left (fun row hr => hne (m.stamped.transactions row hr)) fun row hr => ?_
    obtain ⟨tx, -, rfl⟩ := List.mem_map.mp hr
    exact hself rfl
  · refine filter_append_left (fun row hr => ?_) fun row hr => ?_
    · -- The transaction of an earlier event is not one of the block's.
      obtain ⟨tx, htx, hid⟩ := m.eventTransactions row hr
      rw [Bool.and_eq_true, Bool.not_eq_true', List.any_eq_false]
      refine ⟨hne (m.stamped.events row hr), fun other hother => ?_⟩
      rcases List.mem_append.mp hother with hother | hother
      · have := hne (m.stamped.transactions other hother)
        simp_all
      · obtain ⟨tx', htx', rfl⟩ := List.mem_map.mp hother
        have := a.transactions tx htx tx' htx'
        simp only [transactionRow, Bool.and_eq_true, decide_eq_true_eq, not_and]
        exact fun _ he => this (hid.trans (of_decide_eq_true he).symm)
    · obtain ⟨event, -, rfl⟩ := List.mem_map.mp hr
      rw [Bool.and_eq_false_iff]
      exact .inl (hself rfl)
  · exact filter_append_left (fun row hr => hne (m.stamped.checkpoints row hr)) fun row hr => by
      rw [List.mem_singleton.mp hr]
      exact hself rfl
  · refine filter_append_left (fun row hr => hne (m.stamped.undo row hr)) fun row hr => ?_
    obtain ⟨entry, -, rfl⟩ := List.mem_map.mp hr
    exact hself rfl

/-- **Rolling back a block that was written gives the database from before it.** -/
theorem rollbackBlock_written (initHeight : block.initConfirmed = true → block.activation.height = block.height) :
    rollbackBlock (written block db) block.height = .ok db := by
  have hundo : (written block db).undo.filter (fun row => decide (row.height = block.height)) =
      block.undo.entries.map (undoRow block.height) := by
    refine filter_append_right (fun row hr => ?_) ?_
    · simpa using ne_height_of_accepted a (m.stamped.undo row hr)
    · intro row hr
      obtain ⟨entry, -, rfl⟩ := List.mem_map.mp hr
      simp [undoRow]
  unfold rollbackBlock
  dsimp only
  rw [hundo, objects_restored m t a]
  exact congrArg Except.ok (events_restored m a initHeight
    { dropCreated block.height (written block db) with objects := db.objects }
    ⟨carriers_restored m t a, chapters_restored m a, states_restored m t a, rfl⟩)

end

/-! ### Writing keeps the mirror -/

section

variable {objects : JsMap Hash ObjectRecord} {db : Db} {block : ReducedBlock}
  (m : Mirrors packages binding objects db) (t : Tracks packages binding block.height objects block.final)
  (a : Accepted block db)

@[simp] theorem heights_written : heights (written block db) = heights db ++ [block.height] := by
  simp [heights, written, blockRow]

include t in
/-- A carrier of the block's objects has not been marked. -/
theorem markState_of_carried {k : Hash} {r : ObjectRecord} {row : StateRow} (hr : block.objects.get? k = some r)
    (ho : r.currentOutpoint = some row.outpoint) : markState block.height block.spentOutpoints row = row := by
  rcases markState_eq block.height block.spentOutpoints row with ⟨-, h⟩ | ⟨s, hs, hso, -⟩
  · exact h
  · exact absurd hso ((t.carried k r _ hr ho).1 s hs)

include m t

theorem rows_written (row : ObjectRow) :
    row ∈ (written block db).objects ↔ ∃ k r, block.objects.get? k = some r ∧ row = objectRow r := by
  have hmem := (mem_foldl_touchRows block.undo.nodup m.rowsOk (touched_of_tracks m t)).2 row
  refine hmem.trans ⟨?_, ?_⟩
  · rintro (⟨hr, hk⟩ | ⟨entry, -, r, hr, rfl⟩)
    · obtain ⟨k, r, hg, rfl⟩ := (m.rows row).mp hr
      refine ⟨k, r, ?_, rfl⟩
      have hk' : k ∉ block.undo.keys := (m.keyed k r hg).1 ▸ hk
      rw [JsMap.mem_keys, not_exists] at hk'
      exact (t.untouched k (Option.eq_none_iff_forall_not_mem.mpr hk')).trans hg
    · exact ⟨_, r, hr, rfl⟩
  · rintro ⟨k, r, hr, rfl⟩
    cases hu : block.undo.get? k with
    | none =>
      have hpre : objects.get? k = some r := (t.untouched k hu).symm.trans hr
      refine .inl ⟨(m.rows _).mpr ⟨k, r, hpre, rfl⟩, fun hm => ?_⟩
      have hkk : (objectRow r).objectKey = k := (t.keyed k r hr).1
      rw [hkk] at hm
      obtain ⟨p, hp⟩ := (JsMap.mem_keys _ _).mp hm
      exact nomatch hu.symm.trans hp
    | some p => exact .inr ⟨(k, p), (JsMap.mem_entries _ _ _).mpr hu, r, hr, rfl⟩

include a

omit a in
theorem carried_written (k : Hash) (r : ObjectRecord) (o : Outpoint) (hr : block.objects.get? k = some r)
    (ho : r.currentOutpoint = some o) :
    ∃ h, r.currentHeight = some h ∧
      ⟨o, k, r.stateSequence, h, none, none, r.key0, r.key1⟩ ∈ (written block db).states := by
  rcases (t.carried k r o hr ho).2 with hpre | ⟨hn, hh⟩
  · obtain ⟨h, hh, hs⟩ := m.carried k r o hpre ho
    refine ⟨h, hh, List.mem_map.mpr ⟨_, List.mem_append_left _ hs, ?_⟩⟩
    exact markState_of_carried t hr ho
  · refine ⟨block.height, hh, List.mem_map.mpr ⟨_, List.mem_append_right _ (List.mem_map_of_mem hn), ?_⟩⟩
    exact markState_of_carried t hr ho

omit t in
theorem apart_written : (written block db).states.Pairwise fun s s' =>
    s.outpoint ≠ s'.outpoint ∧ (s.objectKey, s.sequence) ≠ (s'.objectKey, s'.sequence) := by
  simp only [written, List.pairwise_map, markState_outpoint, markState_objectKey, markState_sequence]
  refine List.pairwise_append.mpr ⟨m.apart, ?_, fun s hs s' hs' => ?_⟩
  · exact List.pairwise_map.mpr a.states
  · obtain ⟨n, hn, rfl⟩ := List.mem_map.mp hs'
    exact a.newStates s hs n hn

omit t a in
/-- What the heights in the tables are after the block. -/
theorem stamped_written (initHeight : block.initConfirmed = true → block.activation.height = block.height) :
    Stamped (written block db) := by
  have hold : ∀ {h : ℕ}, h ∈ heights db → h ∈ heights (written block db) := fun hh => by simp [hh]
  have hnew : block.height ∈ heights (written block db) := by simp
  have happend : ∀ {R : Type} (height : R → ℕ) (l l' : List R), (∀ row ∈ l, height row ∈ heights db) →
      (∀ row ∈ l', height row = block.height) → ∀ row ∈ l ++ l', height row ∈ heights (written block db) := by
    intro R height l l' hl hl' row hr
    rcases List.mem_append.mp hr with hr | hr
    · exact hold (hl row hr)
    · exact hl' row hr ▸ hnew
  refine ⟨happend InitRow.height _ _ m.stamped.init fun row hr => ?_,
    happend TransactionRow.blockHeight _ _ m.stamped.transactions (by simp [transactionRow]),
    happend EventRow.blockHeight _ _ m.stamped.events (by simp [eventRow]), fun row hr => ?_, fun row hr h hh => ?_,
    happend ChapterRow.blockHeight _ _ m.stamped.chapters (by simp [chapterRow]),
    happend CheckpointRow.height _ _ m.stamped.checkpoints (by simp [checkpointRow]),
    happend UndoRow.height _ _ m.stamped.undo fun row hr => ?_⟩
  · split_ifs at hr with hi
    · rw [List.mem_singleton.mp hr]
      exact initHeight hi
    · simp at hr
  · obtain ⟨s, hs, rfl⟩ := List.mem_map.mp hr
    rw [markState_createdHeight]
    exact happend StateRow.createdHeight _ _ m.stamped.created (by simp [stateRow]) s hs
  · obtain ⟨s, hs, rfl⟩ := List.mem_map.mp hr
    rcases markState_eq block.height block.spentOutpoints s with ⟨-, hm⟩ | ⟨_, -, -, hm⟩
    · rw [hm] at hh
      rcases List.mem_append.mp hs with hs | hs
      · exact hold (m.stamped.spent s hs h hh)
      · obtain ⟨n, -, rfl⟩ := List.mem_map.mp hs
        cases hh
    · rw [hm] at hh
      exact Option.some.inj hh ▸ hnew
  · obtain ⟨entry, -, rfl⟩ := List.mem_map.mp hr
    rfl

/-- **Writing a reduced block keeps database and memory together.** -/
theorem Mirrors.written (initHeight : block.initConfirmed = true → block.activation.height = block.height) :
    Mirrors packages binding block.objects (written block db) where
  keyed := t.keyed
  uncarried := t.uncarried
  rows := rows_written m t
  nodup := (mem_foldl_touchRows block.undo.nodup m.rowsOk (touched_of_tracks m t)).1.nodup
  fits := a.fits m.fits
  carried := carried_written m t
  started k r hr := by
    cases hpre : objects.get? k with
    | none =>
      obtain ⟨n, hn, hk, h0⟩ := t.started k r hr hpre
      exact ⟨_, List.mem_map_of_mem (List.mem_append_right _ (List.mem_map_of_mem hn)), by simpa [stateRow] using hk,
        by simpa [stateRow] using h0⟩
    | some r₀ =>
      obtain ⟨s, hs, hk, h0⟩ := m.started k r₀ hpre
      exact ⟨_, List.mem_map_of_mem (List.mem_append_left _ hs), by simpa using hk, by simpa using h0⟩
  apart := apart_written m a
  carriers := written_carriers m
  statesOwned s hs := by
    obtain ⟨s, hm, rfl⟩ := List.mem_map.mp hs
    rw [markState_objectKey]
    rcases List.mem_append.mp hm with hs | hs
    · obtain ⟨r, hr⟩ := m.statesOwned s hs
      exact t.persists hr
    · obtain ⟨n, hn, rfl⟩ := List.mem_map.mp hs
      obtain ⟨row, hrow, hk⟩ := a.owned n hn
      obtain ⟨k, r, hr, rfl⟩ := (rows_written m t row).mp hrow
      have hkn : k = n.objectKey := (t.keyed k r hr).1.symm.trans hk
      exact ⟨r, (congrArg block.objects.get? hkn).symm.trans hr⟩
  chaptersOwned c hc := by
    rcases List.mem_append.mp hc with hc | hc
    · obtain ⟨r, hr⟩ := m.chaptersOwned c hc
      exact t.persists hr
    · obtain ⟨n, hn, rfl⟩ := List.mem_map.mp hc
      obtain ⟨row, hrow, hk⟩ := a.chapters n hn
      obtain ⟨k, r, hr, rfl⟩ := (rows_written m t row).mp hrow
      have hkn : k = n.objectKey := (t.keyed k r hr).1.symm.trans hk
      exact ⟨r, (congrArg block.objects.get? hkn).symm.trans hr⟩
  eventTransactions e he := by
    rcases List.mem_append.mp he with he | he
    · obtain ⟨row, hr, hid⟩ := m.eventTransactions e he
      exact ⟨row, List.mem_append_left _ hr, hid⟩
    · obtain ⟨event, hev, rfl⟩ := List.mem_map.mp he
      rcases a.events event hev with ⟨row, hr, hid⟩ | ⟨tx, htx, hid⟩
      · exact ⟨row, List.mem_append_left _ hr, hid⟩
      · exact ⟨_, List.mem_append_right _ (List.mem_map_of_mem htx), hid⟩
  stamped := stamped_written m initHeight

end

/-! ### Reading the objects back -/

/-- The row of a record, joined with its state, is the record. -/
theorem objectFromRow_objectRow {objects : JsMap Hash ObjectRecord} {db : Db} (m : Mirrors packages binding objects db)
    {k : Hash} {r : ObjectRecord} (hr : objects.get? k = some r) : objectFromRow db (objectRow r) = r := by
  have hh : (db.states.find? fun state => r.currentOutpoint = some state.outpoint).map StateRow.createdHeight =
      r.currentHeight := by
    cases ho : r.currentOutpoint with
    | none =>
      rw [m.uncarried k r hr ho, List.find?_eq_none.mpr (by simp)]
      rfl
    | some o =>
      obtain ⟨h, hh, hs⟩ := m.carried k r o hr ho
      rw [hh]
      cases hf : db.states.find? fun state => (some o : Option Outpoint) = some state.outpoint with
      | none =>
        rw [List.find?_eq_none] at hf
        exact absurd (decide_eq_true rfl) (hf _ hs)
      | some s =>
        have hso : o = s.outpoint := by simpa using List.find?_some hf
        obtain rfl := m.state_unique (List.mem_of_find?_eq_some hf) hs hso.symm
        rfl
  calc objectFromRow db (objectRow r)
      = { r with currentHeight :=
            (db.states.find? fun state => r.currentOutpoint = some state.outpoint).map StateRow.createdHeight } := rfl
    _ = r := by rw [hh]

/-- **Loading the objects** gives the object map, in whatever order the rows are listed. -/
theorem objectsOf_same {objects : JsMap Hash ObjectRecord} {db : Db} (m : Mirrors packages binding objects db)
    {rows : List ObjectRow} (hp : rows.Perm db.objects) : JsMap.Same (objectsOf db rows) objects := by
  have hkeys : (rows.map fun row => (row.objectKey, objectFromRow db row)).map Prod.fst =
      rows.map ObjectRow.objectKey := by
    rw [List.map_map]
    rfl
  have hnodup : ((rows.map fun row => (row.objectKey, objectFromRow db row)).map Prod.fst).Nodup := by
    rw [hkeys]
    exact (hp.map ObjectRow.objectKey).nodup_iff.mpr m.nodup
  intro k
  rw [objectsOf, JsMap.get?_ofList _ hnodup]
  refine Option.ext fun r => ?_
  have hmem := JsMap.mem_entries ⟨_, hnodup⟩ k r
  refine hmem.symm.trans ?_
  rw [List.mem_map]
  constructor
  · rintro ⟨row, hrow, he⟩
    obtain ⟨k', r', hr', rfl⟩ := (m.rows row).mp (hp.mem_iff.mp hrow)
    rw [objectFromRow_objectRow m hr', Prod.mk.injEq] at he
    obtain ⟨rfl, rfl⟩ := he
    exact (congrArg objects.get? (m.keyed k' r' hr').1).trans hr'
  · intro hr
    refine ⟨objectRow r, hp.mem_iff.mpr ((m.rows _).mpr ⟨k, r, hr, rfl⟩), ?_⟩
    rw [objectFromRow_objectRow m hr]
    exact congrArg (·, r) (m.keyed k r hr).1

end IndexTandem.Indexer
