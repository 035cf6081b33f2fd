import IndexTandem.Indexer.Lives

/-!
# The store tells lives

Each effect of a transaction does to the rows what it does to the lives (`Effect.telling`). So the tables of a
replay tell a life of every object, and so does every database that holds a chain (`Holds.lives`).
-/

namespace IndexTandem.Indexer

open Library Protocol Database

variable {packages : Packages} {binding : Binding} {heights : InitHeights} {height : ℕ}

/-! ### Within a block -/

/-- The states so far: those before the block and those it created, with the spends it made. -/
def statesNow (db : Db) (height : ℕ) (w : WorkingState) : List StateRow :=
  (db.states ++ w.newStates.map (stateRow height)).map (markState height w.spentOutpoints)

/-- The chapters so far. -/
def chaptersNow (db : Db) (height : ℕ) (w : WorkingState) : List ChapterRow :=
  db.chapters ++ w.chapters.map (chapterRow height)

/-- The rows so far tell lives. -/
structure Telling (db : Db) (height : ℕ) (seen : List Hash) (w : WorkingState) : Prop where
  /-- They do. -/
  chronicled : Chronicled seen w.objects (statesNow db height w) (chaptersNow db height w)
  /-- The carriers spent are of transactions that were seen. -/
  spent : ∀ s ∈ w.spentOutpoints, s.outpoint.txid ∈ seen

theorem Telling.mono {db : Db} {seen seen' : List Hash} {w : WorkingState} (h : Telling db height seen w)
    (sub : ∀ t ∈ seen, t ∈ seen') : Telling db height seen' w :=
  ⟨h.chronicled.mono sub, fun s hs => sub _ (h.spent s hs)⟩

theorem markState_append (spent : List SpentOutpoint) (s : SpentOutpoint) (row : StateRow) :
    markState height (spent ++ [s]) row = spendAt height s.txid s.outpoint (markState height spent row) :=
  List.foldl_append

theorem markState_new {spent : List SpentOutpoint} {row : StateRow} (new : ∀ s ∈ spent, s.outpoint ≠ row.outpoint) :
    markState height spent row = row := by
  rcases markState_eq height spent row with ⟨-, h⟩ | ⟨s, hs, ho, -⟩
  · exact h
  · exact absurd ho (new s hs)

section

variable {db : Db} {seen : List Hash} {w w' : WorkingState} {o : Outpoint} {txid : Hash}

theorem statesNow_spend (hstates : w'.newStates = w.newStates) (hspent : w'.spentOutpoints = w.spentOutpoints ++ [⟨o, txid⟩]) :
    statesNow db height w' = (statesNow db height w).map (spendAt height txid o) := by
  unfold statesNow
  rw [hstates, hspent, List.map_map]
  exact List.map_congr_left fun row _ => markState_append _ _ row

theorem statesNow_add {n : NewState} (hstates : w'.newStates = w.newStates ++ [n]) (hspent : w'.spentOutpoints = w.spentOutpoints)
    (new : ∀ s ∈ w'.spentOutpoints, s.outpoint ≠ n.outpoint) :
    statesNow db height w' = statesNow db height w ++ [stateRow height n] := by
  have hnew : markState height w'.spentOutpoints (stateRow height n) = stateRow height n := markState_new new
  rw [hspent] at hnew
  unfold statesNow
  simp [hstates, hspent, hnew]

theorem statesNow_move {n : NewState} (hstates : w'.newStates = w.newStates ++ [n])
    (hspent : w'.spentOutpoints = w.spentOutpoints ++ [⟨o, txid⟩]) (new : ∀ s ∈ w'.spentOutpoints, s.outpoint ≠ n.outpoint) :
    statesNow db height w' = (statesNow db height w).map (spendAt height txid o) ++ [stateRow height n] := by
  have hbefore : statesNow db height { w with spentOutpoints := w'.spentOutpoints } =
      (statesNow db height w).map (spendAt height txid o) := statesNow_spend rfl hspent
  rw [← hbefore]
  exact statesNow_add hstates rfl new

variable (h : Telling db height seen w)

include h

/-- The carrier of an active object is of a transaction that was seen. -/
theorem Telling.carrier_seen {record : ObjectRecord} (found : w.objects.get? record.objectKey = some record)
    (active : record.status = .active) (carrier : record.currentOutpoint = some o) : o.txid ∈ seen := by
  obtain ⟨life, -, hrecord, going, -, -, row, hrow, hout⟩ := h.chronicled.newest found active
  have hcarrier := Life.currentOutpoint going
  rw [hrecord, carrier] at hcarrier
  obtain rfl := Option.some.inj hcarrier
  exact hout ▸ h.chronicled.made row (List.mem_filter.mp hrow).1

/-- **Ending an object.** -/
theorem Telling.terminate {record : ObjectRecord} (found : w.objects.get? record.objectKey = some record)
    (active : record.status = .active) (carrier : record.currentOutpoint = some o) {status : ObjectStatusName}
    (finished : status ≠ .active) (txid : Hash) :
    Telling db height seen (terminate w record status txid (record.stateSequence + if status = .closed then 1 else 0)) where
  chronicled := by
    have hfinish := h.chronicled.finish ⟨txid, height, status, finished⟩ found active carrier rfl
    rw [terminate_objects, statesNow_spend (w := w) (by simp [Indexer.terminate])
      (by simp [Indexer.terminate, carrier] : _ = w.spentOutpoints ++ [(⟨o, txid⟩ : SpentOutpoint)])]
    have hchapters : chaptersNow db height (Indexer.terminate w record status txid
        (record.stateSequence + if status = .closed then 1 else 0)) = chaptersNow db height w := by
      simp [chaptersNow, Indexer.terminate]
    rw [hchapters]
    exact hfinish
  spent s hs := by
    simp only [Indexer.terminate, spendCurrent_spentOutpoints, touch_spentOutpoints, carrier, Option.map_some,
      Option.toList_some, List.mem_append, List.mem_singleton] at hs
    rcases hs with hs | rfl
    · exact h.spent s hs
    · exact h.carrier_seen found active carrier

/-- **Moving an object.** -/
theorem Telling.advance {record : ObjectRecord} (found : w.objects.get? record.objectKey = some record)
    (active : record.status = .active) (carrier : record.currentOutpoint = some o) (new : txid ∉ seen) (key0 key1 : String)
    (chapter : Option ChapterContent) :
    Telling db height (txid :: seen) (advance w record txid height (record.stateSequence + 1) key0 key1 chapter) := by
  have hspent : (Indexer.advance w record txid height (record.stateSequence + 1) key0 key1 chapter).spentOutpoints =
      w.spentOutpoints ++ [⟨o, txid⟩] := by simp [Indexer.advance, carrier]
  have hseen : ∀ s ∈ (Indexer.advance w record txid height (record.stateSequence + 1) key0 key1 chapter).spentOutpoints,
      s.outpoint.txid ∈ seen := by
    intro s hs
    rw [hspent, List.mem_append, List.mem_singleton] at hs
    rcases hs with hs | rfl
    · exact h.spent s hs
    · exact h.carrier_seen found active carrier
  have hmove := h.chronicled.move ⟨txid, height, key0, key1, chapter⟩ found active carrier rfl new
  refine ⟨?_, fun s hs => List.mem_cons_of_mem _ (hseen s hs)⟩
  have hstates : statesNow db height (Indexer.advance w record txid height (record.stateSequence + 1) key0 key1 chapter) =
      (statesNow db height w).map (spendAt height txid o) ++
        [stateRow height ⟨successorOf txid, record.objectKey, record.stateSequence + 1, key0, key1⟩] := by
    refine statesNow_move (advance_newStates ..) hspent fun s hs ho => new ?_
    have := hseen s hs
    rwa [ho] at this
  have hchapters : chaptersNow db height (Indexer.advance w record txid height (record.stateSequence + 1) key0 key1 chapter) =
      chaptersNow db height w ++
        (stageChapter record.objectKey (⟨txid, height, key0, key1, chapter⟩, record.stateSequence + 1)).toList := by
    unfold chaptersNow
    cases chapter <;> simp [Indexer.advance, stageChapter]
  rw [advance_objects, hstates, hchapters]
  exact hmove

/-- **Making an object.** -/
theorem Telling.create {transaction : BitcoinTransaction}
    (unborn : w.objects.get? (keyOf packages binding transaction.txid) = none) (new : transaction.txid ∉ seen) :
    Telling db height (transaction.txid :: seen)
      (create w (newborn packages binding heights height transaction) (successorOf transaction.txid)) := by
  have hspent : (Indexer.create w (newborn packages binding heights height transaction)
      (successorOf transaction.txid)).spentOutpoints = w.spentOutpoints := by simp [Indexer.create]
  refine ⟨?_, fun s hs => List.mem_cons_of_mem _ (h.spent s (hspent ▸ hs))⟩
  have hborn := h.chronicled.born ⟨transaction.txid, height, revealed transaction 0, revealed transaction 1, none⟩
    (newborn packages binding heights height transaction).founding unborn rfl
    (by simp [Life.record, Life.born, Life.stages, Life.first, newborn, createdRecord] :
      _ = newborn packages binding heights height transaction) new
  have hstates : statesNow db height (Indexer.create w (newborn packages binding heights height transaction)
      (successorOf transaction.txid)) = statesNow db height w ++ [stateRow height ⟨successorOf transaction.txid,
        keyOf packages binding transaction.txid, 0, revealed transaction 0, revealed transaction 1⟩] := by
    refine statesNow_add (create_newStates ..) hspent fun s hs ho => new ?_
    have := h.spent s (hspent ▸ hs)
    rwa [ho] at this
  have hchapters : chaptersNow db height (Indexer.create w (newborn packages binding heights height transaction)
      (successorOf transaction.txid)) = chaptersNow db height w := by
    simp [chaptersNow, Indexer.create]
  rw [create_objects, hstates, hchapters]
  exact hborn

end

/-! ### The effects of transactions -/

section

variable {db : Db} {seen : List Hash} {transaction : BitcoinTransaction} {w w' : WorkingState} {tolds : List Told}

theorem Exits.telling {txid : Hash} {keys : List Hash} (h : Exits txid keys w w' tolds) (named : Named w.objects)
    (nodup : keys.Nodup) (active : ∀ key ∈ keys, ∃ r o, w.objects.get? key = some r ∧ r.status = .active ∧
      r.currentOutpoint = some o) (telling : Telling db height seen w) : Telling db height seen w' := by
  induction h with
  | nil => exact telling
  | @cons key keys w w' record tolds found rest ih =>
    obtain rfl := named key record found
    obtain ⟨hnotin, hnodup⟩ := List.nodup_cons.mp nodup
    obtain ⟨r, o, hr, ha, ho⟩ := active _ List.mem_cons_self
    obtain rfl := Option.some.inj (found.symm.trans hr)
    have hfirst : Telling db height seen (terminate w record .exited_noncanonical txid record.stateSequence) :=
      telling.terminate found ha ho (by decide : ObjectStatusName.exited_noncanonical ≠ .active) txid
    refine ih (named_terminate named _ _ _) hnodup (fun key hk => ?_) hfirst
    have hne : key ≠ record.objectKey := fun he => hnotin (he ▸ hk)
    obtain ⟨r, o, hr, ha, ho⟩ := active key (List.mem_cons_of_mem _ hk)
    refine ⟨r, o, ?_, ha, ho⟩
    rw [get?_terminate, if_neg hne]
    exact hr

/-- **An effect** does to the rows what it does to the lives. -/
theorem Effect.telling (live : Live w) {txids : List Hash}
    (unused : Unused packages binding w (transaction.txid :: txids)) (once : transaction.spends.Nodup)
    (new : transaction.txid ∉ seen) (h : Effect packages binding heights height transaction w w' tolds)
    (telling : Telling db height seen w) : Telling db height (transaction.txid :: seen) w' := by
  have hmono : ∀ {w}, Telling db height seen w → Telling db height (transaction.txid :: seen) w :=
    fun t => t.mono fun _ => List.mem_cons_of_mem _
  cases h with
  | silent => exact hmono telling
  | invalid => exact hmono telling
  | init => exact hmono telling
  | created => exact telling.create (unused.keys _ List.mem_cons_self) new
  | @marked record one found chapter =>
    obtain ⟨ha, o, ho⟩ := live.consumed one found
    exact telling.advance found ha ho new _ _ _
  | @rotated record one found =>
    obtain ⟨ha, o, ho⟩ := live.consumed one found
    exact telling.advance found ha ho new _ _ _
  | @closed record one found =>
    obtain ⟨ha, o, ho⟩ := live.consumed one found
    exact hmono (telling.terminate found ha ho (by decide : ObjectStatusName.closed ≠ .active) _)
  | @refunded record one found =>
    obtain ⟨ha, o, ho⟩ := live.consumed one found
    exact hmono (telling.terminate found ha ho (by decide : ObjectStatusName.refunded ≠ .active) _)
  | exited _ perm exits =>
    refine hmono (exits.telling live.named (perm.nodup_iff.mpr (consumedKeys_nodup live once)) (fun key hk => ?_) telling)
    obtain ⟨o, -, r, hr, ha, ho⟩ := live.active (perm.mem_iff.mp hk)
    exact ⟨r, o, hr, ha, ho⟩

/-- So do the effects of a block's transactions. -/
theorem Effects.telling {txs : List BitcoinTransaction} (h : Effects packages binding heights height txs w w' tolds)
    (live : Live w) (unused : Unused packages binding w (txs.map BitcoinTransaction.txid))
    (once : ∀ tx ∈ txs, tx.spends.Nodup) (new : ∀ tx ∈ txs, tx.txid ∉ seen) (telling : Telling db height seen w) :
    ∃ seen', Telling db height seen' w' ∧ ∀ t ∈ seen', t ∈ seen ∨ t ∈ txs.map BitcoinTransaction.txid := by
  induction h generalizing seen with
  | nil => exact ⟨seen, telling, fun t ht => .inl ht⟩
  | @cons transaction rest _ _ _ _ _ first _ ih =>
    have hnext := first.telling live unused (once _ List.mem_cons_self) (new _ List.mem_cons_self) telling
    have hapart := (List.nodup_cons.mp unused.distinct).1
    have hrest : ∀ tx ∈ rest, tx.txid ∉ transaction.txid :: seen := by
      intro tx ht hin
      rcases List.mem_cons.mp hin with he | hin
      · exact hapart (he ▸ List.mem_map_of_mem ht)
      · exact new tx (List.mem_cons_of_mem _ ht) hin
    obtain ⟨seen', htelling, hseen⟩ := ih (live.effect unused first) (unused.effect live first)
      (fun tx ht => once tx (List.mem_cons_of_mem _ ht)) hrest hnext
    refine ⟨seen', htelling, fun t ht => ?_⟩
    rcases hseen t ht with h | h
    · rcases List.mem_cons.mp h with rfl | h
      · exact .inr List.mem_cons_self
      · exact .inl h
    · exact .inr (List.mem_cons_of_mem _ h)

end

/-! ### The store -/

/-- **The tables of a replay tell a life of every object.** -/
theorem Replay.chronicled (contract : ValidatorContract packages.validate) {chain : List BitcoinBlock} {index : Index}
    (replay : Replay packages binding chain index) (d : Distinct packages binding chain) (once : SpendsOnce chain) :
    Chronicled (txidsOf chain) index.objects index.db.states index.db.chapters := by
  induction replay with
  | empty => exact .empty
  | @connect chain index block reduced db replay follows reduces writes ih =>
    obtain ⟨rfl, -⟩ := writeBlock_ok writes
    have s := replay.sourced contract d.tail
    obtain ⟨heights, txs, w, red⟩ := reduceBlock_effects contract (s.admissible replay d) reduces
    obtain ⟨live, unused⟩ := s.unused replay d red
    obtain ⟨_, -, hheight, -⟩ := reduceBlock_steps reduces
    have hbefore := ih d.tail fun b hb => once b (List.mem_cons_of_mem _ hb)
    have hstart : Telling index.db block.height (txidsOf chain) (.start index.objects) := by
      refine ⟨?_, fun s hs => absurd hs List.not_mem_nil⟩
      have hstates : statesNow index.db block.height (.start index.objects) = index.db.states := by
        unfold statesNow
        rw [show (WorkingState.start index.objects).newStates = [] from rfl, List.map_nil, List.append_nil]
        exact (List.map_congr_left fun row _ => markState_new fun s hs => absurd hs List.not_mem_nil).trans (List.map_id _)
      have hchapters : chaptersNow index.db block.height (.start index.objects) = index.db.chapters := List.append_nil _
      rw [hstates, hchapters]
      exact hbefore
    have hnew : ∀ tx ∈ txs, tx.txid ∉ txidsOf chain := fun tx ht =>
      d.not_earlier (List.mem_map_of_mem (red.part.subset ht))
    obtain ⟨seen, ⟨hchronicled, -⟩, hseen⟩ := red.effects.telling live unused
      (fun tx ht => once block List.mem_cons_self tx (red.part.subset ht)) hnew hstart
    have hafter : Chronicled (txidsOf (block :: chain)) w.objects _ _ := hchronicled.mono fun t ht => by
      rcases hseen t ht with h | h
      · exact List.mem_append_right _ h
      · exact List.mem_append_left _ ((red.part.map _).subset h)
    rw [← red.objects] at hafter
    unfold statesNow chaptersNow at hafter
    rw [← red.newStates, ← red.spentOutpoints, ← red.chapters, ← hheight] at hafter
    exact hafter

/-- The five tables tell the lives, and nothing else. -/
structure TellsLives (db : Db) (lives : List Life) : Prop where
  /-- One of each object. -/
  apart : (lives.map Life.objectKey).Nodup
  /-- The objects are their records. -/
  objects : db.objects.Perm (lives.map fun life => objectRow life.record)
  /-- The states of an object are those of its life, in order. -/
  states : ∀ life ∈ lives, statesOf life.objectKey db.states = life.states
  /-- Every state is of an object. -/
  statesOwned : ∀ row ∈ db.states, ∃ life ∈ lives, life.objectKey = row.objectKey
  /-- The carriers are the states once more. -/
  carriers : db.carriers = db.states.map carrierOf
  /-- The chapters of an object are those of its life, in order. -/
  chapters : ∀ life ∈ lives, chaptersOf life.objectKey db.chapters = life.chapters
  /-- Every chapter is of an object. -/
  chaptersOwned : ∀ row ∈ db.chapters, ∃ life ∈ lives, life.objectKey = row.objectKey

/-- **A database that holds a chain tells one life of each object.** -/
theorem Holds.lives (contract : ValidatorContract packages.validate) {chain : List BitcoinBlock} {db : Db}
    (holds : Holds packages binding chain db) (d : Distinct packages binding chain) (once : SpendsOnce chain) :
    ∃ lives, TellsLives db lives := by
  obtain ⟨index, replay, htab⟩ := holds
  obtain ⟨j, rfl⟩ : ∃ j, db = withReorgs j index.db := ⟨_, tables_eq_iff.mp htab⟩
  have h := replay.chronicled contract d once
  have m := replay.mirrors
  -- One life for each entry of the object map.
  have hlife : ∀ entry ∈ index.objects.entries, ∃ life : Life, life.objectKey = entry.1 ∧ life.record = entry.2 ∧
      statesOf entry.1 index.db.states = life.states ∧ chaptersOf entry.1 index.db.chapters = life.chapters :=
    fun entry he => h.alive entry.1 entry.2 ((JsMap.mem_entries ..).mp he)
  choose lifeOf hkey hrecord hstates hchapters using hlife
  have hkeys : (index.objects.entries.pmap lifeOf fun _ he => he).map Life.objectKey = index.objects.keys := by
    rw [List.map_pmap]
    exact (List.pmap_congr_left _ fun entry _ he _ => hkey entry he).trans (List.pmap_eq_map fun _ he => he)
  have hrecords : (index.objects.entries.pmap lifeOf fun _ he => he).map Life.record = index.objects.values := by
    rw [List.map_pmap]
    exact (List.pmap_congr_left _ fun entry _ he _ => hrecord entry he).trans (List.pmap_eq_map fun _ he => he)
  have hof : ∀ key r, index.objects.get? key = some r →
      ∃ life ∈ index.objects.entries.pmap lifeOf fun _ he => he, life.objectKey = key := by
    intro key r hr
    exact List.mem_map.mp (hkeys ▸ (JsMap.mem_keys ..).mpr ⟨r, hr⟩)
  have hall : ∀ life ∈ index.objects.entries.pmap lifeOf fun _ he => he,
      statesOf life.objectKey index.db.states = life.states ∧
        chaptersOf life.objectKey index.db.chapters = life.chapters := by
    intro life hl
    obtain ⟨entry, he, rfl⟩ := List.mem_pmap.mp hl
    rw [hkey entry he]
    exact ⟨hstates entry he, hchapters entry he⟩
  refine ⟨_, hkeys ▸ index.objects.nodup, ?_, fun life hl => (hall life hl).1, fun row hrow => ?_, m.carriers,
    fun life hl => (hall life hl).2, fun row hrow => ?_⟩
  · have hrows := m.objects_perm
    rw [← hrecords, List.map_map] at hrows
    exact hrows
  · obtain ⟨r, hr⟩ := m.statesOwned row hrow
    exact hof _ r hr
  · obtain ⟨r, hr⟩ := m.chaptersOwned row hrow
    exact hof _ r hr

/-- So does every store, after any sequence of appends and rollbacks. -/
theorem Stored.lives (contract : ValidatorContract packages.validate) {history : History} {db : Db}
    (stored : Stored packages binding history db) (d : Distinct packages binding history.blocks)
    (once : SpendsOnce history.blocks) : ∃ lives, TellsLives db lives :=
  stored.recorded.1.lives contract d once

/-- **The rows of a life are linked**, and every state and chapter is of an object. -/
theorem TellsLives.linked {db : Db} {lives : List Life} (tells : TellsLives db lives) :
    (∀ row ∈ db.objects, LinkedRows row (statesOf row.objectKey db.states) (chaptersOf row.objectKey db.chapters)) ∧
      db.carriers = db.states.map carrierOf ∧ (db.objects.map ObjectRow.objectKey).Nodup ∧
      (∀ state ∈ db.states, ∃ row ∈ db.objects, row.objectKey = state.objectKey) ∧
      ∀ chapter ∈ db.chapters, ∃ row ∈ db.objects, row.objectKey = chapter.objectKey := by
  have hobject : ∀ life ∈ lives, objectRow life.record ∈ db.objects := fun life hl =>
    tells.objects.mem_iff.mpr (List.mem_map_of_mem hl)
  refine ⟨fun row hrow => ?_, tells.carriers, ?_, fun state hs => ?_, fun chapter hc => ?_⟩
  · obtain ⟨life, hl, rfl⟩ := List.mem_map.mp (tells.objects.mem_iff.mp hrow)
    have hkey : (objectRow life.record).objectKey = life.objectKey := rfl
    rw [hkey, tells.states life hl, tells.chapters life hl]
    exact life.linked
  · have hperm := tells.objects.map ObjectRow.objectKey
    rw [List.map_map] at hperm
    exact hperm.nodup_iff.mpr tells.apart
  · obtain ⟨life, hl, hkey⟩ := tells.statesOwned state hs
    exact ⟨_, hobject life hl, hkey⟩
  · obtain ⟨life, hl, hkey⟩ := tells.chaptersOwned chapter hc
    exact ⟨_, hobject life hl, hkey⟩

/-- **The rows of every object are linked**, after any sequence of appends and rollbacks; and every state, carrier
and chapter is of an object. -/
theorem history_linked (contract : ValidatorContract packages.validate) {history : History} {db : Db}
    (stored : Stored packages binding history db) (d : Distinct packages binding history.blocks)
    (once : SpendsOnce history.blocks) :
    (∀ row ∈ db.objects, LinkedRows row (statesOf row.objectKey db.states) (chaptersOf row.objectKey db.chapters)) ∧
      db.carriers = db.states.map carrierOf ∧ (db.objects.map ObjectRow.objectKey).Nodup ∧
      (∀ state ∈ db.states, ∃ row ∈ db.objects, row.objectKey = state.objectKey) ∧
      ∀ chapter ∈ db.chapters, ∃ row ∈ db.objects, row.objectKey = chapter.objectKey := by
  obtain ⟨lives, tells⟩ := stored.lives contract d once
  exact tells.linked

/-- An object that was marked in the second block. -/
theorem history_linked_sample : ∃ history db row, Stored lifePackages sampleBinding history db ∧ row ∈ db.objects ∧
    row.stateSequence = 1 ∧
      LinkedRows row (statesOf row.objectKey db.states) (chaptersOf row.objectKey db.chapters) := by
  obtain ⟨story, ran, told⟩ := Story.exists_told
  obtain ⟨row, others, hsplit, hrow, -⟩ := List.map_eq_cons_iff.mp told.objects.2
  have hmem : row ∈ story.db.objects := hsplit ▸ List.mem_cons_self
  have hlinked := history_linked (validateTandemTransaction_contract lifeChecks_sound) (Story.stored ran).2 story_distinct
    story_once
  exact ⟨_, _, row, (Story.stored ran).2, hmem, (Prod.mk.inj hrow).2, hlinked.1 row hmem⟩

end IndexTandem.Indexer
