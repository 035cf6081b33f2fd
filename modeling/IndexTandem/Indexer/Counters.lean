import IndexTandem.Indexer.Refinement

/-!
# Counters and the event log

A checkpoint signs three counters of the object map. They are numbers of stored events: every
object has one valid CREATE, an object of the founding window one at a height of the window,
and an object that is not active one event that ended it. Each effect of a transaction changes
the counters by the events it tells (`Effect.counted`), so they agree for every block of a
chain, and in every store whose blocks were appended and rolled back in any order
(`counters_equal_log`).
-/

namespace IndexTandem.Indexer

open Library Protocol Database

variable {packages : Packages} {binding : Binding} {heights : InitHeights} {height : ℕ}

/-! ### Events -/

/-- It tells of the end of an object: a valid CLOSE or REFUND, or a terminal event. -/
def Told.ends (told : Told) : Bool :=
  told.validityClass = .VALID_OPERATION && (told.eventType = .CLOSE || told.eventType = .REFUND) ||
    told.validityClass = .TERMINAL_NONCANONICAL

/-- The heights of the founding window. -/
def InitHeights.inWindow (heights : InitHeights) (height : ℕ) : Bool :=
  heights.openHeight ≤ height && height < heights.closeHeight

/-- An active record. -/
def ObjectRecord.isActive (record : ObjectRecord) : Bool := record.status = .active

/-- The objects that a change of the working state adds, founds and ends are those its events tell of. -/
structure Counted (heights : InitHeights) (height : ℕ) (w w' : WorkingState) (tolds : List Told) : Prop where
  /-- Each CREATE adds an object. -/
  all : w'.objects.values.length = w.objects.values.length + tolds.countP Told.creates
  /-- It is active until an event ends it. -/
  active : w'.objects.values.countP ObjectRecord.isActive + tolds.countP Told.ends =
    w.objects.values.countP ObjectRecord.isActive + tolds.countP Told.creates
  /-- It is founding when the height is in the window. -/
  founding : w'.objects.values.countP ObjectRecord.founding =
    w.objects.values.countP ObjectRecord.founding + if heights.inWindow height then tolds.countP Told.creates else 0

theorem Counted.refl (heights : InitHeights) (height : ℕ) (w : WorkingState) : Counted heights height w w [] := by
  constructor <;> simp

theorem Counted.trans {w w' w'' : WorkingState} {tolds later : List Told} (h : Counted heights height w w' tolds)
    (h' : Counted heights height w' w'' later) : Counted heights height w w'' (tolds ++ later) where
  all := by
    rw [h'.all, h.all, List.countP_append]
    omega
  active := by
    have h₁ := h.active
    have h₂ := h'.active
    rw [List.countP_append, List.countP_append]
    omega
  founding := by
    rw [h'.founding, h.founding, List.countP_append]
    split_ifs <;> omega

/-- An event that neither adds nor ends an object. -/
theorem Counted.still (heights : InitHeights) (height : ℕ) (w : WorkingState) {told : Told}
    (plain : told.creates = false) (going : told.ends = false) : Counted heights height w w [told] := by
  constructor <;> simp [plain, going]

/-- An event about one object whose record is replaced. -/
theorem Counted.replace {w w' : WorkingState} {record next : ObjectRecord} {told : Told}
    (found : w.objects.get? record.objectKey = some record) (active : record.status = .active)
    (hobjects : w'.objects = w.objects.set record.objectKey next) (same : next.founding = record.founding)
    (plain : told.creates = false) (ends : told.ends = !next.isActive) : Counted heights height w w' [told] := by
  have hset : ∀ p : ObjectRecord → Bool, w'.objects.values.countP p + [record].countP p =
      w.objects.values.countP p + [next].countP p := by
    intro p
    have := w.objects.countP_set p record.objectKey next
    rwa [found, Option.toList_some, ← hobjects] at this
  have hlength := hset fun _ => true
  have hactive := hset ObjectRecord.isActive
  have hfounding := hset ObjectRecord.founding
  have hwas : record.isActive = true := by simpa [ObjectRecord.isActive] using active
  simp only [List.countP_true, List.length_singleton] at hlength
  simp only [List.countP_singleton, hwas, if_true] at hactive
  simp only [List.countP_singleton, same] at hfounding
  constructor
  · simp only [List.countP_singleton, plain, Bool.false_eq_true, if_false]
    omega
  · simp only [List.countP_singleton, plain, ends, Bool.false_eq_true, if_false]
    cases h : next.isActive with
    | true =>
      simp only [h, if_true] at hactive
      simp only [Bool.not_true, Bool.false_eq_true, if_false]
      omega
    | false =>
      simp only [h, Bool.false_eq_true, if_false] at hactive
      simp only [Bool.not_false, if_true]
      omega
  · simp only [List.countP_singleton, plain, Bool.false_eq_true, if_false, ite_self]
    omega

/-- The end of an object counts once. -/
theorem Counted.terminate {w : WorkingState} {record : ObjectRecord} {told : Told}
    (found : w.objects.get? record.objectKey = some record) (active : record.status = .active)
    {status : ObjectStatusName} (finished : status ≠ .active) (plain : told.creates = false) (ends : told.ends = true)
    (txid : Hash) (sequence : ℕ) :
    Counted heights height w (Indexer.terminate w record status txid sequence) [told] := by
  refine .replace found active (terminate_objects ..) rfl plain ?_
  simp [ends, ObjectRecord.isActive, ObjectRecord.ended, finished]

section

variable {transaction : BitcoinTransaction} {w w' : WorkingState} {tolds : List Told}

theorem Exits.counted {txid : Hash} {keys : List Hash} (h : Exits txid keys w w' tolds) (named : Named w.objects)
    (nodup : keys.Nodup) (active : ∀ key ∈ keys, ∃ r, w.objects.get? key = some r ∧ r.status = .active) :
    Counted heights height w w' tolds := by
  induction h with
  | nil => exact .refl _ _ _
  | @cons key keys w w' record tolds found rest ih =>
    obtain rfl := named key record found
    obtain ⟨hnotin, hnodup⟩ := List.nodup_cons.mp nodup
    obtain ⟨r, hr, ha⟩ := active _ List.mem_cons_self
    obtain rfl := Option.some.inj (found.symm.trans hr)
    have hfirst : Counted heights height w (terminate w record .exited_noncanonical txid record.stateSequence)
        [exited txid record] := .terminate found ha (by decide) rfl rfl _ _
    refine hfirst.trans (ih (named_terminate named _ _ _) hnodup fun key hk => ?_)
    have hne : key ≠ record.objectKey := fun he => hnotin (he ▸ hk)
    obtain ⟨r, hr, ha⟩ := active key (List.mem_cons_of_mem _ hk)
    refine ⟨r, ?_, ha⟩
    rw [get?_terminate, if_neg hne]
    exact hr

/-- **An effect changes the counters by what it tells.** -/
theorem Effect.counted (live : Live w) {txids : List Hash}
    (unused : Unused packages binding w (transaction.txid :: txids)) (once : transaction.spends.Nodup)
    (h : Effect packages binding heights height transaction w w' tolds) : Counted heights height w w' tolds := by
  cases h with
  | silent => exact .refl _ _ _
  | @invalid told _ cls => exact .still _ _ _ (by simp [Told.creates, cls]) (by simp [Told.ends, cls])
  | @init told _ _ type cls => exact .still _ _ _ (by simp [Told.creates, type]) (by simp [Told.ends, cls, type])
  | created =>
    have hset : ∀ p : ObjectRecord → Bool,
        (create w (newborn packages binding heights height transaction)
          (successorOf transaction.txid)).objects.values.countP p =
        w.objects.values.countP p + [newborn packages binding heights height transaction].countP p := by
      intro p
      have hcount := w.objects.countP_set p (keyOf packages binding transaction.txid)
        (newborn packages binding heights height transaction)
      rw [unused.keys _ List.mem_cons_self, Option.toList_none, List.countP_nil, Nat.add_zero] at hcount
      rw [create_objects]
      exact hcount
    have hlength := hset fun _ => true
    have hactive := hset ObjectRecord.isActive
    have hfounding := hset ObjectRecord.founding
    simp only [List.countP_true, List.length_singleton] at hlength
    constructor
    · simpa [Told.creates] using hlength
    · simpa [Told.creates, Told.ends, ObjectRecord.isActive, newborn, createdRecord] using hactive
    · rw [hfounding]
      simp [Told.creates, newborn, createdRecord, InitHeights.inWindow, List.countP_singleton]
  | @marked record one found chapter =>
    obtain ⟨ha, -⟩ := live.consumed one found
    exact .replace found ha (advance_objects ..) rfl rfl (by simp [ObjectRecord.isActive, ObjectRecord.moved, ha]; rfl)
  | @rotated record one found =>
    obtain ⟨ha, -⟩ := live.consumed one found
    exact .replace found ha (advance_objects ..) rfl rfl (by simp [ObjectRecord.isActive, ObjectRecord.moved, ha]; rfl)
  | @closed record one found =>
    obtain ⟨ha, -⟩ := live.consumed one found
    exact .terminate found ha (by decide) rfl rfl _ _
  | @refunded record one found =>
    obtain ⟨ha, -⟩ := live.consumed one found
    exact .terminate found ha (by decide) rfl rfl _ _
  | exited _ perm exits =>
    refine exits.counted live.named (perm.nodup_iff.mpr (consumedKeys_nodup live once)) fun key hk => ?_
    obtain ⟨_, -, r, hr, ha, -⟩ := live.active (perm.mem_iff.mp hk)
    exact ⟨r, hr, ha⟩

/-- So do the effects of a block's transactions. -/
theorem Effects.counted {txs : List BitcoinTransaction} (h : Effects packages binding heights height txs w w' tolds)
    (live : Live w) (unused : Unused packages binding w (txs.map BitcoinTransaction.txid))
    (once : ∀ tx ∈ txs, tx.spends.Nodup) : Counted heights height w w' tolds := by
  induction h with
  | nil => exact .refl _ _ _
  | cons first _ ih =>
    refine (first.counted live unused (once _ List.mem_cons_self)).trans ?_
    exact ih (live.effect unused first) (unused.effect live first) fun tx ht => once tx (List.mem_cons_of_mem _ ht)

end

/-! ### Counting stored events -/

/-- What a stored event tells. -/
def toldOf (row : EventRow) : Told where
  txid := row.txid
  eventType := row.eventType
  validityClass := row.validityClass
  objectKey := row.objectKey
  stateSequence := row.stateSequence
  predecessorOutpoint := row.predecessorOutpoint
  successorOutpoint := row.successorOutpoint
  key0 := row.key0
  key1 := row.key1

@[simp] theorem toldOf_eventRow (height : ℕ) (event : EventRecord) : toldOf (eventRow height event) = event.told := rfl

/-- The height is in the founding window that the INIT's marker names. -/
def InitActivation.founds (init : InitActivation) (height : ℕ) : Bool :=
  match init.openHeight, init.closeHeight with
  | some openHeight, some closeHeight => openHeight ≤ height && height < closeHeight
  | _, _ => false

/-- The window that objects are created with is the one of the INIT. -/
theorem founds_of_heights {init : InitActivation} (h : init.heights? = some heights) (height : ℕ) :
    init.founds height = heights.inWindow height := by
  unfold InitActivation.heights? at h
  unfold InitActivation.founds
  split at h
  · rename_i ho hc
    obtain rfl := Option.some.inj h
    rw [ho, hc]
    rfl
  · cases h

/-- A stored valid CREATE. -/
def isCreate (row : EventRow) : Bool := (toldOf row).creates

/-- A stored valid CREATE at a height of the founding window. -/
def isFounding (init : Option InitActivation) (row : EventRow) : Bool :=
  isCreate row && init.any fun init => init.founds row.blockHeight

/-- A stored event that ended an object. -/
def isEnd (row : EventRow) : Bool := (toldOf row).ends

/-- `SELECT COUNT(*) FROM tandem_events WHERE p AND block_height <= height`. -/
def countUpTo (p : EventRow → Bool) (events : List EventRow) (height : ℕ) : ℕ :=
  events.countP fun row => p row && row.blockHeight ≤ height

/-- The counters of a checkpoint are numbers of events up to its height. -/
structure LogCounted (init : Option InitActivation) (events : List EventRow) (row : CheckpointRow) : Prop where
  /-- All objects. -/
  all : row.allObjects = countUpTo isCreate events row.height
  /-- The founding ones. -/
  founding : row.foundingCreated = countUpTo (isFounding init) events row.height
  /-- The active ones. -/
  active : (row.activeObjects : ℤ) = row.allObjects - countUpTo isEnd events row.height

/-- The counters of a checkpoint are those of the rows of the objects, as the catalog counts them. -/
structure RowCounted (objects : List ObjectRow) (row : CheckpointRow) : Prop where
  /-- All objects. -/
  total : row.allObjects = objects.length
  /-- The founding ones. -/
  founding : row.foundingCreated = objects.countP ObjectRow.founding
  /-- The active ones. -/
  active : row.activeObjects = objects.countP fun object => object.status = .active

section

variable (p : EventRow → Bool) {events : List EventRow}

theorem countUpTo_append (new : List EventRecord) {height above : ℕ} (lower : height < above) :
    countUpTo p (events ++ new.map (eventRow above)) height = countUpTo p events height := by
  have hnone : countUpTo p (new.map (eventRow above)) height = 0 := by
    refine List.countP_eq_zero.mpr fun row hrow => ?_
    obtain ⟨event, -, rfl⟩ := List.mem_map.mp hrow
    have hnot : decide (above ≤ height) = false := decide_eq_false (by omega)
    show ¬(p _ && decide (above ≤ height)) = true
    rw [hnot, Bool.and_false]
    exact Bool.false_ne_true
  unfold countUpTo at hnone ⊢
  rw [List.countP_append, hnone, Nat.add_zero]

theorem countUpTo_eq {height : ℕ} (low : ∀ row ∈ events, row.blockHeight ≤ height) :
    countUpTo p events height = events.countP p := by
  unfold countUpTo
  refine List.countP_congr fun row hrow => ?_
  simp [low row hrow]

end

/-- A later block leaves the earlier checkpoints counted. -/
theorem LogCounted.append {init : Option InitActivation} {events : List EventRow} {row : CheckpointRow}
    (h : LogCounted init events row) (new : List EventRecord) (higher : row.height < height) :
    LogCounted init (events ++ new.map (eventRow height)) row where
  all := by rw [countUpTo_append _ _ higher, h.all]
  founding := by rw [countUpTo_append _ _ higher, h.founding]
  active := by rw [countUpTo_append _ _ higher, h.active]

/-! ### Replayed databases -/

/-- The objects of an index are counted by its events, and its checkpoints by the events up to their heights. -/
structure Tallied (index : Index) : Prop where
  /-- All objects. -/
  all : index.objects.values.length = index.db.events.countP isCreate
  /-- The active ones. -/
  active : index.objects.values.countP ObjectRecord.isActive + index.db.events.countP isEnd =
    index.db.events.countP isCreate
  /-- The founding ones. -/
  founding : index.objects.values.countP ObjectRecord.founding = index.db.events.countP (isFounding index.activation)
  /-- The checkpoints. -/
  checkpoints : ∀ row ∈ index.db.checkpoints, LogCounted index.activation index.db.events row
  /-- The newest one has the counters of the objects. -/
  tip : ∀ row ∈ index.db.checkpoints, (∀ other ∈ index.db.checkpoints, other.height ≤ row.height) →
    row.allObjects = index.objects.values.length ∧
      row.foundingCreated = index.objects.values.countP ObjectRecord.founding ∧
      row.activeObjects = index.objects.values.countP ObjectRecord.isActive

section

variable {chain : List BitcoinBlock} {index : Index} {block : BitcoinBlock} {reduced : ReducedBlock}

/-- Events are there only after the INIT that the next block is reduced with. -/
theorem Replay.eventless (replay : Replay packages binding chain index)
    (reduces : index.reduce packages binding block = .ok reduced) :
    index.db.events = [] ∨ index.activation = some reduced.activation := by
  cases hact : index.activation with
  | none =>
    obtain rfl := replay.loadActivation.2.mp hact
    cases replay
    exact .inl rfl
  | some a =>
    obtain ⟨-, rfl⟩ := (reduceBlock_activation reduces).1 a hact
    exact .inr rfl

/-- So the founding ones among them are the same after it. -/
theorem Replay.founded (replay : Replay packages binding chain index)
    (reduces : index.reduce packages binding block = .ok reduced) :
    index.db.events.countP (isFounding (some reduced.activation)) = index.db.events.countP (isFounding index.activation) := by
  rcases replay.eventless reduces with hnone | hsome
  · rw [hnone]
    rfl
  · rw [hsome]

theorem Replay.logCounted (replay : Replay packages binding chain index)
    (reduces : index.reduce packages binding block = .ok reduced) {row : CheckpointRow}
    (h : LogCounted index.activation index.db.events row) :
    LogCounted (some reduced.activation) index.db.events row := by
  rcases replay.eventless reduces with hnone | hsome
  · rw [hnone] at h ⊢
    exact ⟨h.all, h.founding, h.active⟩
  · rwa [← hsome]

/-- The founding events of a block are its CREATEs when it is in the window. -/
theorem countP_isFounding {init : InitActivation} {new : List EventRecord}
    (window : init.heights? = some heights ∨ ∀ event ∈ new, event.told.creates = false) :
    (new.map (eventRow height)).countP (isFounding (some init)) =
      if heights.inWindow height then (new.map EventRecord.told).countP Told.creates else 0 := by
  rcases window with hheights | hnone
  · have hfounds := founds_of_heights hheights height
    rw [List.countP_map, List.countP_map]
    split_ifs with hin
    · refine List.countP_congr fun event _ => ?_
      show (event.told.creates && init.founds height) = true ↔ event.told.creates = true
      rw [hfounds, hin, Bool.and_true]
    · refine List.countP_eq_zero.mpr fun event _ => ?_
      show ¬(event.told.creates && init.founds height) = true
      rw [hfounds, Bool.eq_false_iff.mpr hin, Bool.and_false]
      exact Bool.false_ne_true
  · have hzero : (new.map EventRecord.told).countP Told.creates = 0 := by
      refine List.countP_eq_zero.mpr fun told ht => ?_
      obtain ⟨event, he, rfl⟩ := List.mem_map.mp ht
      rw [hnone event he]
      exact Bool.false_ne_true
    rw [hzero, ite_self, List.countP_map]
    refine List.countP_eq_zero.mpr fun event he => ?_
    show ¬(event.told.creates && init.founds height) = true
    rw [hnone event he, Bool.false_and]
    exact Bool.false_ne_true

/-- **Writing a block** keeps the counts. -/
theorem Tallied.next (tallied : Tallied index) (replay : Replay packages binding chain index)
    (reduces : index.reduce packages binding block = .ok reduced)
    (below : ∀ h ∈ Indexer.heights index.db, h < reduced.height)
    (window : reduced.activation.heights? = some heights ∨ ∀ event ∈ reduced.events, event.told.creates = false)
    {w : WorkingState} (objects : reduced.objects = w.objects)
    (counted : Counted heights reduced.height (.start index.objects) w (reduced.events.map EventRecord.told)) :
    Tallied (Index.next reduced (written reduced index.db)) := by
  obtain ⟨_, _, progress, -, -, -, hfin⟩ := reduceBlock_ok reduces
  obtain ⟨-, -, -, -, -, -, hobjects, -, -, -, -, hfounding, hall, hactive, -⟩ := finishBlock_ok hfin
  have stamped := replay.mirrors.stamped
  have hcount : ∀ q : EventRow → Bool, (written reduced index.db).events.countP q =
      index.db.events.countP q + (reduced.events.map (eventRow reduced.height)).countP q := fun q => List.countP_append
  have hcreate : (reduced.events.map (eventRow reduced.height)).countP isCreate =
      (reduced.events.map EventRecord.told).countP Told.creates := by
    rw [List.countP_map, List.countP_map]
    rfl
  have hend : (reduced.events.map (eventRow reduced.height)).countP isEnd =
      (reduced.events.map EventRecord.told).countP Told.ends := by
    rw [List.countP_map, List.countP_map]
    rfl
  -- The objects after the block are counted by the events after it.
  have hallEvents : reduced.objects.values.length = (written reduced index.db).events.countP isCreate := by
    rw [objects, counted.all, hcount, hcreate, ← tallied.all]
    rfl
  have hactiveEvents : reduced.objects.values.countP ObjectRecord.isActive + (written reduced index.db).events.countP isEnd =
      (written reduced index.db).events.countP isCreate := by
    have hbefore := tallied.active
    have hblock := counted.active
    simp only [WorkingState.start] at hblock
    rw [objects, hcount, hcount, hcreate, hend]
    omega
  have hfoundingEvents : reduced.objects.values.countP ObjectRecord.founding =
      (written reduced index.db).events.countP (isFounding (some reduced.activation)) := by
    rw [objects, counted.founding, hcount, replay.founded reduces, countP_isFounding window, ← tallied.founding]
    rfl
  have hupTo : ∀ q : EventRow → Bool, countUpTo q (written reduced index.db).events reduced.height =
      (written reduced index.db).events.countP q := by
    refine fun q => countUpTo_eq q fun row hrow => ?_
    rcases List.mem_append.mp hrow with hrow | hrow
    · exact (below _ (stamped.events row hrow)).le
    · obtain ⟨event, -, rfl⟩ := List.mem_map.mp hrow
      exact le_refl _
  -- The checkpoint signs the counters of the objects.
  have hsigned : reduced.allObjects = reduced.objects.values.length ∧
      reduced.foundingCreated = reduced.objects.values.countP ObjectRecord.founding ∧
      reduced.activeObjects = reduced.objects.values.countP ObjectRecord.isActive := by
    rw [hobjects, List.countP_eq_length_filter, List.countP_eq_length_filter]
    exact ⟨hall, hfounding, hactive⟩
  obtain ⟨hsignedAll, hsignedFounding, hsignedActive⟩ := hsigned
  refine ⟨hallEvents, hactiveEvents, hfoundingEvents, fun row hrow => ?_, fun row hrow highest => ?_⟩
  · rcases List.mem_append.mp hrow with hrow | hrow
    · exact (replay.logCounted reduces (tallied.checkpoints row hrow)).append _ (below _ (stamped.checkpoints row hrow))
    · obtain rfl := List.mem_singleton.mp hrow
      constructor
      · exact (hsignedAll.trans hallEvents).trans (hupTo isCreate).symm
      · exact (hsignedFounding.trans hfoundingEvents).trans (hupTo _).symm
      · show (reduced.activeObjects : ℤ) = reduced.allObjects - countUpTo isEnd (written reduced index.db).events reduced.height
        rw [hupTo, hsignedAll, hsignedActive, hallEvents]
        omega
  · rcases List.mem_append.mp hrow with hrow | hrow
    · have hlow := below _ (stamped.checkpoints row hrow)
      have hhigh : reduced.height ≤ row.height := highest (checkpointRow reduced) (List.mem_append_right _ (List.mem_singleton.mpr rfl))
      omega
    · obtain rfl := List.mem_singleton.mp hrow
      exact ⟨hsignedAll, hsignedFounding, hsignedActive⟩

/-- **A replayed database is counted by its events.** -/
theorem Replay.tallied (contract : ValidatorContract packages.validate) (replay : Replay packages binding chain index)
    (d : Distinct packages binding chain) (once : SpendsOnce chain) : Tallied index := by
  induction replay with
  | empty => exact ⟨rfl, rfl, rfl, fun _ hrow => absurd hrow List.not_mem_nil, fun _ hrow => absurd hrow List.not_mem_nil⟩
  | @connect chain index block reduced db replay follows reduces writes ih =>
    obtain ⟨rfl, -⟩ := writeBlock_ok writes
    have s := replay.sourced contract d.tail
    obtain ⟨heights, txs, w, red, window⟩ := reduceBlock_windowed contract (s.admissible replay d) reduces
    obtain ⟨live, unused⟩ := s.unused replay d red
    obtain ⟨_, -, hheight, -⟩ := reduceBlock_steps reduces
    have counted : Counted heights block.height (.start index.objects) w (reduced.events.map EventRecord.told) :=
      red.effects.counted live unused fun tx ht => once block List.mem_cons_self tx (red.part.subset ht)
    have tallied := ih d.tail fun b hb => once b (List.mem_cons_of_mem _ hb)
    rw [← hheight] at counted
    exact tallied.next replay reduces (fun h hh => hheight ▸ s.below replay follows hh) window red.objects counted

/-- The rows of the objects are those of the records, in some order. -/
theorem Mirrors.objects_perm {objects : JsMap Hash ObjectRecord} {db : Db} (m : Mirrors packages binding objects db) :
    db.objects.Perm (objects.values.map objectRow) := by
  have hkeys : (objects.values.map objectRow).map ObjectRow.objectKey = objects.keys := by
    unfold JsMap.values JsMap.keys
    rw [List.map_map, List.map_map]
    refine List.map_congr_left fun entry he => ?_
    exact (m.keyed entry.1 entry.2 ((JsMap.mem_entries objects entry.1 entry.2).mp he)).1
  have hnodup : (objects.values.map objectRow).Nodup := by
    refine List.Nodup.of_map ObjectRow.objectKey ?_
    rw [hkeys]
    exact objects.nodup
  refine (List.perm_ext_iff_of_nodup (m.nodup.of_map _) hnodup).mpr fun row => ?_
  rw [m.rows, List.mem_map]
  constructor
  · rintro ⟨k, r, hr, rfl⟩
    exact ⟨r, (JsMap.mem_values objects r).mpr ⟨k, hr⟩, rfl⟩
  · rintro ⟨r, hr, rfl⟩
    obtain ⟨k, hk⟩ := (JsMap.mem_values objects r).mp hr
    exact ⟨k, r, hk, rfl⟩

end

/-- **The counters of every checkpoint equal the event log**, after any sequence of appends and rollbacks: they are
numbers of events stored up to its height. Those of the newest one also are numbers of rows of the objects. -/
theorem counters_equal_log (contract : ValidatorContract packages.validate) {history : History} {db : Db}
    (stored : Stored packages binding history db) (d : Distinct packages binding history.blocks)
    (once : SpendsOnce history.blocks) {row : CheckpointRow} (hrow : row ∈ db.checkpoints) :
    LogCounted (loadActivation db) db.events row ∧
      ((∀ other ∈ db.checkpoints, other.height ≤ row.height) → RowCounted db.objects row) := by
  obtain ⟨index, replay, htab⟩ := stored.recorded.1
  obtain ⟨j, rfl⟩ : ∃ j, db = withReorgs j index.db := ⟨_, tables_eq_iff.mp htab⟩
  have tallied := replay.tallied contract d once
  have hload : loadActivation (withReorgs j index.db) = index.activation := replay.loadActivation.1
  rw [hload]
  refine ⟨tallied.checkpoints row hrow, fun highest => ?_⟩
  obtain ⟨hall, hfounding, hactive⟩ := tallied.tip row hrow highest
  have hperm : (withReorgs j index.db).objects.Perm (index.objects.values.map objectRow) := replay.mirrors.objects_perm
  constructor
  · rw [hall, hperm.length_eq, List.length_map]
  · rw [hfounding, hperm.countP_eq, List.countP_map]
    rfl
  · rw [hactive, hperm.countP_eq, List.countP_map]
    rfl

/-- The checkpoint of the second of two blocks signs two active objects. -/
theorem counters_equal_log_sample : ∃ history db row, Stored lifePackages sampleBinding history db ∧
    row ∈ db.checkpoints ∧ (row.height, row.allObjects, row.activeObjects, row.foundingCreated) = (201, 2, 2, 0) ∧
      LogCounted (loadActivation db) db.events row ∧ RowCounted db.objects row := by
  obtain ⟨story, ran, told⟩ := Story.exists_told
  obtain ⟨first, others, hsplit, hfirst, hothers⟩ := List.map_eq_cons_iff.mp told.checkpoints
  obtain ⟨row, rfl, hrow⟩ := List.map_eq_singleton_iff.mp hothers
  have hmem : row ∈ story.db.checkpoints := by
    rw [hsplit]
    exact List.mem_cons_of_mem _ List.mem_cons_self
  obtain ⟨hlog, htip⟩ := counters_equal_log (validateTandemTransaction_contract lifeChecks_sound) (Story.stored ran).2
    story_distinct story_once hmem
  refine ⟨_, _, row, (Story.stored ran).2, hmem, hrow, hlog, htip fun other hother => ?_⟩
  rw [hsplit] at hother
  rcases List.mem_cons.mp hother with rfl | hother
  · rw [(Prod.mk.inj hfirst).1, (Prod.mk.inj hrow).1]
    decide
  · rw [List.mem_singleton.mp hother]

end IndexTandem.Indexer
