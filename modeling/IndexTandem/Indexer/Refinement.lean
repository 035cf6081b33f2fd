import IndexTandem.Indexer.Reachable
import IndexTandem.Protocol.StateEngine

/-!
# The reducer refines the state engine

Each event of the reducer stands for at most one transition of the reference state engine,
built from what the event itself tells (`Told.transition`). Running the transitions of a block
from the projection of the objects before it goes through, and ends in the projection of the
objects after it, entry by entry (`Effects.refines`). So the events of a whole chain, from the
empty map on, reproduce its objects (`reducer_refines_engine`).
-/

namespace IndexTandem.Indexer

open Library Protocol

variable {packages : Packages} {binding : Binding} {heights : InitHeights} {height : ℕ}

/-! ### The abstraction -/

/-- A status of the entities as one of the engine. -/
def ObjectStatusName.projected : ObjectStatusName → TandemObjectStatus
  | .active => .active
  | .closed => .closed
  | .refunded => .refunded
  | .exited_noncanonical => .exited_noncanonical

/-- What the engine knows of a record. -/
def ObjectRecord.project (record : ObjectRecord) : IndexedObjectState Hash Outpoint Hash where
  objectKey := record.objectKey
  status := record.status.projected
  sequence := record.stateSequence
  currentOutpoint := record.currentOutpoint
  key0 := record.key0
  key1 := record.key1
  chapterCount := record.chapterCount
  terminalTxid := record.terminalTxid

/-- What the engine knows of the objects. -/
def projection (objects : JsMap Hash ObjectRecord) : States Hash Outpoint Hash := objects.mapValues ObjectRecord.project

/-- The transition that an event stands for; nothing when it changes no object. -/
def Told.transition (told : Told) : Option (StateTransition Hash Outpoint Hash) :=
  match told.validityClass, told.eventType with
  | .VALID_OPERATION, .CREATE => do
    pure (.CREATE (← told.objectKey) (← told.successorOutpoint) (← told.key0) (← told.key1))
  | .VALID_OPERATION, .MARK => do
    pure (.MARK (← told.objectKey) told.stateSequence (← told.predecessorOutpoint) (← told.successorOutpoint)
      (← told.key0) (← told.key1))
  | .VALID_OPERATION, .ROTATE => do
    pure (.ROTATE (← told.objectKey) told.stateSequence (← told.predecessorOutpoint) (← told.successorOutpoint)
      (← told.key0) (← told.key1))
  | .VALID_OPERATION, .CLOSE => do
    pure (.CLOSE (← told.objectKey) told.stateSequence (← told.predecessorOutpoint) told.txid)
  | .VALID_OPERATION, .REFUND => do
    pure (.REFUND (← told.objectKey) (← told.predecessorOutpoint) told.txid)
  | .TERMINAL_NONCANONICAL, _ => do
    pure (.EXITED_NONCANONICAL (← told.objectKey) (← told.predecessorOutpoint) told.txid)
  | _, _ => none

/-- The transitions of events, in order. -/
def transitions (events : List EventRecord) : List (StateTransition Hash Outpoint Hash) :=
  events.filterMap fun event => event.told.transition

/-- The event changes an object: it is terminal, or a valid operation other than INIT. -/
def Told.changes (told : Told) : Bool :=
  match told.validityClass with
  | .INVALID_NO_STATE => false
  | .VALID_OPERATION => told.eventType ≠ .INIT
  | .TERMINAL_NONCANONICAL => true

/-! ### One transition -/

/-- A transition of the engine replaces the projection of one record. -/
theorem applyStateTransition_projection {objects : JsMap Hash ObjectRecord} {key : Hash} {record : ObjectRecord}
    {t : StateTransition Hash Outpoint Hash} (hkey : t.objectKey = key)
    (h : transition ((objects.get? key).map ObjectRecord.project) t = .ok record.project) :
    applyStateTransition (projection objects) t = .ok (projection (objects.set key record)) := by
  subst hkey
  unfold applyStateTransition projection
  rw [JsMap.get?_mapValues, h, JsMap.mapValues_set]
  rfl

theorem requireActive_project {record : ObjectRecord} (active : record.status = .active) {o : Outpoint}
    (carrier : record.currentOutpoint = some o) :
    requireActive (some record.project) o = .ok record.project :=
  requireActive_eq_ok.mpr ⟨rfl, by simp [ObjectRecord.project, active, ObjectStatusName.projected], carrier⟩

/-- What events tell about a change of the working state refines it. -/
structure Refines (w w' : WorkingState) (tolds : List Told) : Prop where
  /-- Their transitions lead from the one projection to the other. -/
  run : (tolds.filterMap Told.transition).foldlM applyStateTransition (projection w.objects) =
    .ok (projection w'.objects)
  /-- An event has a transition exactly when it changes an object. -/
  classified : ∀ told ∈ tolds, told.transition.isSome = told.changes

theorem Refines.refl (w : WorkingState) : Refines w w [] := ⟨rfl, fun _ h => absurd h List.not_mem_nil⟩

theorem Refines.still (w : WorkingState) {told : Told} (none : told.transition = none) (still : told.changes = false) :
    Refines w w [told] where
  run := by
    rw [List.filterMap_cons_none none]
    rfl
  classified t ht := by
    rw [List.mem_singleton.mp ht, none, still]
    rfl

theorem Refines.single {w w' : WorkingState} {told : Told} {t : StateTransition Hash Outpoint Hash}
    (has : told.transition = some t) (changes : told.changes = true)
    (step : applyStateTransition (projection w.objects) t = .ok (projection w'.objects)) : Refines w w' [told] where
  run := by
    rw [List.filterMap_cons_some has, List.filterMap_nil, List.foldlM_cons, step]
    rfl
  classified e he := by
    rw [List.mem_singleton.mp he, has, changes]
    rfl

theorem Refines.trans {w w' w'' : WorkingState} {tolds later : List Told} (h : Refines w w' tolds)
    (h' : Refines w' w'' later) : Refines w w'' (tolds ++ later) where
  run := by
    rw [List.filterMap_append, foldlM_append_ok]
    exact ⟨_, h.run, h'.run⟩
  classified told ht := (List.mem_append.mp ht).elim (h.classified told) (h'.classified told)

/-! ### The effects of a transaction -/

theorem terminate_objects (w : WorkingState) (record : ObjectRecord) (status : ObjectStatusName) (txid : Hash)
    (sequence : ℕ) : (terminate w record status txid sequence).objects =
      w.objects.set record.objectKey (record.ended status txid sequence) := by
  simp [terminate]

theorem advance_objects (w : WorkingState) (record : ObjectRecord) (txid : Hash) (height sequence : ℕ)
    (key0 key1 : String) (chapter : Option ChapterContent) :
    (advance w record txid height sequence key0 key1 chapter).objects =
      w.objects.set record.objectKey (record.moved txid height sequence key0 key1 chapter) := by
  simp [advance]

theorem create_objects (w : WorkingState) (record : ObjectRecord) (outpoint : Outpoint) :
    (create w record outpoint).objects = w.objects.set record.objectKey record := by
  simp [create]

section

variable {transaction : BitcoinTransaction} {w w' : WorkingState} {tolds : List Told}

/-- A transaction that spends no output twice consumes no object twice. -/
theorem consumedKeys_nodup (live : Live w) (once : transaction.spends.Nodup) : (consumedKeys w transaction).Nodup := by
  refine once.filterMap fun o o' key ho ho' => ?_
  obtain ⟨r, hr, -, hro⟩ := (live.index o key).mp ho
  obtain ⟨r', hr', -, hro'⟩ := (live.index o' key).mp ho'
  obtain rfl := Option.some.inj (hr.symm.trans hr')
  exact Option.some.inj (hro.symm.trans hro')

/-- The one object consumed is active and has a carrier. -/
theorem Live.consumed (live : Live w) {record : ObjectRecord} (one : consumedKeys w transaction = [record.objectKey])
    (found : w.objects.get? record.objectKey = some record) :
    record.status = .active ∧ ∃ o, record.currentOutpoint = some o := by
  obtain ⟨o, -, r, hr, ha, ho⟩ := live.active (one ▸ List.mem_singleton.mpr rfl)
  obtain rfl := Option.some.inj (found.symm.trans hr)
  exact ⟨ha, o, ho⟩

/-- Each end of different active objects is a transition. -/
theorem Exits.refines {txid : Hash} {keys : List Hash} (h : Exits txid keys w w' tolds) (named : Named w.objects)
    (nodup : keys.Nodup) (active : ∀ key ∈ keys, ∃ r o, w.objects.get? key = some r ∧ r.status = .active ∧
      r.currentOutpoint = some o) : Refines w w' tolds := by
  induction h with
  | @nil w => exact .refl w
  | @cons key keys w w' record tolds found rest ih =>
    obtain rfl := named key record found
    obtain ⟨hnotin, hnodup⟩ := List.nodup_cons.mp nodup
    obtain ⟨r, o, hr, ha, ho⟩ := active _ List.mem_cons_self
    obtain rfl := Option.some.inj (found.symm.trans hr)
    have hfirst : Refines w (terminate w record .exited_noncanonical txid record.stateSequence) [exited txid record] := by
      refine .single (t := .EXITED_NONCANONICAL record.objectKey o txid) ?_ rfl ?_
      · simp [Told.transition, exited, ho]
      · rw [terminate_objects]
        refine applyStateTransition_projection rfl ?_
        rw [found, Option.map_some, transition, requireActive_project ha ho]
        rfl
    refine hfirst.trans (ih (named_terminate named _ _ _) hnodup fun key hk => ?_)
    have hne : key ≠ record.objectKey := fun he => hnotin (he ▸ hk)
    obtain ⟨r, o, hr, ha, ho⟩ := active key (List.mem_cons_of_mem _ hk)
    refine ⟨r, o, ?_, ha, ho⟩
    rw [get?_terminate, if_neg hne]
    exact hr

/-- **The events of a transaction refine its effect.** -/
theorem Effect.refines (live : Live w) {txids : List Hash}
    (unused : Unused packages binding w (transaction.txid :: txids)) (once : transaction.spends.Nodup)
    (h : Effect packages binding heights height transaction w w' tolds) : Refines w w' tolds := by
  cases h with
  | silent => exact .refl w
  | @invalid told _ cls => exact .still w (by simp [Told.transition, cls]) (by simp [Told.changes, cls])
  | @init told _ _ type cls => exact .still w (by simp [Told.transition, cls, type]) (by simp [Told.changes, cls, type])
  | created =>
    refine .single (t := .CREATE (keyOf packages binding transaction.txid) (successorOf transaction.txid)
      (revealed transaction 0) (revealed transaction 1)) rfl rfl ?_
    rw [create_objects]
    refine applyStateTransition_projection rfl ?_
    have hnew : w.objects.get? (newborn packages binding heights height transaction).objectKey = none :=
      unused.keys _ List.mem_cons_self
    rw [hnew]
    rfl
  | @marked record one found chapter =>
    obtain ⟨ha, o, ho⟩ := live.consumed one found
    refine .single (t := .MARK record.objectKey (record.stateSequence + 1) o (successorOf transaction.txid) record.key0
      record.key1) (by simp [Told.transition, operated, ho]) rfl ?_
    rw [advance_objects]
    refine applyStateTransition_projection rfl ?_
    rw [found, Option.map_some, transition, requireActive_project ha ho]
    exact bind_eq_ok.mpr ⟨_, rfl, bind_eq_ok.mpr ⟨(), ensure_eq_ok.mpr rfl, rfl⟩⟩
  | @rotated record one found =>
    obtain ⟨ha, o, ho⟩ := live.consumed one found
    refine .single (t := .ROTATE record.objectKey (record.stateSequence + 1) o (successorOf transaction.txid)
      (revealed transaction 1) (revealed transaction 2)) (by simp [Told.transition, operated, ho]) rfl ?_
    rw [advance_objects]
    refine applyStateTransition_projection rfl ?_
    rw [found, Option.map_some, transition, requireActive_project ha ho]
    exact bind_eq_ok.mpr ⟨_, rfl, bind_eq_ok.mpr ⟨(), ensure_eq_ok.mpr rfl, rfl⟩⟩
  | @closed record one found =>
    obtain ⟨ha, o, ho⟩ := live.consumed one found
    refine .single (t := .CLOSE record.objectKey (record.stateSequence + 1) o transaction.txid)
      (by simp [Told.transition, operated, ho]) rfl ?_
    rw [terminate_objects]
    refine applyStateTransition_projection rfl ?_
    rw [found, Option.map_some, transition, requireActive_project ha ho]
    exact bind_eq_ok.mpr ⟨_, rfl, bind_eq_ok.mpr ⟨(), ensure_eq_ok.mpr rfl, rfl⟩⟩
  | @refunded record one found =>
    obtain ⟨ha, o, ho⟩ := live.consumed one found
    refine .single (t := .REFUND record.objectKey o transaction.txid) (by simp [Told.transition, operated, ho]) rfl ?_
    rw [terminate_objects]
    refine applyStateTransition_projection rfl ?_
    rw [found, Option.map_some, transition, requireActive_project ha ho]
    rfl
  | exited _ perm exits =>
    refine exits.refines live.named (perm.nodup_iff.mpr (consumedKeys_nodup live once)) fun key hk => ?_
    obtain ⟨o, -, r, hr, ha, ho⟩ := live.active (perm.mem_iff.mp hk)
    exact ⟨r, o, hr, ha, ho⟩

/-- **So do the events of a block's transactions.** -/
theorem Effects.refines {txs : List BitcoinTransaction} (h : Effects packages binding heights height txs w w' tolds)
    (live : Live w) (unused : Unused packages binding w (txs.map BitcoinTransaction.txid))
    (once : ∀ tx ∈ txs, tx.spends.Nodup) : Refines w w' tolds := by
  induction h with
  | @nil w => exact .refl w
  | cons first _ ih =>
    refine (first.refines live unused (once _ List.mem_cons_self)).trans ?_
    exact ih (live.effect unused first) (unused.effect live first) fun tx ht => once tx (List.mem_cons_of_mem _ ht)

end

/-! ### Blocks and chains -/

/-- No transaction of the chain spends an output twice. -/
def SpendsOnce (chain : List BitcoinBlock) : Prop := ∀ block ∈ chain, ∀ tx ∈ block.transactions, tx.spends.Nodup

section

variable {chain : List BitcoinBlock} {log : List EventRecord} {cursor : Cursor} {block : BitcoinBlock}
  {reduced : ReducedBlock}

/-- The events of a block, reduced from a reached cursor, refine it. -/
theorem reduced_refines (contract : ValidatorContract packages.validate)
    (reached : Reachable packages binding chain log cursor) (d : Distinct packages binding (block :: chain))
    (once : ∀ tx ∈ block.transactions, tx.spends.Nodup) (reduces : cursor.reduce packages binding block = .ok reduced) :
    (transitions reduced.events).foldlM applyStateTransition (projection cursor.objects) =
        .ok (projection reduced.objects) ∧
      ∀ event ∈ reduced.events, event.told.transition.isSome = event.told.changes := by
  have input := reached.admissible contract d
  obtain ⟨heights, txs, w, hreduces⟩ := reduceBlock_effects contract input reduces
  have hpart : (txs.map BitcoinTransaction.txid).Sublist (block.transactions.map BitcoinTransaction.txid) :=
    hreduces.part.map _
  have hrefines := hreduces.effects.refines (.start input.named input.distinct) (input.unused.sublist hpart)
    fun tx ht => once tx (hreduces.part.subset ht)
  refine ⟨?_, fun event he => hrefines.classified _ (List.mem_map_of_mem he)⟩
  have hrun := hrefines.run
  rw [List.filterMap_map, ← hreduces.objects] at hrun
  exact hrun

/-- The log of a chain reproduces its objects. -/
theorem Reachable.log_reproduces (contract : ValidatorContract packages.validate)
    (reached : Reachable packages binding chain log cursor) (d : Distinct packages binding chain) (once : SpendsOnce chain) :
    applyAll (transitions log) = .ok (projection cursor.objects) := by
  induction reached with
  | start => rfl
  | @next chain log cursor block reduced reached reduces ih =>
    have hbefore := ih d.tail fun b hb => once b (List.mem_cons_of_mem _ hb)
    obtain ⟨hrun, -⟩ := reduced_refines contract reached d (once block List.mem_cons_self) reduces
    unfold applyAll transitions
    rw [List.filterMap_append, foldlM_append_ok]
    exact ⟨_, hbefore, hrun⟩

/-- **The live reducer refines the reference engine.** After any chain, the transitions of the events of the next block
go through from the projection of the objects before it, and end in that of the objects after it; an event has a
transition exactly when it is a valid operation other than INIT, or terminal; and the events of the whole chain
reproduce the objects from the empty map. -/
theorem reducer_refines_engine (contract : ValidatorContract packages.validate)
    (reached : Reachable packages binding chain log cursor) (d : Distinct packages binding (block :: chain))
    (once : SpendsOnce (block :: chain)) (reduces : cursor.reduce packages binding block = .ok reduced) :
    (transitions reduced.events).foldlM applyStateTransition (projection cursor.objects) =
        .ok (projection reduced.objects) ∧
      (∀ event ∈ reduced.events, event.told.transition.isSome = event.told.changes) ∧
      applyAll (transitions (log ++ reduced.events)) = .ok (projection reduced.objects) := by
  obtain ⟨hrun, hclassified⟩ := reduced_refines contract reached d (once block List.mem_cons_self) reduces
  exact ⟨hrun, hclassified, (reached.next reduces).log_reproduces contract d once⟩

end

theorem story_once : SpendsOnce [laterBlock, openBlock] := by
  unfold SpendsOnce
  decide +kernel

theorem life_once : SpendsOnce [lifeBlock] := by
  unfold SpendsOnce
  decide +kernel

/-- The events of a life: INIT, CREATE and MARK. -/
theorem reducer_refines_engine_sample : ∃ life : ReducedBlock,
    Cursor.reduce lifePackages sampleBinding (.initial lifePackages sampleBinding) lifeBlock = .ok life ∧
      life.events.length = 3 ∧ applyAll (transitions life.events) = .ok (projection life.objects) := by
  obtain ⟨life, reduces, -, three⟩ := exists_life
  have hall := reducer_refines_engine (validateTandemTransaction_contract lifeChecks_sound) .start life_distinct life_once
    reduces
  exact ⟨life, reduces, three, hall.2.2⟩

end IndexTandem.Indexer
