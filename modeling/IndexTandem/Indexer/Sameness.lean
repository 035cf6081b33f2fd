import IndexTandem.Indexer.Mirror

/-!
# Reducing does not depend on the order of the object map

The object map comes from a query without an order, or from the last block's reduction.
Its order reaches nothing that is stored: maps with the same lookups are reduced to the
same block, up to the order of the map that comes out (`reduceBlock_same`).
-/

namespace IndexTandem.Indexer

open Library Protocol

variable {packages : Packages} {binding : Binding}

/-! ### The index of the active carriers -/

/-- Every record is under its own key. -/
def Named (objects : JsMap Hash ObjectRecord) : Prop := ∀ k r, objects.get? k = some r → r.objectKey = k

/-- No two active records have the same carrier. -/
def DistinctActive (objects : JsMap Hash ObjectRecord) : Prop :=
  ∀ k k' r r' o, objects.get? k = some r → objects.get? k' = some r' → r.status = .active → r'.status = .active →
    r.currentOutpoint = some o → r'.currentOutpoint = some o → k = k'

/-- The turn of the loop that fills the index. -/
def indexStep (index : JsMap Outpoint Hash) (record : ObjectRecord) : JsMap Outpoint Hash :=
  match record.status, record.currentOutpoint with
  | .active, some outpoint => index.set outpoint record.objectKey
  | _, _ => index

theorem get?_indexStep (index : JsMap Outpoint Hash) (record : ObjectRecord) (o : Outpoint) :
    (indexStep index record).get? o =
      if record.status = .active ∧ record.currentOutpoint = some o then some record.objectKey else index.get? o := by
  unfold indexStep
  split
  · rename_i outpoint hs ho
    simp only [JsMap.get?_set, hs, ho, true_and, Option.some.injEq]
    simp only [eq_comm]
  · rename_i h
    rw [if_neg]
    rintro ⟨hs, ho⟩
    exact h o hs ho

theorem get?_foldl_indexStep {l : List ObjectRecord} {index : JsMap Outpoint Hash} {o : Outpoint} {key : Hash}
    (hl : ∀ r ∈ l, ∀ r' ∈ l, r.status = .active → r'.status = .active → r.currentOutpoint = some o →
      r'.currentOutpoint = some o → r.objectKey = r'.objectKey) :
    (l.foldl indexStep index).get? o = some key ↔
      (∃ r ∈ l, r.status = .active ∧ r.currentOutpoint = some o ∧ r.objectKey = key) ∨
        (∀ r ∈ l, ¬(r.status = .active ∧ r.currentOutpoint = some o)) ∧ index.get? o = some key := by
  induction l generalizing index with
  | nil => simp
  | cons r l ih =>
    rw [List.foldl_cons, ih fun a ha b hb => hl a (by simp [ha]) b (by simp [hb]), get?_indexStep]
    by_cases hr : r.status = .active ∧ r.currentOutpoint = some o
    · simp only [hr, and_self, if_true, List.mem_cons, exists_eq_or_imp, forall_eq_or_imp, not_true_eq_false,
        false_and, or_false, true_and, Option.some.injEq]
      constructor
      · rintro (⟨r', hr', hs, ho, hk⟩ | ⟨-, hk⟩)
        · exact .inr ⟨r', hr', hs, ho, hk⟩
        · exact .inl hk
      · rintro (hk | ⟨r', hr', hs, ho, hk⟩)
        · by_cases hn : ∀ r' ∈ l, ¬(r'.status = .active ∧ r'.currentOutpoint = some o)
          · exact .inr ⟨hn, hk⟩
          · simp only [not_forall, not_not] at hn
            obtain ⟨r', hr', hs, ho⟩ := hn
            exact .inl ⟨r', hr', hs, ho, (hl r' (by simp [hr']) r (by simp) hs hr.1 ho hr.2).trans hk⟩
        · exact .inl ⟨r', hr', hs, ho, hk⟩
    · rw [if_neg hr]
      simp only [List.mem_cons, exists_eq_or_imp, forall_eq_or_imp, hr, not_false_eq_true, true_and]
      have hfalse : ¬(r.status = .active ∧ r.currentOutpoint = some o ∧ r.objectKey = key) := fun h => hr ⟨h.1, h.2.1⟩
      simp only [hfalse, false_or]

/-- **The index names the object of each active carrier.** -/
theorem get?_indexActive {objects : JsMap Hash ObjectRecord} (named : Named objects)
    (distinct : DistinctActive objects) {o : Outpoint} {key : Hash} :
    (indexActive objects).get? o = some key ↔
      ∃ r, objects.get? key = some r ∧ r.status = .active ∧ r.currentOutpoint = some o := by
  have hfold : indexActive objects = objects.values.foldl indexStep ∅ := rfl
  have hl : ∀ r ∈ objects.values, ∀ r' ∈ objects.values, r.status = .active → r'.status = .active →
      r.currentOutpoint = some o → r'.currentOutpoint = some o → r.objectKey = r'.objectKey := by
    intro r hr r' hr' hs hs' ho ho'
    obtain ⟨k, hk⟩ := (JsMap.mem_values _ _).mp hr
    obtain ⟨k', hk'⟩ := (JsMap.mem_values _ _).mp hr'
    rw [named k r hk, named k' r' hk']
    exact distinct k k' r r' o hk hk' hs hs' ho ho'
  rw [hfold, get?_foldl_indexStep hl]
  simp only [JsMap.get?_empty, reduceCtorEq, and_false, or_false]
  constructor
  · rintro ⟨r, hr, hs, ho, rfl⟩
    obtain ⟨k, hk⟩ := (JsMap.mem_values _ _).mp hr
    exact ⟨r, (congrArg objects.get? (named k r hk)).trans hk, hs, ho⟩
  · rintro ⟨r, hr, hs, ho⟩
    exact ⟨r, (JsMap.mem_values _ _).mpr ⟨key, hr⟩, hs, ho, named key r hr⟩

theorem Settled.named {objects : JsMap Hash ObjectRecord} (h : Settled packages binding objects) : Named objects :=
  fun k r hr => (h.keyed k r hr).1

theorem Settled.distinctActive {objects : JsMap Hash ObjectRecord} (h : Settled packages binding objects) :
    DistinctActive objects :=
  fun k k' r r' o hr hr' _ _ ho ho' => h.distinct k k' r r' o hr hr' ho ho'

theorem Settled.of_same {m n : JsMap Hash ObjectRecord} (h : Settled packages binding m) (s : JsMap.Same m n) :
    Settled packages binding n where
  keyed k r hr := h.keyed k r ((s k).trans hr)
  distinct k k' r r' o hr hr' := h.distinct k k' r r' o ((s k).trans hr) ((s k').trans hr')
  uncarried k r hr := h.uncarried k r ((s k).trans hr)

/-! ### States that differ in the order of their maps -/

/-- The states have the same lookups and the same records. -/
structure SameState (w v : WorkingState) : Prop where
  /-- The objects. -/
  objects : JsMap.Same w.objects v.objects
  /-- The index. -/
  activeByOutpoint : JsMap.Same w.activeByOutpoint v.activeByOutpoint
  /-- The undo map. -/
  undo : w.undo = v.undo
  /-- The states created. -/
  newStates : w.newStates = v.newStates
  /-- The carriers spent. -/
  spentOutpoints : w.spentOutpoints = v.spentOutpoints
  /-- The chapters. -/
  chapters : w.chapters = v.chapters

/-- The states are the same and so are the events. -/
structure SameProgress (p q : Progress) : Prop where
  /-- The states. -/
  state : SameState p.state q.state
  /-- The events. -/
  events : p.events = q.events

theorem Named.of_same {m n : JsMap Hash ObjectRecord} (h : Named m) (s : JsMap.Same m n) : Named n :=
  fun k r hr => h k r ((s k).trans hr)

theorem DistinctActive.of_same {m n : JsMap Hash ObjectRecord} (h : DistinctActive m) (s : JsMap.Same m n) :
    DistinctActive n :=
  fun k k' r r' o hr hr' => h k k' r r' o ((s k).trans hr) ((s k').trans hr')

theorem SameState.start {m n : JsMap Hash ObjectRecord} (named : Named m) (distinct : DistinctActive m)
    (h : JsMap.Same m n) : SameState (.start m) (.start n) where
  objects := h
  activeByOutpoint o := by
    refine Option.ext fun key => ?_
    change (indexActive m).get? o = some key ↔ (indexActive n).get? o = some key
    rw [get?_indexActive named distinct, get?_indexActive (named.of_same h) (distinct.of_same h), h key]
  undo := rfl
  newStates := rfl
  spentOutpoints := rfl
  chapters := rfl

theorem SameState.touch {w v : WorkingState} (h : SameState w v) (k : Hash) :
    SameState (touch w k) (Indexer.touch v k) := by
  unfold Indexer.touch
  rw [← h.undo, ← h.objects k]
  split_ifs
  · exact h
  · exact ⟨h.objects, h.activeByOutpoint, rfl, h.newStates, h.spentOutpoints, h.chapters⟩

theorem SameState.spendCurrent {w v : WorkingState} (h : SameState w v) (r : ObjectRecord) (txid : Hash) :
    SameState (spendCurrent w r txid) (Indexer.spendCurrent v r txid) := by
  unfold Indexer.spendCurrent
  split
  · exact h
  · exact ⟨h.objects, h.activeByOutpoint.delete _, h.undo, h.newStates, congrArg (· ++ _) h.spentOutpoints, h.chapters⟩

theorem SameState.terminate {w v : WorkingState} (h : SameState w v) (r : ObjectRecord) (status : ObjectStatusName)
    (txid : Hash) (sequence : ℕ) :
    SameState (terminate w r status txid sequence) (Indexer.terminate v r status txid sequence) := by
  have hs := (h.touch r.objectKey).spendCurrent r txid
  exact ⟨hs.objects.set _ _, hs.activeByOutpoint, hs.undo, hs.newStates, hs.spentOutpoints, hs.chapters⟩

theorem SameState.advance {w v : WorkingState} (h : SameState w v) (r : ObjectRecord) (txid : Hash)
    (height sequence : ℕ) (key0 key1 : String) (chapter : Option ChapterContent) :
    SameState (advance w r txid height sequence key0 key1 chapter)
      (Indexer.advance v r txid height sequence key0 key1 chapter) := by
  have hs := (h.touch r.objectKey).spendCurrent r txid
  exact ⟨hs.objects.set _ _, hs.activeByOutpoint.set _ _, hs.undo, congrArg (· ++ _) hs.newStates,
    hs.spentOutpoints, congrArg (· ++ _) hs.chapters⟩

theorem SameState.create {w v : WorkingState} (h : SameState w v) (r : ObjectRecord) (o : Outpoint) :
    SameState (create w r o) (Indexer.create v r o) := by
  have hs := h.touch r.objectKey
  exact ⟨hs.objects.set _ _, hs.activeByOutpoint.set _ _, hs.undo, congrArg (· ++ _) hs.newStates,
    hs.spentOutpoints, hs.chapters⟩

/-! ### The computations -/

theorem SameState.recordOf {w v : WorkingState} (h : SameState w v) (key : Hash) :
    recordOf w key = Indexer.recordOf v key := by
  unfold Indexer.recordOf
  rw [h.objects key]

/-- The states after are the same and so is the event. -/
def SameDone (a b : WorkingState × EventRecord) : Prop := SameState a.1 b.1 ∧ a.2 = b.2

theorem applyValid_same {w v : WorkingState} (h : SameState w v) (activation : InitHeights)
    (transaction : BitcoinTransaction) (height : ℕ) (event : TransactionValidationEvent) (marker : Option Marker)
    (base : EventBase) :
    Agree SameDone (applyValid packages binding activation w transaction height event marker base)
      (applyValid packages binding activation v transaction height event marker base) := by
  unfold applyValid
  dsimp only
  split
  · exact .ok ⟨h, rfl⟩
  · exact .ok ⟨h.create _ _, rfl⟩
  · refine .bind_eq fun key => ?_
    rw [h.recordOf]
    exact .bind_eq fun r => .ok ⟨h.terminate _ _ _ _, rfl⟩
  iterate 3
    · refine .bind_eq fun key => ?_
      rw [h.recordOf]
      refine .bind_eq fun r => .bind_eq fun sequence => ?_
      split
      · exact .ok ⟨h.terminate _ _ _ _, rfl⟩
      · exact .ok ⟨h.advance _ _ _ _ _ _ _, rfl⟩
      · exact .ok ⟨h.advance _ _ _ _ _ _ _, rfl⟩
  · exact .error _
  · exact .error _

theorem applyEvent_same {w v : WorkingState} (h : SameState w v) (activation : InitHeights)
    (transaction : BitcoinTransaction) (height : ℕ) (marker : Option Marker) (candidates : List Candidate)
    (event : TransactionValidationEvent) (base : EventBase) :
    Agree SameDone (applyEvent packages binding activation transaction height marker candidates w event base)
      (applyEvent packages binding activation transaction height marker candidates v event base) := by
  unfold applyEvent
  split
  · exact applyValid_same h ..
  · refine .bind_eq fun key => ?_
    rw [h.recordOf]
    exact .bind_eq fun r => .ok ⟨h.terminate _ _ _ _, rfl⟩
  · exact .ok ⟨h, rfl⟩

theorem applyEvents_same {w v : WorkingState} (h : SameState w v) (activation : InitHeights)
    (transaction : BitcoinTransaction) (txIndex height : ℕ) (marker : Option Marker) (candidates : List Candidate)
    (events : List TransactionValidationEvent) :
    Agree SameProgress
      (applyEvents packages binding activation transaction txIndex height marker candidates w events)
      (applyEvents packages binding activation transaction txIndex height marker candidates v events) := by
  have hstart : SameProgress ⟨w, []⟩ ⟨v, []⟩ := ⟨h, rfl⟩
  refine .foldlM hstart fun entry _ p q hpq => ?_
  refine (applyEvent_same hpq.state ..).bind fun a b _ hab => ?_
  exact .ok ⟨hab.1, by rw [hpq.events, hab.2]⟩

theorem classifyTransaction_same {w v : WorkingState} (h : SameState w v) (activation : InitHeights)
    (transaction : BitcoinTransaction) (txIndex height : ℕ) :
    Agree SameProgress (classifyTransaction packages binding activation w transaction txIndex height)
      (classifyTransaction packages binding activation v transaction txIndex height) := by
  have hc : consumedRecords w transaction = consumedRecords v transaction := by
    unfold consumedRecords
    rw [funext h.activeByOutpoint, funext h.recordOf]
  unfold classifyTransaction
  rw [hc]
  refine .bind_eq fun consumed => .bind_eq fun evidence => .bind_eq fun carriers => .bind_eq fun result => ?_
  split_ifs
  · exact .ok ⟨h, rfl⟩
  · exact .bind_eq fun candidates => applyEvents_same h ..

theorem connectTransaction_same {p q : Progress} (h : SameProgress p q) (heights : InitHeights) (height : ℕ)
    (entry : OrderedTransaction) :
    Agree SameProgress (connectTransaction packages binding heights height p entry)
      (connectTransaction packages binding heights height q entry) := by
  have hr : isRelevant entry.transaction p.state.activeByOutpoint binding.initTxid =
      isRelevant entry.transaction q.state.activeByOutpoint binding.initTxid := by
    unfold isRelevant
    rw [funext fun o => h.state.activeByOutpoint.has o]
  unfold connectTransaction
  rw [hr]
  split_ifs
  · exact (classifyTransaction_same h.state ..).bind fun a b _ hab => .ok ⟨hab.state, by rw [h.events, hab.events]⟩
  · exact .ok h

/-- The INIT is the same and so is the progress. -/
def SameActivated (a b : Activated) : Prop := a.activation = b.activation ∧ SameProgress a.progress b.progress

theorem activateBlock_same {w v : WorkingState} (h : SameState w v) (activation : Option InitActivation)
    (block : BitcoinBlock) (ordered : List OrderedTransaction) :
    Agree SameActivated (activateBlock packages binding activation block ordered w)
      (activateBlock packages binding activation block ordered v) := by
  unfold activateBlock
  cases activation with
  | some a => exact .ok ⟨rfl, h, rfl⟩
  | none =>
    unfold confirmInit
    dsimp only
    split
    · exact .error _
    · refine .bind_eq fun heights => (classifyTransaction_same h ..).bind fun a b _ hab => .ok ?_
      rw [SameActivated, hab.events]
      exact ⟨rfl, hab.state, rfl⟩

/-- The blocks are the same up to the order of the object map. -/
def SameBlock (a b : ReducedBlock) : Prop := b = { a with objects := b.objects } ∧ JsMap.Same a.objects b.objects

theorem finishBlock_same {p q : Progress} (h : SameProgress p q) (named : Named p.state.objects) (previousRoot : Hash)
    (block : BitcoinBlock) (ordered : List OrderedTransaction) (activation : InitActivation) (initConfirmed : Bool) :
    Agree SameBlock (finishBlock packages binding previousRoot block ordered activation initConfirmed p)
      (finishBlock packages binding previousRoot block ordered activation initConfirmed q) := by
  have hperm := h.state.objects.values_perm
  have hnodup : ((p.state.objects.values.map snapshot).map ObjectSnapshot.objectKey).Nodup := by
    have hk : (p.state.objects.values.map snapshot).map ObjectSnapshot.objectKey = p.state.objects.keys := by
      rw [List.map_map, JsMap.values, JsMap.keys, List.map_map]
      refine List.map_congr_left fun e he => ?_
      exact named e.1 e.2 ((JsMap.mem_entries _ _ _).mp he)
    rw [hk]
    exact p.state.objects.nodup
  have hroot := objectStateRoot_perm packages.sha256 binding.ns (hperm.map snapshot) hnodup
  have hcount : ∀ f : ObjectRecord → Bool,
      (p.state.objects.values.filter f).length = (q.state.objects.values.filter f).length :=
    fun f => (hperm.filter f).length_eq
  unfold finishBlock
  dsimp only
  rw [h.events, hroot, hcount, hcount, hperm.length_eq]
  refine .bind_eq fun _ => .bind_eq fun _ => .bind_eq fun _ => .ok ⟨?_, h.state.objects⟩
  rw [h.state.undo, h.state.newStates, h.state.spentOutpoints, h.state.chapters]

/-- Maps with the same lookups are reduced to the same block, when the records end up under their keys. -/
theorem reduceBlock_same_of {m n : JsMap Hash ObjectRecord} (named : Named m) (distinct : DistinctActive m)
    (h : JsMap.Same m n) {activation : Option InitActivation} {block : BitcoinBlock}
    (final : ∀ ordered a p, orderedBlockTransactions block = .ok ordered →
      activateBlock packages binding activation block ordered (.start m) = .ok a →
      connectTransactions packages binding block.height ordered a = .ok p → Named p.state.objects)
    (previousRoot : Hash) :
    Agree SameBlock (reduceBlock packages binding activation previousRoot m block)
      (reduceBlock packages binding activation previousRoot n block) := by
  unfold reduceBlock
  cases ho : orderedBlockTransactions block with
  | error e => exact .error e
  | ok ordered =>
    have hstart := SameState.start named distinct h
    refine (activateBlock_same hstart activation block ordered).bind fun a b ha hab => ?_
    have hp : Agree SameProgress (connectTransactions packages binding block.height ordered a)
        (connectTransactions packages binding block.height ordered b) := by
      unfold connectTransactions
      rw [← hab.1]
      split
      · exact .foldlM hab.2 fun entry _ p q hpq => connectTransaction_same hpq ..
      · exact .ok hab.2
    refine hp.bind fun p q hpok hpq => ?_
    rw [← hab.1]
    exact finishBlock_same hpq (final ordered a p ho ha hpok) ..

/-- **The order of the object map is immaterial.** -/
theorem reduceBlock_same {m n : JsMap Hash ObjectRecord} (settled : Settled packages binding m) (h : JsMap.Same m n)
    (activation : Option InitActivation) (previousRoot : Hash) (block : BitcoinBlock) :
    Agree SameBlock (reduceBlock packages binding activation previousRoot m block)
      (reduceBlock packages binding activation previousRoot n block) :=
  reduceBlock_same_of settled.named settled.distinctActive h (fun _ _ _ ho ha hp k r hr =>
    (keyed_of_steps settled.keyed ((activateBlock_steps ho ha).trans (connectTransactions_steps ho hp)) k r hr).1)
    previousRoot

end IndexTandem.Indexer
