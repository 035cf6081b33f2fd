import IndexTandem.Api.BlockEvents
import IndexTandem.Indexer.Chronicle
import IndexTandem.Indexer.Refinement

/-!
# Following the block events

A consumer reads the events of the heights one after the other and keeps of every asset the outpoint that carries it. The
presented events are enough for that: every event leaves the outpoint at which the consumer has the asset, and at every
height the consumer has what the rows of the objects said when that was the tip (`feed_followed`). The reference engine
stands between them: its transitions are told by the rows of the events (`logged_of_replay`), and a presented event moves
an asset as the transition moves the object (`follow_transition`).

The events come in pages, and blocks are appended and rolled back between the requests. That makes no difference as long
as the blocks that were read are in the end those of the store (`pages_followed`).
-/

namespace IndexTandem.Api

open Library Protocol Database Indexer

variable {packages : Packages} {binding : Binding}

/-! ### A consumer -/

/-- What a consumer of the events knows of the assets: the outpoint that carries one, or that it is gone. -/
abbrev Ledger := Hash → Option (Option Outpoint)

/-- An event, followed: an asset is minted once, and then leaves the outpoint that carries it. -/
def follow (ledger : Ledger) (event : PresentedEvent) : Except String Ledger :=
  match event.assetId with
  | none => do
    ensure (event.operation = "deploy") "an operation without an asset"
    pure ledger
  | some asset => do
    if event.operation = "mint" then
      ensure (ledger asset = none ∧ event.inputOutpoint = none) "the asset exists"
    else
      ensure (event.inputOutpoint.isSome = true ∧ ledger asset = some event.inputOutpoint) "the asset is elsewhere"
    ensure (event.outputOutpoint.isSome = true ↔ event.operation = "mint" ∨ event.operation = "update")
      "a carrier without an operation"
    pure (Function.update ledger asset (some event.outputOutpoint))

/-- The events that are reported up to a height, in the order of the requests. -/
def feed (db : Db) (height : ℕ) : List PresentedEvent :=
  (List.range (height + 1)).flatMap fun height => (reported db height).map presentEvent

/-- What the objects say. -/
def ledgerOf (db : Db) : Ledger := fun key =>
  (db.objects.find? fun row => row.objectKey = key).map ObjectRow.currentOutpoint

/-! ### What an event tells -/

/-- The outpoints of an event go with its type. -/
structure Formed (told : Told) : Prop where
  /-- A terminal event is an exit. -/
  exits : told.validityClass = .TERMINAL_NONCANONICAL → told.eventType = .EXITED_NONCANONICAL
  /-- A new object spends no carrier. -/
  born : told.validityClass = .VALID_OPERATION → told.eventType = .CREATE → told.predecessorOutpoint = none
  /-- An object that ends has no carrier. -/
  ends : told.validityClass = .TERMINAL_NONCANONICAL ∨ told.validityClass = .VALID_OPERATION ∧
    (told.eventType = .CLOSE ∨ told.eventType = .REFUND) → told.successorOutpoint = none

theorem formed_of_effect {heights : InitHeights} {height : ℕ} {transaction : BitcoinTransaction} {w w' : WorkingState}
    {tolds : List Told} (h : Effect packages binding heights height transaction w w' tolds) :
    ∀ told ∈ tolds, Formed told := by
  have hexits : ∀ {txid : Hash} {keys : List Hash} {w w' : WorkingState} {tolds : List Told},
      Exits txid keys w w' tolds → ∀ told ∈ tolds, Formed told := by
    intro txid keys w w' tolds h
    induction h with
    | nil => exact fun told ht => absurd ht List.not_mem_nil
    | cons found rest ih =>
      intro told ht
      rcases List.mem_cons.mp ht with rfl | ht
      · exact ⟨fun _ => rfl, fun h => (by cases h), fun _ => rfl⟩
      · exact ih told ht
  intro told ht
  cases h with
  | silent => exact absurd ht List.not_mem_nil
  | invalid _ cls =>
    obtain rfl := List.mem_singleton.mp ht
    exact ⟨by simp [cls], by simp [cls], by simp [cls]⟩
  | init _ _ type cls =>
    obtain rfl := List.mem_singleton.mp ht
    exact ⟨by simp [cls], by simp [type], by simp [cls, type]⟩
  | created | marked | rotated | closed | refunded =>
    obtain rfl := List.mem_singleton.mp ht
    exact ⟨by simp [operated], by simp [operated], by simp [operated]⟩
  | exited _ _ exits => exact hexits exits told ht

theorem formed_of_effects {heights : InitHeights} {height : ℕ} {txs : List BitcoinTransaction} {w w' : WorkingState}
    {tolds : List Told} (h : Effects packages binding heights height txs w w' tolds) : ∀ told ∈ tolds, Formed told := by
  induction h with
  | nil => exact fun told ht => absurd ht List.not_mem_nil
  | cons first _ ih =>
    intro told ht
    rcases List.mem_append.mp ht with ht | ht
    · exact formed_of_effect first told ht
    · exact ih told ht

/-- What the row of an event tells. -/
def toldBy (row : EventRow) : Told where
  txid := row.txid
  eventType := row.eventType
  validityClass := row.validityClass
  objectKey := row.objectKey
  stateSequence := row.stateSequence
  predecessorOutpoint := row.predecessorOutpoint
  successorOutpoint := row.successorOutpoint
  key0 := row.key0
  key1 := row.key1

/-! ### Following the engine -/

/-- The outpoints of the engine's objects. -/
def carriedIn (states : States Hash Outpoint Hash) : Ledger := fun key =>
  (states.get? key).map IndexedObjectState.currentOutpoint

theorem carriedIn_set (states : States Hash Outpoint Hash) (key : Hash) (state : IndexedObjectState Hash Outpoint Hash) :
    carriedIn (states.set key state) = Function.update (carriedIn states) key (some state.currentOutpoint) := by
  funext other
  unfold carriedIn
  by_cases h : other = key
  · subst h
    simp
  · rw [Function.update_of_ne h, JsMap.get?_set_ne _ _ h]

/-- A new asset. -/
theorem follow_minted {row : EventRow} {ledger : Ledger} {key : Hash} {outpoint : Outpoint} (type : row.eventType = .CREATE)
    (named : row.objectKey = some key) (spends : row.predecessorOutpoint = none) (new : ledger key = none)
    (carried : row.successorOutpoint = some outpoint) :
    follow ledger (presentEvent row) = .ok (Function.update ledger key (some (some outpoint))) := by
  unfold follow presentEvent
  simp [type, named, operationOf, spends, new, carried, ensure, bind, Except.bind, pure, Except.pure]

/-- An asset that leaves its outpoint. -/
theorem follow_left {row : EventRow} {ledger : Ledger} {key : Hash} {outpoint : Outpoint} {carrier : Option Outpoint}
    (old : row.eventType ≠ .INIT ∧ operationOf row.eventType ≠ "mint") (named : row.objectKey = some key)
    (spends : row.predecessorOutpoint = some outpoint) (there : ledger key = some (some outpoint))
    (carried : row.successorOutpoint = carrier) (goes : carrier.isSome = true ↔ operationOf row.eventType = "update") :
    follow ledger (presentEvent row) = .ok (Function.update ledger key (some carrier)) := by
  obtain ⟨hinit, hmint⟩ := old
  unfold follow presentEvent
  simp [hinit, named, hmint, spends, there, carried, goes, ensure, bind, Except.bind, pure, Except.pure]

/-- **A reported event moves the asset as the engine moves the object.** -/
theorem follow_transition {row : EventRow} (formed : Formed (toldBy row)) {states states' : States Hash Outpoint Hash}
    {t : StateTransition Hash Outpoint Hash} (has : (toldBy row).transition = some t)
    (step : applyStateTransition states t = .ok states') :
    follow (carriedIn states) (presentEvent row) = .ok (carriedIn states') := by
  obtain ⟨next, hnext, hset⟩ := bind_eq_ok.mp step
  obtain rfl := pure_eq_ok.mp hset
  rw [carriedIn_set]
  -- The engine finds the object by its carrier.
  have hthere : ∀ {key : Hash} {current : IndexedObjectState Hash Outpoint Hash} {outpoint : Outpoint},
      requireActive (states.get? key) outpoint = .ok current → carriedIn states key = some (some outpoint) := by
    intro key current outpoint h
    obtain ⟨hget, -, hcarrier⟩ := requireActive_eq_ok.mp h
    unfold carriedIn
    rw [hget, Option.map_some, hcarrier]
  unfold Told.transition at has
  split at has
  case h_1 hcls htype =>
    simp only [toldBy, Option.bind_eq_bind, Option.bind_eq_some_iff, Option.pure_def, Option.some.injEq] at has
    obtain ⟨key, hkey, o', ho', key0, -, key1, -, rfl⟩ := has
    obtain ⟨_, hnew, h⟩ := bind_eq_ok.mp hnext
    obtain rfl := pure_eq_ok.mp h
    have hget : states.get? key = none := Option.isNone_iff_eq_none.mp (ensure_eq_ok.mp hnew)
    have hnone : carriedIn states key = none := by
      unfold carriedIn
      rw [hget, Option.map_none]
    exact follow_minted htype hkey (formed.born hcls htype) hnone ho'
  case h_2 hcls htype =>
    simp only [toldBy, Option.bind_eq_bind, Option.bind_eq_some_iff, Option.pure_def, Option.some.injEq] at has
    obtain ⟨key, hkey, o, ho, o', ho', key0, -, key1, -, rfl⟩ := has
    obtain ⟨current, hcurrent, h⟩ := bind_eq_ok.mp hnext
    obtain ⟨-, -, h⟩ := bind_eq_ok.mp h
    obtain rfl := pure_eq_ok.mp h
    have htype' : row.eventType = .MARK := htype
    exact follow_left (by simp [htype', operationOf]) hkey ho (hthere hcurrent) ho'
      (by simp [htype', operationOf, IndexedObjectState.movedOn])
  case h_3 hcls htype =>
    simp only [toldBy, Option.bind_eq_bind, Option.bind_eq_some_iff, Option.pure_def, Option.some.injEq] at has
    obtain ⟨key, hkey, o, ho, o', ho', key0, -, key1, -, rfl⟩ := has
    obtain ⟨current, hcurrent, h⟩ := bind_eq_ok.mp hnext
    obtain ⟨-, -, h⟩ := bind_eq_ok.mp h
    obtain rfl := pure_eq_ok.mp h
    have htype' : row.eventType = .ROTATE := htype
    exact follow_left (by simp [htype', operationOf]) hkey ho (hthere hcurrent) ho'
      (by simp [htype', operationOf, IndexedObjectState.movedOn])
  case h_4 hcls htype =>
    simp only [toldBy, Option.bind_eq_bind, Option.bind_eq_some_iff, Option.pure_def, Option.some.injEq] at has
    obtain ⟨key, hkey, o, ho, rfl⟩ := has
    obtain ⟨current, hcurrent, h⟩ := bind_eq_ok.mp hnext
    obtain ⟨-, -, h⟩ := bind_eq_ok.mp h
    obtain rfl := pure_eq_ok.mp h
    have htype' : row.eventType = .CLOSE := htype
    have hends := formed.ends (.inr ⟨hcls, .inl htype⟩)
    exact follow_left (by simp [htype', operationOf]) hkey ho (hthere hcurrent) hends
      (by simp [htype', operationOf, IndexedObjectState.finish])
  case h_5 hcls htype =>
    simp only [toldBy, Option.bind_eq_bind, Option.bind_eq_some_iff, Option.pure_def, Option.some.injEq] at has
    obtain ⟨key, hkey, o, ho, rfl⟩ := has
    obtain ⟨current, hcurrent, h⟩ := bind_eq_ok.mp hnext
    obtain rfl := pure_eq_ok.mp h
    have htype' : row.eventType = .REFUND := htype
    have hends := formed.ends (.inr ⟨hcls, .inr htype⟩)
    exact follow_left (by simp [htype', operationOf]) hkey ho (hthere hcurrent) hends
      (by simp [htype', operationOf, IndexedObjectState.finish])
  case h_6 hcls =>
    simp only [toldBy, Option.bind_eq_bind, Option.bind_eq_some_iff, Option.pure_def, Option.some.injEq] at has
    obtain ⟨key, hkey, o, ho, rfl⟩ := has
    obtain ⟨current, hcurrent, h⟩ := bind_eq_ok.mp hnext
    obtain rfl := pure_eq_ok.mp h
    have htype' : row.eventType = .EXITED_NONCANONICAL := formed.exits hcls
    have hends := formed.ends (.inl hcls)
    exact follow_left (by simp [htype', operationOf]) hkey ho (hthere hcurrent) hends
      (by simp [htype', operationOf, IndexedObjectState.finish])
  case h_7 => cases has

/-- `validity_class IN (?, ?)`. -/
def isReportable (row : EventRow) : Bool :=
  row.validityClass = .VALID_OPERATION || row.validityClass = .TERMINAL_NONCANONICAL

/-- The rows tell what happened to the objects, and nothing else did. -/
structure Logged (rows : List EventRow) (objects : JsMap Hash ObjectRecord) : Prop where
  /-- Their transitions lead to the objects. -/
  run : (rows.filterMap fun row => (toldBy row).transition).foldlM applyStateTransition ∅ = .ok (projection objects)
  /-- The outpoints go with the types. -/
  formed : ∀ row ∈ rows, Formed (toldBy row)
  /-- A row has a transition exactly when it changes an object. -/
  classified : ∀ row ∈ rows, (toldBy row).transition.isSome = (toldBy row).changes
  /-- They are in order. -/
  sorted : rows.Pairwise fun row later =>
    row.blockHeight < later.blockHeight ∨ row.blockHeight = later.blockHeight ∧ position row < position later

theorem follow_deploy {row : EventRow} (type : row.eventType = .INIT) (ledger : Ledger) :
    follow ledger (presentEvent row) = .ok ledger := by
  simp [follow, presentEvent, type, operationOf, ensure, bind, Except.bind, pure, Except.pure]

/-- **The reported events move the assets as the engine moves the objects.** -/
theorem follow_rows {rows : List EventRow} (formed : ∀ row ∈ rows, Formed (toldBy row))
    (classified : ∀ row ∈ rows, (toldBy row).transition.isSome = (toldBy row).changes)
    {states states' : States Hash Outpoint Hash}
    (run : (rows.filterMap fun row => (toldBy row).transition).foldlM applyStateTransition states = .ok states') :
    ((rows.filter isReportable).map presentEvent).foldlM follow (carriedIn states) = .ok (carriedIn states') := by
  induction rows generalizing states with
  | nil =>
    obtain rfl := pure_eq_ok.mp run
    rfl
  | cons row rows ih =>
    have hrest := fun {s} => @ih (fun r hr => formed r (List.mem_cons_of_mem _ hr))
      (fun r hr => classified r (List.mem_cons_of_mem _ hr)) s
    have hchanges := classified row List.mem_cons_self
    cases hhas : (toldBy row).transition with
    | some t =>
      rw [hhas, Option.isSome_some] at hchanges
      simp only [List.filterMap_cons, hhas] at run
      obtain ⟨next, hnext, run⟩ := bind_eq_ok.mp run
      have hreported : isReportable row = true := by
        unfold Told.changes at hchanges
        cases hcls : row.validityClass <;> simp_all [isReportable, toldBy]
      rw [List.filter_cons_of_pos hreported, List.map_cons]
      exact bind_eq_ok.mpr ⟨_, follow_transition (formed row List.mem_cons_self) hhas hnext, hrest run⟩
    | none =>
      rw [hhas, Option.isSome_none] at hchanges
      simp only [List.filterMap_cons, hhas] at run
      cases hreported : isReportable row with
      | false =>
        rw [List.filter_cons_of_neg (Bool.eq_false_iff.mp hreported)]
        exact hrest run
      | true =>
        have hinit : row.eventType = .INIT := by
          unfold Told.changes at hchanges
          cases hcls : row.validityClass <;> simp_all [isReportable, toldBy]
        rw [List.filter_cons_of_pos hreported, List.map_cons]
        exact bind_eq_ok.mpr ⟨_, follow_deploy hinit _, hrest run⟩

/-! ### The store -/

/-- **The rows of a replay tell what happened.** -/
theorem logged_of_replay (contract : ValidatorContract packages.validate) {chain : List BitcoinBlock} {index : Index}
    (replay : Replay packages binding chain index) (d : Distinct packages binding chain) (once : SpendsOnce chain) :
    Logged index.db.events index.objects := by
  induction replay with
  | empty => exact ⟨rfl, fun row h => absurd h List.not_mem_nil, fun row h => absurd h List.not_mem_nil, .nil⟩
  | @connect chain index block reduced db replay follows reduces writes ih =>
    obtain ⟨rfl, -⟩ := writeBlock_ok writes
    obtain ⟨hrun, hformed, hclassified, hsorted⟩ := ih d.tail fun b hb => once b (List.mem_cons_of_mem _ hb)
    obtain ⟨log, reached⟩ := replay.reached
    obtain ⟨hstep, hchanges⟩ := reduced_refines contract reached d (once block List.mem_cons_self) reduces
    obtain ⟨heights, txs, w, hreduces⟩ := reduceBlock_effects contract (reached.admissible contract d) reduces
    have htold := formed_of_effects hreduces.effects
    obtain ⟨_, -, hheight, -⟩ := reduceBlock_steps reduces
    have hbelow : ∀ row ∈ index.db.events, row.blockHeight < reduced.height := fun row hrow =>
      hheight ▸ (replay.sourced contract d.tail).below replay follows (replay.mirrors.stamped.events row hrow)
    have hinOrder := (reduceBlock_events reduces).inOrder
    refine ⟨?_, fun row hrow => ?_, fun row hrow => ?_, ?_⟩
    · change ((index.db.events ++ reduced.events.map (eventRow reduced.height)).filterMap _).foldlM _ _ = _
      rw [List.filterMap_append, foldlM_append_ok, List.filterMap_map]
      exact ⟨_, hrun, hstep⟩
    · rcases List.mem_append.mp hrow with hrow | hrow
      · exact hformed row hrow
      · obtain ⟨event, he, rfl⟩ := List.mem_map.mp hrow
        exact htold _ (List.mem_map_of_mem he)
    · rcases List.mem_append.mp hrow with hrow | hrow
      · exact hclassified row hrow
      · obtain ⟨event, he, rfl⟩ := List.mem_map.mp hrow
        exact hchanges event he
    · refine List.pairwise_append.mpr ⟨hsorted, List.pairwise_map.mpr (hinOrder.imp fun {e e'} hbefore => ?_),
        fun row hrow later hlater => ?_⟩
      · refine .inr ⟨rfl, ?_⟩
        unfold EventBase.Before at hbefore
        unfold position
        rw [Prod.Lex.toLex_lt_toLex, Prod.Lex.toLex_lt_toLex]
        exact hbefore
      · obtain ⟨event, -, rfl⟩ := List.mem_map.mp hlater
        exact .inl (hbelow row hrow)

/-- The rows of the objects and the objects of the engine have the same outpoints. -/
theorem ledgerOf_eq {objects : JsMap Hash ObjectRecord} {db : Db} (m : Mirrors packages binding objects db) :
    ledgerOf db = carriedIn (projection objects) := by
  funext key
  unfold ledgerOf carriedIn projection
  rw [JsMap.get?_mapValues, Option.map_map]
  cases hr : objects.get? key with
  | none =>
    have hnone : (db.objects.find? fun row => row.objectKey = key) = none := by
      refine List.find?_eq_none.mpr fun row hrow hkey => ?_
      obtain ⟨k, r, hk, rfl⟩ := (m.rows row).mp hrow
      have hsame : k = key := (m.keyed k r hk).1.symm.trans (of_decide_eq_true hkey)
      rw [hsame, hr] at hk
      cases hk
    rw [hnone, Option.map_none, Option.map_none]
  | some r =>
    have hmem : objectRow r ∈ db.objects := (m.rows _).mpr ⟨key, r, hr, rfl⟩
    have hfound := find?_key m.nodup hmem
    rw [show (objectRow r).objectKey = key from (m.keyed key r hr).1] at hfound
    rw [hfound]
    rfl

/-- What is read of the heights, one after the other, are the events in their order. -/
theorem feed_eq {db : Db} {objects : JsMap Hash ObjectRecord} (logged : Logged db.events objects) (height : ℕ) :
    feed db height = ((db.events.filter fun row => row.blockHeight ≤ height).filter isReportable).map presentEvent := by
  have hreported : ∀ h, reported db h = db.events.filter (isReported h) := by
    intro h
    have hsorted : (db.events.filter (isReported h)).Pairwise fun row later => position row < position later := by
      refine (logged.sorted.filter (isReported h)).imp_of_mem fun {row later} hrow hlater hbefore => ?_
      have hr := (List.mem_filter.mp hrow).2
      have hl := (List.mem_filter.mp hlater).2
      simp only [isReported, Bool.and_eq_true, decide_eq_true_eq] at hr hl
      rcases hbefore with hlow | ⟨-, hpos⟩
      · omega
      · exact hpos
    have hnodup : ((db.events.filter (isReported h)).map position).Nodup :=
      List.pairwise_map.mpr (hsorted.imp fun hlt => hlt.ne)
    exact eq_of_sorted orderBy_perm (orderBy_sorted hnodup) hsorted
  unfold feed
  rw [← List.map_flatMap]
  congr 1
  -- The heights of the events do not go down.
  have hascending : ((db.events.filter fun row => row.blockHeight ≤ height).filter isReportable).Pairwise
      fun row later => row.blockHeight ≤ later.blockHeight := by
    refine ((logged.sorted.filter _).filter _).imp fun {row later} hbefore => ?_
    rcases hbefore with hlow | ⟨hsame, -⟩
    · exact hlow.le
    · exact hsame.le
  have hbelow : ∀ row ∈ (db.events.filter fun row => row.blockHeight ≤ height).filter isReportable,
      row.blockHeight < height + 1 := by
    intro row hrow
    have := (List.mem_filter.mp (List.mem_filter.mp hrow).1).2
    simp only [decide_eq_true_eq] at this
    omega
  refine Eq.trans (List.flatMap_congr fun h hh => ?_) (flatMap_filter_range hascending hbelow)
  rw [hreported, List.filter_filter, List.filter_filter]
  refine List.filter_congr fun row _ => ?_
  have := List.mem_range.mp hh
  unfold isReported isReportable
  by_cases hat : row.blockHeight = h
  · have hle : h ≤ height := by omega
    simp [hat, hle]
  · simp [hat]

/-- The events of the blocks up to a height are those of their own replay. -/
theorem events_upTo (contract : ValidatorContract packages.validate) {chain : List BitcoinBlock} {index : Index}
    (replay : Replay packages binding chain index) (d : Distinct packages binding chain) (height : ℕ) :
    ∃ index', Replay packages binding (upTo height chain) index' ∧
      index'.db.events = index.db.events.filter fun row => row.blockHeight ≤ height := by
  induction replay with
  | empty => exact ⟨_, .empty, rfl⟩
  | @connect chain index block reduced db replay follows reduces writes ih =>
    obtain ⟨_, -, hheight, -⟩ := reduceBlock_steps reduces
    have hbelow : ∀ row ∈ index.db.events, row.blockHeight < reduced.height := fun row hrow =>
      hheight ▸ (replay.sourced contract d.tail).below replay follows (replay.mirrors.stamped.events row hrow)
    by_cases hb : height < block.height
    · obtain ⟨index', replay', hevents⟩ := ih d.tail
      obtain ⟨rfl, -⟩ := writeBlock_ok writes
      refine ⟨index', ?_, ?_⟩
      · have hdrop : upTo height (block :: chain) = upTo height chain := by simp [upTo, hb]
        rw [hdrop]
        exact replay'
      · have hnew : ((reduced.events.map (eventRow reduced.height)).filter fun row => row.blockHeight ≤ height) = [] := by
          refine List.filter_eq_nil_iff.mpr fun row hrow => ?_
          obtain ⟨event, -, rfl⟩ := List.mem_map.mp hrow
          have hheight' : (eventRow reduced.height event).blockHeight = block.height := hheight
          simpa [hheight'] using hb
        change _ = (index.db.events ++ reduced.events.map (eventRow reduced.height)).filter _
        rw [List.filter_append, hnew, List.append_nil, hevents]
    · refine ⟨Index.next reduced db, ?_, ?_⟩
      · have hkeep : upTo height (block :: chain) = block :: chain := by simp [upTo, hb]
        rw [hkeep]
        exact replay.connect follows reduces writes
      · obtain ⟨rfl, -⟩ := writeBlock_ok writes
        refine (List.filter_eq_self.mpr fun row hrow => ?_).symm
        rcases List.mem_append.mp hrow with hrow | hrow
        · have := hbelow row hrow
          simp
          omega
        · obtain ⟨event, -, rfl⟩ := List.mem_map.mp hrow
          have hheight' : (eventRow reduced.height event).blockHeight = block.height := hheight
          simpa [hheight'] using hb

/-- **Whoever follows the events has what the objects say**, at every height. -/
theorem feed_followed (contract : ValidatorContract packages.validate) {history : History} {db : Db}
    (stored : Stored packages binding history db) (d : Distinct packages binding history.blocks)
    (once : SpendsOnce history.blocks) (height : ℕ) {db' : Db}
    (holds : Holds packages binding (upTo height history.blocks) db') :
    (feed db height).foldlM follow (fun _ => none) = .ok (ledgerOf db') := by
  obtain ⟨index, replay, htab⟩ := stored.recorded.1
  obtain ⟨j, rfl⟩ : ∃ j, db = withReorgs j index.db := ⟨_, tables_eq_iff.mp htab⟩
  obtain ⟨index', replay', hevents⟩ := events_upTo contract replay d height
  obtain ⟨index'', replay'', htab'⟩ := holds
  obtain rfl := replay''.unique replay'
  obtain ⟨j', rfl⟩ : ∃ j, db' = withReorgs j index'.db := ⟨_, tables_eq_iff.mp htab'⟩
  obtain ⟨newer, hnewer⟩ : upTo height history.blocks <:+ history.blocks := List.dropWhile_suffix _
  have hdistinct : Distinct packages binding (newer ++ upTo height history.blocks) := by
    rw [hnewer]
    exact d
  have honce : SpendsOnce (upTo height history.blocks) := fun b hb => once b ((List.dropWhile_sublist _).subset hb)
  have logged' := logged_of_replay contract replay' hdistinct.of_append honce
  have hfeed : feed (withReorgs j index.db) height = (index'.db.events.filter isReportable).map presentEvent :=
    (feed_eq (logged_of_replay contract replay d once) height).trans (by rw [hevents])
  have hempty : carriedIn ∅ = fun _ => none := by
    funext key
    simp [carriedIn]
  rw [hfeed, ← hempty, show ledgerOf (withReorgs j' index'.db) = ledgerOf index'.db from rfl,
    ledgerOf_eq replay'.mirrors]
  exact follow_rows logged'.formed logged'.classified logged'.run

/-! ### Reading the pages -/

section

variable {network : String} {db : Db} {height : ℕ}

/-- The pages of a session that has come to its end are the events of the block, whatever the stores were that it read. -/
theorem Session.complete {rawHeight : Argument} {visits : List Visit} {hash : Hash}
    (session : Session network rawHeight none visits) (checked : checkedHeight rawHeight = .ok height)
    (positioned : Positioned db height) (apart : ∀ visit ∈ visits, Positioned visit.db height)
    (determined : ∀ visit ∈ visits, Indexer.blockHash visit.db height = some hash →
      (eventsAt visit.db height).Perm (eventsAt db height))
    (named : ∀ visit, visits.head? = some visit → visit.page.blockHash = some hash)
    (ended : ∀ visit, visits.getLast? = some visit → visit.page.complete = true) :
    (visits.flatMap fun visit => visit.page.events) = (reported db height).map presentEvent := by
  have hnone : (none : Option String) =
      (none : Option (ℕ ×ₗ ℕ ×ₗ ℕ)).map fun place => encodeBlockEventsCursor (cursorAt height hash place) := rfl
  have hsame : ∀ visit ∈ visits, Indexer.blockHash visit.db height = some hash →
      reported visit.db height = reported db height := by
    intro visit hvisit hstored
    have hperm := (determined visit hvisit hstored).filter (isReported height)
    rw [filter_eventsAt, filter_eventsAt] at hperm
    exact orderBy_congr hperm (apart visit hvisit)
  obtain ⟨slices, reading, hall⟩ := session.reading hnone checked hsame apart fun _ => named
  obtain ⟨rest, hrest, hdone, -⟩ := reading.items (orderBy_sorted positioned)
  rw [following_none] at hrest
  obtain ⟨first, hfirst, -⟩ := session.first
  obtain ⟨last, hlast⟩ : ∃ last, visits.getLast? = some last :=
    List.getLast?_isSome.mpr (fun hnil => by simp [hnil] at hfirst) |> Option.isSome_iff_exists.mp
  obtain ⟨slice, hslice, presents⟩ := getLast_presents hall hlast
  have hcomplete := presents.complete.symm.trans (ended last hlast)
  have hend := hdone slice hslice (Option.isNone_iff_eq_none.mp hcomplete)
  rw [flatMap_presents hall, show reported db height = slices.flatMap Slice.items ++ rest from hrest, hend,
    List.append_nil]

/-- What a consumer reads of a height: nothing as long as no block is there, and all pages of its events. -/
inductive HeightRead (network : String) (db : Db) (height : ℕ) : List Visit → Prop
  /-- No block. -/
  | absent (unstored : Indexer.blockHash db height = none) : HeightRead network db height []
  /-- The pages of a block. -/
  | pages {rawHeight : Argument} {hash : Hash} {visits : List Visit} (stored : Indexer.blockHash db height = some hash)
      (checked : checkedHeight rawHeight = .ok height) (session : Session network rawHeight none visits)
      (named : ∀ visit, visits.head? = some visit → visit.page.blockHash = some hash)
      (ended : ∀ visit, visits.getLast? = some visit → visit.page.complete = true) : HeightRead network db height visits

theorem reported_of_unstored {chain : List BitcoinBlock} (holds : Holds packages binding chain db)
    (unstored : Indexer.blockHash db height = none) : reported db height = [] := by
  obtain ⟨index, replay, htab⟩ := holds
  obtain ⟨j, rfl⟩ : ∃ j, db = withReorgs j index.db := ⟨_, tables_eq_iff.mp htab⟩
  have hnone : index.db.events.filter (isReported height) = [] := by
    refine List.filter_eq_nil_iff.mpr fun row hrow hreported => ?_
    simp only [isReported, Bool.and_eq_true, decide_eq_true_eq] at hreported
    obtain ⟨block, hblock, hheight⟩ := List.mem_map.mp (replay.mirrors.stamped.events row hrow)
    have hfound := List.find?_eq_none.mp (Option.map_eq_none_iff.mp unstored) block hblock
    simp [hheight, hreported.1] at hfound
  exact List.perm_nil.mp (hnone ▸ orderBy_perm)

end

/-- **Whoever follows the pages has what the objects say.** A consumer reads the heights in order, while the sync
service appends and rolls back, and in the end has read all pages of the blocks that the store has now up to a height.
Then no event contradicted what it had, and it has the outpoints of the objects at that height. -/
theorem pages_followed (contract : ValidatorContract packages.validate) {network : String} {history : History} {db : Db}
    (stored : Stored packages binding history db) (d : Distinct packages binding history.blocks)
    (once : SpendsOnce history.blocks) {height : ℕ} {sessions : ℕ → List Visit}
    (reads : ∀ k ≤ height, HeightRead network db k (sessions k))
    (reached : ∀ k ≤ height, ∀ visit ∈ sessions k, ∃ history', Stored packages binding history' visit.db)
    (determined : ∀ k ≤ height, ∀ visit ∈ sessions k, Indexer.blockHash visit.db k = Indexer.blockHash db k →
      (eventsAt visit.db k).Perm (eventsAt db k))
    {db' : Db} (holds : Holds packages binding (upTo height history.blocks) db') :
    ((List.range (height + 1)).flatMap fun k => (sessions k).flatMap fun visit => visit.page.events).foldlM follow
      (fun _ => none) = .ok (ledgerOf db') := by
  have hpages : ((List.range (height + 1)).flatMap fun k => (sessions k).flatMap fun visit => visit.page.events) =
      feed db height := by
    refine List.flatMap_congr fun k hk => ?_
    have hle : k ≤ height := Nat.lt_succ_iff.mp (List.mem_range.mp hk)
    have hread := reads k hle
    generalize hvisits : sessions k = visits at hread
    cases hread with
    | absent unstored =>
      rw [reported_of_unstored stored.recorded.1 unstored]
      rfl
    | pages hstored checked session named ended =>
      refine session.complete checked (positioned_of_stored stored k) (fun visit hvisit => ?_)
        (fun visit hvisit hsame => determined k hle visit (hvisits ▸ hvisit) (hsame.trans hstored.symm)) named ended
      obtain ⟨history', stored'⟩ := reached k hle visit (hvisits ▸ hvisit)
      exact positioned_of_stored stored' k
  rw [hpages]
  exact feed_followed contract stored d once height holds

/-- A consumer reads both blocks, an event at a time; the second one is appended while it reads the first. -/
theorem pages_followed_sample : ∃ (db : Db) (sessions : ℕ → List Visit), db.objects.length = 2 ∧
    2 ≤ (sessions 200).length ∧ 2 ≤ (sessions 201).length ∧ (∃ visit ∈ sessions 200, visit.db.objects.length = 1) ∧
      ((List.range 202).flatMap fun k => (sessions k).flatMap fun visit => visit.page.events).foldlM follow
        (fun _ => none) = .ok (ledgerOf db) := by
  obtain ⟨story, ran, told⟩ := Story.exists_told
  have checked : checkedHeight (.text "200") = .ok 200 := ok_of_toOption (by decide +kernel)
  have checked' : checkedHeight (.text "201") = .ok 201 := ok_of_toOption (by decide +kernel)
  have limited : checkedLimit (.text "1") = .ok 1 := ok_of_toOption (by decide +kernel)
  have ready : readySnapshot.ready = true := by decide +kernel
  obtain ⟨serves, serves'⟩ := story_serves ran told
  obtain ⟨visits, session, named, ended, stores, count⟩ := @Serves.session "regtest" _ _ _ _ _ _ _ _ serves checked
    limited ready (story_issuable told (.inl rfl) _) none fun _ h => by cases h
  obtain ⟨visits', session', named', ended', stores', count'⟩ := @Serves.session "regtest" _ _ _ _ _ _ _ _
    (fun _ => serves') checked' limited ready (story_issuable told (.inr rfl) _) none fun _ h => by cases h
  obtain ⟨two, two'⟩ := story_reported told
  rw [following_none, two, Nat.one_mul] at count
  rw [following_none, two', Nat.one_mul] at count'
  obtain ⟨hone, -⟩ := story_sides told (by omega) stores
  have hstored : ∀ height : ℕ, Indexer.blockHash story.db height =
      ([(200, sampleHash 2), (201, sampleHash 4)].find? fun stored : ℕ × Hash => (stored.1 : ℤ) = height).map Prod.snd :=
    fun height => story_blockHash ran told 1 height
  have reads : ∀ k ≤ 201, HeightRead "regtest" story.db k (if k = 200 then visits else if k = 201 then visits' else []) := by
    intro k _
    by_cases hk : k = 200
    · subst hk
      rw [if_pos rfl]
      exact .pages (serves 1).stored checked session named ended
    · by_cases hk' : k = 201
      · subst hk'
        rw [if_neg hk, if_pos rfl]
        exact .pages serves'.stored checked' session' named' ended'
      · rw [if_neg hk, if_neg hk']
        refine .absent ((hstored k).trans ?_)
        simp [Ne.symm hk, Ne.symm hk']
  have own : ∀ k, ∀ visit ∈ (if k = 200 then visits else if k = 201 then visits' else []), ∃ i,
      visit.db = storyStore story i := by
    intro k visit hvisit
    split_ifs at hvisit
    · obtain ⟨i, hi⟩ := List.mem_iff_getElem?.mp hvisit
      exact ⟨i, stores i visit hi⟩
    · obtain ⟨i, hi⟩ := List.mem_iff_getElem?.mp hvisit
      exact ⟨1, stores' i visit hi⟩
    · cases hvisit
  have holds : Holds lifePackages sampleBinding (upTo (201 : ℕ) (History.blocks
      [(laterBlock, story.db), (openBlock, story.before)])) story.db := (Story.stored ran).2.recorded.1
  refine ⟨story.db, fun k => if k = 200 then visits else if k = 201 then visits' else [], ?_, count, count', hone,
    pages_followed (validateTandemTransaction_contract lifeChecks_sound) (Story.stored ran).2 story_distinct story_once
      reads (fun k _ visit hvisit => ?_) (fun k _ visit hvisit => ?_) holds⟩
  · simpa using congrArg List.length told.objects.2
  · obtain ⟨i, hi⟩ := own k visit hvisit
    exact hi ▸ storyStore_stored ran i
  · obtain ⟨i, hi⟩ := own k visit hvisit
    rw [hi]
    exact story_determined ran told (j := 1)

end IndexTandem.Api
