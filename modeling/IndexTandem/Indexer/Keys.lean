import IndexTandem.Indexer.Emission
import IndexTandem.Indexer.Growth
import IndexTandem.Indexer.Rollback
import IndexTandem.Indexer.Statements

/-!
# Appending never violates a key

On a chain whose transactions have txids and object keys of their own, and whose blocks
have hashes of their own, what the next block writes has new keys (`Admitted`), its
events are in order, and each of its spent marks finds one state and one carrier that
is unspent (`KeysKept`). This holds after any sequence of appends and rollbacks, and for
each block of an append of several (`append_keysKept`): a statement can only be refused
because a value does not fit its column.

The invariant of the run is that every txid in a table is one of the chain's, and that
no state or chapter of an object is ahead of its sequence (`Sourced`).
-/

namespace IndexTandem.Indexer

open Library Protocol Database

variable {packages : Packages} {binding : Binding}

/-! ### Distinct chains -/

/-- The txids of the blocks of a chain. -/
def txidsOf (chain : List BitcoinBlock) : List Hash :=
  chain.flatMap fun block => block.transactions.map BitcoinTransaction.txid

@[simp] theorem txidsOf_cons (block : BitcoinBlock) (chain : List BitcoinBlock) :
    txidsOf (block :: chain) = block.transactions.map BitcoinTransaction.txid ++ txidsOf chain := rfl

/-- Txids are unique along the chain, no two of them have the same object key, and the blocks have different
hashes. -/
structure Distinct (packages : Packages) (binding : Binding) (chain : List BitcoinBlock) : Prop where
  /-- Different txids. -/
  txids : (txidsOf chain).Nodup
  /-- Different object keys. -/
  keys : ((txidsOf chain).map (keyOf packages binding)).Nodup
  /-- Different hashes. -/
  hashes : (chain.map BitcoinBlock.hash).Nodup

section

variable {block : BitcoinBlock} {chain : List BitcoinBlock} (d : Distinct packages binding (block :: chain))

include d

theorem Distinct.tail : Distinct packages binding chain where
  txids := (List.nodup_append.mp d.txids).2.1
  keys := by
    have h := d.keys
    rw [txidsOf_cons, List.map_append] at h
    exact (List.nodup_append.mp h).2.1
  hashes := (List.nodup_cons.mp d.hashes).2

theorem Distinct.own : (block.transactions.map BitcoinTransaction.txid).Nodup :=
  (List.nodup_append.mp d.txids).1

theorem Distinct.not_earlier {txid : Hash} (h : txid ∈ block.transactions.map BitcoinTransaction.txid) :
    txid ∉ txidsOf chain :=
  fun h' => (List.nodup_append.mp d.txids).2.2 txid h txid h' rfl

theorem Distinct.key_ne {txid earlier : Hash} (h : txid ∈ block.transactions.map BitcoinTransaction.txid)
    (h' : earlier ∈ txidsOf chain) : keyOf packages binding earlier ≠ keyOf packages binding txid := by
  have hkeys := d.keys
  rw [txidsOf_cons, List.map_append] at hkeys
  exact fun he => (List.nodup_append.mp hkeys).2.2 _ (List.mem_map_of_mem h) _ (List.mem_map_of_mem h') he.symm

end

theorem Distinct.of_append {newer chain : List BitcoinBlock} (d : Distinct packages binding (newer ++ chain)) :
    Distinct packages binding chain := by
  induction newer with
  | nil => exact d
  | cons block newer ih => exact ih d.tail

/-! ### The invariant of the run -/

/-- The object and the sequence of a stored state. -/
def stateNumber (row : StateRow) : Hash × ℕ := (row.objectKey, row.sequence)

/-- The object and the sequence of a stored chapter. -/
def chapterNumber (row : ChapterRow) : Hash × ℕ := (row.objectKey, row.sequence)

/-- What the tables hold comes from the blocks of the chain. -/
structure Sourced (chain : List BitcoinBlock) (index : Index) : Prop where
  /-- The blocks. -/
  blocks : ∀ row ∈ index.db.blocks, ∃ block ∈ chain, row.height = block.height ∧ row.hash = block.hash
  /-- The transactions. -/
  transactions : ∀ row ∈ index.db.transactions, row.txid ∈ txidsOf chain
  /-- The carriers of the states. -/
  states : ∀ row ∈ index.db.states, row.outpoint.txid ∈ txidsOf chain
  /-- The chapters. -/
  chapters : ∀ row ∈ index.db.chapters, row.txid ∈ txidsOf chain
  /-- The objects. -/
  objects : ∀ k r, index.objects.get? k = some r → r.createTxid ∈ txidsOf chain
  /-- The states are numbered as their objects are. -/
  stateNumbers : Numbered index.objects (index.db.states.map stateNumber)
  /-- So are the chapters. -/
  chapterNumbers : Numbered index.objects (index.db.chapters.map chapterNumber)

theorem Sourced.empty : Sourced [] (Index.empty packages binding) := by
  refine ⟨?_, ?_, ?_, ?_, ?_, ⟨List.nodup_nil, ?_⟩, List.nodup_nil, ?_⟩ <;>
    simp [Index.empty, Db.empty, Cursor.initial]

section

variable {chain : List BitcoinBlock} {index : Index} {block : BitcoinBlock}

/-- **The next block may be reduced.** -/
theorem Sourced.admissible (s : Sourced chain index) (replay : Replay packages binding chain index)
    (d : Distinct packages binding (block :: chain)) :
    Admissible packages binding index.activation index.objects block where
  named := replay.mirrors.settled.named
  distinct := replay.mirrors.settled.distinctActive
  unused := by
    refine ⟨fun txid ht => ?_, fun txid ht k r hr _ ho => ?_, d.own, ?_⟩
    · show index.objects.get? (keyOf packages binding txid) = none
      rw [Option.eq_none_iff_forall_not_mem]
      intro r hr
      exact d.key_ne ht (s.objects _ r hr) (replay.mirrors.keyed _ r hr).2
    · obtain ⟨h, -, hrow⟩ := replay.mirrors.carried k r _ hr ho
      exact d.not_earlier ht (s.states _ hrow)
    · have h := d.keys
      rw [txidsOf_cons, List.map_append] at h
      exact (List.nodup_append.mp h).1
  behind := by
    intro hact tx htx hid
    obtain ⟨a, ha⟩ := Option.ne_none_iff_exists'.mp hact
    obtain ⟨first, hfirst, -, -, -, tx', htx', hid'⟩ := replay.activation ha
    refine d.not_earlier (List.mem_map_of_mem htx) (List.mem_flatMap.mpr ⟨first, ?_, ?_⟩)
    · exact List.mem_of_getLast? hfirst
    · rw [hid, ← hid']
      exact List.mem_map_of_mem htx'
  bare := by
    intro hact k
    obtain rfl := replay.loadActivation.2.mp hact
    cases replay
    rfl

variable {reduced : ReducedBlock} {heights : InitHeights} {txs : List BitcoinTransaction} {w : WorkingState}
  (s : Sourced chain index) (replay : Replay packages binding chain index)
  (d : Distinct packages binding (block :: chain))
  (red : Reduces packages binding index.objects block reduced heights txs w)

include s replay d red

/-- What the block's effects start from has nothing of them yet. -/
theorem Sourced.unused : Live (.start index.objects) ∧
    Unused packages binding (.start index.objects) (txs.map BitcoinTransaction.txid) := by
  have input := s.admissible replay d
  have hsub : (txs.map BitcoinTransaction.txid).Sublist (block.transactions.map BitcoinTransaction.txid) :=
    red.part.map _
  refine ⟨.start input.named input.distinct, ⟨fun txid ht => ?_, fun txid ht => ?_, ?_, ?_⟩⟩
  · exact input.unused.keys txid (hsub.subset ht)
  · exact input.unused.outpoints txid (hsub.subset ht)
  · exact input.unused.distinct.sublist hsub
  · exact input.unused.apart.sublist (hsub.map _)

/-- The states and chapters, with those of the block, are numbered. -/
theorem Sourced.numbered :
    Numbered reduced.objects (index.db.states.map stateNumber ++ reduced.newStates.map NewState.number) ∧
      Numbered reduced.objects (index.db.chapters.map chapterNumber ++ reduced.chapters.map NewChapter.number) := by
  obtain ⟨live, unused⟩ := s.unused replay d red
  rw [red.objects, red.newStates, red.chapters]
  refine red.effects.numbered live unused ?_ ?_
  · simpa [WorkingState.start] using s.stateNumbers
  · simpa [WorkingState.start] using s.chapterNumbers

/-- The outpoints of the block's states are its transactions', and so are the txids of its chapters. -/
theorem Sourced.added : (reduced.newStates.map NewState.outpoint).Nodup ∧
    (∀ n ∈ reduced.newStates, n.outpoint.txid ∈ block.transactions.map BitcoinTransaction.txid) ∧
    (reduced.chapters.map NewChapter.txid).Nodup ∧
    ∀ c ∈ reduced.chapters, c.txid ∈ block.transactions.map BitcoinTransaction.txid := by
  obtain ⟨live, unused⟩ := s.unused replay d red
  obtain ⟨⟨ids, hids, hstates⟩, ids', hids', hchapters⟩ := red.effects.added live unused
  rw [← red.newStates] at hstates
  rw [← red.chapters] at hchapters
  simp only [WorkingState.start, List.map_nil, List.nil_append] at hstates hchapters
  have hsub : (txs.map BitcoinTransaction.txid).Sublist (block.transactions.map BitcoinTransaction.txid) :=
    red.part.map _
  refine ⟨?_, fun n hn => ?_, ?_, fun c hc => ?_⟩
  · rw [hstates]
    exact (unused.distinct.sublist hids).map fun a b h => congrArg Outpoint.txid h
  · have hm : n.outpoint ∈ ids.map successorOf := hstates ▸ List.mem_map_of_mem hn
    obtain ⟨id, hid, he⟩ := List.mem_map.mp hm
    rw [← he]
    exact hsub.subset (hids.subset hid)
  · rw [hchapters]
    exact unused.distinct.sublist hids'
  · have hm : c.txid ∈ ids' := hchapters ▸ List.mem_map_of_mem hc
    exact hsub.subset (hids'.subset hm)

theorem Sourced.apart : reduced.newStates.Pairwise NewState.Apart ∧
    ∀ row ∈ index.db.states, ∀ n ∈ reduced.newStates, NewState.New row n := by
  obtain ⟨houts, hids, -, -⟩ := s.added replay d red
  obtain ⟨hold, hnew, hne⟩ := List.nodup_append.mp (s.numbered replay d red).1.nodup
  refine ⟨(List.pairwise_map.mp houts).and (List.pairwise_map.mp hnew), fun row hrow n hn => ⟨fun ho => ?_, ?_⟩⟩
  · exact d.not_earlier (hids n hn) (ho ▸ s.states row hrow)
  · exact hne _ (List.mem_map_of_mem hrow) _ (List.mem_map_of_mem hn)

theorem Sourced.fresh : Fresh index.objects reduced.newStates where
  apart := (s.apart replay d red).1
  outpoints n hn k r hr ho := by
    obtain ⟨h, -, hrow⟩ := replay.mirrors.carried k r _ hr ho
    exact ((s.apart replay d red).2 _ hrow n hn).1 rfl
  starts n hn hseq := by
    rw [Option.eq_none_iff_forall_not_mem]
    intro r hr
    obtain ⟨row, hrow, hk, h0⟩ := replay.mirrors.started _ r hr
    exact ((s.apart replay d red).2 row hrow n hn).2 (by rw [hk, h0, hseq])

end

/-! ### Spent marks -/

theorem spent_nodup {height : ℕ} {txids : List Hash} {pre : JsMap Hash ObjectRecord} {w w' : WorkingState}
    (settled : Settled packages binding pre) (t : Tracks packages binding height pre w)
    (nodup : (w.spentOutpoints.map SpentOutpoint.outpoint).Nodup) (h : Steps packages binding height txids w w')
    (fresh : Fresh pre w'.newStates) : (w'.spentOutpoints.map SpentOutpoint.outpoint).Nodup := by
  induction h with
  | refl => exact nodup
  | @tail w₁ w₂ hw hs ih =>
    obtain ⟨txid, -, hs⟩ := hs
    have hk := keyed_of_steps t.keyed hw
    obtain ⟨key, new, c⟩ := changes_of_step hs fun k r hr => (hk k r hr).1
    obtain ⟨l, hl⟩ := c.newStates_append
    have fresh₁ : Fresh pre w₁.newStates := (hl ▸ fresh).of_append
    have t₁ := t.steps settled hw fresh₁
    rcases c.origin with ⟨-, -, -, -, -, hsp⟩ | ⟨old, hold, -, -, hsp⟩
    · rw [hsp]
      exact ih fresh₁
    · -- The carrier that is spent now was not spent before, since it was the object's.
      rw [hsp, List.map_append]
      refine List.nodup_append.mpr ⟨ih fresh₁, ?_, ?_⟩
      · cases old.currentOutpoint <;> simp
      · intro o ho o' ho' he
        subst he
        obtain ⟨spent, hspent, rfl⟩ := List.mem_map.mp ho
        cases hcur : old.currentOutpoint with
        | none => simp [hcur] at ho'
        | some carrier =>
          rw [hcur] at ho'
          simp only [Option.map_some, Option.toList_some, List.map_cons, List.map_nil, List.mem_singleton] at ho'
          exact (t₁.carried key old carrier hold hcur).1 spent hspent ho'

/-- The carriers a block spends are different, and each has an unspent state in the database, or in the block. -/
structure Spendable (block : ReducedBlock) (db : Db) : Prop where
  /-- None is spent twice. -/
  once : (block.spentOutpoints.map SpentOutpoint.outpoint).Nodup
  /-- Each has an unspent state. -/
  stored : ∀ spent ∈ block.spentOutpoints, ∃ row ∈ (unspent block db).states, row.outpoint = spent.outpoint ∧
    row.spentHeight = none ∧ row.spentTxid = none
  /-- The states have different carriers. -/
  apart : ((unspent block db).states.map StateRow.outpoint).Nodup
  /-- The carriers repeat the states. -/
  carriers : (unspent block db).carriers = (unspent block db).states.map carrierOf

/-- Each spent mark finds one state and one carrier, and both are unspent. -/
def Marks (block : ReducedBlock) (db : Db) : Prop :=
  ∀ before spent after d, block.spentOutpoints = before ++ spent :: after →
    (do
      let db ← writeUnspent block db
      before.foldlM (writeSpent block.height) db) = .ok d →
    (∃ row, d.states.filter (fun row => row.outpoint = spent.outpoint) = [row] ∧ row.spentHeight = none ∧
      row.spentTxid = none) ∧
    ∃ row, d.carriers.filter (fun row => row.outpoint = spent.outpoint) = [row] ∧ row.spentHeight = none ∧
      row.spentTxid = none

theorem filter_eq_singleton {R K : Type} [DecidableEq K] {key : R → K} {l : List R} (h : (l.map key).Nodup) {r : R}
    (hr : r ∈ l) : l.filter (fun s => key s = key r) = [r] := by
  induction l with
  | nil => cases hr
  | cons a l ih =>
    obtain ⟨ha, hl⟩ := List.nodup_cons.mp h
    rcases List.mem_cons.mp hr with rfl | hr
    · rw [List.filter_cons_of_pos (by simp), List.filter_eq_nil_iff.mpr]
      intro s hs he
      exact ha ((of_decide_eq_true he) ▸ List.mem_map_of_mem hs)
    · rw [List.filter_cons_of_neg, ih hl hr]
      intro he
      exact ha (of_decide_eq_true he ▸ List.mem_map_of_mem hr)

theorem Spendable.marks {block : ReducedBlock} {db : Db} (s : Spendable block db) (a : Admitted block db) :
    Marks block db := by
  intro before spent after d hsplit hd
  have hyields : Yields (do
      let db ← writeUnspent block db
      before.foldlM (writeSpent block.height) db) _ := (writeUnspent_yields a).bind writeSpentAll_yields
  obtain rfl := hyields.eq_of_ok hd
  obtain ⟨row, hrow, ho, hheight, htxid⟩ := s.stored spent (by simp [hsplit])
  -- No mark before this one was on the same carrier.
  have hnot : ∀ earlier ∈ before, earlier.outpoint ≠ row.outpoint := by
    intro earlier he hne
    have honce := s.once
    rw [hsplit, List.map_append] at honce
    exact (List.nodup_append.mp honce).2.2 _ (List.mem_map_of_mem he) _ List.mem_cons_self (hne.trans ho)
  have hmark : markState block.height before row = row := by
    rcases markState_eq block.height before row with ⟨-, h⟩ | ⟨earlier, he, hne, -⟩
    · exact h
    · exact absurd hne (hnot earlier he)
  have hnodup : (((unspent block db).states.map (markState block.height before)).map StateRow.outpoint).Nodup := by
    rw [List.map_map]
    convert s.apart using 2
    funext r
    exact markState_outpoint block.height before r
  have hstates : ((unspent block db).states.map (markState block.height before)).filter
      (fun r => r.outpoint = spent.outpoint) = [row] := by
    have hm : row ∈ (unspent block db).states.map (markState block.height before) :=
      List.mem_map.mpr ⟨row, hrow, hmark⟩
    rw [← ho]
    exact filter_eq_singleton hnodup hm
  refine ⟨⟨row, hstates, hheight, htxid⟩, carrierOf row, ?_, hheight, htxid⟩
  have hcarriers : (unspent block db).carriers.map (markCarrier block.height before) =
      ((unspent block db).states.map (markState block.height before)).map carrierOf := by
    rw [s.carriers, List.map_map, List.map_map]
    exact List.map_congr_left fun r _ => markCarrier_carrierOf block.height before r
  show ((unspent block db).carriers.map (markCarrier block.height before)).filter _ = _
  rw [hcarriers, List.filter_map]
  exact congrArg (List.map carrierOf) hstates

/-! ### The next block -/

section

variable {chain : List BitcoinBlock} {index : Index} {block : BitcoinBlock} {reduced : ReducedBlock}
  {heights : InitHeights} {txs : List BitcoinTransaction} {w : WorkingState} (s : Sourced chain index)
  (replay : Replay packages binding chain index) (follows : Follows block chain)
  (d : Distinct packages binding (block :: chain)) (reduces : index.reduce packages binding block = .ok reduced)
  (red : Reduces packages binding index.objects block reduced heights txs w)

theorem Follows.higher (replay : Replay packages binding chain index) (follows : Follows block chain) {b : BitcoinBlock}
    (hb : b ∈ chain) : b.height < block.height := by
  cases chain with
  | nil => cases hb
  | cons parent rest =>
    have hheight : block.height = parent.height + 1 := follows.2
    rcases List.mem_cons.mp hb with rfl | hb
    · omega
    · have := (List.pairwise_cons.mp replay.descending).1 b hb
      omega

theorem Sourced.below (s : Sourced chain index) (replay : Replay packages binding chain index)
    (follows : Follows block chain) {height : ℕ} (stored : height ∈ Indexer.heights index.db) : height < block.height := by
  obtain ⟨row, hrow, rfl⟩ := List.mem_map.mp stored
  obtain ⟨b, hb, hheight, -⟩ := s.blocks row hrow
  rw [hheight]
  exact follows.higher replay hb

include s replay d red reduces

/-- What the block is reduced to keeps the invariant of the reducer. -/
theorem Sourced.tracks : Tracks packages binding reduced.height index.objects reduced.final :=
  tracks_of_reduceBlock replay.mirrors.settled reduces (s.fresh replay d red)

/-- The object of a numbered thing has a row once the block is written. -/
theorem Sourced.owned {key : Hash} {r : ObjectRecord} (hr : reduced.objects.get? key = some r) :
    ∃ row ∈ (written reduced index.db).objects, row.objectKey = key := by
  have t := s.tracks replay d reduces red
  exact ⟨objectRow r, (rows_written replay.mirrors t _).mpr ⟨key, r, hr, rfl⟩, (t.keyed key r hr).1⟩

theorem Sourced.spendable : Spendable reduced index.db where
  once := by
    obtain ⟨state, hsteps, -, -, -, hn, hsp, -⟩ := reduceBlock_steps reduces
    rw [hsp]
    exact spent_nodup replay.mirrors.settled (Tracks.start replay.mirrors.settled) List.nodup_nil hsteps
      (hn ▸ s.fresh replay d red)
  stored spent hs := by
    rcases (s.tracks replay d reduces red).spent spent hs with ⟨k, r, hr, ho⟩ | ⟨n, hn, ho⟩
    · obtain ⟨h, -, hrow⟩ := replay.mirrors.carried k r _ hr ho
      exact ⟨_, List.mem_append_left _ hrow, rfl, rfl, rfl⟩
    · exact ⟨_, List.mem_append_right _ (List.mem_map_of_mem hn), ho, rfl, rfl⟩
  apart := by
    obtain ⟨hown, hnew⟩ := s.apart replay d red
    refine List.pairwise_map.mpr (List.pairwise_append.mpr ⟨replay.mirrors.apart.imp fun h => h.1, ?_, ?_⟩)
    · exact List.pairwise_map.mpr (hown.imp fun h => h.1)
    · intro row hrow row' hrow'
      obtain ⟨n, hn, rfl⟩ := List.mem_map.mp hrow'
      exact (hnew row hrow n hn).1
  carriers := by
    simp only [unspent, List.map_append, List.map_map, replay.mirrors.carriers]
    congr 1

include follows

/-- **The keys of the next block are new.** -/
theorem Sourced.admitted : Admitted reduced index.db := by
  obtain ⟨_, _, _, -, -, -, hfin⟩ := reduceBlock_ok reduces
  obtain ⟨hheight, hhash, -⟩ := finishBlock_ok hfin
  have emitted := reduceBlock_events reduces
  have m := replay.mirrors
  obtain ⟨hown, hnew⟩ := s.apart replay d red
  obtain ⟨hnumbers, hchapters⟩ := s.numbered replay d red
  obtain ⟨-, -, hids, hof⟩ := s.added replay d red
  obtain ⟨-, hchaptersNew, hchaptersApart⟩ := List.nodup_append.mp hchapters.nodup
  have hlow : ∀ h ∈ Indexer.heights index.db, h ≠ reduced.height :=
    fun h hh => hheight ▸ (s.below replay follows hh).ne
  refine ⟨?_, ?_, ?_, emitted.apart, ⟨fun row hrow => hlow _ (m.stamped.events row hrow), ?_⟩, emitted.told, hown, hnew, ?_, ?_, ?_, ?_, ?_, ?_⟩
  · intro row hrow
    refine ⟨hlow _ (List.mem_map_of_mem hrow), fun he => ?_⟩
    obtain ⟨b, hb, -, hrowHash⟩ := s.blocks row hrow
    refine (List.nodup_cons.mp d.hashes).1 (List.mem_map.mpr ⟨b, hb, ?_⟩)
    rw [← hrowHash, he, hhash]
  · intro hconf
    refine ⟨?_, initHeight_of_reduceBlock reduces hconf⟩
    have hnone : index.activation = none := by
      rw [Option.eq_none_iff_forall_not_mem]
      intro a ha
      exact absurd hconf (by rw [((reduceBlock_activation reduces).1 a ha).1]; decide)
    have hload := replay.loadActivation.1
    rw [hnone, loadActivation, Option.map_eq_none_iff, List.head?_eq_none_iff] at hload
    exact hload
  · intro row hrow
    refine ⟨hlow _ (m.stamped.transactions row hrow), fun tx htx he => ?_⟩
    exact d.not_earlier (emitted.part tx htx) (he ▸ s.transactions row hrow)
  · exact emitted.inOrder.imp fun h => h.position_ne
  · intro row hrow n hn
    rw [m.carriers] at hrow
    obtain ⟨state, hstate, rfl⟩ := List.mem_map.mp hrow
    exact (hnew state hstate n hn).1
  · intro n hn
    obtain ⟨r, hr, -⟩ := hnumbers.reached _ (List.mem_append_right _ (List.mem_map_of_mem hn))
    exact s.owned replay d reduces red hr
  · exact (List.pairwise_map.mp hids).and (List.pairwise_map.mp hchaptersNew)
  · intro row hrow c hc
    refine ⟨fun he => d.not_earlier (hof c hc) (he ▸ s.chapters row hrow), ?_⟩
    exact hchaptersApart _ (List.mem_map_of_mem hrow) _ (List.mem_map_of_mem hc)
  · intro c hc
    obtain ⟨r, hr, -⟩ := hchapters.reached _ (List.mem_append_right _ (List.mem_map_of_mem hc))
    exact s.owned replay d reduces red hr
  · exact fun row hrow => hlow _ (m.stamped.checkpoints row hrow)

omit follows in
/-- **The invariant is kept** when the block is written. -/
theorem Sourced.next : Sourced (block :: chain) (Index.next reduced (written reduced index.db)) := by
  obtain ⟨_, _, _, -, -, -, hfin⟩ := reduceBlock_ok reduces
  obtain ⟨hheight, hhash, -⟩ := finishBlock_ok hfin
  have emitted := reduceBlock_events reduces
  obtain ⟨hnumbers, hchapters⟩ := s.numbered replay d red
  obtain ⟨-, hstates, -, hof⟩ := s.added replay d red
  obtain ⟨live, unused⟩ := s.unused replay d red
  refine ⟨?_, ?_, ?_, ?_, ?_, ?_, ?_⟩
  · intro row hrow
    rcases List.mem_append.mp hrow with hrow | hrow
    · obtain ⟨b, hb, h⟩ := s.blocks row hrow
      exact ⟨b, List.mem_cons_of_mem _ hb, h⟩
    · obtain rfl := List.mem_singleton.mp hrow
      exact ⟨block, List.mem_cons_self, hheight, hhash⟩
  · intro row hrow
    rcases List.mem_append.mp hrow with hrow | hrow
    · exact List.mem_append_right _ (s.transactions row hrow)
    · obtain ⟨tx, htx, rfl⟩ := List.mem_map.mp hrow
      exact List.mem_append_left _ (emitted.part tx htx)
  · intro row hrow
    obtain ⟨state, hstate, rfl⟩ := List.mem_map.mp hrow
    rw [markState_outpoint]
    rcases List.mem_append.mp hstate with hstate | hstate
    · exact List.mem_append_right _ (s.states state hstate)
    · obtain ⟨n, hn, rfl⟩ := List.mem_map.mp hstate
      exact List.mem_append_left _ (hstates n hn)
  · intro row hrow
    rcases List.mem_append.mp hrow with hrow | hrow
    · exact List.mem_append_right _ (s.chapters row hrow)
    · obtain ⟨c, hc, rfl⟩ := List.mem_map.mp hrow
      exact List.mem_append_left _ (hof c hc)
  · intro k r hr
    replace hr : reduced.objects.get? k = some r := hr
    rw [red.objects] at hr
    rcases red.effects.createTxid live unused hr with hm | ⟨r₀, hr₀, he⟩
    · exact List.mem_append_left _ ((red.part.map _).subset hm)
    · rw [he]
      exact List.mem_append_right _ (s.objects k r₀ hr₀)
  · show Numbered reduced.objects ((written reduced index.db).states.map stateNumber)
    convert hnumbers using 1
    simp only [written, List.map_map, List.map_append]
    congr 1
    · exact List.map_congr_left fun row _ => by simp [stateNumber]
    · exact List.map_congr_left fun n _ => by simp [stateNumber, stateRow, NewState.number]
  · show Numbered reduced.objects ((written reduced index.db).chapters.map chapterNumber)
    convert hchapters using 1
    simp only [written, List.map_map, List.map_append]
    congr 1

end

/-! ### Runs -/

/-- **What the tables hold comes from the chain**, whatever its blocks are. -/
theorem Replay.sourced (contract : ValidatorContract packages.validate) {chain : List BitcoinBlock} {index : Index}
    (replay : Replay packages binding chain index) (d : Distinct packages binding chain) : Sourced chain index := by
  induction replay with
  | empty => exact .empty
  | connect replay follows reduces writes ih =>
    have s := ih d.tail
    obtain ⟨rfl, -⟩ := writeBlock_ok writes
    obtain ⟨_, _, _, red⟩ := reduceBlock_effects contract (s.admissible replay d) reduces
    exact s.next replay d reduces red

/-- What appending a block keeps: its keys are new, its events in order, and its statements go through unless a
value does not fit its column; each spent mark finds one state and one carrier, both unspent. -/
structure KeysKept (block : ReducedBlock) (db : Db) : Prop where
  /-- The keys are new and the references kept. -/
  admitted : Admitted block db
  /-- The events are in order. -/
  inOrder : InOrder block.events
  /-- The statements go through. -/
  goesThrough : Yields (writeBlock block db) (written block db)
  /-- The spent marks are made once. -/
  marks : Marks block db

/-- The order of the object map does not matter, nor does the journal of reorganizations. -/
theorem Admitted.of_same {a b : ReducedBlock} (h : SameBlock a b) {db db' : Db} (hdb : tables db = tables db')
    (admitted : Admitted a db) : Admitted b db' := by
  obtain ⟨hb, hobjects⟩ := h
  have htouch : touchRows b = touchRows a := by
    funext rows entry
    unfold touchRows
    rw [hobjects entry.1]
  have hwritten : (written b db').objects = (written a db).objects := by
    show b.undo.entries.foldl (touchRows b) db'.objects = a.undo.entries.foldl (touchRows a) db.objects
    rw [htouch, hb, tables_eq_iff.mp hdb]
    rfl
  obtain ⟨m, rfl⟩ : ∃ m, b = { a with objects := m } := ⟨_, hb⟩
  obtain ⟨j, rfl⟩ : ∃ j, db' = withReorgs j db := ⟨_, tables_eq_iff.mp hdb⟩
  exact ⟨admitted.fresh, admitted.init, admitted.transactions, admitted.positions, admitted.events, admitted.told,
    admitted.states, admitted.newStates, admitted.carriers, fun s hs => hwritten ▸ admitted.owned s hs,
    admitted.chapters, admitted.newChapters, fun c hc => hwritten ▸ admitted.chaptersOwned c hc, admitted.checkpoint⟩

theorem Spendable.of_same {a b : ReducedBlock} (h : SameBlock a b) {db db' : Db} (hdb : tables db = tables db')
    (spendable : Spendable a db) : Spendable b db' := by
  obtain ⟨m, rfl⟩ : ∃ m, b = { a with objects := m } := ⟨_, h.1⟩
  obtain ⟨j, rfl⟩ : ∃ j, db' = withReorgs j db := ⟨_, tables_eq_iff.mp hdb⟩
  exact ⟨spendable.once, spendable.stored, spendable.apart, spendable.carriers⟩

/-- Each of several blocks, reduced in memory, keeps the keys. -/
theorem Replay.keysKept (contract : ValidatorContract packages.validate) {chain further : List BitcoinBlock}
    {index : Index} (replay : Replay packages binding chain index) {cursor : Cursor}
    (same : SameCursor index.toCursor cursor) {db : Db} (hdb : tables index.db = tables db)
    (linked : Extends chain further) (d : Distinct packages binding (further.reverse ++ chain))
    {reduced : List ReducedBlock} (reduces : reduceChain packages binding cursor further = .ok reduced)
    {before after : List ReducedBlock} {block : ReducedBlock} (split : reduced = before ++ block :: after) {db' : Db}
    (appends : appendBlocks before db = .ok db') : KeysKept block db' := by
  induction further generalizing chain index cursor db reduced before with
  | nil =>
    obtain rfl := pure_eq_ok.mp reduces
    simp at split
  | cons next further ih =>
    obtain ⟨first, hfirst, reduces⟩ := bind_eq_ok.mp reduces
    obtain ⟨later, hlater, reduces⟩ := bind_eq_ok.mp reduces
    obtain rfl := pure_eq_ok.mp reduces
    have hd : Distinct packages binding (further.reverse ++ next :: chain) := by
      simpa [List.reverse_cons, List.append_assoc] using d
    have hnext : Distinct packages binding (next :: chain) := hd.of_append
    cases before with
    | nil =>
      obtain ⟨rfl, -⟩ := List.cons.inj split
      obtain rfl := pure_eq_ok.mp appends
      have s := replay.sourced contract hnext.tail
      obtain ⟨own, hown, hsame⟩ := replay.reduces_same same hfirst
      obtain ⟨_, _, _, red⟩ := reduceBlock_effects contract (s.admissible replay hnext) hown
      have admitted := (s.admitted replay linked.1 hnext hown red).of_same hsame hdb
      have spendable := (s.spendable replay hnext hown red).of_same hsame hdb
      refine ⟨admitted, ?_, writeBlock_yields admitted, spendable.marks admitted⟩
      have hevents : first.events = own.events := by rw [hsame.1]
      rw [hevents]
      exact (reduceBlock_events hown).inOrder
    | cons b before =>
      obtain ⟨rfl, hsplit⟩ := List.cons.inj split
      obtain ⟨d₁, hd₁, appends⟩ := bind_eq_ok.mp appends
      obtain ⟨index', replay', same', hdb'⟩ := replay.connects same hdb linked.1 hfirst hd₁
      exact ih replay' same' hdb' linked.2 hd hlater hsplit appends

/-- **Appending never violates a key.** After any sequence of appends and rollbacks, the next blocks, reduced from
what the store holds, find their keys new: no statement is refused for a key, at whatever block of the append. -/
theorem append_keysKept (contract : ValidatorContract packages.validate) {history : History} {db : Db}
    (stored : Stored packages binding history db) {rows : List ObjectRow} (listed : rows.Perm db.objects)
    {further : List BitcoinBlock} (linked : Extends history.blocks further)
    (d : Distinct packages binding (further.reverse ++ history.blocks)) {reduced : List ReducedBlock}
    (reduces : reduceChain packages binding (.read packages binding db rows) further = .ok reduced)
    {before after : List ReducedBlock} {block : ReducedBlock} (split : reduced = before ++ block :: after) {db' : Db}
    (appends : appendBlocks before db = .ok db') : KeysKept block db' := by
  obtain ⟨index, replay, hdb, same⟩ := stored.recorded.1.read listed
  exact replay.keysKept contract same hdb linked d reduces split appends

theorem story_distinct : Distinct lifePackages sampleBinding [laterBlock, openBlock] :=
  ⟨by decide +kernel, by decide +kernel, by decide +kernel⟩

theorem life_distinct : Distinct lifePackages sampleBinding [lifeBlock] :=
  ⟨by decide +kernel, by decide +kernel, by decide +kernel⟩

/-- The MARK of a life spends the carrier that its CREATE made. -/
theorem exists_life : ∃ life, (Cursor.initial lifePackages sampleBinding).reduce lifePackages sampleBinding lifeBlock =
    .ok life ∧ life.spentOutpoints = [⟨successorOf (sampleHash 11), sampleHash 12⟩] ∧ life.events.length = 3 := by
  have reduces : ((Cursor.initial lifePackages sampleBinding).reduce lifePackages sampleBinding lifeBlock).toOption.any
      (fun life => life.spentOutpoints = [⟨successorOf (sampleHash 11), sampleHash 12⟩] ∧ life.events.length = 3) =
        true := by
    decide +kernel
  obtain ⟨life, hlife, told⟩ := (Option.any_eq_true ..).mp reduces
  exact ⟨life, ok_of_toOption hlife, of_decide_eq_true told⟩

/-- The block of a life, in which the MARK spends the carrier that the CREATE made, is appended to an empty store. -/
theorem append_keysKept_sample : ∃ life,
    reduceChain lifePackages sampleBinding (.initial lifePackages sampleBinding) [lifeBlock] = .ok [life] ∧
      life.spentOutpoints = [⟨successorOf (sampleHash 11), sampleHash 12⟩] ∧ KeysKept life Db.empty := by
  obtain ⟨life, reduces, spent, -⟩ := exists_life
  have chained : reduceChain lifePackages sampleBinding (.initial lifePackages sampleBinding) [lifeBlock] =
      .ok [life] := bind_eq_ok.mpr ⟨life, reduces, rfl⟩
  have linked : Extends (History.blocks []) [lifeBlock] := ⟨trivial, trivial⟩
  have before : appendBlocks [] Db.empty = .ok Db.empty := rfl
  exact ⟨life, chained, spent, append_keysKept (validateTandemTransaction_contract lifeChecks_sound) .empty
    (.refl []) linked life_distinct chained (List.nil_append [life]).symm before⟩

end IndexTandem.Indexer
