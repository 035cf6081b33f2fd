import IndexTandem.Indexer.Carriers

/-!
# What a block adds

Under the contract of the validator a reduced block is a sequence of effects
(`reduceBlock_effects`), in the block that confirms the INIT too: an INIT that is not
valid has one event and no effect on the objects, and the others wait until it is.

Each effect adds one state at most, for the transaction's own output and with a sequence
that its object has not had before, and one chapter at most; no object is lost and no
sequence goes back (`Grows`). So over a whole block the states are numbered as the
objects are, and their outpoints are those of different transactions.
-/

namespace IndexTandem.Indexer

open Library Protocol

variable {packages : Packages} {binding : Binding} {heights : InitHeights} {height : ℕ}

/-! ### A reduced block is a sequence of effects -/

theorem initMarked_of_valid (contract : ValidatorContract packages.validate) {w : WorkingState} (live : Live w)
    {transaction : BitcoinTransaction} (unspent : consumedKeys w transaction = [])
    {txIndex : ℕ} {progress : Progress}
    (h : classifyTransaction packages binding heights w transaction txIndex height = .ok progress)
    {event : EventRecord} (first : progress.events.head? = some event) (valid : event.validityClass = .VALID_OPERATION) :
    InitMarked packages binding height transaction := by
  intro configured evidence' hev'
  have hspent : consumedKeys w transaction ≠ [] → InitMarked packages binding height transaction :=
    fun hne => absurd unspent hne
  obtain ⟨evidence, carriers, result, ⟨hev, hkeys, -, -, verdict⟩, hdone⟩ :=
    classifyTransaction_asked contract live hspent h
  obtain rfl : evidence = evidence' := Except.ok.inj (hev.symm.trans hev')
  have hnone : carriers = [] := List.map_eq_nil_iff.mp (hkeys.trans unspent)
  have htx := (buildTransactionEvidence_ok _ _ hev).1
  rcases hdone with ⟨-, rfl⟩ | ⟨-, hne, candidates, -, happly⟩
  · cases first
  cases verdict with
  | ignored => exact absurd rfl hne
  | invalid _ _ cls =>
    obtain ⟨w', record, hd, rfl⟩ := applyEvents_single happly
    simp only [applyEvent, cls, pure_eq_ok, Prod.mk.injEq] at hd
    obtain ⟨rfl, rfl⟩ := hd
    obtain rfl := Option.some.inj first
    cases valid
  | init _ _ counted => exact counted
  | create _ other => exact absurd (htx.trans configured) other
  | mark one => exact absurd (hnone.symm.trans one) (List.cons_ne_nil _ _).symm
  | rotate one => exact absurd (hnone.symm.trans one) (List.cons_ne_nil _ _).symm
  | close one => exact absurd (hnone.symm.trans one) (List.cons_ne_nil _ _).symm
  | refund one => exact absurd (hnone.symm.trans one) (List.cons_ne_nil _ _).symm
  | exits some => exact absurd hnone some

/-- What a reduced block is the result of. -/
structure Reduces (packages : Packages) (binding : Binding) (objects : JsMap Hash ObjectRecord)
    (block : BitcoinBlock) (reduced : ReducedBlock) (heights : InitHeights) (txs : List BitcoinTransaction)
    (w : WorkingState) : Prop where
  /-- The transactions that have effects are transactions of the block. -/
  part : txs.Sublist block.transactions
  /-- They have them one after the other, and the events tell them. -/
  effects : Effects packages binding heights block.height txs (.start objects) w
    (reduced.events.map EventRecord.told)
  /-- The last state is live. -/
  live : Live w
  /-- It has the objects of the reduced block. -/
  objects : reduced.objects = w.objects
  /-- Their records from before the block. -/
  undo : reduced.undo = w.undo
  /-- The states created. -/
  newStates : reduced.newStates = w.newStates
  /-- The carriers spent. -/
  spentOutpoints : reduced.spentOutpoints = w.spentOutpoints
  /-- The chapters. -/
  chapters : reduced.chapters = w.chapters

/-- What a block may be reduced with: records under their keys and active ones with different carriers, nothing that
the block's transactions would create; and the configured INIT is behind, or it is not and no carrier is there. -/
structure Admissible (packages : Packages) (binding : Binding) (activation : Option InitActivation)
    (objects : JsMap Hash ObjectRecord) (block : BitcoinBlock) : Prop where
  /-- Every record is under its key. -/
  named : Named objects
  /-- Active records have different carriers. -/
  distinct : DistinctActive objects
  /-- What the transactions would create is new. -/
  unused : Unused packages binding (.start objects) (block.transactions.map BitcoinTransaction.txid)
  /-- The INIT is behind. -/
  behind : activation ≠ none → ∀ tx ∈ block.transactions, tx.txid ≠ binding.initTxid
  /-- Or there is no object. -/
  bare : activation = none → ∀ k, objects.get? k = none

theorem consumedKeys_bare {w : WorkingState} (live : Live w) (bare : ∀ k, w.objects.get? k = none)
    (transaction : BitcoinTransaction) : consumedKeys w transaction = [] := by
  rw [List.eq_nil_iff_forall_not_mem]
  intro key hkey
  obtain ⟨o, -, r, hr, -⟩ := live.active hkey
  exact not_none_of_some hr (bare key)

/-- It tells of a new object. -/
def Told.creates (told : Told) : Bool := told.validityClass = .VALID_OPERATION && told.eventType = .CREATE

/-- The INIT has no effect on a state whose carriers it does not spend. -/
theorem Effect.of_init {transaction : BitcoinTransaction} {w w' : WorkingState} {tolds : List Told}
    (h : Effect packages binding heights height transaction w w' tolds) (unspent : consumedKeys w transaction = [])
    (configured : transaction.txid = binding.initTxid) : w' = w ∧ ∀ told ∈ tolds, told.creates = false := by
  cases h with
  | silent => exact ⟨rfl, fun _ ht => absurd ht List.not_mem_nil⟩
  | invalid _ cls =>
    refine ⟨rfl, fun told ht => ?_⟩
    rw [List.mem_singleton.mp ht, Told.creates, cls]
    rfl
  | init _ _ type =>
    refine ⟨rfl, fun told ht => ?_⟩
    rw [List.mem_singleton.mp ht, Told.creates, type]
    exact Bool.and_false _
  | created _ other => exact absurd configured other
  | marked one => exact absurd (unspent.symm.trans one) (List.cons_ne_nil _ _).symm
  | rotated one => exact absurd (unspent.symm.trans one) (List.cons_ne_nil _ _).symm
  | closed one => exact absurd (unspent.symm.trans one) (List.cons_ne_nil _ _).symm
  | refunded one => exact absurd (unspent.symm.trans one) (List.cons_ne_nil _ _).symm
  | exited spent => exact absurd unspent spent

theorem valid_of_heights {a : InitActivation} (h : a.heights? = some heights) : a.valid = true := by
  by_contra hv
  unfold InitActivation.heights? at h
  rw [Bool.eq_false_iff.mpr hv] at h
  cases h

/-- **The loop over the transactions starts with the objects before the block**, and no transaction is an INIT without
a marker. -/
theorem activateBlock_ready (contract : ValidatorContract packages.validate) {activation : Option InitActivation}
    {objects : JsMap Hash ObjectRecord} {block : BitcoinBlock}
    (input : Admissible packages binding activation objects block) {ordered : List OrderedTransaction}
    (ho : orderedBlockTransactions block = .ok ordered) {activated : Activated}
    (ha : activateBlock packages binding activation block ordered (.start objects) = .ok activated)
    (hheights : activated.activation.heights? = some heights) :
    activated.progress = ⟨.start objects, []⟩ ∧
      ∀ entry ∈ ordered, InitMarked packages binding block.height entry.transaction := by
  have hother : ∀ {tx : BitcoinTransaction}, tx.txid ≠ binding.initTxid → InitMarked packages binding block.height tx :=
    fun hne he => absurd he hne
  cases hact : activation with
  | some a =>
    subst hact
    obtain rfl := pure_eq_ok.mp ha
    exact ⟨rfl, fun entry he => hother (input.behind (Option.some_ne_none a) _ (mem_ordered ho he))⟩
  | none =>
    subst hact
    have live := Live.start input.named input.distinct
    obtain ⟨init, hi, hid, _, classified, -, hc, -, -, -, -, -, hstate, hvalid, hev⟩ := confirmInit_ok ha
    have hunspent := consumedKeys_bare live (input.bare rfl) init.transaction
    have heffect := classifyTransaction_effect contract live (fun hne => absurd hunspent hne) hc
    have hv := valid_of_heights hheights
    rw [if_pos hv] at hev
    obtain ⟨event, hhead, hcls⟩ := hvalid.mp hv
    refine ⟨?_, fun entry he => ?_⟩
    · calc activated.progress = ⟨activated.progress.state, activated.progress.events⟩ := rfl
        _ = ⟨.start objects, []⟩ := by rw [hstate, (heffect.of_init hunspent hid).1, hev]
    · by_cases hsame : entry.transaction.txid = binding.initTxid
      · have hnodup : (ordered.map fun entry => entry.transaction.txid).Nodup := by
          have := input.unused.distinct
          rwa [← (orderFrom_ok ho).1, List.map_map] at this
        rw [List.inj_on_of_nodup_map hnodup he hi (hsame.trans hid.symm)]
        exact initMarked_of_valid contract live hunspent hc hhead hcls
      · exact hother hsame

/-- **A reduced block is a sequence of effects**, and objects are created with the heights of its INIT. -/
theorem reduceBlock_windowed (contract : ValidatorContract packages.validate) {activation : Option InitActivation}
    {previousRoot : Hash} {objects : JsMap Hash ObjectRecord} {block : BitcoinBlock}
    (input : Admissible packages binding activation objects block) {reduced : ReducedBlock}
    (h : reduceBlock packages binding activation previousRoot objects block = .ok reduced) :
    ∃ heights txs w, Reduces packages binding objects block reduced heights txs w ∧
      (reduced.activation.heights? = some heights ∨ ∀ event ∈ reduced.events, event.told.creates = false) := by
  obtain ⟨ordered, activated, progress, ho, ha, hp, hfin⟩ := reduceBlock_ok h
  obtain ⟨-, -, -, hactivation, -, hevents, hobjects, hundo, hstates, hspent, hchapters, -⟩ := finishBlock_ok hfin
  have live := Live.start input.named input.distinct
  have htxs : ordered.map OrderedTransaction.transaction = block.transactions := (orderFrom_ok ho).1
  have hunused : Unused packages binding (.start objects) (ordered.map fun entry => entry.transaction.txid) := by
    have := input.unused
    rwa [← htxs, List.map_map] at this
  -- It is enough to find the effects that lead to the last state.
  suffices hgoal : ∃ heights txs, txs.Sublist block.transactions ∧ Live progress.state ∧
      Effects packages binding heights block.height txs (.start objects) progress.state
        (progress.events.map EventRecord.told) ∧
      (activated.activation.heights? = some heights ∨ ∀ event ∈ progress.events, event.told.creates = false) by
    obtain ⟨heights, txs, hpart, hlive, heffects, hwindow⟩ := hgoal
    refine ⟨heights, txs, progress.state, ?_, ?_⟩
    · exact ⟨hpart, hevents ▸ heffects, hlive, hobjects, hundo, hstates, hspent, hchapters⟩
    · rw [hactivation, hevents]
      exact hwindow
  unfold connectTransactions at hp
  cases hheights : activated.activation.heights? with
  | some heights =>
    obtain ⟨hstart, hmarked⟩ := activateBlock_ready contract input ho ha hheights
    simp only [hheights, hstart] at hp
    obtain ⟨tolds, heffects, htold, hlive⟩ := connect_effects contract live hunused hmarked hp
    rw [List.map_nil, List.nil_append] at htold
    exact ⟨heights, _, htxs ▸ List.Sublist.refl _, hlive, htold ▸ heffects, .inl rfl⟩
  | none =>
    simp only [hheights] at hp
    obtain rfl := pure_eq_ok.mp hp
    cases hact : activation with
    | some a =>
      subst hact
      obtain rfl := pure_eq_ok.mp ha
      exact ⟨⟨0, 0, 0⟩, [], List.nil_sublist _, live, .nil, .inr fun _ he => absurd he List.not_mem_nil⟩
    | none =>
      subst hact
      obtain ⟨init, hi, hid, heights, classified, -, hc, -, -, -, -, -, hstate, -, hev⟩ := confirmInit_ok ha
      have hunspent := consumedKeys_bare live (input.bare rfl) init.transaction
      have heffect := classifyTransaction_effect contract live (fun hne => absurd hunspent hne) hc
      obtain ⟨hsame, hcreates⟩ := heffect.of_init hunspent hid
      rw [hstate, hsame, hev]
      split_ifs
      · exact ⟨⟨0, 0, 0⟩, [], List.nil_sublist _, live, .nil, .inr fun _ he => absurd he List.not_mem_nil⟩
      · -- An INIT that is not valid has one event and no effect.
        rw [hsame] at heffect
        have heffects := Effects.cons heffect .nil
        rw [List.append_nil] at heffects
        exact ⟨_, [init.transaction], List.singleton_sublist.mpr (mem_ordered ho hi), live, heffects,
          .inr fun event he => hcreates _ (List.mem_map_of_mem he)⟩

theorem reduceBlock_effects (contract : ValidatorContract packages.validate) {activation : Option InitActivation}
    {previousRoot : Hash} {objects : JsMap Hash ObjectRecord} {block : BitcoinBlock}
    (input : Admissible packages binding activation objects block) {reduced : ReducedBlock}
    (h : reduceBlock packages binding activation previousRoot objects block = .ok reduced) :
    ∃ heights txs w, Reduces packages binding objects block reduced heights txs w := by
  obtain ⟨heights, txs, w, hreduces, -⟩ := reduceBlock_windowed contract input h
  exact ⟨heights, txs, w, hreduces⟩

/-! ### What an effect adds -/

/-- The object reaches a sequence that it did not have before. -/
structure Reaches (w w' : WorkingState) (key : Hash) (sequence : ℕ) : Prop where
  /-- It has it now. -/
  now : ∃ r, w'.objects.get? key = some r ∧ r.stateSequence = sequence
  /-- It was behind. -/
  before : ∀ r, w.objects.get? key = some r → r.stateSequence < sequence

/-- What a transaction adds to a working state: one state and one chapter at most. -/
structure Grows (txid : Hash) (w w' : WorkingState) : Prop where
  /-- No object is lost, and no sequence goes back. -/
  onward : ∀ k r, w.objects.get? k = some r → ∃ r', w'.objects.get? k = some r' ∧ r.stateSequence ≤ r'.stateSequence
  /-- A new state is the transaction's, and its object reaches it. -/
  states : w'.newStates = w.newStates ∨ ∃ n : NewState, w'.newStates = w.newStates ++ [n] ∧
    n.outpoint = successorOf txid ∧ Reaches w w' n.objectKey n.sequence
  /-- So is a new chapter. -/
  chapters : w'.chapters = w.chapters ∨ ∃ c : NewChapter, w'.chapters = w.chapters ++ [c] ∧ c.txid = txid ∧
    Reaches w w' c.objectKey c.sequence

theorem Exits.newStates {txid : Hash} {keys : List Hash} {w w' : WorkingState} {tolds : List Told}
    (h : Exits txid keys w w' tolds) : w'.newStates = w.newStates ∧ w'.chapters = w.chapters := by
  induction h with
  | nil => exact ⟨rfl, rfl⟩
  | cons _ _ ih => simpa [terminate] using ih

theorem create_newStates (w : WorkingState) (record : ObjectRecord) (o : Outpoint) :
    (create w record o).newStates = w.newStates ++ [⟨o, record.objectKey, 0, record.key0, record.key1⟩] := by
  simp [create]

theorem advance_newStates (w : WorkingState) (record : ObjectRecord) (txid : Hash) (height sequence : ℕ)
    (key0 key1 : String) (chapter : Option ChapterContent) :
    (advance w record txid height sequence key0 key1 chapter).newStates =
      w.newStates ++ [⟨successorOf txid, record.objectKey, sequence, key0, key1⟩] := by
  simp [advance]

theorem advance_chapters (w : WorkingState) (record : ObjectRecord) (txid : Hash) (height sequence : ℕ)
    (key0 key1 : String) (content : ChapterContent) :
    (advance w record txid height sequence key0 key1 (some content)).chapters =
      w.chapters ++ [⟨content, record.objectKey, sequence, txid⟩] := by
  simp [advance]

/-- An object that moves reaches the sequence it moves to. -/
theorem reaches_advance {w : WorkingState} {record : ObjectRecord}
    (found : w.objects.get? record.objectKey = some record) {txid : Hash} {height sequence : ℕ}
    (next : record.stateSequence < sequence) {key0 key1 : String} {chapter : Option ChapterContent} :
    Reaches w (advance w record txid height sequence key0 key1 chapter) record.objectKey sequence where
  now := ⟨_, (get?_advance ..).trans (if_pos rfl), rfl⟩
  before r hr := by
    obtain rfl := Option.some.inj (found.symm.trans hr)
    exact next

section

variable {transaction : BitcoinTransaction} {w w' : WorkingState} {tolds : List Told}

/-- **An effect adds one state and one chapter at most.** -/
theorem Effect.grows (live : Live w) {txids : List Hash}
    (unused : Unused packages binding w (transaction.txid :: txids))
    (h : Effect packages binding heights height transaction w w' tolds) : Grows transaction.txid w w' := by
  have onward : ∀ k r, w.objects.get? k = some r →
      ∃ r', w'.objects.get? k = some r' ∧ r.stateSequence ≤ r'.stateSequence := by
    intro k r hr
    cases h.fate live unused k with
    | kept _ same => exact ⟨r, same.trans hr, le_rfl⟩
    | born unborn => exact (not_none_of_some hr unborn).elim
    | moved _ found made =>
      obtain rfl := Option.some.inj (found.symm.trans hr)
      exact ⟨_, made, Nat.le_succ _⟩
    | ended _ found _ counts made =>
      obtain rfl := Option.some.inj (found.symm.trans hr)
      refine ⟨_, made, ?_⟩
      rw [ObjectRecord.ended, counts]
      exact Nat.le_add_right _ _
  refine ⟨onward, ?_, ?_⟩
  · cases h with
    | created =>
      refine .inr ⟨_, create_newStates .., rfl, ⟨_, (get?_create ..).trans (if_pos rfl), rfl⟩, ?_⟩
      intro r hr
      exact (not_none_of_some hr (unused.keys _ List.mem_cons_self)).elim
    | marked _ found => exact .inr ⟨_, advance_newStates .., rfl, reaches_advance found (Nat.lt_succ_self _)⟩
    | rotated _ found => exact .inr ⟨_, advance_newStates .., rfl, reaches_advance found (Nat.lt_succ_self _)⟩
    | closed => exact .inl (by simp [terminate])
    | refunded => exact .inl (by simp [terminate])
    | exited _ _ exits => exact .inl exits.newStates.1
    | _ => exact .inl rfl
  · cases h with
    | created => exact .inl (by simp [create])
    | marked _ found => exact .inr ⟨_, advance_chapters .., rfl, reaches_advance found (Nat.lt_succ_self _)⟩
    | rotated => exact .inl (by simp [advance])
    | closed => exact .inl (by simp [terminate])
    | refunded => exact .inl (by simp [terminate])
    | exited _ _ exits => exact .inl exits.newStates.2
    | _ => exact .inl rfl

/-- An object that is there after a transaction was there before, or is the transaction's. -/
theorem Effect.createTxid (live : Live w) {txids : List Hash}
    (unused : Unused packages binding w (transaction.txid :: txids))
    (h : Effect packages binding heights height transaction w w' tolds) {k : Hash} {r : ObjectRecord}
    (hr : w'.objects.get? k = some r) :
    r.createTxid = transaction.txid ∨ ∃ r₀, w.objects.get? k = some r₀ ∧ r.createTxid = r₀.createTxid := by
  cases h.fate live unused k with
  | kept _ same => exact .inr ⟨r, same.symm.trans hr, rfl⟩
  | born _ _ made =>
    obtain rfl := Option.some.inj (made.symm.trans hr)
    exact .inl rfl
  | moved _ found made =>
    obtain rfl := Option.some.inj (made.symm.trans hr)
    exact .inr ⟨_, found, rfl⟩
  | ended _ found _ _ made =>
    obtain rfl := Option.some.inj (made.symm.trans hr)
    exact .inr ⟨_, found, rfl⟩

end

/-! ### What a block adds -/

/-- The numbered things of objects are distinct, and none is ahead of its object. -/
structure Numbered (objects : JsMap Hash ObjectRecord) (things : List (Hash × ℕ)) : Prop where
  /-- They are distinct. -/
  nodup : things.Nodup
  /-- Their objects have reached them. -/
  reached : ∀ p ∈ things, ∃ r, objects.get? p.1 = some r ∧ p.2 ≤ r.stateSequence

theorem Numbered.onward {m n : JsMap Hash ObjectRecord} {things : List (Hash × ℕ)} (h : Numbered m things)
    (onward : ∀ k r, m.get? k = some r → ∃ r', n.get? k = some r' ∧ r.stateSequence ≤ r'.stateSequence) :
    Numbered n things where
  nodup := h.nodup
  reached p hp := by
    obtain ⟨r, hr, hle⟩ := h.reached p hp
    obtain ⟨r', hr', hle'⟩ := onward _ r hr
    exact ⟨r', hr', hle.trans hle'⟩

theorem Numbered.reach {w w' : WorkingState} {things : List (Hash × ℕ)} (h : Numbered w.objects things)
    (onward : ∀ k r, w.objects.get? k = some r →
      ∃ r', w'.objects.get? k = some r' ∧ r.stateSequence ≤ r'.stateSequence)
    {key : Hash} {sequence : ℕ} (reaches : Reaches w w' key sequence) :
    Numbered w'.objects (things ++ [(key, sequence)]) where
  nodup := by
    refine List.nodup_append.mpr ⟨h.nodup, List.nodup_singleton _, ?_⟩
    rintro p hp _ hq rfl
    obtain rfl := List.mem_singleton.mp hq
    obtain ⟨r, hr, hle⟩ := h.reached _ hp
    have := reaches.before r hr
    omega
  reached p hp := by
    rcases List.mem_append.mp hp with hp | hp
    · exact (h.onward onward).reached p hp
    · obtain rfl := List.mem_singleton.mp hp
      obtain ⟨r, hr, hs⟩ := reaches.now
      exact ⟨r, hr, hs.ge⟩

/-- The object and the sequence of a state. -/
def NewState.number (state : NewState) : Hash × ℕ := (state.objectKey, state.sequence)

/-- The object and the sequence of a chapter. -/
def NewChapter.number (chapter : NewChapter) : Hash × ℕ := (chapter.objectKey, chapter.sequence)

section

variable {txs : List BitcoinTransaction} {w w' : WorkingState} {tolds : List Told}

/-- **Over a block** the states and chapters, with those that were there before, stay numbered. -/
theorem Effects.numbered (h : Effects packages binding heights height txs w w' tolds) (live : Live w)
    (unused : Unused packages binding w (txs.map BitcoinTransaction.txid)) {states chapters : List (Hash × ℕ)}
    (hstates : Numbered w.objects (states ++ w.newStates.map NewState.number))
    (hchapters : Numbered w.objects (chapters ++ w.chapters.map NewChapter.number)) :
    Numbered w'.objects (states ++ w'.newStates.map NewState.number) ∧
      Numbered w'.objects (chapters ++ w'.chapters.map NewChapter.number) := by
  induction h with
  | nil => exact ⟨hstates, hchapters⟩
  | @cons transaction rest w w₁ w' tolds later first _ ih =>
    have grows := first.grows live unused
    refine ih (live.effect unused first) (unused.effect live first) ?_ ?_
    · rcases grows.states with hn | ⟨n, hn, -, reaches⟩
      · rw [hn]
        exact hstates.onward grows.onward
      · rw [hn, List.map_append, ← List.append_assoc]
        exact hstates.reach grows.onward reaches
    · rcases grows.chapters with hc | ⟨c, hc, -, reaches⟩
      · rw [hc]
        exact hchapters.onward grows.onward
      · rw [hc, List.map_append, ← List.append_assoc]
        exact hchapters.reach grows.onward reaches

/-- The new states and chapters are those of different transactions. -/
theorem Effects.added (h : Effects packages binding heights height txs w w' tolds) (live : Live w)
    (unused : Unused packages binding w (txs.map BitcoinTransaction.txid)) :
    (∃ ids : List Hash, ids.Sublist (txs.map BitcoinTransaction.txid) ∧
      w'.newStates.map NewState.outpoint = w.newStates.map NewState.outpoint ++ ids.map successorOf) ∧
    ∃ ids : List Hash, ids.Sublist (txs.map BitcoinTransaction.txid) ∧
      w'.chapters.map NewChapter.txid = w.chapters.map NewChapter.txid ++ ids := by
  induction h with
  | nil => exact ⟨⟨[], List.nil_sublist _, by simp⟩, [], List.nil_sublist _, by simp⟩
  | @cons transaction rest w w₁ w' tolds later first _ ih =>
    have grows := first.grows live unused
    obtain ⟨⟨ids, hids, hs⟩, ids', hids', hc⟩ := ih (live.effect unused first) (unused.effect live first)
    refine ⟨?_, ?_⟩
    · rcases grows.states with hn | ⟨n, hn, ho, -⟩
      · exact ⟨ids, hids.cons _, by rw [hs, hn]⟩
      · exact ⟨transaction.txid :: ids, hids.cons_cons _, by simp [hs, hn, ho]⟩
    · rcases grows.chapters with hn | ⟨c, hn, ho, -⟩
      · exact ⟨ids', hids'.cons _, by rw [hc, hn]⟩
      · exact ⟨transaction.txid :: ids', hids'.cons_cons _, by simp [hc, hn, ho]⟩

/-- An object that is there at the end was there before, or is one of the transactions'. -/
theorem Effects.createTxid (h : Effects packages binding heights height txs w w' tolds) (live : Live w)
    (unused : Unused packages binding w (txs.map BitcoinTransaction.txid)) {k : Hash} {r : ObjectRecord}
    (hr : w'.objects.get? k = some r) : r.createTxid ∈ txs.map BitcoinTransaction.txid ∨
      ∃ r₀, w.objects.get? k = some r₀ ∧ r.createTxid = r₀.createTxid := by
  induction h with
  | nil => exact .inr ⟨r, hr, rfl⟩
  | @cons transaction rest w w₁ w' tolds later first _ ih =>
    rcases ih (live.effect unused first) (unused.effect live first) hr with hm | ⟨r₁, hr₁, he⟩
    · exact .inl (List.mem_cons_of_mem _ hm)
    · rcases first.createTxid live unused hr₁ with he' | ⟨r₀, hr₀, he'⟩
      · exact .inl (by rw [he, he']; exact List.mem_cons_self)
      · exact .inr ⟨r₀, hr₀, he.trans he'⟩

end

end IndexTandem.Indexer
