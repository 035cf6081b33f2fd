import IndexTandem.Indexer.Keys

/-!
# Reachable objects

`Reachable chain log cursor` says that reducing the blocks of a chain one after the other, from
no object and the initial root, emits the events of the log and ends in the cursor; nothing
is said about a database. On a chain with txids and object keys of its own, every object is
that of a transaction of the chain, and every carrier is an output of one (`Owned`). So the
next block may be reduced (`Reachable.admissible`).
-/

namespace IndexTandem.Indexer

open Library Protocol

variable {packages : Packages} {binding : Binding} {heights : InitHeights} {height : ℕ}

/-- The events and the cursor after the blocks of the chain. The newest block comes first, the newest event last. -/
inductive Reachable (packages : Packages) (binding : Binding) :
    List BitcoinBlock → List EventRecord → Cursor → Prop
  /-- No block. -/
  | start : Reachable packages binding [] [] (Cursor.initial packages binding)
  /-- One more block. -/
  | next {chain : List BitcoinBlock} {log : List EventRecord} {cursor : Cursor} {block : BitcoinBlock}
      {reduced : ReducedBlock} (reached : Reachable packages binding chain log cursor)
      (reduces : cursor.reduce packages binding block = .ok reduced) :
      Reachable packages binding (block :: chain) (log ++ reduced.events) (Cursor.after reduced)

theorem Replay.reached {chain : List BitcoinBlock} {index : Index} (h : Replay packages binding chain index) :
    ∃ log, Reachable packages binding chain log index.toCursor := by
  induction h with
  | empty => exact ⟨[], .start⟩
  | connect _ _ reduces _ ih =>
    obtain ⟨log, reached⟩ := ih
    exact ⟨_, reached.next reduces⟩

/-- The objects and their carriers come from transactions of a list. -/
structure Owned (packages : Packages) (binding : Binding) (txids : List Hash) (objects : JsMap Hash ObjectRecord) :
    Prop where
  /-- Every object is that of a transaction. -/
  keys : ∀ k r, objects.get? k = some r → ∃ t ∈ txids, k = keyOf packages binding t
  /-- Every carrier is the output of a transaction. -/
  carriers : ∀ k r o, objects.get? k = some r → r.currentOutpoint = some o → ∃ t ∈ txids, o = successorOf t

theorem Owned.mono {txids txids' : List Hash} {objects : JsMap Hash ObjectRecord}
    (h : Owned packages binding txids objects) (hsub : ∀ t ∈ txids, t ∈ txids') :
    Owned packages binding txids' objects where
  keys k r hr := by
    obtain ⟨t, ht, hk⟩ := h.keys k r hr
    exact ⟨t, hsub t ht, hk⟩
  carriers k r o hr ho := by
    obtain ⟨t, ht, hc⟩ := h.carriers k r o hr ho
    exact ⟨t, hsub t ht, hc⟩

section

variable {transaction : BitcoinTransaction} {w w' : WorkingState} {tolds : List Told}

/-- A transaction makes its own object and its own carrier only. -/
theorem Effect.owned (live : Live w) {txids later : List Hash}
    (unused : Unused packages binding w (transaction.txid :: later))
    (h : Effect packages binding heights height transaction w w' tolds)
    (owned : Owned packages binding txids w.objects) :
    Owned packages binding (transaction.txid :: txids) w'.objects := by
  have hbefore := owned.mono fun t ht => List.mem_cons_of_mem transaction.txid ht
  constructor
  · intro k r hr
    cases h.fate live unused k with
    | kept _ same => exact hbefore.keys k r (same.symm.trans hr)
    | born _ own => exact ⟨transaction.txid, List.mem_cons_self, own⟩
    | moved _ found => exact hbefore.keys k _ found
    | ended _ found => exact hbefore.keys k _ found
  · intro k r o hr ho
    cases h.fate live unused k with
    | kept _ same => exact hbefore.carriers k r o (same.symm.trans hr) ho
    | born _ _ made =>
      obtain rfl := Option.some.inj (made.symm.trans hr)
      exact ⟨transaction.txid, List.mem_cons_self, (Option.some.inj ho).symm⟩
    | moved _ _ made =>
      obtain rfl := Option.some.inj (made.symm.trans hr)
      exact ⟨transaction.txid, List.mem_cons_self, (Option.some.inj ho).symm⟩
    | ended _ _ _ _ made =>
      obtain rfl := Option.some.inj (made.symm.trans hr)
      cases ho

theorem Effects.owned {txs : List BitcoinTransaction} (h : Effects packages binding heights height txs w w' tolds)
    (live : Live w) (unused : Unused packages binding w (txs.map BitcoinTransaction.txid)) {txids : List Hash}
    (owned : Owned packages binding txids w.objects) :
    Owned packages binding (txs.map BitcoinTransaction.txid ++ txids) w'.objects := by
  induction h generalizing txids with
  | nil => exact owned
  | @cons transaction rest _ _ _ _ _ first _ ih =>
    have hnext := ih (live.effect unused first) (unused.effect live first) (first.owned live unused owned)
    exact hnext.mono fun t ht => by
      rw [List.mem_append, List.mem_cons] at ht
      rw [List.map_cons, List.cons_append, List.mem_cons, List.mem_append]
      tauto

end

/-- What a part of the transactions would create is new when that of all is. -/
theorem Unused.sublist {w : WorkingState} {txids part : List Hash} (h : Unused packages binding w txids)
    (hpart : part.Sublist txids) : Unused packages binding w part where
  keys t ht := h.keys t (hpart.subset ht)
  outpoints t ht := h.outpoints t (hpart.subset ht)
  distinct := h.distinct.sublist hpart
  apart := h.apart.sublist (hpart.map _)

/-- What is known about reached objects. -/
structure Rooted (packages : Packages) (binding : Binding) (chain : List BitcoinBlock) (cursor : Cursor) : Prop where
  /-- Every record is under its key. -/
  named : Named cursor.objects
  /-- Active records have different carriers. -/
  distinct : DistinctActive cursor.objects
  /-- The objects are those of the chain's transactions. -/
  owned : Owned packages binding (txidsOf chain) cursor.objects
  /-- The INIT is known after the first block, -/
  known : cursor.activation = none ↔ chain = []
  /-- and is in the chain; -/
  behind : cursor.activation ≠ none → binding.initTxid ∈ txidsOf chain
  /-- before there is no object. -/
  bare : chain = [] → cursor.objects = ∅

section

variable {chain : List BitcoinBlock} {log : List EventRecord} {cursor : Cursor} {block : BitcoinBlock}

/-- The next block may be reduced. -/
theorem Rooted.admissible (h : Rooted packages binding chain cursor)
    (d : Distinct packages binding (block :: chain)) :
    Admissible packages binding cursor.activation cursor.objects block where
  named := h.named
  distinct := h.distinct
  unused := by
    refine ⟨fun txid ht => ?_, fun txid ht k r hr _ ho => ?_, d.own, ?_⟩
    · show cursor.objects.get? (keyOf packages binding txid) = none
      rw [Option.eq_none_iff_forall_not_mem]
      intro r hr
      obtain ⟨earlier, hearlier, hk⟩ := h.owned.keys _ r hr
      exact d.key_ne ht hearlier hk.symm
    · obtain ⟨earlier, hearlier, ho'⟩ := h.owned.carriers k r _ hr ho
      obtain rfl : txid = earlier := congrArg Outpoint.txid ho'
      exact d.not_earlier ht hearlier
    · have hkeys := d.keys
      rw [txidsOf_cons, List.map_append] at hkeys
      exact (List.nodup_append.mp hkeys).1
  behind hact tx htx hid := d.not_earlier (List.mem_map_of_mem htx) (hid ▸ h.behind hact)
  bare hact k := by
    rw [h.bare (h.known.mp hact)]
    exact JsMap.get?_empty k

/-- **Reachable objects** are those of the chain. -/
theorem Reachable.rooted (contract : ValidatorContract packages.validate)
    (h : Reachable packages binding chain log cursor) (d : Distinct packages binding chain) : Rooted packages binding chain cursor := by
  induction h with
  | start =>
    refine ⟨fun k r hr => ?_, fun k k' r r' o hr => ?_, ⟨fun k r hr => ?_, fun k r o hr => ?_⟩, ?_, fun hne => ?_,
      fun _ => rfl⟩
    · simp [Cursor.initial] at hr
    · simp [Cursor.initial] at hr
    · simp [Cursor.initial] at hr
    · simp [Cursor.initial] at hr
    · simp [Cursor.initial]
    · exact absurd rfl hne
  | @next chain log cursor block reduced reached reduces ih =>
    have rooted := ih d.tail
    have input := rooted.admissible d
    obtain ⟨heights, txs, w, hreduces⟩ := reduceBlock_effects contract input reduces
    have live := Live.start input.named input.distinct
    have hpart : (txs.map BitcoinTransaction.txid).Sublist (block.transactions.map BitcoinTransaction.txid) :=
      hreduces.part.map _
    have howned := hreduces.effects.owned live (input.unused.sublist hpart) rooted.owned
    obtain ⟨hsome, hnone⟩ := reduceBlock_activation reduces
    refine ⟨?_, ?_, ?_, ?_, fun _ => ?_, fun he => absurd he (List.cons_ne_nil _ _)⟩
    · show Named reduced.objects
      rw [hreduces.objects]
      exact hreduces.live.named
    · show DistinctActive reduced.objects
      rw [hreduces.objects]
      exact fun k k' r r' o hr hr' ha ha' ho ho' => hreduces.live.distinct hr hr' ha ha' ho ho'
    · show Owned packages binding _ reduced.objects
      rw [hreduces.objects]
      refine howned.mono fun t ht => ?_
      rw [txidsOf_cons, List.mem_append]
      exact (List.mem_append.mp ht).imp_left fun h => hpart.subset h
    · simp [Cursor.after]
    · rw [txidsOf_cons, List.mem_append]
      cases hact : cursor.activation with
      | none =>
        obtain ⟨-, -, -, -, tx, htx, hid⟩ := hnone hact
        exact .inl (hid ▸ List.mem_map_of_mem htx)
      | some a => exact .inr (rooted.behind (by simp [hact]))

/-- **The next block may be reduced** after any reached cursor. -/
theorem Reachable.admissible (contract : ValidatorContract packages.validate)
    (h : Reachable packages binding chain log cursor) (d : Distinct packages binding (block :: chain)) :
    Admissible packages binding cursor.activation cursor.objects block := (h.rooted contract d.tail).admissible d

end

end IndexTandem.Indexer
