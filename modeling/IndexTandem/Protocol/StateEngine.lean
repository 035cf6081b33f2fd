import IndexTandem.Library.Keyed
import IndexTandem.Library.Lists

/-!
# The reference state engine

`applyStateTransition` is the pure reference for the life of an object: a CREATE makes it,
a MARK or ROTATE moves it to the next carrier, a CLOSE, REFUND or noncanonical exit ends
it. Every guard that fails throws a `StateInvariantError`. Keys, outpoints and txids are
texts in the source; nothing depends on what they are, so they are arbitrary here.

A transition reads and replaces the record of one object (`applyStateTransition_eq`), so a
whole run is a run of each object, and the laws of runs are proved object by object from
what one transition does (`transition_ok`).
-/

namespace IndexTandem.Protocol

open Library

/-! ### The engine -/

/-- `TandemObjectStatus`. -/
inductive TandemObjectStatus where
  /-- The object has a carrier. -/
  | active
  /-- Ended by a CLOSE. -/
  | closed
  /-- Ended by a REFUND. -/
  | refunded
  /-- Ended by any other spend. -/
  | exited_noncanonical
  deriving DecidableEq

/-- `IndexedObjectState`, over object keys `K`, outpoints `O` and txids `X`. -/
structure IndexedObjectState (K O X : Type) where
  /-- The object. -/
  objectKey : K
  /-- Its status. -/
  status : TandemObjectStatus
  /-- Its sequence. -/
  sequence : ℕ
  /-- Its carrier. -/
  currentOutpoint : Option O
  /-- The first key. -/
  key0 : String
  /-- The second key. -/
  key1 : String
  /-- The number of its chapters. -/
  chapterCount : ℕ
  /-- The transaction that ended it. -/
  terminalTxid : Option X
  deriving DecidableEq

/-- `StateTransition`. -/
inductive StateTransition (K O X : Type) where
  /-- A new object. -/
  | CREATE (objectKey : K) (successorOutpoint : O) (key0 key1 : String)
  /-- A chapter; the carrier moves on. -/
  | MARK (objectKey : K) (sequence : ℕ) (predecessorOutpoint successorOutpoint : O) (key0 key1 : String)
  /-- New keys; the carrier moves on. -/
  | ROTATE (objectKey : K) (sequence : ℕ) (predecessorOutpoint successorOutpoint : O) (key0 key1 : String)
  /-- The end by a CLOSE. -/
  | CLOSE (objectKey : K) (sequence : ℕ) (predecessorOutpoint : O) (terminalTxid : X)
  /-- The end by a REFUND. -/
  | REFUND (objectKey : K) (predecessorOutpoint : O) (terminalTxid : X)
  /-- The end by any other spend. -/
  | EXITED_NONCANONICAL (objectKey : K) (predecessorOutpoint : O) (terminalTxid : X)
  deriving DecidableEq

variable {K O X : Type} [DecidableEq O]

namespace StateTransition

/-- The object. -/
def objectKey : StateTransition K O X → K
  | CREATE k .. | MARK k .. | ROTATE k .. | CLOSE k .. | REFUND k .. | EXITED_NONCANONICAL k .. => k

/-- The carrier it creates. -/
def successor : StateTransition K O X → Option O
  | CREATE _ o _ _ | MARK _ _ _ o _ _ | ROTATE _ _ _ o _ _ => some o
  | _ => none

/-- It takes the next sequence. -/
def sequenced : StateTransition K O X → Bool
  | MARK .. | ROTATE .. | CLOSE .. => true
  | _ => false

/-- It is a MARK. -/
def isMark : StateTransition K O X → Bool
  | MARK .. => true
  | _ => false

/-- It ends its object. -/
def terminal : StateTransition K O X → Bool
  | CLOSE .. | REFUND .. | EXITED_NONCANONICAL .. => true
  | _ => false

end StateTransition

/-- The objects. -/
abbrev States (K O X : Type) := JsMap K (IndexedObjectState K O X)

/-- `requireActive(states, objectKey, predecessorOutpoint)`, on the object's state. -/
def requireActive (current : Option (IndexedObjectState K O X)) (predecessorOutpoint : O) :
    Except String (IndexedObjectState K O X) :=
  match current with
  | none => throw "predecessor object is not active"
  | some current => do
    ensure (current.status = .active) "predecessor object is not active"
    ensure (current.currentOutpoint = some predecessorOutpoint) "predecessor outpoint does not match current state"
    pure current

/-- The record of an object that a MARK or ROTATE moved on. -/
def IndexedObjectState.movedOn (current : IndexedObjectState K O X) (sequence : ℕ) (successorOutpoint : O)
    (key0 key1 : String) (chapters : ℕ) : IndexedObjectState K O X := { current with
  sequence := sequence
  currentOutpoint := some successorOutpoint
  key0 := key0
  key1 := key1
  chapterCount := current.chapterCount + chapters }

/-- The record of an object that ended. -/
def IndexedObjectState.finish (current : IndexedObjectState K O X) (status : TandemObjectStatus) (sequence : ℕ)
    (terminalTxid : X) : IndexedObjectState K O X := { current with
  status := status
  sequence := sequence
  currentOutpoint := none
  terminalTxid := some terminalTxid }

/-- What a transition makes of the state of its object. -/
def transition (current : Option (IndexedObjectState K O X)) :
    StateTransition K O X → Except String (IndexedObjectState K O X)
  | .CREATE objectKey successorOutpoint key0 key1 => do
    ensure (current.isNone = true) "object already exists"
    pure ⟨objectKey, .active, 0, some successorOutpoint, key0, key1, 0, none⟩
  | .MARK _ sequence predecessorOutpoint successorOutpoint key0 key1 => do
    let current ← requireActive current predecessorOutpoint
    ensure (sequence = current.sequence + 1) "state sequence must increase by exactly one"
    pure (current.movedOn sequence successorOutpoint key0 key1 1)
  | .ROTATE _ sequence predecessorOutpoint successorOutpoint key0 key1 => do
    let current ← requireActive current predecessorOutpoint
    ensure (sequence = current.sequence + 1) "state sequence must increase by exactly one"
    pure (current.movedOn sequence successorOutpoint key0 key1 0)
  | .CLOSE _ sequence predecessorOutpoint terminalTxid => do
    let current ← requireActive current predecessorOutpoint
    ensure (sequence = current.sequence + 1) "close sequence must increase by exactly one"
    pure (current.finish .closed sequence terminalTxid)
  | .REFUND _ predecessorOutpoint terminalTxid => do
    let current ← requireActive current predecessorOutpoint
    pure (current.finish .refunded current.sequence terminalTxid)
  | .EXITED_NONCANONICAL _ predecessorOutpoint terminalTxid => do
    let current ← requireActive current predecessorOutpoint
    pure (current.finish .exited_noncanonical current.sequence terminalTxid)

/-- `applyStateTransition(states, transition)`: `states.get(transition.objectKey)` is read, and replaced
in a copy. -/
def applyStateTransition [DecidableEq K] (states : States K O X) (t : StateTransition K O X) : Except String (States K O X) := do
  let next ← transition (states.get? t.objectKey) t
  pure (states.set t.objectKey next)

/-- The transitions of a list, one after the other, from the empty map. -/
def applyAll [DecidableEq K] (l : List (StateTransition K O X)) : Except String (States K O X) :=
  l.foldlM applyStateTransition ∅

/-- The transitions of one object. -/
abbrev transitionsOf [DecidableEq K] (k : K) (l : List (StateTransition K O X)) : List (StateTransition K O X) :=
  ofKey StateTransition.objectKey k l

/-! ### What one transition does -/

theorem requireActive_eq_ok {current : Option (IndexedObjectState K O X)} {predecessor : O}
    {r : IndexedObjectState K O X} : requireActive current predecessor = .ok r ↔
      current = some r ∧ r.status = .active ∧ r.currentOutpoint = some predecessor := by
  unfold requireActive
  cases current with
  | none => simp
  | some c =>
    simp only [bind_eq_ok, ensure_eq_ok, pure_eq_ok, exists_const, Option.some.injEq]
    constructor
    · rintro ⟨h₁, h₂, rfl⟩
      exact ⟨rfl, h₁, h₂⟩
    · rintro ⟨rfl, h₁, h₂⟩
      exact ⟨h₁, h₂, rfl⟩

/-- What a record and the transition that made it have to do with the record before. -/
inductive Transits (t : StateTransition K O X) : Option (IndexedObjectState K O X) → IndexedObjectState K O X → Prop
  /-- The object is new. -/
  | created {r : IndexedObjectState K O X} (active : r.status = .active) (outpoint : r.currentOutpoint = t.successor)
      (carried : r.currentOutpoint.isSome = true) (sequence : r.sequence = 0) (chapters : r.chapterCount = 0)
      (alive : r.terminalTxid = none) (plain : t.sequenced = false ∧ t.isMark = false ∧ t.terminal = false) :
      Transits t none r
  /-- It moves on. -/
  | moved {current r : IndexedObjectState K O X} (was : current.status = .active) (active : r.status = .active)
      (outpoint : r.currentOutpoint = t.successor) (carried : r.currentOutpoint.isSome = true)
      (sequence : r.sequence = current.sequence + 1)
      (chapters : r.chapterCount = current.chapterCount + if t.isMark then 1 else 0)
      (alive : r.terminalTxid = current.terminalTxid) (counted : t.sequenced = true ∧ t.terminal = false) :
      Transits t (some current) r
  /-- It ends. -/
  | ended {current r : IndexedObjectState K O X} (was : current.status = .active) (finished : r.status ≠ .active)
      (outpoint : r.currentOutpoint = none) (bare : t.successor = none)
      (sequence : r.sequence = current.sequence + if t.sequenced then 1 else 0)
      (chapters : r.chapterCount = current.chapterCount) (dead : r.terminalTxid.isSome = true)
      (ends : t.terminal = true ∧ t.isMark = false) : Transits t (some current) r

/-- **What a transition does** that goes through. -/
theorem transition_ok {current : Option (IndexedObjectState K O X)} {t : StateTransition K O X}
    {r : IndexedObjectState K O X} (h : transition current t = .ok r) : Transits t current r := by
  cases t with
  | CREATE k o key0 key1 =>
    simp only [transition, bind_eq_ok, ensure_eq_ok, exists_const, pure_eq_ok, Option.isNone_iff_eq_none] at h
    obtain ⟨rfl, rfl⟩ := h
    exact .created rfl rfl rfl rfl rfl rfl ⟨rfl, rfl, rfl⟩
  | MARK k s p o key0 key1 =>
    simp only [transition, bind_eq_ok, requireActive_eq_ok, ensure_eq_ok, exists_const, pure_eq_ok] at h
    obtain ⟨c, ⟨rfl, hactive, -⟩, hs, rfl⟩ := h
    exact .moved hactive hactive rfl rfl hs rfl rfl ⟨rfl, rfl⟩
  | ROTATE k s p o key0 key1 =>
    simp only [transition, bind_eq_ok, requireActive_eq_ok, ensure_eq_ok, exists_const, pure_eq_ok] at h
    obtain ⟨c, ⟨rfl, hactive, -⟩, hs, rfl⟩ := h
    exact .moved hactive hactive rfl rfl hs rfl rfl ⟨rfl, rfl⟩
  | CLOSE k s p x =>
    simp only [transition, bind_eq_ok, requireActive_eq_ok, ensure_eq_ok, exists_const, pure_eq_ok] at h
    obtain ⟨c, ⟨rfl, hactive, -⟩, hs, rfl⟩ := h
    exact .ended hactive (by simp [IndexedObjectState.finish]) rfl rfl hs rfl rfl ⟨rfl, rfl⟩
  | REFUND k p x =>
    simp only [transition, bind_eq_ok, requireActive_eq_ok, pure_eq_ok] at h
    obtain ⟨c, ⟨rfl, hactive, -⟩, rfl⟩ := h
    exact .ended hactive (by simp [IndexedObjectState.finish]) rfl rfl rfl rfl rfl ⟨rfl, rfl⟩
  | EXITED_NONCANONICAL k p x =>
    simp only [transition, bind_eq_ok, requireActive_eq_ok, pure_eq_ok] at h
    obtain ⟨c, ⟨rfl, hactive, -⟩, rfl⟩ := h
    exact .ended hactive (by simp [IndexedObjectState.finish]) rfl rfl rfl rfl rfl ⟨rfl, rfl⟩

/-! ### Laws of a run of one object -/

/-- What the transitions of one object, in order, say about its record. -/
structure Lawful (l : List (StateTransition K O X)) (r : IndexedObjectState K O X) : Prop where
  /-- It is active while it has a carrier. -/
  carried : r.status = .active ↔ r.currentOutpoint.isSome = true
  /-- It has a carrier until it ends. -/
  alive : r.currentOutpoint.isSome = true ↔ r.terminalTxid = none
  /-- Its sequence counts the transitions that take one. -/
  sequence : r.sequence = l.countP StateTransition.sequenced
  /-- Its chapters are the MARKs. -/
  chapters : r.chapterCount = l.countP StateTransition.isMark
  /-- Its carrier is the last one created. -/
  outpoint : r.status = .active → r.currentOutpoint = (l.filterMap StateTransition.successor).getLast?
  /-- It is active until a transition ends it. -/
  finished : r.status = .active ↔ ∀ t ∈ l, t.terminal = false

/-- **The laws of one object.** -/
theorem lawful_of_runOne {l : List (StateTransition K O X)} {r : IndexedObjectState K O X}
    (h : runOne transition none l = .ok (some r)) : Lawful l r := by
  refine runOne_induct Lawful (fun t s hs => ?_) (fun l r t s hr hs => ?_) h
  · cases transition_ok hs with
    | created active outpoint carried sequence chapters alive plain =>
      obtain ⟨h₁, h₂, h₃⟩ := plain
      refine ⟨by simp [active, carried], by simp [carried, alive], by simp [sequence, h₁], by simp [chapters, h₂],
        fun _ => ?_, by simp [active, h₃]⟩
      obtain ⟨o, ho⟩ := Option.isSome_iff_exists.mp (outpoint ▸ carried)
      simp [outpoint, ho]
  · cases transition_ok hs with
    | moved was active outpoint carried sequence chapters alive counted =>
      obtain ⟨h₁, h₂⟩ := counted
      have hlive : r.terminalTxid = none := hr.alive.mp (hr.carried.mp was)
      refine ⟨by simp [active, carried], by simp [carried, alive, hlive], ?_, ?_, fun _ => ?_, ?_⟩
      · rw [sequence, hr.sequence, List.countP_append]
        simp [h₁]
      · rw [chapters, hr.chapters, List.countP_append]
        simp [List.countP_cons]
      · obtain ⟨o, ho⟩ := Option.isSome_iff_exists.mp (outpoint ▸ carried)
        simp [outpoint, ho, List.filterMap_append]
      · have hbefore := hr.finished.mp was
        simp only [active, true_iff, List.mem_append, List.mem_singleton]
        rintro u (hu | rfl)
        · exact hbefore u hu
        · exact h₂
    | ended was finished outpoint bare sequence chapters dead ends =>
      obtain ⟨h₁, h₂⟩ := ends
      refine ⟨by simp [finished, outpoint], ?_, ?_, ?_, fun ha => absurd ha finished, ?_⟩
      · rw [outpoint]
        simpa using (Option.isSome_iff_ne_none.mp dead)
      · rw [sequence, hr.sequence, List.countP_append]
        simp [List.countP_cons]
      · rw [chapters, hr.chapters, List.countP_append]
        simp [h₂]
      · refine iff_of_false finished fun hall => ?_
        have := hall t (List.mem_append_right _ (List.mem_singleton.mpr rfl))
        exact Bool.false_ne_true (this.symm.trans h₁)

/-- An object that ended takes no further transition. -/
theorem transition_of_ended {r : IndexedObjectState K O X} (h : r.status ≠ .active) (t : StateTransition K O X) :
    ∃ e, transition (some r) t = .error e := by
  cases ht : transition (some r) t with
  | error e => exact ⟨e, rfl⟩
  | ok s =>
    cases transition_ok ht with
    | moved was => exact absurd was h
    | ended was => exact absurd was h

/-! ### Laws of a whole run -/

variable [DecidableEq K]

/-- What an accepted list of transitions says about the map it leaves. -/
structure RunLaws (l : List (StateTransition K O X)) (states : States K O X) : Prop where
  /-- Each record is what the transitions of its object say. -/
  records : ∀ k r, states.get? k = some r → Lawful (transitionsOf k l) r
  /-- After a terminal transition every further one of the object is rejected. -/
  absorbing : ∀ t ∈ l, t.terminal = true → ∀ u, u.objectKey = t.objectKey →
    ∃ e, applyStateTransition states u = .error e
  /-- A record depends only on the transitions of its object. -/
  depends : ∀ l' states', applyAll l' = .ok states' → ∀ k, transitionsOf k l' = transitionsOf k l →
    states'.get? k = states.get? k
  /-- Any other interleaving of the objects' transitions is accepted too, and ends in the same map. -/
  interleaving : ∀ l', (∀ k, transitionsOf k l' = transitionsOf k l) →
    ∃ states', applyAll l' = .ok states' ∧ JsMap.Same states states'
  /-- One carrier, one object. -/
  carriers : (l.filterMap StateTransition.successor).Nodup → ∀ k k' r r', states.get? k = some r →
    states.get? k' = some r' → r.status = .active → r'.status = .active → r.currentOutpoint = r'.currentOutpoint →
    k = k'

omit [DecidableEq O] in
/-- The carrier of an active record was created by a transition of its object. -/
theorem Lawful.source {k : K} {l : List (StateTransition K O X)} {r : IndexedObjectState K O X}
    (h : Lawful (transitionsOf k l) r) (active : r.status = .active) :
    ∃ t ∈ l, t.objectKey = k ∧ ∃ o, t.successor = some o ∧ r.currentOutpoint = some o := by
  obtain ⟨o, ho⟩ := Option.isSome_iff_exists.mp (h.carried.mp active)
  have hlast := h.outpoint active
  rw [ho] at hlast
  obtain ⟨t, ht, hto⟩ := List.mem_filterMap.mp (List.mem_of_getLast? hlast.symm)
  obtain ⟨hl, hk⟩ := List.mem_filter.mp ht
  exact ⟨t, hl, of_decide_eq_true hk, o, hto, ho⟩

/-- **The laws of every accepted run**, from the empty map. -/
theorem applyAll_laws {l : List (StateTransition K O X)} {states : States K O X} (h : applyAll l = .ok states) :
    RunLaws l states := by
  have hone : ∀ k, runOne transition none (transitionsOf k l) = .ok (states.get? k) := fun k => get?_runAt h k
  have hlaws : ∀ k r, states.get? k = some r → Lawful (transitionsOf k l) r := fun k r hr =>
    lawful_of_runOne (hr ▸ hone k)
  refine ⟨hlaws, fun t ht hterm u hu => ?_, fun l' states' h' k hk => ?_, fun l' hl => runAt_interleaving h hl,
    fun hn k k' r r' hr hr' ha ha' ho => ?_⟩
  · have hmem : t ∈ transitionsOf t.objectKey l := List.mem_filter.mpr ⟨ht, decide_eq_true rfl⟩
    cases hr : states.get? t.objectKey with
    | none =>
      -- The transition itself would have left a record.
      have hrun := hone t.objectKey
      rw [hr] at hrun
      exact absurd (runOne_none hrun) (List.ne_nil_of_mem hmem)
    | some r =>
      have hover : r.status ≠ .active := fun ha =>
        Bool.false_ne_true (((hlaws _ r hr).finished.mp ha t hmem).symm.trans hterm)
      obtain ⟨e, he⟩ := transition_of_ended hover u
      refine ⟨e, ?_⟩
      unfold applyStateTransition
      rw [hu, hr, he]
      rfl
  · have h₁ : runOne transition none (transitionsOf k l') = .ok (states'.get? k) := get?_runAt h' k
    rw [hk, hone k] at h₁
    exact (Except.ok.inj h₁).symm
  · obtain ⟨t, ht, rfl, o, hto, hro⟩ := (hlaws k r hr).source ha
    obtain ⟨t', ht', rfl, o', hto', hro'⟩ := (hlaws k' r' hr').source ha'
    obtain rfl : o = o' := Option.some.inj (hro.symm.trans (ho.trans hro'))
    exact congrArg StateTransition.objectKey (eq_of_nodup_filterMap hn ht ht' hto hto')

/-- Two objects; the first is marked and closed while the second is created. -/
def sampleTransitions : List (StateTransition ℕ ℕ ℕ) :=
  [.CREATE 0 10 "a" "b", .MARK 0 1 10 11 "a" "b", .CREATE 1 20 "c" "d", .CLOSE 0 2 11 12]

theorem applyAll_laws_sample : ∃ states, applyAll sampleTransitions = .ok states ∧
    (states.get? 0).map IndexedObjectState.status = some .closed ∧ RunLaws sampleTransitions states :=
  ⟨_, rfl, rfl, applyAll_laws rfl⟩

end IndexTandem.Protocol
