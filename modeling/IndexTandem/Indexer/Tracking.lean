import IndexTandem.Indexer.Steps
import IndexTandem.Indexer.Writing
import Mathlib.Data.List.Pairwise

/-!
# The working state of a block

How the working state of the reducer relates to the objects before the block (`Tracks`):
every object touched has its earlier record in the undo map and the others are as they
were; a carrier is either the one the object had before the block or the outpoint of a
state the block created, and it is not among the carriers spent.

None of this needs the validator to be right. It needs the states of the block to have
new keys (`Fresh`), which the database checks when the block is written: a validator that
reported two operations for one transaction, or created an object twice, would run into
a unique key.
-/

namespace IndexTandem.Indexer

open Library Protocol

variable {packages : Packages} {binding : Binding} {height : ℕ} {txid : Hash} {txids : List Hash}

/-! ### The fields of a changed state -/

@[simp] theorem touch_objects (w : WorkingState) (k : Hash) : (touch w k).objects = w.objects := by
  unfold touch; split_ifs <;> rfl

@[simp] theorem touch_activeByOutpoint (w : WorkingState) (k : Hash) :
    (touch w k).activeByOutpoint = w.activeByOutpoint := by
  unfold touch; split_ifs <;> rfl

@[simp] theorem touch_newStates (w : WorkingState) (k : Hash) : (touch w k).newStates = w.newStates := by
  unfold touch; split_ifs <;> rfl

@[simp] theorem touch_spentOutpoints (w : WorkingState) (k : Hash) :
    (touch w k).spentOutpoints = w.spentOutpoints := by
  unfold touch; split_ifs <;> rfl

@[simp] theorem touch_chapters (w : WorkingState) (k : Hash) : (touch w k).chapters = w.chapters := by
  unfold touch; split_ifs <;> rfl

theorem get?_touch_undo (w : WorkingState) (key k : Hash) :
    (touch w key).undo.get? k =
      if k = key ∧ w.undo.get? key = none then some (w.objects.get? key) else w.undo.get? k := by
  unfold touch
  cases h : w.undo.get? key with
  | some p => simp [JsMap.has, h]
  | none => by_cases hk : k = key <;> simp [JsMap.has, h, hk]

@[simp] theorem spendCurrent_objects (w : WorkingState) (r : ObjectRecord) (txid : Hash) :
    (spendCurrent w r txid).objects = w.objects := by
  unfold spendCurrent; split <;> rfl

@[simp] theorem spendCurrent_undo (w : WorkingState) (r : ObjectRecord) (txid : Hash) :
    (spendCurrent w r txid).undo = w.undo := by
  unfold spendCurrent; split <;> rfl

@[simp] theorem spendCurrent_newStates (w : WorkingState) (r : ObjectRecord) (txid : Hash) :
    (spendCurrent w r txid).newStates = w.newStates := by
  unfold spendCurrent; split <;> rfl

@[simp] theorem spendCurrent_chapters (w : WorkingState) (r : ObjectRecord) (txid : Hash) :
    (spendCurrent w r txid).chapters = w.chapters := by
  unfold spendCurrent; split <;> rfl

@[simp] theorem spendCurrent_spentOutpoints (w : WorkingState) (r : ObjectRecord) (txid : Hash) :
    (spendCurrent w r txid).spentOutpoints =
      w.spentOutpoints ++ (r.currentOutpoint.map fun o => (⟨o, txid⟩ : SpentOutpoint)).toList := by
  unfold spendCurrent; split <;> rename_i h <;> simp [h]

/-! ### One step -/

/-- What a step does to the object it is about: it sets its record, keeps the earlier one in the
undo map, and adds a state when the new record has a carrier. -/
structure Changes (packages : Packages) (binding : Binding) (height : ℕ) (txid : Hash) (w w' : WorkingState)
    (key : Hash) (new : ObjectRecord) : Prop where
  /-- Only this object's record changes. -/
  objects : ∀ k, w'.objects.get? k = if k = key then some new else w.objects.get? k
  /-- Its first record goes to the undo map. -/
  undo : ∀ k, w'.undo.get? k =
    if k = key ∧ w.undo.get? key = none then some (w.objects.get? key) else w.undo.get? k
  /-- The record has its key. -/
  objectKey : new.objectKey = key
  /-- The carrier of a record that has one is the transaction's, with a state for it. -/
  successor : new.currentOutpoint = some (successorOf txid) ∧ new.currentHeight = some height ∧
      w'.newStates = w.newStates ++ [⟨successorOf txid, key, new.stateSequence, new.key0, new.key1⟩] ∨
    new.currentOutpoint = none ∧ new.currentHeight = none ∧ w'.newStates = w.newStates
  /-- The object is new, or its earlier carrier is spent. -/
  origin : objectKeyFromWire packages.sha256 binding.ns new.createTxid = key ∧ new.stateSequence = 0 ∧
      new.currentOutpoint = some (successorOf txid) ∧ new.createTxid = txid ∧ new.createHeight = height ∧
      w'.spentOutpoints = w.spentOutpoints ∨
    ∃ old, w.objects.get? key = some old ∧ new.createTxid = old.createTxid ∧ new.createHeight = old.createHeight ∧
      w'.spentOutpoints = w.spentOutpoints ++
        (old.currentOutpoint.map fun o => (⟨o, txid⟩ : SpentOutpoint)).toList

/-- Every step changes one object. -/
theorem changes_of_step {w w' : WorkingState} (h : Step packages binding height txid w w')
    (keyed : ∀ k r, w.objects.get? k = some r → r.objectKey = k) :
    ∃ key new, Changes packages binding height txid w w' key new := by
  cases h with
  | create activation key0 key1 =>
    refine ⟨objectKeyFromWire packages.sha256 binding.ns txid, createdRecord activation (objectKeyFromWire packages.sha256 binding.ns txid) txid height key0 key1,
      ?_, ?_, rfl, .inl ⟨rfl, rfl, ?_⟩, .inl ⟨rfl, rfl, rfl, rfl, rfl, ?_⟩⟩
    · intro k
      exact (JsMap.get?_set _ _ _ _).trans (by rw [touch_objects]; rfl)
    · exact get?_touch_undo w _
    · simp [create, createdRecord]
    · simp [create]
  | @advance key record found sequence key0 key1 chapter =>
    obtain rfl := keyed _ _ found
    refine ⟨record.objectKey, record.moved txid height sequence key0 key1 chapter, ?_, ?_, rfl, .inl ⟨rfl, rfl, ?_⟩,
      .inr ⟨record, found, rfl, rfl, ?_⟩⟩
    · intro k
      simp [advance]
    · simpa [advance] using get?_touch_undo w _
    · simp [advance, ObjectRecord.moved]
    · simp [advance]
  | @terminate key record found status sequence =>
    obtain rfl := keyed _ _ found
    refine ⟨record.objectKey, record.ended status txid sequence, ?_, ?_, rfl, .inr ⟨rfl, rfl, ?_⟩, .inr ⟨record, found, rfl, rfl, ?_⟩⟩
    · intro k
      simp [terminate]
    · simpa [terminate] using get?_touch_undo w _
    · simp [terminate]
    · simp [terminate]

/-! ### The invariant -/

/-- Every record of an object map is under its own key, which its creating transaction determines. -/
def Keyed (packages : Packages) (binding : Binding) (objects : JsMap Hash ObjectRecord) : Prop :=
  ∀ k r, objects.get? k = some r → r.objectKey = k ∧ objectKeyFromWire packages.sha256 binding.ns r.createTxid = k

/-- What the object map must be before a block. -/
structure Settled (packages : Packages) (binding : Binding) (objects : JsMap Hash ObjectRecord) : Prop where
  /-- Every record is under its key. -/
  keyed : Keyed packages binding objects
  /-- No two objects have the same carrier. -/
  distinct : ∀ k k' r r' o, objects.get? k = some r → objects.get? k' = some r' → r.currentOutpoint = some o →
    r'.currentOutpoint = some o → k = k'
  /-- Only a carrier has a height. -/
  uncarried : ∀ k r, objects.get? k = some r → r.currentOutpoint = none → r.currentHeight = none

/-- The states of the block share no unique key with one another or with the objects before it. -/
structure Fresh (pre : JsMap Hash ObjectRecord) (newStates : List NewState) : Prop where
  /-- They have distinct keys. -/
  apart : newStates.Pairwise NewState.Apart
  /-- Their outpoints are new. -/
  outpoints : ∀ n ∈ newStates, ∀ k r, pre.get? k = some r → r.currentOutpoint ≠ some n.outpoint
  /-- A state of sequence 0 belongs to a new object. -/
  starts : ∀ n ∈ newStates, n.sequence = 0 → pre.get? n.objectKey = none

instance : Std.Symm NewState.Apart := ⟨fun _ _ h => ⟨h.1.symm, h.2.symm⟩⟩

/-- A state of the block is determined by its outpoint. -/
theorem Fresh.eq_of_outpoint {pre : JsMap Hash ObjectRecord} {l : List NewState} (h : Fresh pre l) {n n' : NewState}
    (hn : n ∈ l) (hn' : n' ∈ l) (ho : n.outpoint = n'.outpoint) : n = n' :=
  by_contra fun hne => (h.apart.forall hn hn' hne).1 ho

theorem Fresh.of_append {pre : JsMap Hash ObjectRecord} {l l' : List NewState} (h : Fresh pre (l ++ l')) :
    Fresh pre l where
  apart := (List.pairwise_append.mp h.apart).1
  outpoints n hn := h.outpoints n (List.mem_append_left _ hn)
  starts n hn := h.starts n (List.mem_append_left _ hn)

/-- The working state of a block whose objects were `pre` before it. -/
structure Tracks (packages : Packages) (binding : Binding) (height : ℕ) (pre : JsMap Hash ObjectRecord)
    (w : WorkingState) : Prop where
  /-- Every record is under its key. -/
  keyed : Keyed packages binding w.objects
  /-- The undo map holds the records from before the block. -/
  prior : ∀ k p, w.undo.get? k = some p → p = pre.get? k ∧ ∃ r, w.objects.get? k = some r
  /-- Other objects are as they were. -/
  untouched : ∀ k, w.undo.get? k = none → w.objects.get? k = pre.get? k
  /-- Where an object comes from does not change. -/
  kept : ∀ k r₀ r, pre.get? k = some r₀ → w.objects.get? k = some r →
    r.createTxid = r₀.createTxid ∧ r.createHeight = r₀.createHeight
  /-- A carrier is unspent, and it is from before the block or has a state of the block. -/
  carried : ∀ k r o, w.objects.get? k = some r → r.currentOutpoint = some o →
    (∀ s ∈ w.spentOutpoints, s.outpoint ≠ o) ∧ (pre.get? k = some r ∨
      ⟨o, k, r.stateSequence, r.key0, r.key1⟩ ∈ w.newStates ∧ r.currentHeight = some height)
  /-- Only a carrier has a height. -/
  uncarried : ∀ k r, w.objects.get? k = some r → r.currentOutpoint = none → r.currentHeight = none
  /-- A spent carrier is from before the block or has a state of the block. -/
  spent : ∀ s ∈ w.spentOutpoints, (∃ k r, pre.get? k = some r ∧ r.currentOutpoint = some s.outpoint) ∨
    ∃ n ∈ w.newStates, n.outpoint = s.outpoint
  /-- A new object has a first state. -/
  started : ∀ k r, w.objects.get? k = some r → pre.get? k = none → ∃ n ∈ w.newStates, n.objectKey = k ∧ n.sequence = 0

theorem Tracks.start {objects : JsMap Hash ObjectRecord} (h : Settled packages binding objects) :
    Tracks packages binding height objects (.start objects) where
  keyed := h.keyed
  prior k p hp := nomatch hp
  untouched _ _ := rfl
  kept k r₀ r h₀ hr := by
    obtain rfl : r₀ = r := Option.some.inj (h₀.symm.trans hr)
    exact ⟨rfl, rfl⟩
  carried k r o hr ho := ⟨nofun, .inl hr⟩
  uncarried := h.uncarried
  spent s hs := nomatch hs
  started k r hr hn := nomatch hr.symm.trans hn

/-- No two objects of a tracked state have the same carrier. -/
theorem Tracks.distinct {pre : JsMap Hash ObjectRecord} {w : WorkingState} (t : Tracks packages binding height pre w)
    (settled : Settled packages binding pre) (fresh : Fresh pre w.newStates) {k k' : Hash} {r r' : ObjectRecord}
    {o : Outpoint} (hr : w.objects.get? k = some r) (hr' : w.objects.get? k' = some r')
    (ho : r.currentOutpoint = some o) (ho' : r'.currentOutpoint = some o) : k = k' := by
  rcases (t.carried k r o hr ho).2 with hp | ⟨hn, -⟩
  · rcases (t.carried k' r' o hr' ho').2 with hp' | ⟨hn', -⟩
    · exact settled.distinct k k' r r' o hp hp' ho ho'
    · exact absurd ho (fresh.outpoints _ hn' k r hp)
  · rcases (t.carried k' r' o hr' ho').2 with hp' | ⟨hn', -⟩
    · exact absurd ho' (fresh.outpoints _ hn k' r' hp')
    · exact congrArg NewState.objectKey (fresh.eq_of_outpoint hn hn' rfl)

theorem Tracks.persists {pre : JsMap Hash ObjectRecord} {w : WorkingState} (t : Tracks packages binding height pre w)
    {k : Hash} {r₀ : ObjectRecord} (h : pre.get? k = some r₀) : ∃ r, w.objects.get? k = some r := by
  cases hu : w.undo.get? k with
  | none => exact ⟨r₀, (t.untouched k hu).trans h⟩
  | some p => exact (t.prior k p hu).2

theorem Changes.newStates_append {w w' : WorkingState} {key : Hash} {new : ObjectRecord}
    (c : Changes packages binding height txid w w' key new) : ∃ l, w'.newStates = w.newStates ++ l := by
  rcases c.successor with ⟨-, -, h⟩ | ⟨-, -, h⟩
  · exact ⟨_, h⟩
  · exact ⟨[], by rw [h, List.append_nil]⟩

theorem Changes.mem_newStates {w w' : WorkingState} {key : Hash} {new : ObjectRecord}
    (c : Changes packages binding height txid w w' key new) {o : Outpoint} (ho : new.currentOutpoint = some o) :
    o = successorOf txid ∧ new.currentHeight = some height ∧
      w'.newStates = w.newStates ++ [⟨o, key, new.stateSequence, new.key0, new.key1⟩] := by
  rcases c.successor with ⟨hcur, hht, hn⟩ | ⟨hnone, -⟩
  · obtain rfl : successorOf txid = o := Option.some.inj (hcur.symm.trans ho)
    exact ⟨rfl, hht, hn⟩
  · simp [hnone] at ho

/-- A carrier spent after the step was spent before it, or it is the object's earlier one. -/
theorem Changes.spent {w w' : WorkingState} {key : Hash} {new : ObjectRecord}
    (c : Changes packages binding height txid w w' key new) {s : SpentOutpoint} (hs : s ∈ w'.spentOutpoints) :
    s ∈ w.spentOutpoints ∨ ∃ old, w.objects.get? key = some old ∧ old.currentOutpoint = some s.outpoint := by
  rcases c.origin with ⟨-, -, -, -, -, hsp⟩ | ⟨old, hold, -, -, hsp⟩
  · exact .inl (hsp ▸ hs)
  · rw [hsp, List.mem_append, Option.mem_toList, Option.map_eq_some_iff] at hs
    rcases hs with hs | ⟨o, ho, rfl⟩
    · exact .inl hs
    · exact .inr ⟨old, hold, ho⟩

/-- The last state of a fresh list shares no key with the others. -/
theorem Fresh.last {pre : JsMap Hash ObjectRecord} {l : List NewState} {n m : NewState} (h : Fresh pre (l ++ [m]))
    (hn : n ∈ l) : NewState.Apart n m :=
  (List.pairwise_append.mp h.apart).2.2 n hn m (List.mem_singleton.mpr rfl)

/-- A carrier is the object's from before the block, or has a state of the block. -/
theorem Tracks.source {pre : JsMap Hash ObjectRecord} {w : WorkingState} (t : Tracks packages binding height pre w)
    {k : Hash} {r : ObjectRecord} {o : Outpoint} (hr : w.objects.get? k = some r) (ho : r.currentOutpoint = some o) :
    (∃ k r, pre.get? k = some r ∧ r.currentOutpoint = some o) ∨ ∃ n ∈ w.newStates, n.outpoint = o := by
  rcases (t.carried k r o hr ho).2 with hp | ⟨hn, -⟩
  · exact .inl ⟨k, r, hp, ho⟩
  · exact .inr ⟨_, hn, rfl⟩

section

variable {pre : JsMap Hash ObjectRecord} {w w' : WorkingState} {key : Hash} {new : ObjectRecord}
  (t : Tracks packages binding height pre w) (c : Changes packages binding height txid w w' key new)

include t c

/-- A spent carrier after the step is from before the block or has a state of the block. -/
theorem Tracks.source_of_spent {s : SpentOutpoint} (hs : s ∈ w'.spentOutpoints) :
    (∃ k r, pre.get? k = some r ∧ r.currentOutpoint = some s.outpoint) ∨
      ∃ n ∈ w.newStates, n.outpoint = s.outpoint := by
  rcases c.spent hs with hs | ⟨old, hold, hso⟩
  · exact t.spent s hs
  · exact t.source hold hso

/-- A new object does not take the place of another: its first state would not be fresh. -/
theorem Tracks.not_reborn (fresh' : Fresh pre w'.newStates) {old : ObjectRecord}
    (hold : w.objects.get? key = some old) (hseq : new.stateSequence = 0)
    (hcur : new.currentOutpoint = some (successorOf txid)) : False := by
  obtain ⟨-, -, hn⟩ := c.mem_newStates hcur
  rw [hn] at fresh'
  have hpre : pre.get? key = none := fresh'.starts _ (List.mem_append_right _ (List.mem_singleton.mpr rfl)) hseq
  obtain ⟨n, hnm, hnk, hn0⟩ := t.started key old hold hpre
  exact (fresh'.last hnm).2 (by simp [hnk, hn0, hseq])

theorem Tracks.carried_step (settled : Settled packages binding pre) (fresh : Fresh pre w.newStates)
    (fresh' : Fresh pre w'.newStates) (k : Hash) (r : ObjectRecord) (o : Outpoint) (hr : w'.objects.get? k = some r)
    (ho : r.currentOutpoint = some o) :
    (∀ s ∈ w'.spentOutpoints, s.outpoint ≠ o) ∧ (pre.get? k = some r ∨
      ⟨o, k, r.stateSequence, r.key0, r.key1⟩ ∈ w'.newStates ∧ r.currentHeight = some height) := by
  rw [c.objects] at hr
  split_ifs at hr with hk
  · -- The new carrier has a state of its own, which no earlier outpoint has.
    subst hk
    obtain rfl := Option.some.inj hr
    obtain ⟨-, hht, hn⟩ := c.mem_newStates ho
    rw [hn] at fresh' ⊢
    refine ⟨fun s hs hso => ?_, .inr ⟨by simp, hht⟩⟩
    rcases t.source_of_spent c hs with ⟨k', r', hp, hr'⟩ | ⟨n, hnm, hno⟩
    · exact fresh'.outpoints _ (List.mem_append_right _ (List.mem_singleton.mpr rfl)) k' r' hp (hso ▸ hr')
    · exact (fresh'.last hnm).1 (hno.trans hso)
  · obtain ⟨hs, hsrc⟩ := t.carried k r o hr ho
    obtain ⟨added, hadded⟩ := c.newStates_append
    refine ⟨fun s hsm hso => ?_, hsrc.imp_right fun h => ⟨by simp [hadded, h.1], h.2⟩⟩
    rcases c.spent hsm with hsm | ⟨old, hold, hso'⟩
    · exact hs s hsm hso
    · exact hk (t.distinct settled fresh hr hold ho (hso ▸ hso'))

end

theorem Changes.keyed {w w' : WorkingState} {key : Hash} {new : ObjectRecord}
    (c : Changes packages binding height txid w w' key new) (keyed : Keyed packages binding w.objects) :
    Keyed packages binding w'.objects := by
  intro k r hr
  rw [c.objects] at hr
  split_ifs at hr with hk
  · obtain rfl := Option.some.inj hr
    refine ⟨c.objectKey.trans hk.symm, ?_⟩
    rcases c.origin with ⟨hkey, -⟩ | ⟨old, hold, htx, -, -⟩
    · rw [hkey, hk]
    · rw [htx, hk]
      exact (keyed key old hold).2
  · exact keyed k r hr

/-- **One step keeps the invariant**, if the states it leaves are fresh. -/
theorem Tracks.step {pre : JsMap Hash ObjectRecord} {w w' : WorkingState}
    (settled : Settled packages binding pre) (t : Tracks packages binding height pre w)
    (h : Step packages binding height txid w w') (fresh' : Fresh pre w'.newStates) :
    Tracks packages binding height pre w' := by
  obtain ⟨key, new, c⟩ := changes_of_step h fun k r hr => (t.keyed k r hr).1
  obtain ⟨added, hadded⟩ := c.newStates_append
  have fresh : Fresh pre w.newStates := (hadded ▸ fresh').of_append
  have hsub : ∀ n ∈ w.newStates, n ∈ w'.newStates := fun n hn => hadded ▸ List.mem_append_left _ hn
  refine ⟨c.keyed t.keyed, ?_, ?_, ?_, t.carried_step c settled fresh fresh', ?_, ?_, ?_⟩
  · intro k p hp
    rw [c.undo] at hp
    split_ifs at hp with hk
    · obtain rfl := Option.some.inj hp
      obtain ⟨rfl, hu⟩ := hk
      exact ⟨t.untouched _ hu, new, by rw [c.objects, if_pos rfl]⟩
    · obtain ⟨hprior, r, hr⟩ := t.prior k p hp
      refine ⟨hprior, ?_⟩
      rw [c.objects]
      split_ifs
      · exact ⟨new, rfl⟩
      · exact ⟨r, hr⟩
  · intro k hk
    rw [c.undo] at hk
    split_ifs at hk with hc
    have hne : k ≠ key := by
      rintro rfl
      exact hc ⟨rfl, hk⟩
    rw [c.objects, if_neg hne]
    exact t.untouched k hk
  · intro k r₀ r h₀ hr
    rw [c.objects] at hr
    split_ifs at hr with hk
    · subst hk
      obtain rfl := Option.some.inj hr
      obtain ⟨old, hold⟩ := t.persists h₀
      rcases c.origin with ⟨-, hseq, hcur, -⟩ | ⟨old', hold', htx, hht, -⟩
      · exact (t.not_reborn c fresh' hold hseq hcur).elim
      · rw [htx, hht]
        exact t.kept _ r₀ old' h₀ hold'
    · exact t.kept k r₀ r h₀ hr
  · intro k r hr hnone
    rw [c.objects] at hr
    split_ifs at hr with hk
    · obtain rfl := Option.some.inj hr
      rcases c.successor with ⟨hcur, -⟩ | ⟨-, hht, -⟩
      · simp [hcur] at hnone
      · exact hht
    · exact t.uncarried k r hr hnone
  · intro s hs
    rcases t.source_of_spent c hs with h | ⟨n, hn, hno⟩
    · exact .inl h
    · exact .inr ⟨n, hsub n hn, hno⟩
  · intro k r hr hpre
    rw [c.objects] at hr
    split_ifs at hr with hk
    · subst hk
      obtain rfl := Option.some.inj hr
      rcases c.origin with ⟨-, hseq, hcur, -⟩ | ⟨old, hold, -⟩
      · obtain ⟨-, -, hn⟩ := c.mem_newStates hcur
        exact ⟨_, hn ▸ List.mem_append_right _ (List.mem_singleton.mpr rfl), rfl, hseq⟩
      · obtain ⟨n, hn, h⟩ := t.started k old hold hpre
        exact ⟨n, hsub n hn, h⟩
    · obtain ⟨n, hn, h⟩ := t.started k r hr hpre
      exact ⟨n, hsub n hn, h⟩

theorem keyed_of_steps {w w' : WorkingState} (keyed : Keyed packages binding w.objects)
    (h : Steps packages binding height txids w w') : Keyed packages binding w'.objects := by
  induction h with
  | refl => exact keyed
  | tail _ hs ih =>
    obtain ⟨txid, -, hs⟩ := hs
    obtain ⟨key, new, c⟩ := changes_of_step hs fun k r hr => (ih k r hr).1
    exact c.keyed ih

/-- **The invariant holds at the end of the block**, if its states are fresh. -/
theorem Tracks.steps {pre : JsMap Hash ObjectRecord} {w w' : WorkingState}
    (settled : Settled packages binding pre) (t : Tracks packages binding height pre w)
    (h : Steps packages binding height txids w w') (fresh : Fresh pre w'.newStates) :
    Tracks packages binding height pre w' := by
  induction h with
  | refl => exact t
  | @tail w₁ w₂ hw hs ih =>
    obtain ⟨txid, -, hs⟩ := hs
    have hk := keyed_of_steps t.keyed hw
    obtain ⟨key, new, c⟩ := changes_of_step hs fun k r hr => (hk k r hr).1
    obtain ⟨l, hl⟩ := c.newStates_append
    exact (ih (hl ▸ fresh).of_append).step settled hs fresh

end IndexTandem.Indexer
