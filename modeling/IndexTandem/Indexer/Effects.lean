import IndexTandem.Indexer.Sameness
import Mathlib.Data.List.Perm.Basic

/-!
# What a transaction does

Under the contract of the validator a classified transaction has one of the effects the
protocol knows (`Effect`): none at all, an operation on the one object whose carrier it
spends, a new object, or the end of every object whose carrier it spends. This is what
`classifyTransaction` comes to (`classifyTransaction_effect`), on a working state whose
index names the object of each active carrier (`Live`).
-/

namespace IndexTandem.Indexer

open Library Protocol

variable {packages : Packages} {binding : Binding}

/-! ### Live states -/

/-- The index of a working state names the object of each active carrier. -/
structure Live (w : WorkingState) : Prop where
  /-- Every record is under its own key. -/
  named : Named w.objects
  /-- The index is that of the active records. -/
  index : ∀ o key, w.activeByOutpoint.get? o = some key ↔
    ∃ r, w.objects.get? key = some r ∧ r.status = .active ∧ r.currentOutpoint = some o

/-- A block starts in a live state. -/
theorem Live.start {objects : JsMap Hash ObjectRecord} (named : Named objects) (distinct : DistinctActive objects) :
    Live (.start objects) where
  named := named
  index _ _ := get?_indexActive named distinct

/-- The objects whose carriers a transaction spends, in the order of its inputs. -/
def consumedKeys (w : WorkingState) (transaction : BitcoinTransaction) : List Hash :=
  transaction.spends.filterMap w.activeByOutpoint.get?

/-- What a carrier's evidence says about its object. -/
structure Presents (w : WorkingState) (transaction : BitcoinTransaction) (carrier : ActiveCarrierEvidence)
    (record : ObjectRecord) : Prop where
  /-- It is the record of the object. -/
  found : w.objects.get? carrier.objectKey = some record
  /-- The object is active. -/
  active : record.status = .active
  /-- Its carrier is spent, and named in the evidence. -/
  spent : ∃ o ∈ transaction.spends, record.currentOutpoint = some o ∧ carrier.outpoint = outpointWire o
  /-- Its sequence is named in the evidence. -/
  sequence : carrier.stateSequence = record.stateSequence

/-- The evidence about carriers presents the objects consumed. -/
theorem carriers_present {w : WorkingState} (live : Live w) {transaction : BitcoinTransaction}
    {consumed : List ObjectRecord} {carriers : List ActiveCarrierEvidence}
    (hc : consumedRecords w transaction = .ok consumed) (he : consumed.mapM carrierEvidence = .ok carriers) :
    carriers.map ActiveCarrierEvidence.objectKey = consumedKeys w transaction ∧
      ∀ carrier ∈ carriers, ∃ record, Presents w transaction carrier record := by
  have hkeys : List.Forall₂ (fun key record => recordOf w key = .ok record) (consumedKeys w transaction) consumed :=
    mapM_ok_forall₂ hc
  have hcarriers := mapM_ok_forall₂ he
  have hspent : ∀ key ∈ consumedKeys w transaction, ∃ o ∈ transaction.spends, ∃ r,
      w.objects.get? key = some r ∧ r.status = .active ∧ r.currentOutpoint = some o := by
    intro key hk
    obtain ⟨o, ho, hget⟩ := List.mem_filterMap.mp hk
    exact ⟨o, ho, (live.index o key).mp hget⟩
  generalize consumedKeys w transaction = keys at hkeys hspent
  clear hc he
  induction hkeys generalizing carriers with
  | nil =>
    cases hcarriers
    exact ⟨rfl, nofun⟩
  | @cons key record keys consumed hrecord _ ih =>
    cases hcarriers with
    | @cons _ carrier _ carriers hcarrier hrest =>
      obtain ⟨h₁, h₂⟩ := ih hrest fun key hk => hspent key (List.mem_cons_of_mem _ hk)
      obtain ⟨o, ho, r, hr, hactive, hout⟩ := hspent key List.mem_cons_self
      obtain rfl : r = record := Option.some.inj (hr.symm.trans (recordOf_eq_ok.mp hrecord))
      have hevidence : carrier.objectKey = key ∧ carrier.outpoint = outpointWire o ∧
          carrier.stateSequence = r.stateSequence := by
        unfold carrierEvidence at hcarrier
        rw [hout] at hcarrier
        cases hcarrier
        exact ⟨live.named key r hr, rfl, rfl⟩
      obtain ⟨rfl, hwire, hseq⟩ := hevidence
      refine ⟨by rw [List.map_cons, h₁], fun c hc => ?_⟩
      rcases List.mem_cons.mp hc with rfl | hc
      · exact ⟨r, hr, hactive, ⟨o, ho, hout, hwire⟩, hseq⟩
      · exact h₂ c hc

/-! ### Effects -/

/-- What an event tells about an object. -/
structure Told where
  /-- The transaction. -/
  txid : Hash
  /-- The type. -/
  eventType : EventType
  /-- The class. -/
  validityClass : ValidityClass
  /-- The object. -/
  objectKey : Option Hash
  /-- The object's sequence after it. -/
  stateSequence : ℕ
  /-- The carrier spent. -/
  predecessorOutpoint : Option Outpoint
  /-- The carrier created. -/
  successorOutpoint : Option Outpoint
  /-- The first key. -/
  key0 : Option String
  /-- The second key. -/
  key1 : Option String
  deriving DecidableEq

/-- The part of an event that tells about an object. -/
def EventRecord.told (event : EventRecord) : Told where
  txid := event.txid
  eventType := event.eventType
  validityClass := event.validityClass
  objectKey := event.objectKey
  stateSequence := event.stateSequence
  predecessorOutpoint := event.predecessorOutpoint
  successorOutpoint := event.successorOutpoint
  key0 := event.key0
  key1 := event.key1

/-- What a valid operation on a record tells. -/
def operated (txid : Hash) (type : EventType) (record : ObjectRecord) (sequence : ℕ) (successor : Option Outpoint)
    (key0 key1 : String) : Told :=
  ⟨txid, type, .VALID_OPERATION, some record.objectKey, sequence, record.currentOutpoint, successor, some key0,
    some key1⟩

/-- What the noncanonical end of a record tells. -/
def exited (txid : Hash) (record : ObjectRecord) : Told :=
  ⟨txid, .EXITED_NONCANONICAL, .TERMINAL_NONCANONICAL, some record.objectKey, record.stateSequence,
    record.currentOutpoint, none, some record.key0, some record.key1⟩

/-- The objects end one after the other. -/
inductive Exits (txid : Hash) : List Hash → WorkingState → WorkingState → List Told → Prop
  /-- None is left. -/
  | nil {w : WorkingState} : Exits txid [] w w []
  /-- One more. -/
  | cons {key : Hash} {keys : List Hash} {w w' : WorkingState} {record : ObjectRecord} {tolds : List Told}
      (found : w.objects.get? key = some record)
      (rest : Exits txid keys (terminate w record .exited_noncanonical txid record.stateSequence) w' tolds) :
      Exits txid (key :: keys) w w' (exited txid record :: tolds)

/-- The key of the object a transaction creates. -/
def keyOf (packages : Packages) (binding : Binding) (txid : Hash) : Hash :=
  objectKeyFromWire packages.sha256 binding.ns txid

/-- The record of the object a transaction creates. -/
def newborn (packages : Packages) (binding : Binding) (heights : InitHeights) (height : ℕ)
    (transaction : BitcoinTransaction) : ObjectRecord :=
  createdRecord heights (keyOf packages binding transaction.txid) transaction.txid height (revealed transaction 0)
    (revealed transaction 1)

/-- What a transaction does to a working state, and what its events tell. -/
inductive Effect (packages : Packages) (binding : Binding) (heights : InitHeights) (height : ℕ)
    (transaction : BitcoinTransaction) (w : WorkingState) : WorkingState → List Told → Prop
  /-- Nothing. -/
  | silent (unspent : consumedKeys w transaction = []) : Effect packages binding heights height transaction w w []
  /-- It is not an operation. -/
  | invalid {told : Told} (unspent : consumedKeys w transaction = []) (cls : told.validityClass = .INVALID_NO_STATE) :
      Effect packages binding heights height transaction w w [told]
  /-- It is the configured INIT. -/
  | init {told : Told} (unspent : consumedKeys w transaction = []) (configured : transaction.txid = binding.initTxid)
      (type : told.eventType = .INIT) (cls : told.validityClass = .VALID_OPERATION) :
      Effect packages binding heights height transaction w w [told]
  /-- It creates its object. -/
  | created (unspent : consumedKeys w transaction = []) (other : transaction.txid ≠ binding.initTxid) :
      Effect packages binding heights height transaction w
        (create w (newborn packages binding heights height transaction) (successorOf transaction.txid))
        [⟨transaction.txid, .CREATE, .VALID_OPERATION, some (keyOf packages binding transaction.txid), 0, none,
          some (successorOf transaction.txid), some (revealed transaction 0), some (revealed transaction 1)⟩]
  /-- It marks the object whose carrier it spends. -/
  | marked {record : ObjectRecord} (one : consumedKeys w transaction = [record.objectKey])
      (found : w.objects.get? record.objectKey = some record) (chapter : ChapterContent) :
      Effect packages binding heights height transaction w
        (advance w record transaction.txid height (record.stateSequence + 1) record.key0 record.key1 (some chapter))
        [operated transaction.txid .MARK record (record.stateSequence + 1) (some (successorOf transaction.txid))
          record.key0 record.key1]
  /-- It rotates the object whose carrier it spends. -/
  | rotated {record : ObjectRecord} (one : consumedKeys w transaction = [record.objectKey])
      (found : w.objects.get? record.objectKey = some record) :
      Effect packages binding heights height transaction w
        (advance w record transaction.txid height (record.stateSequence + 1) (revealed transaction 1)
          (revealed transaction 2) none)
        [operated transaction.txid .ROTATE record (record.stateSequence + 1) (some (successorOf transaction.txid))
          (revealed transaction 1) (revealed transaction 2)]
  /-- It closes the object whose carrier it spends. -/
  | closed {record : ObjectRecord} (one : consumedKeys w transaction = [record.objectKey])
      (found : w.objects.get? record.objectKey = some record) :
      Effect packages binding heights height transaction w
        (terminate w record .closed transaction.txid (record.stateSequence + 1))
        [operated transaction.txid .CLOSE record (record.stateSequence + 1) none record.key0 record.key1]
  /-- It refunds the object whose carrier it spends. -/
  | refunded {record : ObjectRecord} (one : consumedKeys w transaction = [record.objectKey])
      (found : w.objects.get? record.objectKey = some record) :
      Effect packages binding heights height transaction w
        (terminate w record .refunded transaction.txid record.stateSequence)
        [operated transaction.txid .REFUND record record.stateSequence none record.key0 record.key1]
  /-- It ends every object whose carrier it spends. -/
  | exited {keys : List Hash} {w' : WorkingState} {tolds : List Told} (spent : consumedKeys w transaction ≠ [])
      (perm : keys.Perm (consumedKeys w transaction)) (exits : Exits transaction.txid keys w w' tolds) :
      Effect packages binding heights height transaction w w' tolds

/-! ### A classified transaction has an effect -/

/-- The configured INIT has a marker. -/
def InitMarked (packages : Packages) (binding : Binding) (height : ℕ) (transaction : BitcoinTransaction) : Prop :=
  transaction.txid = binding.initTxid → ∀ evidence,
    buildTransactionEvidence packages.sha256 packages.verify transaction height = .ok evidence →
      countedCandidates evidence binding.initTxid ≠ []

section

variable {heights : InitHeights} {height : ℕ} {transaction : BitcoinTransaction} {w : WorkingState}

@[simp] theorem namedKey_eq_ok {event : TransactionValidationEvent} {key : Hash} :
    namedKey event = .ok key ↔ event.objectKey = some key := by
  unfold namedKey
  cases event.objectKey with
  | none => simp
  | some k => simp

theorem applyEvents_single {txIndex : ℕ} {marker : Option Marker} {candidates : List Candidate}
    {event : TransactionValidationEvent} {progress : Progress}
    (h : applyEvents packages binding heights transaction txIndex height marker candidates w [event] = .ok progress) :
    ∃ w' record, applyEvent packages binding heights transaction height marker candidates w event
        (eventBase transaction txIndex candidates event 0) = .ok (w', record) ∧ progress = ⟨w', [record]⟩ := by
  obtain ⟨p, hp, h⟩ := bind_eq_ok.mp h
  obtain ⟨done, hd, hp⟩ := bind_eq_ok.mp hp
  obtain rfl := pure_eq_ok.mp hp
  obtain rfl := pure_eq_ok.mp h
  exact ⟨done.1, done.2, hd, rfl⟩

theorem named_terminate (named : Named w.objects) {record : ObjectRecord} (status : ObjectStatusName) (txid : Hash)
    (sequence : ℕ) : Named (terminate w record status txid sequence).objects := by
  intro k r hr
  simp only [terminate, spendCurrent_objects, touch_objects, JsMap.get?_set] at hr
  split_ifs at hr with hk
  · cases hr
    exact hk.symm
  · exact named k r hr

/-- Terminal events end their objects one after the other. -/
theorem exits_of_applyEvents {txIndex : ℕ} {marker : Option Marker} {candidates : List Candidate} {n : ℕ}
    {events : List TransactionValidationEvent}
    (hcls : ∀ event ∈ events, event.validityClass = .TERMINAL_NONCANONICAL) {before progress : Progress}
    (named : Named before.state.objects)
    (h : (events.zipIdx n).foldlM
      (applyEntry packages binding heights transaction txIndex height marker candidates) before = .ok progress) :
    ∃ keys after, events.map TransactionValidationEvent.objectKey = keys.map some ∧
      progress.events = before.events ++ after ∧
      Exits transaction.txid keys before.state progress.state (after.map EventRecord.told) := by
  induction events generalizing n before with
  | nil =>
    obtain rfl := pure_eq_ok.mp h
    exact ⟨[], [], rfl, (List.append_nil _).symm, .nil⟩
  | cons event events ih =>
    rw [List.zipIdx_cons, List.foldlM_cons] at h
    obtain ⟨p, hp, h⟩ := bind_eq_ok.mp h
    obtain ⟨done, hd, hp⟩ := bind_eq_ok.mp hp
    obtain rfl := pure_eq_ok.mp hp
    unfold applyEvent at hd
    rw [hcls event List.mem_cons_self] at hd
    obtain ⟨key, hkey, hd⟩ := bind_eq_ok.mp hd
    obtain ⟨record, hrecord, hd⟩ := bind_eq_ok.mp hd
    obtain rfl := pure_eq_ok.mp hd
    have hfound := recordOf_eq_ok.mp hrecord
    obtain rfl := named key record hfound
    obtain ⟨keys, after, h₁, h₂, h₃⟩ := ih (fun e he => hcls e (List.mem_cons_of_mem _ he))
      (named_terminate named .exited_noncanonical transaction.txid record.stateSequence) h
    refine ⟨record.objectKey :: keys, _, ?_, h₂.trans (List.append_assoc ..), .cons hfound h₃⟩
    rw [List.map_cons, List.map_cons, h₁, namedKey_eq_ok.mp hkey]

/-- The call the reducer makes to the validator. -/
def contextOf (binding : Binding) (heights : InitHeights) (carriers : List ActiveCarrierEvidence) :
    TransactionValidationContext where
  network := binding.networkCode
  ns := binding.ns
  init := ⟨binding.initTxid, binding.specHash, heights.height, heights.openHeight, heights.closeHeight⟩
  activeCarriers := carriers

/-- The reducer's call is a proper one. -/
theorem properCall {evidence : TransactionEvidence} {carriers : List ActiveCarrierEvidence}
    (marked : carriers ≠ [] → InitMarked packages binding height transaction)
    (hev : buildTransactionEvidence packages.sha256 packages.verify transaction height = .ok evidence)
    (hpres : ∀ carrier ∈ carriers, ∃ record, Presents w transaction carrier record) :
    ProperCall evidence (contextOf binding heights carriers) where
  spent carrier hc := by
    obtain ⟨record, hrecord⟩ := hpres carrier hc
    obtain ⟨o, ho, -, hwire⟩ := hrecord.spent
    rw [hwire]
    exact mem_inputs_of_spends _ _ hev ho
  marked htx hc := marked hc ((buildTransactionEvidence_ok _ _ hev).1.symm.trans htx) evidence hev

theorem presents_one (live : Live w) {carriers : List ActiveCarrierEvidence} {carrier : ActiveCarrierEvidence}
    (one : carriers = [carrier]) (hkeys : carriers.map ActiveCarrierEvidence.objectKey = consumedKeys w transaction)
    (hpres : ∀ carrier ∈ carriers, ∃ record, Presents w transaction carrier record) :
    ∃ record, w.objects.get? record.objectKey = some record ∧ carrier.objectKey = record.objectKey ∧
      carrier.stateSequence = record.stateSequence ∧ consumedKeys w transaction = [record.objectKey] := by
  subst one
  obtain ⟨record, hrecord⟩ := hpres carrier (List.mem_singleton.mpr rfl)
  have hkey := live.named _ _ hrecord.found
  exact ⟨record, hkey ▸ hrecord.found, hkey.symm, hrecord.sequence, by rw [← hkeys, List.map_singleton, hkey]⟩

/-- What the reducer asks about a transaction, and what the validator's contract says about the answer. -/
structure Asked (packages : Packages) (binding : Binding) (heights : InitHeights) (height : ℕ)
    (transaction : BitcoinTransaction) (w : WorkingState) (evidence : TransactionEvidence)
    (carriers : List ActiveCarrierEvidence) (result : TransactionValidationResult) : Prop where
  /-- The evidence of the transaction. -/
  built : buildTransactionEvidence packages.sha256 packages.verify transaction height = .ok evidence
  /-- The carriers are those of the objects consumed. -/
  keys : carriers.map ActiveCarrierEvidence.objectKey = consumedKeys w transaction
  /-- Their evidence presents the objects. -/
  present : ∀ carrier ∈ carriers, ∃ record, Presents w transaction carrier record
  /-- The answer. -/
  answer : packages.validate evidence (contextOf binding heights carriers) = .ok result
  /-- It is a verdict. -/
  verdict : Verdict evidence (contextOf binding heights carriers) result

/-- A classified transaction was asked about. Only one that spends a carrier has to be marked when it is the INIT. -/
theorem classifyTransaction_asked (contract : ValidatorContract packages.validate) (live : Live w)
    (marked : consumedKeys w transaction ≠ [] → InitMarked packages binding height transaction) {txIndex : ℕ}
    {progress : Progress}
    (h : classifyTransaction packages binding heights w transaction txIndex height = .ok progress) :
    ∃ evidence carriers result, Asked packages binding heights height transaction w evidence carriers result ∧
      ((result.relevant = false ∨ result.events = []) ∧ progress = ⟨w, []⟩ ∨
        result.relevant = true ∧ result.events ≠ [] ∧
          ∃ candidates, remainingCandidates transaction binding.initTxid = .ok candidates ∧
            applyEvents packages binding heights transaction txIndex height result.marker candidates w
              result.events = .ok progress) := by
  obtain ⟨consumed, evidence, carriers, result, hcons, hev, hcar, hval, hdone⟩ := classifyTransaction_ok h
  obtain ⟨hkeys, hpres⟩ := carriers_present live hcons hcar
  refine ⟨evidence, carriers, result, ⟨hev, hkeys, hpres, hval, ?_⟩, hdone⟩
  refine contract _ _ _ (properCall (fun hc => marked fun hn => hc ?_) hev hpres) hval
  exact List.map_eq_nil_iff.mp (hkeys.trans hn)

/-- **A classified transaction has an effect.** -/
theorem classifyTransaction_effect (contract : ValidatorContract packages.validate) (live : Live w)
    (marked : consumedKeys w transaction ≠ [] → InitMarked packages binding height transaction) {txIndex : ℕ}
    {progress : Progress}
    (h : classifyTransaction packages binding heights w transaction txIndex height = .ok progress) :
    Effect packages binding heights height transaction w progress.state (progress.events.map EventRecord.told) := by
  obtain ⟨evidence, carriers, result, ⟨hev, hkeys, hpres, -, verdict⟩, hdone⟩ :=
    classifyTransaction_asked contract live marked h
  have htx := (buildTransactionEvidence_ok _ _ hev).1
  have hnone : carriers = [] → consumedKeys w transaction = [] := fun h => by rw [← hkeys, h, List.map_nil]
  rcases hdone with ⟨hsilent, rfl⟩ | ⟨-, -, candidates, -, happly⟩
  · -- Only a transaction that spends no carrier is passed finished.
    refine .silent ?_
    cases verdict with
    | ignored none => exact hnone none
    | exits some _ keys =>
      obtain rfl := hsilent.resolve_left Bool.noConfusion
      exact hnone (List.map_eq_nil_iff.mp keys.nil_eq.symm)
    | _ => simp at hsilent
  cases verdict with
  | ignored none =>
    obtain rfl := pure_eq_ok.mp happly
    exact .silent (hnone none)
  | invalid none _ cls =>
    obtain ⟨w', record, hd, rfl⟩ := applyEvents_single happly
    simp only [applyEvent, cls, pure_eq_ok, Prod.mk.injEq] at hd
    obtain ⟨rfl, rfl⟩ := hd
    exact .invalid (hnone none) rfl
  | init none configured _ cls op =>
    obtain ⟨w', record, hd, rfl⟩ := applyEvents_single happly
    simp only [applyEvent, cls, applyValid, op, pure_eq_ok, Prod.mk.injEq] at hd
    obtain ⟨rfl, rfl⟩ := hd
    exact .init (hnone none) (htx.symm.trans configured) rfl rfl
  | create none other _ cls op =>
    obtain ⟨w', record, hd, rfl⟩ := applyEvents_single happly
    simp only [applyEvent, cls, applyValid, op, pure_eq_ok, Prod.mk.injEq] at hd
    obtain ⟨rfl, rfl⟩ := hd
    exact .created (hnone none) fun e => other (htx.trans e)
  | mark one cls op key =>
    obtain ⟨record, hfound, hkey, hseq, hone⟩ := presents_one live one hkeys hpres
    obtain ⟨w', event, hd, rfl⟩ := applyEvents_single happly
    rw [hkey] at key
    simp only [applyEvent, cls, applyValid, op, bind_eq_ok, namedKey_eq_ok, recordOf_eq_ok, key, Option.some.injEq,
      exists_eq_left', hfound, markerSequence, pure_eq_ok, Prod.mk.injEq, hseq] at hd
    obtain ⟨rfl, rfl⟩ := hd
    exact .marked hone hfound _
  | rotate one cls op key =>
    obtain ⟨record, hfound, hkey, hseq, hone⟩ := presents_one live one hkeys hpres
    obtain ⟨w', event, hd, rfl⟩ := applyEvents_single happly
    rw [hkey] at key
    simp only [applyEvent, cls, applyValid, op, bind_eq_ok, namedKey_eq_ok, recordOf_eq_ok, key, Option.some.injEq,
      exists_eq_left', hfound, markerSequence, pure_eq_ok, Prod.mk.injEq, hseq] at hd
    obtain ⟨rfl, rfl⟩ := hd
    exact .rotated hone hfound
  | close one cls op key =>
    obtain ⟨record, hfound, hkey, hseq, hone⟩ := presents_one live one hkeys hpres
    obtain ⟨w', event, hd, rfl⟩ := applyEvents_single happly
    rw [hkey] at key
    simp only [applyEvent, cls, applyValid, op, bind_eq_ok, namedKey_eq_ok, recordOf_eq_ok, key, Option.some.injEq,
      exists_eq_left', hfound, markerSequence, pure_eq_ok, Prod.mk.injEq, hseq] at hd
    obtain ⟨rfl, rfl⟩ := hd
    exact .closed hone hfound
  | refund one cls op key =>
    obtain ⟨record, hfound, hkey, -, hone⟩ := presents_one live one hkeys hpres
    obtain ⟨w', event, hd, rfl⟩ := applyEvents_single happly
    rw [hkey] at key
    simp only [applyEvent, cls, applyValid, op, bind_eq_ok, namedKey_eq_ok, recordOf_eq_ok, key, Option.some.injEq,
      exists_eq_left', hfound, pure_eq_ok, Prod.mk.injEq] at hd
    obtain ⟨rfl, rfl⟩ := hd
    exact .refunded hone hfound
  | exits spent cls keys =>
    obtain ⟨ended, after, h₁, h₂, h₃⟩ := exits_of_applyEvents cls live.named happly
    rw [List.nil_append] at h₂
    refine .exited (fun hn => spent ?_) ?_ (h₂ ▸ h₃)
    · exact List.map_eq_nil_iff.mp (hkeys.trans hn)
    · have hperm := keys
      rw [h₁, ← Function.comp_def, ← List.map_map] at hperm
      exact hkeys ▸ (List.map_perm_map_iff (Option.some_injective _)).mp hperm

/-! ### Effects keep a state live -/

/-- An object consumed is active, with a carrier that is spent. -/
theorem Live.active (live : Live w) {key : Hash} (h : key ∈ consumedKeys w transaction) :
    ∃ o ∈ transaction.spends, ∃ r, w.objects.get? key = some r ∧ r.status = .active ∧ r.currentOutpoint = some o := by
  obtain ⟨o, ho, hget⟩ := List.mem_filterMap.mp h
  exact ⟨o, ho, (live.index o key).mp hget⟩

theorem Live.distinct (live : Live w) {k k' : Hash} {r r' : ObjectRecord} {o : Outpoint}
    (hr : w.objects.get? k = some r) (hr' : w.objects.get? k' = some r') (ha : r.status = .active)
    (ha' : r'.status = .active) (ho : r.currentOutpoint = some o) (ho' : r'.currentOutpoint = some o) : k = k' :=
  Option.some.inj (((live.index o k).mpr ⟨r, hr, ha, ho⟩).symm.trans ((live.index o k').mpr ⟨r', hr', ha', ho'⟩))

theorem get?_spendCurrent (w : WorkingState) (r : ObjectRecord) (txid : Hash) (o : Outpoint) :
    (spendCurrent w r txid).activeByOutpoint.get? o =
      if r.currentOutpoint = some o then none else w.activeByOutpoint.get? o := by
  unfold spendCurrent
  cases hr : r.currentOutpoint with
  | none => simp
  | some o' =>
    rw [JsMap.get?_delete]
    exact if_congr ⟨fun h => congrArg some h.symm, fun h => (Option.some.inj h).symm⟩ rfl rfl

/-- A record that is active, or has no carrier. -/
def Settles (r : ObjectRecord) : Prop := r.status = .active ∨ r.currentOutpoint = none

theorem get?_terminate (w : WorkingState) (r : ObjectRecord) (status : ObjectStatusName) (txid : Hash) (sequence : ℕ)
    (k : Hash) : (terminate w r status txid sequence).objects.get? k =
      if k = r.objectKey then some (r.ended status txid sequence) else w.objects.get? k := by
  simp [terminate]

theorem get?_advance (w : WorkingState) (r : ObjectRecord) (txid : Hash) (height sequence : ℕ) (key0 key1 : String)
    (chapter : Option ChapterContent) (k : Hash) :
    (advance w r txid height sequence key0 key1 chapter).objects.get? k =
      if k = r.objectKey then some (r.moved txid height sequence key0 key1 chapter) else w.objects.get? k := by
  simp [advance]

theorem get?_create (w : WorkingState) (r : ObjectRecord) (o : Outpoint) (k : Hash) :
    (create w r o).objects.get? k = if k = r.objectKey then some r else w.objects.get? k := by
  simp [create]

/-- Ending a record keeps a state live. -/
theorem Live.terminate (live : Live w) {record : ObjectRecord}
    (found : w.objects.get? record.objectKey = some record) (settles : Settles record) {status : ObjectStatusName}
    (finished : status ≠ .active) (txid : Hash) (sequence : ℕ) :
    Live (Indexer.terminate w record status txid sequence) where
  named := named_terminate live.named status txid sequence
  index o key := by
    have hindex : (Indexer.terminate w record status txid sequence).activeByOutpoint.get? o =
        if record.currentOutpoint = some o then none else w.activeByOutpoint.get? o := by
      refine (get?_spendCurrent _ record txid o).trans ?_
      rw [touch_activeByOutpoint]
    rw [hindex, get?_terminate]
    by_cases hk : key = record.objectKey
    · -- The record's own carrier is gone, and it has no other.
      subst hk
      simp only [if_true, Option.some.injEq, exists_eq_left', ObjectRecord.ended, finished, false_and, iff_false]
      split_ifs with ho
      · exact not_false
      · intro h
        obtain ⟨r, hr, -, hro⟩ := (live.index o _).mp h
        exact ho (Option.some.inj (found.symm.trans hr) ▸ hro)
    · rw [if_neg hk]
      split_ifs with ho
      · refine iff_of_false not_false ?_
        rintro ⟨r, hr, ha, hro⟩
        rcases settles with hactive | hnone
        · exact hk (live.distinct hr found ha hactive hro ho)
        · exact not_none_of_some ho hnone
      · exact live.index o key

/-- Moving an active record to a new carrier keeps a state live. -/
theorem Live.advance (live : Live w) {record : ObjectRecord} (found : w.objects.get? record.objectKey = some record)
    (active : record.status = .active) {txid : Hash} (unused : w.activeByOutpoint.get? (successorOf txid) = none)
    (height sequence : ℕ) (key0 key1 : String) (chapter : Option ChapterContent) :
    Live (Indexer.advance w record txid height sequence key0 key1 chapter) where
  named k r hr := by
    rw [get?_advance] at hr
    split_ifs at hr with hk
    · cases hr
      exact hk.symm
    · exact live.named k r hr
  index o key := by
    have hindex : (Indexer.advance w record txid height sequence key0 key1 chapter).activeByOutpoint.get? o =
        if o = successorOf txid then some record.objectKey
        else if record.currentOutpoint = some o then none else w.activeByOutpoint.get? o := by
      refine (JsMap.get?_set _ _ _ _).trans ?_
      rw [get?_spendCurrent, touch_activeByOutpoint]
    have hfresh : ∀ k r, w.objects.get? k = some r → r.status = .active → r.currentOutpoint ≠ some (successorOf txid) :=
      fun k r hr ha ho => not_none_of_some ((live.index _ k).mpr ⟨r, hr, ha, ho⟩) unused
    rw [hindex, get?_advance]
    by_cases hk : key = record.objectKey
    · subst hk
      simp only [if_true, Option.some.injEq, exists_eq_left', ObjectRecord.moved, active, true_and]
      split_ifs with ho ho'
      · exact iff_of_true rfl ho.symm
      · exact iff_of_false not_false fun h => ho h.symm
      · refine iff_of_false (fun h => ?_) fun h => ho h.symm
        obtain ⟨r, hr, -, hro⟩ := (live.index o _).mp h
        exact ho' (Option.some.inj (found.symm.trans hr) ▸ hro)
    · rw [if_neg hk]
      split_ifs with ho ho'
      · subst ho
        refine iff_of_false (fun h => hk (Option.some.inj h).symm) ?_
        rintro ⟨r, hr, ha, hro⟩
        exact hfresh key r hr ha hro
      · refine iff_of_false not_false ?_
        rintro ⟨r, hr, ha, hro⟩
        exact hk (live.distinct hr found ha active hro ho')
      · exact live.index o key

/-- A new object keeps a state live. -/
theorem Live.create (live : Live w) {record : ObjectRecord} (unborn : w.objects.get? record.objectKey = none)
    (active : record.status = .active) {o : Outpoint} (carrier : record.currentOutpoint = some o)
    (unused : w.activeByOutpoint.get? o = none) : Live (Indexer.create w record o) where
  named k r hr := by
    rw [get?_create] at hr
    split_ifs at hr with hk
    · cases hr
      exact hk.symm
    · exact live.named k r hr
  index o' key := by
    have hindex : (Indexer.create w record o).activeByOutpoint.get? o' =
        if o' = o then some record.objectKey else w.activeByOutpoint.get? o' := by
      refine (JsMap.get?_set _ _ _ _).trans ?_
      rw [touch_activeByOutpoint]
    rw [hindex, get?_create]
    by_cases hk : key = record.objectKey
    · subst hk
      simp only [if_true, Option.some.injEq, exists_eq_left', active, carrier, true_and]
      split_ifs with ho
      · exact iff_of_true rfl ho.symm
      · refine iff_of_false (fun h => ?_) fun h => ho h.symm
        obtain ⟨r, hr, -⟩ := (live.index o' _).mp h
        exact not_none_of_some hr unborn
    · rw [if_neg hk]
      split_ifs with ho
      · subst ho
        refine iff_of_false (fun h => hk (Option.some.inj h).symm) ?_
        rintro ⟨r, hr, ha, hro⟩
        exact not_none_of_some ((live.index _ key).mpr ⟨r, hr, ha, hro⟩) unused
      · exact live.index o' key

/-- Ending objects one after the other keeps a state live. -/
theorem Live.exits {txid : Hash} {keys : List Hash} {w w' : WorkingState} {tolds : List Told} (live : Live w)
    (h : Exits txid keys w w' tolds) (settle : ∀ key ∈ keys, ∀ r, w.objects.get? key = some r → Settles r) :
    Live w' := by
  induction h with
  | nil => exact live
  | @cons key keys w w' record tolds found rest ih =>
    obtain rfl := live.named key record found
    refine ih (live.terminate found (settle _ List.mem_cons_self record found) (by decide) _ _) fun key hk r hr => ?_
    rw [get?_terminate] at hr
    split_ifs at hr with he
    · cases hr
      exact .inr rfl
    · exact settle key (List.mem_cons_of_mem _ hk) r hr

/-- What the transactions still to come would create is not there yet. -/
structure Unused (packages : Packages) (binding : Binding) (w : WorkingState) (txids : List Hash) : Prop where
  /-- Their objects. -/
  keys : ∀ txid ∈ txids, w.objects.get? (keyOf packages binding txid) = none
  /-- Their carriers. -/
  outpoints : ∀ txid ∈ txids, ∀ k r, w.objects.get? k = some r → r.status = .active →
    r.currentOutpoint ≠ some (successorOf txid)
  /-- They are different from one another. -/
  distinct : txids.Nodup
  /-- So are their objects. -/
  apart : (txids.map (keyOf packages binding)).Nodup

theorem Unused.index {txid : Hash} {txids : List Hash} (h : Unused packages binding w (txid :: txids)) (live : Live w) :
    w.activeByOutpoint.get? (successorOf txid) = none := by
  rw [Option.eq_none_iff_forall_not_mem]
  intro key hkey
  obtain ⟨r, hr, ha, ho⟩ := (live.index _ key).mp hkey
  exact h.outpoints txid List.mem_cons_self key r hr ha ho

theorem Unused.of_append {txids later : List Hash} (h : Unused packages binding w (txids ++ later)) :
    Unused packages binding w txids where
  keys txid ht := h.keys txid (List.mem_append_left _ ht)
  outpoints txid ht := h.outpoints txid (List.mem_append_left _ ht)
  distinct := (List.nodup_append.mp h.distinct).1
  apart := (List.nodup_append.mp (List.map_append (f := keyOf packages binding) ▸ h.apart)).1

/-- **An effect keeps a state live.** -/
theorem Live.effect (live : Live w) {txids : List Hash} (unused : Unused packages binding w (transaction.txid :: txids))
    {w' : WorkingState} {tolds : List Told} (h : Effect packages binding heights height transaction w w' tolds) :
    Live w' := by
  have hactive : ∀ {record : ObjectRecord}, consumedKeys w transaction = [record.objectKey] →
      w.objects.get? record.objectKey = some record → record.status = .active := by
    intro record one found
    obtain ⟨_, _, r, hr, ha, -⟩ := live.active (one ▸ List.mem_singleton.mpr rfl)
    exact Option.some.inj (found.symm.trans hr) ▸ ha
  cases h with
  | silent => exact live
  | invalid => exact live
  | init => exact live
  | created => exact live.create (unused.keys _ List.mem_cons_self) rfl rfl (unused.index live)
  | marked one found => exact live.advance found (hactive one found) (unused.index live) ..
  | rotated one found => exact live.advance found (hactive one found) (unused.index live) ..
  | closed one found => exact live.terminate found (.inl (hactive one found)) (by decide) ..
  | refunded one found => exact live.terminate found (.inl (hactive one found)) (by decide) ..
  | exited _ perm exits =>
    refine live.exits exits fun key hk r hr => ?_
    obtain ⟨_, _, r', hr', ha, -⟩ := live.active (perm.mem_iff.mp hk)
    exact .inl (Option.some.inj (hr.symm.trans hr') ▸ ha)

/-! ### The fate of each object -/

/-- What a transaction makes of the record of one object. -/
inductive Fate (packages : Packages) (binding : Binding) (heights : InitHeights) (height : ℕ)
    (transaction : BitcoinTransaction) (w : WorkingState) (key : Hash) (after : Option ObjectRecord) : Prop
  /-- Nothing: none of its carriers is spent. -/
  | kept (unspent : key ∉ consumedKeys w transaction) (same : after = w.objects.get? key)
  /-- It is created. -/
  | born (unborn : w.objects.get? key = none) (own : key = keyOf packages binding transaction.txid)
      (made : after = some (newborn packages binding heights height transaction))
  /-- It moves to the transaction's carrier. -/
  | moved {record : ObjectRecord} (spent : key ∈ consumedKeys w transaction)
      (found : w.objects.get? key = some record) {key0 key1 : String} {chapter : Option ChapterContent}
      (made : after =
        some (record.moved transaction.txid height (record.stateSequence + 1) key0 key1 chapter))
  /-- It ends. -/
  | ended {record : ObjectRecord} (spent : key ∈ consumedKeys w transaction)
      (found : w.objects.get? key = some record) {status : ObjectStatusName} (finished : status ≠ .active) {sequence : ℕ}
      (counts : sequence = record.stateSequence + if status = .closed then 1 else 0)
      (made : after = some (record.ended status transaction.txid sequence))

theorem Exits.objects {txid : Hash} {keys : List Hash} {w w' : WorkingState} {tolds : List Told}
    (h : Exits txid keys w w' tolds) (named : Named w.objects) (key : Hash) :
    w'.objects.get? key = if key ∈ keys then
        (w.objects.get? key).map fun r => r.ended .exited_noncanonical txid r.stateSequence
      else w.objects.get? key := by
  induction h with
  | nil => simp
  | @cons k keys w w' record tolds found rest ih =>
    obtain rfl := named k record found
    rw [ih (named_terminate named _ _ _), get?_terminate]
    by_cases hk : key = record.objectKey
    · subst hk
      simp [found, ObjectRecord.ended]
    · simp [hk]

/-- **Each object has its fate.** -/
theorem Effect.fate (live : Live w) {txids : List Hash} (unused : Unused packages binding w (transaction.txid :: txids))
    {w' : WorkingState} {tolds : List Told} (h : Effect packages binding heights height transaction w w' tolds)
    (key : Hash) : Fate packages binding heights height transaction w key (w'.objects.get? key) := by
  have hkept : consumedKeys w transaction = [] → key ∉ consumedKeys w transaction := fun h hm => by
    rw [h] at hm
    exact List.not_mem_nil hm
  have hone : ∀ {record : ObjectRecord}, consumedKeys w transaction = [record.objectKey] → key ≠ record.objectKey →
      key ∉ consumedKeys w transaction := fun h hne hm => by
    rw [h] at hm
    exact hne (List.mem_singleton.mp hm)
  cases h with
  | silent unspent => exact .kept (hkept unspent) rfl
  | invalid unspent => exact .kept (hkept unspent) rfl
  | init unspent => exact .kept (hkept unspent) rfl
  | created unspent =>
    rw [get?_create]
    split_ifs with hk
    · subst hk
      exact .born (unused.keys _ List.mem_cons_self) rfl rfl
    · exact .kept (hkept unspent) rfl
  | marked one found =>
    rw [get?_advance]
    split_ifs with hk
    · subst hk
      exact .moved (one ▸ List.mem_singleton.mpr rfl) found rfl
    · exact .kept (hone one hk) rfl
  | rotated one found =>
    rw [get?_advance]
    split_ifs with hk
    · subst hk
      exact .moved (one ▸ List.mem_singleton.mpr rfl) found rfl
    · exact .kept (hone one hk) rfl
  | closed one found =>
    rw [get?_terminate]
    split_ifs with hk
    · subst hk
      exact .ended (one ▸ List.mem_singleton.mpr rfl) found (by decide) rfl rfl
    · exact .kept (hone one hk) rfl
  | refunded one found =>
    rw [get?_terminate]
    split_ifs with hk
    · subst hk
      exact .ended (one ▸ List.mem_singleton.mpr rfl) found (by decide) rfl rfl
    · exact .kept (hone one hk) rfl
  | exited _ perm exits =>
    rw [exits.objects live.named]
    split_ifs with hk
    · have hspent := perm.mem_iff.mp hk
      obtain ⟨_, _, r, hr, -⟩ := live.active hspent
      rw [hr]
      exact .ended hspent hr (by decide) rfl rfl
    · exact .kept (fun hm => hk (perm.mem_iff.mpr hm)) rfl

theorem Unused.effect {txids : List Hash} (unused : Unused packages binding w (transaction.txid :: txids))
    (live : Live w) {w' : WorkingState} {tolds : List Told}
    (h : Effect packages binding heights height transaction w w' tolds) : Unused packages binding w' txids := by
  have hdistinct := List.nodup_cons.mp unused.distinct
  have hapart := List.nodup_cons.mp unused.apart
  refine ⟨fun txid ht => ?_, fun txid ht k r hr ha ho => ?_, hdistinct.2, hapart.2⟩
  · have hnone := unused.keys txid (List.mem_cons_of_mem _ ht)
    cases h.fate live unused (keyOf packages binding txid) with
    | kept _ same => exact same.trans hnone
    | born _ own => exact absurd (own ▸ List.mem_map_of_mem ht) hapart.1
    | moved _ found => exact (not_none_of_some found hnone).elim
    | ended _ found => exact (not_none_of_some found hnone).elim
  · have hother : successorOf transaction.txid ≠ successorOf txid := by
      intro e
      have htxid : transaction.txid = txid := congrArg Outpoint.txid e
      exact hdistinct.1 (htxid ▸ ht)
    cases h.fate live unused k with
    | kept _ same => exact unused.outpoints txid (List.mem_cons_of_mem _ ht) k r (same.symm.trans hr) ha ho
    | born _ _ made =>
      obtain rfl := Option.some.inj (made.symm.trans hr)
      exact hother (Option.some.inj ho)
    | moved _ _ made =>
      obtain rfl := Option.some.inj (made.symm.trans hr)
      exact hother (Option.some.inj ho)
    | ended _ _ finished _ made =>
      obtain rfl := Option.some.inj (made.symm.trans hr)
      exact finished ha

/-! ### The transactions of a block -/

/-- The transactions of a list have their effects one after the other. -/
inductive Effects (packages : Packages) (binding : Binding) (heights : InitHeights) (height : ℕ) :
    List BitcoinTransaction → WorkingState → WorkingState → List Told → Prop
  /-- None is left. -/
  | nil {w : WorkingState} : Effects packages binding heights height [] w w []
  /-- One more. -/
  | cons {transaction : BitcoinTransaction} {rest : List BitcoinTransaction} {w w' w'' : WorkingState}
      {tolds later : List Told} (first : Effect packages binding heights height transaction w w' tolds)
      (then' : Effects packages binding heights height rest w' w'' later) :
      Effects packages binding heights height (transaction :: rest) w w'' (tolds ++ later)

/-- What is still to come after several transactions stays unused. -/
theorem Effects.unused {txs : List BitcoinTransaction} {w w' : WorkingState} {tolds : List Told} {later : List Hash}
    (h : Effects packages binding heights height txs w w' tolds) (live : Live w)
    (unused : Unused packages binding w (txs.map BitcoinTransaction.txid ++ later)) :
    Unused packages binding w' later := by
  induction h with
  | nil => exact unused
  | cons first _ ih => exact ih (live.effect unused first) (unused.effect live first)

/-- A transaction that is not relevant spends no carrier. -/
theorem consumedKeys_of_not_relevant {initTxid : Hash}
    (h : isRelevant transaction w.activeByOutpoint initTxid = false) : consumedKeys w transaction = [] := by
  unfold isRelevant at h
  rw [Bool.or_eq_false_iff, List.any_eq_false] at h
  rw [List.eq_nil_iff_forall_not_mem]
  intro key hk
  obtain ⟨o, ho, hget⟩ := List.mem_filterMap.mp hk
  exact h.2 o ho ((JsMap.has_iff _ _).mpr ⟨key, hget⟩)

/-- **A turn of the loop** has an effect. -/
theorem connectTransaction_effect (contract : ValidatorContract packages.validate) {progress progress' : Progress}
    {entry : OrderedTransaction} (live : Live progress.state)
    (marked : InitMarked packages binding height entry.transaction)
    (h : connectTransaction packages binding heights height progress entry = .ok progress') :
    ∃ tolds, Effect packages binding heights height entry.transaction progress.state progress'.state tolds ∧
      progress'.events.map EventRecord.told = progress.events.map EventRecord.told ++ tolds := by
  unfold connectTransaction at h
  split_ifs at h with hrel
  · obtain ⟨classified, hc, h⟩ := bind_eq_ok.mp h
    obtain rfl := pure_eq_ok.mp h
    exact ⟨classified.events.map EventRecord.told, classifyTransaction_effect contract live (fun _ => marked) hc,
      List.map_append⟩
  · obtain rfl := pure_eq_ok.mp h
    exact ⟨[], .silent (consumedKeys_of_not_relevant (Bool.eq_false_iff.mpr hrel)), (List.append_nil _).symm⟩

/-- **The loop over the transactions** is a sequence of effects, and its states stay live. -/
theorem connect_effects (contract : ValidatorContract packages.validate) {ordered : List OrderedTransaction}
    {progress progress' : Progress} (live : Live progress.state)
    (unused : Unused packages binding progress.state (ordered.map fun entry => entry.transaction.txid))
    (marked : ∀ entry ∈ ordered, InitMarked packages binding height entry.transaction)
    (h : ordered.foldlM (connectTransaction packages binding heights height) progress = .ok progress') :
    ∃ tolds, Effects packages binding heights height (ordered.map OrderedTransaction.transaction) progress.state
        progress'.state tolds ∧
      progress'.events.map EventRecord.told = progress.events.map EventRecord.told ++ tolds ∧ Live progress'.state := by
  induction ordered generalizing progress with
  | nil =>
    obtain rfl := pure_eq_ok.mp h
    exact ⟨[], .nil, (List.append_nil _).symm, live⟩
  | cons entry ordered ih =>
    obtain ⟨next, hnext, h⟩ := bind_eq_ok.mp h
    obtain ⟨tolds, heffect, htold⟩ := connectTransaction_effect contract live (marked entry List.mem_cons_self) hnext
    obtain ⟨later, heffects, hlater, hlive⟩ := ih (live.effect unused heffect) (unused.effect live heffect)
      (fun e he => marked e (List.mem_cons_of_mem _ he)) h
    exact ⟨tolds ++ later, .cons heffect heffects, by rw [hlater, htold, List.append_assoc], hlive⟩

end

end IndexTandem.Indexer
