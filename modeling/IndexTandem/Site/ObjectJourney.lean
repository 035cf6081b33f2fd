import IndexTandem.Api.AddressCodec
import IndexTandem.Protocol.StateEngine
import IndexTandem.Verification.JsonText
import Mathlib.Data.String.Basic

/-!
# The journey of an object

The site lets a visitor take one object through its life. `applyOperation` says that it mirrors
`applyStateTransition`, but shares no code with it, keeps its own history, and leaves an object that ended alone where
the engine throws. `play_mirrors` is the simulation: whatever buttons are pressed, the transitions told by the history
are accepted by the engine and lead to the object that is shown, and once it ended the engine refuses every other.

The encoder of addresses is a port as well, without the checks of the original; what it shows is read back by the
indexer's decoder (`journey_address`).
-/

namespace IndexTandem.Site.ObjectJourney

open Library Protocol Api

/-! ### Stand-ins -/

/-- `state ^= seed.charCodeAt(index); state = Math.imul(state, 0x01000193) >>> 0`. -/
def absorb (state : UInt32) (unit : ℕ) : UInt32 := (state ^^^ .ofNat unit) * 0x01000193

/-- The three shifts of one turn. -/
def scramble (state : UInt32) : UInt32 :=
  let state := state ^^^ (state <<< 13)
  let state := state ^^^ (state >>> 17)
  state ^^^ (state <<< 5)

/-- The bytes of the second loop. -/
def standInBytes : ℕ → UInt32 → Bytes
  | 0, _ => []
  | turns + 1, state => (scramble state).toUInt8 :: standInBytes turns (scramble state)

/-- `standInHex(seed, bytes)`. -/
def standInHex (seed : String) (bytes : ℕ) : String :=
  toHex (standInBytes bytes ((Verification.utf16 seed.toList).foldl absorb 0x811c9dc5))

/-- `standInKey(seed)`. -/
def standInKey (seed : String) : String :=
  let body := standInHex seed 32
  let first := (bytes body).headD 0
  (if first.toNat % 2 = 0 then "02" else "03") ++ body

/-- `sortPair(a, b)`. -/
def sortPair (a b : String) : String × String := if a < b then (a, b) else (b, a)

/-- `carrierProgram(key0, key1)`. -/
def carrierProgram (key0 key1 : String) : String := standInHex ("carrier:" ++ key0 ++ ":" ++ key1) 32

/-! ### The object -/

/-- `Operation`. -/
inductive Operation where
  /-- A CREATE; there is no button for it. -/
  | CREATE
  /-- A MARK. -/
  | MARK
  /-- A ROTATE. -/
  | ROTATE
  /-- A CLOSE. -/
  | CLOSE
  /-- A REFUND. -/
  | REFUND
  /-- Any other spend. -/
  | BREAK
  deriving DecidableEq

/-- `Operation | "EXITED_NONCANONICAL"`, what an entry of the history is about. -/
inductive EntryOperation where
  /-- An operation. -/
  | operation (operation : Operation)
  /-- The exit. -/
  | EXITED_NONCANONICAL
  deriving DecidableEq

/-- `HistoryEntry`. -/
structure HistoryEntry where
  /-- What happened. -/
  operation : EntryOperation
  /-- The sequence after it. -/
  sequence : ℕ
  /-- The transaction. -/
  txid : String
  /-- Its height. -/
  height : ℕ
  /-- What is said about it. -/
  detail : String
  deriving DecidableEq

/-- `TandemObject`. -/
structure TandemObject where
  /-- Its status. -/
  status : TandemObjectStatus
  /-- Its sequence. -/
  sequence : ℕ
  /-- The number of its chapters. -/
  chapterCount : ℕ
  /-- The first key. -/
  key0 : String
  /-- The second key. -/
  key1 : String
  /-- Its carrier. -/
  currentOutpoint : Option String
  /-- The transaction that ended it. -/
  terminalTxid : Option String
  /-- The transaction that made it. -/
  createTxid : String
  /-- The height of that. -/
  createHeight : ℕ
  /-- It was made in the founding window. -/
  founding : Bool
  /-- The witness program of the carrier. -/
  carrierProgram : String
  /-- What happened to it. -/
  history : List HistoryEntry
  deriving DecidableEq

/-- `Deployment`. -/
structure Deployment where
  /-- The network. -/
  network : NetworkCode
  /-- The founding window opens. -/
  openHeight : ℕ
  /-- It closes. -/
  closeHeight : ℕ

/-- The options of `applyOperation`. -/
structure Options where
  /-- The seed of the stand-ins. -/
  seed : String
  /-- The height. -/
  height : ℕ
  /-- The kind of a chapter. -/
  kind : Option ℕ

/-- `createObject(seed, deployment, height)`. -/
def createObject (seed : String) (deployment : Deployment) (height : ℕ) : TandemObject :=
  let keys := sortPair (standInKey (seed ++ ":k0")) (standInKey (seed ++ ":k1"))
  let txid := standInHex (seed ++ ":create") 32
  { status := .active
    sequence := 0
    chapterCount := 0
    key0 := keys.1
    key1 := keys.2
    currentOutpoint := some (txid ++ ":1")
    terminalTxid := none
    createTxid := txid
    createHeight := height
    founding := deployment.openHeight ≤ height && height < deployment.closeHeight
    carrierProgram := carrierProgram keys.1 keys.2
    history := [⟨.operation .CREATE, 0, txid, height,
      "Both parties signed. The object exists at sequence 0 with no chapters yet."⟩] }

/-- The operation in a seed. -/
def Operation.text : Operation → String
  | .CREATE => "CREATE"
  | .MARK => "MARK"
  | .ROTATE => "ROTATE"
  | .CLOSE => "CLOSE"
  | .REFUND => "REFUND"
  | .BREAK => "BREAK"

/-- The txid of an operation. -/
def txidOf (object : TandemObject) (operation : Operation) (options : Options) : String :=
  standInHex (options.seed ++ ":" ++ operation.text ++ ":" ++ toString object.sequence) 32

/-- The keys that a ROTATE moves to. -/
def rotatedKeys (object : TandemObject) (options : Options) : String × String :=
  sortPair (standInKey (options.seed ++ ":k0:" ++ toString (object.sequence + 1)))
    (standInKey (options.seed ++ ":k1:" ++ toString (object.sequence + 1)))

/-- `ApplyResult`. -/
structure ApplyResult where
  /-- The object. -/
  object : TandemObject
  /-- What is said about it. -/
  note : String

/-- `applyOperation(object, operation, options)`. -/
def applyOperation (object : TandemObject) (operation : Operation) (options : Options) : ApplyResult :=
  if object.status ≠ .active then ⟨object, "This object is terminal. No Tandem operation can follow."⟩
  else
    let txid := txidOf object operation options
    match operation with
    | .MARK => ⟨{ object with
        sequence := object.sequence + 1
        chapterCount := object.chapterCount + 1
        currentOutpoint := some (txid ++ ":1")
        history := object.history ++ [⟨.operation .MARK, object.sequence + 1, txid, options.height,
          "Chapter " ++ toString (object.chapterCount + 1) ++ " recorded as kind " ++ toString (options.kind.getD 0) ++
          ". The key pair is unchanged and the carrier script is preserved byte for byte."⟩] },
        "A chapter is the only thing that increments the chapter count."⟩
    | .ROTATE =>
      let keys := rotatedKeys object options
      ⟨{ object with
        sequence := object.sequence + 1
        key0 := keys.1
        key1 := keys.2
        carrierProgram := carrierProgram keys.1 keys.2
        currentOutpoint := some (txid ++ ":1")
        history := object.history ++ [⟨.operation .ROTATE, object.sequence + 1, txid, options.height,
          "Both new keys were revealed by their own inputs. The chapter count is untouched, so the history survives the " ++
          "key change."⟩] },
        "Rotation changes who can sign next without disturbing anything already written."⟩
    | .CLOSE => ⟨{ object with
        sequence := object.sequence + 1
        status := .closed
        currentOutpoint := none
        terminalTxid := some txid
        history := object.history ++ [⟨.operation .CLOSE, object.sequence + 1, txid, options.height,
          "One input, both signatures, two equal payouts. The object ends with its history intact and readable forever."⟩] },
        "A cooperative ending still needs both signatures."⟩
    | .REFUND => ⟨{ object with
        status := .refunded
        currentOutpoint := none
        terminalTxid := some txid
        history := object.history ++ [⟨.operation .REFUND, object.sequence, txid, options.height,
          "Both parties signed this refund in advance, because it spends the same 2 of 2 carrier. Its input sequence is " ++
          "52560, so consensus refused to confirm it until the carrier was at least 52,560 blocks old. The sequence " ++
          "number does not advance."⟩] },
        "Once the delay has run, either party can broadcast it without the other having to act."⟩
    -- A CREATE of an object that is there falls through to the exit.
    | .BREAK | .CREATE => ⟨{ object with
        status := .exited_noncanonical
        currentOutpoint := none
        terminalTxid := some txid
        history := object.history ++ [⟨.EXITED_NONCANONICAL, object.sequence, txid, options.height,
          "The carrier was spent by a transaction that is not a valid Tandem operation. The output is gone, so the " ++
          "object has to terminate."⟩] },
        "The indexer never pretends a spent carrier is still there."⟩

/-- The object after some operations. -/
def play (object : TandemObject) (steps : List (Operation × Options)) : TandemObject :=
  steps.foldl (fun object step => (applyOperation object step.1 step.2).object) object

/-! ### The simulation -/

section

variable {K : Type} (k : K)

/-- What the engine keeps of the object. -/
def TandemObject.project (object : TandemObject) : IndexedObjectState K String String where
  objectKey := k
  status := object.status
  sequence := object.sequence
  currentOutpoint := object.currentOutpoint
  key0 := object.key0
  key1 := object.key1
  chapterCount := object.chapterCount
  terminalTxid := object.terminalTxid

/-- The CREATE of the object. -/
def creation (object : TandemObject) : StateTransition K String String :=
  .CREATE k (object.createTxid ++ ":1") object.key0 object.key1

/-- The transition of an operation on an active object. -/
def transitionOf (object : TandemObject) (operation : Operation) (options : Options) : StateTransition K String String :=
  let txid := txidOf object operation options
  let predecessor := object.currentOutpoint.getD ""
  match operation with
  | .MARK => .MARK k (object.sequence + 1) predecessor (txid ++ ":1") object.key0 object.key1
  | .ROTATE => .ROTATE k (object.sequence + 1) predecessor (txid ++ ":1") (rotatedKeys object options).1
      (rotatedKeys object options).2
  | .CLOSE => .CLOSE k (object.sequence + 1) predecessor txid
  | .REFUND => .REFUND k predecessor txid
  | .BREAK | .CREATE => .EXITED_NONCANONICAL k predecessor txid

/-- The transitions of some operations: those until the object ends. -/
def transitionsFrom (object : TandemObject) : List (Operation × Options) → List (StateTransition K String String)
  | [] => []
  | step :: steps =>
    if object.status = .active then
      transitionOf k object step.1 step.2 :: transitionsFrom (applyOperation object step.1 step.2).object steps
    else []

/-- An entry of the history tells a transition. -/
def Tells (entry : HistoryEntry) : StateTransition K String String → Prop
  | .CREATE _ o _ _ => entry.operation = .operation .CREATE ∧ entry.sequence = 0 ∧ o = entry.txid ++ ":1"
  | .MARK _ s _ o _ _ => entry.operation = .operation .MARK ∧ entry.sequence = s ∧ o = entry.txid ++ ":1"
  | .ROTATE _ s _ o _ _ => entry.operation = .operation .ROTATE ∧ entry.sequence = s ∧ o = entry.txid ++ ":1"
  | .CLOSE _ s _ x => entry.operation = .operation .CLOSE ∧ entry.sequence = s ∧ x = entry.txid
  | .REFUND _ _ x => entry.operation = .operation .REFUND ∧ x = entry.txid
  | .EXITED_NONCANONICAL _ _ x => entry.operation = .EXITED_NONCANONICAL ∧ x = entry.txid

/-- The object is what the transitions lead to, and its history tells them. -/
structure Mirrors (told : List (StateTransition K String String)) (object : TandemObject) : Prop where
  /-- The engine accepts them and ends with the object. -/
  accepted : runOne transition none told = .ok (some (object.project k))
  /-- They are all its own. -/
  own : ∀ t ∈ told, t.objectKey = k
  /-- Each has its entry, in order. -/
  entries : List.Forall₂ Tells object.history told
  /-- The last entry has the sequence of the object. -/
  last : object.history.getLast?.map HistoryEntry.sequence = some object.sequence

variable {k}

/-- **A new object** is that of its CREATE. -/
theorem mirrors_createObject (seed : String) (deployment : Deployment) (height : ℕ) :
    Mirrors k [creation k (createObject seed deployment height)] (createObject seed deployment height) where
  accepted := rfl
  own t ht := by
    obtain rfl := List.mem_singleton.mp ht
    rfl
  entries := .cons ⟨rfl, rfl, rfl⟩ .nil
  last := rfl

variable {told : List (StateTransition K String String)} {object : TandemObject}

theorem Mirrors.carried (h : Mirrors k told object) (active : object.status = .active) :
    ∃ o, object.currentOutpoint = some o :=
  Option.isSome_iff_exists.mp ((lawful_of_runOne h.accepted).carried.mp active)

/-- **The engine takes the transition of an operation**, to what the operation makes of the object. -/
theorem transition_transitionOf {o : String} (active : object.status = .active) (carrier : object.currentOutpoint = some o)
    (operation : Operation) (options : Options) :
    transition (some (object.project k)) (transitionOf k object operation options) =
      .ok ((applyOperation object operation options).object.project k) := by
  have hrequire : requireActive (some (object.project k)) (object.currentOutpoint.getD "") = .ok (object.project k) := by
    rw [carrier]
    exact requireActive_eq_ok.mpr ⟨rfl, active, carrier⟩
  unfold applyOperation
  rw [if_neg (not_not.mpr active)]
  generalize htxid : txidOf object operation options = txid
  generalize hkeys : rotatedKeys object options = keys
  cases operation with
  | MARK =>
    simp only [transitionOf, transition, htxid, hrequire]
    exact bind_eq_ok.mpr ⟨_, rfl, bind_eq_ok.mpr ⟨(), ensure_eq_ok.mpr rfl, rfl⟩⟩
  | ROTATE =>
    simp only [transitionOf, transition, htxid, hkeys, hrequire]
    exact bind_eq_ok.mpr ⟨_, rfl, bind_eq_ok.mpr ⟨(), ensure_eq_ok.mpr rfl, rfl⟩⟩
  | CLOSE =>
    simp only [transitionOf, transition, htxid, hrequire]
    exact bind_eq_ok.mpr ⟨_, rfl, bind_eq_ok.mpr ⟨(), ensure_eq_ok.mpr rfl, rfl⟩⟩
  | REFUND =>
    simp only [transitionOf, transition, htxid, hrequire]
    rfl
  | BREAK =>
    simp only [transitionOf, transition, htxid, hrequire]
    rfl
  | CREATE =>
    simp only [transitionOf, transition, htxid, hrequire]
    rfl

theorem history_applyOperation (active : object.status = .active) (operation : Operation) (options : Options) :
    ∃ entry, (applyOperation object operation options).object.history = object.history ++ [entry] ∧
      Tells entry (transitionOf k object operation options) ∧ entry.height = options.height ∧
      entry.sequence = (applyOperation object operation options).object.sequence := by
  unfold applyOperation
  rw [if_neg (not_not.mpr active)]
  cases operation with
  | MARK => exact ⟨_, rfl, ⟨rfl, rfl, rfl⟩, rfl, rfl⟩
  | ROTATE => exact ⟨_, rfl, ⟨rfl, rfl, rfl⟩, rfl, rfl⟩
  | CLOSE => exact ⟨_, rfl, ⟨rfl, rfl, rfl⟩, rfl, rfl⟩
  | REFUND => exact ⟨_, rfl, ⟨rfl, rfl⟩, rfl, rfl⟩
  | BREAK => exact ⟨_, rfl, ⟨rfl, rfl⟩, rfl, rfl⟩
  | CREATE => exact ⟨_, rfl, ⟨rfl, rfl⟩, rfl, rfl⟩

theorem objectKey_transitionOf (operation : Operation) (options : Options) :
    (transitionOf k object operation options).objectKey = k := by
  cases operation <;> rfl

/-- **An operation on an active object** is one transition of the engine. -/
theorem Mirrors.step (h : Mirrors k told object) (active : object.status = .active) (operation : Operation)
    (options : Options) :
    Mirrors k (told ++ [transitionOf k object operation options]) (applyOperation object operation options).object := by
  obtain ⟨o, ho⟩ := h.carried active
  have haccepted := transition_transitionOf (k := k) active ho operation options
  obtain ⟨entry, hhistory, htells, -, hsequence⟩ := history_applyOperation (k := k) active operation options
  refine ⟨?_, fun t ht => ?_, ?_, ?_⟩
  · unfold runOne
    rw [List.foldlM_append]
    exact bind_eq_ok.mpr ⟨_, h.accepted, bind_eq_ok.mpr ⟨_, stepOne_eq_ok.mpr ⟨_, haccepted, rfl⟩, rfl⟩⟩
  · rcases List.mem_append.mp ht with ht | ht
    · exact h.own t ht
    · rw [List.mem_singleton.mp ht]
      exact objectKey_transitionOf operation options
  · rw [hhistory]
    exact List.rel_append h.entries (.cons htells .nil)
  · rw [hhistory, List.getLast?_append_cons]
    exact congrArg some hsequence

/-- An object that ended stays as it is. -/
theorem applyOperation_ended (ended : object.status ≠ .active) (operation : Operation) (options : Options) :
    (applyOperation object operation options).object = object := by
  unfold applyOperation
  rw [if_pos ended]

theorem play_ended (ended : object.status ≠ .active) (steps : List (Operation × Options)) : play object steps = object := by
  induction steps with
  | nil => rfl
  | cons step steps ih =>
    show play (applyOperation object step.1 step.2).object steps = object
    rw [applyOperation_ended ended]
    exact ih

/-- **A run of operations** is a run of their transitions. -/
theorem Mirrors.play (h : Mirrors k told object) (steps : List (Operation × Options)) :
    Mirrors k (told ++ transitionsFrom k object steps) (play object steps) := by
  induction steps generalizing told object with
  | nil =>
    rw [transitionsFrom, List.append_nil]
    exact h
  | cons step steps ih =>
    by_cases active : object.status = .active
    · have hrest := ih (h.step active step.1 step.2)
      rw [List.append_assoc, List.singleton_append] at hrest
      rw [transitionsFrom, if_pos active]
      exact hrest
    · rw [transitionsFrom, if_neg active, List.append_nil, play_ended active]
      exact h

/-- While the object is active, every operation had its transition. -/
theorem length_transitionsFrom (steps : List (Operation × Options)) (active : (play object steps).status = .active) :
    (transitionsFrom k object steps).length = steps.length := by
  induction steps generalizing object with
  | nil => rfl
  | cons step steps ih =>
    by_cases h : object.status = .active
    · rw [transitionsFrom, if_pos h, List.length_cons, List.length_cons]
      exact congrArg (· + 1) (ih active)
    · rw [play_ended h] at active
      exact absurd active h

/-- The MARKs of a history are those of its transitions. -/
theorem countP_marks {history : List HistoryEntry} (h : List.Forall₂ Tells history told) :
    history.countP (fun entry => entry.operation = .operation .MARK) = told.countP StateTransition.isMark := by
  induction h with
  | nil => rfl
  | @cons entry t _ _ first _ ih =>
    have hsame : decide (entry.operation = .operation .MARK) = t.isMark := by
      cases t <;> simp [first.1, StateTransition.isMark]
    simp only [List.countP_cons, ih, hsame]

variable [DecidableEq K]

/-- A run of one object is a run of the engine. -/
theorem applyAll_of_runOne {r : IndexedObjectState K String String} (own : ∀ t ∈ told, t.objectKey = k)
    (h : runOne transition none told = .ok (some r)) :
    ∃ states, applyAll told = .ok states ∧ states.get? k = some r := by
  have hself : transitionsOf k told = told := List.filter_eq_self.mpr fun t ht => decide_eq_true (own t ht)
  have htotal : ∀ k', ∃ s, runOne transition ((∅ : States K String String).get? k') (transitionsOf k' told) = .ok s := by
    intro k'
    by_cases hk : k' = k
    · subst hk
      exact ⟨some r, by rw [hself]; exact h⟩
    · have hnone : transitionsOf k' told = [] :=
        List.filter_eq_nil_iff.mpr fun t ht => by simpa [own t ht] using Ne.symm hk
      exact ⟨none, by rw [hnone]; rfl⟩
  obtain ⟨states, hstates⟩ := runAt_total htotal
  refine ⟨states, hstates, ?_⟩
  have hrun : runOne transition none (transitionsOf k told) = .ok (states.get? k) := get?_runAt hstates k
  rw [hself, h] at hrun
  exact (Except.ok.inj hrun).symm

/-- What is shown after some operations, and the engine after their transitions. -/
structure Simulated (k : K) (steps : List (Operation × Options)) (object : TandemObject)
    (told : List (StateTransition K String String)) (states : States K String String) : Prop where
  /-- The engine accepts the transitions, -/
  accepted : applyAll told = .ok states
  /-- and its object is the one shown. -/
  shown : states.get? k = some (object.project k)
  /-- The history tells them, each by an entry, in order. -/
  entries : List.Forall₂ Tells object.history told
  /-- Its last entry has the sequence shown. -/
  last : object.history.getLast?.map HistoryEntry.sequence = some object.sequence
  /-- The chapters shown are its MARKs. -/
  chapters : object.chapterCount = object.history.countP fun entry => entry.operation = .operation .MARK
  /-- An active object has had a transition for every operation. -/
  complete : object.status = .active → told.length = steps.length + 1
  /-- Of an object that ended the engine takes no further one. -/
  refused : object.status ≠ .active → ∀ t, t.objectKey = k → ∃ e, applyStateTransition states t = .error e

/-- **The model of the site mirrors the engine**, whatever is done to the object and in whatever order. -/
theorem play_mirrors (k : K) (seed : String) (deployment : Deployment) (height : ℕ) (steps : List (Operation × Options)) :
    ∃ states, Simulated k steps (play (createObject seed deployment height) steps)
      (creation k (createObject seed deployment height) :: transitionsFrom k (createObject seed deployment height) steps)
      states := by
  have h := (mirrors_createObject (k := k) seed deployment height).play steps
  obtain ⟨states, hstates, hget⟩ := applyAll_of_runOne h.own h.accepted
  refine ⟨states, hstates, hget, h.entries, h.last, ?_, fun active => ?_, fun ended t ht => ?_⟩
  · rw [countP_marks h.entries]
    exact (lawful_of_runOne h.accepted).chapters
  · rw [List.length_cons, length_transitionsFrom steps active]
  · obtain ⟨e, he⟩ := transition_of_ended (r := (play (createObject seed deployment height) steps).project k) ended t
    refine ⟨e, ?_⟩
    unfold applyStateTransition
    rw [ht, hget, he]
    rfl

end

/-! ### The address -/

/-- The loop of `convertBits`, which takes any value. -/
def regroup (fromBits toBits : ℕ) : List ℕ → ℕ → ℕ → List ℕ × ℕ × ℕ
  | [], accumulator, bits => ([], accumulator, bits)
  | value :: values, accumulator, bits =>
    let accumulator := ((accumulator <<< fromBits) ||| value) &&& (1 <<< (fromBits + toBits - 1) - 1)
    let drained := drain toBits accumulator (bits + fromBits) (bits + fromBits)
    let rest := regroup fromBits toBits values accumulator drained.2
    (drained.1 ++ rest.1, rest.2)

/-- `convertBits(values, fromBits, toBits)`. -/
def convertBits (values : List ℕ) (fromBits toBits : ℕ) : List ℕ :=
  let rest := regroup fromBits toBits values 0 0
  if rest.2.2 > 0 then rest.1 ++ [(rest.2.1 <<< (toBits - rest.2.2)) &&& (1 <<< toBits - 1)] else rest.1

/-- `encodeCarrierAddress(witnessProgramHex, network)`, for a text of digits. `networkHrp`, `polymod` and `hrpExpand` are
those of the indexer. -/
def encodeCarrierAddress (witnessProgramHex : String) (network : NetworkCode) : String :=
  let hrp := (networkHrp network).toList
  let data := 0 :: convertBits ((bytes witnessProgramHex).map UInt8.toNat) 8 5
  let residue := polymod (hrpExpand hrp ++ data ++ [0, 0, 0, 0, 0, 0]) ^^^ 1
  let checksum := (List.range 6).map fun index => (residue >>> (5 * (5 - index))) &&& 31
  String.ofList (hrp ++ ['1'] ++ charactersOf (data ++ checksum))

/-- What the indexer regroups, the port regroups alike. -/
theorem regroup_eq {fromBits toBits : ℕ} {values : List ℕ} {accumulator bits : ℕ} {rest : List ℕ × ℕ × ℕ}
    (h : Api.regroup fromBits toBits values accumulator bits = some rest) :
    regroup fromBits toBits values accumulator bits = rest := by
  induction values generalizing accumulator bits rest with
  | nil => exact Option.some.inj h
  | cons value values ih =>
    unfold Api.regroup at h
    split_ifs at h
    obtain ⟨later, hlater, rfl⟩ := Option.map_eq_some_iff.mp h
    rw [regroup, ih hlater]

theorem convertBits_eq {fromBits toBits : ℕ} {values groups : List ℕ}
    (h : Api.convertBits values fromBits toBits true = some groups) : convertBits values fromBits toBits = groups := by
  unfold Api.convertBits at h
  cases hrest : Api.regroup fromBits toBits values 0 0 with
  | none =>
    rw [hrest] at h
    cases h
  | some rest =>
    rw [hrest] at h
    unfold convertBits
    rw [regroup_eq hrest]
    exact Option.some.inj h

/-- **The port writes the address that the indexer writes.** -/
theorem encodeCarrierAddress_eq (network : NetworkCode) {witnessProgramHex : String} (h : IsHex 32 witnessProgramHex) :
    Api.encodeCarrierAddress witnessProgramHex network = .ok (encodeCarrierAddress witnessProgramHex network) := by
  obtain ⟨program, rfl⟩ : ∃ program : Hash, witnessProgramHex = program.text :=
    ⟨⟨bytes witnessProgramHex, length_bytes h⟩, (toHex_bytes h).symm⟩
  have hvalues : (bytes program.text).map UInt8.toNat = programValues program := by
    rw [Hash.bytes_text]
    rfl
  rw [encodeCarrierAddress_text]
  unfold encodeCarrierAddress
  dsimp only
  rw [hvalues, convertBits_eq (convertBits_program program)]
  rfl

/-! ### Keys and programs -/

theorem length_standInBytes (turns : ℕ) (state : UInt32) : (standInBytes turns state).length = turns := by
  induction turns generalizing state with
  | zero => rfl
  | succ turns ih => rw [standInBytes, List.length_cons, ih]

theorem isHex_standInHex (seed : String) (turns : ℕ) : IsHex turns (standInHex seed turns) := by
  have h := isHex_toHex (standInBytes turns ((Verification.utf16 seed.toList).foldl absorb 0x811c9dc5))
  rwa [length_standInBytes] at h

theorem isHex_append {m n : ℕ} {a b : String} (ha : IsHex m a) (hb : IsHex n b) : IsHex (m + n) (a ++ b) := by
  obtain ⟨hlength, hdigits⟩ := ha
  obtain ⟨hlength', hdigits'⟩ := hb
  refine ⟨by rw [String.toList_append, List.length_append]; omega, fun c hc => ?_⟩
  rw [String.toList_append, List.mem_append] at hc
  exact hc.elim (hdigits c) (hdigits' c)

theorem isHex_standInKey (seed : String) : IsHex 33 (standInKey seed) := by
  have heven : IsHex 1 "02" := by decide
  have hodd : IsHex 1 "03" := by decide
  refine isHex_append (m := 1) ?_ (isHex_standInHex seed 32)
  by_cases h : ((bytes (standInHex seed 32)).headD 0).toNat % 2 = 0
  · rwa [if_pos h]
  · rwa [if_neg h]

-- What the stand-ins are does not matter from here on.
attribute [local irreducible] standInHex standInKey

/-- Two keys in order. -/
structure Paired (key0 key1 : String) : Prop where
  /-- A key of 33 bytes. -/
  first : IsHex 33 key0
  /-- Another. -/
  second : IsHex 33 key1
  /-- They are sorted. -/
  sorted : key0 ≤ key1

theorem paired_sortPair {a b : String} (ha : IsHex 33 a) (hb : IsHex 33 b) :
    Paired (sortPair a b).1 (sortPair a b).2 := by
  by_cases h : a < b
  · simp only [sortPair, if_pos h]
    exact ⟨ha, hb, le_of_lt h⟩
  · simp only [sortPair, if_neg h]
    exact ⟨hb, ha, not_lt.mp h⟩

/-- The program shown is that of the keys shown, which are in order. -/
structure Keyed (object : TandemObject) : Prop where
  /-- The keys. -/
  paired : Paired object.key0 object.key1
  /-- The program. -/
  program : object.carrierProgram = carrierProgram object.key0 object.key1

theorem keyed_createObject (seed : String) (deployment : Deployment) (height : ℕ) :
    Keyed (createObject seed deployment height) :=
  ⟨paired_sortPair (isHex_standInKey _) (isHex_standInKey _), rfl⟩

/-- Every operation keeps this: only a ROTATE changes the keys, and the program with them. -/
theorem Keyed.applyOperation {object : TandemObject} (h : Keyed object) (operation : Operation) (options : Options) :
    Keyed (applyOperation object operation options).object := by
  by_cases active : object.status = .active
  · unfold ObjectJourney.applyOperation
    rw [if_neg (not_not.mpr active)]
    cases operation with
    | ROTATE => exact ⟨paired_sortPair (isHex_standInKey _) (isHex_standInKey _), rfl⟩
    | MARK => exact ⟨h.paired, h.program⟩
    | CLOSE => exact ⟨h.paired, h.program⟩
    | REFUND => exact ⟨h.paired, h.program⟩
    | BREAK => exact ⟨h.paired, h.program⟩
    | CREATE => exact ⟨h.paired, h.program⟩
  · rw [applyOperation_ended active]
    exact h

/-! ### The buttons -/

/-- `TandemJourney`. -/
structure Journey where
  /-- The object shown. -/
  object : TandemObject
  /-- Its deployment. -/
  deployment : Deployment
  /-- The seed. -/
  seed : String
  /-- The height. -/
  height : ℕ

/-- `reset()`. -/
def Journey.reset (journey : Journey) : Journey := { journey with
  object := createObject journey.seed journey.deployment 2100
  height := 2100 }

/-- `connectedCallback()`. -/
def Journey.connect (seed : String) (deployment : Deployment) : Journey where
  object := createObject seed deployment 2100
  deployment := deployment
  seed := seed
  height := 2100

/-- A click on a button; nothing stands for `RESET`. -/
def Journey.press (journey : Journey) : Option Operation → Journey
  | none => journey.reset
  | some operation => { journey with
    object := (applyOperation journey.object operation ⟨journey.seed, journey.height + 12, none⟩).object
    height := journey.height + 12 }

/-- The heights of a history go up, and none is above that of the journey. -/
def Dated (journey : Journey) : Prop :=
  (journey.object.history.map HistoryEntry.height).Pairwise (fun a b => a < b) ∧
    ∀ entry ∈ journey.object.history, entry.height ≤ journey.height

/-- What is shown is in order. -/
structure InOrder (seed : String) (deployment : Deployment) (journey : Journey) : Prop where
  /-- The seed stays. -/
  seed : journey.seed = seed
  /-- The deployment stays. -/
  deployment : journey.deployment = deployment
  /-- The keys and the program. -/
  keyed : Keyed journey.object
  /-- The heights. -/
  dated : Dated journey
  /-- Since the last reset the object went through some operations. -/
  played : ∃ steps, journey.object = play (createObject journey.seed journey.deployment 2100) steps

theorem inOrder_connect (seed : String) (deployment : Deployment) : InOrder seed deployment (.connect seed deployment) where
  seed := rfl
  deployment := rfl
  keyed := keyed_createObject _ _ _
  dated := ⟨List.pairwise_singleton .., fun entry h => by obtain rfl := List.mem_singleton.mp h; exact le_rfl⟩
  played := ⟨[], rfl⟩

/-- **Every click keeps the order.** -/
theorem InOrder.press {seed : String} {deployment : Deployment} {journey : Journey} (h : InOrder seed deployment journey)
    (button : Option Operation) : InOrder seed deployment (journey.press button) := by
  obtain ⟨rfl, rfl, keyed, ⟨sorted, bounded⟩, steps, played⟩ := h
  cases button with
  | none => exact inOrder_connect journey.seed journey.deployment
  | some operation =>
    refine ⟨rfl, rfl, keyed.applyOperation _ _, ?_,
      steps ++ [(operation, ⟨journey.seed, journey.height + 12, none⟩)], ?_⟩
    · by_cases active : journey.object.status = .active
      · obtain ⟨entry, hhistory, -, hheight, -⟩ := history_applyOperation (k := ()) active operation
          ⟨journey.seed, journey.height + 12, none⟩
        unfold Dated Journey.press
        simp only [hhistory, List.map_append, List.map_cons, List.map_nil, List.mem_append, List.mem_singleton]
        refine ⟨List.pairwise_append.mpr ⟨sorted, List.pairwise_singleton .., ?_⟩, ?_⟩
        · intro a ha b hb
          obtain ⟨earlier, hearlier, rfl⟩ := List.mem_map.mp ha
          have hbefore := bounded earlier hearlier
          obtain rfl := List.mem_singleton.mp hb
          have hnow : entry.height = journey.height + 12 := hheight
          omega
        · rintro other (hother | rfl)
          · exact (bounded other hother).trans (Nat.le_add_right _ _)
          · exact le_of_eq hheight
      · unfold Dated Journey.press
        simp only [applyOperation_ended active]
        exact ⟨sorted, fun entry hentry => (bounded entry hentry).trans (Nat.le_add_right _ _)⟩
    · unfold Journey.press play
      rw [List.foldl_append]
      show (applyOperation journey.object operation _).object = (applyOperation (play _ steps) operation _).object
      rw [played]

/-- **The address shown is the indexer's**, after any clicks: its encoder writes it, and its decoder reads the program of
the two keys from it. -/
theorem journey_address {casing : Casing} (lawful : casing.Lawful) (seed : String) (deployment : Deployment)
    (buttons : List (Option Operation)) :
    let journey := buttons.foldl Journey.press (.connect seed deployment)
    let address := encodeCarrierAddress journey.object.carrierProgram deployment.network
    InOrder seed deployment journey ∧
      Api.encodeCarrierAddress (carrierProgram journey.object.key0 journey.object.key1) deployment.network = .ok address ∧
      decodeCarrierAddress casing address deployment.network =
        some ⟨address, carrierProgram journey.object.key0 journey.object.key1⟩ := by
  intro journey address
  have horder : InOrder seed deployment journey :=
    List.foldlRecOn buttons Journey.press (inOrder_connect seed deployment) fun journey h button _ => h.press button
  have hhex : IsHex 32 (carrierProgram journey.object.key0 journey.object.key1) := isHex_standInHex _ 32
  have hencode := encodeCarrierAddress_eq deployment.network hhex
  rw [← horder.keyed.program] at hencode hhex ⊢
  obtain ⟨address', hencode', hdecode, -⟩ := encodeCarrierAddress_decode lawful deployment.network hhex
  obtain rfl : address = address' := Except.ok.inj (hencode.symm.trans hencode')
  exact ⟨horder, hencode, hdecode⟩

/-- A chapter, a reset and an exit. -/
theorem journey_address_sample :
    let journey := [some .MARK, none, some .BREAK].foldl Journey.press (.connect "tandem-demo" ⟨.regtest, 2016, 6336⟩)
    decodeCarrierAddress plainCasing (encodeCarrierAddress journey.object.carrierProgram .regtest) .regtest =
      some ⟨encodeCarrierAddress journey.object.carrierProgram .regtest,
        carrierProgram journey.object.key0 journey.object.key1⟩ :=
  (journey_address plainCasing_lawful "tandem-demo" ⟨.regtest, 2016, 6336⟩ [some .MARK, none, some .BREAK]).2.2

end IndexTandem.Site.ObjectJourney
