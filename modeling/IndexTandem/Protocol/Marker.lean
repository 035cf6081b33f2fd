import IndexTandem.Protocol.Bytes
import Mathlib.Data.Int.Notation

/-!
# Tandem markers

A marker is an `OP_RETURN` push that starts with the four bytes `TNDM`. The indexer
relies on two readings of a script, both from the protocol package it vendors:
`inspectMarkerScript` says whether a script is a marker candidate and what bytes it
pushes, accepting a push that is cut short; `parseMarkerScript` reads a whole, minimal
push of exactly the right length for its opcode into a `Marker`.
-/

namespace IndexTandem.Protocol

/-- The bytes `TNDM`. -/
def MAGIC : Bytes := [0x54, 0x4e, 0x44, 0x4d]

/-- `NETWORK`: the code of each network. -/
inductive NetworkCode where
  /-- Code 0. -/
  | mainnet
  /-- Code 1. -/
  | signet
  /-- Code 2. -/
  | testnet4
  /-- Code 3. -/
  | regtest
  deriving DecidableEq

/-- The code of a network. -/
def NetworkCode.code : NetworkCode → ℕ
  | .mainnet => 0
  | .signet => 1
  | .testnet4 => 2
  | .regtest => 3

/-- `OPCODE`: the operations a marker can name. -/
inductive Opcode where
  /-- Opcode 0. -/
  | init
  /-- Opcode 1. -/
  | create
  /-- Opcode 2. -/
  | mark
  /-- Opcode 3. -/
  | rotate
  /-- Opcode 4. -/
  | close
  deriving DecidableEq

/-- The opcode of a byte, when it is defined. -/
def Opcode.ofCode : ℕ → Option Opcode
  | 0 => some .init
  | 1 => some .create
  | 2 => some .mark
  | 3 => some .rotate
  | 4 => some .close
  | _ => none

/-- `PAYLOAD_LENGTH`. -/
def PAYLOAD_LENGTH : Opcode → ℕ
  | .init => 59
  | .create => 40
  | .mark => 78
  | .rotate => 44
  | .close => 80

/-- `REASON`: why a transaction is not the operation it looks like; `VALID` when it is. -/
inductive Reason where
  | VALID
  | MULTIPLE_MARKERS
  | BAD_MARKER_ENCODING_OR_LENGTH
  | UNKNOWN_MARKER_FORMAT
  | WRONG_NETWORK
  | UNKNOWN_OPCODE
  | WRONG_NAMESPACE
  | UNSUPPORTED_OR_RESERVED_FIELD
  | BAD_TX_VERSION_OR_LOCKTIME
  | BAD_INPUT_COUNT_OR_ORDER
  | BAD_OUTPUT_COUNT_OR_ORDER
  | UNCONFIRMED_OR_SAME_BLOCK_PREVOUT
  | BAD_INPUT_SCRIPT
  | BAD_KEY_ORDER_OR_BINDING
  | BAD_SIGNATURE_OR_SIGHASH
  | BAD_OUTPUT_SCRIPT_OR_VALUE
  | NONPOSITIVE_OR_INVALID_FEE
  | BAD_FEE_SPLIT_OR_CHANGE
  | PREDECESSOR_NOT_ACTIVE
  | BAD_STATE_SEQUENCE
  | BAD_SUCCESSOR
  | BAD_COMMITMENT
  | BAD_HEIGHT_OR_PHASE
  | BAD_REFUND_SHAPE_OR_MATURITY
  | MULTIPLE_CARRIERS
  | UNMARKED_CARRIER_SPEND
  deriving DecidableEq

/-- The number of a reason, as it is stored and hashed. -/
def Reason.code : Reason → ℕ
  | .VALID => 0x0000
  | .MULTIPLE_MARKERS => 0x0001
  | .BAD_MARKER_ENCODING_OR_LENGTH => 0x0002
  | .UNKNOWN_MARKER_FORMAT => 0x0003
  | .WRONG_NETWORK => 0x0004
  | .UNKNOWN_OPCODE => 0x0005
  | .WRONG_NAMESPACE => 0x0006
  | .UNSUPPORTED_OR_RESERVED_FIELD => 0x0007
  | .BAD_TX_VERSION_OR_LOCKTIME => 0x0010
  | .BAD_INPUT_COUNT_OR_ORDER => 0x0011
  | .BAD_OUTPUT_COUNT_OR_ORDER => 0x0012
  | .UNCONFIRMED_OR_SAME_BLOCK_PREVOUT => 0x0013
  | .BAD_INPUT_SCRIPT => 0x0014
  | .BAD_KEY_ORDER_OR_BINDING => 0x0015
  | .BAD_SIGNATURE_OR_SIGHASH => 0x0016
  | .BAD_OUTPUT_SCRIPT_OR_VALUE => 0x0017
  | .NONPOSITIVE_OR_INVALID_FEE => 0x0018
  | .BAD_FEE_SPLIT_OR_CHANGE => 0x0019
  | .PREDECESSOR_NOT_ACTIVE => 0x001a
  | .BAD_STATE_SEQUENCE => 0x001b
  | .BAD_SUCCESSOR => 0x001c
  | .BAD_COMMITMENT => 0x001d
  | .BAD_HEIGHT_OR_PHASE => 0x001e
  | .BAD_REFUND_SHAPE_OR_MATURITY => 0x001f
  | .MULTIPLE_CARRIERS => 0x0020
  | .UNMARKED_CARRIER_SPEND => 0x0030

/-- What `inspectMarkerScript` sees in a script. -/
structure MarkerCandidateInspection where
  /-- An `OP_RETURN` push whose present bytes start with the magic. -/
  candidate : Bool
  /-- The script ends where the push does. -/
  exact : Bool
  /-- The push has the shortest encoding. -/
  minimal : Bool
  /-- The byte after `OP_RETURN`; `-1` when there is none. -/
  pushOpcode : ℤ
  /-- The bytes of the push that are there. -/
  payload : Bytes
  deriving DecidableEq

/-- The declared length of the push after `OP_RETURN` and the offset of its data. -/
def pushHeader (script : Bytes) : Option (ℕ × ℕ) :=
  let push := (script.getD 1 0).toNat
  if 1 ≤ push ∧ push ≤ 75 then some (push, 2)
  else if push = 0x4c ∧ 3 ≤ script.length then some ((script.getD 2 0).toNat, 3)
  else if push = 0x4d ∧ 4 ≤ script.length then
    some ((script.getD 2 0).toNat ||| ((script.getD 3 0).toNat <<< 8), 4)
  else if push = 0x4e ∧ 6 ≤ script.length then some (readU32LE script 2, 6)
  else none

/-- `inspectMarkerScript(script)`. -/
def inspectMarkerScript (script : Bytes) : MarkerCandidateInspection :=
  if script.length < 2 ∨ script.head? ≠ some 0x6a then ⟨false, false, false, -1, []⟩
  else
    let pushOpcode := (script.getD 1 0).toNat
    match pushHeader script with
    | none => ⟨false, false, false, pushOpcode, []⟩
    | some (length, dataOffset) =>
      let payload := (script.drop dataOffset).take length
      { candidate := 4 ≤ payload.length ∧ payload.take 4 = MAGIC
        exact := script.length = dataOffset + length
        minimal := if length ≤ 75 then pushOpcode = length else pushOpcode = 0x4c
        pushOpcode := pushOpcode
        payload := payload }

/-- A parsed marker. The fields with one allowed value (state output, flags) are left out. -/
inductive Marker where
  /-- `INIT`. -/
  | init (network openHeight closeHeight carrierValue refundDelay : ℕ) (specHash : Bytes)
  /-- `CREATE`. -/
  | create (network : ℕ) (namespaceBytes : Bytes)
  /-- `MARK`. -/
  | mark (network : ℕ) (namespaceBytes : Bytes) (sequence kind : ℕ) (commitment : Bytes)
  /-- `ROTATE`. -/
  | rotate (network : ℕ) (namespaceBytes : Bytes) (sequence : ℕ)
  /-- `CLOSE`. -/
  | close (network : ℕ) (namespaceBytes : Bytes) (sequence reason : ℕ) (commitment : Bytes)
  deriving DecidableEq

/-- `marker.operation`. -/
def Marker.operation : Marker → Opcode
  | .init .. => .init
  | .create .. => .create
  | .mark .. => .mark
  | .rotate .. => .rotate
  | .close .. => .close

/-- `payload.slice(from, to)`. -/
def slice (payload : Bytes) (start stop : ℕ) : Bytes := (payload.drop start).take (stop - start)

/-- `CARRIER_VALUE`, in satoshis. -/
def CARRIER_VALUE : ℕ := 20000

/-- `REFUND_DELAY`, in blocks. -/
def REFUND_DELAY : ℕ := 52560

/-- The last step of `parseMarkerScript`: the fields of a payload of the right length. -/
def parsePayload (network : ℕ) (payload : Bytes) : Opcode → Except Reason Marker
  | .init =>
    let carrierValue := readU64LE payload 15
    let refundDelay := readU32LE payload 23
    if carrierValue ≠ CARRIER_VALUE ∨ refundDelay ≠ REFUND_DELAY then
      throw .UNSUPPORTED_OR_RESERVED_FIELD
    else pure (.init network (readU32LE payload 7) (readU32LE payload 11) carrierValue refundDelay
      (slice payload 27 59))
  | .create =>
    if payload.getD 7 0 ≠ 1 then throw .UNSUPPORTED_OR_RESERVED_FIELD
    else pure (.create network (slice payload 8 40))
  | .mark =>
    let kind := (payload.getD 44 0).toNat
    if payload.getD 7 0 ≠ 1 ∨ kind > 5 ∨ payload.getD 45 0 ≠ 0 then throw .UNSUPPORTED_OR_RESERVED_FIELD
    else pure (.mark network (slice payload 8 40) (readU32LE payload 40) kind (slice payload 46 78))
  | .rotate =>
    if payload.getD 7 0 ≠ 1 then throw .UNSUPPORTED_OR_RESERVED_FIELD
    else pure (.rotate network (slice payload 8 40) (readU32LE payload 40))
  | .close =>
    let reason := (payload.getD 44 0).toNat
    if payload.getD 7 0 ≠ 0xff ∨ reason > 3 ∨ payload.getD 45 0 ≠ 0 ∨ payload.getD 46 0 ≠ 0 ∨
        payload.getD 47 0 ≠ 0 then throw .UNSUPPORTED_OR_RESERVED_FIELD
    else pure (.close network (slice payload 8 40) (readU32LE payload 40) reason (slice payload 48 80))

/-- `expectedPush(opcode)`. -/
def expectedPush (opcode : Opcode) : ℕ := if PAYLOAD_LENGTH opcode ≤ 75 then PAYLOAD_LENGTH opcode else 0x4c

/-- `parseMarkerScript(script, expectedNetwork)`: the marker, or why there is none. -/
def parseMarkerScript (script : Bytes) (expectedNetwork : NetworkCode) : Except Reason Marker :=
  let push := inspectMarkerScript script
  if !push.candidate || !push.exact || !push.minimal || push.payload.length < 7 || push.payload.length > 80 then
    throw .BAD_MARKER_ENCODING_OR_LENGTH
  else
    let format := push.payload.getD 4 0
    let network := (push.payload.getD 5 0).toNat
    match Opcode.ofCode (push.payload.getD 6 0).toNat with
    | some opcode =>
      if push.payload.length ≠ PAYLOAD_LENGTH opcode ∨ push.pushOpcode ≠ expectedPush opcode then
        throw .BAD_MARKER_ENCODING_OR_LENGTH
      else if format ≠ 1 then throw .UNKNOWN_MARKER_FORMAT
      else if network ≠ expectedNetwork.code then throw .WRONG_NETWORK
      else parsePayload network push.payload opcode
    | none =>
      if format ≠ 1 then throw .UNKNOWN_MARKER_FORMAT
      else if network ≠ expectedNetwork.code then throw .WRONG_NETWORK
      else throw .UNKNOWN_OPCODE

/-! ### What a candidate is -/

/-- A candidate is an `OP_RETURN` script with at least four bytes of data behind a push header. -/
theorem inspectMarkerScript_candidate {script : Bytes} (h : (inspectMarkerScript script).candidate = true) :
    script.head? = some 0x6a ∧ ∃ length dataOffset, pushHeader script = some (length, dataOffset) ∧
      (inspectMarkerScript script).payload = (script.drop dataOffset).take length ∧
      4 ≤ (inspectMarkerScript script).payload.length ∧
      (inspectMarkerScript script).payload.take 4 = MAGIC := by
  unfold inspectMarkerScript at h ⊢
  split_ifs at h ⊢ with h0
  cases hp : pushHeader script with
  | none => simp [hp] at h
  | some p =>
    obtain ⟨length, dataOffset⟩ := p
    simp only [hp, decide_eq_true_eq] at h ⊢
    rw [not_or, Nat.not_lt, not_ne_iff] at h0
    exact ⟨h0.2, length, dataOffset, rfl, rfl, h.1, h.2⟩

/-- Only scripts starting with `OP_RETURN` are candidates. -/
theorem inspectMarkerScript_head {script : Bytes} (h : (inspectMarkerScript script).candidate = true) :
    script.head? = some 0x6a := (inspectMarkerScript_candidate h).1

/-! ### What a parsed marker is -/

theorem Opcode.ofCode_init {n : ℕ} (h : Opcode.ofCode n = some .init) : n = 0 := by
  unfold Opcode.ofCode at h
  split at h <;> first | rfl | cases h

theorem parsePayload_operation {network : ℕ} {payload : Bytes} {opcode : Opcode} {marker : Marker}
    (h : parsePayload network payload opcode = .ok marker) : marker.operation = opcode := by
  cases opcode <;> simp only [parsePayload] at h <;> split_ifs at h <;> cases h <;> rfl

/-- A parsed marker comes from a whole, minimal push of the length its opcode asks for. -/
theorem parseMarkerScript_ok {script : Bytes} {network : NetworkCode} {marker : Marker}
    (h : parseMarkerScript script network = .ok marker) :
    (inspectMarkerScript script).candidate = true ∧ 7 ≤ (inspectMarkerScript script).payload.length ∧
      ∃ opcode, Opcode.ofCode ((inspectMarkerScript script).payload.getD 6 0).toNat = some opcode ∧
        (inspectMarkerScript script).payload.length = PAYLOAD_LENGTH opcode ∧
        (inspectMarkerScript script).payload.getD 4 0 = 1 ∧
        ((inspectMarkerScript script).payload.getD 5 0).toNat = network.code ∧
        parsePayload network.code (inspectMarkerScript script).payload opcode = .ok marker := by
  dsimp only [parseMarkerScript] at h
  cases ho : Opcode.ofCode ((inspectMarkerScript script).payload.getD 6 0).toNat with
  | none =>
    simp only [ho] at h
    split_ifs at h
  | some opcode =>
    simp only [ho] at h
    split_ifs at h with h₀ h₁ h₂ h₃
    simp only [Bool.or_eq_true, Bool.not_eq_true', decide_eq_true_eq, not_or, Bool.not_eq_false, Nat.not_lt] at h₀
    rw [not_or, not_ne_iff, not_ne_iff] at h₁
    rw [not_ne_iff] at h₂ h₃
    exact ⟨h₀.1.1.1.1, h₀.1.2, opcode, rfl, h₁.1, h₂, h₃, h₃ ▸ h⟩

/-- A script that is no marker has a reason other than `VALID`. -/
theorem parseMarkerScript_error {script : Bytes} {network : NetworkCode} {reason : Reason}
    (h : parseMarkerScript script network = .error reason) : reason ≠ .VALID := by
  rintro rfl
  dsimp only [parseMarkerScript] at h
  cases ho : Opcode.ofCode ((inspectMarkerScript script).payload.getD 6 0).toNat with
  | none =>
    simp only [ho] at h
    split_ifs at h <;> cases h
  | some opcode =>
    simp only [ho] at h
    split_ifs at h
    · cases h
    · cases h
    · cases h
    · cases h
    · cases opcode <;> simp only [parsePayload] at h <;> split_ifs at h <;> cases h

end IndexTandem.Protocol
