import IndexTandem.Protocol.Bitcoin
import IndexTandem.Protocol.Validator

/-!
# Evidence

What the indexer finds out about a confirmed transaction before it asks the validator:
the outpoints and scripts spent, the shape of each witness, and for each signature
whether it is strict DER, low in `s`, and verifies against the digest of its input.
SHA-256 and the curve equation are parameters.

The validator matches carriers against `TransactionInputEvidence.outpoint`, and its
marker rules read `outputs`; `buildTransactionEvidence_ok` says where both come from.
-/

namespace IndexTandem.Indexer

open Library Protocol

/-! ### Encodings -/

/-- `SIGHASH_ALL`. -/
def SIGHASH_ALL : ℕ := 1

/-- Half the order of the secp256k1 group. -/
def HALF_ORDER : ℕ := 0xFFFFFFFFFFFFFFFFFFFFFFFFFFFFFFFEBAAEDCE6AF48A03BBFD25E8CD0364141 / 2

/-- `u32le(value)`: four bytes of `value >>> 0`. -/
def word32 (value : ℤ) : Bytes := littleEndian 4 (value % 0x1_0000_0000).toNat

/-- `u64le(value)`: `writeBigUInt64LE`, which throws above 64 bits. -/
def word64 (value : ℕ) : Except String Bytes := do
  ensure (value < 0x1_0000_0000_0000_0000) "The value of \"value\" is out of range."
  pure (littleEndian 8 value)

/-- `varBytes(data)`. -/
def varBytes (data : Bytes) : Except String Bytes := do
  if data.length < 0xfd then pure (littleEndian 1 data.length ++ data)
  else if data.length ≤ 0xffff then pure (0xfd :: littleEndian 2 data.length ++ data)
  else
    ensure (data.length < 0x1_0000_0000) "The value of \"value\" is out of range."
    pure (0xfe :: littleEndian 4 data.length ++ data)

/-- `inputOutpoint(input)`: the wire outpoint; the null outpoint for a coinbase input. -/
def inputOutpoint (input : BitcoinInput) : Bytes :=
  match inputDisplayOutpoint input with
  | some outpoint => outpointWire outpoint
  | none => List.replicate 32 0 ++ littleEndian 4 0xffff_ffff

/-- `derInteger(bytes)`: the big-endian number. -/
def derInteger (bytes : Bytes) : ℕ := bytes.foldl (fun n b => 256 * n + b.toNat) 0

/-- `isStrictDerWithHashType(sig)`: the BIP66 check of a signature and its hash type byte. -/
def isStrictDerWithHashType (sig : Bytes) : Bool :=
  let at' (i : ℕ) : ℕ := (sig.getD i 0).toNat
  let lenR := at' 3
  let lenS := at' (5 + lenR)
  if sig.length < 9 || sig.length > 73 then false
  else if at' 0 ≠ 0x30 then false
  else if at' 1 ≠ sig.length - 3 then false
  else if 5 + lenR ≥ sig.length then false
  else if lenR + lenS + 7 ≠ sig.length then false
  else if at' 2 ≠ 0x02 || lenR = 0 || at' 4 &&& 0x80 ≠ 0 then false
  else if lenR > 1 && at' 4 = 0 && at' 5 &&& 0x80 = 0 then false
  else if at' (lenR + 4) ≠ 0x02 || lenS = 0 || at' (lenR + 6) &&& 0x80 ≠ 0 then false
  else if lenS > 1 && at' (lenR + 6) = 0 && at' (lenR + 7) &&& 0x80 = 0 then false
  else true

section

variable (sha256 : Bytes → Hash)

/-! ### The digest of an input -/

/-- `hash256(data)`. -/
def hash256 (data : Bytes) : Hash := sha256 (sha256 data).bytes

/-- The parts of the digest that the inputs of a transaction share. -/
structure SighashContext where
  /-- The transaction. -/
  transaction : BitcoinTransaction
  /-- The hash of the outpoints. -/
  hashPrevouts : Hash
  /-- The hash of the sequence numbers. -/
  hashSequence : Hash
  /-- The hash of the outputs. -/
  hashOutputs : Hash

/-- `new SighashContext(transaction)`. -/
def SighashContext.new (transaction : BitcoinTransaction) : Except String SighashContext := do
  let outputs ← transaction.outputs.mapM fun output => do
    let value ← word64 output.valueSats
    let script ← varBytes (bytes output.scriptPubKeyHex)
    pure (value ++ script)
  pure {
    transaction := transaction
    hashPrevouts := hash256 sha256 (transaction.inputs.flatMap inputOutpoint)
    hashSequence := hash256 sha256 (transaction.inputs.flatMap fun input => word32 input.sequence)
    hashOutputs := hash256 sha256 outputs.flatten }

/-- `digest(index, scriptCode, amount)`: the BIP143 digest for `SIGHASH_ALL`. -/
def SighashContext.digest (context : SighashContext) (index : ℕ) (scriptCode : Bytes) (amount : ℕ) :
    Except String Hash :=
  match context.transaction.inputs[index]? with
  | none => throw "input index out of range"
  | some input => do
    let code ← varBytes scriptCode
    let value ← word64 amount
    pure (hash256 sha256 (word32 context.transaction.version ++ context.hashPrevouts.bytes ++
      context.hashSequence.bytes ++ inputOutpoint input ++ code ++ value ++ word32 input.sequence ++
      context.hashOutputs.bytes ++ word32 context.transaction.locktime ++ word32 SIGHASH_ALL))

/-! ### Inputs -/

/-- `isP2wpkh(script)`. -/
def isP2wpkh (script : Bytes) : Bool := script.length = 22 && script[0]? = some 0x00 && script[1]? = some 0x14

/-- `isP2wsh(script)`. -/
def isP2wsh (script : Bytes) : Bool := script.length = 34 && script[0]? = some 0x00 && script[1]? = some 0x20

/-- `isCarrierWitnessScript(script)`: two-of-two over compressed keys. -/
def isCarrierWitnessScript (script : Bytes) : Bool :=
  script.length = 71 && script[0]? = some 0x52 && script[1]? = some 0x21 && script[35]? = some 0x21 &&
    script[69]? = some 0x52 && script[70]? = some 0xae

/-- The curve equation: `verify r s digest publicKey`; false where the library throws. -/
abbrev Verify := ℕ → ℕ → Bytes → Bytes → Bool

variable (verify : Verify)

/-- `checkSignature(signature, publicKey, digest)`; a digest that throws verifies nothing. -/
def checkSignature (signature publicKey : Bytes) (digest : Except String Hash) : VerifiedSignatureEvidence :=
  let sighashType : ℤ := signature.getLast?.elim (-1) fun b => (b.toNat : ℤ)
  let lenR := (signature.getD 3 0).toNat
  let lenS := (signature.getD (5 + lenR) 0).toNat
  let r := derInteger (slice signature 4 (4 + lenR))
  let s := derInteger (slice signature (6 + lenR) (6 + lenR + lenS))
  let strictDer := isStrictDerWithHashType signature
  { publicKey := publicKey
    sighashType := sighashType
    cryptographicallyVerified := strictDer && sighashType = SIGHASH_ALL && publicKey.length = 33 &&
      match digest with
      | .ok hash => verify r s hash.bytes publicKey
      | .error _ => false
    strictDer := strictDer
    lowS := strictDer && 0 < s && s ≤ HALF_ORDER }

/-- `inputEvidence(transaction, index, sighash)`. -/
def inputEvidence (sighash : SighashContext) (index : ℕ) (input : BitcoinInput) : TransactionInputEvidence :=
  let prevoutScript := bytes (input.prevout.elim "" BitcoinPrevout.scriptPubKeyHex)
  let amount := input.prevout.elim 0 BitcoinPrevout.valueSats
  let witness := input.witness.map bytes
  let base : TransactionInputEvidence := {
    outpoint := inputOutpoint input
    sequence := input.sequence
    prevoutValue := amount
    prevoutScriptPubKey := prevoutScript
    prevoutHeight := input.prevout.bind BitcoinPrevout.blockHeight
    scriptSigEmpty := input.scriptSigHex = ""
    witnessShapeValid := false
    witnessScript := if isP2wsh prevoutScript then witness.getLast? else none
    revealedPublicKey := none
    signatures := [] }
  match isP2wpkh prevoutScript, isP2wsh prevoutScript, witness with
  | true, _, [signature, publicKey] =>
    let scriptCode := [0x76, 0xa9, 0x14] ++ prevoutScript.drop 2 ++ [0x88, 0xac]
    { base with
      witnessShapeValid := true
      witnessScript := none
      revealedPublicKey := some publicKey
      signatures := [checkSignature verify signature publicKey (sighash.digest sha256 index scriptCode amount)] }
  | _, true, [[], signature0, signature1, witnessScript] =>
    let digest := sighash.digest sha256 index witnessScript amount
    { base with
      witnessShapeValid := true
      witnessScript := some witnessScript
      signatures :=
        if isCarrierWitnessScript witnessScript then
          [checkSignature verify signature0 (slice witnessScript 2 35) digest,
            checkSignature verify signature1 (slice witnessScript 36 69) digest]
        else [] }
  | _, _, _ => base

/-- `buildTransactionEvidence(transaction, height)`. The block passed Bitcoin consensus, so the
relative locks of a version 2 transaction are satisfied. -/
def buildTransactionEvidence (transaction : BitcoinTransaction) (height : ℕ) :
    Except String TransactionEvidence := do
  let sighash ← SighashContext.new sha256 transaction
  pure {
    txid := transaction.txid
    version := transaction.version
    lockTime := transaction.locktime
    height := height
    inputs := transaction.inputs.zipIdx.map fun entry => inputEvidence sha256 verify sighash entry.2 entry.1
    outputs := transaction.outputs.map fun output => ⟨output.valueSats, bytes output.scriptPubKeyHex⟩
    relativeLocktimeMature := 2 ≤ transaction.version }

/-! ### What the evidence says -/

@[simp] theorem inputEvidence_outpoint (sighash : SighashContext) (index : ℕ) (input : BitcoinInput) :
    (inputEvidence sha256 verify sighash index input).outpoint = inputOutpoint input := by
  unfold inputEvidence
  dsimp only
  split <;> rfl

/-- The evidence names the transaction, its outputs and the outpoints of its inputs. -/
theorem buildTransactionEvidence_ok {transaction : BitcoinTransaction} {height : ℕ}
    {evidence : TransactionEvidence} (h : buildTransactionEvidence sha256 verify transaction height = .ok evidence) :
    evidence.txid = transaction.txid ∧
      evidence.inputs.map TransactionInputEvidence.outpoint = transaction.inputs.map inputOutpoint ∧
      evidence.outputs = transaction.outputs.map fun output => ⟨output.valueSats, bytes output.scriptPubKeyHex⟩ := by
  obtain ⟨sighash, -, h⟩ := bind_eq_ok.mp h
  obtain rfl := pure_eq_ok.mp h
  refine ⟨rfl, ?_, rfl⟩
  rw [List.map_map]
  calc transaction.inputs.zipIdx.map _
      = transaction.inputs.zipIdx.map (inputOutpoint ∘ Prod.fst) :=
        List.map_congr_left fun entry _ => inputEvidence_outpoint sha256 verify sighash entry.2 entry.1
    _ = (transaction.inputs.zipIdx.map Prod.fst).map inputOutpoint := by rw [List.map_map]
    _ = transaction.inputs.map inputOutpoint := by rw [List.zipIdx_map_fst]

/-- The evidence of an input that spends `o` names `o`. -/
theorem mem_inputs_of_spends {transaction : BitcoinTransaction} {height : ℕ} {evidence : TransactionEvidence}
    (h : buildTransactionEvidence sha256 verify transaction height = .ok evidence) {o : Outpoint}
    (ho : o ∈ transaction.spends) : ∃ input ∈ evidence.inputs, input.outpoint = outpointWire o := by
  obtain ⟨input, hi, hio⟩ := List.mem_filterMap.mp ho
  have hm : outpointWire o ∈ transaction.inputs.map inputOutpoint :=
    List.mem_map.mpr ⟨input, hi, by simp [inputOutpoint, hio]⟩
  rw [← (buildTransactionEvidence_ok sha256 verify h).2.1] at hm
  exact List.mem_map.mp hm

/-- The evidence is there when every amount and script fits its field. -/
theorem buildTransactionEvidence_total {transaction : BitcoinTransaction} (height : ℕ)
    (h : ∀ output ∈ transaction.outputs, output.valueSats < 0x1_0000_0000_0000_0000 ∧
      (bytes output.scriptPubKeyHex).length < 0x1_0000_0000) :
    ∃ evidence, buildTransactionEvidence sha256 verify transaction height = .ok evidence := by
  have hm : ∀ output ∈ transaction.outputs, ∃ part, (do
      let value ← word64 output.valueSats
      let script ← varBytes (bytes output.scriptPubKeyHex)
      pure (value ++ script)) = Except.ok (ε := String) part := by
    intro output ho
    obtain ⟨hv, hs⟩ := h output ho
    have hw : word64 output.valueSats = .ok (littleEndian 8 output.valueSats) := by
      simp only [word64, ensure, if_pos hv]
      rfl
    rw [hw]
    unfold varBytes
    split_ifs
    · exact ⟨_, rfl⟩
    · exact ⟨_, rfl⟩
    · simp only [ensure, if_pos hs]
      exact ⟨_, rfl⟩
  obtain ⟨parts, hp⟩ := mapM_total hm
  unfold buildTransactionEvidence SighashContext.new
  rw [hp]
  exact ⟨_, rfl⟩

end

end IndexTandem.Indexer
