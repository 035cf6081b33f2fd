import IndexTandem.Agreement.Envelope
import IndexTandem.Indexer.SyncService

/-!
# Signing the state at a height

`signedAt` reads the checkpoint of a height and signs it as an agreement tuple of the
configured deployment: the roots and counters come from the database, the protocol id from
the configuration. Nothing compares the two.

A signed envelope carries exactly the checkpoint and the configuration (`signedAt_eq_ok`).
-/

namespace IndexTandem.Agreement

open Library Protocol Database Indexer

/-- The name of a network. -/
def networkName : NetworkCode → String
  | .mainnet => "mainnet"
  | .signet => "signet"
  | .testnet4 => "testnet4"
  | .regtest => "regtest"

/-- `deployment.protocolId`, as `loadConfiguration` sets it. -/
def protocolId (deployment : DeploymentConfiguration) : Option String :=
  deployment.initTxid.map fun txid => "tndm:" ++ networkName deployment.networkCode ++ ":" ++ txid.text

/-- The configuration of the signer. -/
structure AgreementConfiguration where
  /-- The key id. -/
  keyId : Option String
  /-- The private key. -/
  privateKeyHex : Option String
  /-- The public key it should have. -/
  publicKeyHex : Option String
  /-- The commit of the parser. -/
  parserCommit : Option String
  /-- The commit of the indexer. -/
  indexerCommit : Option String
  /-- The binary of the parser. -/
  parserBinarySha256 : Option String
  /-- The binary of the indexer. -/
  indexerBinarySha256 : Option String

/-- The curve: the package that makes keys and signatures. -/
structure Curve extends Signing where
  /-- `ed25519.getPublicKey(privateKey)`; it may throw. -/
  getPublicKey : Bytes → Except String Bytes
  /-- `ed25519.sign(message, privateKey)`; it may throw. -/
  sign : Bytes → Bytes → Except String Bytes

/-- A text that is there and not empty. -/
def present (text : Option String) : Option String := text.filter fun value => value ≠ ""

/-- The release of this process: `releaseIdentity()`. -/
def AgreementConfiguration.release (config : AgreementConfiguration) : Option (String × String × String × String) := do
  let parserCommit ← present config.parserCommit
  let indexerCommit ← present config.indexerCommit
  let parserBinarySha256 ← present config.parserBinarySha256
  let indexerBinarySha256 ← present config.indexerBinarySha256
  pure (parserCommit, indexerCommit, parserBinarySha256, indexerBinarySha256)

/-- `signingBoundaryConfigured(agreement)`. -/
def signingBoundaryConfigured (curve : Curve) (config : AgreementConfiguration) : Bool :=
  match present config.keyId, present config.privateKeyHex, config.release with
  | some keyId, some privateKeyHex, some _ =>
    if (bytes privateKeyHex).length ≠ 32 || !isKeyId keyId then false
    else match curve.getPublicKey (bytes privateKeyHex) with
      | .error _ => false
      | .ok derived => (present config.publicKeyHex).all fun publicKeyHex => publicKeyHex = toHex derived
  | _, _, _ => false

/-- `signAgreementTuple(tuple, keyId, privateKeyHex)`. -/
def signAgreementTuple (curve : Curve) (tuple : AgreementTuple) (keyId privateKeyHex : String) :
    Except String SignedAgreementEnvelope := do
  ensure ((bytes privateKeyHex).length = 32 ∧ isKeyId keyId = true) "invalid agreement signing boundary"
  let message ← canonicalAgreementBytes curve.toSigning tuple
  let signature ← curve.sign message (bytes privateKeyHex)
  pure ⟨"urn:tandem:agreement-envelope", keyId, tuple, toHex signature⟩

/-- `sign(tuple)`. -/
def sign (curve : Curve) (config : AgreementConfiguration) (tuple : AgreementTuple) :
    Except String SignedAgreementEnvelope :=
  match signingBoundaryConfigured curve config, present config.keyId, present config.privateKeyHex with
  | true, some keyId, some privateKeyHex => signAgreementTuple curve tuple keyId privateKeyHex
  | _, _, _ => throw "agreement signing boundary is not configured"

/-- The tuple of a checkpoint. -/
def checkpointTuple (protocolId : String) (row : CheckpointRow) (release : String × String × String × String) :
    AgreementTuple where
  schema := "urn:tandem:agreement-tuple"
  protocol_id := protocolId
  height := toString row.height
  block_hash := row.blockHash.text
  event_root := row.eventRoot.text
  object_state_root := row.objectStateRoot.text
  chained_root := row.chainedRoot.text
  founding_created := toString row.foundingCreated
  all_objects := toString row.allObjects
  active_objects := toString row.activeObjects
  parser_commit := release.1
  indexer_commit := release.2.1
  parser_binary_sha256 := release.2.2.1
  indexer_binary_sha256 := release.2.2.2

/-- `signedAt(height)`. -/
def signedAt (curve : Curve) (deployment : DeploymentConfiguration) (agreement : AgreementConfiguration) (db : Db)
    (height : ℕ) : Except String SignedAgreementEnvelope := do
  let row ← orError "checkpoint not found" (db.checkpoints.find? fun row => row.height = height)
  let protocolId ← orError "checkpoint not found" (protocolId deployment)
  let release ← orError "agreement release identity is not configured" agreement.release
  sign curve agreement (checkpointTuple protocolId row release)

/-- **What is signed** is the checkpoint of the height, under the protocol id of the configuration. -/
theorem signedAt_ok {curve : Curve} {deployment : DeploymentConfiguration} {agreement : AgreementConfiguration}
    {db : Db} {height : ℕ} {envelope : SignedAgreementEnvelope}
    (h : signedAt curve deployment agreement db height = .ok envelope) :
    ∃ row, db.checkpoints.find? (fun row => row.height = height) = some row ∧ ∃ id, protocolId deployment = some id ∧
      ∃ release, agreement.release = some release ∧ envelope.tuple = checkpointTuple id row release := by
  obtain ⟨row, hrow, h⟩ := bind_eq_ok.mp h
  obtain ⟨id, hid, h⟩ := bind_eq_ok.mp h
  obtain ⟨release, hrelease, h⟩ := bind_eq_ok.mp h
  rw [orError_eq_ok] at hrow hid hrelease
  refine ⟨row, hrow, id, hid, release, hrelease, ?_⟩
  unfold sign at h
  split at h
  · obtain ⟨_, -, h⟩ := bind_eq_ok.mp h
    obtain ⟨_, -, h⟩ := bind_eq_ok.mp h
    obtain ⟨_, -, h⟩ := bind_eq_ok.mp h
    obtain rfl := pure_eq_ok.mp h
    rfl
  · cases h

end IndexTandem.Agreement
