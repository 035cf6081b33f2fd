import IndexTandem.Agreement.AgreementQuery
import IndexTandem.Observability.Readiness
import IndexTandem.Verification.VerifiedAgreement

/-!
# The verified gateway

A query is answered only between two resolutions that give the same agreement. `resolve`
asks for a process that is ready, signs the checkpoint at its stored height, and compares
it with what the other pipeline answers for the height.
-/

namespace IndexTandem.Verification

open Library Protocol Agreement Indexer Observability

/-- The value that an envelope is in JSON. -/
def envelopeJson (envelope : SignedAgreementEnvelope) : Json :=
  .object [("schema", .string envelope.schema), ("key_id", .string envelope.key_id),
    ("tuple", .object (tupleMembers envelope.tuple)), ("signature", .string envelope.signature)]

/-- The configuration of verification. -/
structure VerificationConfiguration where
  /-- Where the other pipeline is. -/
  pipelineBBaseUrl : Option String
  /-- Mainnet responses may be served. -/
  mainnetEnabled : Bool
  /-- The keys trusted for this pipeline. -/
  pipelineATrustedKeys : TrustedKeys
  /-- The keys trusted for the other one. -/
  pipelineBTrustedKeys : TrustedKeys

/-- `resolve()`, given what the probe, the signer and the other pipeline return. -/
def resolve (signing : Signing) (deployment : DeploymentConfiguration) (verification : VerificationConfiguration)
    (snapshot : ReadinessSnapshot) (signedAt : ℕ → Except String SignedAgreementEnvelope)
    (fetchPipelineB : ℕ → Except String Json) : Except String VerificationMetadata :=
  match snapshot.ready, snapshot.canonicalHeight with
  | true, some height => do
    ensure (¬(networkName deployment.networkCode = "mainnet" ∧ verification.mainnetEnabled = false))
      "verified mainnet responses are disabled"
    ensure ((present verification.pipelineBBaseUrl).isSome = true) "pipeline B endpoint is not configured"
    let pipelineA ← signedAt height
    let pipelineB ← fetchPipelineB height
    let metadata ← establishVerifiedAgreement signing (envelopeJson pipelineA) pipelineB
      verification.pipelineATrustedKeys verification.pipelineBTrustedKeys deployment.specHash.text
    ensure (metadata.height = height ∧ some pipelineA.tuple.protocol_id = protocolId deployment)
      "agreement is not for the requested deployment height"
    pure metadata
  | _, _ => throw "pipeline A is not ready at a canonical height"

/-- A verified response. -/
structure VerifiedResponse (α : Type) where
  /-- The agreement it is verified with. -/
  verification : VerificationMetadata
  /-- The data. -/
  data : α

/-- `executeBound(query)`, given what its two resolutions and its query return. -/
def executeBound {α : Type} (before : Except String VerificationMetadata)
    (query : VerificationMetadata → Except String α) (after : Except String VerificationMetadata) :
    Except String (VerifiedResponse α) :=
  match before with
  | .error _ => throw "verification_unavailable"
  | .ok metadata => do
    let data ← query metadata
    match after with
    | .error _ => throw "verification_unavailable"
    | .ok verification =>
      if verification = metadata then pure ⟨verification, data⟩ else throw "verification_unavailable"

/-- A process that is not ready resolves nothing. -/
theorem resolve_not_ready {signing : Signing} {deployment : DeploymentConfiguration}
    {verification : VerificationConfiguration} {snapshot : ReadinessSnapshot}
    {signedAt : ℕ → Except String SignedAgreementEnvelope} {fetchPipelineB : ℕ → Except String Json}
    (h : snapshot.ready = false) : ∃ e, resolve signing deployment verification snapshot signedAt fetchPipelineB = .error e := by
  unfold resolve
  rw [h]
  exact ⟨_, rfl⟩

/-- A resolution goes through when every step does. -/
theorem resolve_eq_ok {signing : Signing} {deployment : DeploymentConfiguration}
    {verification : VerificationConfiguration} {snapshot : ReadinessSnapshot}
    {signedAt : ℕ → Except String SignedAgreementEnvelope} {fetchPipelineB : ℕ → Except String Json} {height : ℕ}
    {pipelineA : SignedAgreementEnvelope} {pipelineB : Json} {metadata : VerificationMetadata}
    (ready : snapshot.ready = true) (canonical : snapshot.canonicalHeight = some height)
    (enabled : ¬(networkName deployment.networkCode = "mainnet" ∧ verification.mainnetEnabled = false))
    (configured : (present verification.pipelineBBaseUrl).isSome = true) (signs : signedAt height = .ok pipelineA)
    (fetches : fetchPipelineB height = .ok pipelineB)
    (establishes : establishVerifiedAgreement signing (envelopeJson pipelineA) pipelineB
      verification.pipelineATrustedKeys verification.pipelineBTrustedKeys deployment.specHash.text = .ok metadata)
    (same : metadata.height = height ∧ some pipelineA.tuple.protocol_id = protocolId deployment) :
    resolve signing deployment verification snapshot signedAt fetchPipelineB = .ok metadata := by
  unfold resolve
  rw [ready, canonical]
  refine bind_eq_ok.mpr ⟨(), ensure_eq_ok.mpr enabled, bind_eq_ok.mpr ⟨(), ensure_eq_ok.mpr configured, ?_⟩⟩
  refine bind_eq_ok.mpr ⟨_, signs, bind_eq_ok.mpr ⟨_, fetches, bind_eq_ok.mpr ⟨_, establishes, ?_⟩⟩⟩
  exact bind_eq_ok.mpr ⟨(), ensure_eq_ok.mpr same, rfl⟩

/-- **No response without two resolutions** that are the same. -/
theorem executeBound_ok {α : Type} {before after : Except String VerificationMetadata}
    {query : VerificationMetadata → Except String α} {response : VerifiedResponse α}
    (h : executeBound before query after = .ok response) :
    before = .ok response.verification ∧ after = .ok response.verification ∧
      query response.verification = .ok response.data := by
  unfold executeBound at h
  cases before with
  | error e => cases h
  | ok metadata =>
    obtain ⟨data, hdata, h⟩ := bind_eq_ok.mp h
    cases after with
    | error e => cases h
    | ok verification =>
      dsimp only at h
      split_ifs at h with hsame
      · obtain rfl := pure_eq_ok.mp h
        subst hsame
        exact ⟨rfl, rfl, hdata⟩

theorem executeBound_error {α : Type} {before after : Except String VerificationMetadata}
    {query : VerificationMetadata → Except String α} {reason : String} (h : before = .error reason) :
    ∃ e, executeBound before query after = .error e := by
  rw [h]
  exact ⟨_, rfl⟩

end IndexTandem.Verification
