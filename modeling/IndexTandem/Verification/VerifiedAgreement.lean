import IndexTandem.Agreement.Envelope
import IndexTandem.Library.JsMap
import IndexTandem.Library.Lists
import Mathlib.Data.String.Basic

/-!
# Establishing an agreement

`establishVerifiedAgreement` takes what two pipelines answered, as JSON values, and returns
what they agree on. It goes through exactly when both values are envelopes of the right
shape, signed by keys that are trusted for their own pipeline, and the nine semantic fields
are equal (`establishVerifiedAgreement_iff`); the release fields play no part.
-/

namespace IndexTandem.Verification

open Library Protocol Agreement

/-! ### JSON values -/

/-- A JSON value. A later member of an object replaces an earlier one with the same key. -/
inductive Json where
  /-- `null`. -/
  | null
  /-- `true` and `false`. -/
  | bool (value : Bool)
  /-- A number, by its text. -/
  | number (text : String)
  /-- A text. -/
  | string (text : String)
  /-- An array. -/
  | array (items : List Json)
  /-- An object. -/
  | object (members : List (String × Json))

/-- The own members of an object; nothing for another value, an array included. -/
def Json.record : Json → Option (JsMap String Json)
  | .object members => some (.ofList members)
  | _ => none

/-- The value is an object with exactly these members. -/
def Json.Is (value : Json) (members : List (String × Json)) : Prop :=
  ∃ record, value.record = some record ∧ ∀ key, record.get? key = members.lookup key

/-! ### Parsing an envelope -/

/-- `ENVELOPE_KEYS`. -/
def ENVELOPE_KEYS : List String := ["schema", "key_id", "tuple", "signature"]

/-- `TUPLE_KEYS`. -/
def TUPLE_KEYS : List String :=
  ["schema", "protocol_id", "height", "block_hash", "event_root", "object_state_root", "chained_root",
    "founding_created", "all_objects", "active_objects", "parser_commit", "indexer_commit", "parser_binary_sha256",
    "indexer_binary_sha256"]

/-- `[...keys].sort()`; only whether two sorted lists are equal matters. -/
def sorted (keys : List String) : List String := sortBy (fun a b => decide (a ≤ b)) keys

/-- `exactRecord(value, keys, label)`. -/
def exactRecord (value : Json) (keys : List String) (label : String) : Except String (JsMap String Json) :=
  match value.record with
  | none => throw (label ++ " must be an object")
  | some record => do
    ensure (sorted record.keys = sorted keys) (label ++ " has an invalid shape")
    pure record

/-- `textField(record, key)`. -/
def textField (record : JsMap String Json) (key : String) : Except String String :=
  match record.get? key with
  | some (.string text) => pure text
  | _ => throw (key ++ " must be a string")

/-- `Object.fromEntries(TUPLE_KEYS.map((key) => [key, textField(tupleRecord, key)]))`. -/
def tupleOf (record : JsMap String Json) : Except String AgreementTuple := do
  let schema ← textField record "schema"
  let protocol_id ← textField record "protocol_id"
  let height ← textField record "height"
  let block_hash ← textField record "block_hash"
  let event_root ← textField record "event_root"
  let object_state_root ← textField record "object_state_root"
  let chained_root ← textField record "chained_root"
  let founding_created ← textField record "founding_created"
  let all_objects ← textField record "all_objects"
  let active_objects ← textField record "active_objects"
  let parser_commit ← textField record "parser_commit"
  let indexer_commit ← textField record "indexer_commit"
  let parser_binary_sha256 ← textField record "parser_binary_sha256"
  let indexer_binary_sha256 ← textField record "indexer_binary_sha256"
  pure ⟨schema, protocol_id, height, block_hash, event_root, object_state_root, chained_root, founding_created,
    all_objects, active_objects, parser_commit, indexer_commit, parser_binary_sha256, indexer_binary_sha256⟩

/-- `parseAgreementEnvelope(value)`. -/
def parseAgreementEnvelope (value : Json) : Except String SignedAgreementEnvelope := do
  let envelope ← exactRecord value ENVELOPE_KEYS "agreement envelope"
  let tupleRecord ← exactRecord ((envelope.get? "tuple").getD .null) TUPLE_KEYS "agreement tuple"
  let tuple ← tupleOf tupleRecord
  assertAgreementTuple tuple
  let schema ← textField envelope "schema"
  let key_id ← textField envelope "key_id"
  let signature ← textField envelope "signature"
  pure ⟨schema, key_id, tuple, signature⟩

/-! ### The agreement -/

/-- `ReleaseIdentity`. -/
structure ReleaseIdentity where
  /-- The commit of the parser. -/
  parserCommit : String
  /-- The commit of the indexer. -/
  indexerCommit : String
  /-- The binary of the parser. -/
  parserBinarySha256 : String
  /-- The binary of the indexer. -/
  indexerBinarySha256 : String
  deriving DecidableEq

/-- `VerifiedPipelineIdentity`. -/
structure VerifiedPipelineIdentity where
  /-- The key that signed. -/
  keyId : String
  /-- The signature. -/
  signature : String
  /-- The release. -/
  release : ReleaseIdentity
  deriving DecidableEq

/-- `VerificationMetadata`. -/
structure VerificationMetadata where
  /-- The protocol instance. -/
  protocolId : String
  /-- The network it names. -/
  network : String
  /-- The spec hash of the deployment. -/
  specHash : String
  /-- The height. -/
  height : ℕ
  /-- The block. -/
  blockHash : String
  /-- The root of the chain. -/
  chainedRoot : String
  /-- The root of the events. -/
  eventRoot : String
  /-- The root of the objects. -/
  objectStateRoot : String
  /-- The objects created in the founding window. -/
  foundingCreated : String
  /-- All objects. -/
  allObjects : String
  /-- The active ones. -/
  activeObjects : String
  /-- Who signed in the first pipeline. -/
  pipelineA : VerifiedPipelineIdentity
  /-- Who signed in the second. -/
  pipelineB : VerifiedPipelineIdentity
  deriving DecidableEq

/-- `releaseIdentity(tuple)`. -/
def releaseIdentity (tuple : AgreementTuple) : ReleaseIdentity :=
  ⟨tuple.parser_commit, tuple.indexer_commit, tuple.parser_binary_sha256, tuple.indexer_binary_sha256⟩

/-- The keys of a pipeline that are trusted. -/
abbrev TrustedKeys := JsMap String String

/-- `verifyTrustedEnvelope(value, trustedKeys, pipeline)`. -/
def verifyTrustedEnvelope (signing : Signing) (value : Json) (trustedKeys : TrustedKeys) (pipeline : String) :
    Except String SignedAgreementEnvelope := do
  let envelope ← parseAgreementEnvelope value
  ensure (envelope.schema = "urn:tandem:agreement-envelope") (pipeline ++ " envelope schema is not supported")
  let publicKey ← orError (pipeline ++ " key is not trusted") (trustedKeys.get? envelope.key_id)
  ensure (publicKey ≠ "") (pipeline ++ " key is not trusted")
  ensure (verifyAgreementEnvelope signing envelope publicKey = true) (pipeline ++ " signature is invalid")
  pure envelope

/-- `SEMANTIC_FIELDS`, with what they read. -/
def SEMANTIC_FIELDS : List (String × (AgreementTuple → String)) :=
  [("protocol_id", AgreementTuple.protocol_id), ("height", AgreementTuple.height),
    ("block_hash", AgreementTuple.block_hash), ("event_root", AgreementTuple.event_root),
    ("object_state_root", AgreementTuple.object_state_root), ("chained_root", AgreementTuple.chained_root),
    ("founding_created", AgreementTuple.founding_created), ("all_objects", AgreementTuple.all_objects),
    ("active_objects", AgreementTuple.active_objects)]

/-- Who signed an envelope. -/
def identityOf (envelope : SignedAgreementEnvelope) : VerifiedPipelineIdentity :=
  ⟨envelope.key_id, envelope.signature, releaseIdentity envelope.tuple⟩

/-- `establishVerifiedAgreement(input)`. -/
def establishVerifiedAgreement (signing : Signing) (pipelineA pipelineB : Json)
    (pipelineATrustedKeys pipelineBTrustedKeys : TrustedKeys) (specHash : String) :
    Except String VerificationMetadata := do
  let a ← verifyTrustedEnvelope signing pipelineA pipelineATrustedKeys "pipeline A"
  let b ← verifyTrustedEnvelope signing pipelineB pipelineBTrustedKeys "pipeline B"
  SEMANTIC_FIELDS.forM fun field =>
    ensure (field.2 a.tuple = field.2 b.tuple) ("agreement mismatch at " ++ field.1)
  let network ← orError "agreement protocol id is malformed" (protocolNetwork a.tuple.protocol_id)
  ensure (isHex 32 specHash = true) "deployment spec hash is malformed"
  pure {
    protocolId := a.tuple.protocol_id
    network := network
    specHash := specHash
    height := decimal a.tuple.height
    blockHash := a.tuple.block_hash
    chainedRoot := a.tuple.chained_root
    eventRoot := a.tuple.event_root
    objectStateRoot := a.tuple.object_state_root
    foundingCreated := a.tuple.founding_created
    allObjects := a.tuple.all_objects
    activeObjects := a.tuple.active_objects
    pipelineA := identityOf a
    pipelineB := identityOf b }

/-! ### What a value has to be -/

/-- The members of a tuple. -/
def tupleMembers (tuple : AgreementTuple) : List (String × Json) :=
  [("schema", .string tuple.schema), ("protocol_id", .string tuple.protocol_id), ("height", .string tuple.height),
    ("block_hash", .string tuple.block_hash), ("event_root", .string tuple.event_root),
    ("object_state_root", .string tuple.object_state_root), ("chained_root", .string tuple.chained_root),
    ("founding_created", .string tuple.founding_created), ("all_objects", .string tuple.all_objects),
    ("active_objects", .string tuple.active_objects), ("parser_commit", .string tuple.parser_commit),
    ("indexer_commit", .string tuple.indexer_commit),
    ("parser_binary_sha256", .string tuple.parser_binary_sha256),
    ("indexer_binary_sha256", .string tuple.indexer_binary_sha256)]

/-- The value is the envelope: an object with exactly the four members, the tuple one with exactly the
fourteen, and all of them texts. -/
def IsEnvelope (value : Json) (envelope : SignedAgreementEnvelope) : Prop :=
  ∃ tuple : Json, value.Is [("schema", .string envelope.schema), ("key_id", .string envelope.key_id),
    ("tuple", tuple), ("signature", .string envelope.signature)] ∧ tuple.Is (tupleMembers envelope.tuple)

/-- The value is a well-formed envelope, signed by a key that is trusted. -/
structure Trusted (signing : Signing) (value : Json) (trustedKeys : TrustedKeys)
    (envelope : SignedAgreementEnvelope) : Prop where
  /-- It is the envelope. -/
  parsed : IsEnvelope value envelope
  /-- Its tuple keeps the rules. -/
  rules : TupleRules envelope.tuple
  /-- The key is trusted, and it signed. -/
  signed : ∃ publicKey, trustedKeys.get? envelope.key_id = some publicKey ∧ SignedBy signing envelope publicKey

/-- The nine semantic fields are equal. -/
structure SameSemantics (a b : AgreementTuple) : Prop where
  /-- The protocol instance. -/
  protocolId : a.protocol_id = b.protocol_id
  /-- The height. -/
  height : a.height = b.height
  /-- The block. -/
  blockHash : a.block_hash = b.block_hash
  /-- The root of the events. -/
  eventRoot : a.event_root = b.event_root
  /-- The root of the objects. -/
  objectStateRoot : a.object_state_root = b.object_state_root
  /-- The root of the chain. -/
  chainedRoot : a.chained_root = b.chained_root
  /-- The objects created in the founding window. -/
  foundingCreated : a.founding_created = b.founding_created
  /-- All objects. -/
  allObjects : a.all_objects = b.all_objects
  /-- The active ones. -/
  activeObjects : a.active_objects = b.active_objects

/-- The metadata says of the state what the tuple says. -/
structure Reports (metadata : VerificationMetadata) (tuple : AgreementTuple) : Prop where
  /-- The protocol instance. -/
  protocolId : metadata.protocolId = tuple.protocol_id
  /-- The network it names. -/
  network : protocolNetwork tuple.protocol_id = some metadata.network
  /-- The height, as a number. -/
  height : metadata.height = decimal tuple.height
  /-- The block. -/
  blockHash : metadata.blockHash = tuple.block_hash
  /-- The root of the events. -/
  eventRoot : metadata.eventRoot = tuple.event_root
  /-- The root of the objects. -/
  objectStateRoot : metadata.objectStateRoot = tuple.object_state_root
  /-- The root of the chain. -/
  chainedRoot : metadata.chainedRoot = tuple.chained_root
  /-- The objects created in the founding window. -/
  foundingCreated : metadata.foundingCreated = tuple.founding_created
  /-- All objects. -/
  allObjects : metadata.allObjects = tuple.all_objects
  /-- The active ones. -/
  activeObjects : metadata.activeObjects = tuple.active_objects

/-- The identity names the key, the signature and the release of an envelope. -/
structure Identifies (identity : VerifiedPipelineIdentity) (envelope : SignedAgreementEnvelope) : Prop where
  /-- The key. -/
  keyId : identity.keyId = envelope.key_id
  /-- The signature. -/
  signature : identity.signature = envelope.signature
  /-- The commit of the parser. -/
  parserCommit : identity.release.parserCommit = envelope.tuple.parser_commit
  /-- The commit of the indexer. -/
  indexerCommit : identity.release.indexerCommit = envelope.tuple.indexer_commit
  /-- The parser's binary. -/
  parserBinarySha256 : identity.release.parserBinarySha256 = envelope.tuple.parser_binary_sha256
  /-- The indexer's binary. -/
  indexerBinarySha256 : identity.release.indexerBinarySha256 = envelope.tuple.indexer_binary_sha256

/-! ### Parsing gives what the value is -/

theorem sorted_eq_iff {keys keys' : List String} : sorted keys = sorted keys' ↔ keys.Perm keys' := by
  constructor
  · intro h
    exact ((sortBy_perm _ keys).symm.trans (List.Perm.of_eq h)).trans (sortBy_perm _ keys')
  · intro h
    refine sortBy_congr (fun a b c hab hbc => ?_) (fun a b => ?_) h fun a _ b _ hab hba => ?_
    · exact decide_eq_true ((of_decide_eq_true hab).trans (of_decide_eq_true hbc))
    · simpa using le_total a b
    · exact le_antisymm (of_decide_eq_true hab) (of_decide_eq_true hba)

theorem exactRecord_eq_ok {value : Json} {keys : List String} {label : String} {record : JsMap String Json} :
    exactRecord value keys label = .ok record ↔ value.record = some record ∧ record.keys.Perm keys := by
  unfold exactRecord
  cases value.record with
  | none => simp
  | some r =>
    simp only [bind_eq_ok, ensure_eq_ok, exists_const, pure_eq_ok, sorted_eq_iff, Option.some.injEq]
    constructor
    · rintro ⟨h, rfl⟩
      exact ⟨rfl, h⟩
    · rintro ⟨rfl, h⟩
      exact ⟨h, rfl⟩

theorem textField_eq_ok {record : JsMap String Json} {key text : String} :
    textField record key = .ok text ↔ record.get? key = some (.string text) := by
  unfold textField
  split
  · rename_i t ht
    simp [ht]
  · rename_i hne
    refine iff_of_false (by simp) fun h => hne text h

theorem tupleOf_eq_ok {record : JsMap String Json} {tuple : AgreementTuple} :
    tupleOf record = .ok tuple ↔ ∀ member ∈ tupleMembers tuple, record.get? member.1 = some member.2 := by
  simp only [tupleOf, bind_eq_ok, textField_eq_ok, pure_eq_ok, tupleMembers, List.forall_mem_cons, List.not_mem_nil,
    false_imp_iff, implies_true, and_true]
  constructor
  · rintro ⟨_, h₁, _, h₂, _, h₃, _, h₄, _, h₅, _, h₆, _, h₇, _, h₈, _, h₉, _, h₁₀, _, h₁₁, _, h₁₂, _, h₁₃, _, h₁₄, rfl⟩
    exact ⟨h₁, h₂, h₃, h₄, h₅, h₆, h₇, h₈, h₉, h₁₀, h₁₁, h₁₂, h₁₃, h₁₄⟩
  · rintro ⟨h₁, h₂, h₃, h₄, h₅, h₆, h₇, h₈, h₉, h₁₀, h₁₁, h₁₂, h₁₃, h₁₄⟩
    exact ⟨_, h₁, _, h₂, _, h₃, _, h₄, _, h₅, _, h₆, _, h₇, _, h₈, _, h₉, _, h₁₀, _, h₁₁, _, h₁₂, _, h₁₃, _, h₁₄, rfl⟩

/-- An object with the keys of some members, and these members, has exactly them. -/
theorem is_iff {value : Json} {members : List (String × Json)} (distinct : (members.map Prod.fst).Nodup) :
    value.Is members ↔ ∃ record, value.record = some record ∧ record.keys.Perm (members.map Prod.fst) ∧
      ∀ member ∈ members, record.get? member.1 = some member.2 :=
  exists_congr fun _ => and_congr_right fun _ => JsMap.get?_eq_lookup_iff distinct

theorem nodup_tupleKeys (tuple : AgreementTuple) : ((tupleMembers tuple).map Prod.fst).Nodup := by
  change TUPLE_KEYS.Nodup
  decide

/-- The object with the members of an envelope is the envelope. -/
theorem isEnvelope_members (envelope : SignedAgreementEnvelope) :
    IsEnvelope (.object [("schema", .string envelope.schema), ("key_id", .string envelope.key_id),
      ("tuple", .object (tupleMembers envelope.tuple)), ("signature", .string envelope.signature)]) envelope := by
  have hkeys : (([("schema", .string envelope.schema), ("key_id", .string envelope.key_id),
      ("tuple", .object (tupleMembers envelope.tuple)), ("signature", .string envelope.signature)] :
      List (String × Json)).map Prod.fst).Nodup := by
    show ENVELOPE_KEYS.Nodup
    decide
  exact ⟨.object (tupleMembers envelope.tuple), ⟨_, rfl, JsMap.get?_ofList _ hkeys⟩,
    ⟨_, rfl, JsMap.get?_ofList _ (nodup_tupleKeys envelope.tuple)⟩⟩

/-- A value is one envelope at most. -/
theorem IsEnvelope.unique {value : Json} {envelope envelope' : SignedAgreementEnvelope}
    (h : IsEnvelope value envelope) (h' : IsEnvelope value envelope') : envelope = envelope' := by
  obtain ⟨tuple, ⟨record, hrecord, hget⟩, fields, hfields, hmembers⟩ := h
  obtain ⟨tuple', ⟨record', hrecord', hother⟩, fields', hfields', hmembers'⟩ := h'
  obtain rfl := Option.some.inj (hrecord.symm.trans hrecord')
  have htuple : tuple = tuple' := Option.some.inj ((hget "tuple").symm.trans (hother "tuple"))
  subst htuple
  obtain rfl := Option.some.inj (hfields.symm.trans hfields')
  have hread := tupleOf_eq_ok.mpr ((JsMap.get?_eq_lookup_iff (nodup_tupleKeys envelope.tuple)).mp hmembers).2
  have hread' := tupleOf_eq_ok.mpr ((JsMap.get?_eq_lookup_iff (nodup_tupleKeys envelope'.tuple)).mp hmembers').2
  have hsame : envelope.tuple = envelope'.tuple := Except.ok.inj (hread.symm.trans hread')
  have hschema := Json.string.inj (Option.some.inj ((hget "schema").symm.trans (hother "schema")))
  have hkeyId := Json.string.inj (Option.some.inj ((hget "key_id").symm.trans (hother "key_id")))
  have hsignature := Json.string.inj (Option.some.inj ((hget "signature").symm.trans (hother "signature")))
  cases envelope
  cases envelope'
  subst hschema hkeyId hsignature hsame
  rfl

/-- **Parsing an envelope** goes through exactly when the value is one whose tuple keeps the rules. -/
theorem parseAgreementEnvelope_eq_ok {value : Json} {envelope : SignedAgreementEnvelope} :
    parseAgreementEnvelope value = .ok envelope ↔ IsEnvelope value envelope ∧ TupleRules envelope.tuple := by
  have hkeys : ∀ tuple : Json, (([("schema", .string envelope.schema), ("key_id", .string envelope.key_id),
      ("tuple", tuple), ("signature", .string envelope.signature)] : List (String × Json)).map Prod.fst).Nodup := by
    intro tuple
    change ENVELOPE_KEYS.Nodup
    decide
  simp only [parseAgreementEnvelope, bind_eq_ok, exactRecord_eq_ok, tupleOf_eq_ok, assertAgreementTuple_eq_ok,
    textField_eq_ok, exists_const, pure_eq_ok, IsEnvelope, is_iff (hkeys _), is_iff (nodup_tupleKeys _),
    List.forall_mem_cons, List.not_mem_nil, false_imp_iff, implies_true, and_true]
  constructor
  · rintro ⟨record, ⟨hr, hk⟩, tupleRecord, ⟨ht, htk⟩, tuple, hmembers, hrules, _, h₁, _, h₂, _, h₃, rfl⟩
    refine ⟨⟨(record.get? "tuple").getD .null, ⟨record, hr, hk, h₁, h₂, ?_, h₃⟩, tupleRecord, ht, htk, hmembers⟩,
      hrules⟩
    -- The key is among those of the record.
    obtain ⟨v, hv⟩ := (record.mem_keys "tuple").mp (hk.mem_iff.mpr (by decide))
    rw [hv]
    rfl
  · rintro ⟨⟨tuple, ⟨record, hr, hk, h₁, h₂, h₃, h₄⟩, tupleRecord, ht, htk, hmembers⟩, hrules⟩
    refine ⟨record, ⟨hr, hk⟩, tupleRecord, ⟨?_, htk⟩, envelope.tuple, hmembers, hrules, _, h₁, _, h₂, _, h₄, rfl⟩
    rw [h₃]
    exact ht

/-- **A pipeline's answer is accepted** exactly when it is trusted. -/
theorem verifyTrustedEnvelope_eq_ok {signing : Signing} {value : Json} {trustedKeys : TrustedKeys} {pipeline : String}
    {envelope : SignedAgreementEnvelope} :
    verifyTrustedEnvelope signing value trustedKeys pipeline = .ok envelope ↔
      Trusted signing value trustedKeys envelope := by
  simp only [verifyTrustedEnvelope, bind_eq_ok, parseAgreementEnvelope_eq_ok, ensure_eq_ok, exists_const, orError_eq_ok,
    pure_eq_ok]
  constructor
  · rintro ⟨e, ⟨hparsed, hrules⟩, -, publicKey, hkey, -, hverify, rfl⟩
    exact ⟨hparsed, hrules, publicKey, hkey, (verifyAgreementEnvelope_iff hrules).mp hverify⟩
  · rintro ⟨hparsed, hrules, publicKey, hkey, hsigned⟩
    refine ⟨envelope, ⟨hparsed, hrules⟩, hsigned.schema, publicKey, hkey, ?_,
      (verifyAgreementEnvelope_iff hrules).mpr hsigned, rfl⟩
    rintro rfl
    exact absurd hsigned.publicKey (by decide)

/-- The identity of an envelope names each of its fields, and no other identity does. -/
theorem identityOf_eq_iff {identity : VerifiedPipelineIdentity} {envelope : SignedAgreementEnvelope} :
    identityOf envelope = identity ↔ Identifies identity envelope := by
  constructor
  · rintro rfl
    exact ⟨rfl, rfl, rfl, rfl, rfl, rfl⟩
  · rintro ⟨hkey, hsignature, hparser, hindexer, hparserBinary, hindexerBinary⟩
    obtain ⟨keyId, signature, ⟨parserCommit, indexerCommit, parserBinary, indexerBinary⟩⟩ := identity
    dsimp only at hkey hsignature hparser hindexer hparserBinary hindexerBinary
    subst hkey hsignature hparser hindexer hparserBinary hindexerBinary
    rfl

/-- **Agreement is established exactly when it should be**: with the metadata of both tuples when both answers
are trusted, agree on the semantic fields and the spec hash is well formed, and in no other case. -/
theorem establishVerifiedAgreement_iff (signing : Signing) (pipelineA pipelineB : Json)
    (trustedA trustedB : TrustedKeys) (specHash : String) (metadata : VerificationMetadata) :
    establishVerifiedAgreement signing pipelineA pipelineB trustedA trustedB specHash = .ok metadata ↔
      ∃ a b, Trusted signing pipelineA trustedA a ∧ Trusted signing pipelineB trustedB b ∧
        SameSemantics a.tuple b.tuple ∧ isHex 32 specHash = true ∧ Reports metadata a.tuple ∧
        Reports metadata b.tuple ∧ metadata.specHash = specHash ∧
        Identifies metadata.pipelineA a ∧ Identifies metadata.pipelineB b := by
  have hsame : ∀ a b : AgreementTuple, (∀ field ∈ SEMANTIC_FIELDS, field.2 a = field.2 b) ↔ SameSemantics a b := by
    intro a b
    simp only [SEMANTIC_FIELDS, List.forall_mem_cons, List.not_mem_nil, false_imp_iff, implies_true, and_true]
    constructor
    · rintro ⟨h₁, h₂, h₃, h₄, h₅, h₆, h₇, h₈, h₉⟩
      exact ⟨h₁, h₂, h₃, h₄, h₅, h₆, h₇, h₈, h₉⟩
    · rintro ⟨h₁, h₂, h₃, h₄, h₅, h₆, h₇, h₈, h₉⟩
      exact ⟨h₁, h₂, h₃, h₄, h₅, h₆, h₇, h₈, h₉⟩
  simp only [establishVerifiedAgreement, bind_eq_ok, verifyTrustedEnvelope_eq_ok, forM_eq_ok, ensure_eq_ok, hsame,
    exists_const, orError_eq_ok, pure_eq_ok]
  constructor
  · rintro ⟨a, ha, b, hb, hs, network, hn, hspec, rfl⟩
    refine ⟨a, b, ha, hb, hs, hspec, ⟨rfl, hn, rfl, rfl, rfl, rfl, rfl, rfl, rfl, rfl⟩, ?_, rfl,
      ⟨rfl, rfl, rfl, rfl, rfl, rfl⟩, ⟨rfl, rfl, rfl, rfl, rfl, rfl⟩⟩
    exact ⟨hs.protocolId, hs.protocolId ▸ hn, congrArg decimal hs.height, hs.blockHash, hs.eventRoot,
      hs.objectStateRoot, hs.chainedRoot, hs.foundingCreated, hs.allObjects, hs.activeObjects⟩
  · rintro ⟨a, b, ha, hb, hs, hspec, hra, -, h₁, h₂, h₃⟩
    refine ⟨a, ha, b, hb, hs, metadata.network, hra.network, hspec, ?_⟩
    obtain ⟨r₁, -, r₃, r₄, r₅, r₆, r₇, r₈, r₉, r₁₀⟩ := hra
    have hA : identityOf a = metadata.pipelineA := identityOf_eq_iff.mpr h₂
    have hB : identityOf b = metadata.pipelineB := identityOf_eq_iff.mpr h₃
    cases metadata
    simp only at r₁ r₃ r₄ r₅ r₆ r₇ r₈ r₉ r₁₀ h₁ hA hB
    subst r₁ r₃ r₄ r₅ r₆ r₇ r₈ r₉ r₁₀ h₁ hA hB
    rfl

end IndexTandem.Verification
