import IndexTandem.Library.Except
import IndexTandem.Protocol.Bytes
import Mathlib.Tactic.IntervalCases

/-!
# Signed agreement tuples

A pipeline signs a tuple about its state at a height: what the protocol instance is, the
block, the roots and the counters, and which release computed them. All fields are texts of
fixed forms. `verifyAgreementEnvelope` checks the forms of an envelope and its signature;
whatever goes wrong in there, including an exception, makes it false.

Ed25519 and the canonical JSON text of a tuple are parameters.
-/

namespace IndexTandem.Agreement

open Library Protocol

/-! ### Forms of texts -/

/-- `/^[0-9a-f]{2n}$/`. -/
def isHex (n : ℕ) (text : String) : Bool := text.toList.length = 2 * n && text.toList.all fun c => c ∈ hexDigits

/-- `COUNTER`. -/
def isCounter (text : String) : Bool :=
  text.toList = ['0'] || (text.toList.head?.any (fun c => '1' ≤ c && c ≤ '9') &&
    text.toList.all fun c => '0' ≤ c && c ≤ '9')

/-- A character of a key id. -/
def isKeyIdChar (c : Char) : Bool :=
  ('A' ≤ c && c ≤ 'Z') || ('a' ≤ c && c ≤ 'z') || ('0' ≤ c && c ≤ '9') || c ∈ ['.', '_', ':', '-']

/-- `KEY_ID`. -/
def isKeyId (text : String) : Bool :=
  1 ≤ text.toList.length && text.toList.length ≤ 128 && text.toList.all isKeyIdChar

/-- The names of the networks. -/
def networks : List String := ["mainnet", "signet", "testnet4", "regtest"]

/-- The text is a protocol id on the network. -/
def isProtocolIdOn (text network : String) : Bool :=
  let start := ("tndm:" ++ network ++ ":").toList
  text.toList.take start.length = start && isHex 32 (String.ofList (text.toList.drop start.length))

/-- `PROTOCOL_ID.exec(text)?.[1]`: the network of a protocol id. -/
def protocolNetwork (text : String) : Option String := networks.find? (isProtocolIdOn text)

/-- `Number(text)` of decimal digits. -/
def decimal (text : String) : ℕ := text.toList.foldl (fun n c => 10 * n + (c.toNat - 48)) 0

theorem decimal_toDigits (n : ℕ) : decimal (String.ofList (Nat.toDigits 10 n)) = n := by
  have hread : decimal (String.ofList (Nat.toDigits 10 n)) = Nat.ofDigitChars 10 (Nat.toDigits 10 n) 0 := by
    rw [decimal, String.toList_ofList, Nat.ofDigitChars_eq_foldl]
    rfl
  rw [hread, Nat.ofDigitChars_ten_toDigits]

theorem toDigits_all (n : ℕ) : ∀ c ∈ Nat.toDigits 10 n, '0' ≤ c ∧ c ≤ '9' := by
  intro c hc
  have := Nat.isDigit_of_mem_toDigits (by omega) (by omega) hc
  simp only [Char.isDigit, Bool.and_eq_true, decide_eq_true_eq] at this
  exact ⟨this.1, this.2⟩

theorem head_toDigits {n : ℕ} (h : 0 < n) : ∃ c rest, Nat.toDigits 10 n = c :: rest ∧ '1' ≤ c ∧ c ≤ '9' := by
  induction n using Nat.strong_induction_on with
  | _ n ih =>
    by_cases hsmall : n < 10
    · refine ⟨n.digitChar, [], Nat.toDigits_of_lt_base hsmall, ?_⟩
      interval_cases n <;> decide
    · obtain ⟨c, rest, hdigits, hc⟩ := ih (n / 10) (by omega) (by omega)
      refine ⟨c, rest ++ [(n % 10).digitChar], ?_, hc⟩
      rw [Nat.toDigits_of_base_le (by omega) (by omega), hdigits]
      rfl

theorem isCounter_toDigits (n : ℕ) : isCounter (String.ofList (Nat.toDigits 10 n)) = true := by
  rw [isCounter, String.toList_ofList]
  rcases Nat.eq_zero_or_pos n with rfl | hn
  · rfl
  · obtain ⟨c, rest, hdigits, hc⟩ := head_toDigits hn
    simp only [Bool.or_eq_true, Bool.and_eq_true, decide_eq_true_eq, List.all_eq_true]
    refine .inr ⟨?_, fun d hd => toDigits_all n d hd⟩
    rw [hdigits]
    simpa using hc

theorem isHex_text (h : Hash) : isHex 32 h.text = true := by
  obtain ⟨hlength, hdigits⟩ := h.isHex_text
  simp only [isHex, hlength, decide_true, Bool.true_and, List.all_eq_true, decide_eq_true_eq]
  exact hdigits

/-- `Number.MAX_SAFE_INTEGER`. -/
def MAX_SAFE_INTEGER : ℕ := 9007199254740991

/-! ### Tuples and envelopes -/

/-- `AgreementTuple`. -/
structure AgreementTuple where
  /-- The kind of tuple. -/
  schema : String
  /-- The protocol instance. -/
  protocol_id : String
  /-- The height. -/
  height : String
  /-- The block. -/
  block_hash : String
  /-- The root of its events. -/
  event_root : String
  /-- The root of the objects. -/
  object_state_root : String
  /-- The root of the chain. -/
  chained_root : String
  /-- The objects created in the founding window. -/
  founding_created : String
  /-- All objects. -/
  all_objects : String
  /-- The active ones. -/
  active_objects : String
  /-- The commit of the parser. -/
  parser_commit : String
  /-- The commit of the indexer. -/
  indexer_commit : String
  /-- The binary of the parser. -/
  parser_binary_sha256 : String
  /-- The binary of the indexer. -/
  indexer_binary_sha256 : String
  deriving DecidableEq

/-- `SignedAgreementEnvelope`. -/
structure SignedAgreementEnvelope where
  /-- The kind of envelope. -/
  schema : String
  /-- The key that signed. -/
  key_id : String
  /-- What it signed. -/
  tuple : AgreementTuple
  /-- The signature. -/
  signature : String
  deriving DecidableEq

/-- `assertAgreementTuple(tuple)`. -/
def assertAgreementTuple (tuple : AgreementTuple) : Except String Unit := do
  ensure (tuple.schema = "urn:tandem:agreement-tuple") "invalid agreement tuple schema"
  ensure ((protocolNetwork tuple.protocol_id).isSome = true) "invalid agreement protocol id"
  [("height", tuple.height), ("founding_created", tuple.founding_created), ("all_objects", tuple.all_objects),
    ("active_objects", tuple.active_objects)].forM fun entry =>
      ensure (isCounter entry.2 = true) ("invalid agreement " ++ entry.1)
  ensure (decimal tuple.height ≤ MAX_SAFE_INTEGER) "agreement height is unsafe"
  [("block_hash", tuple.block_hash), ("event_root", tuple.event_root),
    ("object_state_root", tuple.object_state_root), ("chained_root", tuple.chained_root),
    ("parser_binary_sha256", tuple.parser_binary_sha256),
    ("indexer_binary_sha256", tuple.indexer_binary_sha256)].forM fun entry =>
      ensure (isHex 32 entry.2 = true) ("invalid agreement " ++ entry.1)
  ensure (isHex 20 tuple.parser_commit = true ∧ isHex 20 tuple.indexer_commit = true) "invalid agreement release commit"

/-- The rules of a tuple. -/
structure TupleRules (tuple : AgreementTuple) : Prop where
  /-- The kind. -/
  schema : tuple.schema = "urn:tandem:agreement-tuple"
  /-- The protocol id names a network. -/
  protocol : (protocolNetwork tuple.protocol_id).isSome = true
  /-- The height is a decimal number. -/
  height : isCounter tuple.height = true
  /-- So are the counters. -/
  foundingCreated : isCounter tuple.founding_created = true
  /-- Likewise. -/
  allObjects : isCounter tuple.all_objects = true
  /-- Likewise. -/
  activeObjects : isCounter tuple.active_objects = true
  /-- The height is a safe integer. -/
  safe : decimal tuple.height ≤ MAX_SAFE_INTEGER
  /-- The hashes are 32 bytes. -/
  blockHash : isHex 32 tuple.block_hash = true
  /-- Likewise. -/
  eventRoot : isHex 32 tuple.event_root = true
  /-- Likewise. -/
  objectStateRoot : isHex 32 tuple.object_state_root = true
  /-- Likewise. -/
  chainedRoot : isHex 32 tuple.chained_root = true
  /-- Likewise. -/
  parserBinary : isHex 32 tuple.parser_binary_sha256 = true
  /-- Likewise. -/
  indexerBinary : isHex 32 tuple.indexer_binary_sha256 = true
  /-- The commits are 20 bytes. -/
  parserCommit : isHex 20 tuple.parser_commit = true
  /-- Likewise. -/
  indexerCommit : isHex 20 tuple.indexer_commit = true

/-- **The assertion is the rules.** -/
theorem assertAgreementTuple_eq_ok {tuple : AgreementTuple} {u : Unit} :
    assertAgreementTuple tuple = .ok u ↔ TupleRules tuple := by
  simp only [assertAgreementTuple, bind_eq_ok, forM_eq_ok, ensure_eq_ok, exists_const, List.forall_mem_cons,
    List.not_mem_nil, false_imp_iff, implies_true, and_true]
  constructor
  · rintro ⟨h₁, h₂, ⟨h₃, h₄, h₅, h₆⟩, h₇, ⟨h₈, h₉, h₁₀, h₁₁, h₁₂, h₁₃⟩, h₁₄, h₁₅⟩
    exact ⟨h₁, h₂, h₃, h₄, h₅, h₆, h₇, h₈, h₉, h₁₀, h₁₁, h₁₂, h₁₃, h₁₄, h₁₅⟩
  · rintro ⟨h₁, h₂, h₃, h₄, h₅, h₆, h₇, h₈, h₉, h₁₀, h₁₁, h₁₂, h₁₃, h₁₄, h₁₅⟩
    exact ⟨h₁, h₂, ⟨h₃, h₄, h₅, h₆⟩, h₇, ⟨h₈, h₉, h₁₀, h₁₁, h₁₂, h₁₃⟩, h₁₄, h₁₅⟩

/-! ### Signatures -/

/-- The packages that sign. -/
structure Signing where
  /-- `canonicalize(tuple)`: the canonical JSON text, when it is one. -/
  canonicalize : AgreementTuple → Option String
  /-- `ed25519.verify(signature, message, publicKey, { zip215: false })`; it may throw. -/
  verify : Bytes → Bytes → Bytes → Except String Bool

variable (signing : Signing)

/-- `new TextEncoder().encode(text)`. -/
def encode (text : String) : Bytes := text.toUTF8.toList

/-- `canonicalAgreementBytes(tuple)`. -/
def canonicalAgreementBytes (tuple : AgreementTuple) : Except String Bytes := do
  assertAgreementTuple tuple
  let canonical ← orError "agreement tuple cannot be canonicalized" (signing.canonicalize tuple)
  pure (encode canonical)

/-- The body of `verifyAgreementEnvelope(envelope, publicKeyHex)`. -/
def checkEnvelope (envelope : SignedAgreementEnvelope) (publicKeyHex : String) : Except String Bool :=
  if envelope.schema ≠ "urn:tandem:agreement-envelope" || !isKeyId envelope.key_id ||
      !isHex 64 envelope.signature || !isHex 32 publicKeyHex then pure false
  else do
    let message ← canonicalAgreementBytes signing envelope.tuple
    signing.verify (bytes envelope.signature) message (bytes publicKeyHex)

/-- `verifyAgreementEnvelope(envelope, publicKeyHex)`: an exception makes it false. -/
def verifyAgreementEnvelope (envelope : SignedAgreementEnvelope) (publicKeyHex : String) : Bool :=
  match checkEnvelope signing envelope publicKeyHex with
  | .ok valid => valid
  | .error _ => false

/-- The envelope is well formed and signed, over its own tuple, by the key. -/
structure SignedBy (envelope : SignedAgreementEnvelope) (publicKeyHex : String) : Prop where
  /-- The kind. -/
  schema : envelope.schema = "urn:tandem:agreement-envelope"
  /-- The key id is well formed. -/
  keyId : isKeyId envelope.key_id = true
  /-- The signature is well formed. -/
  signature : isHex 64 envelope.signature = true
  /-- The key is well formed. -/
  publicKey : isHex 32 publicKeyHex = true
  /-- It signs the canonical bytes of the tuple. -/
  signs : ∃ text, signing.canonicalize envelope.tuple = some text ∧
    signing.verify (bytes envelope.signature) (encode text) (bytes publicKeyHex) = .ok true

variable {signing}

/-- **An envelope verifies** exactly when it is well formed and signed. -/
theorem verifyAgreementEnvelope_iff {envelope : SignedAgreementEnvelope} {publicKeyHex : String}
    (rules : TupleRules envelope.tuple) :
    verifyAgreementEnvelope signing envelope publicKeyHex = true ↔ SignedBy signing envelope publicKeyHex := by
  have hbytes : ∀ message, canonicalAgreementBytes signing envelope.tuple = .ok message ↔
      ∃ text, signing.canonicalize envelope.tuple = some text ∧ encode text = message := by
    intro message
    simp only [canonicalAgreementBytes, bind_eq_ok, assertAgreementTuple_eq_ok, rules, exists_const, orError_eq_ok,
      pure_eq_ok, true_and]
  have hcheck : verifyAgreementEnvelope signing envelope publicKeyHex = true ↔
      checkEnvelope signing envelope publicKeyHex = .ok true := by
    unfold verifyAgreementEnvelope
    cases checkEnvelope signing envelope publicKeyHex with
    | ok valid => simp
    | error e => simp
  rw [hcheck]
  unfold checkEnvelope
  split_ifs with hform
  · refine iff_of_false (by simp) fun h => ?_
    simp [h.schema, h.keyId, h.signature, h.publicKey] at hform
  · simp only [Bool.or_eq_true, decide_eq_true_eq, Bool.not_eq_true', not_or, not_not, Bool.not_eq_false] at hform
    obtain ⟨⟨⟨h₁, h₂⟩, h₃⟩, h₄⟩ := hform
    simp only [bind_eq_ok, hbytes]
    constructor
    · rintro ⟨_, ⟨text, ht, rfl⟩, hv⟩
      exact ⟨h₁, h₂, h₃, h₄, text, ht, hv⟩
    · rintro ⟨-, -, -, -, text, ht, hv⟩
      exact ⟨_, ⟨text, ht, rfl⟩, hv⟩

end IndexTandem.Agreement
