import IndexTandem.Verification.EnvelopeWire

/-!
# The envelope inspector

The site checks a pasted envelope the way the gateway would, and says at which check it
fails first. It reads `key_id` and `signature` through `String(…)`, where the gateway wants
texts: an envelope with another value there, whose text is well formed, passes the inspector
and is refused by the gateway. Everywhere else the verdicts agree (`inspectEnvelope_agrees_iff`).

What the engine alone decides is a parameter: the message of a syntax error and the decimal
text of a number.
-/

namespace IndexTandem.Site

open Library Protocol Agreement Verification

/-! ### Source -/

/-- What the JavaScript engine decides. -/
structure Engine where
  /-- The message of the `SyntaxError` of `JSON.parse(raw)`. -/
  syntaxError : String → String
  /-- `String(number)`, from the text of the number. -/
  numberText : String → String

/-- `ENVELOPE_SCHEMA`. -/
def ENVELOPE_SCHEMA : String := "urn:tandem:agreement-envelope"

/-- `TUPLE_SCHEMA`. -/
def TUPLE_SCHEMA : String := "urn:tandem:agreement-tuple"

/-- `FieldRule`. -/
structure FieldRule where
  /-- The field. -/
  field : String
  /-- Its pattern. -/
  rule : String → Bool
  /-- The pattern in words. -/
  human : String
  /-- The pipelines have to agree on it. -/
  compared : Bool

/-- `PROTOCOL_ID`. -/
def isProtocolId (text : String) : Bool := (protocolNetwork text).isSome

/-- `TUPLE_RULES`. -/
def TUPLE_RULES : List FieldRule :=
  [⟨"protocol_id", isProtocolId, "tndm, then the network label, then the configured INIT txid", true⟩,
    ⟨"height", isCounter, "a decimal string, no leading zero", true⟩,
    ⟨"block_hash", isHex 32, "64 lowercase hex characters", true⟩,
    ⟨"event_root", isHex 32, "64 lowercase hex characters", true⟩,
    ⟨"object_state_root", isHex 32, "64 lowercase hex characters", true⟩,
    ⟨"chained_root", isHex 32, "64 lowercase hex characters", true⟩,
    ⟨"founding_created", isCounter, "a decimal string", true⟩,
    ⟨"all_objects", isCounter, "a decimal string", true⟩,
    ⟨"active_objects", isCounter, "a decimal string", true⟩,
    ⟨"parser_commit", isHex 20, "40 lowercase hex characters", false⟩,
    ⟨"indexer_commit", isHex 20, "40 lowercase hex characters", false⟩,
    ⟨"parser_binary_sha256", isHex 32, "64 lowercase hex characters", false⟩,
    ⟨"indexer_binary_sha256", isHex 32, "64 lowercase hex characters", false⟩]

/-- The stage of a finding. -/
inductive Stage where
  /-- `"parse"`. -/
  | parse
  /-- `"envelope shape"`. -/
  | envelopeShape
  /-- `"tuple shape"`. -/
  | tupleShape
  /-- `"tuple fields"`. -/
  | tupleFields
  /-- `"signature"`. -/
  | signature
  deriving DecidableEq

/-- `Finding`. -/
structure Finding where
  /-- The stage. -/
  stage : Stage
  /-- The stage is passed. -/
  ok : Bool
  /-- What is said about it. -/
  message : String
  deriving DecidableEq

/-- The state of a field. -/
structure FieldStatus where
  /-- The field. -/
  field : String
  /-- Its text. -/
  value : String
  /-- It matches its pattern. -/
  ok : Bool
  /-- The pipelines have to agree on it. -/
  compared : Bool
  /-- The pattern in words. -/
  human : String
  deriving DecidableEq

/-- `InspectionResult`. -/
structure InspectionResult where
  /-- The findings in order. -/
  findings : List Finding
  /-- The first one that is not passed. -/
  firstFailure : Option Finding
  /-- The fields of the tuple. -/
  fieldStatus : List FieldStatus
  deriving DecidableEq

/-- The value is `null`. -/
def isNull : Json → Bool
  | .null => true
  | _ => false

mutual

/-- `String(value)`; an own member `toString` is no function, and without one there is no text. -/
def stringOf (engine : Engine) : Json → Except String String
  | .null => pure "null"
  | .bool value => pure (if value then "true" else "false")
  | .number text => pure (engine.numberText text)
  | .string text => pure text
  | .array items => (elementTexts engine items).map (String.intercalate ",")
  | .object members =>
    if "toString" ∈ members.map Prod.fst then throw "Cannot convert object to primitive value"
    else pure "[object Object]"

/-- The texts that `items.join(",")` joins; that of `null` is empty. -/
def elementTexts (engine : Engine) : List Json → Except String (List String)
  | [] => pure []
  | item :: items => do
    let first ← if isNull item then pure "" else stringOf engine item
    let later ← elementTexts engine items
    pure (first :: later)

end

/-- `[...keys].sort()`: by the units of UTF-16. -/
def sortKeys (keys : List String) : List String :=
  sortBy (fun a b => decide (utf16 a.toList ≤ utf16 b.toList)) keys

/-- `exactKeys(value, keys)`: what is wrong with the keys. -/
def exactKeys (value : Json) (keys : List String) : Option String :=
  match value.record with
  | none => some "must be an object"
  | some record =>
    let actual := sortKeys record.keys
    let expected := sortKeys keys
    if actual = expected then none
    else
      let missing := expected.filter fun key => key ∉ actual
      let extra := actual.filter fun key => key ∉ expected
      let parts := (if missing = [] then [] else ["missing " ++ String.intercalate ", " missing]) ++
        if extra = [] then [] else ["unexpected " ++ String.intercalate ", " extra]
      some ("has an invalid shape: " ++ String.intercalate " and " parts)

/-- A member that is a text. -/
def textMember (record : JsMap String Json) (key : String) : Option String :=
  match record.get? key with
  | some (.string text) => some text
  | _ => none

/-- The result after a finding that is not passed. -/
def failure (findings : List Finding) (stage : Stage) (message : String) (fieldStatus : List FieldStatus) :
    InspectionResult :=
  ⟨findings ++ [⟨stage, false, message⟩], some ⟨stage, false, message⟩, fieldStatus⟩

/-- The states of the fields, all of them texts. -/
def fieldStatusOf (tuple : JsMap String Json) : List FieldStatus :=
  TUPLE_RULES.map fun rule =>
    let value := (textMember tuple rule.field).getD ""
    ⟨rule.field, value, rule.rule value, rule.compared, rule.human⟩

/-- What is wrong with the fields, all of them texts. -/
def fieldFailure (tuple : JsMap String Json) : Option String :=
  match (fieldStatusOf tuple).find? fun status => !status.ok with
  | some status => some ("invalid agreement " ++ status.field ++ ". Expected " ++ status.human ++ ".")
  | none =>
    if decimal ((textMember tuple "height").getD "") ≤ MAX_SAFE_INTEGER then none
    else some "agreement height is unsafe. It has to be a non-negative safe integer."

/-- The last finding when all checks are passed. -/
def wellFormed : Finding :=
  ⟨.signature, true, "Well formed. Whether it verifies depends on the trusted public key for this key id, " ++
    "which only the operator's configuration holds."⟩

/-- The checks of the key id and the signature. -/
def inspectSignature (engine : Engine) (findings : List Finding) (fieldStatus : List FieldStatus)
    (keyIdValue signatureValue : Json) : Except String InspectionResult := do
  let keyId ← stringOf engine keyIdValue
  if isKeyId keyId = false then
    pure (failure findings .signature "key_id uses characters outside the permitted set." fieldStatus)
  else do
    let signature ← stringOf engine signatureValue
    if isHex 64 signature = false then
      pure (failure findings .signature "signature must be exactly 128 lowercase hex characters." fieldStatus)
    else
      pure ⟨findings ++ [wellFormed], none, fieldStatus⟩

/-- The checks after the shape of the envelope. -/
def inspectRecord (engine : Engine) (findings : List Finding) (envelope : JsMap String Json) :
    Except String InspectionResult :=
  let tupleValue := (envelope.get? "tuple").getD .null
  match exactKeys tupleValue TUPLE_KEYS with
  | some problem => pure (failure findings .tupleShape ("agreement tuple " ++ problem) [])
  | none =>
    let findings := findings ++ [⟨.tupleShape, true, "Exactly the fourteen expected tuple keys."⟩]
    let tuple := tupleValue.record.getD ∅
    match TUPLE_KEYS.find? fun key => (textMember tuple key).isNone with
    | some key =>
      pure (failure findings .tupleFields
        (key ++ " must be a string. A JSON number is rejected even when the digits are right.") [])
    | none =>
      if textMember tuple "schema" ≠ some TUPLE_SCHEMA then
        pure (failure findings .tupleFields
          ("invalid agreement tuple schema. Expected " ++ TUPLE_SCHEMA ++ ".") [])
      else
        let fieldStatus := fieldStatusOf tuple
        match fieldFailure tuple with
        | some problem => pure (failure findings .tupleFields problem fieldStatus)
        | none =>
          let findings := findings ++ [⟨.tupleFields, true, "Every tuple field matches its required pattern."⟩]
          if textMember envelope "schema" ≠ some ENVELOPE_SCHEMA then
            pure (failure findings .signature
              ("envelope schema is not supported. Expected " ++ ENVELOPE_SCHEMA ++ ".") fieldStatus)
          else
            inspectSignature engine findings fieldStatus ((envelope.get? "key_id").getD .null)
              ((envelope.get? "signature").getD .null)

/-- `inspectEnvelope(raw)`. -/
def inspectEnvelope (engine : Engine) (raw : String) : Except String InspectionResult :=
  match jsonParse raw with
  | none => pure (failure [] .parse ("Not valid JSON: " ++ engine.syntaxError raw) [])
  | some parsed =>
    let findings := [⟨.parse, true, "Parsed as JSON."⟩]
    match exactKeys parsed ENVELOPE_KEYS with
    | some problem => pure (failure findings .envelopeShape ("agreement envelope " ++ problem) [])
    | none =>
      inspectRecord engine
        (findings ++ [⟨.envelopeShape, true, "Exactly the four expected envelope keys, no more and no fewer."⟩])
        (parsed.record.getD ∅)

/-! ### What passes -/

theorem sortKeys_eq_iff {keys keys' : List String} : sortKeys keys = sortKeys keys' ↔ keys.Perm keys' := by
  constructor
  · intro h
    exact ((sortBy_perm _ keys).symm.trans (List.Perm.of_eq h)).trans (sortBy_perm _ keys')
  · intro h
    refine sortBy_congr (fun a b c hab hbc => ?_) (fun a b => ?_) h fun a _ b _ hab hba => ?_
    · exact decide_eq_true ((of_decide_eq_true hab).trans (of_decide_eq_true hbc))
    · simpa using le_total (utf16 a.toList) (utf16 b.toList)
    · have hunits := le_antisymm (of_decide_eq_true hab) (of_decide_eq_true hba)
      have htext := congrArg ofUtf16 hunits
      rw [ofUtf16_utf16, ofUtf16_utf16] at htext
      exact String.toList_injective htext

theorem exactKeys_eq_none {value : Json} {keys : List String} :
    exactKeys value keys = none ↔ ∃ record, value.record = some record ∧ record.keys.Perm keys := by
  unfold exactKeys
  cases value.record with
  | none => simp
  | some record =>
    dsimp only
    split_ifs with h
    · exact iff_of_true rfl ⟨record, rfl, sortKeys_eq_iff.mp h⟩
    · refine iff_of_false (by simp) ?_
      rintro ⟨_, hrecord, hperm⟩
      cases hrecord
      exact h (sortKeys_eq_iff.mpr hperm)

theorem textMember_eq_some {record : JsMap String Json} {key text : String} :
    textMember record key = some text ↔ record.get? key = some (.string text) := by
  unfold textMember
  split
  · rename_i t ht
    simp [ht]
  · rename_i hne
    exact iff_of_false (by simp) fun h => hne text h

theorem tuple_of_texts {record : JsMap String Json}
    (h : (TUPLE_KEYS.find? fun key => (textMember record key).isNone) = none) :
    ∃ tuple, ∀ member ∈ tupleMembers tuple, record.get? member.1 = some member.2 := by
  have htext : ∀ key ∈ TUPLE_KEYS, record.get? key = some (.string ((textMember record key).getD "")) := by
    intro key hkey
    have hsome := List.find?_eq_none.mp h key hkey
    cases hmember : textMember record key with
    | none => exact absurd (by rw [hmember]; rfl) hsome
    | some text => exact textMember_eq_some.mp hmember
  refine ⟨⟨(textMember record "schema").getD "", (textMember record "protocol_id").getD "",
    (textMember record "height").getD "", (textMember record "block_hash").getD "",
    (textMember record "event_root").getD "", (textMember record "object_state_root").getD "",
    (textMember record "chained_root").getD "", (textMember record "founding_created").getD "",
    (textMember record "all_objects").getD "", (textMember record "active_objects").getD "",
    (textMember record "parser_commit").getD "", (textMember record "indexer_commit").getD "",
    (textMember record "parser_binary_sha256").getD "", (textMember record "indexer_binary_sha256").getD ""⟩, ?_⟩
  simp only [tupleMembers, List.forall_mem_cons, List.not_mem_nil, false_imp_iff, implies_true, and_true]
  simp only [TUPLE_KEYS, List.forall_mem_cons, List.not_mem_nil, false_imp_iff, implies_true, and_true] at htext
  exact htext

theorem keys_tupleMembers (tuple : AgreementTuple) : (tupleMembers tuple).map Prod.fst = TUPLE_KEYS := rfl

theorem texts_of_tuple {record : JsMap String Json} {tuple : AgreementTuple}
    (h : ∀ member ∈ tupleMembers tuple, record.get? member.1 = some member.2) :
    (TUPLE_KEYS.find? fun key => (textMember record key).isNone) = none := by
  refine List.find?_eq_none.mpr fun key hkey => ?_
  rw [← keys_tupleMembers tuple] at hkey
  obtain ⟨member, hmember, rfl⟩ := List.mem_map.mp hkey
  have hget := h member hmember
  simp only [tupleMembers, List.mem_cons, List.not_mem_nil, or_false] at hmember
  have htext : ∃ text, member.2 = Json.string text := by
    rcases hmember with rfl | rfl | rfl | rfl | rfl | rfl | rfl | rfl | rfl | rfl | rfl | rfl | rfl | rfl <;>
      exact ⟨_, rfl⟩
  obtain ⟨text, htext⟩ := htext
  rw [textMember_eq_some.mpr (htext ▸ hget)]
  simp

/-- **The fields pass** exactly when the tuple keeps the rules. -/
theorem fieldFailure_eq_none {record : JsMap String Json} {tuple : AgreementTuple}
    (h : ∀ member ∈ tupleMembers tuple, record.get? member.1 = some member.2) :
    textMember record "schema" = some TUPLE_SCHEMA ∧ fieldFailure record = none ↔ TupleRules tuple := by
  simp only [tupleMembers, List.forall_mem_cons, List.not_mem_nil, false_imp_iff, implies_true, and_true,
    ← textMember_eq_some] at h
  obtain ⟨h₁, h₂, h₃, h₄, h₅, h₆, h₇, h₈, h₉, h₁₀, h₁₁, h₁₂, h₁₃, h₁₄⟩ := h
  have hfields : ((fieldStatusOf record).find? fun status => !status.ok) = none ↔
      isProtocolId tuple.protocol_id = true ∧ isCounter tuple.height = true ∧ isHex 32 tuple.block_hash = true ∧
      isHex 32 tuple.event_root = true ∧ isHex 32 tuple.object_state_root = true ∧
      isHex 32 tuple.chained_root = true ∧ isCounter tuple.founding_created = true ∧
      isCounter tuple.all_objects = true ∧ isCounter tuple.active_objects = true ∧
      isHex 20 tuple.parser_commit = true ∧ isHex 20 tuple.indexer_commit = true ∧
      isHex 32 tuple.parser_binary_sha256 = true ∧ isHex 32 tuple.indexer_binary_sha256 = true := by
    simp only [List.find?_eq_none, fieldStatusOf, TUPLE_RULES, List.map_cons, List.map_nil, List.forall_mem_cons,
      List.not_mem_nil, false_imp_iff, implies_true, and_true, Bool.not_eq_true', Bool.not_eq_false, h₂, h₃, h₄, h₅, h₆,
      h₇, h₈, h₉, h₁₀, h₁₁, h₁₂, h₁₃, h₁₄, Option.getD_some]
  have hfailure : fieldFailure record = none ↔
      ((fieldStatusOf record).find? fun status => !status.ok) = none ∧ decimal tuple.height ≤ MAX_SAFE_INTEGER := by
    unfold fieldFailure
    rw [h₃, Option.getD_some]
    cases (fieldStatusOf record).find? fun status => !status.ok with
    | some status => simp
    | none => simp
  rw [hfailure, hfields, h₁, Option.some.injEq]
  constructor
  · rintro ⟨r₁, ⟨r₂, r₃, r₄, r₅, r₆, r₇, r₈, r₉, r₁₀, r₁₁, r₁₂, r₁₃, r₁₄⟩, r₁₅⟩
    exact ⟨r₁, r₂, r₃, r₈, r₉, r₁₀, r₁₅, r₄, r₅, r₆, r₇, r₁₃, r₁₄, r₁₁, r₁₂⟩
  · rintro ⟨r₁, r₂, r₃, r₈, r₉, r₁₀, r₁₅, r₄, r₅, r₆, r₇, r₁₃, r₁₄, r₁₁, r₁₂⟩
    exact ⟨r₁, ⟨r₂, r₃, r₄, r₅, r₆, r₇, r₈, r₉, r₁₀, r₁₁, r₁₂, r₁₃, r₁₄⟩, r₁₅⟩

/-- The value is an envelope of the supported schema, whose tuple keeps the rules, with these two members. -/
def EnvelopeWith (value keyId signature : Json) : Prop :=
  ∃ tupleValue tuple, value.Is [("schema", .string ENVELOPE_SCHEMA), ("key_id", keyId), ("tuple", tupleValue),
    ("signature", signature)] ∧ tupleValue.Is (tupleMembers tuple) ∧ TupleRules tuple

/-- `String(value)` has a form. -/
def ReadsAs (engine : Engine) (form : String → Bool) (value : Json) : Prop :=
  ∃ text, stringOf engine value = .ok text ∧ form text = true

/-- The inspector finds no failure. -/
def Passes (engine : Engine) (raw : String) : Prop :=
  ∃ result, inspectEnvelope engine raw = .ok result ∧ result.firstFailure = none

/-- The gateway parses the envelope, of the supported schema, and the syntax of key and signature is right. -/
def WellFormed (raw : String) : Prop :=
  ∃ value envelope, jsonParse raw = some value ∧ parseAgreementEnvelope value = .ok envelope ∧
    envelope.schema = ENVELOPE_SCHEMA ∧ isKeyId envelope.key_id = true ∧ isHex 64 envelope.signature = true

/-- An envelope whose key id or signature is no text, but has the text of one. -/
def Coerced (engine : Engine) (raw : String) : Prop :=
  ∃ value keyId signature, jsonParse raw = some value ∧ EnvelopeWith value keyId signature ∧
    ReadsAs engine isKeyId keyId ∧ ReadsAs engine (isHex 64) signature ∧
    ((∀ text, keyId ≠ .string text) ∨ ∀ text, signature ≠ .string text)

theorem passes_failure {findings : List Finding} {stage : Stage} {message : String} {fieldStatus : List FieldStatus} :
    ¬∃ result, (pure (failure findings stage message fieldStatus) : Except String InspectionResult) = .ok result ∧
      result.firstFailure = none := by
  rintro ⟨result, h, hnone⟩
  cases h
  cases hnone

theorem inspectSignature_passes_iff (engine : Engine) (findings : List Finding) (fieldStatus : List FieldStatus)
    (keyIdValue signatureValue : Json) :
    (∃ result, inspectSignature engine findings fieldStatus keyIdValue signatureValue = .ok result ∧
      result.firstFailure = none) ↔
      ReadsAs engine isKeyId keyIdValue ∧ ReadsAs engine (isHex 64) signatureValue := by
  constructor
  · rintro ⟨result, h, hnone⟩
    obtain ⟨keyId, hkeyId, h⟩ := bind_eq_ok.mp h
    split_ifs at h with hform
    · exact absurd ⟨result, h, hnone⟩ passes_failure
    obtain ⟨signature, hsignature, h⟩ := bind_eq_ok.mp h
    split_ifs at h with hform'
    · exact absurd ⟨result, h, hnone⟩ passes_failure
    exact ⟨⟨keyId, hkeyId, Bool.not_eq_false _ ▸ hform⟩, ⟨signature, hsignature, Bool.not_eq_false _ ▸ hform'⟩⟩
  · rintro ⟨⟨keyId, hkeyId, hform⟩, ⟨signature, hsignature, hform'⟩⟩
    refine ⟨⟨findings ++ [wellFormed], none, fieldStatus⟩, bind_eq_ok.mpr ⟨keyId, hkeyId, ?_⟩, rfl⟩
    rw [if_neg (by simp [hform])]
    refine bind_eq_ok.mpr ⟨signature, hsignature, ?_⟩
    rw [if_neg (by simp [hform'])]
    rfl

theorem inspectRecord_passes_iff {engine : Engine} {findings : List Finding} {envelope : JsMap String Json} :
    (∃ result, inspectRecord engine findings envelope = .ok result ∧ result.firstFailure = none) ↔
      ∃ tuple, ((envelope.get? "tuple").getD .null).Is (tupleMembers tuple) ∧ TupleRules tuple ∧
        envelope.get? "schema" = some (.string ENVELOPE_SCHEMA) ∧
        ReadsAs engine isKeyId ((envelope.get? "key_id").getD .null) ∧
        ReadsAs engine (isHex 64) ((envelope.get? "signature").getD .null) := by
  unfold inspectRecord
  dsimp only
  cases hshape : exactKeys ((envelope.get? "tuple").getD .null) TUPLE_KEYS with
  | some problem =>
    refine iff_of_false passes_failure ?_
    rintro ⟨tuple, his, -⟩
    obtain ⟨record, hrecord, hkeys, -⟩ := (is_iff (nodup_tupleKeys tuple)).mp his
    rw [exactKeys_eq_none.mpr ⟨record, hrecord, keys_tupleMembers tuple ▸ hkeys⟩] at hshape
    cases hshape
  | none =>
    obtain ⟨record, hrecord, hkeys⟩ := exactKeys_eq_none.mp hshape
    have his : ∀ tuple, ((envelope.get? "tuple").getD .null).Is (tupleMembers tuple) ↔
        ∀ member ∈ tupleMembers tuple, record.get? member.1 = some member.2 := by
      intro tuple
      rw [is_iff (nodup_tupleKeys tuple), hrecord]
      constructor
      · rintro ⟨_, heq, -, hmembers⟩
        cases heq
        exact hmembers
      · exact fun hmembers => ⟨record, rfl, keys_tupleMembers tuple ▸ hkeys, hmembers⟩
    simp only [his, hrecord, Option.getD_some]
    cases htexts : TUPLE_KEYS.find? fun key => (textMember record key).isNone with
    | some key =>
      refine iff_of_false passes_failure ?_
      rintro ⟨tuple, hmembers, -⟩
      rw [texts_of_tuple hmembers] at htexts
      cases htexts
    | none =>
      obtain ⟨tuple, hmembers⟩ := tuple_of_texts htexts
      dsimp only
      by_cases hschema : textMember record "schema" ≠ some TUPLE_SCHEMA
      · rw [if_pos hschema]
        refine iff_of_false passes_failure ?_
        rintro ⟨tuple', hmembers', rules, -⟩
        exact hschema ((fieldFailure_eq_none hmembers').mpr rules).1
      · rw [if_neg hschema]
        cases hfields : fieldFailure record with
        | some problem =>
          refine iff_of_false passes_failure ?_
          rintro ⟨tuple', hmembers', rules, -⟩
          rw [((fieldFailure_eq_none hmembers').mpr rules).2] at hfields
          cases hfields
        | none =>
          have rules := (fieldFailure_eq_none hmembers).mp ⟨not_not.mp hschema, hfields⟩
          dsimp only
          by_cases hsupported : textMember envelope "schema" ≠ some ENVELOPE_SCHEMA
          · rw [if_pos hsupported]
            refine iff_of_false passes_failure ?_
            rintro ⟨-, -, -, hschema', -⟩
            exact hsupported (textMember_eq_some.mpr hschema')
          · rw [if_neg hsupported, inspectSignature_passes_iff]
            constructor
            · intro h
              exact ⟨tuple, hmembers, rules, textMember_eq_some.mp (not_not.mp hsupported), h⟩
            · rintro ⟨-, -, -, -, h⟩
              exact h

/-- **What the inspector passes**: an envelope whose key id and signature have the right texts. -/
theorem passes_iff {engine : Engine} {raw : String} :
    Passes engine raw ↔ ∃ value keyId signature, jsonParse raw = some value ∧ EnvelopeWith value keyId signature ∧
      ReadsAs engine isKeyId keyId ∧ ReadsAs engine (isHex 64) signature := by
  have hkeys : ∀ keyId tupleValue signature : Json, (([("schema", .string ENVELOPE_SCHEMA), ("key_id", keyId),
      ("tuple", tupleValue), ("signature", signature)] : List (String × Json)).map Prod.fst).Nodup := by
    intro keyId tupleValue signature
    show ENVELOPE_KEYS.Nodup
    decide
  unfold Passes inspectEnvelope
  cases hparse : jsonParse raw with
  | none =>
    refine iff_of_false passes_failure ?_
    rintro ⟨_, _, _, h, -⟩
    cases h
  | some parsed =>
    dsimp only
    cases hshape : exactKeys parsed ENVELOPE_KEYS with
    | some problem =>
      refine iff_of_false passes_failure ?_
      rintro ⟨_, keyId, signature, h, ⟨tupleValue, tuple, his, -⟩, -⟩
      cases h
      obtain ⟨record, hrecord, hperm, -⟩ := (is_iff (hkeys keyId tupleValue signature)).mp his
      have hnone : exactKeys parsed ENVELOPE_KEYS = none := exactKeys_eq_none.mpr ⟨record, hrecord, hperm⟩
      rw [hnone] at hshape
      cases hshape
    | none =>
      obtain ⟨record, hrecord, hperm⟩ := exactKeys_eq_none.mp hshape
      dsimp only
      rw [hrecord, Option.getD_some, inspectRecord_passes_iff]
      constructor
      · rintro ⟨tuple, his, rules, hschema, hkeyId, hsignature⟩
        have hmember : ∀ key ∈ ENVELOPE_KEYS, record.get? key = some ((record.get? key).getD .null) := by
          intro key hkey
          obtain ⟨v, hv⟩ := (record.mem_keys key).mp (hperm.mem_iff.mpr hkey)
          rw [hv, Option.getD_some]
        refine ⟨parsed, _, _, rfl, ⟨(record.get? "tuple").getD .null, tuple, ?_, his, rules⟩, hkeyId, hsignature⟩
        refine (is_iff (hkeys _ _ _)).mpr ⟨record, hrecord, hperm, ?_⟩
        simp only [List.forall_mem_cons, List.not_mem_nil, false_imp_iff, implies_true, and_true]
        exact ⟨hschema, hmember _ (by decide), hmember _ (by decide), hmember _ (by decide)⟩
      · rintro ⟨_, keyId, signature, h, ⟨tupleValue, tuple, his, htuple, rules⟩, hkeyId, hsignature⟩
        cases h
        obtain ⟨_, heq, -, hmembers⟩ := (is_iff (hkeys keyId tupleValue signature)).mp his
        obtain rfl := Option.some.inj (hrecord.symm.trans heq)
        simp only [List.forall_mem_cons, List.not_mem_nil, false_imp_iff, implies_true, and_true] at hmembers
        obtain ⟨h₁, h₂, h₃, h₄⟩ := hmembers
        refine ⟨tuple, ?_, rules, h₁, ?_, ?_⟩
        · rw [h₃]
          exact htuple
        · rw [h₂]
          exact hkeyId
        · rw [h₄]
          exact hsignature

theorem wellFormed_iff {raw : String} :
    WellFormed raw ↔ ∃ value keyId signature, jsonParse raw = some value ∧
      EnvelopeWith value (.string keyId) (.string signature) ∧ isKeyId keyId = true ∧ isHex 64 signature = true := by
  constructor
  · rintro ⟨value, ⟨schema, keyId, tuple, signature⟩, hparse, henvelope, rfl, hkeyId, hsignature⟩
    obtain ⟨⟨tupleValue, his, htuple⟩, rules⟩ := parseAgreementEnvelope_eq_ok.mp henvelope
    exact ⟨value, keyId, signature, hparse, ⟨tupleValue, tuple, his, htuple, rules⟩, hkeyId, hsignature⟩
  · rintro ⟨value, keyId, signature, hparse, ⟨tupleValue, tuple, his, htuple, rules⟩, hkeyId, hsignature⟩
    exact ⟨value, ⟨ENVELOPE_SCHEMA, keyId, tuple, signature⟩, hparse,
      parseAgreementEnvelope_eq_ok.mpr ⟨⟨tupleValue, his, htuple⟩, rules⟩, rfl, hkeyId, hsignature⟩

/-- The key id and the signature of an envelope are determined. -/
theorem EnvelopeWith.unique {value keyId signature keyId' signature' : Json} (h : EnvelopeWith value keyId signature)
    (h' : EnvelopeWith value keyId' signature') : keyId = keyId' ∧ signature = signature' := by
  obtain ⟨_, _, ⟨record, hrecord, hget⟩, -⟩ := h
  obtain ⟨_, _, ⟨record', hrecord', hsame⟩, -⟩ := h'
  obtain rfl := Option.some.inj (hrecord.symm.trans hrecord')
  exact ⟨Option.some.inj ((hget "key_id").symm.trans (hsame "key_id")),
    Option.some.inj ((hget "signature").symm.trans (hsame "signature"))⟩

/-- **The inspector reaches the gateway's verdict** on every text but those with a coerced key id or signature. -/
theorem inspectEnvelope_agrees_iff (engine : Engine) (raw : String) :
    (Passes engine raw ↔ WellFormed raw) ↔ ¬Coerced engine raw := by
  rw [passes_iff, wellFormed_iff]
  constructor
  · rintro hagrees ⟨value, keyId, signature, hparse, henvelope, hkeyId, hsignature, hother⟩
    obtain ⟨value', keyId', signature', hparse', henvelope', -⟩ :=
      hagrees.mp ⟨value, keyId, signature, hparse, henvelope, hkeyId, hsignature⟩
    obtain rfl := Option.some.inj (hparse.symm.trans hparse')
    obtain ⟨rfl, rfl⟩ := henvelope.unique henvelope'
    rcases hother with h | h
    · exact h keyId' rfl
    · exact h signature' rfl
  · intro hplain
    constructor
    · rintro ⟨value, keyId, signature, hparse, henvelope, hkeyId, hsignature⟩
      have htexts : (∃ text, keyId = .string text) ∧ ∃ text, signature = .string text := by
        by_contra hother
        refine hplain ⟨value, keyId, signature, hparse, henvelope, hkeyId, hsignature, ?_⟩
        simpa only [not_and_or, not_exists] using hother
      obtain ⟨⟨keyId, rfl⟩, signature, rfl⟩ := htexts
      obtain ⟨text, htext, hform⟩ := hkeyId
      obtain ⟨text', htext', hform'⟩ := hsignature
      cases htext
      cases htext'
      exact ⟨value, keyId, signature, hparse, henvelope, hform, hform'⟩
    · rintro ⟨value, keyId, signature, hparse, henvelope, hkeyId, hsignature⟩
      exact ⟨value, .string keyId, .string signature, hparse, henvelope, ⟨keyId, rfl, hkeyId⟩,
        ⟨signature, rfl, hsignature⟩⟩

/-! ### A coerced key id -/

section

variable (keyId signature : String) (tuple : AgreementTuple)

/-- The members of an envelope whose key id is an array of one text. -/
def arrayMembers : List (String × Json) :=
  [("schema", .string ENVELOPE_SCHEMA), ("key_id", .array [.string keyId]), ("tuple", .object (tupleMembers tuple)),
    ("signature", .string signature)]

/-- `JSON.stringify` of it. -/
def arrayEnvelope : String :=
  String.ofList (stringifyObject [("schema", stringifyText ENVELOPE_SCHEMA),
    ("key_id", stringifyArray [stringifyText keyId]), ("tuple", stringifyTexts (tupleTexts tuple)),
    ("signature", stringifyText signature)])

theorem jsonParse_arrayEnvelope :
    jsonParse (arrayEnvelope keyId signature tuple) = some (.object (arrayMembers keyId signature tuple)) := by
  have hmembers : ∀ member ∈ [("schema", stringifyText ENVELOPE_SCHEMA, Json.string ENVELOPE_SCHEMA),
      ("key_id", stringifyArray [stringifyText keyId], Json.array [.string keyId]),
      ("tuple", stringifyTexts (tupleTexts tuple), Json.object (tupleMembers tuple)),
      ("signature", stringifyText signature, Json.string signature)],
      Written 2 member.2.1 member.2.2 := by
    have htext : ∀ text, Written 2 (stringifyText text) (.string text) :=
      fun text bound hbound => written_text text bound (by omega)
    have hitems : ∀ item ∈ [(stringifyText keyId, Json.string keyId)], Written 1 item.1 item.2 := by
      simp only [List.forall_mem_singleton]
      exact written_text _
    simp only [List.forall_mem_cons, List.not_mem_nil, false_imp_iff, implies_true, and_true]
    exact ⟨htext _, Written.array hitems, written_texts _, htext _⟩
  refine jsonParse_written (Written.object hmembers) ?_
  simp only [stringifyObject, stringifyMember, stringifyText, List.length_append, List.length_cons]
  omega

theorem is_arrayMembers :
    Json.Is (.object (arrayMembers keyId signature tuple)) (arrayMembers keyId signature tuple) := by
  have hkeys : ((arrayMembers keyId signature tuple).map Prod.fst).Nodup := by
    show ENVELOPE_KEYS.Nodup
    decide
  exact ⟨_, rfl, JsMap.get?_ofList _ hkeys⟩

/-- The inspector passes it. -/
theorem passes_arrayEnvelope (engine : Engine) (rules : TupleRules tuple) (hkeyId : isKeyId keyId = true)
    (hsignature : isHex 64 signature = true) : Passes engine (arrayEnvelope keyId signature tuple) := by
  have htuple : Json.Is (.object (tupleMembers tuple)) (tupleMembers tuple) :=
    ⟨_, rfl, JsMap.get?_ofList _ (nodup_tupleKeys tuple)⟩
  have hread : stringOf engine (.array [.string keyId]) = .ok keyId := rfl
  exact passes_iff.mpr ⟨_, _, _, jsonParse_arrayEnvelope keyId signature tuple,
    ⟨_, tuple, is_arrayMembers keyId signature tuple, htuple, rules⟩, ⟨keyId, hread, hkeyId⟩,
    ⟨signature, rfl, hsignature⟩⟩

/-- The gateway refuses it. -/
theorem not_wellFormed_arrayEnvelope : ¬WellFormed (arrayEnvelope keyId signature tuple) := by
  intro h
  obtain ⟨value, keyId', signature', hparse, ⟨tupleValue, tuple', his, -⟩, -⟩ := wellFormed_iff.mp h
  obtain rfl := Option.some.inj ((jsonParse_arrayEnvelope keyId signature tuple).symm.trans hparse)
  obtain ⟨record, hrecord, hget⟩ := is_arrayMembers keyId signature tuple
  obtain ⟨record', hrecord', hsame⟩ := his
  obtain rfl := Option.some.inj (hrecord.symm.trans hrecord')
  exact absurd (Option.some.inj ((hget "key_id").symm.trans (hsame "key_id"))) (by simp)

end

/-- An engine that keeps the text of a number. -/
def plainEngine : Engine := ⟨fun _ => "", id⟩

/-- An array as key id passes the inspector, and the gateway refuses it. -/
theorem inspectEnvelope_array :
    Passes plainEngine (arrayEnvelope "pipeline-a" (toHex (List.replicate 64 0xee)) heightEight) ∧
    ¬(Passes plainEngine (arrayEnvelope "pipeline-a" (toHex (List.replicate 64 0xee)) heightEight) ↔
      WellFormed (arrayEnvelope "pipeline-a" (toHex (List.replicate 64 0xee)) heightEight)) := by
  have hpasses := passes_arrayEnvelope "pipeline-a" (toHex (List.replicate 64 0xee)) heightEight plainEngine
    heightEight_rules (by decide +kernel) (isHex_iff.mpr (isHex_toHex (List.replicate 64 0xee)))
  refine ⟨hpasses, fun hagrees => ?_⟩
  exact not_wellFormed_arrayEnvelope _ _ _ (hagrees.mp hpasses)

end IndexTandem.Site
