import IndexTandem.Agreement.AgreementQuery
import IndexTandem.Verification.JsonText

/-!
# The envelope on the wire

A pipeline signs the canonical bytes of a tuple and answers with the envelope as JSON text.
Whatever is signed comes back from the text and verifies under the derived public key, and the
canonical bytes of two tuples are equal only when the tuples are (`envelope_survives`).

`canonicalize` writes an object as RFC 8785 says: members in the order of the UTF-16 units of
their keys, and texts as `JSON.stringify` does. Ed25519 verifies what it signs.
-/

namespace IndexTandem.Verification

open Library Protocol Agreement

/-! ### Source -/

/-- The texts of a tuple under their keys. -/
def tupleTexts (tuple : AgreementTuple) : List (String × String) :=
  [("schema", tuple.schema), ("protocol_id", tuple.protocol_id), ("height", tuple.height),
    ("block_hash", tuple.block_hash), ("event_root", tuple.event_root),
    ("object_state_root", tuple.object_state_root), ("chained_root", tuple.chained_root),
    ("founding_created", tuple.founding_created), ("all_objects", tuple.all_objects),
    ("active_objects", tuple.active_objects), ("parser_commit", tuple.parser_commit),
    ("indexer_commit", tuple.indexer_commit), ("parser_binary_sha256", tuple.parser_binary_sha256),
    ("indexer_binary_sha256", tuple.indexer_binary_sha256)]

/-- `JSON.stringify` of an object of texts. -/
def stringifyTexts (texts : List (String × String)) : List Char :=
  stringifyObject (texts.map fun member => (member.1, stringifyText member.2))

/-- `JSON.stringify(envelope)`. -/
def stringifyEnvelope (envelope : SignedAgreementEnvelope) : String :=
  String.ofList (stringifyObject [("schema", stringifyText envelope.schema), ("key_id", stringifyText envelope.key_id),
    ("tuple", stringifyTexts (tupleTexts envelope.tuple)), ("signature", stringifyText envelope.signature)])

/-- The order of keys in RFC 8785. -/
def keyOrder (a b : String × String) : Bool := decide (utf16 a.1.toList ≤ utf16 b.1.toList)

/-- The text of a tuple in RFC 8785. -/
def rfc8785 (tuple : AgreementTuple) : String := String.ofList (stringifyTexts (sortBy keyOrder (tupleTexts tuple)))

/-- Canonical JSON is that of RFC 8785, and Ed25519 verifies what it signs with a key of 32 bytes. -/
structure Lawful (curve : Curve) : Prop where
  /-- Canonical JSON. -/
  canonicalize : ∀ tuple, curve.canonicalize tuple = some (rfc8785 tuple)
  /-- A key of 32 bytes has a public key and signs. -/
  signs : ∀ message privateKey : Bytes, privateKey.length = 32 → ∃ signature publicKey,
    curve.sign message privateKey = .ok signature ∧ curve.getPublicKey privateKey = .ok publicKey ∧
      signature.length = 64 ∧ publicKey.length = 32 ∧ curve.verify signature message publicKey = .ok true

/-! ### The text of an envelope -/

theorem written_texts (texts : List (String × String)) :
    Written 2 (stringifyTexts texts) (.object (texts.map fun member => (member.1, .string member.2))) := by
  have hmembers : ∀ member ∈ texts.map fun member => (member.1, stringifyText member.2, Json.string member.2),
      Written 1 member.2.1 member.2.2 := by
    intro member hmember
    obtain ⟨text, -, rfl⟩ := List.mem_map.mp hmember
    exact written_text text.2
  have hobject := Written.object hmembers
  rw [List.map_map, List.map_map] at hobject
  exact hobject

/-- **The text of an envelope** is read as its members. -/
theorem jsonParse_stringifyEnvelope (envelope : SignedAgreementEnvelope) :
    jsonParse (stringifyEnvelope envelope) =
      some (.object [("schema", .string envelope.schema), ("key_id", .string envelope.key_id),
        ("tuple", .object (tupleMembers envelope.tuple)), ("signature", .string envelope.signature)]) := by
  have hmembers : ∀ member ∈ [("schema", stringifyText envelope.schema, Json.string envelope.schema),
      ("key_id", stringifyText envelope.key_id, Json.string envelope.key_id),
      ("tuple", stringifyTexts (tupleTexts envelope.tuple), Json.object (tupleMembers envelope.tuple)),
      ("signature", stringifyText envelope.signature, Json.string envelope.signature)],
      Written 2 member.2.1 member.2.2 := by
    have htext : ∀ text, Written 2 (stringifyText text) (.string text) :=
      fun text bound hbound => written_text text bound (by omega)
    simp only [List.forall_mem_cons, List.not_mem_nil, false_imp_iff, implies_true, and_true]
    exact ⟨htext _, htext _, written_texts _, htext _⟩
  refine jsonParse_written (Written.object hmembers) ?_
  simp only [stringifyObject, stringifyMember, stringifyText, List.length_append, List.length_cons]
  omega

/-- **An envelope comes back from its text.** -/
theorem parse_stringifyEnvelope {envelope : SignedAgreementEnvelope} (rules : TupleRules envelope.tuple) :
    ∃ value, jsonParse (stringifyEnvelope envelope) = some value ∧ parseAgreementEnvelope value = .ok envelope := by
  exact ⟨_, jsonParse_stringifyEnvelope envelope, parseAgreementEnvelope_eq_ok.mpr ⟨isEnvelope_members envelope, rules⟩⟩

/-! ### The canonical bytes -/

theorem toList_eq (data : ByteArray) : data.toList = data.data.toList := by
  have hloop : ∀ n i r, data.size - i = n → ByteArray.toList.loop data i r = r.reverse ++ data.data.toList.drop i := by
    intro n
    induction n with
    | zero =>
      intro i r hn
      have hsize : data.data.toList.length ≤ i := by
        have : data.data.toList.length = data.size := rfl
        omega
      rw [ByteArray.toList.loop, if_neg (by omega), List.drop_eq_nil_of_le hsize, List.append_nil]
    | succ n ih =>
      intro i r hn
      have hi : i < data.data.toList.length := by
        have : data.data.toList.length = data.size := rfl
        omega
      have hget : data.get! i = data.data.toList[i] := by
        show data.data[i]! = _
        rw [getElem!_pos data.data i hi]
        rfl
      rw [ByteArray.toList.loop, if_pos (by omega), ih (i + 1) _ (by omega), List.reverse_cons, List.append_assoc,
        List.drop_eq_getElem_cons hi, hget]
      rfl
  exact (hloop _ 0 [] rfl).trans rfl

theorem encode_injective : Function.Injective encode := by
  intro a b h
  rw [encode, encode, toList_eq, toList_eq] at h
  have hdata := Array.toList_inj.mp h
  exact String.toByteArray_inj.mp (ByteArray.ext hdata)

/-- The texts of a tuple determine it. -/
theorem tupleTexts_determine {tuple tuple' : AgreementTuple}
    (h : ∀ key, (tupleTexts tuple).lookup key = (tupleTexts tuple').lookup key) : tuple = tuple' := by
  obtain ⟨⟩ := tuple
  obtain ⟨⟩ := tuple'
  have h₁ := h "schema"
  have h₂ := h "protocol_id"
  have h₃ := h "height"
  have h₄ := h "block_hash"
  have h₅ := h "event_root"
  have h₆ := h "object_state_root"
  have h₇ := h "chained_root"
  have h₈ := h "founding_created"
  have h₉ := h "all_objects"
  have h₁₀ := h "active_objects"
  have h₁₁ := h "parser_commit"
  have h₁₂ := h "indexer_commit"
  have h₁₃ := h "parser_binary_sha256"
  have h₁₄ := h "indexer_binary_sha256"
  simp only [AgreementTuple.mk.injEq]
  exact ⟨Option.some.inj h₁, Option.some.inj h₂, Option.some.inj h₃, Option.some.inj h₄, Option.some.inj h₅,
    Option.some.inj h₆, Option.some.inj h₇, Option.some.inj h₈, Option.some.inj h₉, Option.some.inj h₁₀,
    Option.some.inj h₁₁, Option.some.inj h₁₂, Option.some.inj h₁₃, Option.some.inj h₁₄⟩

theorem nodup_tupleTexts (tuple : AgreementTuple) : ((tupleTexts tuple).map Prod.fst).Nodup := by
  show TUPLE_KEYS.Nodup
  decide

theorem stringifyTexts_injective : Function.Injective stringifyTexts := by
  intro texts texts' h
  have hread := written_texts texts 2 le_rfl []
  have hread' := written_texts texts' 2 le_rfl []
  rw [← h, hread] at hread'
  have hmembers := Json.object.inj (Prod.mk.inj (Option.some.inj hread')).1
  have hinj : Function.Injective fun member : String × String => (member.1, Json.string member.2) := by
    intro a b hab
    have hparts := Prod.mk.inj hab
    exact Prod.ext hparts.1 (Json.string.inj hparts.2)
  exact List.map_injective_iff.mpr hinj hmembers

/-- **The canonical text determines the tuple.** -/
theorem rfc8785_injective : Function.Injective rfc8785 := by
  intro tuple tuple' h
  have hsorted := stringifyTexts_injective (String.ofList_injective h)
  have hperm := (sortBy_perm keyOrder (tupleTexts tuple)).symm
  rw [hsorted] at hperm
  have hsame := hperm.trans (sortBy_perm keyOrder (tupleTexts tuple'))
  refine tupleTexts_determine fun key => Option.ext fun text => ?_
  have hmem := JsMap.mem_entries ⟨tupleTexts tuple, nodup_tupleTexts tuple⟩ key text
  have hmem' := JsMap.mem_entries ⟨tupleTexts tuple', nodup_tupleTexts tuple'⟩ key text
  exact hmem.symm.trans (hsame.mem_iff.trans hmem')

/-! ### Signing -/

theorem isHex_iff {n : ℕ} {text : String} : isHex n text = true ↔ IsHex n text := by
  simp only [isHex, IsHex, Bool.and_eq_true, decide_eq_true_eq, List.all_eq_true]

section

variable {curve : Curve} (lawful : Lawful curve)

include lawful

/-- The canonical bytes are those of the canonical text. -/
theorem canonicalAgreementBytes_eq_ok {tuple : AgreementTuple} {message : Bytes} :
    canonicalAgreementBytes curve.toSigning tuple = .ok message ↔
      TupleRules tuple ∧ encode (rfc8785 tuple) = message := by
  simp only [canonicalAgreementBytes, bind_eq_ok, assertAgreementTuple_eq_ok, orError_eq_ok, pure_eq_ok, exists_const,
    lawful.canonicalize, Option.some.injEq, exists_eq_left']

/-- **The bytes signed determine the tuple.** -/
theorem canonicalAgreementBytes_injective {tuple tuple' : AgreementTuple} {message : Bytes}
    (h : canonicalAgreementBytes curve.toSigning tuple = .ok message)
    (h' : canonicalAgreementBytes curve.toSigning tuple' = .ok message) : tuple = tuple' := by
  have hbytes := ((canonicalAgreementBytes_eq_ok lawful).mp h).2
  have hbytes' := ((canonicalAgreementBytes_eq_ok lawful).mp h').2
  exact rfc8785_injective (encode_injective (hbytes.trans hbytes'.symm))

theorem signAgreementTuple_verifies {tuple : AgreementTuple} (rules : TupleRules tuple) {keyId privateKeyHex : String}
    (hkey : isKeyId keyId = true) (hprivate : (bytes privateKeyHex).length = 32) :
    ∃ envelope publicKey, signAgreementTuple curve tuple keyId privateKeyHex = .ok envelope ∧
      envelope.tuple = tuple ∧ curve.getPublicKey (bytes privateKeyHex) = .ok publicKey ∧
      verifyAgreementEnvelope curve.toSigning envelope (toHex publicKey) = true := by
  obtain ⟨signature, publicKey, hsign, hpublic, hlength, hlength', hverify⟩ :=
    lawful.signs (encode (rfc8785 tuple)) _ hprivate
  refine ⟨⟨"urn:tandem:agreement-envelope", keyId, tuple, toHex signature⟩, publicKey, ?_, rfl, hpublic,
    (verifyAgreementEnvelope_iff rules).mpr ?_⟩
  · simp only [signAgreementTuple, bind_eq_ok, ensure_eq_ok, exists_const, pure_eq_ok]
    exact ⟨⟨hprivate, hkey⟩, _, (canonicalAgreementBytes_eq_ok lawful).mpr ⟨rules, rfl⟩, _, hsign, rfl⟩
  · refine ⟨rfl, hkey, isHex_iff.mpr (hlength ▸ isHex_toHex _), isHex_iff.mpr (hlength' ▸ isHex_toHex _), _,
      lawful.canonicalize tuple, ?_⟩
    rw [bytes_toHex, bytes_toHex]
    exact hverify

/-- **An envelope survives the wire and binds its fourteen fields.** -/
theorem envelope_survives :
    (∀ tuple u, assertAgreementTuple tuple = .ok u → ∀ keyId privateKeyHex, isKeyId keyId = true →
      (bytes privateKeyHex).length = 32 →
      ∃ envelope publicKey value, signAgreementTuple curve tuple keyId privateKeyHex = .ok envelope ∧
        jsonParse (stringifyEnvelope envelope) = some value ∧ parseAgreementEnvelope value = .ok envelope ∧
        curve.getPublicKey (bytes privateKeyHex) = .ok publicKey ∧
        verifyAgreementEnvelope curve.toSigning envelope (toHex publicKey) = true) ∧
    ∀ tuple tuple' u u' message, assertAgreementTuple tuple = .ok u → assertAgreementTuple tuple' = .ok u' →
      canonicalAgreementBytes curve.toSigning tuple = .ok message →
      canonicalAgreementBytes curve.toSigning tuple' = .ok message → tuple = tuple' := by
  constructor
  · intro tuple u h keyId privateKeyHex hkey hprivate
    obtain ⟨envelope, publicKey, hsigned, htuple, hpublic, hverify⟩ :=
      signAgreementTuple_verifies lawful (assertAgreementTuple_eq_ok.mp h) hkey hprivate
    have rules : TupleRules envelope.tuple := htuple ▸ assertAgreementTuple_eq_ok.mp h
    obtain ⟨value, hvalue, hparsed⟩ := parse_stringifyEnvelope rules
    exact ⟨envelope, publicKey, value, hsigned, hvalue, hparsed, hpublic, hverify⟩
  · intro tuple tuple' _ _ message _ _ hmessage hmessage'
    exact canonicalAgreementBytes_injective lawful hmessage hmessage'

end

/-- Signing by writing the key twice, which is verified by comparing. -/
def comparingCurve : Curve where
  canonicalize tuple := some (rfc8785 tuple)
  verify signature _ publicKey := .ok (signature = publicKey ++ publicKey)
  getPublicKey privateKey := .ok privateKey
  sign _ privateKey := .ok (privateKey ++ privateKey)

theorem comparingCurve_lawful : Lawful comparingCurve where
  canonicalize _ := rfl
  signs message privateKey h := by
    refine ⟨privateKey ++ privateKey, privateKey, rfl, rfl, by rw [List.length_append, h], h, ?_⟩
    exact congrArg Except.ok (decide_eq_true rfl)

/-- A tuple at height 8. -/
def heightEight : AgreementTuple where
  schema := "urn:tandem:agreement-tuple"
  protocol_id := "tndm:signet:" ++ (Hash.fill 1).text
  height := "8"
  block_hash := (Hash.fill 2).text
  event_root := (Hash.fill 3).text
  object_state_root := (Hash.fill 4).text
  chained_root := (Hash.fill 5).text
  founding_created := "1"
  all_objects := "2"
  active_objects := "10"
  parser_commit := toHex (List.replicate 20 6)
  indexer_commit := toHex (List.replicate 20 7)
  parser_binary_sha256 := (Hash.fill 8).text
  indexer_binary_sha256 := (Hash.fill 9).text

theorem heightEight_rules : TupleRules heightEight where
  schema := rfl
  protocol := by decide +kernel
  height := by decide +kernel
  foundingCreated := by decide +kernel
  allObjects := by decide +kernel
  activeObjects := by decide +kernel
  safe := by decide +kernel
  blockHash := isHex_iff.mpr (Hash.isHex_text _)
  eventRoot := isHex_iff.mpr (Hash.isHex_text _)
  objectStateRoot := isHex_iff.mpr (Hash.isHex_text _)
  chainedRoot := isHex_iff.mpr (Hash.isHex_text _)
  parserBinary := isHex_iff.mpr (Hash.isHex_text _)
  indexerBinary := isHex_iff.mpr (Hash.isHex_text _)
  parserCommit := isHex_iff.mpr (isHex_toHex (List.replicate 20 6))
  indexerCommit := isHex_iff.mpr (isHex_toHex (List.replicate 20 7))

theorem envelope_survives_sample :
    ∃ envelope value, signAgreementTuple comparingCurve heightEight "pipeline-a" (Hash.fill 10).text = .ok envelope ∧
      jsonParse (stringifyEnvelope envelope) = some value ∧ parseAgreementEnvelope value = .ok envelope := by
  have hassert : assertAgreementTuple heightEight = .ok () := assertAgreementTuple_eq_ok.mpr heightEight_rules
  have hkey : isKeyId "pipeline-a" = true := by decide +kernel
  have hprivate : (bytes (Hash.fill 10).text).length = 32 := length_bytes (Hash.isHex_text _)
  obtain ⟨envelope, -, value, hsigned, hvalue, hparsed, -⟩ :=
    (envelope_survives comparingCurve_lawful).1 heightEight () hassert "pipeline-a" _ hkey hprivate
  exact ⟨envelope, value, hsigned, hvalue, hparsed⟩

end IndexTandem.Verification
