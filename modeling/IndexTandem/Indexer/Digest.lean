import IndexTandem.Indexer.Evidence
import IndexTandem.Library.Codes
import Mathlib.Algebra.Order.Ring.Nat

/-!
# What a signature digest commits to

The digest of an input is a hash over hashes of the outpoints, the sequence numbers and the
outputs. When no two of the texts hashed for two digests collide, equal digests are digests
of the same input of transactions that agree in all that is signed (`digest_commits`).

The text of the outputs has no separators. It is read in one way all the same, since each
amount has eight bytes and each script starts with its length (`delimited_output`).
-/

namespace IndexTandem.Indexer

open Library Protocol

/-! ### Numbers -/

theorem littleEndian_injOn (n : ℕ) {a b : ℕ} (ha : a < 256 ^ n) (hb : b < 256 ^ n)
    (h : littleEndian n a = littleEndian n b) : a = b := by
  induction n generalizing a b with
  | zero => omega
  | succ n ih =>
    rw [littleEndian, littleEndian, List.cons.injEq] at h
    have hlow : a % 256 = b % 256 := by simpa using congrArg UInt8.toNat h.1
    have hhigh := ih (a := a / 256) (b := b / 256) (by rw [Nat.pow_succ] at ha; omega) (by rw [Nat.pow_succ] at hb; omega) h.2
    omega

@[simp] theorem length_word32 (value : ℤ) : (word32 value).length = 4 := by simp [word32]

theorem word32_inj {a b : ℤ} (h : word32 a = word32 b) : a % 0x1_0000_0000 = b % 0x1_0000_0000 := by
  have := littleEndian_injOn 4 (by omega) (by omega) h
  omega

theorem word64_ok {value : ℕ} {text : Bytes} (h : word64 value = .ok text) :
    value < 0x1_0000_0000_0000_0000 ∧ text = littleEndian 8 value := by
  obtain ⟨_, hvalue, h⟩ := bind_eq_ok.mp h
  exact ⟨ensure_eq_ok.mp hvalue, (pure_eq_ok.mp h).symm⟩

/-! ### Scripts -/

/-- The length of a script, before it. -/
def lengthPrefix (length : ℕ) : Bytes :=
  if length < 0xfd then littleEndian 1 length
  else if length ≤ 0xffff then 0xfd :: littleEndian 2 length
  else 0xfe :: littleEndian 4 length

/-- A script after its length. -/
def varText (data : Bytes) : Bytes := lengthPrefix data.length ++ data

theorem varBytes_ok {data text : Bytes} (h : varBytes data = .ok text) :
    data.length < 0x1_0000_0000 ∧ text = varText data := by
  unfold varBytes at h
  unfold varText lengthPrefix
  split_ifs at h ⊢ with h₁ h₂
  · exact ⟨by omega, (pure_eq_ok.mp h).symm⟩
  · exact ⟨by omega, (pure_eq_ok.mp h).symm⟩
  · obtain ⟨_, hlength, h⟩ := bind_eq_ok.mp h
    exact ⟨ensure_eq_ok.mp hlength, (pure_eq_ok.mp h).symm⟩

theorem delimited_lengthPrefix : Delimited lengthPrefix (· < 0x1_0000_0000) := by
  intro a b x y ha hb h
  have hsmall : ∀ {n : ℕ}, n < 0xfd → (UInt8.ofNat (n % 256)).toNat = n := by
    intro n hn
    rw [UInt8.toNat_ofNat']
    omega
  -- Words of one length are compared as such, words of different lengths differ in their first byte.
  have hsame : ∀ {n : ℕ} {l l' : Bytes}, a < 256 ^ n → b < 256 ^ n →
      littleEndian n a ++ l = littleEndian n b ++ l' → a = b ∧ l = l' := by
    intro n l l' ha hb h
    obtain ⟨hword, hrest⟩ := List.append_inj h (by simp)
    exact ⟨littleEndian_injOn n ha hb hword, hrest⟩
  have hfirst : ∀ {n : ℕ} {c : UInt8} {l l' : Bytes}, n < 0xfd → 0xfd ≤ c.toNat →
      littleEndian 1 n ++ l ≠ c :: l' := by
    intro n c l l' hn hc heq
    rw [littleEndian, List.cons_append, List.cons.injEq] at heq
    have := hsmall hn
    rw [heq.1] at this
    omega
  unfold lengthPrefix at h
  split_ifs at h with h₁ h₂ h₃ h₄ h₅ h₆ h₇
  · exact hsame (n := 1) (by omega) (by omega) h
  · exact absurd h (hfirst h₁ (by decide))
  · exact absurd h (hfirst h₁ (by decide))
  · exact absurd h.symm (hfirst h₅ (by decide))
  · exact hsame (n := 2) (by omega) (by omega) (List.cons.inj h).2
  · exact absurd (List.cons.inj h).1 (by decide)
  · exact absurd h.symm (hfirst h₇ (by decide))
  · exact absurd (List.cons.inj h).1 (by decide)
  · exact hsame (n := 4) (by omega) (by omega) (List.cons.inj h).2

theorem delimited_varText : Delimited varText fun data => data.length < 0x1_0000_0000 := by
  intro a b x y ha hb h
  simp only [varText, List.append_assoc] at h
  obtain ⟨hlength, hrest⟩ := delimited_lengthPrefix ha hb h
  exact List.append_inj hrest hlength

/-! ### The texts that are hashed -/

/-- An output: its amount and its script. -/
def outputText (output : BitcoinOutput) : Bytes :=
  littleEndian 8 output.valueSats ++ varText (bytes output.scriptPubKeyHex)

/-- What is signed about an output. -/
def signedOutput (output : BitcoinOutput) : ℕ × Bytes := (output.valueSats, bytes output.scriptPubKeyHex)

theorem delimited_output : Delimited (fun p : ℕ × Bytes => littleEndian 8 p.1 ++ varText p.2)
    fun p => p.1 < 0x1_0000_0000_0000_0000 ∧ p.2.length < 0x1_0000_0000 := by
  have hvalue : Delimited (littleEndian 8) (· < 0x1_0000_0000_0000_0000) :=
    delimited_of_length 8 (fun _ _ => length_littleEndian 8 _) fun _ _ ha hb h => littleEndian_injOn 8 ha hb h
  exact hvalue.pair delimited_varText

/-- A call for a digest. -/
structure DigestCall where
  /-- The transaction. -/
  transaction : BitcoinTransaction
  /-- The input that signs. -/
  index : ℕ
  /-- The script that it satisfies. -/
  scriptCode : Bytes
  /-- The amount that it spends. -/
  amount : ℕ

/-- The outpoints of the inputs. -/
def prevoutsText (transaction : BitcoinTransaction) : Bytes := transaction.inputs.flatMap inputOutpoint

/-- Their sequence numbers. -/
def sequencesText (transaction : BitcoinTransaction) : Bytes :=
  transaction.inputs.flatMap fun input => word32 input.sequence

/-- The outputs. -/
def outputsText (transaction : BitcoinTransaction) : Bytes := transaction.outputs.flatMap outputText

section

variable (sha256 : Bytes → Hash)

/-- `new SighashContext(transaction).digest(index, scriptCode, amount)`. -/
def DigestCall.digest (call : DigestCall) : Except String Hash := do
  let context ← SighashContext.new sha256 call.transaction
  context.digest sha256 call.index call.scriptCode call.amount

/-- What comes after the script that is satisfied. -/
def DigestCall.after (call : DigestCall) (input : BitcoinInput) : Bytes :=
  littleEndian 8 call.amount ++ (word32 input.sequence ++ ((hash256 sha256 (outputsText call.transaction)).bytes ++
    (word32 call.transaction.locktime ++ word32 SIGHASH_ALL)))

/-- What is hashed for the digest of an input. -/
def DigestCall.message (call : DigestCall) (input : BitcoinInput) : Bytes :=
  word32 call.transaction.version ++ ((hash256 sha256 (prevoutsText call.transaction)).bytes ++
    ((hash256 sha256 (sequencesText call.transaction)).bytes ++ (inputOutpoint input ++
      (varText call.scriptCode ++ call.after sha256 input))))

/-- A text that is hashed twice, and its hash. -/
def hashedTwice (text : Bytes) : List Bytes := [text, (sha256 text).bytes]

/-- All texts hashed for a digest. -/
def DigestCall.hashed (call : DigestCall) : List Bytes :=
  hashedTwice sha256 (prevoutsText call.transaction) ++ hashedTwice sha256 (sequencesText call.transaction) ++
    hashedTwice sha256 (outputsText call.transaction) ++
    match call.transaction.inputs[call.index]? with
    | some input => hashedTwice sha256 (call.message sha256 input)
    | none => []

/-- No two of the texts have one hash. -/
def NoCollision (texts : List Bytes) : Prop := ∀ x ∈ texts, ∀ y ∈ texts, sha256 x = sha256 y → x = y

instance (texts : List Bytes) : Decidable (NoCollision sha256 texts) :=
  inferInstanceAs (Decidable (∀ x ∈ texts, ∀ y ∈ texts, sha256 x = sha256 y → x = y))

variable {sha256}

theorem NoCollision.hash256_inj {texts : List Bytes} (free : NoCollision sha256 texts) {x y : Bytes}
    (hx : ∀ t ∈ hashedTwice sha256 x, t ∈ texts) (hy : ∀ t ∈ hashedTwice sha256 y, t ∈ texts)
    (h : hash256 sha256 x = hash256 sha256 y) : x = y := by
  have hinner := free _ (hx _ (by simp [hashedTwice])) _ (hy _ (by simp [hashedTwice])) h
  exact free _ (hx _ (by simp [hashedTwice])) _ (hy _ (by simp [hashedTwice])) (Hash.ext hinner)

/-! ### Digests -/

/-- A digest is there when everything fits; it is the hash of the message. -/
structure Digests (call : DigestCall) (digest : Hash) (input : BitcoinInput) : Prop where
  /-- The input is there. -/
  found : call.transaction.inputs[call.index]? = some input
  /-- The digest. -/
  digest : digest = hash256 sha256 (call.message sha256 input)
  /-- The outputs fit. -/
  outputs : ∀ output ∈ call.transaction.outputs, (signedOutput output).1 < 0x1_0000_0000_0000_0000 ∧
    (signedOutput output).2.length < 0x1_0000_0000
  /-- The script fits. -/
  scriptCode : call.scriptCode.length < 0x1_0000_0000
  /-- The amount fits. -/
  amount : call.amount < 0x1_0000_0000_0000_0000

theorem digest_ok {call : DigestCall} {digest : Hash} (h : call.digest sha256 = .ok digest) :
    ∃ input, @Digests sha256 call digest input := by
  obtain ⟨context, hcontext, h⟩ := bind_eq_ok.mp h
  obtain ⟨texts, htexts, hcontext⟩ := bind_eq_ok.mp hcontext
  obtain rfl := pure_eq_ok.mp hcontext
  have houtputs : ∀ {outputs : List BitcoinOutput} {texts : List Bytes}, List.Forall₂ (fun output text => (do
      let value ← word64 output.valueSats
      let script ← varBytes (bytes output.scriptPubKeyHex)
      pure (value ++ script)) = Except.ok (ε := String) text) outputs texts →
      texts = outputs.map outputText ∧ ∀ output ∈ outputs, (signedOutput output).1 < 0x1_0000_0000_0000_0000 ∧
        (signedOutput output).2.length < 0x1_0000_0000 := by
    intro outputs texts hall
    induction hall with
    | nil => simp
    | cons hfirst _ ih =>
      obtain ⟨value, hvalue, hfirst⟩ := bind_eq_ok.mp hfirst
      obtain ⟨script, hscript, hfirst⟩ := bind_eq_ok.mp hfirst
      obtain rfl := pure_eq_ok.mp hfirst
      obtain ⟨hamount, rfl⟩ := word64_ok hvalue
      obtain ⟨hlength, rfl⟩ := varBytes_ok hscript
      obtain ⟨rfl, hall⟩ := ih
      exact ⟨rfl, List.forall_mem_cons.mpr ⟨⟨hamount, hlength⟩, hall⟩⟩
  obtain ⟨rfl, hfits⟩ := houtputs (mapM_ok_forall₂ htexts)
  simp only [SighashContext.digest] at h
  split at h
  · cases h
  · rename_i input hinput
    obtain ⟨code, hcode, h⟩ := bind_eq_ok.mp h
    obtain ⟨value, hvalue, h⟩ := bind_eq_ok.mp h
    obtain rfl := pure_eq_ok.mp h
    obtain ⟨hlength, rfl⟩ := varBytes_ok hcode
    obtain ⟨hamount, rfl⟩ := word64_ok hvalue
    refine ⟨input, hinput, ?_, hfits, hlength, hamount⟩
    have hflat : (call.transaction.outputs.map outputText).flatten = outputsText call.transaction :=
      (List.flatMap_def ..).symm
    simp only [DigestCall.message, DigestCall.after, prevoutsText, sequencesText, ← hflat, List.append_assoc]

/-! ### Equal digests -/

/-- Two transactions of the network without coinbase inputs, with different outpoints. -/
structure Signable (transaction : BitcoinTransaction) : Prop where
  /-- Every input spends an output. -/
  spends : ∀ input ∈ transaction.inputs, ∃ o, inputDisplayOutpoint input = some o
  /-- Sequence numbers have 32 bits. -/
  sequences : ∀ input ∈ transaction.inputs, input.sequence < 0x1_0000_0000
  /-- No output is spent twice. -/
  distinct : (transaction.inputs.map inputDisplayOutpoint).Nodup

/-- What two calls agree in. -/
structure Agrees (a b : DigestCall) : Prop where
  /-- The version. -/
  version : a.transaction.version % 0x1_0000_0000 = b.transaction.version % 0x1_0000_0000
  /-- The lock time. -/
  locktime : a.transaction.locktime % 0x1_0000_0000 = b.transaction.locktime % 0x1_0000_0000
  /-- The outpoints, in their order. -/
  outpoints : a.transaction.inputs.map inputDisplayOutpoint = b.transaction.inputs.map inputDisplayOutpoint
  /-- The sequence numbers. -/
  sequences : a.transaction.inputs.map BitcoinInput.sequence = b.transaction.inputs.map BitcoinInput.sequence
  /-- The outputs. -/
  outputs : a.transaction.outputs.map signedOutput = b.transaction.outputs.map signedOutput
  /-- The input that signs. -/
  index : a.index = b.index
  /-- The script that it satisfies. -/
  scriptCode : a.scriptCode = b.scriptCode
  /-- The amount. -/
  amount : a.amount = b.amount

theorem inputOutpoint_of_display {input : BitcoinInput} {o : Outpoint} (h : inputDisplayOutpoint input = some o) :
    inputOutpoint input = outpointWire o := by
  unfold inputOutpoint
  rw [h]

/-- The text of the outpoints determines them. -/
theorem prevoutsText_inj {a b : BitcoinTransaction} (ha : Signable a) (hb : Signable b)
    (h : prevoutsText a = prevoutsText b) : a.inputs.map inputDisplayOutpoint = b.inputs.map inputDisplayOutpoint := by
  have hwire : Delimited (fun o : Option Outpoint => o.elim [] outpointWire) fun o => ∃ p, o = some p := by
    refine delimited_of_length 36 ?_ ?_
    · rintro _ ⟨p, rfl⟩
      exact length_outpointWire p
    · rintro _ _ ⟨p, rfl⟩ ⟨q, rfl⟩ he
      exact congrArg some (outpointWire_injective he)
  have htext : ∀ {t : BitcoinTransaction}, Signable t →
      prevoutsText t = (t.inputs.map inputDisplayOutpoint).flatMap fun o => o.elim [] outpointWire := by
    intro t ht
    rw [prevoutsText, List.flatMap_map]
    refine List.flatMap_congr fun input hi => ?_
    obtain ⟨o, ho⟩ := ht.spends input hi
    rw [ho]
    exact inputOutpoint_of_display ho
  have hvalid : ∀ {t : BitcoinTransaction}, Signable t → ∀ o ∈ t.inputs.map inputDisplayOutpoint, ∃ p, o = some p := by
    intro t ht o ho
    obtain ⟨input, hi, rfl⟩ := List.mem_map.mp ho
    exact ht.spends input hi
  refine hwire.flatMap_inj ?_ (hvalid ha) (hvalid hb) (by rw [← htext ha, ← htext hb, h])
  rintro _ ⟨p, rfl⟩ he
  have := congrArg List.length he
  simp at this

/-- The text of the sequence numbers determines them. -/
theorem sequencesText_inj {a b : BitcoinTransaction} (ha : Signable a) (hb : Signable b)
    (h : sequencesText a = sequencesText b) :
    a.inputs.map BitcoinInput.sequence = b.inputs.map BitcoinInput.sequence := by
  have hword : Delimited (fun n : ℕ => word32 n) (· < 0x1_0000_0000) := by
    refine delimited_of_length 4 (fun _ _ => length_word32 _) fun m n hm hn he => ?_
    have := word32_inj he
    omega
  have hvalid : ∀ {t : BitcoinTransaction}, Signable t →
      ∀ n ∈ t.inputs.map BitcoinInput.sequence, n < 0x1_0000_0000 := by
    intro t ht n hn
    obtain ⟨input, hi, rfl⟩ := List.mem_map.mp hn
    exact ht.sequences input hi
  refine hword.flatMap_inj (fun n _ he => ?_) (hvalid ha) (hvalid hb) ?_
  · have := congrArg List.length he
    simp at this
  · simpa [sequencesText, List.flatMap_map] using h

/-- The text of the outputs determines them. -/
theorem outputsText_inj {a b : BitcoinTransaction}
    (ha : ∀ output ∈ a.outputs, (signedOutput output).1 < 0x1_0000_0000_0000_0000 ∧
      (signedOutput output).2.length < 0x1_0000_0000)
    (hb : ∀ output ∈ b.outputs, (signedOutput output).1 < 0x1_0000_0000_0000_0000 ∧
      (signedOutput output).2.length < 0x1_0000_0000)
    (h : outputsText a = outputsText b) : a.outputs.map signedOutput = b.outputs.map signedOutput := by
  refine delimited_output.flatMap_inj (fun p _ he => ?_) ?_ ?_ ?_
  · have := congrArg List.length he
    simp at this
  · exact fun p hp => by
      obtain ⟨output, ho, rfl⟩ := List.mem_map.mp hp
      exact ha output ho
  · exact fun p hp => by
      obtain ⟨output, ho, rfl⟩ := List.mem_map.mp hp
      exact hb output ho
  · rw [List.flatMap_map, List.flatMap_map]
    exact h

theorem hashedTwice_subset {call : DigestCall} {input : BitcoinInput}
    (found : call.transaction.inputs[call.index]? = some input) {text : Bytes}
    (h : text = prevoutsText call.transaction ∨ text = sequencesText call.transaction ∨
      text = outputsText call.transaction ∨ text = call.message sha256 input) :
    ∀ t ∈ hashedTwice sha256 text, t ∈ call.hashed sha256 := by
  intro t ht
  simp only [DigestCall.hashed, found, List.mem_append]
  rcases h with rfl | rfl | rfl | rfl
  · exact Or.inl (Or.inl (Or.inl ht))
  · exact Or.inl (Or.inl (Or.inr ht))
  · exact Or.inl (Or.inr ht)
  · exact Or.inr ht

/-- **Equal digests commit to the same.** When no two texts hashed for two digests collide and the digests are equal,
the transactions agree in all that is signed, and the digests are of the same input, script and amount. -/
theorem digest_commits {a b : DigestCall} (ha : Signable a.transaction) (hb : Signable b.transaction)
    (free : NoCollision sha256 (a.hashed sha256 ++ b.hashed sha256)) {digest : Hash}
    (h : a.digest sha256 = .ok digest) (h' : b.digest sha256 = .ok digest) : Agrees a b := by
  obtain ⟨input, found, hdigest, houtputs, hcode, hamount⟩ := digest_ok h
  obtain ⟨input', found', hdigest', houtputs', hcode', hamount'⟩ := digest_ok h'
  have hsame : ∀ {x y : Bytes}, (x = prevoutsText a.transaction ∨ x = sequencesText a.transaction ∨
      x = outputsText a.transaction ∨ x = a.message sha256 input) → (y = prevoutsText b.transaction ∨
      y = sequencesText b.transaction ∨ y = outputsText b.transaction ∨ y = b.message sha256 input') →
      hash256 sha256 x = hash256 sha256 y → x = y := by
    intro x y hx hy he
    exact free.hash256_inj (fun t ht => List.mem_append_left _ (hashedTwice_subset found hx t ht))
      (fun t ht => List.mem_append_right _ (hashedTwice_subset found' hy t ht)) he
  -- The messages are equal, and their parts have fixed lengths or end themselves.
  have hmessage : a.message sha256 input = b.message sha256 input' :=
    hsame (Or.inr (Or.inr (Or.inr rfl))) (Or.inr (Or.inr (Or.inr rfl))) (hdigest.symm.trans hdigest')
  obtain ⟨hversion, hmessage⟩ := List.append_inj hmessage (by simp)
  obtain ⟨hprevouts, hmessage⟩ := List.append_inj hmessage (by simp [Hash.length_bytes])
  obtain ⟨hsequences, hmessage⟩ := List.append_inj hmessage (by simp [Hash.length_bytes])
  obtain ⟨o, ho⟩ := ha.spends input (List.mem_of_getElem? found)
  obtain ⟨o', ho'⟩ := hb.spends input' (List.mem_of_getElem? found')
  rw [inputOutpoint_of_display ho, inputOutpoint_of_display ho'] at hmessage
  obtain ⟨houtpoint, hmessage⟩ := List.append_inj hmessage (by simp)
  obtain ⟨hscript, hmessage⟩ := delimited_varText hcode hcode' hmessage
  obtain ⟨hvalue, hmessage⟩ := List.append_inj hmessage (by simp)
  obtain ⟨-, hmessage⟩ := List.append_inj hmessage (by simp)
  obtain ⟨houts, hmessage⟩ := List.append_inj hmessage (by simp [Hash.length_bytes])
  obtain ⟨hlocktime, -⟩ := List.append_inj hmessage (by simp)
  -- The hashes inside are those of equal texts.
  have hprevouts := hsame (Or.inl rfl) (Or.inl rfl) (Hash.ext hprevouts)
  have hsequences := hsame (Or.inr (Or.inl rfl)) (Or.inr (Or.inl rfl)) (Hash.ext hsequences)
  have houts := hsame (Or.inr (Or.inr (Or.inl rfl))) (Or.inr (Or.inr (Or.inl rfl))) (Hash.ext houts)
  have houtpoints := prevoutsText_inj ha hb hprevouts
  refine ⟨word32_inj hversion, ?_, houtpoints, sequencesText_inj ha hb hsequences,
    outputsText_inj houtputs houtputs' houts, ?_, hscript, littleEndian_injOn 8 hamount hamount' hvalue⟩
  · have := word32_inj hlocktime
    omega
  · -- The outpoint of the input that signs is found at one index only.
    obtain rfl := outpointWire_injective houtpoint
    have hat : (a.transaction.inputs.map inputDisplayOutpoint)[a.index]? = some (some o) := by
      rw [List.getElem?_map, found, Option.map_some, ho]
    have hat' : (a.transaction.inputs.map inputDisplayOutpoint)[b.index]? = some (some o) := by
      rw [houtpoints, List.getElem?_map, found', Option.map_some, ho']
    have hlt := (List.getElem?_eq_some_iff.mp hat).1
    exact (List.getElem?_inj hlt ha.distinct).mp (hat.trans hat'.symm)

end

/-! ### A transaction to sign -/

/-- A hash without collisions on a few short texts: a number in another base, in 32 bytes. -/
def sampleDigest (data : Bytes) : Hash :=
  ⟨littleEndian 32 (data.foldl (fun n b => 257 * n + b.toNat + 1) 0 % 256 ^ 32), by simp⟩

/-- A call for the digest of the second input of a transaction with two inputs and an output. -/
def sampleCall (version : ℤ) : DigestCall where
  transaction := ⟨Hash.fill 1, Hash.fill 2, version, 5,
    [⟨some (Hash.fill 3), some 0, none, "", 1, [], none⟩, ⟨some (Hash.fill 3), some 1, none, "", 2, [], none⟩],
    [⟨0, 20000, "0014"⟩]⟩
  index := 1
  scriptCode := [0x52]
  amount := 30000

theorem sampleCall_signable (version : ℤ) : Signable (sampleCall version).transaction where
  spends input hi := by
    simp only [sampleCall, List.mem_cons, List.not_mem_nil, or_false] at hi
    rcases hi with rfl | rfl
    · exact ⟨_, rfl⟩
    · exact ⟨_, rfl⟩
  sequences input hi := by
    simp only [sampleCall, List.mem_cons, List.not_mem_nil, or_false] at hi
    rcases hi with rfl | rfl
    · decide
    · decide
  distinct := by
    show [some (⟨Hash.fill 3, 0⟩ : Outpoint), some ⟨Hash.fill 3, 1⟩].Nodup
    decide

/-- The version may be given with or without its sign. -/
theorem digest_commits_sample : ∃ digest, (sampleCall (-2)).digest sampleDigest = .ok digest ∧
    Agrees (sampleCall (-2)) (sampleCall 4294967294) := by
  have hsame : (sampleCall (-2)).digest sampleDigest = (sampleCall 4294967294).digest sampleDigest := by decide +kernel
  have hsome : ((sampleCall (-2)).digest sampleDigest).toOption.isSome = true := by decide +kernel
  have free : NoCollision sampleDigest ((sampleCall (-2)).hashed sampleDigest ++
    (sampleCall 4294967294).hashed sampleDigest) := by decide +kernel
  cases hdigest : (sampleCall (-2)).digest sampleDigest with
  | error e => rw [hdigest] at hsome; cases hsome
  | ok digest =>
    exact ⟨digest, rfl, digest_commits (sampleCall_signable _) (sampleCall_signable _) free hdigest (hsame ▸ hdigest)⟩

end IndexTandem.Indexer
