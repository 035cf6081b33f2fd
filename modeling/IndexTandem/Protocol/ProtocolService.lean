import IndexTandem.Indexer.SyncService

/-!
# Inspecting a transaction of the mempool

`inspectTransaction` tells what an unconfirmed transaction looks like: nothing, a candidate
for an operation of the deployment, or something invalid, with a reason. The reducer reads
the same markers in a block, but takes out the INIT markers of other transactions than the
configured INIT first.

The inspection does not take them out, it reports nothing about a configured INIT without a
marker, and it compares the heights of an INIT with the operator's even where the operator
has set none. It agrees with the reducer exactly outside of these cases
(`inspectTransaction_agrees_iff`).
-/

namespace IndexTandem.Protocol

open Library Indexer

/-! ### The inspection -/

/-- `ProtocolObservation`. -/
inductive ProtocolObservation where
  /-- No marker. -/
  | none
  /-- No operation, and why. -/
  | invalid (reason : Reason) (markerOutput : Option ℕ)
  /-- What looks like an operation of the deployment. -/
  | candidate (marker : Marker) (markerOutput : ℕ) (payloadHex : String)
  deriving DecidableEq

/-- `hexToBytes(value)`. -/
def hexToBytes (value : String) : Except String Bytes := do
  ensure (value.toList.length % 2 = 0 ∧ (value.toList.all fun c => c ∈ hexDigits) = true)
    "hex must be lowercase and contain an even number of characters"
  pure (bytes value)

/-- `isTandemMarkerCandidate(script)`. -/
def isTandemMarkerCandidate (script : Bytes) : Bool := (inspectMarkerScript script).candidate

/-- `inspectTransaction(transaction)` from the only candidate on. -/
def inspectCandidate (deployment : DeploymentConfiguration) (transaction : BitcoinTransaction)
    (output : BitcoinOutput) (script : Bytes) : ProtocolObservation :=
  match parseMarkerScript script deployment.networkCode with
  | .error reason => .invalid reason (some output.n)
  | .ok marker =>
    let accepted := ProtocolObservation.candidate marker output.n (toHex (inspectMarkerScript script).payload)
    match marker with
    | .init _ openHeight closeHeight _ _ specHash =>
      if some transaction.txid ≠ deployment.initTxid then .invalid .WRONG_NAMESPACE (some output.n)
      else if some openHeight ≠ deployment.openHeight ∨ some closeHeight ≠ deployment.closeHeight then
        .invalid .BAD_HEIGHT_OR_PHASE (some output.n)
      else if specHash ≠ deployment.specHash.bytes then .invalid .WRONG_NAMESPACE (some output.n)
      else accepted
    | _ =>
      if some marker.binds ≠ deployment.ns.map Hash.bytes then .invalid .WRONG_NAMESPACE (some output.n)
      else accepted

/-- `inspectTransaction(transaction)`, given the candidates. -/
def inspectCandidates (deployment : DeploymentConfiguration) (transaction : BitcoinTransaction) :
    List (BitcoinOutput × Bytes) → ProtocolObservation
  | [] => .none
  | [candidate] => inspectCandidate deployment transaction candidate.1 candidate.2
  | _ => .invalid .MULTIPLE_MARKERS none

/-- `inspectTransaction(transaction)`. -/
def inspectTransaction (deployment : DeploymentConfiguration) (transaction : BitcoinTransaction) :
    Except String ProtocolObservation := do
  let scripts ← transaction.outputs.mapM fun output => do
    let script ← hexToBytes output.scriptPubKeyHex
    pure (output, script)
  pure (inspectCandidates deployment transaction (scripts.filter fun entry => isTandemMarkerCandidate entry.2))

/-! ### The candidates -/

/-- The scripts are written as the node writes them. -/
def Scripted (transaction : BitcoinTransaction) : Prop :=
  ∀ output ∈ transaction.outputs, ∃ script, output.scriptPubKeyHex = toHex script

/-- The outputs that are marker candidates. -/
def candidateOutputs (transaction : BitcoinTransaction) : List BitcoinOutput :=
  transaction.outputs.filter fun output => isTandemMarkerCandidate (bytes output.scriptPubKeyHex)

/-- An INIT candidate of another transaction than the configured INIT. -/
def isForeign (transaction : BitcoinTransaction) (initTxid : Hash) (output : BitcoinOutput) : Bool :=
  (inspectMarkerScript (bytes output.scriptPubKeyHex)).payload[6]? = some 0x00 ∧ transaction.txid ≠ initTxid

/-- The outputs that remain for the reducer. -/
def remainingOutputs (transaction : BitcoinTransaction) (initTxid : Hash) : List BitcoinOutput :=
  (candidateOutputs transaction).filter fun output => !isForeign transaction initTxid output

/-- The reducer's record of a candidate is about its output. -/
def IsCandidateOf (output : BitcoinOutput) (candidate : Candidate) : Prop :=
  candidate.vout = output.n ∧ candidate.payload = (inspectMarkerScript (bytes output.scriptPubKeyHex)).payload

theorem hexToBytes_toHex (script : Bytes) : hexToBytes (toHex script) = .ok script := by
  obtain ⟨hlength, hdigits⟩ := isHex_toHex script
  have heven : (toHex script).toList.length % 2 = 0 := by omega
  have hall : ((toHex script).toList.all fun c => c ∈ hexDigits) = true :=
    List.all_eq_true.mpr fun c hc => decide_eq_true (hdigits c hc)
  simp only [hexToBytes, ensure, if_pos (And.intro heven hall), bytes_toHex]
  rfl

/-- An output with its script. -/
def withScript (output : BitcoinOutput) : BitcoinOutput × Bytes := (output, bytes output.scriptPubKeyHex)

theorem inspectTransaction_eq (deployment : DeploymentConfiguration) {transaction : BitcoinTransaction}
    (scripted : Scripted transaction) : inspectTransaction deployment transaction =
      .ok (inspectCandidates deployment transaction ((candidateOutputs transaction).map withScript)) := by
  have hscripts : ∀ outputs : List BitcoinOutput, (∀ output ∈ outputs, ∃ script, output.scriptPubKeyHex = toHex script) →
      (outputs.mapM fun output => do
        let script ← hexToBytes output.scriptPubKeyHex
        pure (output, script)) = Except.ok (ε := String) (outputs.map withScript) := by
    intro outputs hall
    induction outputs with
    | nil => rfl
    | cons output outputs ih =>
      obtain ⟨script, hscript⟩ := hall output List.mem_cons_self
      have hfirst : hexToBytes output.scriptPubKeyHex = .ok (bytes output.scriptPubKeyHex) := by
        rw [hscript, hexToBytes_toHex, bytes_toHex]
      rw [List.mapM_cons, hfirst, ih fun o ho => hall o (List.mem_cons_of_mem _ ho)]
      rfl
  unfold inspectTransaction
  rw [hscripts _ scripted]
  show Except.ok (inspectCandidates deployment transaction
    ((transaction.outputs.map withScript).filter fun entry => isTandemMarkerCandidate entry.2)) = _
  rw [List.filter_map]
  rfl

theorem startsWith6a_of_candidate {output : BitcoinOutput} (hscript : ∃ script, output.scriptPubKeyHex = toHex script)
    (h : isTandemMarkerCandidate (bytes output.scriptPubKeyHex) = true) :
    startsWith6a output.scriptPubKeyHex = true := by
  obtain ⟨script, hscript⟩ := hscript
  rw [hscript, bytes_toHex] at h
  have hhead := inspectMarkerScript_head h
  rw [hscript]
  cases script with
  | nil => cases hhead
  | cons b script =>
    obtain rfl := Option.some.inj hhead
    rw [startsWith6a, toHex, String.toList_ofList]
    rfl

theorem declaredLength_ok {script : Bytes} (h : isTandemMarkerCandidate script = true) :
    ∃ declared, declaredLength script = .ok declared := by
  obtain ⟨-, length, dataOffset, hheader, -⟩ := inspectMarkerScript_candidate h
  unfold declaredLength
  dsimp only [pushHeader] at hheader
  dsimp only
  split_ifs with h₁ h₂ h₃ h₄
  · exact ⟨_, rfl⟩
  · exact ⟨_, rfl⟩
  · exact ⟨_, rfl⟩
  · have hlong : 6 ≤ script.length := by
      rw [if_neg h₁, if_neg (fun hc => h₂ hc.1), if_neg (fun hc => h₃ hc.1)] at hheader
      split_ifs at hheader with hc
      exact hc.2
    simp only [ensure, if_pos hlong]
    exact ⟨_, rfl⟩
  · exact ⟨_, rfl⟩

section

variable {transaction : BitcoinTransaction} {initTxid : Hash} {output : BitcoinOutput}

/-- The reducer keeps an output that remains, -/
theorem remainingCandidate_some (hscript : ∃ script, output.scriptPubKeyHex = toHex script)
    (hcand : isTandemMarkerCandidate (bytes output.scriptPubKeyHex) = true)
    (own : isForeign transaction initTxid output = false) :
    ∃ candidate, remainingCandidate transaction initTxid output = .ok (some candidate) ∧
      IsCandidateOf output candidate := by
  obtain ⟨declared, hdeclared⟩ := declaredLength_ok hcand
  have hfirst := startsWith6a_of_candidate hscript hcand
  unfold isTandemMarkerCandidate at hcand
  have hown := of_decide_eq_false own
  simp only [remainingCandidate, hfirst, hcand, Bool.not_true, Bool.false_eq_true, if_false, if_neg hown, hdeclared]
  exact ⟨_, rfl, rfl, rfl⟩

/-- and leaves out the others. -/
theorem remainingCandidate_none (h : isTandemMarkerCandidate (bytes output.scriptPubKeyHex) = true →
    isForeign transaction initTxid output = true) : remainingCandidate transaction initTxid output = .ok none := by
  unfold isTandemMarkerCandidate at h
  unfold remainingCandidate
  dsimp only
  split_ifs with h₁ h₂ h₃
  · rfl
  · rfl
  · rfl
  · exact absurd (of_decide_eq_true (h (by simpa using h₂))) h₃

end

/-- The reducer's candidates are those of the outputs that remain. -/
theorem remainingCandidates_ok {transaction : BitcoinTransaction} (scripted : Scripted transaction) (initTxid : Hash) :
    ∃ remaining, remainingCandidates transaction initTxid = .ok remaining ∧
      List.Forall₂ IsCandidateOf (remainingOutputs transaction initTxid) remaining := by
  suffices hall : ∀ outputs : List BitcoinOutput,
      (∀ output ∈ outputs, ∃ script, output.scriptPubKeyHex = toHex script) →
      ∃ found, outputs.mapM (remainingCandidate transaction initTxid) = .ok found ∧
        List.Forall₂ IsCandidateOf ((outputs.filter fun output =>
          isTandemMarkerCandidate (bytes output.scriptPubKeyHex)).filter
            fun output => !isForeign transaction initTxid output) (found.filterMap id) by
    obtain ⟨found, hfound, hmatch⟩ := hall _ scripted
    refine ⟨found.filterMap id, ?_, hmatch⟩
    rw [remainingCandidates, hfound]
    rfl
  intro outputs hall
  induction outputs with
  | nil => exact ⟨[], rfl, .nil⟩
  | cons output outputs ih =>
    obtain ⟨found, hfound, hmatch⟩ := ih fun o ho => hall o (List.mem_cons_of_mem _ ho)
    have hcons : ∀ {first : Option Candidate}, remainingCandidate transaction initTxid output = .ok first →
        (output :: outputs).mapM (remainingCandidate transaction initTxid) = .ok (first :: found) := by
      intro first hfirst
      rw [List.mapM_cons, hfirst, hfound]
      rfl
    by_cases hcand : isTandemMarkerCandidate (bytes output.scriptPubKeyHex) = true
    · rw [List.filter_cons_of_pos (by exact hcand)]
      cases hforeign : isForeign transaction initTxid output with
      | true =>
        rw [List.filter_cons_of_neg (by simpa using hforeign)]
        exact ⟨_, hcons (remainingCandidate_none fun _ => hforeign), hmatch⟩
      | false =>
        rw [List.filter_cons_of_pos (by simpa using hforeign)]
        obtain ⟨candidate, hfirst, hof⟩ := remainingCandidate_some (hall output List.mem_cons_self) hcand hforeign
        exact ⟨_, hcons hfirst, .cons hof hmatch⟩
    · rw [List.filter_cons_of_neg (by exact hcand)]
      exact ⟨_, hcons (remainingCandidate_none fun h => absurd h hcand), hmatch⟩

/-! ### Where the inspection agrees -/

/-- The heights that the operator has set are those of the marker. -/
def HeightsMatch (deployment : DeploymentConfiguration) (openHeight closeHeight : ℕ) : Prop :=
  (∀ height ∈ deployment.openHeight, height = openHeight) ∧ ∀ height ∈ deployment.closeHeight, height = closeHeight

/-- A marker names the deployment: its namespace, or for an INIT its spec hash and the heights that are set. -/
def NamesDeployment (deployment : DeploymentConfiguration) : Marker → Prop
  | .init _ openHeight closeHeight _ _ specHash =>
    specHash = deployment.specHash.bytes ∧ HeightsMatch deployment openHeight closeHeight
  | marker => some marker.binds = deployment.ns.map Hash.bytes

/-- The script is a marker that names the deployment. -/
def IsMarkerOf (deployment : DeploymentConfiguration) (script : Bytes) : Prop :=
  ∃ marker, parseMarkerScript script deployment.networkCode = .ok marker ∧ NamesDeployment deployment marker

/-- The inspection agrees with the reducer. -/
structure InspectionAgrees (deployment : DeploymentConfiguration) (initTxid : Hash) (transaction : BitcoinTransaction)
    (observation : ProtocolObservation) (remaining : List Candidate) : Prop where
  /-- Nothing is reported when nothing remains, except for the configured INIT. -/
  none : observation = .none ↔ remaining = [] ∧ transaction.txid ≠ initTxid
  /-- Several markers are reported when several remain. -/
  multiple : (∃ markerOutput, observation = .invalid .MULTIPLE_MARKERS markerOutput) ↔ 2 ≤ remaining.length
  /-- With one that remains, a candidate is reported when it is a marker of the deployment. -/
  candidate : ∀ output, remainingOutputs transaction initTxid = [output] →
    ((∃ marker markerOutput payloadHex, observation = .candidate marker markerOutput payloadHex) ↔
      IsMarkerOf deployment (bytes output.scriptPubKeyHex))

/-- Where the inspection agrees: with INIT markers of other transactions only beside two others, with a marker in the
configured INIT, and with the heights set where the configured INIT is otherwise accepted. -/
structure Inspectable (deployment : DeploymentConfiguration) (initTxid : Hash) (transaction : BitcoinTransaction) :
    Prop where
  /-- An INIT marker of another transaction comes with two other markers. -/
  foreign : (∃ output ∈ candidateOutputs transaction, isForeign transaction initTxid output = true) →
    2 ≤ (remainingOutputs transaction initTxid).length
  /-- The configured INIT has a marker. -/
  marked : transaction.txid = initTxid → candidateOutputs transaction ≠ []
  /-- The heights are set when the only marker is an INIT that names the deployment. -/
  heights : ∀ output network openHeight closeHeight carrierValue refundDelay specHash,
    candidateOutputs transaction = [output] →
    parseMarkerScript (bytes output.scriptPubKeyHex) deployment.networkCode =
      .ok (.init network openHeight closeHeight carrierValue refundDelay specHash) →
    specHash = deployment.specHash.bytes → HeightsMatch deployment openHeight closeHeight →
    deployment.openHeight.isSome = true ∧ deployment.closeHeight.isSome = true

theorem parseMarkerScript_ne_multiple {script : Bytes} {network : NetworkCode} {reason : Reason}
    (h : parseMarkerScript script network = .error reason) : reason ≠ .MULTIPLE_MARKERS := by
  rintro rfl
  dsimp only [parseMarkerScript] at h
  cases ho : Opcode.ofCode ((inspectMarkerScript script).payload.getD 6 0).toNat with
  | none =>
    simp only [ho] at h
    split_ifs at h <;> cases h
  | some opcode =>
    simp only [ho] at h
    split_ifs at h
    · cases h
    · cases h
    · cases h
    · cases h
    · cases opcode <;> simp only [parsePayload] at h <;> split_ifs at h <;> cases h

/-- An INIT marker has the opcode that makes it foreign in another transaction. -/
theorem payload_of_init {script : Bytes} {network : NetworkCode} {code openHeight closeHeight carrierValue refundDelay : ℕ}
    {specHash : Bytes} (h : parseMarkerScript script network =
      .ok (.init code openHeight closeHeight carrierValue refundDelay specHash)) :
    (inspectMarkerScript script).payload[6]? = some 0x00 := by
  obtain ⟨-, hlength, opcode, hopcode, -, -, -, hparse⟩ := parseMarkerScript_ok h
  have hinit : opcode = .init := (parsePayload_operation hparse).symm
  subst hinit
  have hzero := Opcode.ofCode_init hopcode
  have hsix : 6 < (inspectMarkerScript script).payload.length := by omega
  rw [List.getD_eq_getElem?_getD, List.getElem?_eq_getElem hsix, Option.getD_some] at hzero
  rw [List.getElem?_eq_getElem hsix]
  exact congrArg some (UInt8.toNat_inj.mp hzero)

/-- An own candidate is reported as one when it names the deployment and the heights of an INIT are set. -/
theorem inspectCandidate_candidate {deployment : DeploymentConfiguration} {initTxid : Hash}
    (configured : deployment.initTxid = some initTxid) {transaction : BitcoinTransaction} {output : BitcoinOutput}
    (own : isForeign transaction initTxid output = false) :
    (∃ marker markerOutput payloadHex, inspectCandidate deployment transaction output
        (bytes output.scriptPubKeyHex) = .candidate marker markerOutput payloadHex) ↔
      IsMarkerOf deployment (bytes output.scriptPubKeyHex) ∧
        ∀ network openHeight closeHeight carrierValue refundDelay specHash,
          parseMarkerScript (bytes output.scriptPubKeyHex) deployment.networkCode =
            .ok (.init network openHeight closeHeight carrierValue refundDelay specHash) →
          specHash = deployment.specHash.bytes → HeightsMatch deployment openHeight closeHeight →
          deployment.openHeight.isSome = true ∧ deployment.closeHeight.isSome = true := by
  have hown := of_decide_eq_false own
  unfold inspectCandidate IsMarkerOf
  cases hparse : parseMarkerScript (bytes output.scriptPubKeyHex) deployment.networkCode with
  | error reason => simp
  | ok marker =>
    have hother : ∀ binds : Bytes, (∃ marker' markerOutput payloadHex,
        (if some binds ≠ deployment.ns.map Hash.bytes then ProtocolObservation.invalid .WRONG_NAMESPACE (some output.n)
          else .candidate marker output.n (toHex (inspectMarkerScript (bytes output.scriptPubKeyHex)).payload)) =
            .candidate marker' markerOutput payloadHex) ↔ some binds = deployment.ns.map Hash.bytes := by
      intro binds
      split_ifs with h
      · simp [h]
      · simpa using h
    cases marker with
    | init network openHeight closeHeight carrierValue refundDelay specHash =>
      have hid : transaction.txid = initTxid := by
        by_contra hne
        exact hown ⟨payload_of_init hparse, hne⟩
      have htx : ¬some transaction.txid ≠ deployment.initTxid := by
        rw [configured, hid]
        exact not_not_intro rfl
      simp only [if_neg htx]
      constructor
      · rintro ⟨marker', markerOutput, payloadHex, h⟩
        split_ifs at h with hheights hspec
        rw [not_or, not_ne_iff, not_ne_iff] at hheights
        rw [not_ne_iff] at hspec
        refine ⟨⟨_, rfl, hspec, ?_, ?_⟩, ?_⟩
        · rw [← hheights.1]
          simp
        · rw [← hheights.2]
          simp
        · intro _ _ _ _ _ _ _ _ _
          rw [← hheights.1, ← hheights.2]
          exact ⟨rfl, rfl⟩
      · rintro ⟨⟨_, hmarker, hnames⟩, hset⟩
        obtain rfl := Except.ok.inj hmarker
        obtain ⟨hspec, hopen, hclose⟩ := hnames
        obtain ⟨ho, hc⟩ := hset _ _ _ _ _ _ rfl hspec ⟨hopen, hclose⟩
        obtain ⟨o, ho⟩ := Option.isSome_iff_exists.mp ho
        obtain ⟨c, hc⟩ := Option.isSome_iff_exists.mp hc
        have hheights : ¬(some openHeight ≠ deployment.openHeight ∨ some closeHeight ≠ deployment.closeHeight) := by
          rw [ho, hc, hopen o ho, hclose c hc]
          simp
        rw [if_neg hheights, if_neg (not_not_intro hspec)]
        exact ⟨_, _, _, rfl⟩
    | create network ns => simpa [NamesDeployment, Marker.binds] using hother ns
    | mark network ns sequence kind commitment => simpa [NamesDeployment, Marker.binds] using hother ns
    | rotate network ns sequence => simpa [NamesDeployment, Marker.binds] using hother ns
    | close network ns sequence reason commitment => simpa [NamesDeployment, Marker.binds] using hother ns

/-- The only candidate is reported, and not as one of several. -/
theorem inspectCandidate_ne (deployment : DeploymentConfiguration) (transaction : BitcoinTransaction)
    (output : BitcoinOutput) (script : Bytes) :
    inspectCandidate deployment transaction output script ≠ .none ∧
      ∀ markerOutput, inspectCandidate deployment transaction output script ≠
        .invalid .MULTIPLE_MARKERS markerOutput := by
  unfold inspectCandidate
  cases hparse : parseMarkerScript script deployment.networkCode with
  | error reason => simpa using parseMarkerScript_ne_multiple hparse
  | ok marker =>
    cases marker with
    | init => dsimp only; split_ifs <;> simp
    | create => dsimp only; split_ifs <;> simp
    | mark => dsimp only; split_ifs <;> simp
    | rotate => dsimp only; split_ifs <;> simp
    | close => dsimp only; split_ifs <;> simp

section

variable {deployment : DeploymentConfiguration} {initTxid : Hash} {transaction : BitcoinTransaction}
  {remaining : List Candidate}

theorem remainingOutputs_own
    (own : ∀ output ∈ candidateOutputs transaction, isForeign transaction initTxid output = false) :
    remainingOutputs transaction initTxid = candidateOutputs transaction :=
  List.filter_eq_self.mpr fun output ho => by simp [own output ho]

variable (hlength : (remainingOutputs transaction initTxid).length = remaining.length)

include hlength

/-- **Without a candidate** the only difference is a configured INIT without a marker. -/
theorem agrees_iff_none (hc : candidateOutputs transaction = []) :
    InspectionAgrees deployment initTxid transaction .none remaining ↔ Inspectable deployment initTxid transaction := by
  have hnone : remainingOutputs transaction initTxid = [] := (remainingOutputs_own (by simp [hc])).trans hc
  have hempty : remaining = [] := by
    rw [hnone] at hlength
    exact List.length_eq_zero_iff.mp hlength.symm
  constructor
  · intro agrees
    exact ⟨by simp [hc], fun hid => absurd hid (agrees.none.mp rfl).2, by simp [hc]⟩
  · intro inspectable
    exact ⟨⟨fun _ => ⟨hempty, fun hid => inspectable.marked hid hc⟩, fun _ => rfl⟩, by simp [hempty], by simp [hnone]⟩

/-- **A foreign candidate alone** is reported, while nothing remains of it. -/
theorem disagrees_of_foreign {output : BitcoinOutput} (hc : candidateOutputs transaction = [output])
    (foreign : isForeign transaction initTxid output = true) :
    ¬InspectionAgrees deployment initTxid transaction
        (inspectCandidate deployment transaction output (bytes output.scriptPubKeyHex)) remaining ∧
      ¬Inspectable deployment initTxid transaction := by
  have hnone : remainingOutputs transaction initTxid = [] := by
    rw [remainingOutputs, hc]
    simp [foreign]
  have hempty : remaining = [] := by
    rw [hnone] at hlength
    exact List.length_eq_zero_iff.mp hlength.symm
  constructor
  · intro agrees
    have hother : transaction.txid ≠ initTxid := (of_decide_eq_true foreign).2
    exact (inspectCandidate_ne _ _ _ _).1 (agrees.none.mpr ⟨hempty, hother⟩)
  · intro inspectable
    have htwo := inspectable.foreign ⟨output, by simp [hc], foreign⟩
    rw [hnone] at htwo
    simp at htwo

/-- **An own candidate alone**: the heights of the configured INIT make the difference. -/
theorem agrees_iff_own (configured : deployment.initTxid = some initTxid) {output : BitcoinOutput}
    (hc : candidateOutputs transaction = [output]) (own : isForeign transaction initTxid output = false) :
    InspectionAgrees deployment initTxid transaction
        (inspectCandidate deployment transaction output (bytes output.scriptPubKeyHex)) remaining ↔
      Inspectable deployment initTxid transaction := by
  obtain ⟨hsome, hsingle⟩ := inspectCandidate_ne deployment transaction output (bytes output.scriptPubKeyHex)
  have hone : remainingOutputs transaction initTxid = [output] := by
    rw [remainingOutputs_own (by simpa [hc] using own), hc]
  have hcount : remaining.length = 1 := by
    rw [← hlength, hone]
    rfl
  have hne : remaining ≠ [] := by
    rintro rfl
    cases hcount
  constructor
  · intro agrees
    refine ⟨?_, by simp [hc], ?_⟩
    · rintro ⟨other, ho, hforeign⟩
      rw [hc, List.mem_singleton] at ho
      rw [ho, own] at hforeign
      cases hforeign
    · intro other network openHeight closeHeight carrierValue refundDelay specHash hother hparse hspec hheights
      obtain rfl : output = other := by simpa [hc] using hother
      have hreported := (agrees.candidate output hone).mpr ⟨_, hparse, hspec, hheights⟩
      exact ((inspectCandidate_candidate configured own).mp hreported).2 _ _ _ _ _ _ hparse hspec hheights
  · intro inspectable
    refine ⟨?_, ?_, ?_⟩
    · exact iff_of_false hsome fun h => hne h.1
    · exact iff_of_false (fun ⟨markerOutput, h⟩ => hsingle markerOutput h) (by omega)
    · intro other hother
      obtain rfl : output = other := by simpa [hone] using hother
      refine (inspectCandidate_candidate configured own).trans (and_iff_left ?_)
      intro network openHeight closeHeight carrierValue refundDelay specHash hparse hspec hheights
      exact inspectable.heights output network openHeight closeHeight carrierValue refundDelay specHash hc hparse
        hspec hheights

/-- **Of several candidates** two must remain. -/
theorem agrees_iff_several {first second : BitcoinOutput} {rest : List BitcoinOutput}
    (hc : candidateOutputs transaction = first :: second :: rest) :
    InspectionAgrees deployment initTxid transaction (.invalid .MULTIPLE_MARKERS none) remaining ↔
      Inspectable deployment initTxid transaction := by
  constructor
  · intro agrees
    refine ⟨fun _ => ?_, by simp [hc], by simp [hc]⟩
    rw [hlength]
    exact agrees.multiple.mp ⟨_, rfl⟩
  · intro inspectable
    have htwo : 2 ≤ (remainingOutputs transaction initTxid).length := by
      by_cases hforeign : ∃ output ∈ candidateOutputs transaction, isForeign transaction initTxid output = true
      · exact inspectable.foreign hforeign
      · rw [remainingOutputs_own (by simpa using hforeign), hc]
        simp
    refine ⟨iff_of_false (by simp) fun h => ?_, iff_of_true ⟨_, rfl⟩ (hlength ▸ htwo), fun output hone => ?_⟩
    · rw [hlength, h.1] at htwo
      simp at htwo
    · rw [hone] at htwo
      simp at htwo

end

/-- **The inspection agrees with the reducer exactly** when an INIT marker of another transaction only comes with two
other markers, the configured INIT has a marker, and the heights are set where its INIT marker is otherwise accepted. -/
theorem inspectTransaction_agrees_iff {deployment : DeploymentConfiguration} {initTxid : Hash}
    (configured : deployment.initTxid = some initTxid) {transaction : BitcoinTransaction}
    (scripted : Scripted transaction) :
    (∃ observation remaining, inspectTransaction deployment transaction = .ok observation ∧
      remainingCandidates transaction initTxid = .ok remaining ∧
      InspectionAgrees deployment initTxid transaction observation remaining) ↔
      Inspectable deployment initTxid transaction := by
  obtain ⟨remaining, hremaining, hmatch⟩ := remainingCandidates_ok scripted initTxid
  have hinspect := inspectTransaction_eq deployment scripted
  have hlength := hmatch.length_eq
  have hagrees : (∃ observation remaining, inspectTransaction deployment transaction = .ok observation ∧
      remainingCandidates transaction initTxid = .ok remaining ∧
      InspectionAgrees deployment initTxid transaction observation remaining) ↔
      InspectionAgrees deployment initTxid transaction
        (inspectCandidates deployment transaction ((candidateOutputs transaction).map withScript)) remaining := by
    constructor
    · rintro ⟨observation, remaining', h, h', agrees⟩
      obtain rfl := Except.ok.inj (hinspect.symm.trans h)
      obtain rfl := Except.ok.inj (hremaining.symm.trans h')
      exact agrees
    · exact fun agrees => ⟨_, _, hinspect, hremaining, agrees⟩
  rw [hagrees]
  match hc : candidateOutputs transaction with
  | [] => exact agrees_iff_none hlength hc
  | [output] =>
    cases hforeign : isForeign transaction initTxid output with
    | true =>
      obtain ⟨disagrees, refused⟩ := disagrees_of_foreign hlength hc hforeign
      exact iff_of_false disagrees refused
    | false => exact agrees_iff_own hlength configured hc hforeign
  | first :: second :: rest => exact agrees_iff_several hlength hc

/-- A deployment without heights. -/
def sampleDeployment : DeploymentConfiguration where
  networkCode := .mainnet
  initTxid := some (sampleHash 1)
  initHeight := none
  openHeight := none
  closeHeight := none
  specHash := Hash.zero
  ns := some Hash.zero

/-- The marker of a CREATE is read the same way. -/
theorem inspectTransaction_agrees_create : ∃ observation remaining,
    inspectTransaction sampleDeployment (createTransaction (sampleHash 3) (sampleHash 9)) = .ok observation ∧
      remainingCandidates (createTransaction (sampleHash 3) (sampleHash 9)) (sampleHash 1) = .ok remaining ∧
      InspectionAgrees sampleDeployment (sampleHash 1) (createTransaction (sampleHash 3) (sampleHash 9)) observation remaining := by
  have hcandidates : candidateOutputs (createTransaction (sampleHash 3) (sampleHash 9)) = [⟨0, 0, createScript⟩] := by decide +kernel
  have hparse : parseMarkerScript (bytes createScript) .mainnet = .ok (.create 0 Hash.zero.bytes) := by decide +kernel
  have hown : isForeign (createTransaction (sampleHash 3) (sampleHash 9)) (sampleHash 1) ⟨0, 0, createScript⟩ = false := by
    decide +kernel
  have hscript : toHex (bytes createScript) = createScript := by decide +kernel
  refine (inspectTransaction_agrees_iff rfl ?_).mpr ⟨?_, by rw [hcandidates]; simp, ?_⟩
  · intro output ho
    simp only [createTransaction, List.mem_cons, List.not_mem_nil, or_false] at ho
    rcases ho with rfl | rfl
    · exact ⟨_, hscript.symm⟩
    · exact ⟨[], rfl⟩
  · rintro ⟨output, ho, hforeign⟩
    rw [hcandidates, List.mem_singleton] at ho
    rw [ho, hown] at hforeign
    cases hforeign
  · intro output network openHeight closeHeight carrierValue refundDelay specHash ho hinit
    rw [hcandidates, List.singleton_inj] at ho
    subst ho
    rw [show sampleDeployment.networkCode = .mainnet from rfl, hparse] at hinit
    cases hinit

/-- A transaction with the INIT marker of another deployment. -/
def foreignTransaction : BitcoinTransaction :=
  { spendTransaction (sampleHash 3) ⟨sampleHash 9, 0⟩ with outputs := [⟨0, 0, initScript⟩] }

/-- Nothing remains of it for the reducer, and it is reported as invalid. -/
theorem inspectTransaction_foreign : ¬∃ observation remaining,
    inspectTransaction sampleDeployment foreignTransaction = .ok observation ∧
      remainingCandidates foreignTransaction (sampleHash 1) = .ok remaining ∧
      InspectionAgrees sampleDeployment (sampleHash 1) foreignTransaction observation remaining := by
  rintro ⟨observation, remaining, hinspect, hremaining, agrees⟩
  have hreported : inspectTransaction sampleDeployment foreignTransaction =
      .ok (.invalid .WRONG_NAMESPACE (some 0)) := by decide +kernel
  have hempty : remainingCandidates foreignTransaction (sampleHash 1) = .ok [] := by decide +kernel
  obtain rfl := Except.ok.inj (hreported.symm.trans hinspect)
  obtain rfl := Except.ok.inj (hempty.symm.trans hremaining)
  exact absurd (agrees.none.mpr ⟨rfl, by decide⟩) (by simp)

end IndexTandem.Protocol
