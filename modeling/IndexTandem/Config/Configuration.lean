import IndexTandem.Agreement.AgreementQuery

/-!
# The deployment in the environment

`loadConfiguration` reads the deployment from the environment of the process. The namespace is
not an option of its own: it is computed from the network, the INIT and the spec hash, and a
configured one has to be the same. So the protocol id and the namespace of a configuration
that was loaded name the same INIT (`loadDeployment_ok`).
-/

namespace IndexTandem.Config

open Library Protocol Indexer Agreement

/-! ### Reading the environment -/

/-- `NodeJS.ProcessEnv`. -/
abbrev Env := String → Option String

/-- A character that `trim()` removes at the ends. -/
def isSpace (c : Char) : Bool :=
  c.toNat ∈ [0x09, 0x0a, 0x0b, 0x0c, 0x0d, 0x20, 0xa0, 0x1680, 0x2028, 0x2029, 0x202f, 0x205f, 0x3000, 0xfeff] ||
    (0x2000 ≤ c.toNat && c.toNat ≤ 0x200a)

/-- `value.trim()`. -/
def trim (value : String) : String :=
  String.ofList ((value.toList.dropWhile isSpace).reverse.dropWhile isSpace).reverse

/-- `value.toLowerCase()`, for the characters that the patterns below accept. -/
def toLowerCase (value : String) : String := String.ofList (value.toList.map Char.toLower)

/-- `optional(env, key)`. -/
def optional (env : Env) (key : String) : Option String := ((env key).map trim).filter fun value => value ≠ ""

/-- `required(env, key)`. -/
def required (env : Env) (key : String) : Except String String := orError (key ++ " is required") (optional env key)

/-- The hash that a text of 64 lowercase digits is. -/
def parseHash (value : String) : Option Hash :=
  if isHex 32 value then Hash.ofBytes? (bytes value) else none

/-- `hash(env, key)`. -/
def hash (env : Env) (key : String) : Except String Hash := do
  let value ← required env key
  orError (key ++ " must be 32-byte lowercase hex") (parseHash (toLowerCase value))

/-- `optionalHash(env, key)`. -/
def optionalHash (env : Env) (key : String) : Except String (Option Hash) :=
  match optional env key with
  | none => pure none
  | some value => do
    let value ← orError (key ++ " must be 32-byte lowercase hex") (parseHash (toLowerCase value))
    pure (some value)

/-- `optionalInteger(env, key)`. -/
def optionalInteger (env : Env) (key : String) : Except String (Option ℕ) :=
  match optional env key with
  | none => pure none
  | some source => do
    ensure ((source.toList.all fun c => '0' ≤ c && c ≤ '9') = true) (key ++ " must be an integer")
    ensure (decimal source ≤ Agreement.MAX_SAFE_INTEGER) (key ++ " must be a nonnegative safe integer")
    pure (some (decimal source))

/-- `parseNetwork(value)`. -/
def parseNetwork (value : String) : Except String NetworkCode :=
  orError ("unsupported TANDEM_NETWORK: " ++ value)
    ([NetworkCode.mainnet, .signet, .testnet4, .regtest].find? fun network => networkName network = value)

/-! ### The namespace -/

/-- `FOUNDING_WINDOW`, in blocks. -/
def FOUNDING_WINDOW : ℕ := 4320

/-- `INIT_LEAD`, in blocks. -/
def INIT_LEAD : ℕ := 1008

/-- `namespaceCommitment(network, initTxid, specHash)`. -/
def namespaceCommitment (sha256 : Bytes → Hash) (network : NetworkCode) (initTxid specHash : Hash) : Hash :=
  sha256 (ascii "TANDEM/NAMESPACE\x00" ++ [UInt8.ofNat network.code] ++ wire32 initTxid ++ specHash.bytes)

/-! ### The deployment -/

/-- The heights that the operator asserts fit together. -/
def checkHeights (initTxid : Option Hash) (initHeight openHeight closeHeight : Option ℕ) : Except String Unit := do
  ensure (initTxid.isSome ∨ (initHeight = none ∧ openHeight = none ∧ closeHeight = none))
    "INIT heights require TANDEM_INIT_TXID"
  ensure (openHeight.isSome = closeHeight.isSome) "TANDEM_OPEN_HEIGHT and TANDEM_CLOSE_HEIGHT are set together"
  ensure (∀ opening ∈ openHeight, closeHeight = some (opening + FOUNDING_WINDOW))
    "TANDEM_CLOSE_HEIGHT must equal open height plus 4320"
  ensure (∀ init ∈ initHeight, ∀ opening ∈ openHeight, init + INIT_LEAD ≤ opening)
    "TANDEM_INIT_HEIGHT must precede the open height by at least 1008 blocks"

/-- `loadConfiguration(env).deployment`. -/
def loadDeployment (sha256 : Bytes → Hash) (env : Env) : Except String DeploymentConfiguration := do
  let network ← required env "TANDEM_NETWORK"
  let networkCode ← parseNetwork network
  let initTxid ← optionalHash env "TANDEM_INIT_TXID"
  let initHeight ← optionalInteger env "TANDEM_INIT_HEIGHT"
  let openHeight ← optionalInteger env "TANDEM_OPEN_HEIGHT"
  let closeHeight ← optionalInteger env "TANDEM_CLOSE_HEIGHT"
  let specHash ← hash env "TANDEM_SPEC_HASH"
  let configuredNamespace ← optionalHash env "TANDEM_NAMESPACE"
  checkHeights initTxid initHeight openHeight closeHeight
  let ns := initTxid.map fun txid => namespaceCommitment sha256 networkCode txid specHash
  ensure (configuredNamespace.isSome → configuredNamespace = ns)
    "TANDEM_NAMESPACE does not match the configured INIT tuple"
  pure {
    networkCode := networkCode
    initTxid := initTxid
    initHeight := initHeight
    openHeight := openHeight
    closeHeight := closeHeight
    specHash := specHash
    ns := ns }

/-- **The namespace is that of the INIT** and the spec hash that are configured with it. -/
theorem loadDeployment_ok {sha256 : Bytes → Hash} {env : Env} {deployment : DeploymentConfiguration}
    (h : loadDeployment sha256 env = .ok deployment) :
    deployment.ns = deployment.initTxid.map fun txid =>
      namespaceCommitment sha256 deployment.networkCode txid deployment.specHash := by
  obtain ⟨_, -, h⟩ := bind_eq_ok.mp h
  obtain ⟨_, -, h⟩ := bind_eq_ok.mp h
  obtain ⟨_, -, h⟩ := bind_eq_ok.mp h
  obtain ⟨_, -, h⟩ := bind_eq_ok.mp h
  obtain ⟨_, -, h⟩ := bind_eq_ok.mp h
  obtain ⟨_, -, h⟩ := bind_eq_ok.mp h
  obtain ⟨_, -, h⟩ := bind_eq_ok.mp h
  obtain ⟨_, -, h⟩ := bind_eq_ok.mp h
  obtain ⟨_, -, h⟩ := bind_eq_ok.mp h
  obtain ⟨_, -, h⟩ := bind_eq_ok.mp h
  obtain rfl := pure_eq_ok.mp h
  rfl

theorem binding_of_loaded {sha256 : Bytes → Hash} {env : Env} {config : SyncConfiguration} {binding : Binding}
    (h : loadDeployment sha256 env = .ok config.deployment) (hb : config.binding = some binding) :
    config.deployment.initTxid = some binding.initTxid ∧
      binding.ns = namespaceCommitment sha256 binding.networkCode binding.initTxid binding.specHash ∧
      protocolId config.deployment =
        some ("tndm:" ++ networkName binding.networkCode ++ ":" ++ binding.initTxid.text) := by
  have hns := loadDeployment_ok h
  unfold SyncConfiguration.binding at hb
  cases hi : config.deployment.initTxid with
  | none => simp [hi] at hb
  | some txid =>
    rw [hi, Option.map_some] at hns
    simp only [hi, hns, Option.some.injEq] at hb
    subst hb
    exact ⟨rfl, rfl, by rw [protocolId, hi, Option.map_some]⟩

/-! ### An environment for every deployment -/

/-- The variables of a deployment without asserted heights. -/
def deploymentEnv (network : NetworkCode) (initTxid specHash : Hash) : Env := fun key =>
  if key = "TANDEM_NETWORK" then some (networkName network)
  else if key = "TANDEM_INIT_TXID" then some initTxid.text
  else if key = "TANDEM_SPEC_HASH" then some specHash.text
  else none

theorem trim_eq_self {value : String} (h : ∀ c ∈ value.toList, isSpace c = false) : trim value = value := by
  have hdrop : ∀ l : List Char, (∀ c ∈ l, isSpace c = false) → l.dropWhile isSpace = l := by
    intro l hl
    cases l with
    | nil => rfl
    | cons c rest => rw [List.dropWhile_cons_of_neg (by simp [hl c List.mem_cons_self])]
  unfold trim
  rw [hdrop _ h, hdrop _ fun c hc => h c (List.mem_reverse.mp hc), List.reverse_reverse, String.ofList_toList]

theorem text_ne_empty (h : Hash) : h.text ≠ "" := by
  intro he
  have hlength := h.isHex_text.1
  rw [he] at hlength
  cases hlength

theorem parseHash_text (h : Hash) : parseHash (toLowerCase h.text) = some h := by
  unfold toLowerCase
  rw [map_toLower_hexDigits h.isHex_text.2, String.ofList_toList]
  simp [parseHash, isHex_text, Hash.ofBytes?, h.length_bytes]

theorem trim_text (h : Hash) : trim h.text = h.text := by
  have hall : (hexDigits.all fun c => isSpace c = false) = true := by decide
  have hspace : ∀ c ∈ hexDigits, isSpace c = false := by simpa using hall
  exact trim_eq_self fun c hc => hspace c (h.isHex_text.2 c hc)

/-- **Every deployment can be configured.** -/
theorem loadDeployment_env (sha256 : Bytes → Hash) (network : NetworkCode) (initTxid specHash : Hash) :
    loadDeployment sha256 (deploymentEnv network initTxid specHash) = .ok ⟨network, some initTxid, none, none, none,
      specHash, some (namespaceCommitment sha256 network initTxid specHash)⟩ := by
  have hname : trim (networkName network) = networkName network ∧ networkName network ≠ "" := by
    cases network <;> decide
  have hnetwork : parseNetwork (networkName network) = .ok network := by
    cases network <;> rfl
  have h₁ : optional (deploymentEnv network initTxid specHash) "TANDEM_NETWORK" = some (networkName network) := by
    simp [optional, deploymentEnv, hname, Option.filter_some]
  have h₂ : optional (deploymentEnv network initTxid specHash) "TANDEM_INIT_TXID" = some initTxid.text := by
    simp [optional, deploymentEnv, trim_text, text_ne_empty, Option.filter_some]
  have h₃ : optional (deploymentEnv network initTxid specHash) "TANDEM_SPEC_HASH" = some specHash.text := by
    simp [optional, deploymentEnv, trim_text, text_ne_empty, Option.filter_some]
  have hnone : ∀ key ∈ ["TANDEM_INIT_HEIGHT", "TANDEM_OPEN_HEIGHT", "TANDEM_CLOSE_HEIGHT", "TANDEM_NAMESPACE"],
      optional (deploymentEnv network initTxid specHash) key = none := by
    simp [optional, deploymentEnv]
  simp only [List.forall_mem_cons] at hnone
  obtain ⟨h₄, h₅, h₆, h₇, -⟩ := hnone
  simp only [loadDeployment, required, hash, optionalHash, optionalInteger, h₁, h₂, h₃, h₄, h₅, h₆, h₇, orError]
  simp [hnetwork, parseHash_text, checkHeights, ensure, bind, Except.bind, pure, Except.pure]

end IndexTandem.Config
