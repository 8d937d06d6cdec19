/-
  The persisted configuration of the backend and its checks (`vibecoder-config`, and the parts of
  `vibecoder-agent-jcode`, `vibecoder-gateway-omniroute` and `vibecoder-secrets` it is made of).

  A `PathBuf` is text here: the configuration is read from JSON.  The reader of URLs is a parameter,
  as in the model of the gateway.
-/
import VibeCoder.Gateway.BaseUrl
import VibeCoder.Routing

namespace VibeCoder.Config

open Gateway.BaseUrl (UrlCrate Url validateAndNormalizeBaseUrl invalid)
open Gateway (refuse)

/-- `config_error`. -/
def configError (code : String) : VibeCoderError := .config code

/-! ## The agent -/

def maxTimeoutMs : Nat := 10 * 60 * 1000

/-- `JcodeConnectionMode`. -/
inductive JcodeConnectionMode where
  | shared (socketPath : Option String) (ensureRuntime : Bool)
  | private_ (jcodeHome binary : Option String) (inheritLogins : Bool)
      (startupTimeoutMs cleanupTimeoutMs : UInt64)
  deriving DecidableEq, Repr

/-- `JcodeModelGatewayBridge`, with its only variant. -/
inductive JcodeModelGatewayBridge where
  | vibeCoderOmniRouteLoopbackV1
  deriving DecidableEq, Repr

/-- `JcodeConnectionConfig`. -/
structure JcodeConnectionConfig where
  clientName : String
  requestTimeoutMs : UInt64
  connection : JcodeConnectionMode
  modelGatewayBridge : Option JcodeModelGatewayBridge
  deriving DecidableEq, Repr

/-- `validate_timeout`. -/
def validateTimeout (name : String) (value : UInt64) : Result Unit :=
  if value = 0 then .error (.invalidRequest (name ++ " must be greater than zero"))
  else if value.toNat > maxTimeoutMs then
    .error (.invalidRequest (name ++ " cannot exceed 600000 ms"))
  else .ok ()

/-- `path.as_ref().is_some_and(|path| path.as_os_str().is_empty())`. -/
def emptyPath (path : Option String) : Bool := path == some ""

/-- The match on the connection. -/
def JcodeConnectionMode.validate : JcodeConnectionMode → Result Unit
  | .shared none _ => .ok ()
  | .shared (some path) ensureRuntime => do
    refuse (path = "") (.invalidRequest "Jcode socket_path cannot be empty")
    refuse (ensureRuntime = true)
      (.invalidRequest "custom Jcode socket_path requires ensure_runtime=false")
  | .private_ jcodeHome binary _ startupTimeoutMs cleanupTimeoutMs => do
    refuse (emptyPath jcodeHome = true) (.invalidRequest "Jcode jcode_home cannot be empty")
    refuse (emptyPath binary = true) (.invalidRequest "Jcode binary path cannot be empty")
    validateTimeout "startup_timeout_ms" startupTimeoutMs
    validateTimeout "cleanup_timeout_ms" cleanupTimeoutMs

/-- `matches!(&self.connection, JcodeConnectionMode::Private { .. })`. -/
def JcodeConnectionMode.isPrivate : JcodeConnectionMode → Bool
  | .shared .. => false
  | .private_ .. => true

/-- `JcodeConnectionConfig::validate`. -/
def JcodeConnectionConfig.validate (config : JcodeConnectionConfig) : Result Unit := do
  let clientName := trimChars config.clientName.toList
  refuse (clientName = []) (.invalidRequest "Jcode client_name cannot be empty")
  refuse (Chars.byteLen clientName > 128)
    (.invalidRequest "Jcode client_name cannot exceed 128 bytes")
  validateTimeout "request_timeout_ms" config.requestTimeoutMs
  refuse (config.modelGatewayBridge.isSome = true ∧ config.connection.isPrivate = false)
    (.invalidRequest "Jcode model gateway bridge requires a private runtime")
  config.connection.validate

/-! ## The gateway -/

def minRequestTimeoutMs : Nat := 100
def maxRequestTimeoutMs : Nat := 300000
def minMaxResponseBytes : Nat := 1024
def maxMaxResponseBytes : Nat := 32 * 1024 * 1024

/-- `OmniRouteConfig`. -/
structure OmniRouteConfig where
  baseUrl : String
  requestTimeoutMs : UInt64
  maxResponseBytes : UInt64
  deriving DecidableEq, Repr

/-- `ValidatedOmniRouteConfig`. -/
structure ValidatedOmniRouteConfig where
  apiBase : Url
  requestTimeoutMs : UInt64
  maxResponseBytes : UInt64

/-- `validated`. -/
def OmniRouteConfig.validated (crate : UrlCrate) (config : OmniRouteConfig) :
    Result ValidatedOmniRouteConfig := do
  refuse (config.requestTimeoutMs.toNat < minRequestTimeoutMs ∨
      config.requestTimeoutMs.toNat > maxRequestTimeoutMs)
    (invalid "OmniRoute request_timeout_ms is outside the allowed range")
  refuse (config.maxResponseBytes.toNat < minMaxResponseBytes ∨
      config.maxResponseBytes.toNat > maxMaxResponseBytes)
    (invalid "OmniRoute max_response_bytes is outside the allowed range")
  let apiBase ← validateAndNormalizeBaseUrl crate config.baseUrl.toList
  return {
    apiBase := apiBase
    requestTimeoutMs := config.requestTimeoutMs
    maxResponseBytes := config.maxResponseBytes }

/-- `OmniRouteConfig::validate`. -/
def OmniRouteConfig.validate (crate : UrlCrate) (config : OmniRouteConfig) : Result Unit :=
  (config.validated crate).map (fun _ => ())

/-! ## The credential -/

def maxSecretNameBytes : Nat := 128

/-- `secret_error`. -/
def secretError (code : String) : VibeCoderError := .secret code

/-- `SecretSource`. -/
inductive SecretSource where
  | appSecureStore
  | environment
  deriving DecidableEq, Repr

/-- `SecretReference`. -/
structure SecretReference where
  source : SecretSource
  name : String
  deriving DecidableEq, Repr

/-- `byte.is_ascii_control()`, of the bytes of a text. -/
def asciiControl (c : Char) : Bool := c.toNat < 0x20 || c.toNat == 0x7F

/-- The match of `validate_reference_name` on the source. -/
def allowedName (source : SecretSource) (name : List Char) : Bool :=
  match source with
  | .environment =>
    match name with
    | [] => false
    | first :: rest => (first == '_' || first.isAlpha) && rest.all (fun c => c == '_' || c.isAlphanum)
  | .appSecureStore =>
    name.all (fun c => c.isAlphanum || c == '_' || c == '-' || c == '.' || c == ':')

/-- `validate_reference_name`. -/
def validateReferenceName (source : SecretSource) (value : String) : Result Unit := do
  refuse (value.isEmpty = true ∨ len value > maxSecretNameBytes ∨ trimmed value = false ∨
      value.toList.any asciiControl = true)
    (secretError "secret_reference_name_invalid")
  refuse (allowedName source value.toList = false) (secretError "secret_reference_name_invalid")

/-- `SecretReference::validate`. -/
def SecretReference.validate (reference : SecretReference) : Result Unit :=
  validateReferenceName reference.source reference.name

/-! ## The whole -/

/-- `AgentSection`; its kind has one variant. -/
structure AgentSection where
  config : JcodeConnectionConfig
  deriving DecidableEq, Repr

/-- `ModelGatewaySection`; its kind has one variant. -/
structure ModelGatewaySection where
  config : OmniRouteConfig
  credentialRef : Option SecretReference
  deriving DecidableEq, Repr

/-- `WorkspaceSection`; its kind has one variant. -/
structure WorkspaceSection where
  root : String
  deriving DecidableEq, Repr

/-- `BackendConfig`. -/
structure BackendConfig where
  agent : AgentSection
  modelGateway : ModelGatewaySection
  workspace : WorkspaceSection
  routing : ModelRoutePolicyConfig
  deriving DecidableEq, Repr

/-- `BackendConfig::validate`. -/
def BackendConfig.validate (crate : UrlCrate) (config : BackendConfig) : Result Unit := do
  config.agent.config.validate
  config.modelGateway.config.validate crate
  match config.modelGateway.credentialRef with
  | some reference => reference.validate
  | none => pure ()
  refuse (config.workspace.root = "") (configError "workspace_root_empty")
  config.routing.validate

end VibeCoder.Config
