/-
  The provider-neutral vocabulary every other module shares (`vibecoder-domain`).

  A Rust `String` is a `String` here, and `str::len` is its length in UTF-8 bytes.  The text
  predicates the validators use (`str::trim`, `char::is_control`, `contains`) are defined on
  the list of characters, so that a test can compute them.

  Left out: the `Debug`/`Serialize` derivations, and `BackgroundProgress.percent`, a float that
  no function of the model reads.
-/
import Mathlib.Data.List.Basic
import Mathlib.Order.Basic

namespace VibeCoder

/-! ## Errors -/

/-- `VibeCoderError`: one constructor a component, the payload is the stable code or prose. -/
inductive VibeCoderError where
  | invalidRequest (message : String)
  | agent (message : String)
  | gateway (message : String)
  | routing (message : String)
  | config (message : String)
  | secret (message : String)
  | workspace (message : String)
  | command (message : String)
  | process (message : String)
  | persistence (message : String)
  | checkpoint (message : String)
  | build (message : String)
  | missingCapability (component capability : String)
  | cancelled
  deriving DecidableEq, Repr

/-- `vibecoder_domain::Result`. -/
abbrev Result (α : Type) := Except VibeCoderError α

/-! ## Text -/

/-- Unicode `White_Space`, the characters `str::trim` removes. -/
def isWhitespace (c : Char) : Bool :=
  let n := c.toNat
  (9 ≤ n && n ≤ 13) || n == 0x20 || n == 0x85 || n == 0xA0 || n == 0x1680 ||
    (0x2000 ≤ n && n ≤ 0x200A) || n == 0x2028 || n == 0x2029 || n == 0x202F ||
    n == 0x205F || n == 0x3000

/-- `char::is_control`: general category `Cc`. -/
def isControl (c : Char) : Bool :=
  c.toNat < 0x20 || (0x7F ≤ c.toNat && c.toNat ≤ 0x9F)

/-- `str::trim` on the characters. -/
def trimChars (cs : List Char) : List Char :=
  ((cs.dropWhile isWhitespace).reverse.dropWhile isWhitespace).reverse

/-- `value.trim().is_empty()`. -/
def blank (value : String) : Bool := (trimChars value.toList).isEmpty

/-- `value.trim() == value`. -/
def trimmed (value : String) : Bool := trimChars value.toList == value.toList

/-- `value.chars().any(char::is_control)`. -/
def hasControl (value : String) : Bool := value.toList.any isControl

/-- `value.contains('\0')`. -/
def hasNul (value : String) : Bool := value.toList.any (fun c => c.toNat == 0)

/-- `value.len()`: the number of UTF-8 bytes. -/
abbrev len (value : String) : Nat := value.utf8ByteSize

/-! ## Identities -/

/-- `ProjectId(Uuid)`: a 128-bit identifier. -/
structure ProjectId where
  uuid : BitVec 128
  deriving DecidableEq, Repr

/-- `ConversationId(Uuid)`. -/
structure ConversationId where
  uuid : BitVec 128
  deriving DecidableEq, Repr

/-- `SessionId(String)`; the field is public in the source, so nothing restricts it. -/
structure SessionId where
  value : String
  deriving DecidableEq, Repr

/-- `ModelRef`. -/
structure ModelRef where
  id : String
  displayName : Option String
  provider : Option String
  deriving DecidableEq, Repr

/-! ## Turns -/

/-- `PermissionDecision`. -/
inductive PermissionDecision where
  | allowOnce
  | allowSession
  | deny
  deriving DecidableEq, Repr

/-- `PermissionRequest`. -/
structure PermissionRequest where
  requestId : String
  sessionId : SessionId
  action : String
  reason : Option String
  deriving DecidableEq, Repr

/-- `TokenUsage`. -/
structure TokenUsage where
  input : Nat
  output : Nat
  cacheReadInput : Option Nat
  deriving DecidableEq, Repr

/-- `AgentEvent`, the normalized events of a running turn. -/
inductive AgentEvent where
  | textDelta (text : String)
  | messageAccepted
  | toolStarted (tool callId : String)
  | toolFinished (tool callId : String) (ok : Bool) (output : String) (error : Option String)
  | backgroundProgress (taskId label summary : String) (done : Bool)
  | sessionStatus (status : String)
  | tokenUsage (usage : TokenUsage)
  | permissionRequired (request : PermissionRequest)
  | turnCompleted
  | warning (message : String)
  deriving DecidableEq, Repr

/-- `ToolCallResult`. -/
structure ToolCallResult where
  callId : String
  tool : String
  output : String
  error : Option String
  deriving DecidableEq, Repr

/-- `TurnResult`. -/
structure TurnResult where
  text : String
  cancelled : Bool
  toolCalls : List ToolCallResult
  usage : Option TokenUsage
  deriving DecidableEq, Repr

/-- `RuntimeCapabilities`. -/
structure RuntimeCapabilities where
  sessions : Bool
  streamingEvents : Bool
  permissions : Bool
  modelSelection : Bool
  fileTools : Bool
  commandTools : Bool
  deriving DecidableEq, Repr

end VibeCoder
