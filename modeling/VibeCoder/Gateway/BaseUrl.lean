/-
  The base URL of the gateway (`config.rs`, `client.rs`).

  Checks on the raw text and checks on the parsed URL together are to make sure that the parser has
  changed nothing about the path.  The `url` crate is a parameter that follows the URL standard
  (`UrlCrate.Standard`).

  1. **The checks** — `validate_iff`: what an accepted text and its URL look like.
  2. **The raw text** — the authority is looked for after the first `://`; `Canonical`: this is where
     the scheme ends.
  3. **Dot segments** — `hasDotSegment_iff`: the textual check finds the literal dot segments.
  4. **The result** — `Checks.outcome`: the path that is set is a settled one, which ends in `/v1/`.
-/
import VibeCoder.Gateway.ChatRequest
import VibeCoder.Lib.Chars
import VibeCoder.Lib.UrlStandard

namespace VibeCoder.Gateway.BaseUrl

open UrlStandard

/-! ## The `url` crate -/

/-- `Host`. -/
inductive Host where
  | domain (name : List Char)
  | ipv4 (first second third fourth : UInt8)
  | ipv6 (address : BitVec 128)
  deriving DecidableEq

/-- `Url`. -/
abbrev Url : Type := UrlStandard.Url Host

/-- What is used of the crate: `Url::parse`, `set_path`, `join` and `as_str`. -/
structure UrlCrate where
  parse : List Char → Option Url
  setPath : Url → List Char → Url
  join : Url → List Char → Option Url
  asStr : Url → List Char

/-- `byte.is_ascii_control() || byte.is_ascii_whitespace()`. -/
def controlOrWhitespace (c : Char) : Bool := c.toNat ≤ 0x20 || c.toNat == 0x7F

/-- A character that the standard's parser takes as it is. -/
def ordinary (c : Char) : Bool := !controlOrWhitespace c && c != '\\'

/-- The two special schemes that are used here. -/
def Special (scheme : List Char) : Prop := scheme = "http".toList ∨ scheme = "https".toList

/-- A relative path. -/
structure Relative (text : List Char) : Prop where
  nonempty : text ≠ []
  ordinary : ∀ c ∈ text, ordinary c = true ∧ tails c = false
  noScheme : ':' ∉ text
  noSlash : text.head? ≠ some '/'

/-- **The crate follows the standard**, on texts without blanks, controls and backslashes. -/
structure UrlCrate.Standard (crate : UrlCrate) (P : Parts Host) : Prop where
  parts : P.Lawful
  parse_scheme : ∀ raw url, crate.parse raw = some url →
    ∃ rest, splitScheme raw = some (url.scheme, rest)
  parse_special : ∀ raw scheme rest, (∀ c ∈ raw, ordinary c = true) →
    splitScheme raw = some (scheme, rest) → Special scheme →
      crate.parse raw = parseHierarchical P scheme rest
  setPath : ∀ (url : Url) text, Special url.scheme →
    (∀ c ∈ text, ordinary c = true ∧ tails c = false) → text.head? = some '/' →
      crate.setPath url text = { url with path := readPath P.encodePath text }
  asStr : ∀ url : Url, Special url.scheme → crate.asStr url = writeUrl P url
  join : ∀ (url : Url) text, Special url.scheme → Relative text →
    crate.join url text = some (joinPath P url text)

/-! ## Validation -/

/-- `invalid`. -/
def invalid (message : String) : VibeCoderError := .invalidRequest message

/-- `str::split_once`, with a separator that is not empty. -/
def splitOnce (separator : List Char) : List Char → Option (List Char × List Char)
  | [] => none
  | c :: cs =>
    if separator.isPrefixOf (c :: cs) then some ([], (c :: cs).drop separator.length)
    else (splitOnce separator cs).map (fun parts => (c :: parts.1, parts.2))

/-- `raw_authority`. -/
def rawAuthority (raw : List Char) : Option (List Char) :=
  (splitOnce "://".toList raw).map (fun parts => parts.2.takeWhile (fun c => !stops c))

/-- The test of `has_raw_dot_segment` on a path. -/
def hasDotSegment (path : List Char) : Bool :=
  path == "/.".toList || path == "/..".toList || "/.".toList.isSuffixOf path ||
    "/..".toList.isSuffixOf path || Chars.contains "/./".toList path ||
    Chars.contains "/../".toList path

/-- `has_raw_dot_segment`. -/
def hasRawDotSegment (raw : List Char) : Bool :=
  let pathish := ((splitOnce "://".toList raw).map Prod.snd).getD raw
  let path := pathish.dropWhile (· != '/')
  if path.isEmpty then false else hasDotSegment path

/-- `address.is_loopback()`. -/
def isIpv4Loopback (first : UInt8) : Bool := first == 127

/-- `address.is_loopback()`. -/
def isIpv6Loopback (address : BitVec 128) : Bool := address == 1

/-- `is_loopback_host`. -/
def isLoopbackHost : Option Host → Bool
  | some (.domain name) => name.map Char.toLower == "localhost".toList
  | some (.ipv4 first _ _ _) => isIpv4Loopback first
  | some (.ipv6 address) => isIpv6Loopback address
  | none => false

/-- The match on the scheme. -/
def checkScheme (url : Url) : Result Unit :=
  if url.scheme = "https".toList then .ok ()
  else if url.scheme = "http".toList then
    refuse (isLoopbackHost url.authority.host = false) (invalid
      "plain HTTP is allowed only for a loopback OmniRoute host; remote gateways require HTTPS")
  else .error (invalid "OmniRoute base_url must use http:// or https://")

/-- `normalized_path`. -/
def normalizedPath (path : List Char) : Result (List Char) :=
  if path = "/".toList ∨ path = [] then .ok "/v1/".toList
  else if "/v1".toList.isSuffixOf path then .ok (path ++ ['/'])
  else if "/v1/".toList.isSuffixOf path then .ok path
  else .error (invalid "OmniRoute base_url must be the API root ending in /v1 (or a bare origin)")

/-- `.ok_or_else(..)?`. -/
def required {α : Type} (message : String) : Option α → Result α
  | some a => .ok a
  | none => .error (invalid message)

section

variable (crate : UrlCrate)

/-- `validate_and_normalize_base_url`. -/
def validateAndNormalizeBaseUrl (raw : List Char) : Result Url := do
  refuse (raw = [] ∨ Chars.byteLen raw > 2048 ∨ raw.any controlOrWhitespace = true)
    (invalid "OmniRoute base_url must be a bounded URL without whitespace or control characters")
  refuse ('\\' ∈ raw ∨ hasRawDotSegment raw = true)
    (invalid "OmniRoute base_url contains a non-canonical path representation")
  let authority ← required "OmniRoute base_url must contain a canonical // authority"
    (rawAuthority raw)
  refuse (authority = []) (invalid "OmniRoute base_url must contain a non-empty URL authority")
  refuse ('@' ∈ authority) (invalid "OmniRoute base_url must not contain URL user-info")
  let url ← required "OmniRoute base_url is not a valid absolute URL" (crate.parse raw)
  refuse (url.cannotBeABase = true ∨ url.authority.host = none)
    (invalid "OmniRoute base_url must contain an absolute network host")
  refuse (url.authority.username ≠ [] ∨ url.authority.password ≠ none)
    (invalid "OmniRoute base_url must not contain username or password credentials")
  refuse (url.query ≠ none ∨ url.fragment ≠ none)
    (invalid "OmniRoute base_url must not contain a query string or fragment")
  refuse ('%' ∈ url.path)
    (invalid "OmniRoute base_url path must not rely on percent-encoded segments")
  refuse (url.authority.port = some 0) (invalid "OmniRoute base_url must not use network port 0")
  checkScheme url
  let normalized ← normalizedPath url.path
  refuse (normalized ≠ "/v1/".toList ∧ Chars.contains "//".toList normalized.dropLast = true)
    (invalid "OmniRoute base_url contains ambiguous empty path segments")
  pure (crate.setPath url normalized)

/-- `ApiEndpoint`. -/
inductive ApiEndpoint where
  | models
  | runtimeProfile
  | chatCompletions
  deriving DecidableEq, Repr

/-- `relative_path`. -/
def ApiEndpoint.relativePath : ApiEndpoint → String
  | .models => "models"
  | .runtimeProfile => "vibecoder/runtime-profile"
  | .chatCompletions => "chat/completions"

/-- `endpoint_url`. -/
def endpointUrl (apiBase : Url) (endpoint : ApiEndpoint) : Result Url :=
  match crate.join apiBase endpoint.relativePath.toList with
  | some url => .ok url
  | none => .error (Chat.gatewayError "endpoint_join_failed")

end

/-! ## What is accepted -/

/-- The checks on a text, its URL and the path that it is given. -/
structure Checks (crate : UrlCrate) (raw : List Char) (url : Url) (normalized : List Char) : Prop where
  some : raw ≠ []
  short : Chars.byteLen raw ≤ 2048
  ordinary : ∀ c ∈ raw, ordinary c = true
  undotted : hasRawDotSegment raw = false
  authority : ∃ authority, rawAuthority raw = .some authority ∧ authority ≠ [] ∧ '@' ∉ authority
  parsed : crate.parse raw = .some url
  base : url.cannotBeABase = false ∧ url.authority.host ≠ none
  anonymous : url.authority.username = [] ∧ url.authority.password = none
  bare : url.query = none ∧ url.fragment = none
  literal : '%' ∉ url.path
  port : url.authority.port ≠ .some 0
  scheme : checkScheme url = .ok ()
  path : normalizedPath url.path = .ok normalized
  single : normalized = "/v1/".toList ∨ Chars.contains "//".toList normalized.dropLast = false

theorem required_then_iff {α β : Type} {message : String} {value : Option α} {f : α → Result β}
    {b : β} : (required message value >>= f) = .ok b ↔ ∃ a, value = some a ∧ f a = .ok b := by
  rw [Result.bind_eq_ok]
  cases value with
  | none => exact ⟨(fun ⟨_, h, _⟩ => by cases h), (fun ⟨_, h, _⟩ => by cases h)⟩
  | some c =>
    constructor
    · rintro ⟨_, ⟨⟩, h⟩
      exact ⟨c, rfl, h⟩
    · rintro ⟨_, ⟨⟩, h⟩
      exact ⟨c, rfl, h⟩

theorem normalizedPath_then_iff {β : Type} {path : List Char} {f : List Char → Result β} {b : β} :
    (normalizedPath path >>= f) = .ok b ↔
      ∃ normalized, normalizedPath path = .ok normalized ∧ f normalized = .ok b :=
  Result.bind_eq_ok

variable {crate : UrlCrate} {P : Parts Host} {raw : List Char} {url result : Url}
variable {normalized : List Char}

/-- **The checks.** -/
theorem validate_iff : validateAndNormalizeBaseUrl crate raw = .ok result ↔
    ∃ url normalized, Checks crate raw url normalized ∧ result = crate.setPath url normalized := by
  have hordinary : (raw.any controlOrWhitespace = false ∧ '\\' ∉ raw) ↔
      ∀ c ∈ raw, ordinary c = true := by
    rw [List.any_eq_false]
    constructor
    · rintro ⟨hvisible, hslash⟩ c hc
      have hne : c ≠ '\\' := fun heq => hslash (heq ▸ hc)
      simp [ordinary, hvisible c hc, hne]
    · intro h
      refine ⟨fun c hc hbad => ?_, fun hmem => ?_⟩
      · have hc := h c hc
        simp [ordinary, hbad] at hc
      · have hc := h '\\' hmem
        simp [ordinary] at hc
  simp only [validateAndNormalizeBaseUrl, required_then_iff, normalizedPath_then_iff,
    Result.check_eq_ok, refuse_iff]
  constructor
  · rintro ⟨hsize, htext, authority, hauthority, hne, hat, url, hparsed, hbase, hanonymous, hbare,
      hliteral, hport, hscheme, normalized, hnormalized, hsingle, hresult⟩
    simp only [not_or, not_and_or, ne_eq, not_not, Bool.not_eq_true, Nat.not_lt, gt_iff_lt] at *
    obtain ⟨hsome, hshort, hvisible⟩ := hsize
    cases hresult
    exact ⟨url, normalized, ⟨hsome, hshort, hordinary.mp ⟨hvisible, htext.1⟩, htext.2,
      ⟨authority, hauthority, hne, hat⟩, hparsed, hbase, hanonymous, hbare, hliteral, hport, hscheme,
      hnormalized, hsingle⟩, rfl⟩
  · rintro ⟨url, normalized, h, rfl⟩
    obtain ⟨hvisible, hslash⟩ := hordinary.mpr h.ordinary
    obtain ⟨authority, hauthority, hne, hat⟩ := h.authority
    refine ⟨?_, ?_, authority, hauthority, hne, hat, url, h.parsed, ?_, ?_, ?_, h.literal, h.port,
      h.scheme, normalized, h.path, ?_, rfl⟩
    · simp only [not_or, Bool.not_eq_true, Nat.not_lt, gt_iff_lt]
      exact ⟨h.some, h.short, hvisible⟩
    · simp only [not_or, Bool.not_eq_true]
      exact ⟨hslash, h.undotted⟩
    · simp only [not_or, Bool.not_eq_true]
      exact h.base
    · simp only [not_or, ne_eq, not_not]
      exact h.anonymous
    · simp only [not_or, ne_eq, not_not]
      exact h.bare
    · simp only [not_and_or, ne_eq, not_not, Bool.not_eq_true]
      exact h.single

/-! ## The raw text -/

/-- The text around a separator. -/
theorem splitOnce_some {separator text before after : List Char}
    (h : splitOnce separator text = some (before, after)) :
    text = before ++ (separator ++ after) := by
  induction text generalizing before with
  | nil => cases h
  | cons c text ih =>
    rw [splitOnce] at h
    split at h
    · rename_i hprefix
      obtain ⟨rest, hrest⟩ := List.isPrefixOf_iff_prefix.mp hprefix
      cases h
      rw [← hrest, List.drop_left]
      rfl
    · obtain ⟨⟨before', after'⟩, hsplit, hparts⟩ := Option.map_eq_some_iff.mp h
      cases hparts
      rw [ih hsplit]
      rfl

/-- A separator is found at once after text without its first character. -/
theorem splitOnce_append {c : Char} {separator before : List Char} (h : c ∉ before)
    (after : List Char) :
    splitOnce (c :: separator) (before ++ (c :: separator ++ after)) = some (before, after) := by
  induction before with
  | nil =>
    have hprefix : (c :: separator).isPrefixOf (c :: (separator ++ after)) = true :=
      List.isPrefixOf_iff_prefix.mpr (List.prefix_append (c :: separator) after)
    have hdrop : (c :: (separator ++ after)).drop (c :: separator).length = after := by
      rw [← List.cons_append, List.drop_left]
    show splitOnce (c :: separator) (c :: (separator ++ after)) = _
    rw [splitOnce, if_pos hprefix, hdrop]
  | cons b before ih =>
    rw [List.mem_cons, not_or] at h
    have hno : ¬ (c :: separator).isPrefixOf (b :: before ++ (c :: separator ++ after)) = true := by
      intro hprefix
      obtain ⟨rest, hrest⟩ := List.isPrefixOf_iff_prefix.mp hprefix
      exact h.1 (List.cons.inj hrest).1
    rw [List.cons_append, splitOnce, ← List.cons_append, if_neg hno, ih h.2]
    rfl

/-- The scheme ends where the code looks for the authority: its colon is followed by two slashes. -/
def Canonical (raw : List Char) : Prop :=
  ∃ name after, raw = name ++ ("://".toList ++ after) ∧ ':' ∉ name

/-- The text of the path, as the parser finds it. -/
def rawPath (raw : List Char) : List Char :=
  match splitScheme raw with
  | some (_, rest) => afterAuthority rest
  | none => []

/-- What the parser has read. -/
structure Parsed (P : Parts Host) (raw rest : List Char) (url : Url) : Prop where
  split : splitScheme raw = some (url.scheme, rest)
  special : Special url.scheme
  authority : P.readAuthority url.scheme (authorityText rest) = some url.authority
  path : url.path = readPath P.encodePath (afterAuthority rest)
  untailed : ∀ c ∈ afterAuthority rest, tails c = false

theorem special_of_checkScheme (h : checkScheme url = .ok ()) :
    Special url.scheme ∧
      (url.scheme = "https".toList ∨ isLoopbackHost url.authority.host = true) := by
  rw [checkScheme] at h
  split at h
  · rename_i hhttps
    exact ⟨Or.inr hhttps, Or.inl hhttps⟩
  · split at h
    · rename_i hhttp
      rw [refuse_iff, Bool.not_eq_false] at h
      exact ⟨Or.inl hhttp, Or.inr h⟩
    · cases h

/-- A tail without query and fragment is empty. -/
theorem tail_eq_nil {tail : List Char} (hhead : ∀ c rest, tail = c :: rest → tails c = true)
    (hquery : queryText tail = none) (hfragment : fragmentText tail = none) : tail = [] := by
  cases tail with
  | nil => rfl
  | cons c rest =>
    have hc := hhead c rest rfl
    rw [tails, Bool.or_eq_true, beq_iff_eq, beq_iff_eq] at hc
    rcases hc with rfl | rfl
    · cases hquery
    · cases hfragment

theorem Checks.read (hs : crate.Standard P) (h : Checks crate raw url normalized) :
    ∃ rest, Parsed P raw rest url := by
  obtain ⟨rest, hsplit⟩ := hs.parse_scheme raw url h.parsed
  obtain ⟨hspecial, -⟩ := special_of_checkScheme h.scheme
  have hparse := hs.parse_special raw url.scheme rest h.ordinary hsplit hspecial
  rw [h.parsed] at hparse
  obtain ⟨authority, hread, hurl⟩ := Option.map_eq_some_iff.mp hparse.symm
  have hquery := h.bare.1
  have hfragment := h.bare.2
  rw [← hurl] at hquery hfragment
  have htail : (afterAuthority rest).dropWhile (fun c => !tails c) = [] := by
    refine tail_eq_nil (fun c more heq => ?_) (Option.map_eq_none_iff.mp hquery)
      (Option.map_eq_none_iff.mp hfragment)
    have hhead := List.head?_dropWhile_not (fun c => !tails c) (afterAuthority rest)
    rw [heq] at hhead
    simpa using hhead
  have huntailed : ∀ c ∈ afterAuthority rest, tails c = false := by
    intro c hc
    have hkeep := List.dropWhile_eq_nil_iff.mp htail c hc
    simpa using hkeep
  have htext : pathText rest = afterAuthority rest := by
    refine List.takeWhile_eq_self_iff.mpr (fun c hc => ?_)
    simp [huntailed c hc]
  refine ⟨rest, hsplit, hspecial, ?_, ?_, huntailed⟩
  · rw [← hurl] at hread ⊢
    exact hread
  · rw [← hurl, ← htext]

theorem Parsed.rawPath {rest : List Char} (h : Parsed P raw rest url) :
    rawPath raw = afterAuthority rest := by
  rw [BaseUrl.rawPath, h.split]

/-- The path starts with a slash, unless it is empty. -/
theorem Parsed.slash {rest : List Char} (h : Parsed P raw rest url) :
    afterAuthority rest = [] ∨ ∃ tail, afterAuthority rest = '/' :: tail := by
  cases hafter : afterAuthority rest with
  | nil => exact Or.inl rfl
  | cons c tail =>
    have hhead := List.head?_dropWhile_not (fun c => !stops c) (rest.dropWhile (· == '/'))
    rw [← afterAuthority, hafter] at hhead
    have hstop : stops c = true := by simpa using hhead
    have htail := h.untailed c (by rw [hafter]; exact List.mem_cons_self)
    rw [stops, Bool.or_assoc, ← tails, htail, Bool.or_false, beq_iff_eq] at hstop
    subst hstop
    exact Or.inr ⟨tail, rfl⟩

/-- What follows the scheme's colon in a canonical text. -/
theorem Canonical.slashes {scheme rest : List Char} (h : Canonical raw)
    (hsplit : splitScheme raw = some (scheme, rest)) :
    ∃ name after, raw = name ++ ("://".toList ++ after) ∧ ':' ∉ name ∧ rest = '/' :: '/' :: after := by
  obtain ⟨name, after, rfl, hname⟩ := h
  obtain ⟨name', hraw, hname', -, -⟩ := splitScheme_some hsplit
  refine ⟨name, after, rfl, hname, ?_⟩
  have hraw' : name ++ ':' :: '/' :: '/' :: after = name' ++ ':' :: rest := hraw
  have hkeep : ∀ n : List Char, ':' ∉ n → ∀ c ∈ n, (c != ':') = true := by
    intro n hn c hc
    rw [bne_iff_ne]
    rintro rfl
    exact hn hc
  have hdrop := congrArg (List.dropWhile (· != ':')) hraw'
  rw [List.dropWhile_append_of_pos (hkeep name hname),
    List.dropWhile_append_of_pos (hkeep name' hname')] at hdrop
  simpa using hdrop.symm

/-- In a text that is not canonical the first `://` stands behind the authority. -/
theorem slashes_of_not_canonical {rest : List Char} (h : Checks crate raw url normalized)
    (hsplit : splitScheme raw = some (url.scheme, rest)) (hnot : ¬ Canonical raw) :
    "//".toList <:+: afterAuthority rest := by
  obtain ⟨name, hraw, hname, -, -⟩ := splitScheme_some hsplit
  obtain ⟨authority, hauthority, -, -⟩ := h.authority
  obtain ⟨⟨before, after⟩, honce, -⟩ := Option.map_eq_some_iff.mp hauthority
  have hraw' : raw = before ++ ':' :: '/' :: '/' :: after := splitOnce_some honce
  have hrest : ∃ middle, rest = middle ++ ':' :: '/' :: '/' :: after := by
    rw [hraw] at hraw'
    rcases List.append_eq_append_iff.mp hraw' with ⟨middle, rfl, hmiddle⟩ | ⟨middle, rfl, hmiddle⟩
    · cases middle with
      | nil =>
        refine absurd ⟨name, after, ?_, hname⟩ hnot
        rw [hraw, hmiddle]
        rfl
      | cons c middle =>
        obtain ⟨-, hmiddle⟩ := List.cons.inj hmiddle
        exact ⟨middle, hmiddle⟩
    · cases middle with
      | nil =>
        refine absurd ⟨before, after, ?_, ?_⟩ hnot
        · rw [hraw, List.append_nil]
          exact congrArg (before ++ ·) hmiddle.symm
        · rw [List.append_nil] at hname
          exact hname
      | cons c middle =>
        obtain ⟨hcolon, -⟩ := List.cons.inj hmiddle
        refine absurd (List.mem_append_right before ?_) hname
        rw [hcolon]
        exact List.mem_cons_self
  obtain ⟨middle, rfl⟩ := hrest
  -- neither the slashes before the authority nor the authority reach past the colon's slashes
  have hskip : ∃ more, (middle ++ ':' :: '/' :: '/' :: after).dropWhile (· == '/') =
      more ++ ':' :: '/' :: '/' :: after := by
    rw [List.dropWhile_append]
    split
    · exact ⟨[], rfl⟩
    · exact ⟨_, rfl⟩
  obtain ⟨more, hmore⟩ := hskip
  rw [afterAuthority, hmore, List.dropWhile_append]
  split
  · exact ⟨[], after, rfl⟩
  · refine ⟨more.dropWhile (fun c => !stops c) ++ [':'], after, ?_⟩
    simp

/-! ## Dot segments -/

/-- **Dot segments.**  What the check on the text looks for are the segments `.` and `..`. -/
theorem hasDotSegment_iff {tail : List Char} : hasDotSegment ('/' :: tail) = false ↔
    ∀ s ∈ segmentsOf tail, s ≠ ['.'] ∧ s ≠ ['.', '.'] := by
  have hone : ['.'] ∈ segmentsOf tail ↔
      "/.".toList <:+ '/' :: tail ∨ "/./".toList <:+: '/' :: tail := mem_segmentsOf_iff (by decide)
  have htwo : ['.', '.'] ∈ segmentsOf tail ↔
      "/..".toList <:+ '/' :: tail ∨ "/../".toList <:+: '/' :: tail := mem_segmentsOf_iff (by decide)
  have hfound : hasDotSegment ('/' :: tail) = true ↔
      ['.'] ∈ segmentsOf tail ∨ ['.', '.'] ∈ segmentsOf tail := by
    rw [hone, htwo, hasDotSegment]
    simp only [Bool.or_eq_true, beq_iff_eq, List.isSuffixOf_iff_suffix, Chars.contains_iff]
    constructor
    · rintro (((((heq | heq) | h) | h) | h) | h)
      · exact Or.inl (Or.inl (heq ▸ List.suffix_rfl))
      · exact Or.inr (Or.inl (heq ▸ List.suffix_rfl))
      · exact Or.inl (Or.inl h)
      · exact Or.inr (Or.inl h)
      · exact Or.inl (Or.inr h)
      · exact Or.inr (Or.inr h)
    · rintro ((h | h) | (h | h))
      · exact Or.inl (Or.inl (Or.inl (Or.inr h)))
      · exact Or.inl (Or.inr h)
      · exact Or.inl (Or.inl (Or.inr h))
      · exact Or.inr h
  rw [← Bool.not_eq_true, hfound, not_or]
  constructor
  · rintro ⟨hsingle, hdouble⟩ s hs
    exact ⟨fun heq => hsingle (heq ▸ hs), fun heq => hdouble (heq ▸ hs)⟩
  · intro h
    exact ⟨fun hmem => (h _ hmem).1 rfl, fun hmem => (h _ hmem).2 rfl⟩

/-- The path of a canonical text has no literal dot segment. -/
theorem Checks.undotted_segments {rest : List Char} (h : Checks crate raw url normalized)
    (hp : Parsed P raw rest url) (hc : Canonical raw) :
    ∀ s ∈ segmentsOf (afterAuthority rest).tail, s ≠ ['.'] ∧ s ≠ ['.', '.'] := by
  obtain ⟨name, after, hraw, hname, hrest⟩ := hc.slashes hp.split
  have honce : splitOnce "://".toList raw = .some (name, after) := by
    rw [hraw]
    exact splitOnce_append hname after
  -- the authority is not empty, so no slash is skipped before it
  have hskip : rest.dropWhile (· == '/') = after := by
    obtain ⟨authority, hauthority, hne, -⟩ := h.authority
    rw [rawAuthority, honce] at hauthority
    have hslash : ('/' == '/') = true := rfl
    rw [hrest, List.dropWhile_cons, if_pos hslash, List.dropWhile_cons, if_pos hslash]
    cases after with
    | nil => rfl
    | cons c after =>
      cases hc : c == '/' with
      | false => rw [List.dropWhile_cons, hc, if_neg Bool.false_ne_true]
      | true =>
        rw [beq_iff_eq] at hc
        subst hc
        cases hauthority
        exact absurd rfl hne
  have hcut : after = after.takeWhile (fun c => !stops c) ++ afterAuthority rest := by
    rw [afterAuthority, hskip, List.takeWhile_append_dropWhile]
  have hpath : after.dropWhile (· != '/') = afterAuthority rest := by
    have hkeep : ∀ c ∈ after.takeWhile (fun c => !stops c), (c != '/') = true := by
      intro c hc
      have hstop := List.mem_takeWhile_imp hc
      rw [bne_iff_ne]
      rintro rfl
      cases hstop
    rw [hcut, List.dropWhile_append_of_pos hkeep]
    rcases hp.slash with hnil | ⟨tail, htail⟩
    · rw [hnil]
      rfl
    · rw [htail]
      rfl
  have hundotted := h.undotted
  rw [hasRawDotSegment, honce] at hundotted
  simp only [Option.map_some, Option.getD_some, hpath] at hundotted
  rcases hp.slash with hnil | ⟨tail, htail⟩
  · rw [hnil]
    decide
  · rw [htail] at hundotted ⊢
    exact hasDotSegment_iff.mp hundotted

/-! ## The result -/

theorem normalizedPath_ok {path : List Char} (h : normalizedPath path = .ok normalized) :
    (path = "/".toList ∨ path = []) ∧ normalized = "/v1/".toList ∨
      "/v1".toList <:+ path ∧ normalized = path ++ ['/'] ∨
      "/v1/".toList <:+ path ∧ normalized = path := by
  rw [normalizedPath] at h
  split at h
  · rename_i hbare
    cases h
    exact Or.inl ⟨hbare, rfl⟩
  · split at h
    · rename_i hend
      cases h
      exact Or.inr (Or.inl ⟨List.isSuffixOf_iff_suffix.mp hend, rfl⟩)
    · split at h
      · rename_i hend
        cases h
        exact Or.inr (Or.inr ⟨List.isSuffixOf_iff_suffix.mp hend, rfl⟩)
      · cases h

theorem normalizedPath_ends {path : List Char} (h : normalizedPath path = .ok normalized) :
    "/v1/".toList <:+ normalized := by
  rcases normalizedPath_ok h with ⟨-, rfl⟩ | ⟨⟨before, rfl⟩, rfl⟩ | ⟨hend, rfl⟩
  · exact List.suffix_rfl
  · refine ⟨before, ?_⟩
    rw [List.append_assoc]
    rfl
  · exact hend

/-- A path that ends in `/v1/` is not changed. -/
theorem normalizedPath_of_ends {path : List Char} (h : "/v1/".toList <:+ path) :
    normalizedPath path = .ok path := by
  obtain ⟨before, rfl⟩ := h
  have hbare : ¬ (before ++ "/v1/".toList = "/".toList ∨ before ++ "/v1/".toList = []) := by
    have hlength : 4 ≤ (before ++ "/v1/".toList).length := by
      rw [List.length_append]
      exact Nat.le_add_left 4 _
    rintro (heq | heq)
    · rw [heq] at hlength
      exact absurd hlength (by decide)
    · rw [heq] at hlength
      exact absurd hlength (by decide)
  have hopen : ¬ ("/v1".toList.isSuffixOf (before ++ "/v1/".toList)) = true := by
    intro hend
    obtain ⟨other, heq⟩ := List.isSuffixOf_iff_suffix.mp hend
    have hlast := congrArg List.getLast? heq
    rw [List.getLast?_append, List.getLast?_append] at hlast
    have hsame : some '1' = some '/' := hlast
    cases hsame
  have hclosed : "/v1/".toList.isSuffixOf (before ++ "/v1/".toList) = true :=
    List.isSuffixOf_iff_suffix.mpr ⟨before, rfl⟩
  rw [normalizedPath, if_neg hbare, if_neg hopen, if_pos hclosed]

/-- What is set as the path. -/
structure Outcome (crate : UrlCrate) (P : Parts Host) (raw : List Char) (url : Url)
    (normalized : List Char) : Prop where
  settled : SettledPath P.encodePath normalized
  visible : ∀ c ∈ normalized, BaseUrl.ordinary c = true ∧ tails c = false
  literal : '%' ∉ normalized
  ends : "/v1/".toList <:+ normalized
  set : crate.setPath url normalized = { url with path := normalized }

theorem ordinary_slash : BaseUrl.ordinary '/' = true ∧ tails '/' = false := by decide

/-- Letters, digits and hyphens are not encoded. -/
theorem kept_of_simple (hp : P.Lawful) {text : List Char}
    (h : ∀ c ∈ text, c.isAlphanum = true ∨ c = '-') : text.flatMap P.encodePath = text := by
  induction text with
  | nil => rfl
  | cons c text ih =>
    rw [List.flatMap_cons, hp.keeps c (h c List.mem_cons_self),
      ih (fun d hd => h d (List.mem_cons_of_mem _ hd))]
    rfl

theorem settledPath_v1 (hp : P.Lawful) : SettledPath P.encodePath "/v1/".toList := by
  refine ⟨rfl, by decide, fun s hs => kept_of_simple hp ?_⟩
  have hsimple : ∀ t ∈ segmentsOf "/v1/".toList.tail,
      t.all (fun c => decide (c.isAlphanum = true ∨ c = '-')) = true :=
    Chars.forall_mem_of_all (by decide)
  exact Chars.forall_mem_of_all (hsimple s hs)

/-- **The outcome** of a validation. -/
theorem Checks.outcome {rest : List Char} (hs : crate.Standard P) (h : Checks crate raw url normalized)
    (hp : Parsed P raw rest url) : Outcome crate P raw url normalized := by
  have hliteral := h.literal
  rw [hp.path] at hliteral
  have hsettled := settledPath_readPath hs.parts.encodes hliteral
  rw [← hp.path] at hsettled
  obtain ⟨name, hraw, -, -, -⟩ := splitScheme_some hp.split
  have hvisible : ∀ c ∈ url.path, BaseUrl.ordinary c = true ∧ tails c = false := by
    intro c hc
    rw [hp.path] at hc
    rcases mem_of_mem_readPath hs.parts.encodes hliteral hc with rfl | hc
    · exact ordinary_slash
    · refine ⟨h.ordinary c ?_, hp.untailed c hc⟩
      rw [hraw]
      have hrest : c ∈ rest :=
        (List.dropWhile_sublist _).subset ((List.dropWhile_sublist _).subset hc)
      exact List.mem_append_right _ (List.mem_cons_of_mem _ hrest)
  have hthree : SettledPath P.encodePath normalized ∧
      (∀ c ∈ normalized, BaseUrl.ordinary c = true ∧ tails c = false) ∧ '%' ∉ normalized := by
    rcases normalizedPath_ok h.path with ⟨-, rfl⟩ | ⟨-, rfl⟩ | ⟨-, rfl⟩
    · exact ⟨settledPath_v1 hs.parts, Chars.forall_mem_of_all (by decide), by decide⟩
    · refine ⟨hsettled.slashed, fun c hc => ?_, fun hc => ?_⟩
      · rcases List.mem_append.mp hc with hc | hc
        · exact hvisible c hc
        · rw [List.mem_singleton.mp hc]
          exact ordinary_slash
      · rcases List.mem_append.mp hc with hc | hc
        · exact h.literal hc
        · exact absurd (List.mem_singleton.mp hc) (by decide)
    · exact ⟨hsettled, hvisible, h.literal⟩
  obtain ⟨hsettled', hvisible', hliteral'⟩ := hthree
  refine ⟨hsettled', hvisible', hliteral', normalizedPath_ends h.path, ?_⟩
  have hhead : normalized.head? = .some '/' := by
    rw [hsettled'.slash]
    rfl
  rw [hs.setPath url normalized hp.special hvisible' hhead, hsettled'.readPath]

end VibeCoder.Gateway.BaseUrl
