/-
  The law of the base URL.

  1. **The normal form** — what the path of a text becomes, and the text of the whole URL.
  2. **The result is accepted** — `Checks.again`: validating the text of a result gives the result, if
     it is not too long.
  3. **The path is kept** — `kept_iff`: exactly in a canonical text whose path shows no percent sign.
  4. **The law** — `base_url_law_iff`, and a text with an encoded dot segment.
-/
import VibeCoder.Gateway.BaseUrl

namespace VibeCoder.Gateway.BaseUrl

open UrlStandard

variable {crate : UrlCrate} {P : Parts Host} {raw rest : List Char} {url : Url}
variable {normalized : List Char}

/-! ## The normal form -/

/-- A path with its last segment. -/
def completed (path : List Char) : List Char :=
  if path = "/".toList ∨ path = [] then "/v1/".toList
  else if "/v1".toList.isSuffixOf path then path ++ ['/']
  else path

/-- A text with its authority as the crate writes it, and its path completed. -/
def normalForm (P : Parts Host) (raw : List Char) : List Char :=
  match splitScheme raw with
  | none => []
  | some (scheme, rest) =>
    match P.readAuthority scheme (authorityText rest) with
    | none => []
    | some authority =>
      scheme ++ ("://".toList ++ (P.writeAuthority authority ++ completed (afterAuthority rest)))

/-- The text of a URL without query and fragment. -/
theorem writeUrl_bare (hquery : url.query = none) (hfragment : url.fragment = none) :
    writeUrl P url =
      url.scheme ++ ("://".toList ++ (P.writeAuthority url.authority ++ url.path)) := by
  rw [writeUrl, hquery, hfragment]
  simp

theorem normalForm_eq (h : Parsed P raw rest url) : normalForm P raw =
    url.scheme ++ ("://".toList ++
      (P.writeAuthority url.authority ++ completed (afterAuthority rest))) := by
  simp only [normalForm, h.split, h.authority]

/-! ## The result is accepted -/

/-- The two schemes are valid, and their names are in lower case. -/
theorem special_scheme {scheme : List Char} (h : Special scheme) :
    ':' ∉ scheme ∧ validScheme scheme = true ∧ scheme.map Char.toLower = scheme ∧
      ∀ c ∈ scheme, ordinary c = true := by
  rcases h with rfl | rfl
  all_goals exact ⟨by decide, by decide, by decide, Chars.forall_mem_of_all (by decide)⟩

theorem ordinary_of_authorityChar {c : Char} (h : authorityChar c = true) : ordinary c = true := by
  simp only [authorityChar, Bool.and_eq_true, decide_eq_true_eq, bne_iff_ne, ne_eq] at h
  obtain ⟨⟨⟨⟨hlow, hhigh⟩, -⟩, -⟩, hslash⟩ := h
  have hcontrol : controlOrWhitespace c = false := by
    rw [controlOrWhitespace, Bool.or_eq_false_iff, decide_eq_false_iff_not, beq_eq_false_iff_ne]
    omega
  rw [ordinary, hcontrol]
  simpa using hslash

/-- **Validated again.**  The text of a result is accepted with the same result. -/
theorem Checks.again (hs : crate.Standard P) (h : Checks crate raw url normalized)
    (hp : Parsed P raw rest url)
    (hshort : Chars.byteLen (writeUrl P { url with path := normalized }) ≤ 2048) :
    Checks crate (writeUrl P { url with path := normalized }) { url with path := normalized }
      normalized := by
  have ho := h.outcome hs hp
  obtain ⟨hcolon, hvalid, hlower, hordinary⟩ := special_scheme hp.special
  obtain ⟨hne, hchars⟩ := hs.parts.write_plain _ _ _ hp.authority h.anonymous.1 h.anonymous.2
  have htext : writeUrl P { url with path := normalized } =
      url.scheme ++ ("://".toList ++ (P.writeAuthority url.authority ++ normalized)) :=
    writeUrl_bare h.bare.1 h.bare.2
  have honce : splitOnce "://".toList (writeUrl P { url with path := normalized }) =
      .some (url.scheme, P.writeAuthority url.authority ++ normalized) := by
    rw [htext]
    exact splitOnce_append hcolon _
  have hstops : ∀ c ∈ P.writeAuthority url.authority, stops c = false :=
    fun c hc => stops_of_authorityChar (hchars c hc)
  have hslash : normalized = '/' :: normalized.tail := ho.settled.slash
  have hall : ∀ c ∈ writeUrl P { url with path := normalized }, BaseUrl.ordinary c = true := by
    intro c hc
    rw [htext] at hc
    rcases List.mem_append.mp hc with hc | hc
    · exact hordinary c hc
    rcases List.mem_append.mp hc with hc | hc
    · have hmarks : ∀ d ∈ "://".toList, BaseUrl.ordinary d = true :=
        Chars.forall_mem_of_all (by decide)
      exact hmarks c hc
    rcases List.mem_append.mp hc with hc | hc
    · exact ordinary_of_authorityChar (hchars c hc)
    · exact (ho.visible c hc).1
  exact {
    some := by
      rw [htext]
      rcases hp.special with heq | heq
      all_goals
        rw [heq]
        exact List.cons_ne_nil _ _
    short := hshort
    ordinary := hall
    undotted := by
      have hpath : (P.writeAuthority url.authority ++ normalized).dropWhile (· != '/') =
          normalized := by
        have hkeep : ∀ c ∈ P.writeAuthority url.authority, (c != '/') = true := by
          intro c hc
          rw [bne_iff_ne]
          rintro rfl
          cases hstops '/' hc
        rw [List.dropWhile_append_of_pos hkeep, hslash]
        rfl
      rw [hasRawDotSegment, honce]
      simp only [Option.map_some, Option.getD_some, hpath]
      rw [hslash]
      refine hasDotSegment_iff.mpr (fun s hs => ?_)
      obtain ⟨hsingle, hdouble⟩ := ho.settled.plain s hs
      refine ⟨?_, ?_⟩
      · rintro rfl
        exact hsingle (by decide)
      · rintro rfl
        exact hdouble (by decide)
    authority := by
      refine ⟨P.writeAuthority url.authority, ?_, hne, fun hat => ?_⟩
      · have hkeep : ∀ c ∈ P.writeAuthority url.authority, (!stops c) = true := by
          intro c hc
          rw [hstops c hc]
          rfl
        rw [rawAuthority, honce, Option.map_some, List.takeWhile_append_of_pos hkeep, hslash]
        simp [stops]
      · have hchar := hchars '@' hat
        exact absurd hchar (by decide)
    parsed := by
      have hsplit : splitScheme (writeUrl P { url with path := normalized }) = .some
          (url.scheme, '/' :: '/' :: (P.writeAuthority url.authority ++ '/' :: normalized.tail)) := by
        rw [htext, ← hslash]
        have hname := splitScheme_append hcolon hvalid
          ('/' :: '/' :: (P.writeAuthority url.authority ++ normalized))
        rw [hlower] at hname
        exact hname
      have hread := hs.parts.read_write _ _ _ hp.authority
      have hsame : readPath P.encodePath ('/' :: normalized.tail) = '/' :: normalized.tail := by
        rw [← hslash]
        exact ho.settled.readPath
      have htails : ∀ c ∈ normalized.tail, tails c = false :=
        fun c hc => (ho.visible c (List.mem_of_mem_tail hc)).2
      rw [hs.parse_special _ url.scheme _ hall hsplit hp.special,
        parseHierarchical_writeUrl hne hstops hread htails hsame, ← hslash]
      have hbase := h.base.1
      have hquery := h.bare.1
      have hfragment := h.bare.2
      cases url
      cases hbase
      cases hquery
      cases hfragment
      rfl
    base := h.base
    anonymous := h.anonymous
    bare := h.bare
    literal := ho.literal
    port := h.port
    scheme := h.scheme
    path := normalizedPath_of_ends ho.ends
    single := h.single }

/-! ## The path is kept -/

/-- The path is that of the text, up to what is appended. -/
def PathKept (path text : List Char) : Prop :=
  (text = "/".toList ∨ text = []) ∧ path = "/v1/".toList ∨ path = text ∨ path = text ++ ['/']

/-- A result has no empty segment. -/
theorem Checks.not_slashes (h : Checks crate raw url normalized) :
    ¬ "//".toList <:+: normalized.dropLast := by
  intro hslashes
  rcases h.single with rfl | hsingle
  · exact absurd hslashes (by decide)
  · rw [Chars.contains_iff.mpr hslashes] at hsingle
    cases hsingle

/-- In a kept path there is no empty segment. -/
theorem PathKept.not_slashes {text : List Char} (hkept : PathKept normalized text)
    (h : Checks crate raw url normalized) : ¬ "//".toList <:+: text := by
  intro hslashes
  rcases hkept with ⟨rfl | rfl, -⟩ | rfl | rfl
  · exact absurd hslashes (by decide)
  · exact absurd hslashes (by decide)
  · -- two slashes are not the end of it
    obtain ⟨before, hends⟩ := normalizedPath_ends h.path
    obtain ⟨front, back, heq⟩ := hslashes
    rcases List.eq_nil_or_concat back with rfl | ⟨back, c, rfl⟩
    · have hlast := congrArg (fun cs => cs.dropLast.getLast?) (heq.trans hends.symm)
      simp at hlast
    · refine h.not_slashes ⟨front, back, ?_⟩
      rw [← heq, List.concat_eq_append, ← List.append_assoc, List.dropLast_concat]
  · refine h.not_slashes ?_
    rw [List.dropLast_concat]
    exact hslashes

/-- A canonical text without percent signs in its path: the path that is set is the completed one. -/
theorem Checks.normalized_eq (hs : crate.Standard P) (h : Checks crate raw url normalized)
    (hp : Parsed P raw rest url) (hc : Canonical raw) (hpercent : '%' ∉ afterAuthority rest) :
    normalized = completed (afterAuthority rest) := by
  have hplain : ∀ s ∈ segmentsOf (afterAuthority rest).tail, NotDots s := by
    intro s hs'
    obtain ⟨hsingle, hdouble⟩ := h.undotted_segments hp hc s hs'
    refine notDots_of_literal (fun hmem => hpercent ?_) hsingle hdouble
    exact List.mem_of_mem_tail ((Chars.mem_splitOnP hs').1.subset hmem)
  have hliteral := h.literal
  rw [hp.path] at hliteral
  have hpath := readPath_plain hs.parts.encodes hplain hliteral
  rw [← hp.path] at hpath
  have hnormalized := h.path
  rw [hpath] at hnormalized
  rcases hp.slash with hnil | ⟨tail, htail⟩
  · rw [hnil] at hnormalized ⊢
    cases hnormalized
    rfl
  · rw [htail] at hnormalized ⊢
    rw [completed]
    rw [normalizedPath, List.tail_cons] at hnormalized
    split at hnormalized
    · rename_i hbare
      cases hnormalized
      rw [if_pos hbare]
    · rename_i hbare
      rw [if_neg hbare]
      split at hnormalized
      · rename_i hend
        cases hnormalized
        rw [if_pos hend]
      · rename_i hend
        rw [if_neg hend]
        split at hnormalized
        · cases hnormalized
          rfl
        · cases hnormalized

theorem pathKept_completed (text : List Char) : PathKept (completed text) text := by
  rw [completed]
  split
  · rename_i hbare
    exact Or.inl ⟨hbare, rfl⟩
  · split
    · exact Or.inr (Or.inr rfl)
    · exact Or.inr (Or.inl rfl)

/-- **Kept exactly there.**  The path is kept in a canonical text whose path shows no percent sign, and
    only there. -/
theorem Checks.kept_iff (hs : crate.Standard P) (h : Checks crate raw url normalized)
    (hp : Parsed P raw rest url) :
    PathKept normalized (afterAuthority rest) ↔ Canonical raw ∧ '%' ∉ afterAuthority rest := by
  constructor
  · intro hkept
    refine ⟨?_, fun hpercent => ?_⟩
    · by_contra hnot
      exact hkept.not_slashes h (slashes_of_not_canonical h hp.split hnot)
    · have hliteral := (h.outcome hs hp).literal
      rcases hkept with ⟨hbare, -⟩ | hsame | hslashed
      · rcases hbare with hslash | hnil
        · rw [hslash] at hpercent
          exact absurd hpercent (by decide)
        · rw [hnil] at hpercent
          cases hpercent
      · exact hliteral (hsame ▸ hpercent)
      · exact hliteral (hslashed ▸ List.mem_append_left _ hpercent)
  · rintro ⟨hc, hpercent⟩
    rw [h.normalized_eq hs hp hc hpercent]
    exact pathKept_completed _

/-! ## The law -/

/-- A path that is joined to the API root. -/
theorem endpoint_relative (endpoint : ApiEndpoint) : Relative endpoint.relativePath.toList := by
  cases endpoint
  all_goals exact ⟨by decide, Chars.forall_mem_of_all (by decide), by decide, by decide⟩

/-- **The endpoints** of a result. -/
theorem Checks.endpoint (hs : crate.Standard P) (h : Checks crate raw url normalized)
    (hp : Parsed P raw rest url) (endpoint : ApiEndpoint) :
    endpointUrl crate { url with path := normalized } endpoint =
      .ok { url with path := normalized ++ endpoint.relativePath.toList } := by
  have ho := h.outcome hs hp
  have hsegments : ∀ s ∈ segmentsOf endpoint.relativePath.toList, NotDots s ∧
      ∀ c ∈ s, c.isAlphanum = true ∨ c = '-' := by
    have hall : ∀ s ∈ segmentsOf endpoint.relativePath.toList,
        NotDots s ∧ s.all (fun c => decide (c.isAlphanum = true ∨ c = '-')) = true := by
      cases endpoint <;> exact Chars.forall_mem_of_all (by decide)
    exact fun s hs => ⟨(hall s hs).1, Chars.forall_mem_of_all (hall s hs).2⟩
  have hplain : ∀ s ∈ segmentsOf endpoint.relativePath.toList, NotDots s ∧
      s.flatMap P.encodePath = s :=
    fun s hs' => ⟨(hsegments s hs').1, kept_of_simple hs.parts (hsegments s hs').2⟩
  have hends : normalized.tail = [] ∨ ∃ before, normalized.tail = before ++ ['/'] := by
    obtain ⟨before, hends⟩ := ho.ends
    refine Or.inr ?_
    cases before with
    | nil => exact ⟨"v1".toList, by rw [← hends]; rfl⟩
    | cons c before => exact ⟨before ++ "/v1".toList, by rw [← hends]; simp⟩
  have hjoin : (joinPath P { url with path := normalized } endpoint.relativePath.toList).path =
      normalized ++ endpoint.relativePath.toList := joinPath_path ho.settled.slash hends hplain
  have hurl : joinPath P { url with path := normalized } endpoint.relativePath.toList =
      { url with path := normalized ++ endpoint.relativePath.toList } := by
    rw [← hjoin, joinPath]
    simp only [h.bare.1, h.bare.2]
  have hjoined := hs.join { url with path := normalized } endpoint.relativePath.toList hp.special
    (endpoint_relative endpoint)
  rw [endpointUrl, hjoined, hurl]

/-- What is to hold of an accepted text and its result. -/
structure Normalized (crate : UrlCrate) (raw : List Char) (url : Url) : Prop where
  fixpoint : validateAndNormalizeBaseUrl crate (crate.asStr url) = .ok url
  secure : url.scheme = "https".toList ∨ isLoopbackHost url.authority.host = true
  bare : url.authority.username = [] ∧ url.authority.password = none ∧ url.query = none ∧
    url.fragment = none
  path : PathKept url.path (rawPath raw)
  endpoints : ∀ endpoint, endpointUrl crate url endpoint =
    .ok { url with path := url.path ++ endpoint.relativePath.toList }

/-- **The law of the base URL.**  An accepted text has a normal result exactly when the code finds the
    authority where the scheme ends, the path shows no percent sign, and the completed text is not too
    long. -/
theorem base_url_law_iff (hs : crate.Standard P)
    (h : validateAndNormalizeBaseUrl crate raw = .ok url) :
    Normalized crate raw url ↔ Canonical raw ∧ '%' ∉ rawPath raw ∧
      Chars.byteLen (normalForm P raw) ≤ 2048 := by
  obtain ⟨parsed, normalized, hchecks, hurl⟩ := validate_iff.mp h
  obtain ⟨rest, hp⟩ := hchecks.read hs
  rw [(hchecks.outcome hs hp).set] at hurl
  rw [hp.rawPath]
  have htext : crate.asStr url = writeUrl P url := hs.asStr url (by rw [hurl]; exact hp.special)
  -- in a canonical text the result is written as the normal form
  have hform : Canonical raw → '%' ∉ afterAuthority rest → writeUrl P url = normalForm P raw := by
    intro hc hpercent
    rw [normalForm_eq hp, ← hchecks.normalized_eq hs hp hc hpercent, hurl]
    exact writeUrl_bare hchecks.bare.1 hchecks.bare.2
  constructor
  · intro hn
    have hkept := hn.path
    rw [hp.rawPath, hurl] at hkept
    obtain ⟨hc, hpercent⟩ := (hchecks.kept_iff hs hp).mp hkept
    refine ⟨hc, hpercent, ?_⟩
    obtain ⟨again, normal, hagain, -⟩ := validate_iff.mp hn.fixpoint
    rw [← hform hc hpercent, ← htext]
    exact hagain.short
  · rintro ⟨hc, hpercent, hshort⟩
    rw [← hform hc hpercent] at hshort
    exact {
      fixpoint := by
        rw [htext]
        rw [hurl] at hshort ⊢
        have hagain := hchecks.again hs hp hshort
        obtain ⟨rest', hp'⟩ := hagain.read hs
        exact validate_iff.mpr ⟨_, _, hagain, (hagain.outcome hs hp').set.symm⟩
      secure := by
        rw [hurl]
        exact (special_of_checkScheme hchecks.scheme).2
      bare := by
        rw [hurl]
        exact ⟨hchecks.anonymous.1, hchecks.anonymous.2, hchecks.bare.1, hchecks.bare.2⟩
      path := by
        rw [hp.rawPath, hurl]
        exact (hchecks.kept_iff hs hp).mpr ⟨hc, hpercent⟩
      endpoints := by
        intro endpoint
        rw [hurl]
        exact hchecks.endpoint hs hp endpoint }

/-! ## A text with an encoded dot segment -/

/-- The path percent-encode set. -/
def pathSet (c : Char) : Bool :=
  c.toNat ≤ 0x1F || 0x7F ≤ c.toNat ||
    [' ', '"', '#', '<', '>', '?', '^', '`', '\x7b', '\x7d'].contains c

/-- A byte, percent-encoded. -/
def percentByte (b : UInt8) : List Char :=
  ['%', (Nat.digitChar (b.toNat / 16)).toUpper, (Nat.digitChar (b.toNat % 16)).toUpper]

/-- The authorities that are a domain of lower-case letters and dots; every other is refused. -/
def domainParts : Parts Host where
  readAuthority _ text :=
    if text ≠ [] ∧ text.all (fun c => c.isLower || c == '.') = true then
      some { username := [], password := none, host := some (.domain text), port := none }
    else none
  writeAuthority a :=
    match a.host with
    | some (.domain name) => name
    | _ => []
  encodePath c := if pathSet c then (String.utf8EncodeChar c).flatMap percentByte else [c]
  encodeQuery text := text
  encodeFragment text := text

/-- A crate for them. -/
def domainCrate : UrlCrate where
  parse raw :=
    match splitScheme raw with
    | some (scheme, rest) => parseHierarchical domainParts scheme rest
    | none => none
  setPath url text := { url with path := readPath domainParts.encodePath text }
  join url text := some (joinPath domainParts url text)
  asStr url := writeUrl domainParts url

theorem domainParts_read {scheme text : List Char} {a : Authority Host}
    (h : domainParts.readAuthority scheme text = some a) :
    a = { username := [], password := none, host := some (.domain text), port := none } ∧
      text ≠ [] ∧ text.all (fun c => c.isLower || c == '.') = true := by
  simp only [domainParts] at h
  split at h
  · rename_i hgood
    cases h
    exact ⟨rfl, hgood⟩
  · cases h

theorem range_of_simple {c : Char} (h : c.isAlphanum = true ∨ c = '-') :
    0x2D ≤ c.toNat ∧ c.toNat ≤ 0x7A := by
  rcases h with h | rfl
  · unfold Char.isAlphanum Char.isAlpha Char.isUpper Char.isLower Char.isDigit at h
    simp only [Bool.or_eq_true, Bool.and_eq_true, decide_eq_true_eq, ge_iff_le,
      UInt32.le_iff_toNat_le] at h
    rcases h with (h | h) | h
    all_goals exact ⟨Nat.le_trans (by decide) h.1, Nat.le_trans h.2 (by decide)⟩
  · decide

theorem authorityChar_of_lower {c : Char} (h : c.isLower = true) : authorityChar c = true := by
  unfold Char.isLower at h
  simp only [Bool.and_eq_true, decide_eq_true_eq, ge_iff_le, UInt32.le_iff_toNat_le] at h
  have hlow : 0x61 ≤ c.toNat := h.1
  have hhigh : c.toNat ≤ 0x7A := h.2
  have hne : ∀ d : Char, d.toNat < 0x5D → c ≠ d := by
    rintro d hd rfl
    omega
  have hno : stops c = false := by
    simp only [stops, Bool.or_eq_false_iff, beq_eq_false_iff_ne]
    exact ⟨⟨hne _ (by decide), hne _ (by decide)⟩, hne _ (by decide)⟩
  simp only [authorityChar, Bool.and_eq_true, decide_eq_true_eq, bne_iff_ne, hno]
  exact ⟨⟨⟨⟨by omega, by omega⟩, rfl⟩, hne _ (by decide)⟩, hne _ (by decide)⟩

theorem domainParts_lawful : domainParts.Lawful where
  encodes c := by
    simp only [domainParts]
    split
    · refine Or.inr ?_
      have hbytes : String.utf8EncodeChar c ≠ [] := by
        intro hnil
        have hlength := String.length_utf8EncodeChar c
        rw [hnil] at hlength
        exact absurd hlength (Nat.ne_of_lt c.utf8Size_pos)
      obtain ⟨b, bytes, hcons⟩ := List.exists_cons_of_ne_nil hbytes
      rw [hcons]
      exact List.mem_cons_self
    · exact Or.inl rfl
  keeps c hc := by
    have hset : pathSet c = false := by
      have hrange : 0x2D ≤ c.toNat ∧ c.toNat ≤ 0x7A := range_of_simple hc
      rw [pathSet, Bool.or_eq_false_iff, Bool.or_eq_false_iff, decide_eq_false_iff_not,
        decide_eq_false_iff_not]
      refine ⟨⟨by omega, by omega⟩, ?_⟩
      rw [← Bool.not_eq_true]
      intro hmem
      simp only [List.contains_cons, List.contains_nil, Bool.or_false, Bool.or_eq_true,
        beq_iff_eq] at hmem
      rcases hmem with rfl | rfl | rfl | rfl | rfl | rfl | rfl | rfl | rfl | rfl
      all_goals exact absurd hc (by decide)
    simp only [domainParts, hset]
    rfl
  host scheme text a h := by
    obtain ⟨rfl, -⟩ := domainParts_read h
    rfl
  read_write scheme text a h := by
    obtain ⟨rfl, -⟩ := domainParts_read h
    exact h
  write_plain scheme text a h _ _ := by
    obtain ⟨rfl, hne, hall⟩ := domainParts_read h
    refine ⟨hne, fun c hc => ?_⟩
    have hchar := List.all_eq_true.mp hall c hc
    rw [Bool.or_eq_true, beq_iff_eq] at hchar
    rcases hchar with hlower | rfl
    · exact authorityChar_of_lower hlower
    · decide

theorem domainCrate_standard : domainCrate.Standard domainParts where
  parts := domainParts_lawful
  parse_scheme raw url h := by
    simp only [domainCrate] at h
    split at h
    · rename_i scheme rest hsplit
      obtain ⟨a, -, rfl⟩ := Option.map_eq_some_iff.mp h
      exact ⟨rest, hsplit⟩
    · cases h
  parse_special raw scheme rest _ hsplit _ := by
    simp only [domainCrate, hsplit]
  setPath _ _ _ _ _ := rfl
  asStr _ _ := rfl
  join _ _ _ _ := rfl

/-- The result for a path at `example.test`. -/
def exampleUrl (path : String) : Url where
  scheme := "https".toList
  authority := {
    username := []
    password := none
    host := some (.domain "example.test".toList)
    port := none }
  cannotBeABase := false
  path := path.toList
  query := none
  fragment := none

theorem base_url_law_iff_subpath :
    Normalized domainCrate "https://example.test/omniroute/v1".toList (exampleUrl "/omniroute/v1/") ↔
      Canonical "https://example.test/omniroute/v1".toList ∧
        '%' ∉ rawPath "https://example.test/omniroute/v1".toList ∧
        Chars.byteLen (normalForm domainParts "https://example.test/omniroute/v1".toList) ≤ 2048 :=
  base_url_law_iff domainCrate_standard rfl

/-- **A dot segment is resolved.**  The parser takes `%2e%2e` for a dot segment, and no percent sign is
    left in its path. -/
theorem encoded_dots_resolved :
    domainCrate.Standard domainParts ∧
      validateAndNormalizeBaseUrl domainCrate "https://example.test/a/%2e%2e/v1".toList =
        .ok (exampleUrl "/v1/") ∧
      ¬ Normalized domainCrate "https://example.test/a/%2e%2e/v1".toList (exampleUrl "/v1/") := by
  refine ⟨domainCrate_standard, rfl, fun hn => ?_⟩
  have hkept : PathKept "/v1/".toList "/a/%2e%2e/v1".toList := hn.path
  rcases hkept with ⟨hbare, -⟩ | hsame | hslashed
  · exact absurd hbare (by decide)
  · exact absurd hsame (by decide)
  · exact absurd hslashed (by decide)

end VibeCoder.Gateway.BaseUrl
