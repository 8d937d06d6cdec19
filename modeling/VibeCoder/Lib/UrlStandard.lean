/-
  Hierarchical URLs as the URL standard parses and writes them.

  What the standard leaves to hosts, ports and percent-encode sets is a parameter (`Parts`) with the
  properties that the standard gives it (`Parts.Lawful`); the path state is written out.

  1. **Segments** — a path is written as its segments, each after a slash; `mem_segmentsOf_iff` finds
     a segment in the text.
  2. **The path state** — `readPath`: dot segments, also encoded ones, are resolved and the rest is
     percent-encoded.  A path without dot segments of which nothing is encoded stays as it is
     (`readPath_plain`).
  3. **Parsing** — `parseHierarchical`, and the text of what it gives, which parses to the same URL
     (`parseHierarchical_writeUrl`).
-/
import Mathlib.Data.List.Infix
import Mathlib.Data.List.TakeWhile
import VibeCoder.Lib.Chars

namespace UrlStandard

/-! ## Segments -/

/-- The segments of a path as text, each after a slash. -/
def writePath (segments : List (List Char)) : List Char := segments.flatMap (fun s => '/' :: s)

/-- The text between slashes. -/
abbrev segmentsOf (text : List Char) : List (List Char) := text.splitOn '/'

theorem writePath_append (as bs : List (List Char)) :
    writePath (as ++ bs) = writePath as ++ writePath bs := List.flatMap_append

/-- Segments are joined by what separates them. -/
theorem writePath_intercalate {segments : List (List Char)} (h : segments ≠ []) :
    writePath segments = '/' :: ['/'].intercalate segments := by
  induction segments with
  | nil => exact absurd rfl h
  | cons first rest ih =>
    cases rest with
    | nil => simp [writePath]
    | cons next rest =>
      have hrest := ih (List.cons_ne_nil next rest)
      rw [writePath, List.flatMap_cons, ← writePath, hrest]
      simp [List.intercalate]

/-- Splitting and writing give the text back. -/
theorem writePath_segmentsOf (text : List Char) : writePath (segmentsOf text) = '/' :: text := by
  rw [writePath_intercalate (List.splitOn_ne_nil '/' text), List.intercalate_splitOn]

/-- A segment that stands in a path ends it or is followed by a slash. -/
theorem mem_segmentsOf_iff {segment text : List Char} (h : '/' ∉ segment) :
    segment ∈ segmentsOf text ↔
      '/' :: segment <:+ '/' :: text ∨ '/' :: (segment ++ ['/']) <:+: '/' :: text := by
  constructor
  · intro hmem
    obtain ⟨as, bs, hsplit⟩ := List.append_of_mem hmem
    have htext : '/' :: text = writePath as ++ ('/' :: segment ++ writePath bs) := by
      rw [← writePath_segmentsOf text, hsplit, writePath_append]
      rfl
    cases bs with
    | nil =>
      refine Or.inl ⟨writePath as, ?_⟩
      rw [htext]
      simp [writePath]
    | cons next bs =>
      refine Or.inr ⟨writePath as, next ++ writePath bs, ?_⟩
      rw [htext]
      simp [writePath]
  · -- before the slash stands nothing, or more of the path
    have hhere : ∀ before rest : List Char, '/' :: text = before ++ '/' :: rest →
        segment ∈ segmentsOf rest → segment ∈ segmentsOf text := by
      intro before rest heq hmem
      cases before with
      | nil =>
        cases heq
        exact hmem
      | cons c before =>
        obtain ⟨-, htext⟩ := List.cons.inj heq
        have htext' : text = before ++ '/' :: rest := htext
        rw [segmentsOf, htext', List.splitOn_append_cons_self]
        exact List.mem_append_right _ hmem
    rintro (⟨before, heq⟩ | ⟨before, after, heq⟩)
    · refine hhere before segment heq.symm ?_
      rw [segmentsOf, List.splitOn_eq_singleton h]
      exact List.mem_singleton_self _
    · refine hhere before (segment ++ '/' :: after) (by rw [← heq]; simp) ?_
      rw [segmentsOf, List.splitOn_append_cons_self_of_not_mem h]
      exact List.mem_cons_self

/-! ## The path state -/

/-- The single-dot segments. -/
def singleDots : List (List Char) := [".".toList, "%2e".toList, "%2E".toList]

/-- The double-dot segments. -/
def doubleDots : List (List Char) :=
  ["..".toList, ".%2e".toList, ".%2E".toList, "%2e.".toList, "%2E.".toList, "%2e%2e".toList,
    "%2e%2E".toList, "%2E%2e".toList, "%2E%2E".toList]

/-- Neither of them. -/
def NotDots (segment : List Char) : Prop := segment ∉ singleDots ∧ segment ∉ doubleDots

instance (segment : List Char) : Decidable (NotDots segment) :=
  inferInstanceAs (Decidable (segment ∉ singleDots ∧ segment ∉ doubleDots))

/-- Without a percent sign only the literal ones are left. -/
theorem notDots_of_literal {segment : List Char} (h : '%' ∉ segment) (hsingle : segment ≠ ['.'])
    (hdouble : segment ≠ ['.', '.']) : NotDots segment := by
  constructor
  · intro hmem
    simp only [singleDots, List.mem_cons, List.not_mem_nil, or_false] at hmem
    rcases hmem with rfl | rfl | rfl
    · exact hsingle rfl
    · exact h (by decide)
    · exact h (by decide)
  · intro hmem
    simp only [doubleDots, List.mem_cons, List.not_mem_nil, or_false] at hmem
    rcases hmem with rfl | rfl | rfl | rfl | rfl | rfl | rfl | rfl | rfl
    · exact hdouble rfl
    all_goals exact h (by decide)

section

variable (encode : Char → List Char)

/-- One segment of the path state; the last one leaves an empty segment where it is a dot segment. -/
def addSegment (done : List (List Char)) (segment : List Char) (last : Bool) : List (List Char) :=
  if segment ∈ doubleDots then
    if last then done.dropLast ++ [[]] else done.dropLast
  else if segment ∈ singleDots then
    if last then done ++ [[]] else done
  else done ++ [segment.flatMap encode]

/-- The segments of a text, after those that are there. -/
def resolveSegments (done : List (List Char)) : List (List Char) → List (List Char)
  | [] => done
  | segment :: rest => resolveSegments (addSegment encode done segment rest.isEmpty) rest

/-- The path of a text that is empty or starts with a slash. -/
def readPath (text : List Char) : List Char :=
  writePath (resolveSegments encode [] (segmentsOf text.tail))

variable {encode}

theorem resolveSegments_plain {segments : List (List Char)} (h : ∀ s ∈ segments, NotDots s) :
    ∀ done, resolveSegments encode done segments =
      done ++ segments.map (fun s => s.flatMap encode) := by
  induction segments with
  | nil =>
    intro done
    simp [resolveSegments]
  | cons segment rest ih =>
    intro done
    obtain ⟨hsingle, hdouble⟩ := h segment List.mem_cons_self
    rw [resolveSegments, addSegment, if_neg hdouble, if_neg hsingle,
      ih (fun s hs => h s (List.mem_cons_of_mem _ hs))]
    simp

/-- What shows no percent sign has not been encoded. -/
theorem encode_eq (hencode : ∀ c, encode c = [c] ∨ '%' ∈ encode c) {text : List Char}
    (h : '%' ∉ text.flatMap encode) : text.flatMap encode = text := by
  induction text with
  | nil => rfl
  | cons c text ih =>
    rw [List.flatMap_cons, List.mem_append, not_or] at h
    rw [List.flatMap_cons, (hencode c).resolve_right h.1, ih h.2]
    rfl

/-- **A plain path.**  Without dot segments, and if nothing needed to be encoded, the path is the text
    itself, or a slash. -/
theorem readPath_plain (hencode : ∀ c, encode c = [c] ∨ '%' ∈ encode c) {text : List Char}
    (hplain : ∀ s ∈ segmentsOf text.tail, NotDots s) (h : '%' ∉ readPath encode text) :
    readPath encode text = '/' :: text.tail := by
  rw [readPath, resolveSegments_plain hplain, List.nil_append] at h ⊢
  have hsame : ∀ s ∈ segmentsOf text.tail, s.flatMap encode = s := by
    intro s hs
    refine encode_eq hencode (fun hpercent => h ?_)
    exact List.mem_flatMap.mpr ⟨_, List.mem_map_of_mem hs, List.mem_cons_of_mem _ hpercent⟩
  rw [List.map_congr_left hsame, List.map_id', writePath_segmentsOf]

end

/-! ## Paths that stay as they are -/

section

variable {encode : Char → List Char}

/-- A path without dot segments in which nothing is to be encoded. -/
structure SettledPath (encode : Char → List Char) (path : List Char) : Prop where
  slash : path = '/' :: path.tail
  plain : ∀ s ∈ segmentsOf path.tail, NotDots s
  kept : ∀ s ∈ segmentsOf path.tail, s.flatMap encode = s

theorem SettledPath.readPath {path : List Char} (h : SettledPath encode path) :
    readPath encode path = path := by
  have hsame : (segmentsOf path.tail).map (fun s => s.flatMap encode) = segmentsOf path.tail := by
    rw [List.map_congr_left h.kept, List.map_id']
  rw [UrlStandard.readPath, resolveSegments_plain h.plain, List.nil_append, hsame, writePath_segmentsOf]
  exact h.slash.symm

/-- Segments that stay as they are make a settled path. -/
theorem settledPath_writePath {segments : List (List Char)} (hne : segments ≠ [])
    (h : ∀ s ∈ segments, NotDots s ∧ '/' ∉ s ∧ s.flatMap encode = s) :
    SettledPath encode (writePath segments) := by
  have hsplit : segmentsOf (writePath segments).tail = segments := by
    rw [writePath_intercalate hne, List.tail_cons, segmentsOf,
      List.splitOn_intercalate '/' (fun s hs => (h s hs).2.1) hne]
  refine ⟨?_, fun s hs => ?_, fun s hs => ?_⟩
  · rw [writePath_intercalate hne, List.tail_cons]
  · rw [hsplit] at hs
    exact (h s hs).1
  · rw [hsplit] at hs
    exact (h s hs).2.2

/-- A settled path with a slash after it. -/
theorem SettledPath.slashed {path : List Char} (h : SettledPath encode path) :
    SettledPath encode (path ++ ['/']) := by
  have htail : (path ++ ['/']).tail = path.tail ++ '/' :: [] := by
    rw [h.slash]
    rfl
  have hsplit : segmentsOf (path ++ ['/']).tail = segmentsOf path.tail ++ [[]] := by
    rw [htail, segmentsOf, List.splitOn_append_cons_self, List.splitOn_nil]
  refine ⟨?_, fun s hs => ?_, fun s hs => ?_⟩
  · rw [htail, ← List.cons_append, ← h.slash]
  · rw [hsplit, List.mem_append, List.mem_singleton] at hs
    rcases hs with hs | rfl
    · exact h.plain s hs
    · exact ⟨by decide, by decide⟩
  · rw [hsplit, List.mem_append, List.mem_singleton] at hs
    rcases hs with hs | rfl
    · exact h.kept s hs
    · rfl

/-- A segment of a resolved path was there before, is empty, or comes from one that is no dot
    segment. -/
theorem mem_resolveSegments {segments : List (List Char)} : ∀ {done : List (List Char)} {s : List Char},
    s ∈ resolveSegments encode done segments →
      s ∈ done ∨ s = [] ∨ ∃ t ∈ segments, NotDots t ∧ s = t.flatMap encode := by
  induction segments with
  | nil => exact fun hs => Or.inl hs
  | cons segment rest ih =>
    intro done s hs
    rcases ih hs with hadded | hempty | ⟨t, ht, hplain, heq⟩
    · rw [addSegment] at hadded
      by_cases hdouble : segment ∈ doubleDots
      · rw [if_pos hdouble] at hadded
        split at hadded
        · rcases List.mem_append.mp hadded with hold | hnew
          · exact Or.inl (List.mem_of_mem_dropLast hold)
          · exact Or.inr (Or.inl (List.mem_singleton.mp hnew))
        · exact Or.inl (List.mem_of_mem_dropLast hadded)
      · rw [if_neg hdouble] at hadded
        by_cases hsingle : segment ∈ singleDots
        · rw [if_pos hsingle] at hadded
          split at hadded
          · rcases List.mem_append.mp hadded with hold | hnew
            · exact Or.inl hold
            · exact Or.inr (Or.inl (List.mem_singleton.mp hnew))
          · exact Or.inl hadded
        · rw [if_neg hsingle] at hadded
          rcases List.mem_append.mp hadded with hold | hnew
          · exact Or.inl hold
          · exact Or.inr (Or.inr ⟨segment, List.mem_cons_self, ⟨hsingle, hdouble⟩,
              List.mem_singleton.mp hnew⟩)
    · exact Or.inr (Or.inl hempty)
    · exact Or.inr (Or.inr ⟨t, List.mem_cons_of_mem _ ht, hplain, heq⟩)

/-- A path always has a last segment. -/
theorem resolveSegments_ne_nil {segments : List (List Char)} (hne : segments ≠ []) :
    ∀ done, resolveSegments encode done segments ≠ [] := by
  induction segments with
  | nil => exact absurd rfl hne
  | cons segment rest ih =>
    intro done
    cases rest with
    | nil =>
      rw [resolveSegments, resolveSegments, addSegment]
      split_ifs <;> simp_all
    | cons next rest => exact ih (List.cons_ne_nil _ _) _

/-- Nothing new stands in a path of which nothing is encoded. -/
theorem mem_of_mem_readPath (hencode : ∀ c, encode c = [c] ∨ '%' ∈ encode c) {text : List Char}
    (h : '%' ∉ readPath encode text) {c : Char} (hc : c ∈ readPath encode text) :
    c = '/' ∨ c ∈ text := by
  obtain ⟨s, hs, hmem⟩ := List.mem_flatMap.mp hc
  rcases List.mem_cons.mp hmem with hslash | hmem
  · exact Or.inl hslash
  have hpercent : '%' ∉ s := by
    intro hin
    exact h (List.mem_flatMap.mpr ⟨s, hs, List.mem_cons_of_mem _ hin⟩)
  rcases mem_resolveSegments hs with hold | rfl | ⟨t, ht, -, rfl⟩
  · cases hold
  · cases hmem
  · rw [encode_eq hencode hpercent] at hmem
    exact Or.inr (List.mem_of_mem_tail ((Chars.mem_splitOnP ht).1.subset hmem))

/-- **What has been parsed stays as it is**, unless it shows a percent sign. -/
theorem settledPath_readPath (hencode : ∀ c, encode c = [c] ∨ '%' ∈ encode c) {text : List Char}
    (h : '%' ∉ readPath encode text) : SettledPath encode (readPath encode text) := by
  have hne : resolveSegments encode [] (segmentsOf text.tail) ≠ [] :=
    resolveSegments_ne_nil (List.splitOn_ne_nil '/' text.tail) []
  refine settledPath_writePath hne (fun s hs => ?_)
  have hpercent : '%' ∉ s := by
    intro hmem
    exact h (List.mem_flatMap.mpr ⟨s, hs, List.mem_cons_of_mem _ hmem⟩)
  rcases mem_resolveSegments hs with hold | rfl | ⟨t, ht, hplain, rfl⟩
  · cases hold
  · exact ⟨⟨by decide, by decide⟩, List.not_mem_nil, rfl⟩
  · have hsame := encode_eq hencode hpercent
    rw [hsame]
    refine ⟨hplain, fun hslash => ?_, hsame⟩
    have hno := Chars.not_of_mem_splitOnP ht '/' hslash
    cases hno

end

/-! ## Schemes -/

/-- A scheme: a letter, then letters, digits and three signs. -/
def validScheme : List Char → Bool
  | [] => false
  | c :: cs => c.isAlpha && cs.all (fun d => d.isAlphanum || d == '+' || d == '-' || d == '.')

/-- The scheme in lower case, and what follows its colon. -/
def splitScheme (text : List Char) : Option (List Char × List Char) :=
  match text.dropWhile (· != ':') with
  | [] => none
  | _ :: rest =>
    if validScheme (text.takeWhile (· != ':')) then
      some ((text.takeWhile (· != ':')).map Char.toLower, rest)
    else none

theorem splitScheme_some {text scheme rest : List Char} (h : splitScheme text = some (scheme, rest)) :
    ∃ name, text = name ++ ':' :: rest ∧ ':' ∉ name ∧ validScheme name = true ∧
      scheme = name.map Char.toLower := by
  rw [splitScheme] at h
  split at h
  · cases h
  · rename_i colon after hafter
    split at h
    · rename_i hvalid
      cases h
      refine ⟨text.takeWhile (· != ':'), ?_, fun hmem => ?_, hvalid, rfl⟩
      · have hhead := List.head?_dropWhile_not (· != ':') text
        rw [hafter] at hhead
        have hcolon : colon = ':' := by simpa using hhead
        have htext := List.takeWhile_append_dropWhile (p := (· != ':')) (l := text)
        rw [hafter, hcolon] at htext
        exact htext.symm
      · have hne := List.mem_takeWhile_imp hmem
        simp at hne
    · cases h

theorem splitScheme_append {name : List Char} (hname : ':' ∉ name) (hvalid : validScheme name = true)
    (rest : List Char) :
    splitScheme (name ++ ':' :: rest) = some (name.map Char.toLower, rest) := by
  have hkeep : ∀ c ∈ name, (c != ':') = true := by
    intro c hc
    rw [bne_iff_ne]
    rintro rfl
    exact hname hc
  have hstop : ((':' : Char) != ':') = false := by decide
  rw [splitScheme, List.dropWhile_append_of_pos hkeep, List.takeWhile_append_of_pos hkeep,
    List.dropWhile_cons, List.takeWhile_cons, hstop]
  simp [hvalid]

/-! ## Parsing -/

/-- What stands before the path. -/
structure Authority (Host : Type) where
  username : List Char
  password : Option (List Char)
  host : Option Host
  port : Option Nat

/-- A URL. -/
structure Url (Host : Type) where
  scheme : List Char
  authority : Authority Host
  cannotBeABase : Bool
  path : List Char
  query : Option (List Char)
  fragment : Option (List Char)

/-- What the standard says elsewhere: how an authority is read for a scheme and written, and what is
    percent-encoded. -/
structure Parts (Host : Type) where
  readAuthority : List Char → List Char → Option (Authority Host)
  writeAuthority : Authority Host → List Char
  encodePath : Char → List Char
  encodeQuery : List Char → List Char
  encodeFragment : List Char → List Char

/-- The end of an authority. -/
def stops (c : Char) : Bool := c == '/' || c == '?' || c == '#'

/-- The end of a path. -/
def tails (c : Char) : Bool := c == '?' || c == '#'

/-- What can stand in a written authority without user-info: visible ASCII that ends nothing. -/
def authorityChar (c : Char) : Bool :=
  0x21 ≤ c.toNat && c.toNat ≤ 0x7E && !stops c && c != '@' && c != '\\'

/-- What the standard promises about them. -/
structure Parts.Lawful {Host : Type} (P : Parts Host) : Prop where
  /-- Encoding writes a percent sign. -/
  encodes : ∀ c, P.encodePath c = [c] ∨ '%' ∈ P.encodePath c
  /-- Letters, digits and hyphens are not encoded. -/
  keeps : ∀ c, c.isAlphanum = true ∨ c = '-' → P.encodePath c = [c]
  /-- A special URL has a host. -/
  host : ∀ scheme text a, P.readAuthority scheme text = some a → a.host.isSome = true
  /-- A written authority is read as the same. -/
  read_write : ∀ scheme text a, P.readAuthority scheme text = some a →
    P.readAuthority scheme (P.writeAuthority a) = some a
  /-- Without user-info it is not empty and ends nothing. -/
  write_plain : ∀ scheme text a, P.readAuthority scheme text = some a → a.username = [] →
    a.password = none → P.writeAuthority a ≠ [] ∧ ∀ c ∈ P.writeAuthority a, authorityChar c = true

section

variable {Host : Type} (P : Parts Host)

/-- The text of the authority, after any slashes. -/
def authorityText (rest : List Char) : List Char :=
  (rest.dropWhile (· == '/')).takeWhile (fun c => !stops c)

/-- What follows the authority. -/
def afterAuthority (rest : List Char) : List Char :=
  (rest.dropWhile (· == '/')).dropWhile (fun c => !stops c)

/-- The text of the path. -/
def pathText (rest : List Char) : List Char := (afterAuthority rest).takeWhile (fun c => !tails c)

/-- The text between a question mark and a number sign. -/
def queryText : List Char → Option (List Char)
  | '?' :: text => some (text.takeWhile (· != '#'))
  | _ => none

/-- The text after a number sign. -/
def fragmentText (text : List Char) : Option (List Char) :=
  match text.dropWhile (· != '#') with
  | [] => none
  | _ :: fragment => some fragment

/-- What the standard's parser makes of the rest after a special scheme. -/
def parseHierarchical (scheme rest : List Char) : Option (Url Host) :=
  let tail := (afterAuthority rest).dropWhile (fun c => !tails c)
  (P.readAuthority scheme (authorityText rest)).map fun authority => {
    scheme := scheme
    authority := authority
    cannotBeABase := false
    path := readPath P.encodePath (pathText rest)
    query := (queryText tail).map P.encodeQuery
    fragment := (fragmentText tail).map P.encodeFragment }

/-- The text of a URL. -/
def writeUrl (url : Url Host) : List Char :=
  url.scheme ++ "://".toList ++ P.writeAuthority url.authority ++ url.path ++
    (match url.query with | some query => '?' :: query | none => []) ++
    (match url.fragment with | some fragment => '#' :: fragment | none => [])

/-- A relative path joined to a URL: it takes the place of the last segment. -/
def joinPath (url : Url Host) (text : List Char) : Url Host :=
  { url with
    path := writePath (resolveSegments P.encodePath (segmentsOf url.path.tail).dropLast (segmentsOf text))
    query := none
    fragment := none }

end

/-! ## What is written -/

theorem stops_of_authorityChar {c : Char} (h : authorityChar c = true) : stops c = false := by
  simp only [authorityChar, Bool.and_eq_true, Bool.not_eq_true'] at h
  exact h.1.1.2

/-- An authority between two slashes and a path. -/
theorem cut_authority {authority path : List Char} (hne : authority ≠ [])
    (hauthority : ∀ c ∈ authority, stops c = false) :
    authorityText ('/' :: '/' :: (authority ++ '/' :: path)) = authority ∧
      afterAuthority ('/' :: '/' :: (authority ++ '/' :: path)) = '/' :: path := by
  have hslash : ('/' == '/') = true := rfl
  have hstop : (!stops '/') = false := rfl
  have hkeep : ∀ c ∈ authority, (!stops c) = true := by
    intro c hc
    rw [hauthority c hc]
    rfl
  have hskip : ('/' :: '/' :: (authority ++ '/' :: path)).dropWhile (· == '/') =
      authority ++ '/' :: path := by
    cases authority with
    | nil => exact absurd rfl hne
    | cons c authority =>
      have hc : (c == '/') = false := by
        rw [beq_eq_false_iff_ne]
        rintro rfl
        cases hauthority '/' List.mem_cons_self
      rw [List.dropWhile_cons, if_pos hslash, List.dropWhile_cons, if_pos hslash, List.cons_append,
        List.dropWhile_cons, hc, if_neg Bool.false_ne_true]
  rw [authorityText, afterAuthority, hskip, List.takeWhile_append_of_pos hkeep,
    List.dropWhile_append_of_pos hkeep, List.takeWhile_cons, List.dropWhile_cons, hstop]
  simp

section

variable {Host : Type} {P : Parts Host} {a : Authority Host} {scheme authority path text : List Char}

/-- **Reading what is written.**  A URL without user-info, query and fragment whose path stays as it is
    parses to itself. -/
theorem parseHierarchical_writeUrl (hne : authority ≠ [])
    (hauthority : ∀ c ∈ authority, stops c = false)
    (hread : P.readAuthority scheme authority = some a) (hpath : ∀ c ∈ path, tails c = false)
    (hsame : readPath P.encodePath ('/' :: path) = '/' :: path) :
    parseHierarchical P scheme ('/' :: '/' :: (authority ++ '/' :: path)) = some {
      scheme := scheme
      authority := a
      cannotBeABase := false
      path := '/' :: path
      query := none
      fragment := none } := by
  obtain ⟨hcut, hafter⟩ : authorityText ('/' :: '/' :: (authority ++ '/' :: path)) = authority ∧
      afterAuthority ('/' :: '/' :: (authority ++ '/' :: path)) = '/' :: path :=
    cut_authority hne hauthority
  have hkeep : ∀ c ∈ '/' :: path, (!tails c) = true := by
    intro c hc
    rcases List.mem_cons.mp hc with rfl | hc
    · rfl
    · rw [hpath c hc]
      rfl
  have htext : pathText ('/' :: '/' :: (authority ++ '/' :: path)) = '/' :: path := by
    rw [pathText, hafter, List.takeWhile_eq_self_iff.mpr hkeep]
  have htail : ('/' :: path).dropWhile (fun c => !tails c) = [] := List.dropWhile_eq_nil_iff.mpr hkeep
  simp only [parseHierarchical, hcut, hread, htext, hafter, htail, hsame, Option.map_some]
  rfl

/-- A relative path follows a path that ends in a slash. -/
theorem joinPath_path {url : Url Host} (hpath : url.path = '/' :: path)
    (hslash : path = [] ∨ ∃ before, path = before ++ ['/'])
    (hplain : ∀ s ∈ segmentsOf text, NotDots s ∧ s.flatMap P.encodePath = s) :
    (joinPath P url text).path = url.path ++ text := by
  have htext : (segmentsOf text).map (fun s => s.flatMap P.encodePath) = segmentsOf text := by
    rw [List.map_congr_left (fun s hs => (hplain s hs).2), List.map_id']
  have hresolve : ∀ done, resolveSegments P.encodePath done (segmentsOf text) =
      done ++ (segmentsOf text).map (fun s => s.flatMap P.encodePath) :=
    resolveSegments_plain (fun s hs => (hplain s hs).1)
  rw [htext] at hresolve
  have hjoin : (joinPath P url text).path =
      writePath ((segmentsOf path).dropLast ++ segmentsOf text) := by
    rw [joinPath, hpath, List.tail_cons, hresolve]
  rw [hjoin, hpath, writePath_append, writePath_segmentsOf]
  rcases hslash with rfl | ⟨before, rfl⟩
  · rfl
  · have hsplit : segmentsOf (before ++ ['/']) = segmentsOf before ++ [[]] := by
      rw [segmentsOf, List.splitOn_append_cons_self, List.splitOn_nil]
    rw [hsplit, List.dropLast_concat, writePath_segmentsOf]
    simp

end

end UrlStandard
