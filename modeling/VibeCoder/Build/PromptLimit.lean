/-
  The length of a repair prompt.

  1. **Counting** — the bytes of the prompt of a failed build, from the lengths of the lines and
     diagnostics it shows (`byteLen_promptText`).

  2. **The limit** — a plan is made iff these are at most 48 KiB (`plan_iff_promptBytes`).

  3. **Too much** — the bounds on the parts do not add up to less than that: 32 diagnostics of 512
     bytes and an excerpt of nearly 32 KiB are too long with the text around them
     (`repeatedErrors_refused`).
-/
import VibeCoder.Build.Evidence

namespace VibeCoder.Build

open Chars

/-! ## Counting -/

theorem byteLen_literal {cs : List Char} {n : Nat} (h : byteLen cs = n) :
    byteLen (String.ofList cs).toList = n := by
  rw [String.toList_ofList]
  exact h

/-- The length of an excerpt that is put together from lines of these lengths. -/
def excerptLength (used : Nat) : List Nat → Nat
  | [] => used
  | n :: rest =>
    let extra := n + if used = 0 then 0 else 1
    if used + extra > maxRepairEvidenceBytes then used else excerptLength (used + extra) rest

/-- The length of the excerpt of lines of these lengths. -/
def excerptBytes (lengths : List Nat) : Nat :=
  if lengths.isEmpty then 34
  else if excerptLength 0 lengths = 0 then 47
  else excerptLength 0 lengths

theorem byteLen_excerptFrom (excerpt : List Char) (lines : List (List Char)) :
    byteLen (excerptFrom excerpt lines) = excerptLength (byteLen excerpt) (lines.map byteLen) := by
  induction lines generalizing excerpt with
  | nil => rfl
  | cons line lines ih =>
    have hempty : excerpt.isEmpty = true ↔ byteLen excerpt = 0 := by
      rw [List.isEmpty_iff, byteLen_eq_zero]
    have hfeed : byteLen ['\n'] = 1 := by decide
    rw [excerptFrom, List.map_cons, excerptLength]
    simp only [hempty]
    by_cases hzero : byteLen excerpt = 0
    · simp only [hzero, if_true]
      split
      · exact hzero
      · rw [ih]
        congr 1
        omega
    · simp only [hzero, if_false]
      split
      · rfl
      · have hcons : '\n' :: line = ['\n'] ++ line := rfl
        rw [ih, byteLen_append, hcons, byteLen_append, hfeed]
        congr 1
        omega

theorem byteLen_boundedExcerpt (lines : List (List Char)) :
    byteLen (boundedExcerpt lines) = excerptBytes (lines.map byteLen) := by
  have hnone : byteLen noOutputExcerpt = 34 := byteLen_literal (by decide)
  have hlong : byteLen oversizedExcerpt = 47 := byteLen_literal (by decide)
  have hfrom := byteLen_excerptFrom [] lines
  have hempty : (excerptFrom [] lines).isEmpty = true ↔
      excerptLength 0 (lines.map byteLen) = 0 := by
    rw [List.isEmpty_iff, ← byteLen_eq_zero, hfrom]
    rfl
  unfold boundedExcerpt excerptBytes
  dsimp only
  rw [List.isEmpty_map]
  simp only [hempty]
  split
  · exact hnone
  split
  · exact hlong
  · exact hfrom

/-- The bytes a shown diagnostic takes beside its frame of three. -/
def ShownDiagnostic.bytes (s : ShownDiagnostic) : Nat := byteLen s.message + byteLen s.location

/-- The bytes of the prompt of a failed build: of the text that is always there, and of the exit
    code, the diagnostics, the excerpt and the note. -/
def promptBytes (result : BuildResult) : Nat :=
  756 + byteLen (exitCodeText result.exitCode) +
    (if (shown result).isEmpty then 18
      else ((shown result).map (fun s => 3 + s.bytes)).sum) +
    excerptBytes ((selectedLines result.output).map byteLen) +
    (if result.output.stdoutTruncated || result.output.stderrTruncated ||
        result.output.liveEventQueueOverflowed then 96 else 0)

theorem byteLen_flatMap_text (ss : List ShownDiagnostic) :
    byteLen (ss.flatMap ShownDiagnostic.text) = (ss.map (fun s => 3 + s.bytes)).sum := by
  have hdash : byteLen ['-', ' '] = 2 := by decide
  have hfeed : byteLen ['\n'] = 1 := by decide
  induction ss with
  | nil => rfl
  | cons s ss ih =>
    rw [List.flatMap_cons, byteLen_append, ih, List.map_cons, List.sum_cons]
    unfold ShownDiagnostic.text ShownDiagnostic.bytes
    rw [byteLen_append, byteLen_append, byteLen_append, hdash, hfeed]
    omega

theorem byteLen_diagnosticsBlock (ss : List ShownDiagnostic) :
    byteLen (diagnosticsBlock ss) =
      if ss.isEmpty then 18 else (ss.map (fun s => 3 + s.bytes)).sum := by
  have hnone : byteLen noneNormalized = 18 := byteLen_literal (by decide)
  unfold diagnosticsBlock
  split
  · exact hnone
  · exact byteLen_flatMap_text ss

/-- Two digits a byte. -/
theorem byteLen_hex (bytes : List UInt8) : byteLen (bytes.flatMap hexByte) = 2 * bytes.length := by
  have hdigit : ∀ n, n < 16 → (Nat.digitChar n).utf8Size = 1 := by decide
  induction bytes with
  | nil => rfl
  | cons byte bytes ih =>
    have hbyte : byte.toNat < 256 := byte.toNat_lt
    have hhigh := hdigit (byte.toNat / 16) (by omega)
    have hlow := hdigit (byte.toNat % 16) (by omega)
    rw [List.flatMap_cons, byteLen_append, ih, List.length_cons]
    unfold hexByte
    rw [byteLen_cons, byteLen_cons, byteLen_nil, hhigh, hlow]
    omega

theorem byteLen_append_eq {as bs : List Char} {m n : Nat} (ha : byteLen as = m)
    (hb : byteLen bs = n) : byteLen (as ++ bs) = m + n := by
  rw [byteLen_append, ha, hb]

theorem byteLen_promptHeader : byteLen promptHeader = 118 + 100 + 117 + 109 + 79 := by
  refine byteLen_append_eq (byteLen_append_eq (byteLen_append_eq (byteLen_append_eq ?_ ?_) ?_) ?_) ?_
  · exact byteLen_literal (by decide)
  · exact byteLen_literal (by decide)
  · exact byteLen_literal (by decide)
  · exact byteLen_literal (by decide)
  · exact byteLen_literal (by decide)

/-- **The length of the prompt** is the sum of the lengths of its parts. -/
theorem byteLen_promptText {sha256 : Sha256} {result : BuildResult} {evidence : BuildFailureEvidence}
    (h : Captured sha256 result evidence) : byteLen (promptText evidence) = promptBytes result := by
  have htarget : byteLen (targetTag evidence.target) = 7 := by
    cases evidence.target with
    | website => exact byteLen_literal (by decide)
    | android => exact byteLen_literal (by decide)
  have hfingerprint : byteLen evidence.fingerprintSha256 = 64 := by
    obtain ⟨digest, hdigest⟩ := h.fingerprintSha256
    rw [hdigest, byteLen_hex, Vector.length_toList]
  have hlead : byteLen targetLead = 14 := byteLen_literal (by decide)
  have hexit : byteLen exitCodeLead = 12 := byteLen_literal (by decide)
  have hprint : byteLen fingerprintLead = 22 := byteLen_literal (by decide)
  have hdiagnostics : byteLen diagnosticsLead = 22 := byteLen_literal (by decide)
  have hevidence : byteLen evidenceTitle = 32 := byteLen_literal (by decide)
  have hbegin : byteLen beginDelimiter = 25 := byteLen_literal (by decide)
  have hend : byteLen endDelimiter = 29 := byteLen_literal (by decide)
  have hfeed : byteLen ['\n'] = 1 := by decide
  have hnote : byteLen (truncationNote evidence) =
      if result.output.stdoutTruncated || result.output.stderrTruncated ||
        result.output.liveEventQueueOverflowed then 96 else 0 := by
    unfold truncationNote
    rw [h.stdoutTruncated, h.stderrTruncated, h.eventQueueOverflowed]
    split
    · exact byteLen_literal (by decide)
    · rfl
  unfold promptText promptHead promptStart promptBytes
  simp only [byteLen_append]
  rw [byteLen_promptHeader, htarget, hfingerprint, hlead, hexit, hprint, hdiagnostics, hevidence,
    hbegin, hend, hfeed, hnote, byteLen_diagnosticsBlock, h.diagnostics, h.excerpt, h.exitCode,
    byteLen_boundedExcerpt]
  omega

/-! ## The limit -/

theorem plan_of_promptBytes (sha256 : Sha256) {result : BuildResult}
    (hfailed : result.state = .failed) (hfits : promptBytes result ≤ maxRepairPromptBytes) :
    ∃ plan, BuildRepairPlan.fromFailedBuild sha256 result = .ok plan ∧
      byteLen plan.prompt ≤ maxRepairPromptBytes := by
  obtain ⟨evidence, hevidence, hcaptured⟩ := captureBuildFailure_ok sha256 hfailed
  rw [← byteLen_promptText hcaptured] at hfits
  exact ⟨_, (fromFailedBuild_eq_ok hevidence).mpr ⟨rfl, hfits⟩, hfits⟩

theorem promptBytes_of_plan {sha256 : Sha256} {result : BuildResult} {plan : BuildRepairPlan}
    (hfailed : result.state = .failed)
    (hplan : BuildRepairPlan.fromFailedBuild sha256 result = .ok plan) :
    promptBytes result ≤ maxRepairPromptBytes := by
  obtain ⟨evidence, hevidence, hcaptured⟩ := captureBuildFailure_ok sha256 hfailed
  rw [← byteLen_promptText hcaptured]
  exact ((fromFailedBuild_eq_ok hevidence).mp hplan).2

/-- **A plan is made** of a failed build iff its prompt has room for what it is to show. -/
theorem plan_iff_promptBytes (sha256 : Sha256) {result : BuildResult}
    (hfailed : result.state = .failed) :
    (∃ plan, BuildRepairPlan.fromFailedBuild sha256 result = .ok plan ∧
      byteLen plan.prompt ≤ maxRepairPromptBytes) ↔ promptBytes result ≤ maxRepairPromptBytes := by
  constructor
  · rintro ⟨plan, hplan, -⟩
    exact promptBytes_of_plan hfailed hplan
  · exact plan_of_promptBytes sha256 hfailed

/-- A build that failed without a word. -/
def silentFailure : BuildResult :=
  BuildResult.fromProcessResult ⟨⟨1⟩, ⟨2⟩, .website⟩
    { processId := ⟨3⟩
      termination := .exited
      exitCode := some 1
      stdout := []
      stderr := []
      stdoutTruncated := false
      stderrTruncated := false
      eventQueueOverflowed := false
      durationMs := 5 }

/-- The SHA-256 digest of what is hashed for that build. -/
def silentDigest : Vector UInt8 32 :=
  #v[0x7e, 0x22, 0x04, 0xbb, 0xa3, 0x12, 0x06, 0x96, 0x1a, 0x8b, 0x58, 0x9e, 0x3a, 0x54, 0x5d, 0x74,
    0x69, 0x60, 0x40, 0x0a, 0x90, 0x6a, 0x81, 0xc9, 0x70, 0x51, 0x05, 0xb9, 0x6a, 0x7c, 0xb2, 0x56]

theorem silentFailure_plan :
    ∃ plan, BuildRepairPlan.fromFailedBuild (fun _ => silentDigest) silentFailure = .ok plan ∧
      byteLen plan.prompt ≤ maxRepairPromptBytes :=
  (plan_iff_promptBytes (fun _ => silentDigest) rfl).mpr (by decide)

/-! ## Too much -/

/-- A line of output that is shown as it is, and looks like an error. -/
structure ErrorLine (label raw line : List Char) : Prop where
  clean : sanitizeOutputLine raw ≠ []
  shown : shownLine label raw = line
  error : looksLikeError line = true

/-- As long as there is room, an error line is kept as one each time it comes. -/
theorem collectLines_same {label raw line : List Char} (h : ErrorLine label raw line)
    (indices : List Nat) (errorLines tail : List (Nat × List Char))
    (hroom : errorLines.length + indices.length ≤ maxRepairErrorLinesPerStream)
    (htail : ∀ t ∈ tail, t ∈ errorLines) :
    (collectLines label (indices.map (fun i => (i, raw))) errorLines tail).1 =
        errorLines ++ indices.map (fun i => (i, line)) ∧
      ∀ t ∈ (collectLines label (indices.map (fun i => (i, raw))) errorLines tail).2,
        t ∈ errorLines ++ indices.map (fun i => (i, line)) := by
  induction indices generalizing errorLines tail with
  | nil =>
    rw [List.map_nil, List.map_nil, List.append_nil]
    exact ⟨rfl, htail⟩
  | cons i indices ih =>
    rw [List.length_cons] at hroom
    have hkept : looksLikeError line = true ∧ errorLines.length < maxRepairErrorLinesPerStream :=
      ⟨h.error, by omega⟩
    have hstep : collectLines label (List.map (fun i => (i, raw)) (i :: indices)) errorLines tail =
        collectLines label (indices.map (fun i => (i, raw))) (errorLines ++ [(i, line)])
          ((if tail.length = maxRepairTailLinesPerStream then tail.tail else tail) ++
            [(i, line)]) := by
      have hshown : truncate ('[' :: label ++ [']', ' '] ++ sanitizeOutputLine raw)
          maxRepairLineBytes = line := h.shown
      rw [List.map_cons, collectLines]
      simp only [List.isEmpty_iff, if_neg h.clean, hshown, if_pos hkept]
    have hassoc : errorLines ++ (i :: indices).map (fun i => (i, line)) =
        errorLines ++ [(i, line)] ++ indices.map (fun i => (i, line)) := by
      rw [List.map_cons, List.append_assoc, List.singleton_append]
    rw [hstep, hassoc]
    apply ih
    · rw [List.length_append, List.length_singleton]
      omega
    · intro t ht
      rcases List.mem_append.mp ht with hold | hnew
      · refine List.mem_append_left _ (htail t ?_)
        split at hold
        · exact List.mem_of_mem_tail hold
        · exact hold
      · exact List.mem_append_right _ hnew

/-- A tail of lines that are among the error lines adds nothing. -/
theorem merge_known {errorLines tail : List (Nat × List Char)} (h : ∀ t ∈ tail, t ∈ errorLines) :
    tail.foldl (fun merged candidate =>
      if merged.any (fun entry => entry.1 == candidate.1) then merged
      else merged ++ [candidate]) errorLines = errorLines := by
  induction tail with
  | nil => rfl
  | cons t tail ih =>
    have hknown : errorLines.any (fun entry => entry.1 == t.1) = true :=
      List.any_eq_true.mpr ⟨t, h t List.mem_cons_self, beq_self_eq_true _⟩
    rw [List.foldl_cons, if_pos hknown]
    exact ih (fun u hu => h u (List.mem_cons_of_mem _ hu))

/-- The bytes of `count` lines, all the same. -/
def repeatedLine (count : Nat) (raw : List Char) : List UInt8 :=
  ((List.replicate count raw).map (· ++ ['\n'])).flatten.map (fun c => UInt8.ofNat c.toNat)

/-- A stream that repeats one error line is selected whole, up to 96 lines. -/
theorem selectStreamLines_repeated {label raw line : List Char} (h : ErrorLine label raw line)
    (hascii : ∀ c ∈ raw, c.toNat < 0x80 ∧ c ≠ '\n') (hreturn : raw.getLast? ≠ some '\r')
    {count : Nat} (hcount : count ≤ maxRepairErrorLinesPerStream) :
    selectStreamLines (repeatedLine count raw) label = List.replicate count line := by
  have hchars : ∀ c ∈ ((List.replicate count raw).map (· ++ ['\n'])).flatten, c.toNat < 0x80 := by
    intro c hc
    obtain ⟨l, hl, hc⟩ := List.mem_flatten.mp hc
    obtain ⟨l', hl', rfl⟩ := List.mem_map.mp hl
    rw [List.eq_of_mem_replicate hl'] at hc
    rcases List.mem_append.mp hc with hraw | hfeed
    · exact (hascii c hraw).1
    · rw [List.mem_singleton.mp hfeed]
      decide
  have hdecoded : decodeLossy (repeatedLine count raw) =
      ((List.replicate count raw).map (· ++ ['\n'])).flatten := by
    unfold repeatedLine
    have hbyte : ∀ c ∈ ((List.replicate count raw).map (· ++ ['\n'])).flatten,
        (UInt8.ofNat c.toNat).toNat = c.toNat := by
      intro c hc
      have hlt := hchars c hc
      rw [UInt8.toNat_ofNat']
      omega
    rw [decodeLossy_ascii, List.map_map]
    · conv_rhs => rw [← List.map_id (List.flatten _)]
      refine List.map_congr_left (fun c hc => ?_)
      rw [Function.comp, hbyte c hc, Char.ofNat_toNat]
      rfl
    · intro b hb
      obtain ⟨c, hc, rfl⟩ := List.mem_map.mp hb
      rw [hbyte c hc]
      exact hchars c hc
  have hlines : enumerateLines (decodeLossy (repeatedLine count raw)) =
      (List.range count).map (fun i => (i, raw)) := by
    have hall : lines (decodeLossy (repeatedLine count raw)) = List.replicate count raw := by
      have hsame : stripReturn raw = raw := if_neg hreturn
      rw [hdecoded, lines_flatten, List.map_replicate, hsame]
      intro l hl hfeed
      rw [List.eq_of_mem_replicate hl] at hfeed
      exact (hascii _ hfeed).2 rfl
    unfold enumerateLines
    dsimp only
    rw [hall, List.length_replicate]
    apply List.ext_getElem
    · simp
    · intro i _ _
      simp
  have hroom : ([] : List (Nat × List Char)).length + (List.range count).length ≤
      maxRepairErrorLinesPerStream := by
    rw [List.length_range, List.length_nil, Nat.zero_add]
    exact hcount
  have hcollected := collectLines_same h (List.range count) [] [] hroom (fun t ht => ht)
  have hsorted : ((List.range count).map (fun i => (i, line))).Pairwise (fun a b => a.1 ≤ b.1) := by
    rw [List.pairwise_map]
    exact List.pairwise_lt_range.imp Nat.le_of_lt
  unfold selectStreamLines
  rw [hlines]
  dsimp only
  rw [merge_known (fun t ht => hcollected.1 ▸ hcollected.2 t ht), hcollected.1, List.nil_append,
    List.Pairwise.insertionSort_eq hsorted, List.map_map]
  show List.map (fun _ => line) (List.range count) = _
  rw [List.map_const', List.length_range]

/-- An error line of 503 bytes. -/
def longError : List Char := ['e', 'r', 'r', 'o', 'r', ' '] ++ List.replicate 497 'x'

/-- As it is shown. -/
def shownError : List Char := '[' :: "stderr".toList ++ [']', ' '] ++ longError

theorem longError_line : ErrorLine "stderr".toList longError shownError := by
  have hclean : sanitizeOutputLine longError = longError := by set_option maxRecDepth 20000 in decide
  refine ⟨?_, ?_, by decide⟩
  · rw [hclean]
    exact List.cons_ne_nil _ _
  · unfold shownLine
    rw [hclean]
    set_option maxRecDepth 20000 in decide

/-- A build whose tool printed 64 of them. -/
def repeatedErrors : BuildResult :=
  BuildResult.fromProcessResult ⟨⟨1⟩, ⟨2⟩, .website⟩
    { processId := ⟨3⟩
      termination := .exited
      exitCode := some 1
      stdout := []
      stderr := repeatedLine 64 longError
      stdoutTruncated := false
      stderrTruncated := false
      eventQueueOverflowed := false
      durationMs := 5 }

theorem repeatedErrors_lines : selectedLines repeatedErrors.output = List.replicate 64 shownError := by
  have hreturn : longError.getLast? ≠ some '\r' := by set_option maxRecDepth 20000 in decide
  have hall : longError.all (fun c => decide (c.toNat < 0x80 ∧ c ≠ '\n')) = true := by
    set_option maxRecDepth 20000 in decide
  have hascii : ∀ c ∈ longError, c.toNat < 0x80 ∧ c ≠ '\n' :=
    fun c hc => of_decide_eq_true (List.all_eq_true.mp hall c hc)
  have hstdout : selectStreamLines [] "stdout".toList = [] := rfl
  unfold selectedLines
  show selectStreamLines (repeatedLine 64 longError) _ ++ selectStreamLines [] _ = _
  rw [selectStreamLines_repeated longError_line hascii hreturn (by decide), hstdout, List.append_nil]

theorem repeatedErrors_shown : shown repeatedErrors = List.replicate 32 ⟨shownError, none, none⟩ := by
  have hcut : truncate shownError maxDiagnosticPromptBytes = shownError := by set_option maxRecDepth 20000 in decide
  have hreported : (reported repeatedErrors).isEmpty = true := rfl
  have hcount : min maxRepairDiagnostics 64 = 32 := by decide
  unfold shown
  rw [if_pos hreported, repeatedErrors_lines, List.filter_replicate_of_pos longError_line.error,
    List.take_replicate, List.map_replicate, hcut, hcount]

theorem promptBytes_of_lines {result : BuildResult} {ss : List ShownDiagnostic}
    {lines : List (List Char)} {exit note : Nat} (hshown : shown result = ss)
    (hlines : selectedLines result.output = lines)
    (hexit : byteLen (exitCodeText result.exitCode) = exit)
    (hnote : (if result.output.stdoutTruncated || result.output.stderrTruncated ||
        result.output.liveEventQueueOverflowed then 96 else 0) = note) :
    promptBytes result =
      756 + exit + (if ss.isEmpty then 18 else (ss.map (fun s => 3 + s.bytes)).sum) +
        excerptBytes (lines.map byteLen) + note := by
  unfold promptBytes
  rw [hshown, hlines, hexit, hnote]

theorem promptBytes_repeatedErrors : promptBytes repeatedErrors = 49555 := by
  have hmessage : byteLen shownError = 512 := by set_option maxRecDepth 20000 in decide
  have hbytes : 3 + (⟨shownError, none, none⟩ : ShownDiagnostic).bytes = 515 := by
    unfold ShownDiagnostic.bytes
    rw [hmessage]
    rfl
  have hexcerpt : excerptBytes (List.replicate 64 512) = 32318 := by decide
  have hexit : byteLen (exitCodeText repeatedErrors.exitCode) = 1 := by decide
  rw [promptBytes_of_lines repeatedErrors_shown repeatedErrors_lines hexit rfl, List.map_replicate,
    List.map_replicate, hmessage, hbytes, hexcerpt]
  decide

/-- No plan is made of that build, whatever the digest. -/
theorem repeatedErrors_refused : repeatedErrors.state = .failed ∧
    ∀ sha256, ¬ ∃ plan, BuildRepairPlan.fromFailedBuild sha256 repeatedErrors = .ok plan := by
  refine ⟨rfl, fun sha256 hplan => ?_⟩
  obtain ⟨plan, hplan⟩ := hplan
  have hfits := promptBytes_of_plan (show repeatedErrors.state = .failed from rfl) hplan
  rw [promptBytes_repeatedErrors] at hfits
  exact absurd hfits (by decide)

end VibeCoder.Build
