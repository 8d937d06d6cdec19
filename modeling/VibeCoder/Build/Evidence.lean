/-
  What a repair prompt is made of.

  1. **Selected lines** — every line that is selected is shown text: not empty, nothing hidden in
     it, at most 2 KiB (`selectedLines_shown`).

  2. **The evidence** — it can be captured of every failed build (`captureBuildFailure_ok`), and
     what the prompt shows of its diagnostics is `shown result`.

  3. **The prompt** — the pieces it is put together from; it is rendered iff they are not too long
     together (`renderRepairPrompt_eq_ok`).
-/
import VibeCoder.Build.Repair

namespace VibeCoder.Build

open Chars

/-! ## Lines -/

/-- Nothing hidden in the text. -/
def Plain (cs : List Char) : Prop := ∀ c ∈ cs, isHidden c = false

theorem plain_append {as bs : List Char} (ha : Plain as) (hb : Plain bs) : Plain (as ++ bs) := by
  intro c hc
  rcases List.mem_append.mp hc with h | h
  · exact ha c h
  · exact hb c h

theorem plain_of_all {cs : List Char} (h : cs.all (fun c => !isHidden c) = true) : Plain cs := by
  intro c hc
  have hshown := List.all_eq_true.mp h c hc
  rw [Bool.not_eq_true'] at hshown
  exact hshown

theorem plain_literal {cs : List Char} (h : cs.all (fun c => !isHidden c) = true) :
    Plain (String.ofList cs).toList := by
  rw [String.toList_ofList]
  exact plain_of_all h

theorem plain_of_subset {as bs : List Char} (h : ∀ c ∈ as, c ∈ bs) (hb : Plain bs) : Plain as :=
  fun c hc => hb c (h c hc)

theorem dropHidden_plain (line : List Char) : Plain (dropHidden line) := by
  intro c hc
  obtain ⟨d, hd, rfl⟩ := List.mem_map.mp hc
  have hbidi : isBidiControl d = false := by
    have hkept := (List.mem_filter.mp hd).2
    rw [Bool.not_eq_true'] at hkept
    exact hkept
  split
  · decide
  · rename_i hcontrol
    unfold isHidden
    rw [hbidi, Bool.or_false]
    exact Bool.eq_false_iff.mpr hcontrol

theorem mem_trimChars {cs : List Char} {c : Char} (h : c ∈ trimChars cs) : c ∈ cs := by
  unfold trimChars at h
  rw [List.mem_reverse] at h
  have hback := (List.dropWhile_sublist _).subset h
  rw [List.mem_reverse] at hback
  exact (List.dropWhile_sublist _).subset hback

theorem redactAbsolutePathTokens_plain {line : List Char} (h : Plain line) :
    Plain (redactAbsolutePathTokens line) := by
  intro c hc
  have hspace : isHidden ' ' = false := by decide
  have hpath : Plain redactedAbsolutePath := plain_literal (by decide)
  unfold redactAbsolutePathTokens at hc
  rcases mem_intercalate hc with rfl | ⟨piece, hpiece, hc⟩
  · exact hspace
  · obtain ⟨word, hword, rfl⟩ := List.mem_map.mp hpiece
    split at hc
    · exact hpath c hc
    · exact h c ((mem_words hword).1.subset hc)

/-- What `sanitize_line` returns hides nothing. -/
theorem sanitizeLine_plain (raw : List Char) : Plain (sanitizeLine raw) := by
  have hredacted : Plain redactedSensitiveLine := plain_literal (by decide)
  unfold sanitizeLine
  dsimp only
  split
  · exact hredacted
  · apply redactAbsolutePathTokens_plain
    exact plain_of_subset (fun c hc => mem_trimChars hc) (dropHidden_plain _)

theorem shownText_of_plain {cs : List Char} (hne : cs ≠ []) (hplain : Plain cs) (limit max : Nat)
    (hlow : 4 ≤ limit) (hmax : limit ≤ max) : shownText (truncate cs limit) max = true := by
  unfold shownText
  have hcut : truncate cs limit ≠ [] := truncate_ne_nil hne hlow
  have hlen : byteLen (truncate cs limit) ≤ max := Nat.le_trans (byteLen_truncate_le cs limit) hmax
  have hhidden : (truncate cs limit).any isHidden = false := by
    rw [List.any_eq_false]
    intro c hc
    rw [hplain c ((truncate_isPrefix cs limit).subset hc)]
    exact Bool.false_ne_true
  rw [hhidden, Bool.and_eq_true, Bool.and_eq_true, Bool.not_eq_true', List.isEmpty_eq_false_iff,
    decide_eq_true_eq]
  exact ⟨⟨hcut, hlen⟩, rfl⟩

/-! ## Selected lines -/

/-- What a selected line is. -/
structure SelectedLine (line : List Char) : Prop where
  nonempty : line ≠ []
  plain : Plain line
  short : byteLen line ≤ maxRepairLineBytes

/-- The line that is shown of a line of output. -/
def shownLine (label raw : List Char) : List Char :=
  truncate ('[' :: label ++ [']', ' '] ++ sanitizeOutputLine raw) maxRepairLineBytes

theorem shownLine_selected {label : List Char} (hlabel : Plain label) (raw : List Char) :
    SelectedLine (shownLine label raw) := by
  have hopen : Plain ['['] := plain_of_all (by decide)
  have hclose : Plain [']', ' '] := plain_of_all (by decide)
  have hplain : Plain (sanitizeOutputLine raw) := by
    unfold sanitizeOutputLine
    split
    · exact plain_literal (by decide)
    · exact sanitizeLine_plain raw
  have hwhole : Plain ('[' :: label ++ [']', ' '] ++ sanitizeOutputLine raw) :=
    plain_append (plain_append (plain_append hopen hlabel) hclose) hplain
  refine ⟨truncate_ne_nil (List.cons_ne_nil _ _) (by decide), ?_, byteLen_truncate_le _ _⟩
  exact plain_of_subset (fun c hc => (truncate_isPrefix _ _).subset hc) hwhole

/-- The entry is that of a line of output. -/
def Taken (label : List Char) (raws : List (Nat × List Char)) (entry : Nat × List Char) : Prop :=
  ∃ raw ∈ raws, entry = (raw.1, shownLine label raw.2)

/-- The loop collects lines of the output only. -/
theorem collectLines_taken {label : List Char} {all : List (Nat × List Char)}
    (raws : List (Nat × List Char)) (hraws : ∀ raw ∈ raws, raw ∈ all)
    {errorLines tail : List (Nat × List Char)}
    (herrors : ∀ entry ∈ errorLines, Taken label all entry)
    (htail : ∀ entry ∈ tail, Taken label all entry) :
    (∀ entry ∈ (collectLines label raws errorLines tail).1, Taken label all entry) ∧
      ∀ entry ∈ (collectLines label raws errorLines tail).2, Taken label all entry := by
  induction raws generalizing errorLines tail with
  | nil => exact ⟨herrors, htail⟩
  | cons head rest ih =>
    have hrest : ∀ raw ∈ rest, raw ∈ all := fun raw hraw => hraws raw (List.mem_cons_of_mem _ hraw)
    have hadd : ∀ {entries : List (Nat × List Char)},
        (∀ entry ∈ entries, Taken label all entry) →
        ∀ entry ∈ entries ++ [(head.1, shownLine label head.2)], Taken label all entry := by
      intro entries hentries entry hentry
      rcases List.mem_append.mp hentry with hold | hnew
      · exact hentries entry hold
      · exact ⟨head, hraws head List.mem_cons_self, List.mem_singleton.mp hnew⟩
    obtain ⟨index, raw⟩ := head
    rw [collectLines]
    dsimp only
    split
    · exact ih hrest herrors htail
    · apply ih hrest
      · split
        · exact hadd herrors
        · exact herrors
      · apply hadd
        split
        · exact fun entry hentry => htail entry (List.mem_of_mem_tail hentry)
        · exact htail

theorem mem_merge {errorLines tail : List (Nat × List Char)} {entry : Nat × List Char}
    (h : entry ∈ tail.foldl
      (fun merged candidate =>
        if merged.any (fun entry => entry.1 == candidate.1) then merged
        else merged ++ [candidate]) errorLines) :
    entry ∈ errorLines ∨ entry ∈ tail := by
  induction tail generalizing errorLines with
  | nil => exact .inl h
  | cons candidate tail ih =>
    rw [List.foldl_cons] at h
    rcases ih h with hmerged | htail
    · split at hmerged
      · exact .inl hmerged
      · rcases List.mem_append.mp hmerged with hold | hnew
        · exact .inl hold
        · rw [List.mem_singleton.mp hnew]
          exact .inr List.mem_cons_self
    · exact .inr (List.mem_cons_of_mem _ htail)

/-- A line that is selected is one of the stream, as it is shown. -/
theorem mem_selectStreamLines {bytes : List UInt8} {label line : List Char}
    (h : line ∈ selectStreamLines bytes label) :
    ∃ raw ∈ lines (decodeLossy bytes), line = shownLine label raw := by
  unfold selectStreamLines at h
  obtain ⟨entry, hentry, rfl⟩ := List.mem_map.mp h
  have hnone : ∀ entry ∈ ([] : List (Nat × List Char)),
      Taken label (enumerateLines (decodeLossy bytes)) entry :=
    fun entry hentry => absurd hentry List.not_mem_nil
  have hcollected := collectLines_taken _ (fun raw hraw => hraw) hnone hnone
  have htaken : Taken label (enumerateLines (decodeLossy bytes)) entry := by
    rcases mem_merge ((List.perm_insertionSort _ _).subset hentry) with herrors | htail
    · exact hcollected.1 entry herrors
    · exact hcollected.2 entry htail
  obtain ⟨raw, hraw, rfl⟩ := htaken
  exact ⟨raw.2, (List.of_mem_zip hraw).2, rfl⟩

theorem mem_selectedLines {output : BuildOutput} {line : List Char}
    (h : line ∈ selectedLines output) :
    ∃ label ∈ ["stderr".toList, "stdout".toList], ∃ raw,
      (raw ∈ lines (decodeLossy output.stderr) ∨ raw ∈ lines (decodeLossy output.stdout)) ∧
        line = shownLine label raw := by
  rcases List.mem_append.mp h with hstderr | hstdout
  · obtain ⟨raw, hraw, hline⟩ := mem_selectStreamLines hstderr
    exact ⟨_, List.mem_cons_self, raw, .inl hraw, hline⟩
  · obtain ⟨raw, hraw, hline⟩ := mem_selectStreamLines hstdout
    exact ⟨_, List.mem_cons_of_mem _ List.mem_cons_self, raw, .inr hraw, hline⟩

theorem label_plain {label : List Char} (h : label ∈ ["stderr".toList, "stdout".toList]) :
    Plain label := by
  rcases List.mem_cons.mp h with hstderr | h
  · rw [hstderr]
    exact plain_literal (by decide)
  · rw [List.mem_singleton.mp h]
    exact plain_literal (by decide)

/-- **Selected lines are shown text.** -/
theorem selectedLines_shown {output : BuildOutput} {line : List Char}
    (h : line ∈ selectedLines output) : SelectedLine line := by
  obtain ⟨label, hlabel, raw, -, rfl⟩ := mem_selectedLines h
  exact shownLine_selected (label_plain hlabel) raw

/-! ## The evidence -/

/-- What the prompt shows of a diagnostic. -/
structure ShownDiagnostic where
  message : List Char
  relativePath : Option (List Char)
  line : Option UInt32
  deriving DecidableEq

def shownOf (d : BuildDiagnostic) : ShownDiagnostic :=
  { message := truncate d.message maxDiagnosticPromptBytes
    relativePath := d.relativePath
    line := d.line }

/-- Something is left of the message when it is sanitized. -/
def isReported (d : BuildDiagnostic) : Bool := !(sanitizeLine d.message).isEmpty

/-- The diagnostics of a result that are reported, among its first 32. -/
def reported (result : BuildResult) : List BuildDiagnostic :=
  (result.diagnostics.take maxRepairDiagnostics).filter isReported

/-- What the prompt shows of the diagnostics of a result, or, where none is reported, of the lines
    that look like errors. -/
def shown (result : BuildResult) : List ShownDiagnostic :=
  if (reported result).isEmpty then
    (((selectedLines result.output).filter looksLikeError).take maxRepairDiagnostics).map
      (fun line => ⟨truncate line maxDiagnosticPromptBytes, none, none⟩)
  else (reported result).map (fun d =>
    ⟨truncate (sanitizeLine d.message) maxDiagnosticPromptBytes, d.relativePath, d.line⟩)

/-- Sanitizing the diagnostics never fails. -/
theorem sanitizeDiagnostics_ok (ds : List BuildDiagnostic) :
    ∃ out, sanitizeDiagnostics ds = .ok out ∧
      out.map shownOf = (ds.filter isReported).map (fun d =>
        ⟨truncate (sanitizeLine d.message) maxDiagnosticPromptBytes, d.relativePath, d.line⟩) := by
  induction ds with
  | nil => exact ⟨[], rfl, rfl⟩
  | cons source rest ih =>
    obtain ⟨out, hout, hshown⟩ := ih
    rw [sanitizeDiagnostics]
    split
    · rename_i hempty
      refine ⟨out, hout, ?_⟩
      have hdrop : ¬ isReported source = true := by
        unfold isReported
        rw [hempty]
        exact Bool.false_ne_true
      rw [List.filter_cons_of_neg hdrop]
      exact hshown
    · rename_i hfull
      have hne : sanitizeLine source.message ≠ [] := fun h => hfull (by rw [h]; rfl)
      have hmessage := shownText_of_plain hne (sanitizeLine_plain source.message)
        maxRepairLineBytes maxDiagnosticMessageBytes (by decide) (by decide)
      obtain ⟨d, hd, hm, hp, hl⟩ := BuildDiagnostic.new_ok source.severity hmessage source.origin
      rw [hd, hout]
      refine ⟨d :: out, rfl, ?_⟩
      have hkeep : isReported source = true := by
        unfold isReported
        rw [Bool.not_eq_true']
        exact Bool.eq_false_iff.mpr hfull
      rw [List.filter_cons_of_pos hkeep, List.map_cons, List.map_cons, hshown]
      unfold shownOf
      rw [hm, hp, hl, truncate_truncate _ (by decide)]

theorem lineDiagnostics_shown {selected : List (List Char)}
    (h : ∀ line ∈ selected, SelectedLine line) :
    (lineDiagnostics selected).map shownOf =
      ((selected.filter looksLikeError).take maxRepairDiagnostics).map
        (fun line => ⟨truncate line maxDiagnosticPromptBytes, none, none⟩) := by
  unfold lineDiagnostics
  rw [List.map_take, List.map_take]
  congr 1
  have herrors : ∀ line ∈ selected.filter looksLikeError, SelectedLine line :=
    fun line hline => h line (List.mem_of_mem_filter hline)
  generalize selected.filter looksLikeError = errors at herrors
  induction errors with
  | nil => rfl
  | cons line errors ih =>
    have hline := herrors line List.mem_cons_self
    have hmessage := shownText_of_plain hline.nonempty hline.plain maxDiagnosticPromptBytes
      maxDiagnosticMessageBytes (by decide) (by decide)
    have horigin : validateOrigin none none none none = .ok () := rfl
    obtain ⟨d, hd, hm, hp, hl⟩ := BuildDiagnostic.new_ok .error hmessage horigin
    rw [List.filterMap_cons_some (by rw [hd]; rfl), List.map_cons, List.map_cons,
      ih (fun l hl => herrors l (List.mem_cons_of_mem _ hl))]
    unfold shownOf
    rw [hm, hp, hl, truncate_truncate _ (Nat.le_refl _)]

/-- What the evidence of a failed build holds. -/
structure Captured (sha256 : Sha256) (result : BuildResult) (evidence : BuildFailureEvidence) :
    Prop where
  projectId : evidence.projectId = result.projectId
  target : evidence.target = result.target
  exitCode : evidence.exitCode = result.exitCode
  diagnostics : evidence.diagnostics.map shownOf = shown result
  excerpt : evidence.excerpt = boundedExcerpt (selectedLines result.output)
  stdoutTruncated : evidence.stdoutTruncated = result.output.stdoutTruncated
  stderrTruncated : evidence.stderrTruncated = result.output.stderrTruncated
  eventQueueOverflowed : evidence.eventQueueOverflowed = result.output.liveEventQueueOverflowed
  fingerprintSha256 : ∃ digest : Vector UInt8 32,
    evidence.fingerprintSha256 = digest.toList.flatMap hexByte

/-- A fingerprint is a digest in hexadecimal. -/
theorem fingerprint_hex (sha256 : Sha256) (target : BuildTargetKind) (exitCode : Option Int32)
    (diagnostics : List BuildDiagnostic) (excerpt : List Char)
    (stdoutTruncated stderrTruncated eventQueueOverflowed : Bool) :
    ∃ digest : Vector UInt8 32,
      fingerprint sha256 target exitCode diagnostics excerpt stdoutTruncated stderrTruncated
        eventQueueOverflowed = digest.toList.flatMap hexByte := by
  unfold fingerprint
  exact ⟨_, rfl⟩

/-- **The evidence of a failed build can always be captured.** -/
theorem captureBuildFailure_ok (sha256 : Sha256) {result : BuildResult}
    (hfailed : result.state = .failed) :
    ∃ evidence, captureBuildFailure sha256 result = .ok evidence ∧
      Captured sha256 result evidence := by
  obtain ⟨out, hout, hshown⟩ :=
    sanitizeDiagnostics_ok (result.diagnostics.take maxRepairDiagnostics)
  have hlines := lineDiagnostics_shown
    (fun line (hline : line ∈ selectedLines result.output) => selectedLines_shown hline)
  unfold captureBuildFailure
  rw [hout, if_neg (not_not.mpr hfailed)]
  simp only [bind, Except.bind, pure, Except.pure]
  refine ⟨_, rfl, ?_⟩
  refine ⟨rfl, rfl, rfl, ?_, ?_, rfl, rfl, rfl, fingerprint_hex _ _ _ _ _ _ _ _⟩
  swap
  · dsimp only
  have hempty : out.isEmpty = (reported result).isEmpty := by
    have hlen := congrArg List.isEmpty hshown
    rw [List.isEmpty_map, List.isEmpty_map] at hlen
    exact hlen
  show List.map shownOf (if out.isEmpty then _ else out) = shown result
  unfold shown
  rw [← hempty]
  split
  · exact hlines
  · exact hshown

/-! ## The prompt -/

/-- Where a shown diagnostic points to. -/
def ShownDiagnostic.location (s : ShownDiagnostic) : List Char :=
  match s.relativePath with
  | none => []
  | some path =>
    [' ', '['] ++ path ++
      (match s.line with
      | none => []
      | some line => ':' :: Nat.toDigits 10 line.toNat) ++ [']']

/-- The line of a shown diagnostic. -/
def ShownDiagnostic.text (s : ShownDiagnostic) : List Char :=
  ['-', ' '] ++ s.message ++ s.location ++ ['\n']

/-- The lines between the header and the evidence. -/
def diagnosticsBlock (ss : List ShownDiagnostic) : List Char :=
  if ss.isEmpty then noneNormalized else ss.flatMap ShownDiagnostic.text

theorem diagnosticText_eq (d : BuildDiagnostic) : diagnosticText d = (shownOf d).text := rfl

/-- The prompt up to the evidence. -/
def promptHead (evidence : BuildFailureEvidence) : List Char :=
  promptStart evidence ++ diagnosticsBlock (evidence.diagnostics.map shownOf) ++ ['\n'] ++
    evidenceTitle ++ ['\n']

/-- The whole prompt. -/
def promptText (evidence : BuildFailureEvidence) : List Char :=
  promptHead evidence ++ beginDelimiter ++ ['\n'] ++ evidence.excerpt ++ ['\n'] ++ endDelimiter ++
    ['\n'] ++ truncationNote evidence

theorem pushDiagnostics_eq {prompt out : List Char} {ds : List BuildDiagnostic}
    (h : pushDiagnostics prompt ds = .ok out) :
    out = prompt ++ (ds.map shownOf).flatMap ShownDiagnostic.text := by
  induction ds generalizing prompt with
  | nil =>
    cases h
    exact (List.append_nil _).symm
  | cons d ds ih =>
    rw [pushDiagnostics] at h
    split at h
    · cases h
    · rw [ih h, diagnosticText_eq, List.map_cons, List.flatMap_cons, List.append_assoc]

/-- The check inside the loop is never met by a prompt that is short enough in the end. -/
theorem pushDiagnostics_ok {prompt : List Char} {ds : List BuildDiagnostic}
    (h : byteLen (prompt ++ (ds.map shownOf).flatMap ShownDiagnostic.text) ≤ maxRepairPromptBytes) :
    pushDiagnostics prompt ds = .ok (prompt ++ (ds.map shownOf).flatMap ShownDiagnostic.text) := by
  induction ds generalizing prompt with
  | nil =>
    rw [List.map_nil, List.flatMap_nil, List.append_nil]
    rfl
  | cons d ds ih =>
    rw [List.map_cons, List.flatMap_cons, ← List.append_assoc] at h ⊢
    have hpos : 0 < byteLen (shownOf d).text := byteLen_pos (List.cons_ne_nil _ _)
    have hroom : ¬ byteLen prompt ≥ maxRepairPromptBytes := by
      rw [byteLen_append, byteLen_append] at h
      omega
    rw [pushDiagnostics, if_neg hroom]
    exact ih h

theorem renderDiagnostics_eq {prompt out : List Char} {ds : List BuildDiagnostic}
    (h : renderDiagnostics prompt ds = .ok out) :
    out = prompt ++ diagnosticsBlock (ds.map shownOf) := by
  unfold renderDiagnostics at h
  unfold diagnosticsBlock
  rw [List.isEmpty_map]
  split at h
  · rename_i hempty
    cases h
    rw [if_pos hempty]
  · rename_i hfull
    rw [if_neg hfull]
    exact pushDiagnostics_eq h

theorem renderDiagnostics_ok {prompt : List Char} {ds : List BuildDiagnostic}
    (h : byteLen (prompt ++ diagnosticsBlock (ds.map shownOf)) ≤ maxRepairPromptBytes) :
    renderDiagnostics prompt ds = .ok (prompt ++ diagnosticsBlock (ds.map shownOf)) := by
  unfold diagnosticsBlock at h ⊢
  unfold renderDiagnostics
  rw [List.isEmpty_map] at h ⊢
  split
  · rfl
  · rename_i hfull
    rw [if_neg hfull] at h
    exact pushDiagnostics_ok h

/-- **The prompt is rendered** iff it is not too long as a whole. -/
theorem renderRepairPrompt_eq_ok {evidence : BuildFailureEvidence} {prompt : List Char} :
    renderRepairPrompt evidence = .ok prompt ↔
      prompt = promptText evidence ∧ byteLen (promptText evidence) ≤ maxRepairPromptBytes := by
  have hshape : ∀ {out : List Char},
      renderDiagnostics (promptStart evidence) evidence.diagnostics = .ok out →
      out ++ ['\n'] ++ evidenceTitle ++ ['\n'] ++ beginDelimiter ++ ['\n'] ++ evidence.excerpt ++
        ['\n'] ++ endDelimiter ++ ['\n'] ++ truncationNote evidence = promptText evidence := by
    intro out hout
    rw [renderDiagnostics_eq hout]
    rfl
  unfold renderRepairPrompt
  simp only [bind, Except.bind, pure, Except.pure, throw, throwThe, MonadExceptOf.throw]
  constructor
  · intro h
    split at h
    · cases h
    rename_i out hout
    rw [hshape hout] at h
    by_cases hlong : byteLen (promptText evidence) > maxRepairPromptBytes
    · rw [if_pos hlong] at h
      cases h
    · rw [if_neg hlong, Except.ok.injEq] at h
      exact ⟨h.symm, Nat.not_lt.mp hlong⟩
  · rintro ⟨hprompt, hfits⟩
    have hbegin : byteLen (promptStart evidence ++
        diagnosticsBlock (evidence.diagnostics.map shownOf)) ≤ byteLen (promptText evidence) := by
      unfold promptText promptHead
      simp only [byteLen_append]
      omega
    have hout := renderDiagnostics_ok (Nat.le_trans hbegin hfits)
    rw [hout]
    dsimp only
    rw [hshape hout, if_neg (Nat.not_lt.mpr hfits), hprompt]

/-- A plan holds the evidence and the prompt, when that is not too long. -/
theorem fromFailedBuild_eq_ok {sha256 : Sha256} {result : BuildResult} {plan : BuildRepairPlan}
    {evidence : BuildFailureEvidence} (h : captureBuildFailure sha256 result = .ok evidence) :
    BuildRepairPlan.fromFailedBuild sha256 result = .ok plan ↔
      plan = ⟨evidence, promptText evidence⟩ ∧
        byteLen (promptText evidence) ≤ maxRepairPromptBytes := by
  unfold BuildRepairPlan.fromFailedBuild
  rw [h]
  simp only [bind, Except.bind, pure, Except.pure]
  constructor
  · intro hplan
    split at hplan
    · cases hplan
    rename_i prompt hprompt
    obtain ⟨hshape, hfits⟩ := renderRepairPrompt_eq_ok.mp hprompt
    rw [Except.ok.injEq] at hplan
    rw [← hplan, hshape]
    exact ⟨rfl, hfits⟩
  · rintro ⟨hplan, hfits⟩
    rw [renderRepairPrompt_eq_ok.mpr ⟨rfl, hfits⟩, hplan]

end VibeCoder.Build
