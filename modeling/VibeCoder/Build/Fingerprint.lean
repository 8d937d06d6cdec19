/-
  What the fingerprint of a failed build tells (`vibecoder-build-repair::fingerprint`).

  1. **Pieces** — the fields of a diagnostic are written one after another, each of a fixed length
     or up to a NUL; a text of a diagnostic has none (`zero_not_in_text`).

  2. **Diagnostics** (`delimits_diagnosticBytes`) — what is written for a diagnostic tells it.  A
     field that is missing is written like one that is empty or zero, which a diagnostic never has.

  3. **The excerpt** begins with a bracket (`boundedExcerpt_head`), which no diagnostic begins with,
     and so ends their list.

  4. **The law** (`fingerprintBytes_iff`).
-/
import VibeCoder.Build.Evidence
import VibeCoder.Lib.Encoding
import VibeCoder.Lib.Utf8
import VibeCoder.RouteResolution

namespace VibeCoder.Build

open Chars Encoding

/-! ## Pieces -/

/-- A text without control characters has no byte zero. -/
theorem zero_not_in_text {cs : List Char} (h : Plain cs) : (0 : UInt8) ∉ encode cs := by
  intro hzero
  obtain ⟨c, hc, hcode⟩ := mem_of_low_byte hzero (by decide)
  have hhidden := h c hc
  have hnul : c = Char.ofNat 0 := Char.toNat_inj.mp hcode
  rw [hnul] at hhidden
  exact absurd hhidden (by decide)

/-- A text up to the NUL after it. -/
theorem delimits_text : Delimits { cs | Plain cs } (fun cs => encode cs ++ [(0 : UInt8)]) :=
  .terminated (fun _ h => zero_not_in_text h) (fun _ _ _ _ h => encode_injective h)

theorem delimits_leBytes32 : Delimits Set.univ leBytes32 := by
  have hlen : ∀ a ∈ Set.univ, (leBytes32 a).length = 4 := fun _ _ => rfl
  refine .of_length hlen ?_
  intro a _ b _ h
  simp only [leBytes32, List.cons.injEq, and_true, ← UInt8.toNat_inj, UInt32.toNat_toUInt8,
    UInt32.toNat_shiftRight, Nat.shiftRight_eq_div_pow] at h
  have h8 : (8 : UInt32).toNat % 32 = 8 := rfl
  have h16 : (16 : UInt32).toNat % 32 = 16 := rfl
  have h24 : (24 : UInt32).toNat % 32 = 24 := rfl
  rw [h8, h16, h24] at h
  have ha := a.toNat_lt
  have hb := b.toNat_lt
  apply UInt32.toNat_inj.mp
  omega

/-- `severity_tag`. -/
def severityTag : BuildDiagnosticSeverity → UInt8
  | .error => 1
  | .warning => 2
  | .info => 3

theorem severityTag_injective {a b : BuildDiagnosticSeverity} (h : severityTag a = severityTag b) :
    a = b := by
  cases a <;> cases b <;> first | rfl | exact absurd h (by decide)

/-! ## Diagnostics -/

theorem plain_of_shownText {cs : List Char} {limit : Nat} (h : shownText cs limit = true) :
    Plain cs ∧ cs ≠ [] := by
  unfold shownText at h
  rw [Bool.and_eq_true, Bool.and_eq_true, Bool.not_eq_true', Bool.not_eq_true',
    List.isEmpty_eq_false_iff, List.any_eq_false] at h
  exact ⟨fun c hc => Bool.eq_false_iff.mpr (h.2 c hc), h.1.1⟩

/-- A text, or the empty one where it is missing. -/
theorem getD_text {text other : Option (List Char)} (h : text.getD [] = other.getD [])
    (htext : text ≠ some []) (hother : other ≠ some []) : text = other := by
  cases text with
  | none =>
    cases other with
    | none => rfl
    | some cs => exact absurd (congrArg some h.symm) hother
  | some cs =>
    cases other with
    | none => exact absurd (congrArg some h) htext
    | some ds => exact congrArg some h

/-- A number, or zero where it is missing. -/
theorem getD_number {number other : Option UInt32} (h : number.getD 0 = other.getD 0)
    (hnumber : number ≠ some 0) (hother : other ≠ some 0) : number = other := by
  cases number with
  | none =>
    cases other with
    | none => rfl
    | some n => exact absurd (congrArg some h.symm) hother
  | some m =>
    cases other with
    | none => exact absurd (congrArg some h) hnumber
    | some n => exact congrArg some h

/-- What the fields of a diagnostic are. -/
structure Fields (d : BuildDiagnostic) : Prop where
  message : Plain d.message
  code : Plain (d.code.getD [])
  codeGiven : d.code ≠ some []
  path : Plain (d.relativePath.getD [])
  pathGiven : d.relativePath ≠ some []
  line : d.line ≠ some 0
  column : d.column ≠ some 0

theorem plain_nil : Plain [] := fun _ hc => absurd hc List.not_mem_nil

/-- A path that is accepted. -/
theorem validPath {path : List Char} (h : validateRelativeArtifactPath path = .ok ()) :
    Plain path ∧ path ≠ [] := by
  unfold validateRelativeArtifactPath at h
  split at h
  · cases h
  · rename_i hform
    simp only [not_or, Bool.not_eq_true, List.isEmpty_eq_false_iff, List.any_eq_false] at hform
    exact ⟨hform.2.2.2, hform.1⟩

/-- The checks of the origin, one after another. -/
theorem validateOrigin_eq (code relativePath : Option (List Char)) (line column : Option UInt32) :
    validateOrigin code relativePath line column =
      ((match code with
        | none => .ok ()
        | some code =>
          if shownText code maxDiagnosticCodeBytes then .ok ()
          else .error (buildError "build_diagnostic_code_invalid")) >>= fun _ =>
      (match relativePath with
        | none => .ok ()
        | some path => validateRelativeArtifactPath path) >>= fun _ =>
      if line = some 0 ∨ column = some 0 then
        .error (buildError "build_diagnostic_location_invalid")
      else .ok ()) := by
  unfold validateOrigin
  cases relativePath with
  | none =>
    cases code with
    | none => rfl
    | some code => dsimp only; split <;> rfl
  | some path =>
    cases code with
    | none => rfl
    | some code => dsimp only; split <;> rfl

/-- The check of a diagnostic, field by field. -/
theorem fields (d : BuildDiagnostic) : Fields d := by
  obtain ⟨hmessage, horigin⟩ := validateDiagnostic_eq_ok.mp d.valid
  rw [validateOrigin_eq] at horigin
  obtain ⟨u, hcode, horigin⟩ := Result.bind_eq_ok.mp horigin
  obtain ⟨v, hpath, horigin⟩ := Result.bind_eq_ok.mp horigin
  have hnumbers : ¬ (d.line = some 0 ∨ d.column = some 0) := by
    intro h
    rw [if_pos h] at horigin
    cases horigin
  have hcodes : Plain (d.code.getD []) ∧ d.code ≠ some [] := by
    cases hd : d.code with
    | none => exact ⟨plain_nil, nofun⟩
    | some code =>
      rw [hd] at hcode
      have hshown : shownText code maxDiagnosticCodeBytes = true := by
        by_contra hnot
        simp only [hnot] at hcode
        cases hcode
      obtain ⟨hplain, hne⟩ := plain_of_shownText hshown
      exact ⟨hplain, fun h => hne (Option.some.inj h)⟩
  have hpaths : Plain (d.relativePath.getD []) ∧ d.relativePath ≠ some [] := by
    cases hd : d.relativePath with
    | none => exact ⟨plain_nil, nofun⟩
    | some path =>
      rw [hd] at hpath
      obtain ⟨hplain, hne⟩ := validPath hpath
      exact ⟨hplain, fun h => hne (Option.some.inj h)⟩
  exact {
    message := (plain_of_shownText hmessage).1
    code := hcodes.1
    codeGiven := hcodes.2
    path := hpaths.1
    pathGiven := hpaths.2
    line := fun h => hnumbers (.inl h)
    column := fun h => hnumbers (.inr h) }

/-- **What is written for a diagnostic** tells it, and what follows. -/
theorem delimits_diagnosticBytes : Delimits Set.univ diagnosticBytes := by
  intro d _ d' _ x y h
  have hd := fields d
  have hd' := fields d'
  have hbytes : ∀ (e : BuildDiagnostic) (z : List UInt8), diagnosticBytes e ++ z =
      severityTag e.severity :: ((encode (e.code.getD []) ++ [0]) ++ ((encode e.message ++ [0]) ++
        ((encode (e.relativePath.getD []) ++ [0]) ++ (leBytes32 (e.line.getD 0) ++
          (leBytes32 (e.column.getD 0) ++ z))))) := by
    intro e z
    simp only [diagnosticBytes, List.append_assoc, List.cons_append, List.nil_append]
    rfl
  rw [hbytes, hbytes] at h
  -- one field after another
  obtain ⟨hseverity, h⟩ := List.cons.inj h
  obtain ⟨hcode, h⟩ := delimits_text hd.code hd'.code h
  obtain ⟨hmessage, h⟩ := delimits_text hd.message hd'.message h
  obtain ⟨hpath, h⟩ := delimits_text hd.path hd'.path h
  obtain ⟨hline, h⟩ := delimits_leBytes32 trivial trivial h
  obtain ⟨hcolumn, h⟩ := delimits_leBytes32 trivial trivial h
  refine ⟨?_, h⟩
  have hcode' := getD_text hcode hd.codeGiven hd'.codeGiven
  have hpath' := getD_text hpath hd.pathGiven hd'.pathGiven
  have hline' := getD_number hline hd.line hd'.line
  have hcolumn' := getD_number hcolumn hd.column hd'.column
  have hseverity' := severityTag_injective hseverity
  cases d
  cases d'
  dsimp only at hcode' hmessage hpath' hline' hcolumn' hseverity'
  subst hcode' hmessage hpath' hline' hcolumn' hseverity'
  rfl

/-! ## The excerpt -/

/-- A line that is shown begins with the label of its stream. -/
theorem shownLine_head (label raw : List Char) : (shownLine label raw).head? = some '[' := by
  have hne : shownLine label raw ≠ [] := truncate_ne_nil (List.cons_ne_nil _ _) (by decide)
  obtain ⟨rest, hrest⟩ := truncate_isPrefix ('[' :: label ++ [']', ' '] ++ sanitizeOutputLine raw)
    maxRepairLineBytes
  cases hline : shownLine label raw with
  | nil => exact absurd hline hne
  | cons c cs =>
    unfold shownLine at hline
    rw [hline, List.cons_append, List.cons_append, List.cons_append] at hrest
    rw [(List.cons.inj hrest).1]
    rfl

/-- The loop keeps what it has taken in front. -/
theorem excerptFrom_head {excerpt : List Char} {lines : List (List Char)}
    (hlines : ∀ line ∈ lines, line.head? = some '[')
    (h : excerpt = [] ∨ excerpt.head? = some '[') :
    excerptFrom excerpt lines = [] ∨ (excerptFrom excerpt lines).head? = some '[' := by
  induction lines generalizing excerpt with
  | nil => exact h
  | cons line lines ih =>
    by_cases hfull : byteLen excerpt + (byteLen line + if excerpt.isEmpty then 0 else 1) >
        maxRepairEvidenceBytes
    · rw [excerptFrom, if_pos hfull]
      exact h
    · rw [excerptFrom, if_neg hfull]
      refine ih (fun l hl => hlines l (List.mem_cons_of_mem _ hl)) (.inr ?_)
      split
      · exact hlines line List.mem_cons_self
      · rename_i hne
        rw [List.isEmpty_iff] at hne
        rw [List.head?_append, h.resolve_left hne]
        rfl

/-- **The excerpt begins with a bracket.** -/
theorem boundedExcerpt_head (output : BuildOutput) :
    (boundedExcerpt (selectedLines output)).head? = some '[' := by
  have hlines : ∀ line ∈ selectedLines output, line.head? = some '[' := by
    intro line hline
    obtain ⟨label, -, raw, -, rfl⟩ := mem_selectedLines hline
    exact shownLine_head label raw
  rw [boundedExcerpt]
  split
  · decide
  · dsimp only
    rcases excerptFrom_head hlines (.inl rfl) with hempty | hhead
    · rw [hempty]
      show oversizedExcerpt.head? = some '['
      decide
    · split
      · decide
      · exact hhead

/-- The excerpt is no diagnostic. -/
theorem stops_excerpt {excerpt : List Char} (h : excerpt.head? = some '[') :
    Stops Set.univ diagnosticBytes (encode excerpt) := by
  intro d _ rest heq
  cases excerpt with
  | nil => cases h
  | cons c cs =>
    cases h
    have hbytes : encode ('[' :: cs) = 91 :: encode cs := rfl
    have htag : diagnosticBytes d ++ rest = severityTag d.severity :: (diagnosticBytes d ++ rest).tail := by
      simp only [diagnosticBytes, List.append_assoc, List.cons_append, List.tail_cons,
        List.nil_append]
      rfl
    rw [hbytes, htag] at heq
    have hhead := (List.cons.inj heq).1
    revert hhead
    cases d.severity <;> decide

/-! ## The law -/

/-- What `fingerprint` feeds to the hash. -/
def fingerprintBytes (evidence : BuildFailureEvidence) : List UInt8 :=
  let flag (b : Bool) : UInt8 := if b then 1 else 0
  encode (targetTag evidence.target) ++ [0] ++
    leBytes32 (evidence.exitCode.getD Int32.minValue).toUInt32 ++
    [flag evidence.stdoutTruncated, flag evidence.stderrTruncated,
      flag evidence.eventQueueOverflowed] ++
    evidence.diagnostics.flatMap diagnosticBytes ++ encode evidence.excerpt

/-- What two captured failures have in common if they are the same failure. -/
structure SameFailure (e e' : BuildFailureEvidence) : Prop where
  target : e.target = e'.target
  exitCode : e.exitCode = e'.exitCode
  stdoutTruncated : e.stdoutTruncated = e'.stdoutTruncated
  stderrTruncated : e.stderrTruncated = e'.stderrTruncated
  eventQueueOverflowed : e.eventQueueOverflowed = e'.eventQueueOverflowed
  diagnostics : e.diagnostics = e'.diagnostics
  excerpt : e.excerpt = e'.excerpt

theorem exitCode_of_bytes {code other : Option Int32}
    (h : (code.getD Int32.minValue).toUInt32 = (other.getD Int32.minValue).toUInt32)
    (hcode : code ≠ some Int32.minValue) (hother : other ≠ some Int32.minValue) : code = other := by
  have hvalue : code.getD Int32.minValue = other.getD Int32.minValue := congrArg UInt32.toInt32 h
  cases code with
  | none =>
    cases other with
    | none => rfl
    | some n => exact absurd (congrArg some hvalue.symm) hother
  | some m =>
    cases other with
    | none => exact absurd (congrArg some hvalue) hcode
    | some n => exact congrArg some hvalue

theorem flag_injective {a b : Bool} (h : (if a then (1 : UInt8) else 0) = if b then 1 else 0) :
    a = b := by
  cases a <;> cases b <;> first | rfl | exact absurd h (by decide)

/-- **What is fed** tells what the failures have in common. -/
theorem sameFailure_of_bytes {e e' : BuildFailureEvidence} (he : e.excerpt.head? = some '[')
    (he' : e'.excerpt.head? = some '[') (hcode : e.exitCode ≠ some Int32.minValue)
    (hcode' : e'.exitCode ≠ some Int32.minValue) (h : fingerprintBytes e = fingerprintBytes e') :
    SameFailure e e' := by
  simp only [fingerprintBytes, List.append_assoc] at h
  have htags : (encode (targetTag e.target)).length = (encode (targetTag e'.target)).length := by
    cases e.target <;> cases e'.target <;> decide
  obtain ⟨htarget, h⟩ := List.append_inj h htags
  obtain ⟨-, h⟩ := List.cons.inj h
  obtain ⟨hexit, h⟩ := delimits_leBytes32 trivial trivial h
  obtain ⟨hstdout, h⟩ := List.cons.inj h
  obtain ⟨hstderr, h⟩ := List.cons.inj h
  obtain ⟨hevents, h⟩ := List.cons.inj h
  obtain ⟨hdiagnostics, hexcerpt⟩ := delimits_diagnosticBytes.flatMap (fun _ _ => trivial)
    (fun _ _ => trivial) (stops_excerpt he) (stops_excerpt he') h
  have htarget' : e.target = e'.target := by
    revert htarget
    cases e.target <;> cases e'.target <;> decide
  exact {
    target := htarget'
    exitCode := exitCode_of_bytes hexit hcode hcode'
    stdoutTruncated := flag_injective hstdout
    stderrTruncated := flag_injective hstderr
    eventQueueOverflowed := flag_injective hevents
    diagnostics := hdiagnostics
    excerpt := encode_injective hexcerpt }

/-- Two digits tell the byte. -/
theorem delimits_hexByte : Delimits Set.univ hexByte := by
  have hlen : ∀ a ∈ Set.univ, (hexByte a).length = 2 := fun _ _ => rfl
  refine .of_length hlen ?_
  have hdigit : ∀ m < 16, ∀ n < 16, Nat.digitChar m = Nat.digitChar n → m = n := by decide
  intro a _ b _ h
  simp only [hexByte, List.cons.injEq, and_true] at h
  have ha := a.toNat_lt
  have hb := b.toNat_lt
  have hhigh := hdigit _ (by omega) _ (by omega) h.1
  have hlow := hdigit _ (by omega) _ (by omega) h.2
  apply UInt8.toNat_inj.mp
  omega

/-- The digits of a digest tell it. -/
theorem hex_injective {digest other : Vector UInt8 32}
    (h : digest.toList.flatMap hexByte = other.toList.flatMap hexByte) : digest = other := by
  have hstops : Stops Set.univ hexByte [] := fun _ _ _ => nofun
  have hlists := delimits_hexByte.flatMap (fun _ _ => trivial) (fun _ _ => trivial) hstops hstops
    (congrArg (· ++ []) h)
  exact Vector.toList_inj.mp hlists.1

/-- The evidence of a failed build, with what its fingerprint is of. -/
theorem captured_fingerprint {sha256 : Sha256} {result : BuildResult}
    {evidence : BuildFailureEvidence} (h : captureBuildFailure sha256 result = .ok evidence) :
    evidence.fingerprintSha256 = (sha256 (fingerprintBytes evidence)).toList.flatMap hexByte ∧
      evidence.exitCode = result.exitCode ∧ evidence.excerpt.head? = some '[' := by
  unfold captureBuildFailure at h
  split at h
  · cases h
  · obtain ⟨-, -, h⟩ := Result.bind_eq_ok.mp h
    obtain ⟨reported, -, h⟩ := Result.bind_eq_ok.mp h
    cases h
    exact ⟨rfl, rfl, boundedExcerpt_head result.output⟩

/-- **The fingerprint of a failed build.**  Of two failed builds, what is hashed is the same exactly
    when the failures are: build and project have no part in it.  Unless these two byte strings
    collide, so are the fingerprints. -/
theorem fingerprintBytes_iff (sha256 : Sha256) (result other : BuildResult)
    (hfailed : result.state = .failed) (hother : other.state = .failed)
    (hcode : result.exitCode ≠ some Int32.minValue)
    (hcode' : other.exitCode ≠ some Int32.minValue) :
    ∃ e e', captureBuildFailure sha256 result = .ok e ∧ captureBuildFailure sha256 other = .ok e' ∧
      (fingerprintBytes e = fingerprintBytes e' ↔ SameFailure e e') ∧
      ((sha256 (fingerprintBytes e) = sha256 (fingerprintBytes e') →
          fingerprintBytes e = fingerprintBytes e') →
        (e.fingerprintSha256 = e'.fingerprintSha256 ↔ SameFailure e e')) := by
  obtain ⟨e, he, -⟩ := captureBuildFailure_ok sha256 hfailed
  obtain ⟨e', he', -⟩ := captureBuildFailure_ok sha256 hother
  obtain ⟨hprint, hexit, hhead⟩ := captured_fingerprint he
  obtain ⟨hprint', hexit', hhead'⟩ := captured_fingerprint he'
  have hsame : SameFailure e e' → fingerprintBytes e = fingerprintBytes e' := by
    intro h
    unfold fingerprintBytes
    rw [h.target, h.exitCode, h.stdoutTruncated, h.stderrTruncated, h.eventQueueOverflowed,
      h.diagnostics, h.excerpt]
  have hbytes : fingerprintBytes e = fingerprintBytes e' → SameFailure e e' :=
    sameFailure_of_bytes hhead hhead' (hexit ▸ hcode) (hexit' ▸ hcode')
  refine ⟨e, e', he, he', ⟨hbytes, hsame⟩, fun hcollision => ⟨fun h => ?_, fun h => ?_⟩⟩
  · rw [hprint, hprint'] at h
    exact hbytes (hcollision (hex_injective h))
  · rw [hprint, hprint', hsame h]

/-- A build that failed with exit code 1, without output. -/
def quietFailure (buildId : BitVec 128) : BuildResult where
  buildId := ⟨buildId⟩
  projectId := ⟨0⟩
  target := .website
  state := .failed
  exitCode := some 1
  output := ⟨[], [], false, false, false⟩
  diagnostics := []

/-- The same failure of two builds. -/
theorem fingerprintBytes_iff_silent : ∃ e e',
    captureBuildFailure (fun _ => Vector.replicate 32 0) (quietFailure 1) = .ok e ∧
      captureBuildFailure (fun _ => Vector.replicate 32 0) (quietFailure 2) = .ok e' ∧
      (fingerprintBytes e = fingerprintBytes e' ↔ SameFailure e e') := by
  obtain ⟨e, e', he, he', hiff, -⟩ := fingerprintBytes_iff (fun _ => Vector.replicate 32 0)
    (quietFailure 1) (quietFailure 2) rfl rfl (by decide) (by decide)
  exact ⟨e, e', he, he', hiff⟩

end VibeCoder.Build
