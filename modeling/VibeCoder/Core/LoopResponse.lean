/-
  The status marker of a loop response (`parse_explicit_agent_loop_response`).

  The prompt demands that the final non-empty line be exactly one of two markers, with the
  explanation before it.  `Marked` says this of a text, line by line.  The parser looks at less:

  1. **What it looks at** — the text without its trailing white space ends in a marker, and what
     stands before that marker is neither blank nor holds a marker (`parse_eq_ok`).

  2. **What it should look at** — the same, and the marker has its line to itself
     (`marked_iff`).  Here the crux is that a marker cannot begin inside another one, so that
     *no marker anywhere else* is *no marker before it* (`Chars.occurrence_unique`).

  So `Done. VIBECODER_LOOP_STATUS=complete` is taken for a final line.  A response with a NUL is
  refused whatever its lines are, and the body loses only carriage returns, newlines, spaces and
  tabs; with these the texts on which the parser does what `Marked` says are known exactly.
-/
import VibeCoder.Core.Transcript
import VibeCoder.Lib.Chars
import VibeCoder.Lib.Text

namespace VibeCoder

/-! ## Markers -/

/-- The marker that announces a decision. -/
def statusMarker : ExplicitAgentLoopDecision → String
  | .complete => completeMarker
  | .continue => continueMarker

/-- One of the two markers occurs. -/
def HoldsMarker (cs : List Char) : Prop :=
  ∃ decision, (statusMarker decision).toList <:+: cs

theorem statusMarker_length (decision : ExplicitAgentLoopDecision) :
    (statusMarker decision).toList.length = 30 := by
  cases decision <;> decide

theorem statusMarker_inj {d e : ExplicitAgentLoopDecision}
    (h : (statusMarker d).toList = (statusMarker e).toList) : d = e := by
  revert h
  cases d <;> cases e <;> decide

/-- A marker begins with a `V`, and has no other. -/
theorem statusMarker_head (decision : ExplicitAgentLoopDecision) :
    ∃ tail, (statusMarker decision).toList = 'V' :: tail ∧ 'V' ∉ tail := by
  refine ⟨(statusMarker decision).toList.tail, ?_, ?_⟩
  · cases decision <;> decide
  · cases decision <;> decide

/-- A marker has no white space. -/
theorem statusMarker_solid {decision : ExplicitAgentLoopDecision} {c : Char}
    (h : isWhitespace c = true) : c ∉ (statusMarker decision).toList := by
  have hsolid : ∀ d ∈ (statusMarker decision).toList, isWhitespace d = false := by
    cases decision <;> exact Chars.forall_mem_of_all (by decide)
  intro hmem
  rw [hsolid c hmem] at h
  cases h

theorem statusMarker_ne_nil (decision : ExplicitAgentLoopDecision) :
    (statusMarker decision).toList ≠ [] := by
  cases decision <;> decide

/-! ## Well marked responses -/

/-- The beginning of a line: nothing precedes, or a newline. -/
def LineStart (before : List Char) : Prop := before = [] ∨ before.getLast? = some '\n'

/-- **A well marked response.**  Its last line that is not blank is `blanks`, the marker and
    blanks; `before` stands before that line.  No marker occurs in any other place, `before` is not
    blank, and the body is `before` without its trailing white space. -/
structure MarkedBy (text : String) (decision : ExplicitAgentLoopDecision) (body : String)
    (before blanks after : List Char) : Prop where
  shape : text.toList = before ++ blanks ++ (statusMarker decision).toList ++ after
  lineStart : LineStart before
  sameLine : ∀ c ∈ blanks, isWhitespace c = true ∧ c ≠ '\n'
  lastLine : ∀ c ∈ after, isWhitespace c = true
  only : ∀ other pre post, text.toList = pre ++ (statusMarker other).toList ++ post →
    pre = before ++ blanks
  explained : ∃ c ∈ before, isWhitespace c = false
  body : body = String.ofList (trimEndChars before)

def Marked (text : String) (decision : ExplicitAgentLoopDecision) (body : String) : Prop :=
  ∃ before blanks after, MarkedBy text decision body before blanks after

/-- The line on which `before` ends has nothing but blanks so far. -/
def onBlankLine (before : List Char) : Bool := (before.rtakeWhile (· != '\n')).all isWhitespace

theorem onBlankLine_iff {before : List Char} : onBlankLine before = true ↔
    ∃ start blanks, before = start ++ blanks ∧ LineStart start ∧
      ∀ c ∈ blanks, isWhitespace c = true ∧ c ≠ '\n' := by
  rw [onBlankLine, List.all_eq_true]
  constructor
  · intro h
    refine ⟨before.rdropWhile (· != '\n'), before.rtakeWhile (· != '\n'),
      List.rdropWhile_append_rtakeWhile.symm, ?_, ?_⟩
    · by_cases hnil : before.rdropWhile (· != '\n') = []
      · exact .inl hnil
      · have hlast := List.rdropWhile_last_not (· != '\n') before hnil
        simp only [bne_iff_ne, ne_eq, Decidable.not_not] at hlast
        refine .inr ?_
        rw [List.getLast?_eq_some_getLast hnil, hlast]
    · intro c hc
      have hsame := List.mem_rtakeWhile_imp hc
      exact ⟨h c hc, bne_iff_ne.mp hsame⟩
  · rintro ⟨start, blanks, rfl, hstart, hblanks⟩ c hc
    have hpos : ∀ d ∈ blanks, (d != '\n') = true := fun d hd => bne_iff_ne.mpr (hblanks d hd).2
    have htake : (start ++ blanks).rtakeWhile (· != '\n') = blanks := by
      have hdrop : (start ++ blanks).rdropWhile (· != '\n') = start := by
        rw [Chars.rdropWhile_append_pos hpos, List.rdropWhile_eq_self_iff]
        intro hne
        rcases hstart with hnil | hlast
        · exact absurd hnil hne
        · rw [List.getLast?_eq_some_getLast hne] at hlast
          rw [Option.some.inj hlast]
          decide
      have hall := List.rdropWhile_append_rtakeWhile (p := (· != '\n')) (l := start ++ blanks)
      rw [hdrop] at hall
      exact List.append_cancel_left hall
    rw [htake] at hc
    exact (hblanks c hc).1

/-! ## Trimming -/

theorem trimChars_eq_nil {cs : List Char} :
    trimChars cs = [] ↔ ∀ c ∈ cs, isWhitespace c = true := by
  have hback : trimChars cs = (cs.dropWhile isWhitespace).rdropWhile isWhitespace := rfl
  rw [hback, List.rdropWhile_eq_nil_iff]
  constructor
  · intro h
    rw [← List.dropWhile_eq_nil_iff]
    cases hd : cs.dropWhile isWhitespace with
    | nil => rfl
    | cons c rest =>
      have hc := List.head_dropWhile_not isWhitespace (l := cs) (by rw [hd]; exact List.cons_ne_nil _ _)
      simp only [hd, List.head_cons] at hc
      rw [hd] at h
      exact absurd (h c List.mem_cons_self) (by rw [hc]; exact Bool.false_ne_true)
  · intro h c hc
    exact h c ((List.dropWhile_sublist _).subset hc)

theorem containsChars_iff {part cs : List Char} : containsChars part cs = true ↔ part <:+: cs := by
  induction cs with
  | nil => rw [containsChars, List.isEmpty_iff, List.infix_nil]
  | cons c cs ih =>
    rw [containsChars, Bool.or_eq_true, List.isPrefixOf_iff_prefix, ih, List.infix_cons_iff]

theorem stripSuffix_eq_some {cs suffix body : List Char} :
    stripSuffix cs suffix = some body ↔ cs = body ++ suffix := by
  rw [stripSuffix]
  split
  · rename_i hsuffix
    obtain ⟨front, rfl⟩ := List.isSuffixOf_iff_suffix.mp hsuffix
    have htake : (front ++ suffix).take ((front ++ suffix).length - suffix.length) = front := by
      rw [List.length_append, Nat.add_sub_cancel, List.take_left']
      rfl
    rw [htake]
    constructor
    · rintro ⟨⟩
      rfl
    · intro h
      rw [List.append_cancel_right h]
  · rename_i hsuffix
    constructor
    · intro h
      cases h
    · rintro rfl
      exact absurd (List.isSuffixOf_iff_suffix.mpr (List.suffix_append _ _)) hsuffix

/-- A text that ends in a marker is cut at it. -/
theorem trimEndChars_marker {before after : List Char} {decision : ExplicitAgentLoopDecision}
    (hafter : ∀ c ∈ after, isWhitespace c = true) :
    trimEndChars (before ++ (statusMarker decision).toList ++ after) =
      before ++ (statusMarker decision).toList := by
  show (before ++ (statusMarker decision).toList ++ after).rdropWhile isWhitespace = _
  rw [Chars.rdropWhile_append_pos hafter, List.rdropWhile_eq_self_iff]
  intro hne hblank
  rw [List.getLast_append_of_ne_nil _ (statusMarker_ne_nil decision)] at hblank
  exact statusMarker_solid hblank (List.getLast_mem _)

theorem trimEndChars_append (cs : List Char) :
    ∃ after, cs = trimEndChars cs ++ after ∧ ∀ c ∈ after, isWhitespace c = true :=
  ⟨cs.rtakeWhile isWhitespace, List.rdropWhile_append_rtakeWhile.symm,
    fun _ hc => List.mem_rtakeWhile_imp hc⟩

/-- What stands before the marker, and the marker, can be read off in one way. -/
theorem marker_cut_unique {before before' : List Char} {d e : ExplicitAgentLoopDecision}
    (h : before ++ (statusMarker d).toList = before' ++ (statusMarker e).toList) :
    before = before' ∧ d = e := by
  have hlen : (statusMarker d).toList.length = (statusMarker e).toList.length := by
    rw [statusMarker_length, statusMarker_length]
  obtain ⟨hbefore, hmarker⟩ := List.append_inj' h hlen
  exact ⟨hbefore, statusMarker_inj hmarker⟩

theorem splitStatusMarker_eq_some {text : String} {before : List Char}
    {decision : ExplicitAgentLoopDecision} :
    splitStatusMarker text = some (before, decision) ↔
      trimEndChars text.toList = before ++ (statusMarker decision).toList := by
  rw [splitStatusMarker]
  cases hcomplete : stripSuffix (trimEndChars text.toList) completeMarker.toList with
  | some body =>
    have hcut : trimEndChars text.toList = body ++ (statusMarker .complete).toList :=
      stripSuffix_eq_some.mp hcomplete
    rw [hcut]
    constructor
    · rintro ⟨⟩
      rfl
    · intro h
      obtain ⟨rfl, rfl⟩ := marker_cut_unique h
      rfl
  | none =>
    have hnot : ∀ body, trimEndChars text.toList ≠ body ++ (statusMarker .complete).toList := by
      intro body h
      have hsome := stripSuffix_eq_some.mpr h
      exact absurd (hcomplete.symm.trans hsome) (Option.some_ne_none body).symm
    cases hcontinue : stripSuffix (trimEndChars text.toList) continueMarker.toList with
    | some body =>
      have hcut : trimEndChars text.toList = body ++ (statusMarker .continue).toList :=
        stripSuffix_eq_some.mp hcontinue
      rw [hcut]
      constructor
      · rintro ⟨⟩
        rfl
      · intro h
        obtain ⟨rfl, rfl⟩ := marker_cut_unique h
        rfl
    | none =>
      constructor
      · intro h
        cases h
      · intro h
        cases decision with
        | complete => exact absurd h (hnot before)
        | «continue» =>
          have hsome := stripSuffix_eq_some.mpr h
          exact absurd (hcontinue.symm.trans hsome) (Option.some_ne_none before).symm

/-! ## What the parser accepts -/

/-- `body.trim_end_matches(['\r', '\n', ' ', '\t'])`. -/
def trimPadding (cs : List Char) : List Char := cs.rdropWhile isBodyPadding

theorem isWhitespace_of_isBodyPadding {c : Char} (h : isBodyPadding c = true) :
    isWhitespace c = true := by
  simp only [isBodyPadding, Bool.or_eq_true, beq_iff_eq] at h
  rcases h with ((rfl | rfl) | rfl) | rfl <;> decide

theorem trimPadding_append (cs : List Char) :
    ∃ padding, cs = trimPadding cs ++ padding ∧ ∀ c ∈ padding, isWhitespace c = true :=
  ⟨cs.rtakeWhile isBodyPadding, List.rdropWhile_append_rtakeWhile.symm,
    fun _ hc => isWhitespace_of_isBodyPadding (List.mem_rtakeWhile_imp hc)⟩

/-- White space at the end makes a text neither more nor less blank. -/
theorem trimChars_append_eq_nil {cs blanks : List Char}
    (hblanks : ∀ c ∈ blanks, isWhitespace c = true) :
    trimChars (cs ++ blanks) = [] ↔ trimChars cs = [] := by
  rw [trimChars_eq_nil, trimChars_eq_nil]
  constructor
  · intro h c hc
    exact h c (List.mem_append_left _ hc)
  · intro h c hc
    rcases List.mem_append.mp hc with hin | hin
    · exact h c hin
    · exact hblanks c hin

theorem holdsMarker_append {cs blanks : List Char}
    (hblanks : ∀ c ∈ blanks, isWhitespace c = true) :
    HoldsMarker (cs ++ blanks) ↔ HoldsMarker cs := by
  constructor
  · rintro ⟨decision, h⟩
    refine ⟨decision, ?_⟩
    exact (Chars.infix_append_separate (statusMarker_ne_nil decision)
      (fun c hc => statusMarker_solid (hblanks c hc))).mp h
  · rintro ⟨decision, h⟩
    exact ⟨decision, h.trans (List.prefix_append _ _).isInfix⟩

/-- What stands before the marker can be a body: not blank, and without a marker. -/
structure Explained (before : List Char) : Prop where
  notBlank : trimChars before ≠ []
  noMarker : ¬ HoldsMarker before

theorem explained_append {cs blanks : List Char}
    (hblanks : ∀ c ∈ blanks, isWhitespace c = true) : Explained (cs ++ blanks) ↔ Explained cs := by
  constructor
  · rintro ⟨hblank, hmarker⟩
    refine ⟨?_, ?_⟩
    · intro h
      exact hblank ((trimChars_append_eq_nil hblanks).mpr h)
    · intro h
      exact hmarker ((holdsMarker_append hblanks).mpr h)
  · rintro ⟨hblank, hmarker⟩
    refine ⟨?_, ?_⟩
    · intro h
      exact hblank ((trimChars_append_eq_nil hblanks).mp h)
    · intro h
      exact hmarker ((holdsMarker_append hblanks).mp h)

/-- The beginning of a text has no more bytes than the text. -/
theorem len_ofList_le {text : String} {front : List Char} (h : front <+: text.toList) :
    len (String.ofList front) ≤ len text := by
  obtain ⟨rest, hrest⟩ := h
  show (String.ofList front).utf8ByteSize ≤ text.utf8ByteSize
  rw [Text.utf8ByteSize_ofList, Text.utf8ByteSize_eq_sum, ← hrest, List.map_append,
    List.sum_append]
  omega

/-- **The parser.**  It accepts a text without a NUL whose end is a marker with an explanation
    before it, on whatever line. -/
theorem parse_eq_ok {text : String} (hlen : len text ≤ maxConversationMessageBytes)
    {decision : ExplicitAgentLoopDecision} {body : String} :
    parseExplicitAgentLoopResponse text = .ok (decision, body) ↔
      hasNul text = false ∧ ∃ before,
        trimEndChars text.toList = before ++ (statusMarker decision).toList ∧
        Explained before ∧ body = String.ofList (trimPadding before) := by
  have hlong : ¬ len text > maxConversationMessageBytes := by omega
  rw [parseExplicitAgentLoopResponse]
  split
  · rename_i hbad
    constructor
    · intro h
      cases h
    · rintro ⟨hnul, before, hcut, -, -⟩
      simp only [hlong, hnul, decide_false, Bool.or_false] at hbad
      have hempty : text.toList = [] := by
        rw [String.isEmpty_iff.mp hbad]
        rfl
      rw [hempty] at hcut
      have hnil := (List.append_eq_nil_iff.mp hcut.symm).2
      exact absurd hnil (statusMarker_ne_nil decision)
  · rename_i hgood
    have hnul : hasNul text = false := by
      cases hcase : hasNul text with
      | false => rfl
      | true => simp [hcase] at hgood
    cases hsplit : splitStatusMarker text with
    | none =>
      constructor
      · intro h
        cases h
      · rintro ⟨-, before, hcut, -, -⟩
        rw [splitStatusMarker_eq_some.mpr hcut] at hsplit
        cases hsplit
    | some cut =>
      obtain ⟨found, foundDecision⟩ := cut
      have hfound := splitStatusMarker_eq_some.mp hsplit
      obtain ⟨padding, hpadding, hwhite⟩ := trimPadding_append found
      have hbody : (found.reverse.dropWhile isBodyPadding).reverse = trimPadding found := rfl
      have hfits : len (String.ofList (trimPadding found)) ≤ maxConversationMessageBytes := by
        have hfront : trimPadding found <+: text.toList := by
          obtain ⟨after, hafter, -⟩ := trimEndChars_append text.toList
          rw [hafter, hfound, List.append_assoc]
          exact (List.rdropWhile_prefix _ _).trans (List.prefix_append _ _)
        have hle := len_ofList_le hfront
        omega
      have hchecks : ((trimChars (trimPadding found)).isEmpty ||
          containsChars completeMarker.toList (trimPadding found) ||
          containsChars continueMarker.toList (trimPadding found) ||
          decide (len (String.ofList (trimPadding found)) > maxConversationMessageBytes)) = false ↔
          Explained found := by
        have hfits' : ¬ len (String.ofList (trimPadding found)) > maxConversationMessageBytes := by
          omega
        have hmarkers : HoldsMarker (trimPadding found) ↔
            completeMarker.toList <:+: trimPadding found ∨
            continueMarker.toList <:+: trimPadding found := by
          constructor
          · rintro ⟨d, h⟩
            cases d with
            | complete => exact .inl h
            | «continue» => exact .inr h
          · rintro (h | h)
            · exact ⟨.complete, h⟩
            · exact ⟨.continue, h⟩
        rw [hpadding, explained_append hwhite, ← hpadding]
        rw [← Bool.not_eq_true]
        simp only [Bool.or_eq_true, decide_eq_true_eq, List.isEmpty_iff, containsChars_iff, not_or]
        constructor
        · rintro ⟨⟨⟨hblank, hcomplete⟩, hcontinue⟩, -⟩
          exact ⟨hblank, fun h => (hmarkers.mp h).elim hcomplete hcontinue⟩
        · rintro ⟨hblank, hnone⟩
          exact ⟨⟨⟨hblank, fun h => hnone (hmarkers.mpr (.inl h))⟩,
            fun h => hnone (hmarkers.mpr (.inr h))⟩, hfits'⟩
      dsimp only
      rw [hbody]
      split
      · rename_i hrefused
        constructor
        · intro h
          cases h
        · rintro ⟨-, before, hcut, hexplained, -⟩
          rw [hfound] at hcut
          obtain ⟨rfl, rfl⟩ := marker_cut_unique hcut
          rw [hchecks.mpr hexplained] at hrefused
          cases hrefused
      · rename_i haccepted
        have hexplained : Explained found := hchecks.mp (Bool.not_eq_true _ ▸ haccepted)
        constructor
        · rintro ⟨⟩
          exact ⟨hnul, found, hfound, hexplained, rfl⟩
        · rintro ⟨-, before, hcut, -, rfl⟩
          rw [hfound] at hcut
          obtain ⟨rfl, rfl⟩ := marker_cut_unique hcut
          rfl

/-! ## What is well marked -/

theorem marked_iff {text : String} {decision : ExplicitAgentLoopDecision} {body : String} :
    Marked text decision body ↔ ∃ before,
      trimEndChars text.toList = before ++ (statusMarker decision).toList ∧
      Explained before ∧ onBlankLine before = true ∧
      body = String.ofList (trimEndChars before) := by
  constructor
  · rintro ⟨before, blanks, after, hshape, hstart, hblanks, hafter, honly, ⟨c, hc, hsolid⟩, hbody⟩
    have hwhite : ∀ d ∈ blanks, isWhitespace d = true := fun d hd => (hblanks d hd).1
    refine ⟨before ++ blanks, ?_, ⟨?_, ?_⟩, ?_, ?_⟩
    · rw [hshape]
      exact trimEndChars_marker hafter
    · rw [Ne, trimChars_eq_nil]
      intro h
      rw [h c (List.mem_append_left _ hc)] at hsolid
      cases hsolid
    · -- a marker before this one would be another occurrence
      rintro ⟨other, pre, post, hsplit⟩
      have htext : text.toList = pre ++ (statusMarker other).toList ++
          (post ++ ((statusMarker decision).toList ++ after)) := by
        rw [hshape, ← hsplit]
        simp only [List.append_assoc]
      have hpre : pre = before ++ blanks := honly other pre _ htext
      have hlength := congrArg List.length hsplit
      rw [← hpre, List.length_append, List.length_append, statusMarker_length] at hlength
      omega
    · exact onBlankLine_iff.mpr ⟨before, blanks, rfl, hstart, hblanks⟩
    · rw [hbody]
      exact congrArg String.ofList (Chars.rdropWhile_append_pos hwhite).symm
  · rintro ⟨line, hcut, ⟨hblank, hmarker⟩, hline, hbody⟩
    obtain ⟨before, blanks, rfl, hstart, hblanks⟩ := onBlankLine_iff.mp hline
    obtain ⟨after, hafter, hlast⟩ := trimEndChars_append text.toList
    have hwhite : ∀ d ∈ blanks, isWhitespace d = true := fun d hd => (hblanks d hd).1
    rw [hcut] at hafter
    refine ⟨before, blanks, after, hafter, hstart, hblanks, hlast, ?_, ?_, ?_⟩
    · intro other pre post hother
      obtain ⟨tail, hthis, htail⟩ := statusMarker_head decision
      obtain ⟨otherTail, hthat, hotherTail⟩ := statusMarker_head other
      have hnoV : 'V' ∉ after := by
        intro hmem
        have := hlast 'V' hmem
        revert this
        decide
      rw [hafter, hthis, hthat] at hother
      refine Chars.occurrence_unique htail hotherTail hnoV ?_ hother
      rw [← hthat]
      exact fun h => hmarker ⟨other, h⟩
    · rw [Ne, trimChars_append_eq_nil hwhite, trimChars_eq_nil] at hblank
      push Not at hblank
      obtain ⟨c, hc, hsolid⟩ := hblank
      exact ⟨c, hc, Bool.not_eq_true _ ▸ hsolid⟩
    · rw [hbody]
      exact congrArg String.ofList (Chars.rdropWhile_append_pos hwhite)

/-! ## Where they agree -/

/-- The parser does what is asked of it on this text: a decision for a well marked response, with
    its body, and an error for any other. -/
def ParsedAsMarked (text : String) : Prop :=
  ∀ decision body,
    parseExplicitAgentLoopResponse text = .ok (decision, body) ↔ Marked text decision body

/-- The white space at the end is carriage returns, newlines, spaces and tabs. -/
def plainEnd (before : List Char) : Bool := (before.rtakeWhile isWhitespace).all isBodyPadding

theorem plainEnd_iff {before : List Char} :
    plainEnd before = true ↔ trimEndChars before = trimPadding before := by
  rw [plainEnd, List.all_eq_true]
  exact (Chars.rdropWhile_eq_rdropWhile (fun _ h => isWhitespace_of_isBodyPadding h)).symm

/-- The marker at the end of the text, if there is an explanation before it, stands on a line of
    its own after plain white space and the text has no NUL — or it does not and the text has
    one. -/
def MarkerOnOwnLine (text : String) : Prop :=
  ∀ before decision, trimEndChars text.toList = before ++ (statusMarker decision).toList →
    Explained before →
    if hasNul text then onBlankLine before = false
    else onBlankLine before = true ∧ plainEnd before = true

/-- **Marker parsing.**  Within the size limit the parser meets `Marked` on exactly those texts
    whose marker has its line to itself. -/
theorem parsedAsMarked_iff (text : String) (hlen : len text ≤ maxConversationMessageBytes) :
    ParsedAsMarked text ↔ MarkerOnOwnLine text := by
  constructor
  · intro hagree before decision hcut hexplained
    by_cases hnul : hasNul text = true
    · rw [if_pos hnul]
      -- the parser refuses, so the text must not be well marked
      cases hline : onBlankLine before with
      | false => rfl
      | true =>
        have hmarked := marked_iff.mpr ⟨before, hcut, hexplained, hline, rfl⟩
        have hparsed := (parse_eq_ok hlen).mp ((hagree _ _).mpr hmarked)
        rw [hparsed.1] at hnul
        cases hnul
    · rw [if_neg hnul]
      rw [Bool.not_eq_true] at hnul
      -- the parser accepts, so the text must be well marked, with the same body
      have hparsed := (parse_eq_ok hlen).mpr ⟨hnul, before, hcut, hexplained, rfl⟩
      obtain ⟨before', hcut', -, hline, hbody⟩ := marked_iff.mp ((hagree _ _).mp hparsed)
      rw [hcut] at hcut'
      obtain ⟨rfl, -⟩ := marker_cut_unique hcut'
      exact ⟨hline, plainEnd_iff.mpr (String.ofList_injective hbody).symm⟩
  · intro hown decision body
    rw [parse_eq_ok hlen, marked_iff]
    constructor
    · rintro ⟨hnul, before, hcut, hexplained, hbody⟩
      have hcase := hown before decision hcut hexplained
      rw [if_neg (by rw [hnul]; exact Bool.false_ne_true)] at hcase
      refine ⟨before, hcut, hexplained, hcase.1, ?_⟩
      rw [hbody, plainEnd_iff.mp hcase.2]
    · rintro ⟨before, hcut, hexplained, hline, hbody⟩
      have hcase := hown before decision hcut hexplained
      split at hcase
      · rw [hline] at hcase
        cases hcase
      · rename_i hnul
        refine ⟨Bool.not_eq_true _ ▸ hnul, before, hcut, hexplained, ?_⟩
        rw [hbody, plainEnd_iff.mp hcase.2]

/-- A response that ends with the marker on its own line. -/
theorem parsedAsMarked_ownLine :
    ParsedAsMarked "Done.\nVIBECODER_LOOP_STATUS=complete" := by
  refine (parsedAsMarked_iff _ (by decide)).mpr ?_
  intro before decision hcut hexplained
  have hends : trimEndChars "Done.\nVIBECODER_LOOP_STATUS=complete".toList =
      "Done.\n".toList ++ (statusMarker .complete).toList := by
    decide
  rw [hends] at hcut
  obtain ⟨rfl, -⟩ := marker_cut_unique hcut
  decide

/-- A sentence that ends with the marker is taken for the final line. -/
theorem sentence_taken_for_line :
    ¬ ParsedAsMarked "Done. VIBECODER_LOOP_STATUS=complete" := by
  intro hagree
  have hends : trimEndChars "Done. VIBECODER_LOOP_STATUS=complete".toList =
      "Done. ".toList ++ (statusMarker .complete).toList := by
    decide
  have hparsed : parseExplicitAgentLoopResponse "Done. VIBECODER_LOOP_STATUS=complete" =
      .ok (.complete, "Done.") := by
    decide
  obtain ⟨before, hcut, -, hline, -⟩ := marked_iff.mp ((hagree _ _).mp hparsed)
  rw [hends] at hcut
  obtain ⟨rfl, -⟩ := marker_cut_unique hcut
  revert hline
  decide

end VibeCoder
