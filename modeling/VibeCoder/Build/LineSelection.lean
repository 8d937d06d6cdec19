/-
  Which lines of a stream a repair turn is shown.

  1. **Program** — `select_stream_lines` goes over the lines once.  It keeps the first 96 lines that
     look like errors and, in a queue, the last 32 lines; then it adds the queue to the errors,
     leaves out what is there already, and sorts by the number of the line.

  2. **Specification** — the lines of the stream that are not empty once sanitized, each with its
     number and as it is shown (`numberedLines`): of these, in their order, the ones among the first
     96 that look like errors or among the last 32.

  3. **The loop (`collectLines_eq`)** — from any two lists it can be in, by induction on the lines.
     The queue is the end of all that went through it.

  4. **The merge (`mem_merge_iff`)** — no number twice, and what is in it; two lists in the order of
     the numbers that hold the same entries are equal.
-/
import VibeCoder.Build.Evidence

namespace VibeCoder.Build

open Chars

/-- A line of output with its number. -/
abbrev Entry := Nat × List Char

/-! ## Specification -/

/-- The lines that are not empty once sanitized, as they are shown. -/
def shownEntries (label : List Char) (raws : List Entry) : List Entry :=
  (raws.filter (fun raw => !(sanitizeOutputLine raw.2).isEmpty)).map
    (fun raw => (raw.1, shownLine label raw.2))

/-- Those of a stream. -/
def numberedLines (bytes : List UInt8) (label : List Char) : List Entry :=
  shownEntries label (enumerateLines (decodeLossy bytes))

/-- The first 96 that look like errors. -/
def firstErrors (entries : List Entry) : List Entry :=
  (entries.filter (fun entry => looksLikeError entry.2)).take maxRepairErrorLinesPerStream

/-- The last 32. -/
def lastEntries (entries : List Entry) : List Entry :=
  entries.drop (entries.length - maxRepairTailLinesPerStream)

/-- The numbers go up. -/
def InOrder (entries : List Entry) : Prop := entries.Pairwise (fun a b => a.1 < b.1)

/-! ## The loop -/

theorem firstErrors_subset (entries : List Entry) : firstErrors entries ⊆ entries :=
  fun _ h => (List.mem_filter.mp (List.mem_of_mem_take h)).1

theorem lastEntries_subset (entries : List Entry) : lastEntries entries ⊆ entries :=
  fun _ h => List.mem_of_mem_drop h

theorem lastEntries_short {entries : List Entry}
    (h : entries.length ≤ maxRepairTailLinesPerStream) : lastEntries entries = entries := by
  unfold lastEntries
  rw [Nat.sub_eq_zero_of_le h, List.drop_zero]

/-- A full queue drops its first entry before one is added. -/
theorem lastEntries_queue {queue : List Entry} (entry : Entry) (rest : List Entry)
    (hfull : queue.length = maxRepairTailLinesPerStream) :
    lastEntries (queue.tail ++ [entry] ++ rest) = lastEntries (queue ++ entry :: rest) := by
  obtain ⟨head, queue, rfl⟩ : ∃ head tail, queue = head :: tail := by
    cases queue with
    | nil => exact absurd hfull (by decide)
    | cons head tail => exact ⟨head, tail, rfl⟩
  have hlen : (head :: queue ++ entry :: rest).length - maxRepairTailLinesPerStream =
      (queue ++ [entry] ++ rest).length - maxRepairTailLinesPerStream + 1 := by
    rw [← hfull]
    simp only [List.length_append, List.length_cons, List.length_nil]
    omega
  unfold lastEntries
  rw [hlen, List.cons_append, List.drop_succ_cons, List.tail_cons, List.append_assoc]
  rfl

/-- **The loop.**  Errors are added while there is room, and the queue is the end of everything. -/
theorem collectLines_eq (label : List Char) (raws : List Entry) {errorLines tail : List Entry}
    (herrors : errorLines.length ≤ maxRepairErrorLinesPerStream)
    (htail : tail.length ≤ maxRepairTailLinesPerStream) :
    collectLines label raws errorLines tail =
      (errorLines ++ ((shownEntries label raws).filter (fun entry => looksLikeError entry.2)).take
        (maxRepairErrorLinesPerStream - errorLines.length),
      lastEntries (tail ++ shownEntries label raws)) := by
  induction raws generalizing errorLines tail with
  | nil =>
    have hnone : shownEntries label [] = [] := rfl
    rw [collectLines, hnone, List.filter_nil, List.take_nil, List.append_nil, List.append_nil,
      lastEntries_short htail]
  | cons raw rest ih =>
    obtain ⟨index, raw⟩ := raw
    rw [collectLines]
    by_cases hempty : (sanitizeOutputLine raw).isEmpty = true
    · have hskip : shownEntries label ((index, raw) :: rest) = shownEntries label rest := by
        unfold shownEntries
        rw [List.filter_cons_of_neg]
        rw [hempty]
        exact Bool.false_ne_true
      rw [if_pos hempty, hskip]
      exact ih herrors htail
    · have hkeep : shownEntries label ((index, raw) :: rest) =
          (index, shownLine label raw) :: shownEntries label rest := by
        unfold shownEntries
        rw [List.filter_cons_of_pos, List.map_cons]
        rw [Bool.not_eq_true']
        exact Bool.eq_false_iff.mpr hempty
      rw [if_neg hempty, hkeep]
      -- what the queue is after this line
      have hqueue : ∀ {errorLines' : List Entry},
          errorLines'.length ≤ maxRepairErrorLinesPerStream →
          collectLines label rest errorLines'
            ((if tail.length = maxRepairTailLinesPerStream then tail.tail else tail) ++
              [(index, shownLine label raw)]) =
          (errorLines' ++ ((shownEntries label rest).filter
              (fun entry => looksLikeError entry.2)).take
              (maxRepairErrorLinesPerStream - errorLines'.length),
            lastEntries (tail ++ (index, shownLine label raw) :: shownEntries label rest)) := by
        intro errorLines' herrors'
        split
        · rename_i hfull
          rw [ih herrors', lastEntries_queue _ _ hfull]
          rw [List.length_append, List.length_tail, hfull, List.length_singleton]
          decide
        · rename_i hroom
          rw [ih herrors', List.append_assoc, List.singleton_append]
          rw [List.length_append, List.length_singleton]
          exact Nat.lt_of_le_of_ne htail hroom
      show collectLines label rest
        (if looksLikeError (shownLine label raw) = true ∧
            errorLines.length < maxRepairErrorLinesPerStream then
          errorLines ++ [(index, shownLine label raw)] else errorLines)
        (_ ++ [(index, shownLine label raw)]) = _
      by_cases hlooks : looksLikeError (shownLine label raw) = true
      · rw [List.filter_cons_of_pos (p := fun entry : Entry => looksLikeError entry.2) hlooks]
        by_cases hroom : errorLines.length < maxRepairErrorLinesPerStream
        · have hcount : maxRepairErrorLinesPerStream - errorLines.length =
              maxRepairErrorLinesPerStream - (errorLines.length + 1) + 1 := by omega
          rw [if_pos ⟨hlooks, hroom⟩, hqueue, List.length_append, List.length_singleton, hcount,
            List.take_succ_cons, List.append_assoc, List.singleton_append]
          rw [List.length_append, List.length_singleton]
          exact hroom
        · have hfull : maxRepairErrorLinesPerStream - errorLines.length = 0 := by omega
          rw [if_neg (fun h => hroom h.2), hqueue herrors, hfull, List.take_zero, List.take_zero]
      · rw [List.filter_cons_of_neg (p := fun entry : Entry => looksLikeError entry.2) hlooks, if_neg (fun h => hlooks h.1), hqueue herrors]

/-! ## The merge -/

/-- The merged list of `select_stream_lines`. -/
def mergeTail (errorLines tail : List Entry) : List Entry :=
  tail.foldl
    (fun merged candidate =>
      if merged.any (fun entry => entry.1 == candidate.1) then merged else merged ++ [candidate])
    errorLines

/-- An entry is known by its number. -/
theorem InOrder.eq_of_number {entries : List Entry} (h : InOrder entries) {a b : Entry}
    (ha : a ∈ entries) (hb : b ∈ entries) (hnumber : a.1 = b.1) : a = b := by
  induction entries with
  | nil => exact absurd ha List.not_mem_nil
  | cons head rest ih =>
    obtain ⟨hhead, hrest⟩ := List.pairwise_cons.mp h
    rcases List.mem_cons.mp ha with rfl | ha'
    · rcases List.mem_cons.mp hb with rfl | hb'
      · rfl
      · exact absurd hnumber (Nat.ne_of_lt (hhead b hb'))
    · rcases List.mem_cons.mp hb with rfl | hb'
      · exact absurd hnumber.symm (Nat.ne_of_lt (hhead a ha'))
      · exact ih hrest ha' hb'

/-- **The merge.**  No number is in it twice, and it holds what either list holds. -/
theorem mem_merge_iff {entries : List Entry} (horder : InOrder entries) (tail : List Entry)
    (htail : tail ⊆ entries) {errorLines : List Entry} (herrors : errorLines ⊆ entries)
    (hdistinct : (errorLines.map Prod.fst).Nodup) :
    ((mergeTail errorLines tail).map Prod.fst).Nodup ∧
      ∀ entry, entry ∈ mergeTail errorLines tail ↔ entry ∈ errorLines ∨ entry ∈ tail := by
  induction tail generalizing errorLines with
  | nil =>
    refine ⟨hdistinct, fun entry => ⟨Or.inl, fun h => ?_⟩⟩
    exact h.resolve_right List.not_mem_nil
  | cons candidate tail ih =>
    have hcandidate : candidate ∈ entries := htail List.mem_cons_self
    have hrest : tail ⊆ entries := fun e he => htail (List.mem_cons_of_mem _ he)
    have hstep : mergeTail errorLines (candidate :: tail) =
        mergeTail (if errorLines.any (fun entry => entry.1 == candidate.1) then errorLines
          else errorLines ++ [candidate]) tail := rfl
    rw [hstep]
    by_cases hknown : errorLines.any (fun entry => entry.1 == candidate.1) = true
    · have hmem : candidate ∈ errorLines := by
        obtain ⟨entry, hentry, hnumber⟩ := List.any_eq_true.mp hknown
        rw [← horder.eq_of_number (herrors hentry) hcandidate (beq_iff_eq.mp hnumber)]
        exact hentry
      rw [if_pos hknown]
      obtain ⟨hnodup, hmerged⟩ := ih hrest herrors hdistinct
      refine ⟨hnodup, fun entry => (hmerged entry).trans ⟨fun h => ?_, fun h => ?_⟩⟩
      · exact h.imp_right (List.mem_cons_of_mem _)
      · rcases h with h | h
        · exact .inl h
        · rcases List.mem_cons.mp h with rfl | h
          · exact .inl hmem
          · exact .inr h
    · have hnew : candidate.1 ∉ errorLines.map Prod.fst := by
        intro hmem
        obtain ⟨entry, hentry, hnumber⟩ := List.mem_map.mp hmem
        exact hknown (List.any_eq_true.mpr ⟨entry, hentry, beq_iff_eq.mpr hnumber⟩)
      have hadded : ((errorLines ++ [candidate]).map Prod.fst).Nodup := by
        rw [List.map_append, List.map_singleton, ← List.concat_eq_append]
        exact hdistinct.concat hnew
      have hwithin : errorLines ++ [candidate] ⊆ entries := by
        intro entry hentry
        rcases List.mem_append.mp hentry with h | h
        · exact herrors h
        · rw [List.mem_singleton.mp h]
          exact hcandidate
      rw [if_neg hknown]
      obtain ⟨hnodup, hmerged⟩ := ih hrest hwithin hadded
      refine ⟨hnodup, fun entry => (hmerged entry).trans ?_⟩
      rw [List.mem_append, List.mem_singleton, List.mem_cons, or_assoc]

/-- Entries in order are determined by which ones they are. -/
theorem InOrder.ext {as bs : List Entry} (ha : InOrder as) (hb : InOrder bs)
    (h : ∀ entry, entry ∈ as ↔ entry ∈ bs) : as = bs := by
  have hdistinct : ∀ {es : List Entry}, InOrder es → es.Nodup :=
    fun hes => hes.imp (fun hlt heq => Nat.ne_of_lt hlt (congrArg Prod.fst heq))
  have hperm : as.Perm bs := (List.perm_ext_iff_of_nodup (hdistinct ha) (hdistinct hb)).mpr h
  exact hperm.eq_of_pairwise (fun _ _ _ _ hab hba => absurd hab (Nat.lt_asymm hba)) ha hb

theorem sort_inOrder {entries : List Entry} (h : (entries.map Prod.fst).Nodup) :
    InOrder (entries.insertionSort (fun a b => a.1 ≤ b.1)) := by
  have hsorted := List.pairwise_insertionSort (fun a b : Entry => a.1 ≤ b.1) entries
  have hnodup : ((entries.insertionSort (fun a b => a.1 ≤ b.1)).map Prod.fst).Nodup :=
    ((List.perm_insertionSort (fun a b : Entry => a.1 ≤ b.1) entries).map Prod.fst).nodup_iff.mpr h
  have hne : (entries.insertionSort (fun a b => a.1 ≤ b.1)).Pairwise (fun a b => a.1 ≠ b.1) :=
    List.pairwise_map.mp hnodup
  exact hsorted.imp₂ (fun _ _ hle hne => Nat.lt_of_le_of_ne hle hne) hne

/-! ## The selection -/

theorem numberedLines_inOrder (bytes : List UInt8) (label : List Char) :
    InOrder (numberedLines bytes label) := by
  have hnumbers : InOrder (enumerateLines (decodeLossy bytes)) := by
    have hrange := List.pairwise_lt_range (n := (lines (decodeLossy bytes)).length)
    have hmap : (enumerateLines (decodeLossy bytes)).map Prod.fst =
        List.range (lines (decodeLossy bytes)).length :=
      List.map_fst_zip (Nat.le_of_eq List.length_range)
    rw [← hmap, List.pairwise_map] at hrange
    exact hrange
  exact List.pairwise_map.mpr (hnumbers.filter _)

/-- **The selection.**  Of the numbered lines, in order and each once, those among the first 96 that
    look like errors or among the last 32. -/
theorem selectStreamLines_selection (bytes : List UInt8) (label : List Char) :
    InOrder (numberedLines bytes label) ∧
    selectStreamLines bytes label =
      ((numberedLines bytes label).filter (fun entry =>
        entry ∈ firstErrors (numberedLines bytes label) ∨
          entry ∈ lastEntries (numberedLines bytes label))).map Prod.snd := by
  have horder := numberedLines_inOrder bytes label
  have hcollected : collectLines label (enumerateLines (decodeLossy bytes)) [] [] =
      (firstErrors (numberedLines bytes label), lastEntries (numberedLines bytes label)) :=
    collectLines_eq label _ (Nat.zero_le _) (Nat.zero_le _)
  have herrors : ((firstErrors (numberedLines bytes label)).map Prod.fst).Nodup :=
    List.pairwise_map.mpr (((horder.filter _).take).imp Nat.ne_of_lt)
  obtain ⟨hdistinct, hmerged⟩ := mem_merge_iff horder (lastEntries (numberedLines bytes label))
    (lastEntries_subset _) (firstErrors_subset _) herrors
  refine ⟨horder, ?_⟩
  unfold selectStreamLines
  rw [hcollected]
  show ((mergeTail _ _).insertionSort _).map Prod.snd = _
  congr 1
  refine (sort_inOrder hdistinct).ext (horder.filter _) (fun entry => ?_)
  rw [(List.perm_insertionSort _ _).mem_iff, hmerged, List.mem_filter, decide_eq_true_eq]
  constructor
  · intro h
    exact ⟨h.elim (fun h => firstErrors_subset _ h) (fun h => lastEntries_subset _ h), h⟩
  · exact fun h => h.2

end VibeCoder.Build
