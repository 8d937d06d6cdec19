/-
  The file names of a store (`vibecoder-persistence-local::unix_store`).

  1. **Names** — a record has the name of its identifiers; `parse_conversation_file_name` reads the
     identifiers of a conversation back.

  2. **Hyphens** — in the text of an identifier no two hyphens stand side by side, and it does not
     end with one (`single_hyphens`), so that the first double hyphen is the one between the texts.

  3. **Both ways** — the parser accepts the names that are made, with the identifiers they are made
     of, and no others (`parseConversationFileName_iff`).
-/
import VibeCoder.Gateway.BaseUrl
import VibeCoder.Persistence.Directory

namespace VibeCoder.Persistence

open Chars
open VibeCoder.Gateway.BaseUrl (splitOnce splitOnce_some)

/-! ## Names -/

/-- `uuid.hyphenated().to_string()`. -/
def uuidText (uuid : BitVec 128) : List Char := (UuidText.hyphenated uuid).toList

/-- `state_file_name`. -/
def stateFileName (projectId : ProjectId) : List Char := uuidText projectId.uuid ++ ".json".toList

/-- `conversation_file_name`. -/
def conversationFileName (projectId : ProjectId) (conversationId : ConversationId) : List Char :=
  uuidText projectId.uuid ++ ("--".toList ++ (uuidText conversationId.uuid ++ ".json".toList))

/-- `str::strip_suffix`. -/
def stripSuffix (text suffix : List Char) : Option (List Char) :=
  if suffix.isSuffixOf text then some (text.take (text.length - suffix.length)) else none

def unexpectedEntry : VibeCoderError := persistenceError "conversation_directory_unexpected_entry"

/-- `.ok_or_else(|| persistence_error(..))?` and `.map_err(..)?`. -/
def orUnexpected {α : Type} : Option α → Result α
  | none => .error unexpectedEntry
  | some a => .ok a

/-- `parse_conversation_file_name`. -/
def parseConversationFileName (text : List Char) : Result (ProjectId × ConversationId) := do
  let stem ← orUnexpected (stripSuffix text ".json".toList)
  let (projectText, conversationText) ← orUnexpected (splitOnce "--".toList stem)
  if contains "--".toList conversationText then throw unexpectedEntry
  let projectUuid ← orUnexpected (UuidText.parseStr (String.ofList projectText))
  let conversationUuid ← orUnexpected (UuidText.parseStr (String.ofList conversationText))
  if projectText ≠ uuidText projectUuid ∨ conversationText ≠ uuidText conversationUuid then
    throw unexpectedEntry
  return (⟨projectUuid⟩, ⟨conversationUuid⟩)

/-! ## Hyphens -/

/-- Two characters are not both hyphens. -/
def Apart (a b : Char) : Prop := ¬ (a = '-' ∧ b = '-')

/-- Digits. -/
def Digits (cs : List Char) : Prop := cs ≠ [] ∧ '-' ∉ cs

theorem apart_digits {cs : List Char} (h : Digits cs) : cs.IsChain Apart := by
  obtain ⟨-, h⟩ := h
  induction cs with
  | nil => exact .nil
  | cons c cs ih =>
    rw [List.mem_cons, not_or] at h
    cases cs with
    | nil => exact .singleton c
    | cons d cs =>
      rw [List.isChain_cons_cons]
      exact ⟨fun hboth => h.1 hboth.1.symm, ih h.2⟩

/-- Digits, one hyphen, and what begins with no hyphen. -/
theorem apart_group {cs rest : List Char} (h : Digits cs) (hrest : rest.IsChain Apart)
    (hhead : rest.head? ≠ some '-') : (cs ++ '-' :: rest).IsChain Apart := by
  rw [List.isChain_append]
  refine ⟨apart_digits h, ?_, ?_⟩
  · cases rest with
    | nil => exact .singleton '-'
    | cons c rest =>
      rw [List.isChain_cons_cons]
      exact ⟨fun hboth => hhead (congrArg some hboth.2), hrest⟩
  · intro a ha b _ hboth
    rw [hboth.1] at ha
    exact h.2 (List.mem_of_getLast? ha)

theorem head_digits {cs rest : List Char} (h : Digits cs) : (cs ++ rest).head? ≠ some '-' := by
  obtain ⟨hne, hnot⟩ := h
  cases cs with
  | nil => exact absurd rfl hne
  | cons c cs =>
    intro heq
    cases heq
    exact hnot List.mem_cons_self

theorem digits_hexDigits {cs : List Char} {count v : Nat} (hne : cs ≠ [])
    (h : ∀ c ∈ cs, c ∈ UuidText.hexDigits count v) : Digits cs := by
  refine ⟨hne, fun hin => ?_⟩
  obtain ⟨w, hw, heq⟩ := UuidText.mem_hexDigits (h '-' hin)
  have hall : ∀ w : Fin 16, '-' ≠ UuidText.hexDigit w.val := by decide
  exact hall ⟨w, hw⟩ heq

/-- **No two hyphens** stand side by side in the text of an identifier, also if one follows it. -/
theorem single_hyphens (uuid : BitVec 128) : (uuidText uuid ++ ['-']).IsChain Apart := by
  have hlen := UuidText.length_hexDigits 32 uuid.toNat
  have hdigits : ∀ {cs : List Char}, cs.length ≠ 0 →
      (∀ c ∈ cs, c ∈ UuidText.hexDigits 32 uuid.toNat) → Digits cs := by
    intro cs hcs hin
    exact digits_hexDigits (fun hnil => hcs (by rw [hnil]; rfl)) hin
  rw [uuidText, UuidText.hyphenated, String.toList_ofList, UuidText.group]
  simp only [List.append_assoc, List.cons_append]
  generalize hds : UuidText.hexDigits 32 uuid.toNat = ds at hlen hdigits
  have h1 : Digits (ds.take 8) := hdigits (by rw [List.length_take, hlen]; decide)
    (fun c hc => List.mem_of_mem_take hc)
  have h2 : Digits ((ds.drop 8).take 4) := hdigits (by simp [hlen])
    (fun c hc => List.mem_of_mem_drop (List.mem_of_mem_take hc))
  have h3 : Digits ((ds.drop 12).take 4) := hdigits (by simp [hlen])
    (fun c hc => List.mem_of_mem_drop (List.mem_of_mem_take hc))
  have h4 : Digits ((ds.drop 16).take 4) := hdigits (by simp [hlen])
    (fun c hc => List.mem_of_mem_drop (List.mem_of_mem_take hc))
  have h5 : Digits (ds.drop 20) := hdigits (by simp [hlen]) (fun c hc => List.mem_of_mem_drop hc)
  refine apart_group h1 (apart_group h2 (apart_group h3 (apart_group h4 (apart_group h5 .nil ?_) ?_)
    ?_) ?_) ?_
  · exact nofun
  · exact head_digits h5
  · exact head_digits h4
  · exact head_digits h3
  · exact head_digits h2

/-- Two hyphens do not stand in such a text. -/
theorem no_double {cs : List Char} (h : cs.IsChain Apart) : ¬ "--".toList <:+: cs := by
  intro hin
  have hchain := h.infix hin
  have htwo : "--".toList = ['-', '-'] := by decide
  rw [htwo, List.isChain_cons_cons] at hchain
  exact hchain.1 ⟨rfl, rfl⟩

/-- The first double hyphen. -/
theorem splitOnce_double {before : List Char} (h : (before ++ ['-']).IsChain Apart)
    (after : List Char) :
    splitOnce ['-', '-'] (before ++ '-' :: '-' :: after) = some (before, after) := by
  induction before with
  | nil => rfl
  | cons c before ih =>
    have hno : ¬ ['-', '-'].isPrefixOf (c :: (before ++ '-' :: '-' :: after)) = true := by
      intro hprefix
      obtain ⟨rest, hrest⟩ := List.isPrefixOf_iff_prefix.mp hprefix
      obtain ⟨rfl, htail⟩ := List.cons.inj hrest
      cases before with
      | nil =>
        rw [List.cons_append, List.nil_append, List.isChain_cons_cons] at h
        exact h.1 ⟨rfl, rfl⟩
      | cons d before =>
        obtain ⟨rfl, -⟩ := List.cons.inj htail
        rw [List.cons_append, List.cons_append, List.isChain_cons_cons] at h
        exact h.1 ⟨rfl, rfl⟩
    rw [List.cons_append] at h
    rw [List.cons_append, splitOnce, if_neg hno, ih h.of_cons]
    rfl

/-! ## Both ways -/

theorem stripSuffix_iff {text suffix stem : List Char} :
    stripSuffix text suffix = some stem ↔ text = stem ++ suffix := by
  unfold stripSuffix
  constructor
  · intro h
    split at h
    · rename_i hsuffix
      obtain ⟨front, hfront⟩ := List.isSuffixOf_iff_suffix.mp hsuffix
      cases h
      rw [← hfront, List.length_append, Nat.add_sub_cancel, List.take_left]
    · cases h
  · rintro rfl
    rw [if_pos (List.isSuffixOf_iff_suffix.mpr (List.suffix_append stem suffix)),
      List.length_append, Nat.add_sub_cancel, List.take_left]

theorem parseStr_uuidText (uuid : BitVec 128) :
    UuidText.parseStr (String.ofList (uuidText uuid)) = some uuid := by
  rw [uuidText, String.ofList_toList, UuidText.parseStr_hyphenated]

theorem uuidText_injective {u v : BitVec 128} (h : uuidText u = uuidText v) : u = v :=
  UuidText.hyphenated_injective (String.toList_inj.mp h)

theorem orUnexpected_iff {α : Type} {value : Option α} {a : α} :
    orUnexpected value = .ok a ↔ value = some a := by
  cases value with
  | none => exact ⟨nofun, nofun⟩
  | some b => rw [orUnexpected, Except.ok.injEq, Option.some.injEq]

/-- **The parser accepts the names that are made**, and no others. -/
theorem parseConversationFileName_iff {text : List Char} {projectId : ProjectId}
    {conversationId : ConversationId} :
    parseConversationFileName text = .ok (projectId, conversationId) ↔
      text = conversationFileName projectId conversationId := by
  have htwo : "--".toList = ['-', '-'] := by decide
  constructor
  · intro h
    obtain ⟨stem, hstem, h⟩ := Result.bind_eq_ok.mp h
    obtain ⟨⟨projectText, conversationText⟩, hsplit, h⟩ := Result.bind_eq_ok.mp h
    dsimp only at h
    split at h
    · cases h
    · obtain ⟨-, -, h⟩ := Result.bind_eq_ok.mp h
      obtain ⟨projectUuid, -, h⟩ := Result.bind_eq_ok.mp h
      obtain ⟨conversationUuid, -, h⟩ := Result.bind_eq_ok.mp h
      split at h
      · cases h
      · rename_i hcanonical
        cases h
        rw [not_or, not_not, not_not] at hcanonical
        have htext := stripSuffix_iff.mp (orUnexpected_iff.mp hstem)
        have hstems := splitOnce_some (orUnexpected_iff.mp hsplit)
        rw [htext, hstems, hcanonical.1, hcanonical.2, conversationFileName]
        simp only [List.append_assoc]
  · rintro rfl
    have hstem : stripSuffix (conversationFileName projectId conversationId) ".json".toList =
        some (uuidText projectId.uuid ++ ("--".toList ++ uuidText conversationId.uuid)) := by
      rw [stripSuffix_iff, conversationFileName]
      simp only [List.append_assoc]
    have hsplit : splitOnce "--".toList
        (uuidText projectId.uuid ++ ("--".toList ++ uuidText conversationId.uuid)) =
        some (uuidText projectId.uuid, uuidText conversationId.uuid) := by
      rw [htwo]
      exact splitOnce_double (single_hyphens projectId.uuid) _
    have honce : contains "--".toList (uuidText conversationId.uuid) = false := by
      rw [Bool.eq_false_iff]
      intro hin
      exact no_double (single_hyphens conversationId.uuid).left_of_append (contains_iff.mp hin)
    unfold parseConversationFileName
    rw [hstem, orUnexpected]
    simp only [bind, Except.bind, hsplit, orUnexpected, honce, parseStr_uuidText]
    rw [if_neg Bool.false_ne_true, if_neg (by simp)]
    rfl

/-- Distinct conversations have distinct names. -/
theorem conversationFileName_injective {p q : ProjectId} {c e : ConversationId}
    (h : conversationFileName p c = conversationFileName q e) : p = q ∧ c = e := by
  have hp := parseConversationFileName_iff.mpr (rfl : conversationFileName p c = _)
  rw [h, parseConversationFileName_iff.mpr rfl] at hp
  cases hp
  exact ⟨rfl, rfl⟩

theorem stateFileName_injective {p q : ProjectId} (h : stateFileName p = stateFileName q) :
    p = q := by
  have huuid := uuidText_injective (List.append_cancel_right h)
  cases p
  cases q
  cases huuid
  rfl

end VibeCoder.Persistence
