/-
  The text `serde_json::to_vec_pretty` makes of the metadata of a checkpoint, and the way back.

  No value of valid metadata needs an escape: they are numbers, identifiers, digests in hex and the
  names of the reasons.  `readMetadataBytes_metadataBytes` is the round trip,
  `length_metadataBytes` a bound.
-/
import Mathlib.Tactic.Linarith
import VibeCoder.Checkpoint.Store
import VibeCoder.Lib.Text

namespace VibeCoder.Checkpoint

/-! ## Scanning -/

/-- Skip a fixed piece. -/
def strip (piece : List Char) (cs : List Char) : Option (List Char) :=
  if piece.isPrefixOf cs then some (cs.drop piece.length) else none

/-- A decimal number, up to what is no digit. -/
def number (cs : List Char) : Nat × List Char :=
  (Nat.ofDigitChars 10 (cs.takeWhile Char.isDigit) 0, cs.dropWhile Char.isDigit)

/-- The characters up to a quote. -/
def quoted (cs : List Char) : List Char × List Char :=
  (cs.takeWhile (· != '"'), cs.dropWhile (· != '"'))

theorem strip_append (piece cs : List Char) : strip piece (piece ++ cs) = some cs := by
  unfold strip
  rw [if_pos (List.isPrefixOf_iff_prefix.mpr (List.prefix_append piece cs)), List.drop_left]

theorem number_append (n : Nat) {c : Char} {piece : List Char} (hpiece : piece.head? = some c)
    (hc : c.isDigit = false) (cs : List Char) :
    number (Nat.toDigits 10 n ++ (piece ++ cs)) = (n, piece ++ cs) := by
  have hdigits : ∀ a, a ∈ Nat.toDigits 10 n → a.isDigit = true :=
    fun a ha => Nat.isDigit_of_mem_toDigits (by decide) (by decide) ha
  obtain ⟨rest, rfl⟩ := List.head?_eq_some_iff.mp hpiece
  unfold number
  rw [List.takeWhile_append_of_pos hdigits, List.dropWhile_append_of_pos hdigits,
    List.cons_append, List.takeWhile_cons, List.dropWhile_cons, hc]
  simp only [Bool.false_eq_true, if_false, List.append_nil, Nat.ofDigitChars_ten_toDigits]

theorem quoted_append {text p : List Char} (hpiece : p.head? = some '"')
    (h : ∀ c, c ∈ text → (c != '"') = true) (cs : List Char) :
    quoted (text ++ (p ++ cs)) = (text, p ++ cs) := by
  obtain ⟨rest, rfl⟩ := List.head?_eq_some_iff.mp hpiece
  unfold quoted
  rw [List.takeWhile_append_of_pos h, List.dropWhile_append_of_pos h, List.cons_append,
    List.takeWhile_cons, List.dropWhile_cons, bne_self_eq_false]
  simp only [Bool.false_eq_true, if_false, List.append_nil]

/-! ## The text -/

/-- `#[serde(rename_all = "snake_case")]`. -/
def reasonText : CheckpointReason → String
  | .manual => "manual"
  | .beforeAgentChange => "before_agent_change"
  | .agentChangeVerification => "agent_change_verification"
  | .beforeBuildRepair => "before_build_repair"
  | .beforeRollback => "before_rollback"

def reasonOf (text : List Char) : Option CheckpointReason :=
  [.manual, .beforeAgentChange, .agentChangeVerification, .beforeBuildRepair, .beforeRollback].find?
    (fun reason => (reasonText reason).toList == text)

theorem reasonOf_reasonText (reason : CheckpointReason) :
    reasonOf (reasonText reason).toList = some reason := by
  cases reason <;> decide

/-- The characters of the text. -/
def metadataChars (m : CheckpointMetadata) : List Char :=
  "\x7b\n  \"schema\": ".toList ++ (Nat.toDigits 10 m.schema ++
  (",\n  \"checkpoint_id\": \"".toList ++ (m.checkpointId.dirName.toList ++
  ("\",\n  \"project_id\": \"".toList ++ ((ProjectId.dirName m.projectId).toList ++
  ("\",\n  \"created_unix_ms\": ".toList ++ (Nat.toDigits 10 m.createdUnixMs ++
  (",\n  \"reason\": \"".toList ++ ((reasonText m.reason).toList ++
  ("\",\n  \"file_count\": ".toList ++ (Nat.toDigits 10 m.fileCount ++
  (",\n  \"total_bytes\": ".toList ++ (Nat.toDigits 10 m.totalBytes ++
  (",\n  \"tree_sha256\": \"".toList ++ (m.treeSha256.toList ++ "\"\n\x7d".toList)))))))))))))))

/-- The way back, for a text of that form. -/
def readMetadata (cs : List Char) : Option CheckpointMetadata := do
  let cs ← strip "\x7b\n  \"schema\": ".toList cs
  let (schema, cs) := number cs
  let cs ← strip ",\n  \"checkpoint_id\": \"".toList cs
  let (checkpointId, cs) := quoted cs
  let checkpointId ← UuidText.parseStr (String.ofList checkpointId)
  let cs ← strip "\",\n  \"project_id\": \"".toList cs
  let (projectId, cs) := quoted cs
  let projectId ← UuidText.parseStr (String.ofList projectId)
  let cs ← strip "\",\n  \"created_unix_ms\": ".toList cs
  let (createdUnixMs, cs) := number cs
  let cs ← strip ",\n  \"reason\": \"".toList cs
  let (reason, cs) := quoted cs
  let reason ← reasonOf reason
  let cs ← strip "\",\n  \"file_count\": ".toList cs
  let (fileCount, cs) := number cs
  let cs ← strip ",\n  \"total_bytes\": ".toList cs
  let (totalBytes, cs) := number cs
  let cs ← strip ",\n  \"tree_sha256\": \"".toList cs
  let (treeSha256, _) := quoted cs
  some {
    schema := schema
    checkpointId := ⟨checkpointId⟩
    projectId := ⟨projectId⟩
    createdUnixMs := createdUnixMs
    reason := reason
    fileCount := fileCount
    totalBytes := totalBytes
    treeSha256 := String.ofList treeSha256 }

theorem unquoted_hyphenated (u : BitVec 128) :
    ∀ c, c ∈ (UuidText.hyphenated u).toList → (c != '"') = true :=
  UuidText.all_hyphenated (by decide) (by decide) u

theorem unquoted_reason (reason : CheckpointReason) :
    ∀ c, c ∈ (reasonText reason).toList → (c != '"') = true := by
  have hall : (reasonText reason).toList.all (· != '"') = true := by
    cases reason <;> decide
  exact List.all_eq_true.mp hall

/-- A digit of a digest. -/
def isHexLower (c : Char) : Bool := c.isDigit || (decide ('a' ≤ c) && decide (c ≤ 'f'))

theorem validate_eq_ok {m : CheckpointMetadata} : m.validate = .ok () ↔
    m.schema = checkpointSchemaV1 ∧ m.fileCount ≤ maxCheckpointFiles ∧
      m.totalBytes ≤ maxCheckpointTotalBytes ∧ len m.treeSha256 = sha256HexBytes ∧
      m.treeSha256.toList.all isHexLower = true := by
  unfold CheckpointMetadata.validate
  split
  · rename_i hschema
    exact ⟨(fun h => by cases h), fun h => absurd h.1 hschema⟩
  rename_i hschema
  split
  · rename_i hcount
    exact ⟨(fun h => by cases h), fun h => absurd h.2.1 (Nat.not_le.mpr hcount)⟩
  rename_i hcount
  split
  · rename_i hbytes
    exact ⟨(fun h => by cases h), fun h => absurd h.2.2.1 (Nat.not_le.mpr hbytes)⟩
  rename_i hbytes
  split
  · rename_i hdigest
    refine ⟨(fun h => by cases h), fun h => ?_⟩
    rcases hdigest with hlength | hchars
    · exact absurd h.2.2.2.1 hlength
    · have hall := h.2.2.2.2
      unfold isHexLower at hall
      rw [hall] at hchars
      cases hchars
  · rename_i hdigest
    obtain ⟨hlength, hchars⟩ := not_or.mp hdigest
    refine ⟨fun _ => ⟨not_not.mp hschema, Nat.not_lt.mp hcount, Nat.not_lt.mp hbytes,
      not_not.mp hlength, ?_⟩, fun _ => rfl⟩
    rw [Bool.not_eq_true, Bool.not_eq_false'] at hchars
    exact hchars

theorem unquoted_sha256 {m : CheckpointMetadata} (h : m.validate = .ok ()) :
    ∀ c, c ∈ m.treeSha256.toList → (c != '"') = true := by
  intro c hc
  have hhex : isHexLower c = true := List.all_eq_true.mp (validate_eq_ok.mp h).2.2.2.2 c hc
  rw [bne_iff_ne]
  rintro rfl
  exact absurd hhex (by decide)

/-- **Round trip.** -/
theorem readMetadata_metadataChars {m : CheckpointMetadata} (h : m.validate = .ok ()) :
    readMetadata (metadataChars m) = some m := by
  have hlast : quoted (m.treeSha256.toList ++ "\"\n\x7d".toList) =
      (m.treeSha256.toList, "\"\n\x7d".toList) := by
    have happend := quoted_append (p := "\"\n\x7d".toList) (by decide) (unquoted_sha256 h) []
    rw [List.append_nil] at happend
    exact happend
  have hcheckpoint : ∀ c, c ∈ m.checkpointId.dirName.toList → (c != '"') = true :=
    unquoted_hyphenated _
  have hproject : ∀ c, c ∈ (ProjectId.dirName m.projectId).toList → (c != '"') = true :=
    unquoted_hyphenated _
  unfold readMetadata metadataChars
  simp only [Option.bind_eq_bind, strip_append, Option.bind_some]
  rw [number_append _ (c := ',') (by decide) (by decide)]
  simp only [strip_append, Option.bind_some]
  rw [quoted_append (by decide) hcheckpoint]
  simp only [String.ofList_toList, strip_append, CheckpointId.dirName,
    UuidText.parseStr_hyphenated, Option.bind_some]
  rw [quoted_append (by decide) hproject]
  simp only [String.ofList_toList, strip_append, ProjectId.dirName,
    UuidText.parseStr_hyphenated, Option.bind_some]
  rw [number_append _ (c := ',') (by decide) (by decide)]
  simp only [strip_append, Option.bind_some]
  rw [quoted_append (by decide) (unquoted_reason _)]
  simp only [reasonOf_reasonText, strip_append, Option.bind_some]
  rw [number_append _ (c := ',') (by decide) (by decide)]
  simp only [strip_append, Option.bind_some]
  rw [number_append _ (c := ',') (by decide) (by decide)]
  simp only [strip_append, Option.bind_some]
  rw [hlast, String.ofList_toList]

/-! ## The bytes -/

def isAscii (c : Char) : Bool := decide (c.toNat < 128)

theorem isAscii_of_isDigit {c : Char} (h : c.isDigit = true) : isAscii c = true := by
  unfold Char.isDigit at h
  rw [Bool.and_eq_true, decide_eq_true_eq, decide_eq_true_eq] at h
  have hle : c.toNat ≤ 57 := UInt32.le_iff_toNat_le.mp h.2
  refine decide_eq_true ?_
  omega

theorem isAscii_of_isHexLower {c : Char} (h : isHexLower c = true) : isAscii c = true := by
  unfold isHexLower at h
  rw [Bool.or_eq_true, Bool.and_eq_true, decide_eq_true_eq, decide_eq_true_eq] at h
  rcases h with hdigit | ⟨-, hle⟩
  · exact isAscii_of_isDigit hdigit
  · have hle' : c.toNat ≤ 102 := hle
    refine decide_eq_true ?_
    omega

theorem all_toDigits (n : Nat) : (Nat.toDigits 10 n).all isAscii = true :=
  List.all_eq_true.mpr (fun _ hc =>
    isAscii_of_isDigit (Nat.isDigit_of_mem_toDigits (by decide) (by decide) hc))

theorem all_ascii_hyphenated (u : BitVec 128) :
    (UuidText.hyphenated u).toList.all isAscii = true :=
  List.all_eq_true.mpr (UuidText.all_hyphenated (by decide) (by decide) u)

theorem all_ascii_reason (reason : CheckpointReason) :
    (reasonText reason).toList.all isAscii = true := by
  cases reason <;> decide

theorem all_ascii_metadata {m : CheckpointMetadata} (h : m.validate = .ok ()) :
    (metadataChars m).all isAscii = true := by
  have hsha : m.treeSha256.toList.all isAscii = true :=
    List.all_eq_true.mpr (fun c hc => isAscii_of_isHexLower
      (List.all_eq_true.mp (validate_eq_ok.mp h).2.2.2.2 c hc))
  unfold metadataChars
  simp only [List.all_append, all_toDigits, CheckpointId.dirName, ProjectId.dirName,
    all_ascii_hyphenated, all_ascii_reason, hsha, Bool.true_and]
  decide

/-- The bytes of the text, which is ASCII. -/
def metadataBytes (m : CheckpointMetadata) : List UInt8 :=
  (metadataChars m).map (fun c => UInt8.ofNat c.toNat)

def readMetadataBytes (bytes : List UInt8) : Option CheckpointMetadata :=
  readMetadata (bytes.map (fun b => Char.ofNat b.toNat))

theorem readMetadataBytes_metadataBytes {m : CheckpointMetadata} (h : m.validate = .ok ()) :
    readMetadataBytes (metadataBytes m) = some m := by
  have hchars : ((metadataChars m).map (fun c => UInt8.ofNat c.toNat)).map
      (fun b => Char.ofNat b.toNat) = metadataChars m := by
    rw [List.map_map]
    refine (List.map_congr_left (fun c hc => ?_)).trans (List.map_id _)
    have hascii : c.toNat < 128 :=
      of_decide_eq_true (List.all_eq_true.mp (all_ascii_metadata h) c hc)
    show Char.ofNat (UInt8.ofNat c.toNat).toNat = c
    rw [UInt8.toNat_ofNat', Nat.mod_eq_of_lt (Nat.lt_trans hascii (by decide)), Char.ofNat_toNat]
  unfold readMetadataBytes metadataBytes
  rw [hchars, readMetadata_metadataChars h]

theorem length_toDigits_le {n k : Nat} (hk : 0 < k) (h : n < 10 ^ k) :
    (Nat.toDigits 10 n).length ≤ k := (Nat.length_toDigits_le_iff (by decide) hk).mpr h

/-- The text of valid metadata is short. -/
theorem length_metadataBytes {m : CheckpointMetadata} (h : m.validate = .ok ())
    (hclock : m.createdUnixMs ≤ u64Max) : (metadataBytes m).length ≤ maxMetadataBytes := by
  obtain ⟨hschema, hcount, hbytes, hlength, hhex⟩ := validate_eq_ok.mp h
  have hsha : m.treeSha256.toList.length = 64 := by
    have hascii : ∀ c, c ∈ m.treeSha256.toList → c.toNat < 128 := fun c hc =>
      of_decide_eq_true (isAscii_of_isHexLower (List.all_eq_true.mp hhex c hc))
    exact (Text.utf8ByteSize_ascii hascii).symm.trans hlength
  have hreason : (reasonText m.reason).toList.length ≤ 25 := by
    cases m.reason <;> decide
  have h1 : (Nat.toDigits 10 m.schema).length ≤ 1 := by
    rw [hschema]
    decide
  have h2 : (Nat.toDigits 10 m.createdUnixMs).length ≤ 20 :=
    length_toDigits_le (by decide) (Nat.lt_of_le_of_lt hclock (by decide))
  have h3 : (Nat.toDigits 10 m.fileCount).length ≤ 6 :=
    length_toDigits_le (by decide) (Nat.lt_of_le_of_lt hcount (by decide))
  have h4 : (Nat.toDigits 10 m.totalBytes).length ≤ 10 :=
    length_toDigits_le (by decide) (Nat.lt_of_le_of_lt hbytes (by decide))
  have hpieces : "\x7b\n  \"schema\": ".toList.length + ",\n  \"checkpoint_id\": \"".toList.length +
      "\",\n  \"project_id\": \"".toList.length + "\",\n  \"created_unix_ms\": ".toList.length +
      ",\n  \"reason\": \"".toList.length + "\",\n  \"file_count\": ".toList.length +
      ",\n  \"total_bytes\": ".toList.length + ",\n  \"tree_sha256\": \"".toList.length +
      "\"\n\x7d".toList.length ≤ 200 := by decide
  unfold metadataBytes metadataChars
  simp only [List.length_map, List.length_append, CheckpointId.dirName, ProjectId.dirName,
    UuidText.length_hyphenated, hsha]
  unfold maxMetadataBytes
  linarith

/-- The other packages, with this text for the metadata. -/
def textEnv (sha256 : List UInt8 → String) : Env :=
  { sha256 := sha256
    encode := metadataBytes
    decode := readMetadataBytes }

end VibeCoder.Checkpoint
