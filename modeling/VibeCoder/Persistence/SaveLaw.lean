/-
  What a save does to a store's directory.

  1. **Entries** — the directory as a map from names: what each request leaves under each name.

  2. **Placing** — a save that gets to the end has put one new entry under the target, and one that
     does not has put the directory back as it was.  Only the synchronisation of the directory is
     made after the rename, so that its failure alone is reported of a save that has been made.

  3. **Loading** — a load looks at the entry under the target, and reads back what was encoded.
-/
import VibeCoder.Persistence.Store

namespace VibeCoder.Persistence

open Chars

/-! ## Entries -/

theorem entryOf_eq_none {d : Directory} {name : List UInt8} :
    entryOf d name = none ↔ ∀ e ∈ d, e.1 ≠ name := by
  unfold entryOf
  rw [Option.map_eq_none_iff, List.find?_eq_none]
  simp only [beq_iff_eq, ne_eq]

theorem entryOf_append {d d' : Directory} {name : List UInt8} :
    entryOf (d ++ d') name = (entryOf d name).or (entryOf d' name) := by
  unfold entryOf
  rw [List.find?_append]
  cases d.find? (fun e => e.1 == name) <;> rfl

theorem entryOf_single {name other : List UInt8} {entry : Entry} :
    entryOf [(name, entry)] other = if name = other then some entry else none := by
  unfold entryOf
  by_cases h : name = other
  · rw [if_pos h, List.find?_cons_of_pos (by simpa using h)]
    rfl
  · rw [if_neg h, List.find?_cons_of_neg (by simpa using h)]
    rfl

@[simp] theorem entryOf_without_self (d : Directory) (name : List UInt8) :
    entryOf (without d name) name = none := by
  rw [entryOf_eq_none]
  intro e he
  have hkeep := (List.mem_filter.mp he).2
  simpa using hkeep

theorem entryOf_without {d : Directory} {name other : List UInt8} (h : other ≠ name) :
    entryOf (without d name) other = entryOf d other := by
  unfold entryOf without
  rw [List.find?_filter]
  congr 2
  funext e
  by_cases hother : e.1 = other
  · have hname : e.1 ≠ name := fun heq => h (hother.symm.trans heq)
    simp [hother, h]
  · simp [hother]

theorem without_of_none {d : Directory} {name : List UInt8} (h : entryOf d name = none) :
    without d name = d := by
  unfold without
  rw [List.filter_eq_self]
  intro e he
  simpa using entryOf_eq_none.mp h e he

theorem without_append_single {d : Directory} {name : List UInt8} {entry : Entry}
    (h : entryOf d name = none) : without (d ++ [(name, entry)]) name = d := by
  have hlast : without [(name, entry)] name = [] := by
    unfold without
    simp
  calc without (d ++ [(name, entry)]) name = without d name ++ without [(name, entry)] name :=
        List.filter_append ..
    _ = d := by rw [without_of_none h, hlast, List.append_nil]

theorem writeBytes_append_single {d : Directory} {name bytes : List UInt8} {entry : Entry}
    (h : entryOf d name = none) :
    writeBytes (d ++ [(name, entry)]) name bytes = d ++ [(name, { entry with bytes := bytes })] := by
  unfold writeBytes
  rw [List.map_append]
  have hid : d.map (fun e => if e.1 == name then (e.1, { e.2 with bytes := bytes }) else e) = d := by
    have hother : ∀ e ∈ d,
        (if e.1 == name then (e.1, { e.2 with bytes := bytes }) else e) = id e := by
      intro e he
      rw [if_neg]
      · rfl
      · simpa using entryOf_eq_none.mp h e he
    rw [List.map_congr_left hother, List.map_id]
  rw [hid]
  simp

theorem entryOf_append_single {d : Directory} {name : List UInt8} {entry : Entry}
    (h : entryOf d name = none) : entryOf (d ++ [(name, entry)]) name = some entry := by
  rw [entryOf_append, h, entryOf_single, if_pos rfl]
  rfl

/-! ## Placing -/

/-- The directory with a private file under a name, in place of what was there. -/
def place (d : Directory) (name bytes : List UInt8) : Directory :=
  without d name ++ [(name, { newEntry with bytes := bytes })]

@[simp] theorem entryOf_place_self (d : Directory) (name bytes : List UInt8) :
    entryOf (place d name bytes) name = some { newEntry with bytes := bytes } :=
  entryOf_append_single (entryOf_without_self d name)

theorem entryOf_place {d : Directory} {name bytes other : List UInt8} (h : other ≠ name) :
    entryOf (place d name bytes) other = entryOf d other := by
  unfold place
  rw [entryOf_append, entryOf_without h, entryOf_single, if_neg h.symm, Option.or_none]

theorem renameTo_append_single {d : Directory} {source target : List UInt8} {entry : Entry}
    (h : entryOf d source = none) :
    renameTo (d ++ [(source, entry)]) source target = without d target ++ [(target, entry)] := by
  unfold renameTo
  rw [entryOf_append_single h]
  dsimp only
  rw [without_append_single h]

/-- What the kinds have in common. -/
structure RecordKind.Lawful {K R : Type} (kind : RecordKind K R) : Prop where
  fileName_injective : ∀ {key other : K}, kind.fileName key = kind.fileName other → key = other
  /-- No record has a name that begins like that of a temporary file. -/
  not_temp : ∀ key, ¬ encode kind.tempPrefix <+: kind.target key
  validate_withRevision : ∀ revision record,
    kind.validate (kind.withRevision revision record) = kind.validate record
  key_withRevision : ∀ revision record, kind.key (kind.withRevision revision record) = kind.key record
  revision_withRevision : ∀ revision record,
    kind.revision (kind.withRevision revision record) = revision

section Records

variable {K R : Type} {kind : RecordKind K R} {codec : Codec R} {fault : Fault} {uuid : BitVec 128}
  {d : Directory} {record : R}

theorem attempt_eq_ok {step : Step} {code : String} :
    attempt fault step code = .ok () ↔ fault ≠ some step := by
  unfold attempt
  by_cases h : fault = some step
  · rw [if_pos h]
    exact ⟨(fun hx => by cases hx), fun hx => absurd h hx⟩
  · rw [if_neg h]
    exact ⟨fun _ => h, fun _ => rfl⟩

theorem attempt_self {step : Step} {code : String} :
    attempt (some step) step code = .error (persistenceError code) := if_pos rfl

theorem verifyPrivateRegularStat_new {code : String} :
    verifyPrivateRegularStat newEntry.stat code = .ok () := rfl

theorem verifyTemp_new {temp : List UInt8} (h : entryOf d temp = none) :
    verifyTemp kind fault (d ++ [(temp, newEntry)]) temp =
      attempt fault .statTemp (kind.code "temp_invalid") := by
  unfold verifyTemp
  rw [entryOf_append_single h]
  dsimp only
  rw [verifyPrivateRegularStat_new]
  cases attempt fault .statTemp (kind.code "temp_invalid") <;> rfl

/-- The steps on the temporary file. -/
def OnTemp (fault : Fault) : Prop :=
  fault = some .statTemp ∨ (∃ count, fault = some (.write count)) ∨ fault = some .syncFile ∨
    fault = some .rename

theorem not_onTemp_syncRoot : ¬ OnTemp (some .syncRoot) := by
  rintro (h | ⟨_, h⟩ | h | h) <;> cases h

/-- A step on the temporary file fails and the file is unlinked, or it ends up under the target. -/
theorem fillTemp_cases (kind : RecordKind K R) (codec : Codec R) (fault : Fault) (record : R)
    {temp : List UInt8} (h : entryOf d temp = none) :
    (OnTemp fault ∧ ∃ e bytes, fillTemp kind codec fault (d ++ [(temp, newEntry)]) temp record =
        (.error e, d ++ [(temp, { newEntry with bytes := bytes })])) ∨
      ¬ OnTemp fault ∧ fillTemp kind codec fault (d ++ [(temp, newEntry)]) temp record =
        (.ok (), place d (kind.target (kind.key record)) (codec.encode record)) := by
  unfold fillTemp
  rw [verifyTemp_new h]
  by_cases hstat : fault = some .statTemp
  · left
    subst hstat
    exact ⟨.inl rfl, _, [], rfl⟩
  rw [attempt_eq_ok.mpr hstat]
  dsimp only
  by_cases hwrite : ∃ count, fault = some (.write count)
  · left
    obtain ⟨count, rfl⟩ := hwrite
    refine ⟨.inr (.inl ⟨count, rfl⟩), kind.error "write_failed", (codec.encode record).take count, ?_⟩
    exact congrArg (Prod.mk _) (writeBytes_append_single h)
  unfold writeAndRename
  dsimp only
  split
  · exact absurd ⟨_, rfl⟩ hwrite
  rw [writeBytes_append_single h, renameTo_append_single h]
  by_cases hsync : fault = some .syncFile
  · left
    subst hsync
    exact ⟨.inr (.inr (.inl rfl)), _, codec.encode record, rfl⟩
  rw [attempt_eq_ok.mpr hsync]
  dsimp only
  by_cases hrename : fault = some .rename
  · left
    subst hrename
    exact ⟨.inr (.inr (.inr rfl)), _, codec.encode record, rfl⟩
  right
  rw [attempt_eq_ok.mpr hrename]
  refine ⟨?_, rfl⟩
  rintro (h' | h' | h' | h')
  · exact hstat h'
  · exact hwrite h'
  · exact hsync h'
  · exact hrename h'

/-- A save on which no step before the synchronisation of the directory fails. -/
theorem saveRecord_reached (hstart : saveStart kind codec fault d record = .ok ())
    (hfree : entryOf d (kind.temp uuid) = none) (hcreate : fault ≠ some .createTemp)
    (htemp : ¬ OnTemp fault) :
    saveRecord kind codec fault uuid d record =
      (attempt fault .syncRoot (kind.code "parent_sync_failed"),
        place d (kind.target (kind.key record)) (codec.encode record)) := by
  unfold saveRecord
  rw [hstart]
  dsimp only
  unfold openExclusivePrivateFileAt
  rw [attempt_eq_ok.mpr hcreate]
  dsimp only
  rw [hfree]
  dsimp only
  rcases fillTemp_cases kind codec fault record hfree with ⟨htemp', _⟩ | ⟨_, hfill⟩
  · exact absurd htemp' htemp
  · rw [hfill]

/-- **A save.**  It fails and the directory is as before, or the file has been renamed. -/
theorem saveRecord_cases (kind : RecordKind K R) (codec : Codec R) (fault : Fault)
    (uuid : BitVec 128) (d : Directory) (record : R) :
    (∃ e, saveRecord kind codec fault uuid d record = (.error e, d)) ∨
      saveStart kind codec fault d record = .ok () ∧ entryOf d (kind.temp uuid) = none ∧
        saveRecord kind codec fault uuid d record =
          (attempt fault .syncRoot (kind.code "parent_sync_failed"),
            place d (kind.target (kind.key record)) (codec.encode record)) := by
  cases hstart : saveStart kind codec fault d record with
  | error e =>
    left
    refine ⟨e, ?_⟩
    unfold saveRecord
    rw [hstart]
  | ok _ =>
  by_cases hcreate : fault = some .createTemp
  · left
    subst hcreate
    unfold saveRecord
    rw [hstart]
    exact ⟨_, rfl⟩
  cases hfree : entryOf d (kind.temp uuid) with
  | some entry =>
    left
    refine ⟨persistenceError "project_state_temp_create_failed", ?_⟩
    unfold saveRecord openExclusivePrivateFileAt
    rw [hstart, attempt_eq_ok.mpr hcreate]
    dsimp only
    rw [hfree]
  | none =>
  by_cases htemp : OnTemp fault
  · left
    rcases fillTemp_cases kind codec fault record hfree with ⟨_, e, bytes, hfill⟩ | ⟨hnot, _⟩
    · have hunlink : fault ≠ some .unlinkTemp := by
        rintro rfl
        rcases htemp with h | ⟨_, h⟩ | h | h <;> cases h
      refine ⟨e, ?_⟩
      unfold saveRecord openExclusivePrivateFileAt
      rw [hstart, attempt_eq_ok.mpr hcreate]
      dsimp only
      rw [hfree]
      dsimp only
      rw [hfill]
      dsimp only
      unfold unlinkTemp
      rw [if_neg hunlink, without_append_single hfree]
    · exact absurd htemp hnot
  · exact .inr ⟨rfl, rfl, saveRecord_reached hstart hfree hcreate htemp⟩

/-- A save starts when the record fits and its target can be replaced. -/
theorem saveStart_iff (hsync : fault = none ∨ fault = some .syncRoot) :
    saveStart kind codec fault d record = .ok () ↔
      (codec.encode record).length ≤ kind.maxBytes ∧
      ∀ entry, entryOf d (kind.target (kind.key record)) = some entry →
        verifyPrivateRegularStat entry.stat "project_state_target_invalid" = .ok () := by
  have hroot : openRoot fault .save = .ok () := by
    rcases hsync with rfl | rfl <;> rfl
  have hinspect : fstatatOptional fault .save d (kind.target (kind.key record)) =
      .ok (entryOf d (kind.target (kind.key record))) := by
    rcases hsync with rfl | rfl <;> rfl
  unfold saveStart inspectExistingStateTarget
  rw [Result.guard_eq_ok, Nat.not_lt, hroot, hinspect]
  refine and_congr_right fun _ => ?_
  cases entryOf d (kind.target (kind.key record)) with
  | none => exact ⟨fun _ => nofun, fun _ => rfl⟩
  | some entry =>
    constructor
    · intro h entry' heq
      cases heq
      exact h
    · intro h
      exact h entry rfl

/-- A record fits whenever its save has started. -/
theorem saveStart_size (h : saveStart kind codec fault d record = .ok ()) :
    (codec.encode record).length ≤ kind.maxBytes := by
  unfold saveStart at h
  exact Nat.not_lt.mp (Result.guard_eq_ok.mp h).1

/-! ## Loading -/

variable [DecidableEq K] {key : K}

/-- A load looks at nothing but the entry under the target. -/
theorem loadRecord_congr {d' : Directory}
    (h : entryOf d' (kind.target key) = entryOf d (kind.target key)) :
    loadRecord kind codec fault d' key = loadRecord kind codec fault d key := by
  unfold loadRecord inspectStateForRead fstatatOptional
  rw [h]

theorem loadRecord_absent (h : entryOf d (kind.target key) = none) :
    loadRecord kind codec none d key = .ok none := by
  have hinspect : inspectStateForRead none .load d (kind.target key) = .ok none := by
    unfold inspectStateForRead fstatatOptional
    rw [h]
    rfl
  unfold loadRecord
  rw [hinspect]
  rfl

theorem loadRecord_present {entry : Entry} (h : entryOf d (kind.target key) = some entry) :
    loadRecord kind codec none d key =
      (verifyPrivateRegularStat entry.stat "project_state_target_invalid" >>= fun _ =>
        readRecord kind codec none entry key) := by
  have hinspect : inspectStateForRead none .load d (kind.target key) =
      (verifyPrivateRegularStat entry.stat "project_state_target_invalid" >>= fun _ =>
        .ok (some entry)) := by
    unfold inspectStateForRead fstatatOptional
    rw [h]
    rfl
  unfold loadRecord
  rw [hinspect]
  cases verifyPrivateRegularStat entry.stat "project_state_target_invalid" <;> rfl

/-- What is read from an entry. -/
theorem readRecord_iff {entry : Entry} {found : Option R} :
    readRecord kind codec none entry key = .ok found ↔
      entry.bytes.length ≤ kind.maxBytes ∧
      verifyPrivateRegularStat entry.stat (kind.code "target_invalid") = .ok () ∧
      ∃ record, found = some record ∧ codec.decode entry.bytes = some record ∧
        kind.validate record = .ok () ∧ kind.key record = key := by
  unfold readRecord
  rw [Result.guard_eq_ok, Nat.not_lt]
  refine and_congr_right fun hsize => ?_
  have htake : entry.bytes.take (kind.maxBytes + 1) = entry.bytes :=
    List.take_of_length_le (Nat.le_succ_of_le hsize)
  rw [Result.check_eq_ok, Result.check_eq_ok, Result.check_eq_ok, Result.check_eq_ok, htake]
  dsimp only
  rw [Result.guard_eq_ok, Nat.not_lt]
  have hopen : ∀ step code, attempt none step code = .ok () := fun step code => rfl
  simp only [hopen, true_and, hsize]
  refine and_congr_right fun _ => ?_
  cases codec.decode entry.bytes with
  | none => exact ⟨(fun h => by cases h), fun ⟨_, _, h, _⟩ => by cases h⟩
  | some record =>
    dsimp only
    rw [Result.check_eq_ok, Result.guard_eq_ok, not_not]
    constructor
    · rintro ⟨hvalid, hkey, hfound⟩
      cases hfound
      exact ⟨record, rfl, rfl, hvalid, hkey⟩
    · rintro ⟨record', rfl, hrecord, hvalid, hkey⟩
      cases hrecord
      exact ⟨hvalid, hkey, rfl⟩

/-- **A load that does not fail** finds no entry, or one that passes the checks. -/
theorem loadRecord_eq_ok {found : Option R} (h : loadRecord kind codec none d key = .ok found) :
    (found = none ∧ entryOf d (kind.target key) = none) ∨
      ∃ record entry, found = some record ∧ entryOf d (kind.target key) = some entry ∧
        verifyPrivateRegularStat entry.stat "project_state_target_invalid" = .ok () := by
  cases hat : entryOf d (kind.target key) with
  | none =>
    rw [loadRecord_absent hat] at h
    cases h
    exact .inl ⟨rfl, rfl⟩
  | some entry =>
    rw [loadRecord_present hat] at h
    obtain ⟨hverify, h⟩ := Result.check_eq_ok.mp h
    obtain ⟨-, -, record, hfound, -⟩ := readRecord_iff.mp h
    exact .inr ⟨record, entry, hfound, rfl, hverify⟩

/-- **What has been placed loads.** -/
theorem loadRecord_place (hsize : (codec.encode record).length ≤ kind.maxBytes)
    (hjson : codec.decode (codec.encode record) = some record)
    (hvalid : kind.validate record = .ok ()) :
    loadRecord kind codec none
        (place d (kind.target (kind.key record)) (codec.encode record)) (kind.key record) =
      .ok (some record) := by
  rw [loadRecord_present (entryOf_place_self d _ _)]
  exact Result.check_eq_ok.mpr ⟨verifyPrivateRegularStat_new, readRecord_iff.mpr
    ⟨hsize, verifyPrivateRegularStat_new, record, rfl, hjson, hvalid, rfl⟩⟩

end Records

/-! ## Kinds -/

section Names

variable {K R : Type} {kind : RecordKind K R}

theorem target_injective (hkind : kind.Lawful) {key other : K}
    (h : kind.target key = kind.target other) : key = other :=
  hkind.fileName_injective (encode_injective h)

theorem target_ne_temp (hkind : kind.Lawful) (key : K) {name : List UInt8}
    (h : encode kind.tempPrefix <+: name) : name ≠ kind.target key := by
  rintro rfl
  exact hkind.not_temp key h

theorem prefix_temp (kind : RecordKind K R) (uuid : BitVec 128) :
    encode kind.tempPrefix <+: kind.temp uuid := by
  unfold RecordKind.temp
  rw [encode_append]
  exact List.prefix_append _ _

/-- What is placed under one key is not seen under another. -/
theorem loadRecord_place_other [DecidableEq K] {codec : Codec R} {d : Directory}
    (hkind : kind.Lawful) {key other : K} {bytes : List UInt8} (h : key ≠ other) :
    loadRecord kind codec none (place d (kind.target other) bytes) key =
      loadRecord kind codec none d key := by
  refine loadRecord_congr (entryOf_place ?_)
  exact fun heq => h (target_injective hkind heq)

end Names

/-- The names of records begin with a digit, those of temporary files with a dot. -/
theorem not_dot {uuid : BitVec 128} {rest temp : List Char} :
    ¬ encode ('.' :: temp) <+: encode (uuidText uuid ++ rest) := by
  have hlen : (uuidText uuid).length = 36 := by
    unfold uuidText UuidText.hyphenated
    rw [String.toList_ofList]
    exact UuidText.length_group (UuidText.length_hexDigits 32 _)
  obtain ⟨c, cs, htext⟩ : ∃ c cs, uuidText uuid = c :: cs :=
    List.exists_cons_of_length_eq_add_one hlen
  have hc : c ∈ (UuidText.hyphenated uuid).toList := by
    show c ∈ uuidText uuid
    rw [htext]
    exact List.mem_cons_self
  have hbyte : ∃ b : UInt8, String.utf8EncodeChar c = [b] ∧ b ≠ 46 := by
    have hall : ∀ v : Fin 16, ∃ b : UInt8,
        String.utf8EncodeChar (UuidText.hexDigit v.val) = [b] ∧ b ≠ 46 := by
      intro v
      refine ⟨(UuidText.hexDigit v.val).val.toUInt8, ?_⟩
      revert v
      decide
    rcases UuidText.mem_hyphenated hc with rfl | ⟨v, hv, rfl⟩
    · exact ⟨45, by decide, by decide⟩
    · exact hall ⟨v, hv⟩
  obtain ⟨b, hencode, hb⟩ := hbyte
  have hdot : String.utf8EncodeChar '.' = [46] := by decide
  rw [htext, List.cons_append, encode_cons, encode_cons, hencode, hdot]
  intro hprefix
  exact hb (List.cons_prefix_cons.mp hprefix).1.symm

theorem projectStateKind_lawful : projectStateKind.Lawful where
  fileName_injective h := stateFileName_injective h
  not_temp _ := not_dot
  validate_withRevision _ _ := rfl
  key_withRevision _ _ := rfl
  revision_withRevision _ _ := rfl

theorem conversationKind_lawful : conversationKind.Lawful where
  fileName_injective h := by
    obtain ⟨hproject, hconversation⟩ := conversationFileName_injective h
    exact Prod.ext hproject hconversation
  not_temp _ := not_dot
  validate_withRevision _ _ := rfl
  key_withRevision _ _ := rfl
  revision_withRevision _ _ := rfl

end VibeCoder.Persistence
