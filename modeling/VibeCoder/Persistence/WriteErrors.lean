/-
  What is left of a create or an update that reports an error.

  1. **Kept** — after an error every record loads as before, and no temporary file is new.

  2. **Ready** — the call would be carried out: nothing about the record, the directory or the gate
     stands against it.

  3. **The defect** — the synchronisation of the directory follows the rename.  When it fails the
     call reports an error, and the new record is what loads.
-/
import VibeCoder.Persistence.SaveLaw

namespace VibeCoder.Persistence

open Chars

/-! ## Kept -/

/-- **An error leaves the store as it was**: each record, and the temporary files. -/
def KeptOnError {K R α : Type} [DecidableEq K] (kind : RecordKind K R) (codec : Codec R)
    (d : Directory) (outcome : Result α × Directory) : Prop :=
  ∀ e, outcome.1 = .error e →
    (∀ key, loadRecord kind codec none outcome.2 key = loadRecord kind codec none d key) ∧
    ∀ name, encode kind.tempPrefix <+: name → entryOf outcome.2 name = entryOf d name

section Kinds

variable {K R : Type} [DecidableEq K] {kind : RecordKind K R} {codec : Codec R} {fault : Fault}
  {poisoned : Bool}
  {limit : Result Unit} {uuid : BitVec 128} {expectedRevision : Nat} {d : Directory} {record : R}

theorem kept_same {α : Type} {result : Result α} : KeptOnError kind codec d (result, d) :=
  fun _ _ => ⟨fun _ => rfl, fun _ _ => rfl⟩

theorem kept_ok {α : Type} {a : α} {d' : Directory} : KeptOnError kind codec d (.ok a, d') :=
  fun _ h => by cases h

/-! ## Ready -/

/-- Nothing stands against a create. -/
structure CreateReady (kind : RecordKind K R) (codec : Codec R) (poisoned : Bool)
    (limit : Result Unit) (uuid : BitVec 128) (d : Directory) (record : R) : Prop where
  valid : kind.validate record = .ok ()
  revision : kind.revision record = 0
  gate : poisoned = false
  absent : loadRecord kind codec none d (kind.key record) = .ok none
  limit : limit = .ok ()
  fits : (codec.encode record).length ≤ kind.maxBytes
  free : entryOf d (kind.temp uuid) = none

/-- Nothing stands against an update. -/
structure UpdateReady (kind : RecordKind K R) (codec : Codec R) (poisoned : Bool)
    (uuid : BitVec 128) (expectedRevision : Nat) (d : Directory) (record : R) : Prop where
  valid : kind.validate record = .ok ()
  revision : kind.revision record = expectedRevision
  gate : poisoned = false
  current : ∃ current, loadRecord kind codec none d (kind.key record) = .ok (some current) ∧
    kind.revision current = expectedRevision
  next : expectedRevision + 1 ≤ u64Max
  fits : (codec.encode (kind.withRevision (expectedRevision + 1) record)).length ≤ kind.maxBytes
  free : entryOf d (kind.temp uuid) = none

theorem lockGate_iff : lockGate poisoned = .ok () ↔ poisoned = false := by
  cases poisoned with
  | false => exact ⟨fun _ => rfl, fun _ => rfl⟩
  | true => exact ⟨(fun h => by cases h), (fun h => by cases h)⟩

/-- No step of a load is the synchronisation of the directory. -/
theorem loadRecord_syncRoot (key : K) :
    loadRecord kind codec (some .syncRoot) d key = loadRecord kind codec none d key := rfl

theorem createChecks_iff :
    createChecks kind codec (some .syncRoot) poisoned limit d record = .ok () ↔
      kind.validate record = .ok () ∧ kind.revision record = 0 ∧ poisoned = false ∧
        loadRecord kind codec none d (kind.key record) = .ok none ∧ limit = .ok () := by
  unfold createChecks
  rw [Result.check_eq_ok, Result.guard_eq_ok, Result.check_eq_ok, lockGate_iff, not_not,
    loadRecord_syncRoot, Result.bind_eq_ok]
  refine and_congr_right fun _ => and_congr_right fun _ => and_congr_right fun _ => ?_
  constructor
  · rintro ⟨found, hload, h⟩
    obtain ⟨hnone, hlimit⟩ := Result.guard_eq_ok.mp h
    cases found with
    | none => exact ⟨hload, hlimit⟩
    | some current => exact absurd rfl hnone
  · rintro ⟨hload, hlimit⟩
    exact ⟨none, hload, Result.guard_eq_ok.mpr ⟨Bool.false_ne_true, hlimit⟩⟩

theorem updateChecks_iff {committed : R} :
    updateChecks kind codec (some .syncRoot) poisoned expectedRevision d record = .ok committed ↔
      kind.validate record = .ok () ∧ kind.revision record = expectedRevision ∧
        poisoned = false ∧
        (∃ current, loadRecord kind codec none d (kind.key record) = .ok (some current) ∧
          kind.revision current = expectedRevision) ∧
        expectedRevision + 1 ≤ u64Max ∧
        committed = kind.withRevision (expectedRevision + 1) record := by
  unfold updateChecks
  rw [Result.check_eq_ok, Result.guard_eq_ok, Result.check_eq_ok, lockGate_iff, not_not,
    loadRecord_syncRoot, Result.bind_eq_ok]
  refine and_congr_right fun _ => and_congr_right fun _ => and_congr_right fun _ => ?_
  constructor
  · rintro ⟨found, hload, h⟩
    cases found with
    | none => cases h
    | some current =>
      obtain ⟨hrevision, h⟩ := Result.guard_eq_ok.mp h
      obtain ⟨hnext, h⟩ := Result.guard_eq_ok.mp h
      cases h
      exact ⟨⟨current, hload, not_not.mp hrevision⟩, Nat.not_lt.mp hnext, rfl⟩
  · rintro ⟨⟨current, hload, hrevision⟩, hnext, rfl⟩
    refine ⟨some current, hload, Result.guard_eq_ok.mpr ⟨not_not.mpr hrevision, ?_⟩⟩
    exact Result.guard_eq_ok.mpr ⟨Nat.not_lt.mpr hnext, rfl⟩

/-- What has loaded, or is not there, can be replaced. -/
theorem replaceable {found : Option R} {key : K}
    (h : loadRecord kind codec none d key = .ok found) :
    ∀ entry, entryOf d (kind.target key) = some entry →
      verifyPrivateRegularStat entry.stat "project_state_target_invalid" = .ok () := by
  intro entry hentry
  rcases loadRecord_eq_ok h with ⟨-, hnone⟩ | ⟨_, entry', -, hentry', hverify⟩
  · rw [hnone] at hentry
    cases hentry
  · rw [hentry'] at hentry
    cases hentry
    exact hverify

/-! ## The defect -/

/-- **A create that reports an error** has kept the store unless it was carried out and the
    synchronisation of the directory failed. -/
theorem create_kept_iff :
    KeptOnError kind codec d (createRecord kind codec fault poisoned limit uuid d record) ↔
      ¬ (fault = some .syncRoot ∧ CreateReady kind codec poisoned limit uuid d record) := by
  by_cases hbad : fault = some .syncRoot ∧ CreateReady kind codec poisoned limit uuid d record
  · obtain ⟨rfl, hready⟩ := id hbad
    have hchecks : createChecks kind codec (some .syncRoot) poisoned limit d record = .ok () :=
      createChecks_iff.mpr ⟨hready.valid, hready.revision, hready.gate, hready.absent, hready.limit⟩
    have hstart : saveStart kind codec (some .syncRoot) d record = .ok () :=
      (saveStart_iff (.inr rfl)).mpr ⟨hready.fits, replaceable hready.absent⟩
    have hrun : createRecord kind codec (some .syncRoot) poisoned limit uuid d record =
        (.error (kind.error "parent_sync_failed"),
          place d (kind.target (kind.key record)) (codec.encode record)) := by
      unfold createRecord
      rw [hchecks]
      dsimp only
      rw [saveRecord_reached hstart hready.free nofun not_onTemp_syncRoot, attempt_self]
      rfl
    refine iff_of_false ?_ (not_not.mpr hbad)
    intro hkept
    rw [hrun] at hkept
    have hload := (hkept _ rfl).1 (kind.key record)
    rw [hready.absent] at hload
    rcases loadRecord_eq_ok hload with ⟨-, hnone⟩ | ⟨_, _, hsome, -⟩
    · rw [entryOf_place_self] at hnone
      cases hnone
    · cases hsome
  · refine iff_of_true ?_ hbad
    unfold createRecord
    cases hchecks : createChecks kind codec fault poisoned limit d record with
    | error e => exact kept_same
    | ok _ =>
      dsimp only
      rcases saveRecord_cases kind codec fault uuid d record with ⟨e, hsave⟩ | ⟨hstart, hfree, hsave⟩
      · rw [hsave]
        exact kept_same
      · rw [hsave]
        by_cases hsync : fault = some .syncRoot
        · subst hsync
          obtain ⟨hvalid, hrevision, hgate, habsent, hlimit⟩ := createChecks_iff.mp hchecks
          exact absurd ⟨rfl, hvalid, hrevision, hgate, habsent, hlimit, saveStart_size hstart, hfree⟩
            hbad
        · rw [attempt_eq_ok.mpr hsync]
          exact kept_ok

/-- **An update that reports an error**, likewise. -/
theorem update_kept_iff (hkind : kind.Lawful)
    (hjson : codec.decode (codec.encode (kind.withRevision (expectedRevision + 1) record)) =
      some (kind.withRevision (expectedRevision + 1) record)) :
    KeptOnError kind codec d
        (updateRecord kind codec fault poisoned uuid expectedRevision d record) ↔
      ¬ (fault = some .syncRoot ∧
        UpdateReady kind codec poisoned uuid expectedRevision d record) := by
  by_cases hbad : fault = some .syncRoot ∧
      UpdateReady kind codec poisoned uuid expectedRevision d record
  · obtain ⟨rfl, hready⟩ := id hbad
    obtain ⟨current, hcurrent, hexpected⟩ := hready.current
    have hkey := hkind.key_withRevision (expectedRevision + 1) record
    have hchecks : updateChecks kind codec (some .syncRoot) poisoned expectedRevision d record =
        .ok (kind.withRevision (expectedRevision + 1) record) :=
      updateChecks_iff.mpr ⟨hready.valid, hready.revision, hready.gate, hready.current,
        hready.next, rfl⟩
    have hstart : saveStart kind codec (some .syncRoot) d
        (kind.withRevision (expectedRevision + 1) record) = .ok () := by
      refine (saveStart_iff (.inr rfl)).mpr ⟨hready.fits, ?_⟩
      rw [hkey]
      exact replaceable hcurrent
    have hrun : updateRecord kind codec (some .syncRoot) poisoned uuid expectedRevision d record =
        (.error (kind.error "parent_sync_failed"),
          place d (kind.target (kind.key (kind.withRevision (expectedRevision + 1) record)))
            (codec.encode (kind.withRevision (expectedRevision + 1) record))) := by
      unfold updateRecord
      rw [hchecks]
      dsimp only
      rw [saveRecord_reached hstart hready.free nofun not_onTemp_syncRoot, attempt_self]
      rfl
    refine iff_of_false ?_ (not_not.mpr hbad)
    intro hkept
    rw [hrun] at hkept
    have hload := (hkept _ rfl).1 (kind.key record)
    have hvalid : kind.validate (kind.withRevision (expectedRevision + 1) record) = .ok () := by
      rw [hkind.validate_withRevision]
      exact hready.valid
    have hplaced := loadRecord_place (d := d) hready.fits hjson hvalid
    -- the record that loads has the next revision, and the one before had the expected one
    rw [hkey] at hplaced hload
    dsimp only at hload
    rw [hplaced, hcurrent] at hload
    cases hload
    rw [hkind.revision_withRevision] at hexpected
    exact absurd hexpected (Nat.succ_ne_self _)
  · refine iff_of_true ?_ hbad
    unfold updateRecord
    cases hchecks : updateChecks kind codec fault poisoned expectedRevision d record with
    | error e => exact kept_same
    | ok committed =>
      dsimp only
      rcases saveRecord_cases kind codec fault uuid d committed with ⟨e, hsave⟩ | ⟨hstart, hfree, hsave⟩
      · rw [hsave]
        exact kept_same
      · rw [hsave]
        by_cases hsync : fault = some .syncRoot
        · subst hsync
          obtain ⟨hvalid, hrevision, hgate, hcurrent, hnext, rfl⟩ := updateChecks_iff.mp hchecks
          exact absurd ⟨rfl, hvalid, hrevision, hgate, hcurrent, hnext, saveStart_size hstart, hfree⟩
            hbad
        · rw [attempt_eq_ok.mpr hsync]
          exact kept_ok

end Kinds

/-! ## The stores -/

/-- The two directories of `LocalProjectStateStore`. -/
structure Stores where
  states : Directory
  conversations : Directory

structure Codecs where
  states : Codec PersistedProjectState
  conversations : Codec PersistedConversation

/-- A create or an update of one of the stores. -/
inductive Write where
  | createProjectState (state : PersistedProjectState)
  | updateProjectState (expectedRevision : Nat) (state : PersistedProjectState)
  | createConversation (conversation : PersistedConversation)
  | updateConversation (expectedRevision : Nat) (conversation : PersistedConversation)

/-- The call, and whether it reports an error. -/
def Write.run (codecs : Codecs) (fault : Fault) (poisoned : Bool) (uuid : BitVec 128) (s : Stores) :
    Write → Result Unit × Stores
  | .createProjectState state =>
    let (result, d) := Persistence.createProjectState codecs.states fault poisoned uuid s.states state
    (result, { s with states := d })
  | .updateProjectState expectedRevision state =>
    let (result, d) := Persistence.updateProjectState codecs.states fault poisoned uuid
      expectedRevision s.states state
    (result.map (fun _ => ()), { s with states := d })
  | .createConversation conversation =>
    let (result, d) := Persistence.createConversation codecs.conversations fault poisoned uuid
      s.conversations conversation
    (result, { s with conversations := d })
  | .updateConversation expectedRevision conversation =>
    let (result, d) := Persistence.updateConversation codecs.conversations fault poisoned uuid
      expectedRevision s.conversations conversation
    (result.map (fun _ => ()), { s with conversations := d })

/-- Nothing stands against the call. -/
def Write.Ready (codecs : Codecs) (poisoned : Bool) (uuid : BitVec 128) (s : Stores) : Write → Prop
  | .createProjectState state =>
    CreateReady projectStateKind codecs.states poisoned (.ok ()) uuid s.states state
  | .updateProjectState expectedRevision state =>
    UpdateReady projectStateKind codecs.states poisoned uuid expectedRevision s.states state
  | .createConversation conversation =>
    CreateReady conversationKind codecs.conversations poisoned
      (conversationLimit none s.conversations conversation.projectId) uuid s.conversations
      conversation
  | .updateConversation expectedRevision conversation =>
    UpdateReady conversationKind codecs.conversations poisoned uuid expectedRevision
      s.conversations conversation

/-- The JSON of the record an update commits is read back as that record. -/
def Write.ReadsBack (codecs : Codecs) : Write → Prop
  | .updateProjectState expectedRevision state =>
    let committed := { state with revision := expectedRevision + 1 }
    codecs.states.decode (codecs.states.encode committed) = some committed
  | .updateConversation expectedRevision conversation =>
    let committed := { conversation with revision := expectedRevision + 1 }
    codecs.conversations.decode (codecs.conversations.encode committed) = some committed
  | _ => True

/-- After an error every record of both stores loads as before, and no temporary file is new. -/
def StoresKept (codecs : Codecs) (s : Stores) (outcome : Result Unit × Stores) : Prop :=
  KeptOnError projectStateKind codecs.states s.states (outcome.1, outcome.2.states) ∧
    KeptOnError conversationKind codecs.conversations s.conversations
      (outcome.1, outcome.2.conversations)

theorem kept_map {K R α β : Type} [DecidableEq K] {kind : RecordKind K R} {codec : Codec R}
    {d d' : Directory} {result : Result α} {f : α → β} :
    KeptOnError kind codec d (result.map f, d') ↔ KeptOnError kind codec d (result, d') := by
  cases result with
  | ok a => exact iff_of_true kept_ok kept_ok
  | error e =>
    constructor
    · intro h e' he
      cases he
      exact h e rfl
    · intro h e' he
      cases he
      exact h e rfl

theorem listLoop_syncRoot (projectId : ProjectId) (maxConversations index : Nat)
    (ids : List ConversationId) (d : Directory) :
    listLoop (some .syncRoot) projectId maxConversations index ids d =
      listLoop none projectId maxConversations index ids d := by
  induction d generalizing index ids with
  | nil => rfl
  | cons e rest ih =>
    unfold listLoop
    simp only [ih]
    rfl

theorem conversationLimit_syncRoot (d : Directory) (projectId : ProjectId) :
    conversationLimit (some .syncRoot) d projectId = conversationLimit none d projectId := by
  unfold conversationLimit listConversationIds
  rw [listLoop_syncRoot]
  rfl

/-- **Writes and errors.**  A create or an update of a record that reports an error has left every
    record and the temporary files as they were, unless nothing stood against the call and the
    failing step is the synchronisation of the directory. -/
theorem write_kept_iff (codecs : Codecs) (fault : Fault) (poisoned : Bool) (uuid : BitVec 128)
    (s : Stores) (write : Write) (hjson : write.ReadsBack codecs) :
    StoresKept codecs s (write.run codecs fault poisoned uuid s) ↔
      ¬ (fault = some .syncRoot ∧ write.Ready codecs poisoned uuid s) := by
  cases write with
  | createProjectState state =>
    exact (and_iff_left kept_same).trans create_kept_iff
  | updateProjectState expectedRevision state =>
    exact (and_iff_left kept_same).trans
      (kept_map.trans (update_kept_iff projectStateKind_lawful hjson))
  | createConversation conversation =>
    refine (and_iff_right kept_same).trans (create_kept_iff.trans (not_congr ?_))
    refine and_congr_right fun hsync => ?_
    rw [hsync, conversationLimit_syncRoot]
    exact Iff.rfl
  | updateConversation expectedRevision conversation =>
    exact (and_iff_right kept_same).trans
      (kept_map.trans (update_kept_iff conversationKind_lawful hjson))

/-! ## A failed synchronisation -/

/-- The state of a new project, at a revision. -/
def newState (revision : Nat) : PersistedProjectState where
  schema := projectStateSchemaV1
  revision := revision
  projectId := ⟨1⟩
  sessionCreationPending := false
  agentSession := none
  routePolicy := none

/-- Its JSON. -/
def newStateJson (revision : Nat) : List Char :=
  "\x7b\"schema\":1,\"revision\":".toList ++ (Nat.repr revision).toList ++
    ",\"project_id\":\"00000000-0000-0000-0000-000000000001\",".toList ++
    "\"session_creation_pending\":false,\"agent_session\":null,\"route_policy\":null\x7d".toList

/-- The encoding of the states of this project, at the revisions 0 and 1. -/
def newStateCodec : Codec PersistedProjectState where
  encode state := encode (newStateJson state.revision)
  decode bytes :=
    if bytes = encode (newStateJson 0) then some (newState 0)
    else if bytes = encode (newStateJson 1) then some (newState 1)
    else none

def newStateCodecs : Codecs where
  states := newStateCodec
  conversations := ⟨fun _ => [], fun _ => none⟩

/-- The store after the project has been created. -/
def createdStores : Stores :=
  ((Write.createProjectState (newState 0)).run newStateCodecs none false 7 ⟨[], []⟩).2

/-- The update to revision 1 that reports `project_state_parent_sync_failed`. -/
def unsyncedUpdate : Result Unit × Stores :=
  (Write.updateProjectState 0 (newState 0)).run newStateCodecs (some .syncRoot) false 8 createdStores

/-- **The update is refused and made.** -/
theorem failed_sync_keeps_new_record :
    unsyncedUpdate.1 = .error (persistenceError "project_state_parent_sync_failed") ∧
      loadRecord projectStateKind newStateCodec none createdStores.states ⟨1⟩ =
        .ok (some (newState 0)) ∧
      loadRecord projectStateKind newStateCodec none unsyncedUpdate.2.states ⟨1⟩ =
        .ok (some (newState 1)) := by
  set_option maxRecDepth 20000 in decide

theorem write_kept_iff_rename :
    StoresKept newStateCodecs createdStores
        ((Write.updateProjectState 0 (newState 0)).run newStateCodecs (some .rename) false 8
          createdStores) ↔
      ¬ (some Step.rename = some .syncRoot ∧
        (Write.updateProjectState 0 (newState 0)).Ready newStateCodecs false 8 createdStores) :=
  write_kept_iff newStateCodecs (some .rename) false 8 createdStores
    (.updateProjectState 0 (newState 0)) (by show _ = _; set_option maxRecDepth 20000 in decide)

end VibeCoder.Persistence
