/-
  What a conversation's key stands for, over any run of saves and removals.

  1. **Listing** — a listing that succeeds has taken every name apart into the ids it was made of, and
     so lists the conversations of the project that have an entry, and no others.

  2. **Events** — a call that has taken effect is an event: a record under a key, or a removal.  A
     call with an error has taken effect when the directory is not what it was.

  3. **Runs** — after any calls a load gives what the last event of the key says.
-/
import VibeCoder.Persistence.WriteErrors

namespace VibeCoder.Persistence

open Chars

/-- `load_conversation`, on which no step fails. -/
def loadConversation (codec : Codec PersistedConversation) (d : Directory)
    (key : ProjectId × ConversationId) : Result (Option PersistedConversation) :=
  loadRecord conversationKind codec none d key

/-! ## Listing -/

/-- What the loop lists: the ids it had, and those whose names are ahead. -/
theorem listLoop_mem {fault : Fault} {projectId : ProjectId} {limit index : Nat}
    {ids listed : List ConversationId} {d : Directory}
    (h : listLoop fault projectId limit index ids d = .ok listed) (c : ConversationId) :
    c ∈ listed ↔ c ∈ ids ∨ ∃ e ∈ d, e.1 = conversationKind.target (projectId, c) := by
  induction d generalizing index ids with
  | nil =>
    obtain ⟨-, h⟩ := Result.check_eq_ok.mp h
    cases h
    simp
  | cons e rest ih =>
    obtain ⟨name, entry⟩ := e
    unfold listLoop at h
    obtain ⟨-, h⟩ := Result.check_eq_ok.mp h
    obtain ⟨-, h⟩ := Result.guard_eq_ok.mp h
    split at h
    · -- a temporary file is not listed, and is no record
      rename_i htemp
      rw [ih h]
      have hne : name ≠ conversationKind.target (projectId, c) :=
        target_ne_temp conversationKind_lawful _ (List.isPrefixOf_iff_prefix.mp htemp)
      simp [hne]
    · obtain ⟨text, htext, h⟩ := Result.bind_eq_ok.mp h
      obtain ⟨⟨entryProjectId, entryConversationId⟩, hparse, h⟩ := Result.bind_eq_ok.mp h
      obtain ⟨-, h⟩ := Result.check_eq_ok.mp h
      obtain ⟨-, h⟩ := Result.check_eq_ok.mp h
      have hname : name = conversationKind.target (entryProjectId, entryConversationId) := by
        rw [← decode_iff.mp (orUnexpected_iff.mp htext), parseConversationFileName_iff.mp hparse]
        rfl
      have hkey : name = conversationKind.target (projectId, c) ↔
          entryProjectId = projectId ∧ entryConversationId = c := by
        rw [hname]
        constructor
        · intro heq
          cases target_injective conversationKind_lawful heq
          exact ⟨rfl, rfl⟩
        · rintro ⟨rfl, rfl⟩
          rfl
      split at h
      · rename_i hproject
        obtain ⟨-, h⟩ := Result.guard_eq_ok.mp h
        rw [ih h, List.exists_mem_cons_iff, hkey, List.mem_append, List.mem_singleton]
        simp [hproject, or_assoc, eq_comm]
      · rename_i hproject
        rw [ih h, List.exists_mem_cons_iff, hkey]
        simp [hproject]

theorem exists_entry {d : Directory} {name : List UInt8} :
    (∃ e ∈ d, e.1 = name) ↔ entryOf d name ≠ none := by
  rw [Ne, entryOf_eq_none]
  simp only [ne_eq, not_forall, not_not, exists_prop]

/-- **A listing** is of the conversations that have an entry under their name. -/
theorem listConversationIds_mem {fault : Fault} {d : Directory} {projectId : ProjectId}
    {limit : Nat} {ids : List ConversationId}
    (h : listConversationIds fault d projectId limit = .ok ids) (c : ConversationId) :
    c ∈ ids ↔ entryOf d (conversationKind.target (projectId, c)) ≠ none := by
  obtain ⟨-, h⟩ := Result.check_eq_ok.mp h
  obtain ⟨-, h⟩ := Result.check_eq_ok.mp h
  obtain ⟨-, h⟩ := Result.check_eq_ok.mp h
  obtain ⟨listed, hlisted, h⟩ := Result.bind_eq_ok.mp h
  cases h
  rw [List.mem_mergeSort, listLoop_mem hlisted, exists_entry]
  simp

/-! ## Events -/

/-- A record under a key, or a removal. -/
abbrev Event := (ProjectId × ConversationId) × Option PersistedConversation

/-- The event of a call, if it has taken effect. -/
def eventOf {α : Type} (outcome : Result α × Directory) (d : Directory) (event : Event) :
    List Event :=
  if outcome.1.isOk ∨ outcome.2 ≠ d then [event] else []

/-- What the last event of a key says. -/
def lastSaved (key : ProjectId × ConversationId) (start : Result (Option PersistedConversation)) :
    List Event → Result (Option PersistedConversation)
  | [] => start
  | (other, record) :: events => lastSaved key (if other = key then .ok record else start) events

theorem lastSaved_append {key : ProjectId × ConversationId}
    {start : Result (Option PersistedConversation)} {events more : List Event} :
    lastSaved key start (events ++ more) = lastSaved key (lastSaved key start events) more := by
  induction events generalizing start with
  | nil => rfl
  | cons e events ih => exact ih

/-- The events explain the loads: every key stands for what its last event says. -/
def Explains (codec : Codec PersistedConversation) (d d' : Directory) (events : List Event) : Prop :=
  ∀ key, loadConversation codec d' key = lastSaved key (loadConversation codec d key) events

section Steps

variable {codec : Codec PersistedConversation} {d d' : Directory}

theorem explains_same : Explains codec d d [] := fun _ => rfl

theorem explains_trans {d'' : Directory} {events more : List Event}
    (h : Explains codec d d' events) (h' : Explains codec d' d'' more) :
    Explains codec d d'' (events ++ more) := by
  intro key
  rw [lastSaved_append, ← h key, h' key]

/-- One event that only concerns its key. -/
theorem explains_event {α : Type} {result : Result α} {event : Event}
    (hkey : loadConversation codec d' event.1 = .ok event.2)
    (hother : ∀ key, key ≠ event.1 →
      loadConversation codec d' key = loadConversation codec d key) :
    Explains codec d d' (eventOf (result, d') d event) := by
  obtain ⟨key, record⟩ := event
  intro other
  unfold eventOf
  split
  · by_cases heq : key = other
    · subst heq
      rw [lastSaved, if_pos rfl, lastSaved]
      exact hkey
    · rw [lastSaved, if_neg heq, lastSaved]
      exact hother other (Ne.symm heq)
  · rename_i hnone
    rw [not_or, not_not] at hnone
    show loadConversation codec d' other = loadConversation codec d other
    rw [show d' = d from hnone.2]

/-- A call that has failed and changed nothing. -/
theorem explains_failed {α : Type} {e : VibeCoderError} {event : Event} :
    Explains codec d d (eventOf ((.error e : Result α), d) d event) := by
  unfold eventOf
  rw [if_neg]
  · exact explains_same
  · rintro (h | h)
    · cases h
    · exact h rfl

theorem load_place_other {record : PersistedConversation} {bytes : List UInt8}
    {key : ProjectId × ConversationId} (h : key ≠ conversationKind.key record) :
    loadConversation codec
        (place d (conversationKind.target (conversationKind.key record)) bytes) key =
      loadConversation codec d key :=
  loadRecord_place_other conversationKind_lawful h

/-- **A save** under the key of its record. -/
theorem explains_save (fault : Fault) (uuid : BitVec 128) {record : PersistedConversation}
    (hvalid : record.validate = .ok ()) (hjson : codec.decode (codec.encode record) = some record) :
    Explains codec d (saveRecord conversationKind codec fault uuid d record).2
      (eventOf (saveRecord conversationKind codec fault uuid d record) d
        (conversationKind.key record, some record)) := by
  rcases saveRecord_cases conversationKind codec fault uuid d record with
    ⟨e, hsave⟩ | ⟨hstart, -, hsave⟩
  · rw [hsave]
    exact explains_failed
  · rw [hsave]
    exact explains_event (loadRecord_place (saveStart_size hstart) hjson hvalid)
      fun key hkey => load_place_other hkey

/-- What is not found is not there. -/
theorem inspectStateForRead_none {fault : Fault} {purpose : Purpose} {name : List UInt8}
    (h : inspectStateForRead fault purpose d name = .ok none) : entryOf d name = none := by
  obtain ⟨found, hfound, h⟩ := Result.bind_eq_ok.mp h
  obtain ⟨-, hfound⟩ := Result.check_eq_ok.mp hfound
  cases hfound
  cases hat : entryOf d name with
  | none => rfl
  | some entry =>
    rw [hat] at h
    obtain ⟨-, h⟩ := Result.check_eq_ok.mp h
    cases h

/-- A removal fails and changes nothing, or the name is gone. -/
theorem removeConversation_cases (fault : Fault) (d : Directory)
    (key : ProjectId × ConversationId) :
    (∃ e, removeConversation fault d key = (.error e, d)) ∨
      ∃ result, removeConversation fault d key =
        (result, without d (conversationKind.target key)) := by
  unfold removeConversation
  cases openRoot fault .remove with
  | error e => exact .inl ⟨e, rfl⟩
  | ok _ =>
    dsimp only
    cases hinspect : inspectStateForRead fault .remove d (conversationKind.target key) with
    | error e => exact .inl ⟨e, rfl⟩
    | ok found =>
      cases found with
      | none =>
        right
        refine ⟨.ok (), ?_⟩
        rw [without_of_none (inspectStateForRead_none hinspect)]
      | some entry =>
        dsimp only
        cases attempt fault .unlinkRecord "conversation_remove_failed" with
        | error e => exact .inl ⟨e, rfl⟩
        | ok _ => exact .inr ⟨_, rfl⟩

/-- **A removal.** -/
theorem explains_remove (fault : Fault) (key : ProjectId × ConversationId) :
    Explains codec d (removeConversation fault d key).2
      (eventOf (removeConversation fault d key) d (key, none)) := by
  rcases removeConversation_cases fault d key with ⟨e, hremove⟩ | ⟨result, hremove⟩
  · rw [hremove]
    exact explains_failed
  · rw [hremove]
    refine explains_event (loadRecord_absent (entryOf_without_self d _)) fun other hother => ?_
    refine loadRecord_congr (entryOf_without ?_)
    exact fun heq => hother (target_injective conversationKind_lawful heq)

end Steps

/-- The events of the removals of a project's conversations. -/
def removeEvents (faults : ConversationId → Fault) (projectId : ProjectId) :
    List ConversationId → Directory → List Event
  | [], _ => []
  | conversationId :: rest, d =>
    let outcome := removeConversation (faults conversationId) d (projectId, conversationId)
    eventOf outcome d ((projectId, conversationId), none) ++
      match outcome with
      | (.error _, _) => []
      | (.ok (), d) => removeEvents faults projectId rest d

theorem explains_removeAll {codec : Codec PersistedConversation}
    (faults : ConversationId → Fault) (projectId : ProjectId) (ids : List ConversationId)
    (d : Directory) :
    Explains codec d (removeAll faults projectId ids d).2 (removeEvents faults projectId ids d) := by
  induction ids generalizing d with
  | nil => exact explains_same
  | cons c rest ih =>
    have hstep : Explains codec d _ _ := explains_remove (faults c) (projectId, c)
    unfold removeAll removeEvents
    revert hstep
    dsimp only
    cases removeConversation (faults c) d (projectId, c) with
    | mk result d' =>
    cases result with
    | error e =>
      intro hstep
      rw [List.append_nil]
      exact hstep
    | ok _ =>
      intro hstep
      exact explains_trans hstep (ih d')

/-- **A project's removal that succeeds** has removed all its conversations. -/
theorem removeAll_ok {faults : ConversationId → Fault} {projectId : ProjectId}
    {ids : List ConversationId} {d d' : Directory}
    (h : removeAll faults projectId ids d = (.ok (), d')) (c : ConversationId)
    (hc : c ∈ ids ∨ entryOf d (conversationKind.target (projectId, c)) = none) :
    entryOf d' (conversationKind.target (projectId, c)) = none := by
  induction ids generalizing d with
  | nil =>
    cases h
    exact hc.resolve_left List.not_mem_nil
  | cons c' rest ih =>
    unfold removeAll at h
    rcases removeConversation_cases (faults c') d (projectId, c') with
      ⟨e, hremove⟩ | ⟨result, hremove⟩
    · rw [hremove] at h
      cases h
    · rw [hremove] at h
      cases result with
      | error e => cases h
      | ok _ =>
        refine ih h ?_
        by_cases hcc : c = c'
        · right
          rw [hcc]
          exact entryOf_without_self d _
        · rcases hc with hc | hc
          · exact .inl ((List.mem_cons.mp hc).resolve_left hcc)
          · right
            rw [entryOf_without]
            · exact hc
            · intro heq
              cases target_injective conversationKind_lawful heq
              exact hcc rfl

/-! ## Runs -/

/-- A call that saves or removes, with the step of it that fails. -/
inductive Change where
  | create (fault : Fault) (uuid : BitVec 128) (conversation : PersistedConversation)
  | update (fault : Fault) (uuid : BitVec 128) (expectedRevision : Nat)
      (conversation : PersistedConversation)
  | remove (fault : Fault) (key : ProjectId × ConversationId)
  | removeProject (fault : Fault) (faults : ConversationId → Fault) (projectId : ProjectId)

namespace Change

/-- The record a call saves. -/
def record : Change → Option PersistedConversation
  | .create _ _ conversation => some conversation
  | .update _ _ expectedRevision conversation =>
    some { conversation with revision := expectedRevision + 1 }
  | _ => none

/-- The directory after a call, and its events. -/
def run (codec : Codec PersistedConversation) (d : Directory) : Change → Directory × List Event
  | .create fault uuid conversation =>
    let outcome := createConversation codec fault false uuid d conversation
    (outcome.2, eventOf outcome d (conversationKind.key conversation, some conversation))
  | .update fault uuid expectedRevision conversation =>
    let outcome := updateConversation codec fault false uuid expectedRevision d conversation
    (outcome.2, eventOf outcome d (conversationKind.key conversation,
      some { conversation with revision := expectedRevision + 1 }))
  | .remove fault key =>
    let outcome := removeConversation fault d key
    (outcome.2, eventOf outcome d (key, none))
  | .removeProject fault faults projectId =>
    ((removeProjectConversations fault faults d projectId).2,
      match listConversationIds fault d projectId maxPersistedConversationsPerProject with
      | .error _ => []
      | .ok ids => removeEvents faults projectId ids d)

/-- The calls one after another. -/
def runAll (codec : Codec PersistedConversation) : Directory → List Change → Directory × List Event
  | d, [] => (d, [])
  | d, change :: rest =>
    let (d', events) := change.run codec d
    let (last, more) := runAll codec d' rest
    (last, events ++ more)

end Change

section Runs

variable {codec : Codec PersistedConversation}

/-- A create that gets past its checks is a save. -/
theorem createConversation_cases (codec : Codec PersistedConversation) (fault : Fault)
    (uuid : BitVec 128) (d : Directory) (conversation : PersistedConversation) :
    (∃ e, createConversation codec fault false uuid d conversation = (.error e, d)) ∨
      conversation.validate = .ok () ∧
        createConversation codec fault false uuid d conversation =
          saveRecord conversationKind codec fault uuid d conversation := by
  unfold createConversation createRecord
  cases hchecks : createChecks conversationKind codec fault false
      (conversationLimit fault d conversation.projectId) d conversation with
  | error e => exact .inl ⟨e, rfl⟩
  | ok _ => exact .inr ⟨(Result.check_eq_ok.mp hchecks).1, rfl⟩

/-- The checks of an update commit the record with the next revision. -/
theorem updateChecks_committed {fault : Fault} {poisoned : Bool} {expectedRevision : Nat}
    {d : Directory} {conversation committed : PersistedConversation}
    (h : updateChecks conversationKind codec fault poisoned expectedRevision d conversation =
      .ok committed) :
    conversation.validate = .ok () ∧
      committed = { conversation with revision := expectedRevision + 1 } := by
  obtain ⟨hvalid, h⟩ := Result.check_eq_ok.mp h
  obtain ⟨-, h⟩ := Result.guard_eq_ok.mp h
  obtain ⟨-, h⟩ := Result.check_eq_ok.mp h
  obtain ⟨found, -, h⟩ := Result.bind_eq_ok.mp h
  cases found with
  | none => cases h
  | some current =>
    obtain ⟨-, h⟩ := Result.guard_eq_ok.mp h
    obtain ⟨-, h⟩ := Result.guard_eq_ok.mp h
    cases h
    exact ⟨hvalid, rfl⟩

/-- An update that gets past its checks is a save of the record with the next revision. -/
theorem updateConversation_cases (codec : Codec PersistedConversation) (fault : Fault)
    (uuid : BitVec 128) (expectedRevision : Nat) (d : Directory)
    (conversation : PersistedConversation) :
    (∃ e, updateConversation codec fault false uuid expectedRevision d conversation =
        (.error e, d)) ∨
      ∃ committed, committed = { conversation with revision := expectedRevision + 1 } ∧
        conversation.validate = .ok () ∧
        updateConversation codec fault false uuid expectedRevision d conversation =
          ((saveRecord conversationKind codec fault uuid d committed).1.map (fun _ => committed),
            (saveRecord conversationKind codec fault uuid d committed).2) := by
  unfold updateConversation updateRecord
  cases hchecks : updateChecks conversationKind codec fault false expectedRevision d
      conversation with
  | error e => exact .inl ⟨e, rfl⟩
  | ok committed =>
    right
    obtain ⟨hvalid, hcommitted⟩ := updateChecks_committed hchecks
    refine ⟨committed, hcommitted, hvalid, ?_⟩
    dsimp only
    cases saveRecord conversationKind codec fault uuid d committed with
    | mk result d' => cases result <;> rfl

theorem eventOf_map {α β : Type} {f : α → β} {result : Result α} {d d' : Directory} {event : Event} :
    eventOf (result.map f, d') d event = eventOf (result, d') d event := by
  cases result <;> rfl

/-- **A call** is explained by its events. -/
theorem explains_run {d : Directory} {change : Change}
    (hjson : ∀ record ∈ change.record, codec.decode (codec.encode record) = some record) :
    Explains codec d (change.run codec d).1 (change.run codec d).2 := by
  cases change with
  | create fault uuid conversation =>
    show Explains codec d (createConversation codec fault false uuid d conversation).2
      (eventOf (createConversation codec fault false uuid d conversation) d
        (conversationKind.key conversation, some conversation))
    rcases createConversation_cases codec fault uuid d conversation with
      ⟨e, hcreate⟩ | ⟨hvalid, hcreate⟩
    · rw [hcreate]
      exact explains_failed
    · rw [hcreate]
      exact explains_save fault uuid hvalid (hjson _ rfl)
  | update fault uuid expectedRevision conversation =>
    show Explains codec d
      (updateConversation codec fault false uuid expectedRevision d conversation).2
      (eventOf (updateConversation codec fault false uuid expectedRevision d conversation) d
        (conversationKind.key conversation,
          some { conversation with revision := expectedRevision + 1 }))
    rcases updateConversation_cases codec fault uuid expectedRevision d conversation with
      ⟨e, hupdate⟩ | ⟨committed, hcommitted, hvalid, hupdate⟩
    · rw [hupdate]
      exact explains_failed
    · have hsaveable : committed.validate = .ok () := by
        rw [hcommitted]
        exact hvalid
      have hsaved : Explains codec d _ _ := explains_save fault uuid hsaveable
        (hjson committed (by rw [hcommitted]; rfl))
      rw [hupdate, eventOf_map, ← hcommitted]
      have hkey : conversationKind.key committed = conversationKind.key conversation := by
        rw [hcommitted]
        rfl
      rw [← hkey]
      exact hsaved
  | remove fault key => exact explains_remove fault key
  | removeProject fault faults projectId =>
    show Explains codec d (removeProjectConversations fault faults d projectId).2
      (match listConversationIds fault d projectId maxPersistedConversationsPerProject with
      | .error _ => []
      | .ok ids => removeEvents faults projectId ids d)
    unfold removeProjectConversations
    cases listConversationIds fault d projectId maxPersistedConversationsPerProject with
    | error e => exact explains_same
    | ok ids => exact explains_removeAll faults projectId ids d

theorem explains_runAll {d : Directory} {changes : List Change}
    (hjson : ∀ change ∈ changes, ∀ record ∈ change.record,
      codec.decode (codec.encode record) = some record) :
    Explains codec d (Change.runAll codec d changes).1 (Change.runAll codec d changes).2 := by
  induction changes generalizing d with
  | nil => exact explains_same
  | cons change rest ih =>
    have hfirst : Explains codec d (change.run codec d).1 (change.run codec d).2 :=
      explains_run (hjson change List.mem_cons_self)
    exact explains_trans hfirst (ih fun other hother => hjson other (List.mem_cons_of_mem _ hother))

/-- **A project's removal that succeeds** leaves none of its conversations. -/
theorem removeProjectConversations_ok {fault : Fault} {faults : ConversationId → Fault}
    {d d' : Directory} {projectId : ProjectId}
    (h : removeProjectConversations fault faults d projectId = (.ok (), d')) (c : ConversationId) :
    loadConversation codec d' (projectId, c) = .ok none := by
  unfold removeProjectConversations at h
  cases hlist : listConversationIds fault d projectId maxPersistedConversationsPerProject with
  | error e =>
    rw [hlist] at h
    cases h
  | ok ids =>
    rw [hlist] at h
    refine loadRecord_absent (removeAll_ok h c ?_)
    by_cases hc : c ∈ ids
    · exact .inl hc
    · rw [listConversationIds_mem hlist, not_not] at hc
      exact .inr hc

end Runs

/-- **Names and conversations.**  The parser and the names are inverse to each other; a listing and
    the removal of a project are about the conversations that are there; and after any calls a key
    stands for the record that was last saved under it. -/
theorem conversation_names_law :
    (∀ projectId conversationId,
      parseConversationFileName (conversationFileName projectId conversationId) =
        .ok (projectId, conversationId)) ∧
    (∀ projectId conversationId projectId' conversationId',
      conversationFileName projectId conversationId =
          conversationFileName projectId' conversationId' →
        projectId = projectId' ∧ conversationId = conversationId') ∧
    (∀ text projectId conversationId,
      parseConversationFileName text = .ok (projectId, conversationId) →
        text = conversationFileName projectId conversationId) ∧
    (∀ fault d projectId limit ids, listConversationIds fault d projectId limit = .ok ids →
      ∀ c, c ∈ ids ↔ entryOf d (conversationKind.target (projectId, c)) ≠ none) ∧
    (∀ codec fault faults d d' projectId,
      removeProjectConversations fault faults d projectId = (.ok (), d') →
        ∀ c, loadConversation codec d' (projectId, c) = .ok none) ∧
    ∀ (codec : Codec PersistedConversation) (d : Directory) (changes : List Change),
      (∀ change ∈ changes, ∀ record ∈ change.record,
        codec.decode (codec.encode record) = some record) →
      ∀ key, loadConversation codec (Change.runAll codec d changes).1 key =
        lastSaved key (loadConversation codec d key) (Change.runAll codec d changes).2 := by
  refine ⟨?_, ?_, ?_, ?_, ?_, ?_⟩
  · intro projectId conversationId
    exact parseConversationFileName_iff.mpr rfl
  · intro _ _ _ _ h
    exact conversationFileName_injective h
  · intro _ _ _ h
    exact parseConversationFileName_iff.mp h
  · intro _ _ _ _ _ h
    exact listConversationIds_mem h
  · intro _ _ _ _ _ _ h
    exact removeProjectConversations_ok h
  · intro _ _ _ hjson
    exact explains_runAll hjson

/-- A new conversation, at a revision. -/
def newConversation (revision : Nat) : PersistedConversation where
  schema := conversationStateSchemaV1
  revision := revision
  conversationId := ⟨2⟩
  projectId := ⟨1⟩
  sessionCreationPending := true
  agentSession := none
  turnPending := false
  title := none
  messages := []

/-- Its JSON. -/
def newConversationJson (revision : Nat) : List Char :=
  "\x7b\"schema\":1,\"revision\":".toList ++ (Nat.repr revision).toList ++
    ",\"conversation_id\":\"00000000-0000-0000-0000-000000000002\",".toList ++
    "\"project_id\":\"00000000-0000-0000-0000-000000000001\",".toList ++
    "\"session_creation_pending\":true,\"agent_session\":null,\"turn_pending\":false,".toList ++
    "\"title\":null,\"messages\":[]\x7d".toList

/-- The encoding of this conversation, at the revisions 0 and 1. -/
def newConversationCodec : Codec PersistedConversation where
  encode conversation := encode (newConversationJson conversation.revision)
  decode bytes :=
    if bytes = encode (newConversationJson 0) then some (newConversation 0)
    else if bytes = encode (newConversationJson 1) then some (newConversation 1)
    else none

/-- A create, an update, and the removal of another conversation. -/
def someChanges : List Change :=
  [.create none 7 (newConversation 0), .update none 8 0 (newConversation 0), .remove none (⟨1⟩, ⟨3⟩)]

theorem conversation_names_law_update :
    loadConversation newConversationCodec (Change.runAll newConversationCodec [] someChanges).1
        (⟨1⟩, ⟨2⟩) =
      lastSaved (⟨1⟩, ⟨2⟩) (loadConversation newConversationCodec [] (⟨1⟩, ⟨2⟩))
        (Change.runAll newConversationCodec [] someChanges).2 ∧
    lastSaved (⟨1⟩, ⟨2⟩) (loadConversation newConversationCodec [] (⟨1⟩, ⟨2⟩))
        (Change.runAll newConversationCodec [] someChanges).2 = .ok (some (newConversation 1)) :=
  ⟨conversation_names_law.2.2.2.2.2 newConversationCodec [] someChanges (by set_option maxRecDepth 20000 in decide) _,
    by decide +kernel⟩

end VibeCoder.Persistence
