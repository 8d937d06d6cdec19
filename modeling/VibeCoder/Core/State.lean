/-
  The state the calls of one core share, and what each operation does to it.

  * `ConversationTable` — the conversation store: one record a conversation, replaced by
    compare-and-swap on its revision (`vibecoder-persistence-local`);
  * `CheckpointTable` — the checkpoint store: copied trees under ids that are never reused;
  * `Core`   — the lifecycle gate, the stores, the project trees, the checkpoints, the command
    policy with the envelopes it issued, the cancellation flags;
  * `World`  — what the outside contributes to one step: faults, the agent's and the gateway's
    answers, the events and edits of a turn.  Nothing is assumed about it;
  * `exec`   — one operation of a call.

  A project tree is any type with a digest.  The checkpoint store keeps whole trees, so a restored
  project has exactly the checkpointed tree, as the integrity checks of the source enforce; an
  operation of a store either fails and changes nothing or takes effect.
-/
import Mathlib.Logic.Function.Basic
import VibeCoder.Core.Operations

namespace VibeCoder

/-! ## The conversation store -/

/-- The conversation directory: which conversations a project has, and the record of each. -/
structure ConversationTable where
  ids : ProjectId → List ConversationId
  record : ProjectId → ConversationId → Option PersistedConversation
  listed : ∀ p id, (record p id).isSome → id ∈ ids p

namespace ConversationTable

/-- `load_conversation`. -/
def load (table : ConversationTable) (p : ProjectId) (id : ConversationId) :
    Result (Option PersistedConversation) :=
  match table.record p id with
  | none => .ok none
  | some c =>
    if c.encodedBytes > maxPersistedConversationBytes then
      .error (persistenceError "conversation_too_large")
    else
      match c.validate with
      | .error e => .error e
      | .ok () =>
        if c.projectId ≠ p ∨ c.conversationId ≠ id then
          .error (persistenceError "conversation_id_mismatch")
        else .ok (some c)

/-- `list_conversation_ids`, asked for `maxPersistedConversationsPerProject`. -/
def list (table : ConversationTable) (p : ProjectId) : Result (List ConversationId) :=
  if (table.ids p).length > maxPersistedConversationsPerProject then
    .error (persistenceError "conversation_list_limit_exceeded")
  else .ok (table.ids p)

/-- The record with its next revision, if a revision and a file can hold it. -/
def commit (c : PersistedConversation) : Result PersistedConversation :=
  if c.revision ≥ u64Max then .error (persistenceError "conversation_revision_overflow")
  else if { c with revision := c.revision + 1 }.encodedBytes > maxPersistedConversationBytes then
    .error (persistenceError "conversation_too_large")
  else .ok { c with revision := c.revision + 1 }

/-- Replace the record of a conversation that has one. -/
def put (table : ConversationTable) (c : PersistedConversation) : ConversationTable where
  ids := table.ids
  record := fun p id =>
    if p = c.projectId ∧ id = c.conversationId ∧ (table.record p id).isSome then some c
    else table.record p id
  listed := by
    intro p id hsome
    by_cases hkey : p = c.projectId ∧ id = c.conversationId ∧ (table.record p id).isSome
    · exact table.listed p id hkey.2.2
    · rw [if_neg hkey] at hsome
      exact table.listed p id hsome

/-- What `update_conversation` commits, before it is written. -/
def prepareUpdate (table : ConversationTable) (expected : Nat) (c : PersistedConversation) :
    Result PersistedConversation :=
  match c.validate with
  | .error e => .error e
  | .ok () =>
    if c.revision ≠ expected then
      .error (persistenceError "conversation_expected_revision_mismatch")
    else
      match table.load c.projectId c.conversationId with
      | .error e => .error e
      | .ok none => .error (persistenceError "conversation_not_found")
      | .ok (some current) =>
        if current.revision ≠ expected then
          .error (persistenceError "conversation_revision_conflict")
        else commit c

theorem load_some {table : ConversationTable} {p : ProjectId} {id : ConversationId}
    {c : PersistedConversation} (h : table.load p id = .ok (some c)) :
    table.record p id = some c ∧ c.validate = .ok () ∧ c.projectId = p ∧
      c.conversationId = id ∧ c.encodedBytes ≤ maxPersistedConversationBytes := by
  unfold load at h
  cases hr : table.record p id with
  | none => rw [hr] at h; cases h
  | some found =>
    rw [hr] at h
    dsimp only at h
    split at h
    · cases h
    · rename_i hbytes
      cases hv : found.validate with
      | error e => rw [hv] at h; cases h
      | ok u =>
        rw [hv] at h
        dsimp only at h
        split at h
        · cases h
        · rename_i hkey
          cases h
          push Not at hkey
          exact ⟨rfl, hv, hkey.1, hkey.2, by omega⟩

theorem commit_ok {c committed : PersistedConversation} (h : commit c = .ok committed) :
    committed = { c with revision := c.revision + 1 } ∧ c.revision < u64Max ∧
      committed.encodedBytes ≤ maxPersistedConversationBytes := by
  unfold commit at h
  split at h
  · cases h
  · rename_i hrev
    split at h
    · cases h
    · rename_i hbytes
      cases h
      exact ⟨rfl, by omega, by omega⟩

/-- What a successful update saw and committed. -/
theorem prepareUpdate_ok {table : ConversationTable} {expected : Nat}
    {c committed : PersistedConversation}
    (h : table.prepareUpdate expected c = .ok committed) :
    c.validate = .ok () ∧ c.revision = expected ∧ commit c = .ok committed ∧
      ∃ current, table.load c.projectId c.conversationId = .ok (some current) ∧
        current.revision = expected := by
  unfold prepareUpdate at h
  split at h
  · cases h
  · rename_i hvalid
    split at h
    · cases h
    · rename_i hrev
      split at h
      · cases h
      · cases h
      · rename_i current hload
        split at h
        · cases h
        · rename_i hcurrent
          exact ⟨hvalid, not_not.mp hrev, h, current, hload, not_not.mp hcurrent⟩

/-- An update succeeds exactly when the record still has the expected revision and can be
    committed. -/
theorem prepareUpdate_eq {table : ConversationTable} {c current : PersistedConversation}
    (hvalid : c.validate = .ok ())
    (hload : table.load c.projectId c.conversationId = .ok (some current))
    (hrev : current.revision = c.revision) :
    table.prepareUpdate c.revision c = commit c := by
  simp [prepareUpdate, hvalid, hload, hrev]

theorem load_eq {table : ConversationTable} {p : ProjectId} {id : ConversationId}
    {c : PersistedConversation} (hrecord : table.record p id = some c)
    (hvalid : c.validate = .ok ()) (hp : c.projectId = p) (hid : c.conversationId = id)
    (hbytes : c.encodedBytes ≤ maxPersistedConversationBytes) :
    table.load p id = .ok (some c) := by
  simp [load, hrecord, hvalid, hp, hid, Nat.not_lt.mpr hbytes]

/-- A successful update puts a record that exists; every other record stays. -/
theorem put_record {table : ConversationTable} {expected : Nat}
    {c committed : PersistedConversation} (h : table.prepareUpdate expected c = .ok committed) :
    (table.put committed).record c.projectId c.conversationId = some committed ∧
      ∀ p id, ¬ (p = c.projectId ∧ id = c.conversationId) →
        (table.put committed).record p id = table.record p id := by
  obtain ⟨-, -, hcommit, current, hload, -⟩ := prepareUpdate_ok h
  obtain ⟨rfl, -, -⟩ := commit_ok hcommit
  have hsome := (load_some hload).1
  refine ⟨if_pos ⟨rfl, rfl, by rw [hsome]; rfl⟩, fun p id hkey => if_neg ?_⟩
  rintro ⟨hp, hid, -⟩
  exact hkey ⟨hp, hid⟩

end ConversationTable

/-! ## The checkpoint store -/

/-- One checkpoint of the store: its metadata and the copied tree. -/
structure Snapshot (Tree : Type) where
  metadata : CheckpointMetadata
  tree : Tree

/-- The checkpoint directory.  Every id in it was handed out before, so a new one is fresh. -/
structure CheckpointTable (Tree : Type) where
  snapshots : List (Snapshot Tree)
  next : Nat
  numbered : ∀ x ∈ snapshots, x.metadata.checkpointId.serial < next

namespace CheckpointTable

variable {Tree : Type}

/-- Whether a snapshot is the one of a project under an id. -/
def isAt (p : ProjectId) (k : CheckpointId) (x : Snapshot Tree) : Bool :=
  x.metadata.projectId == p && x.metadata.checkpointId == k

/-- The snapshot of a project under an id. -/
def get (table : CheckpointTable Tree) (p : ProjectId) (k : CheckpointId) :
    Option (Snapshot Tree) :=
  table.snapshots.find? (isAt p k)

/-- The number of checkpoints of a project. -/
def count (table : CheckpointTable Tree) (p : ProjectId) : Nat :=
  table.snapshots.countP (fun x => x.metadata.projectId == p)

/-- The metadata of the next checkpoint. -/
def metadata (table : CheckpointTable Tree) (p : ProjectId) (reason : CheckpointReason)
    (treeSha256 : String) : CheckpointMetadata where
  checkpointId := ⟨table.next⟩
  projectId := p
  reason := reason
  treeSha256 := treeSha256

/-- Add a checkpoint under the next id. -/
def add (table : CheckpointTable Tree) (p : ProjectId) (reason : CheckpointReason)
    (treeSha256 : String) (tree : Tree) : CheckpointTable Tree where
  snapshots := table.snapshots ++
    [{ metadata := table.metadata p reason treeSha256, tree := tree }]
  next := table.next + 1
  numbered := by
    intro x hx
    rcases List.mem_append.mp hx with hold | hnew
    · have := table.numbered x hold
      omega
    · rw [List.mem_singleton.mp hnew]
      exact Nat.lt_succ_self _

/-- Remove the checkpoint of a project under an id. -/
def remove (table : CheckpointTable Tree) (p : ProjectId) (k : CheckpointId) :
    CheckpointTable Tree where
  snapshots := table.snapshots.filter (fun x => !isAt p k x)
  next := table.next
  numbered := fun x hx => table.numbered x (List.mem_of_mem_filter hx)

theorem isAt_iff {p : ProjectId} {k : CheckpointId} {x : Snapshot Tree} :
    isAt p k x = true ↔ x.metadata.projectId = p ∧ x.metadata.checkpointId = k := by
  unfold isAt
  rw [Bool.and_eq_true, beq_iff_eq, beq_iff_eq]

theorem get_mem {table : CheckpointTable Tree} {p : ProjectId} {k : CheckpointId}
    {x : Snapshot Tree} (h : table.get p k = some x) :
    x ∈ table.snapshots ∧ x.metadata.projectId = p ∧ x.metadata.checkpointId = k :=
  ⟨List.mem_of_find?_eq_some h, isAt_iff.mp (List.find?_some h)⟩

/-- An added checkpoint is found under its id. -/
theorem get_add_self (table : CheckpointTable Tree) (p : ProjectId) (reason : CheckpointReason)
    (treeSha256 : String) (tree : Tree) :
    (table.add p reason treeSha256 tree).get p ⟨table.next⟩ =
      some { metadata := table.metadata p reason treeSha256, tree := tree } := by
  have hnone : table.snapshots.find? (isAt p ⟨table.next⟩) = none := by
    rw [List.find?_eq_none]
    intro x hx hat
    have hid := (isAt_iff.mp hat).2
    have hlt := table.numbered x hx
    rw [hid] at hlt
    exact Nat.lt_irrefl _ hlt
  unfold get add
  rw [List.find?_append, hnone, Option.none_or]
  simp [isAt, metadata]

/-- Adding a checkpoint hides none. -/
theorem get_add {table : CheckpointTable Tree} {p : ProjectId} {k : CheckpointId}
    {x : Snapshot Tree} (h : table.get p k = some x) (q : ProjectId) (reason : CheckpointReason)
    (treeSha256 : String) (tree : Tree) :
    (table.add q reason treeSha256 tree).get p k = some x := by
  have hfound : table.snapshots.find? (isAt p k) = some x := h
  unfold get add
  rw [List.find?_append, hfound, Option.some_or]

/-- Removing another checkpoint keeps this one. -/
theorem get_remove {table : CheckpointTable Tree} {p q : ProjectId} {k l : CheckpointId}
    {x : Snapshot Tree} (h : table.get p k = some x) (hne : l ≠ k) :
    (table.remove q l).get p k = some x := by
  have hkeep : ∀ y : Snapshot Tree, isAt p k y = true → (!isAt q l y) = true := by
    intro y hy
    have hyk := (isAt_iff.mp hy).2
    rw [Bool.not_eq_true', ← Bool.not_eq_true, isAt_iff]
    exact fun hl => hne (hl.2.symm.trans hyk)
  unfold get remove
  rw [List.find?_filter]
  rw [← h, get]
  congr 1
  funext y
  cases hy : isAt p k y with
  | false => simp
  | true => simp [hkeep y hy]

end CheckpointTable

/-! ## The state -/

/-- What the calls of one core share.  `issued` lists every execution envelope ever issued, and
    `handedOver` the positions in it whose envelope was moved into a start. -/
structure Core (Tree ι : Type) where
  gate : ProjectId → Option ι
  conversations : ConversationTable
  projectStates : ProjectId → Option PersistedProjectState
  tree : ProjectId → Tree
  checkpoints : CheckpointTable Tree
  policy : CommandPolicyState
  issued : List CommandExecutionEnvelope
  handedOver : List Nat
  flags : Flag → Bool
  startedGuards : Nat → Bool

/-- The outside of one step.  `ioFault` is an I/O fault of a store, `fault` a failure of the
    workspace, of the process runtime, or of the agent to settle or refresh on a workspace,
    `agentFault` any other failure of the agent or the gateway, `refusal` a refusal of a store that
    depends on what the model leaves out (file names in a tree, the files of other projects). -/
structure World (Tree : Type) where
  ioFault : Option VibeCoderError
  fault : Option VibeCoderError
  agentFault : Option VibeCoderError
  refusal : Option VibeCoderError
  activeProcesses : Nat
  capabilities : RuntimeCapabilities
  models : List ModelRef
  model : ModelRef
  profile : GatewayExecutionProfile
  response : GatewayChatResponse
  events : List AgentEvent
  turn : Result TurnResult
  edit : Tree → Tree
  uuid : BitVec 128
  timedOut : Bool

/-- An answer, unless a fault comes first. -/
def orFault {α : Type} (fault : Option VibeCoderError) (answer : Result α) : Result α :=
  match fault with
  | some e => .error e
  | none => answer

section

variable {Tree ι : Type}

namespace Core

/-- The answer to a query. -/
def answer (s : Core Tree ι) (w : World Tree) : (q : Query) → Result q.Val
  | .openProject _ | .verifyProject _ | .ensureWorkspaceQuiescent _
  | .refreshSessionAfterWorkspaceReplacement _ _ => orFault w.fault (.ok ())
  | .activeForProject _ => orFault w.fault (.ok w.activeProcesses)
  | .resumeSession _ _ | .verifySessionProjectBinding _ _ => orFault w.agentFault (.ok ())
  | .ensureReady => orFault w.agentFault (.ok w.capabilities)
  | .listModels _ | .listGatewayModels => orFault w.agentFault (.ok w.models)
  | .corroborateModelIdentity _ _ => orFault w.agentFault (.ok w.model)
  | .executionProfile => orFault w.agentFault (.ok w.profile)
  | .chatCompletion _ => orFault w.agentFault (.ok w.response)
  | .loadProjectState p => orFault w.ioFault (.ok (s.projectStates p))
  | .listConversationIds p => orFault w.ioFault (orFault w.refusal (s.conversations.list p))
  | .loadConversation p id => orFault w.ioFault (s.conversations.load p id)
  | .newUuid => .ok w.uuid
  | .timeout => .ok w.timedOut

/-- `create_checkpoint`. -/
def createCheckpoint (digest : Tree → String) (s : Core Tree ι) (p : ProjectId)
    (reason : CheckpointReason) : Result CheckpointMetadata × Core Tree ι :=
  if s.checkpoints.count p ≥ maxCheckpointsPerProject then
    (.error (checkpointError "checkpoint_project_limit_reached"), s)
  else
    (.ok (s.checkpoints.metadata p reason (digest (s.tree p))), { s with
      checkpoints := s.checkpoints.add p reason (digest (s.tree p)) (s.tree p) })

/-- `remove_checkpoint`. -/
def removeCheckpoint (s : Core Tree ι) (p : ProjectId) (k : CheckpointId) :
    Result Unit × Core Tree ι :=
  match s.checkpoints.get p k with
  | none => (.error (checkpointError "checkpoint_not_found"), s)
  | some _ => (.ok (), { s with checkpoints := s.checkpoints.remove p k })

/-- `rollback_project`. -/
def rollbackProject (s : Core Tree ι) (p : ProjectId) (k : CheckpointId) :
    Result RollbackResult × Core Tree ι :=
  match s.checkpoints.get p k with
  | none => (.error (checkpointError "checkpoint_not_found"), s)
  | some x =>
    (.ok { projectId := p, checkpointId := k, treeSha256 := x.metadata.treeSha256 },
      { s with tree := fun p' => if p' = p then x.tree else s.tree p' })

/-- `update_conversation`. -/
def updateConversation (s : Core Tree ι) (expected : Nat) (c : PersistedConversation) :
    Result PersistedConversation × Core Tree ι :=
  match s.conversations.prepareUpdate expected c with
  | .error e => (.error e, s)
  | .ok committed => (.ok committed, { s with conversations := s.conversations.put committed })

/-- The tree of a project after an edit. -/
def edited (s : Core Tree ι) (p : ProjectId) (edit : Tree → Tree) : Core Tree ι :=
  { s with tree := fun p' => if p' = p then edit (s.tree p') else s.tree p' }

/-- `decide`, keeping the envelope it issues. -/
def decide (s : Core Tree ι) (session : SessionId) (p : ProjectId)
    (approval : CommandApprovalRequest) (decision : CommandApprovalDecision) :
    Result CommandDecisionOutcome × Core Tree ι :=
  let decided := s.policy.decide session p approval decision
  (decided.1, { s with
    policy := decided.2
    issued := match decided.1 with
      | .ok (.authorized envelope) => s.issued ++ [envelope]
      | .ok (.denied _) | .error _ => s.issued })

/-- The next envelope a caller holds under a slot; a caller that holds none cannot make the
    call. -/
def takeEnvelope (s : Core Tree ι) (slot : Nat) :
    Result CommandExecutionEnvelope × Core Tree ι :=
  match s.issued[slot]? with
  | none => (.error (.invalidRequest "execution_envelope_not_held"), s)
  | some envelope =>
    if slot ∈ s.handedOver then
      (.error (.invalidRequest "execution_envelope_not_held"), s)
    else (.ok envelope, { s with handedOver := slot :: s.handedOver })

end Core

/-- An operation that may meet a fault before it does anything. -/
def guarded {α : Type} (s : Core Tree ι) (fault : Option VibeCoderError)
    (step : Result α × Core Tree ι) : Result α × Core Tree ι :=
  match fault with
  | some e => (.error e, s)
  | none => step

/-- One operation of call `i`. -/
def exec (config : CoreConfig) (digest : Tree → String) (i : ι) (w : World Tree) (o : Op)
    (s : Core Tree ι) : Result o.Val × Core Tree ι :=
  match o with
  | .query q => (s.answer w q, s)
  | .acquire p =>
    if (s.gate p).isSome then (.error (.invalidRequest "project_lifecycle_busy"), s)
    else (.ok (), { s with gate := Function.update s.gate p (some i) })
  | .release p => (.ok (), { s with gate := Function.update s.gate p none })
  | .updateConversation expected c => guarded s w.ioFault (s.updateConversation expected c)
  | .createCheckpoint p reason =>
    guarded s (w.fault <|> w.ioFault <|> w.refusal) (s.createCheckpoint digest p reason)
  | .removeCheckpoint p k => guarded s w.ioFault (s.removeCheckpoint p k)
  | .rollbackProject p k _ => guarded s (w.fault <|> w.ioFault) (s.rollbackProject p k)
  | .mutate p _ => guarded s w.fault (.ok (), s.edited p w.edit)
  | .beginTurn _ _ _ _ => (.ok (), s)
  | .endTurn p _ => (.ok (w.events, w.turn), s.edited p w.edit)
  | .invalidateAuthorizations p _ =>
    let invalidated := s.policy.invalidateProjectAuthorizations p
    (invalidated.1, { s with policy := invalidated.2 })
  | .requestCommand session p command =>
    let requested := s.policy.requestCommand config.commandPolicy w.uuid session p command
    (requested.1, { s with policy := requested.2 })
  | .decide session p approval decision => s.decide session p approval decision
  | .takeEnvelope slot => s.takeEnvelope slot
  | .validateExecutionEnvelope _ envelope => (s.policy.validateExecutionEnvelope envelope, s)
  | .startProcess _ _ _ => (orFault w.fault (.ok ()), s)
  | .isRequested flag => (.ok (s.flags flag), s)
  | .request flag => (.ok (), { s with flags := Function.update s.flags flag true })
  | .beginOnce guard =>
    if s.startedGuards guard then
      (.error (.invalidRequest "explicit_agent_loop_guard_already_used"), s)
    else (.ok (), { s with startedGuards := Function.update s.startedGuards guard true })

/-! ## What an operation can write -/

variable (config : CoreConfig) (digest : Tree → String) (i : ι) (w : World Tree)
variable (s : Core Tree ι)

/-- The parts of the state each operation may replace. -/
def Op.Writes (s t : Core Tree ι) : Op → Prop
  | .query _ | .beginTurn _ _ _ _ | .validateExecutionEnvelope _ _ | .startProcess _ _ _
  | .isRequested _ => t = s
  | .acquire _ | .release _ => ∃ gate, t = { s with gate := gate }
  | .updateConversation _ _ => ∃ conversations, t = { s with conversations := conversations }
  | .createCheckpoint _ _ | .removeCheckpoint _ _ =>
    ∃ checkpoints, t = { s with checkpoints := checkpoints }
  | .rollbackProject _ _ _ | .mutate _ _ | .endTurn _ _ => ∃ tree, t = { s with tree := tree }
  | .invalidateAuthorizations _ _ | .requestCommand _ _ _ => ∃ policy, t = { s with policy := policy }
  | .decide _ _ _ _ => ∃ policy issued, t = { s with policy := policy, issued := issued }
  | .takeEnvelope _ => ∃ handedOver, t = { s with handedOver := handedOver }
  | .request _ => ∃ flags, t = { s with flags := flags }
  | .beginOnce _ => ∃ startedGuards, t = { s with startedGuards := startedGuards }

variable {s} in
theorem guarded_writes {α : Type} {fault : Option VibeCoderError} {step : Result α × Core Tree ι}
    {o : Op} (hstep : o.Writes s step.2) (hsame : o.Writes s s) :
    o.Writes s (guarded s fault step).2 := by
  cases fault with
  | none => exact hstep
  | some e => exact hsame

theorem exec_writes (o : Op) : o.Writes s (exec config digest i w o s).2 := by
  cases o with
  | query q => exact rfl
  | beginTurn p session prompt model => exact rfl
  | validateExecutionEnvelope slot envelope => exact rfl
  | startProcess p slot envelope => exact rfl
  | isRequested flag => exact rfl
  | acquire p =>
    rw [exec]
    split
    · exact ⟨s.gate, rfl⟩
    · exact ⟨_, rfl⟩
  | release p => exact ⟨_, rfl⟩
  | updateConversation expected c =>
    refine guarded_writes ?_ ⟨s.conversations, rfl⟩
    unfold Core.updateConversation
    split
    · exact ⟨s.conversations, rfl⟩
    · exact ⟨_, rfl⟩
  | createCheckpoint p reason =>
    refine guarded_writes ?_ ⟨s.checkpoints, rfl⟩
    unfold Core.createCheckpoint
    split
    · exact ⟨s.checkpoints, rfl⟩
    · exact ⟨_, rfl⟩
  | removeCheckpoint p k =>
    refine guarded_writes ?_ ⟨s.checkpoints, rfl⟩
    unfold Core.removeCheckpoint
    split
    · exact ⟨s.checkpoints, rfl⟩
    · exact ⟨_, rfl⟩
  | rollbackProject p k recovery =>
    refine guarded_writes ?_ ⟨s.tree, rfl⟩
    unfold Core.rollbackProject
    split
    · exact ⟨s.tree, rfl⟩
    · exact ⟨_, rfl⟩
  | mutate p mutation => exact guarded_writes ⟨_, rfl⟩ ⟨s.tree, rfl⟩
  | endTurn p session => exact ⟨_, rfl⟩
  | invalidateAuthorizations p cancel => exact ⟨_, rfl⟩
  | requestCommand session p command => exact ⟨_, rfl⟩
  | decide session p approval decision => exact ⟨_, _, rfl⟩
  | takeEnvelope slot =>
    rw [exec, Core.takeEnvelope]
    split
    · exact ⟨s.handedOver, rfl⟩
    · split
      · exact ⟨s.handedOver, rfl⟩
      · exact ⟨_, rfl⟩
  | request flag => exact ⟨_, rfl⟩
  | beginOnce guard =>
    rw [exec]
    split
    · exact ⟨s.startedGuards, rfl⟩
    · exact ⟨_, rfl⟩

/-- Only an update writes a conversation. -/
def Op.writesConversations : Op → Bool
  | .updateConversation _ _ => true
  | _ => false

/-- Only a turn, a mutation and a rollback write a tree. -/
def Op.writesTree : Op → Bool
  | .rollbackProject _ _ _ | .mutate _ _ | .endTurn _ _ => true
  | _ => false

/-- Only creating and removing checkpoints writes them. -/
def Op.writesCheckpoints : Op → Bool
  | .createCheckpoint _ _ | .removeCheckpoint _ _ => true
  | _ => false

/-- Only acquiring and releasing writes the gate. -/
def Op.writesGate : Op → Bool
  | .acquire _ | .release _ => true
  | _ => false

theorem exec_conversations {o : Op} (ho : o.writesConversations = false) :
    (exec config digest i w o s).2.conversations = s.conversations := by
  have hwrites := exec_writes config digest i w s o
  cases o <;> unfold Op.Writes at hwrites <;> dsimp only at hwrites <;> first
    | cases ho; done
    | rw [hwrites]
    | obtain ⟨_, hwrites⟩ := hwrites; rw [hwrites]
    | obtain ⟨_, _, hwrites⟩ := hwrites; rw [hwrites]

theorem exec_tree {o : Op} (ho : o.writesTree = false) :
    (exec config digest i w o s).2.tree = s.tree := by
  have hwrites := exec_writes config digest i w s o
  cases o <;> unfold Op.Writes at hwrites <;> dsimp only at hwrites <;> first
    | cases ho; done
    | rw [hwrites]
    | obtain ⟨_, hwrites⟩ := hwrites; rw [hwrites]
    | obtain ⟨_, _, hwrites⟩ := hwrites; rw [hwrites]

theorem exec_checkpoints {o : Op} (ho : o.writesCheckpoints = false) :
    (exec config digest i w o s).2.checkpoints = s.checkpoints := by
  have hwrites := exec_writes config digest i w s o
  cases o <;> unfold Op.Writes at hwrites <;> dsimp only at hwrites <;> first
    | cases ho; done
    | rw [hwrites]
    | obtain ⟨_, hwrites⟩ := hwrites; rw [hwrites]
    | obtain ⟨_, _, hwrites⟩ := hwrites; rw [hwrites]

theorem exec_gate {o : Op} (ho : o.writesGate = false) :
    (exec config digest i w o s).2.gate = s.gate := by
  have hwrites := exec_writes config digest i w s o
  cases o <;> unfold Op.Writes at hwrites <;> dsimp only at hwrites <;> first
    | cases ho; done
    | rw [hwrites]
    | obtain ⟨_, hwrites⟩ := hwrites; rw [hwrites]
    | obtain ⟨_, _, hwrites⟩ := hwrites; rw [hwrites]

/-- No operation here writes a project state. -/
theorem exec_projectStates (o : Op) :
    (exec config digest i w o s).2.projectStates = s.projectStates := by
  have hwrites := exec_writes config digest i w s o
  cases o <;> unfold Op.Writes at hwrites <;> dsimp only at hwrites <;> first
    | rw [hwrites]
    | obtain ⟨_, hwrites⟩ := hwrites; rw [hwrites]
    | obtain ⟨_, _, hwrites⟩ := hwrites; rw [hwrites]

/-- Everything an update can do: fail and change nothing, or put what was prepared. -/
theorem exec_update_cases (expected : Nat) (c : PersistedConversation) :
    (∃ e, exec config digest i w (.updateConversation expected c) s = (.error e, s) ∧
      (w.ioFault = some e ∨ s.conversations.prepareUpdate expected c = .error e)) ∨
    (∃ committed, s.conversations.prepareUpdate expected c = .ok committed ∧
      exec config digest i w (.updateConversation expected c) s =
        (.ok committed, { s with conversations := s.conversations.put committed })) := by
  rw [exec]
  cases hio : w.ioFault with
  | some e => exact Or.inl ⟨e, rfl, Or.inl rfl⟩
  | none =>
    rw [guarded, Core.updateConversation]
    cases hprepare : s.conversations.prepareUpdate expected c with
    | error e => exact Or.inl ⟨e, rfl, Or.inr rfl⟩
    | ok committed => exact Or.inr ⟨committed, rfl, rfl⟩

end

/-! ## A small core -/

/-- A store that holds one conversation. -/
def ConversationTable.single (c : PersistedConversation) : ConversationTable where
  ids := fun p => if p = c.projectId then [c.conversationId] else []
  record := fun p id => if p = c.projectId ∧ id = c.conversationId then some c else none
  listed := by
    intro p id hsome
    by_cases hkey : p = c.projectId ∧ id = c.conversationId
    · rw [if_pos hkey.1, hkey.2]
      exact List.mem_singleton_self _
    · rw [if_neg hkey] at hsome
      cases hsome

/-- A core with the given conversations and one tree for every project, and nothing else. -/
def Core.fresh {Tree ι : Type} (conversations : ConversationTable) (tree : Tree) :
    Core Tree ι where
  gate := fun _ => none
  conversations := conversations
  projectStates := fun _ => none
  tree := fun _ => tree
  checkpoints := { snapshots := [], next := 0, numbered := fun _ hx => absurd hx List.not_mem_nil }
  policy := .empty
  issued := []
  handedOver := []
  flags := fun _ => false
  startedGuards := fun _ => false

/-- A conversation without messages, with its session. -/
def emptyConversation (project : ProjectId) (id : ConversationId) (session : String) :
    PersistedConversation where
  schema := conversationStateSchemaV1
  revision := 0
  conversationId := id
  projectId := project
  sessionCreationPending := false
  agentSession := some {
    runtimeId := "jcode"
    sessionId := ⟨session⟩
    preferredModel := none }
  turnPending := false
  title := none
  messages := []

/-- A core with every adapter attached, bridged to the gateway `omniroute`. -/
def attachedConfig : CoreConfig where
  runtimeId := "jcode"
  bridge := some {
    gatewayId := "omniroute"
    transportProvider := "omniroute"
    exactModelIdPassthrough := true }
  commandPolicy := { allowedRuntimeTools := ["cargo"], allowWorkspaceExecutables := false }
  processRuntime := true
  projectStateStore := true
  conversationStore := true
  checkpointStore := true

/-- The one model of a calm world, and a policy that routes to it. -/
def calmModel : ModelRef :=
  { id := "model-a", displayName := none, provider := some "omniroute" }

def calmPolicy : ModelRoutePolicyConfig where
  primary := { modelId := "model-a", provider := none }
  fallbacks := []
  fallbackOn := []
  fallbackBoundary := .beforeResponseOnly

/-- A world without faults, in which the agent answers `text` and edits the tree by `edit`. -/
def World.calm {Tree : Type} (text : String) (edit : Tree → Tree) : World Tree where
  ioFault := none
  fault := none
  agentFault := none
  refusal := none
  activeProcesses := 0
  capabilities := {
    sessions := true
    streamingEvents := true
    permissions := true
    modelSelection := true
    fileTools := true
    commandTools := false }
  models := [calmModel]
  model := calmModel
  profile := {
    gatewayId := "omniroute"
    upstreamVersion := "3.8.50"
    profileId := "vibecoder-omniroute-exact-model-v1"
    profileSha256 := "aec0f63fb0dec08f24fffde9209504ec447e9428bec1cd64c033649ed275fe3d"
    exactModelOnly := true
    hiddenModelReroutesDisabled := true }
  response := {
    requestedModelId := "model-a"
    observedModelId := none
    text := text
    finishReason := none
    usage := none }
  events := []
  turn := .ok { text := text, cancelled := false, toolCalls := [], usage := none }
  edit := edit
  uuid := 0
  timedOut := false

end VibeCoder
