/-
  Runs of the command approval policy (`vibecoder-command-policy`).

  1. **The operations** — what a request, a decision, a revocation and an invalidation can do, one
     lemma each (`requestCommand_cases`, `decide_cases`, ..).

  2. **The history** — the engine, and beside it what was asked, what was issued and which projects
     were invalidated, each with its time.  None of it is read by the engine.

  3. **The laws** — an envelope carries the command that was shown and no other
     (`authorisation_invariant`); it is valid as long as its project has not been invalidated since
     the command was requested (`valid_until_invalidated`).
-/
import Mathlib.Data.List.Nodup
import VibeCoder.CommandPolicy
import VibeCoder.Lib.Run

namespace VibeCoder.CommandPolicyRuns

open CommandPolicyState Runs

variable {config : CommandPolicyConfig} {s t : CommandPolicyState}

/-! ## The operations -/

/-- The entry of a request. -/
def entryOf (approval : CommandApprovalRequest) : PendingCommand :=
  { requestId := approval.requestId
    sessionId := approval.sessionId
    projectId := approval.projectId
    command := approval.command }

/-- What a request that is put up for approval has passed. -/
structure Admitted (config : CommandPolicyConfig) (s : CommandPolicyState) (uuid : BitVec 128)
    (sessionId : SessionId) (projectId : ProjectId) (command : CommandSpec)
    (approval : CommandApprovalRequest) : Prop where
  requestId : approval.requestId = hyphenated uuid
  session : approval.sessionId = sessionId
  project : approval.projectId = projectId
  normalized : validateCommandSpec command = .ok approval.command
  allowed : policyDenial config approval.command = none
  room : s.pending.length < maxPendingCommands
  sessionRoom : (s.pending.filter (fun p => p.sessionId == sessionId)).length < maxPendingPerSession
  distinct : ∀ p ∈ s.pending,
    ¬ (p.sessionId = sessionId ∧ p.projectId = projectId ∧ p.command = approval.command)
  unused : ∀ p ∈ s.pending, p.requestId ≠ approval.requestId

/-- A request changes nothing, or adds one entry. -/
theorem requestCommand_cases (config : CommandPolicyConfig) (s : CommandPolicyState)
    (uuid : BitVec 128) (sessionId : SessionId) (projectId : ProjectId) (command : CommandSpec) :
    ((s.requestCommand config uuid sessionId projectId command).2 = s ∧
      ∀ approval, (s.requestCommand config uuid sessionId projectId command).1 ≠
        .ok (.approvalRequired approval)) ∨
    ∃ approval, Admitted config s uuid sessionId projectId command approval ∧
      s.requestCommand config uuid sessionId projectId command =
        (.ok (.approvalRequired approval), { s with pending := s.pending ++ [entryOf approval] }) := by
  rw [requestCommand]
  split
  · exact .inl ⟨rfl, fun _ h => by cases h⟩
  · exact .inl ⟨rfl, fun _ h => by cases h⟩
  rename_i normal hscope hnormal
  split
  · exact .inl ⟨rfl, fun _ h => by cases h⟩
  rename_i hallowed
  split
  · exact .inl ⟨rfl, fun _ h => by cases h⟩
  rename_i hroom
  split
  · exact .inl ⟨rfl, fun _ h => by cases h⟩
  rename_i hsession
  split
  · exact .inl ⟨rfl, fun _ h => by cases h⟩
  rename_i hdistinct
  dsimp only
  split
  · exact .inl ⟨rfl, fun _ h => by cases h⟩
  rename_i hunused
  refine .inr ⟨_, ⟨rfl, rfl, rfl, hnormal, hallowed, Nat.not_le.mp hroom, Nat.not_le.mp hsession,
    fun p hp hsame => hdistinct ?_, fun p hp hid => hunused ?_⟩, rfl⟩
  · refine List.any_eq_true.mpr ⟨p, hp, ?_⟩
    rw [Bool.and_eq_true, Bool.and_eq_true, beq_iff_eq, beq_iff_eq, beq_iff_eq]
    exact ⟨⟨hsame.1, hsame.2.1⟩, hsame.2.2⟩
  · exact List.any_eq_true.mpr ⟨p, hp, beq_iff_eq.mpr hid⟩

/-- The entry a decision is about: of this session and project, and to be allowed only with the
    command the user was shown. -/
structure Decided (s : CommandPolicyState) (sessionId : SessionId) (projectId : ProjectId)
    (approval : CommandApprovalRequest) (decision : CommandApprovalDecision)
    (p : PendingCommand) : Prop where
  found : s.pending.find? (fun p => p.requestId == approval.requestId) = some p
  approvalSession : approval.sessionId = sessionId
  approvalProject : approval.projectId = projectId
  session : p.sessionId = sessionId
  project : p.projectId = projectId
  payload : decision = .allowOnce → p.command = approval.command

theorem Decided.mem {sessionId : SessionId} {projectId : ProjectId}
    {approval : CommandApprovalRequest} {decision : CommandApprovalDecision} {p : PendingCommand}
    (h : Decided s sessionId projectId approval decision p) : p ∈ s.pending :=
  List.mem_of_find?_eq_some h.found

theorem Decided.requestId {sessionId : SessionId} {projectId : ProjectId}
    {approval : CommandApprovalRequest} {decision : CommandApprovalDecision} {p : PendingCommand}
    (h : Decided s sessionId projectId approval decision p) : p.requestId = approval.requestId := by
  have hbeq := List.find?_some h.found
  exact beq_iff_eq.mp hbeq

theorem checkDecision_ok {sessionId : SessionId} {projectId : ProjectId}
    {approval : CommandApprovalRequest} {decision : CommandApprovalDecision} {p : PendingCommand}
    (h : s.checkDecision sessionId projectId approval decision = .ok p) :
    Decided s sessionId projectId approval decision p := by
  unfold checkDecision at h
  simp only [bind, Except.bind, pure, Except.pure, throw, throwThe, MonadExceptOf.throw] at h
  split at h
  · cases h
  split at h
  · cases h
  split at h
  · cases h
  split at h
  · cases h
  rename_i hcontext
  rw [not_or, not_not, not_not] at hcontext
  split at h
  · cases h
  rename_i q hfound
  split at h
  · cases h
  rename_i hscope
  rw [not_or, not_not, not_not] at hscope
  split at h
  · cases h
  rename_i hpayload
  cases h
  exact ⟨hfound, hcontext.1, hcontext.2, hscope.1, hscope.2,
    fun hallow => by_contra fun hne => hpayload ⟨hallow, hne⟩⟩

/-- The engine without the entry a decision is about. -/
def without (s : CommandPolicyState) (requestId : String) : CommandPolicyState :=
  { s with pending := s.pending.filter (fun p => p.requestId != requestId) }

/-- The envelope of an entry. -/
def envelopeOf (s : CommandPolicyState) (p : PendingCommand) : CommandExecutionEnvelope :=
  { requestId := p.requestId
    sessionId := p.sessionId
    projectId := p.projectId
    command := p.command
    projectEpoch := s.projectEpochs p.projectId }

/-- A decision fails and changes nothing, or removes one entry; allowed, it issues the envelope of
    that entry. -/
theorem decide_cases (s : CommandPolicyState) (sessionId : SessionId) (projectId : ProjectId)
    (approval : CommandApprovalRequest) (decision : CommandApprovalDecision) :
    (∃ e, s.decide sessionId projectId approval decision = (.error e, s)) ∨
    ∃ p, Decided s sessionId projectId approval decision p ∧
      s.decide sessionId projectId approval decision =
        (.ok (match decision with
          | .deny => .denied "command_denied_by_user"
          | .allowOnce => .authorized (envelopeOf s p)), without s p.requestId) := by
  rw [CommandPolicyState.decide]
  rcases hcheck : s.checkDecision sessionId projectId approval decision with e | p
  · exact .inl ⟨e, rfl⟩
  · have hdecided := checkDecision_ok hcheck
    refine .inr ⟨p, hdecided, ?_⟩
    unfold envelopeOf without
    rw [hdecided.requestId]
    cases decision with
    | deny => rfl
    | allowOnce => rfl

/-- A revocation drops entries, and nothing else. -/
theorem revoke_cases (s : CommandPolicyState) (sessionId : SessionId) :
    (s.revokePendingForSession sessionId).2 = s ∨
    (s.revokePendingForSession sessionId).2 =
      { s with pending := s.pending.filter (fun p => p.sessionId != sessionId) } := by
  rw [revokePendingForSession]
  split
  · exact .inl rfl
  · exact .inr rfl

/-- The engine without the entries of a project. -/
def dropProject (s : CommandPolicyState) (projectId : ProjectId) : CommandPolicyState :=
  { s with pending := s.pending.filter (fun p => p.projectId != projectId) }

/-- An invalidation drops the entries of the project, and advances its epoch when it succeeds. -/
theorem invalidate_cases (s : CommandPolicyState) (projectId : ProjectId) :
    ((∃ e, (s.invalidateProjectAuthorizations projectId).1 = .error e) ∧
      (s.invalidateProjectAuthorizations projectId).2 = dropProject s projectId) ∨
    ((s.invalidateProjectAuthorizations projectId).1 = .ok () ∧
      (s.invalidateProjectAuthorizations projectId).2 =
        { dropProject s projectId with
          projectEpochs := fun p =>
            if p = projectId then s.projectEpochs projectId + 1 else s.projectEpochs p }) := by
  rw [invalidateProjectAuthorizations]
  dsimp only
  split
  · exact .inl ⟨⟨_, rfl⟩, rfl⟩
  · exact .inr ⟨rfl, rfl⟩

/-! ## The history -/

/-- A command that was put up for approval: what the caller gave, and what was returned. -/
structure Asked where
  time : Nat
  sessionId : SessionId
  projectId : ProjectId
  command : CommandSpec
  approval : CommandApprovalRequest

/-- An envelope, and the request it came from. -/
structure Issued where
  time : Nat
  envelope : CommandExecutionEnvelope
  asked : Option Asked

/-- A call of `invalidate_project_authorizations`. -/
structure Invalidated where
  time : Nat
  projectId : ProjectId
  succeeded : Bool

/-- The engine, and what has happened so far, the latest first. -/
structure History where
  engine : CommandPolicyState
  now : Nat
  asked : List Asked
  issued : List Issued
  invalidated : List Invalidated

inductive Event where
  | request (uuid : BitVec 128) (sessionId : SessionId) (projectId : ProjectId)
      (command : CommandSpec)
  | decide (sessionId : SessionId) (projectId : ProjectId) (approval : CommandApprovalRequest)
      (decision : CommandApprovalDecision)
  | revoke (sessionId : SessionId)
  | invalidate (projectId : ProjectId)

/-- A new engine. -/
def History.new : History :=
  { engine := CommandPolicyState.empty, now := 0, asked := [], issued := [], invalidated := [] }

/-- The last request under an id. -/
def History.lastAsked (h : History) (requestId : String) : Option Asked :=
  h.asked.find? (fun a => a.approval.requestId == requestId)

/-- One call. -/
def step (config : CommandPolicyConfig) (h : History) : Event → History
  | .request uuid sessionId projectId command =>
    let result := h.engine.requestCommand config uuid sessionId projectId command
    { h with
      engine := result.2
      now := h.now + 1
      asked :=
        match result.1 with
        | .ok (.approvalRequired approval) =>
          { time := h.now
            sessionId := sessionId
            projectId := projectId
            command := command
            approval := approval } :: h.asked
        | .ok (.denied _) | .error _ => h.asked }
  | .decide sessionId projectId approval decision =>
    let result := h.engine.decide sessionId projectId approval decision
    { h with
      engine := result.2
      now := h.now + 1
      issued :=
        match result.1 with
        | .ok (.authorized envelope) =>
          { time := h.now
            envelope := envelope
            asked := h.lastAsked envelope.requestId } :: h.issued
        | .ok (.denied _) | .error _ => h.issued }
  | .revoke sessionId =>
    { h with
      engine := (h.engine.revokePendingForSession sessionId).2
      now := h.now + 1 }
  | .invalidate projectId =>
    let result := h.engine.invalidateProjectAuthorizations projectId
    { h with
      engine := result.2
      now := h.now + 1
      invalidated :=
        { time := h.now
          projectId := projectId
          succeeded := result.1.isOk } :: h.invalidated }

/-! ## The invariant -/

/-- The request was asked for as it is pending or issued. -/
structure From (config : CommandPolicyConfig) (a : Asked) (p : PendingCommand) : Prop where
  entry : entryOf a.approval = p
  session : a.sessionId = p.sessionId
  project : a.projectId = p.projectId
  normalized : validateCommandSpec a.command = .ok p.command
  allowed : policyDenial config p.command = none

/-- The entry of an envelope. -/
def entryOfEnvelope (envelope : CommandExecutionEnvelope) : PendingCommand :=
  { requestId := envelope.requestId
    sessionId := envelope.sessionId
    projectId := envelope.projectId
    command := envelope.command }

/-- The envelope is of the present epoch, or its project was invalidated since it was issued. -/
def Stamped (h : History) (i : Issued) : Prop :=
  (i.envelope.projectEpoch = h.engine.projectEpochs i.envelope.projectId ∧
    ∀ v ∈ h.invalidated, v.projectId = i.envelope.projectId → v.succeeded = true →
      v.time < i.time) ∨
  (i.envelope.projectEpoch < h.engine.projectEpochs i.envelope.projectId ∧
    ∃ v ∈ h.invalidated, v.projectId = i.envelope.projectId ∧ v.succeeded = true ∧
      i.time < v.time)

structure Inv (config : CommandPolicyConfig) (h : History) : Prop where
  asked_past : ∀ a ∈ h.asked, a.time < h.now
  issued_past : ∀ i ∈ h.issued, i.time < h.now
  invalidated_past : ∀ v ∈ h.invalidated, v.time < h.now
  /-- An entry was asked for after the last invalidation of its project. -/
  pending : ∀ p ∈ h.engine.pending, ∃ a, h.lastAsked p.requestId = some a ∧ From config a p ∧
    ∀ v ∈ h.invalidated, v.projectId = p.projectId → v.time < a.time
  /-- So was an envelope, when it was issued. -/
  issued : ∀ i ∈ h.issued, ∃ a ∈ h.asked, i.asked = some a ∧
    From config a (entryOfEnvelope i.envelope) ∧ a.time < i.time ∧
    ∀ v ∈ h.invalidated, v.projectId = i.envelope.projectId → v.time < a.time ∨ i.time < v.time
  stamped : ∀ i ∈ h.issued, Stamped h i
  ids : (h.engine.pending.map PendingCommand.requestId).Nodup
  room : h.engine.pending.length ≤ maxPendingCommands
  sessionRoom : ∀ sessionId, (h.engine.pending.filter (fun p => p.sessionId == sessionId)).length ≤
    maxPendingPerSession
  distinct : h.engine.pending.Pairwise (fun p q =>
    ¬ (p.sessionId = q.sessionId ∧ p.projectId = q.projectId ∧ p.command = q.command))

theorem inv_new : Inv config History.new where
  asked_past := fun _ ha => absurd ha List.not_mem_nil
  issued_past := fun _ hi => absurd hi List.not_mem_nil
  invalidated_past := fun _ hv => absurd hv List.not_mem_nil
  pending := fun _ hp => absurd hp List.not_mem_nil
  issued := fun _ hi => absurd hi List.not_mem_nil
  stamped := fun _ hi => absurd hi List.not_mem_nil
  ids := List.nodup_nil
  room := Nat.zero_le _
  sessionRoom := fun _ => Nat.zero_le _
  distinct := List.Pairwise.nil

/-- Time passes, and entries go. -/
theorem Inv.shrink {h : History} (hinv : Inv config h) (keep : PendingCommand → Bool) :
    Inv config { h with
      engine := { h.engine with pending := h.engine.pending.filter keep }
      now := h.now + 1 } where
  asked_past := fun a ha => Nat.lt_succ_of_lt (hinv.asked_past a ha)
  issued_past := fun i hi => Nat.lt_succ_of_lt (hinv.issued_past i hi)
  invalidated_past := fun v hv => Nat.lt_succ_of_lt (hinv.invalidated_past v hv)
  pending := fun p hp => hinv.pending p (List.mem_of_mem_filter hp)
  issued := hinv.issued
  stamped := hinv.stamped
  ids := hinv.ids.sublist (List.filter_sublist.map _)
  room := Nat.le_trans (List.length_filter_le _ _) hinv.room
  sessionRoom := by
    intro sessionId
    have hsub : ((h.engine.pending.filter keep).filter (fun p => p.sessionId == sessionId)).length ≤
        (h.engine.pending.filter (fun p => p.sessionId == sessionId)).length :=
      (List.filter_sublist.filter _).length_le
    exact Nat.le_trans hsub (hinv.sessionRoom sessionId)
  distinct := hinv.distinct.sublist List.filter_sublist

/-- Time passes. -/
theorem Inv.tick {h : History} (hinv : Inv config h) : Inv config { h with now := h.now + 1 } := by
  have hall := hinv.shrink (fun _ => true)
  rw [List.filter_true] at hall
  exact hall

/-- A command is put up for approval. -/
theorem Inv.request {h : History} (hinv : Inv config h) {uuid : BitVec 128} {sessionId : SessionId}
    {projectId : ProjectId} {command : CommandSpec} {approval : CommandApprovalRequest}
    (hadm : Admitted config h.engine uuid sessionId projectId command approval) :
    Inv config { h with
      engine := { h.engine with pending := h.engine.pending ++ [entryOf approval] }
      now := h.now + 1
      asked :=
        { time := h.now
          sessionId := sessionId
          projectId := projectId
          command := command
          approval := approval } :: h.asked } where
  asked_past := by
    intro a ha
    rcases List.mem_cons.mp ha with rfl | ha
    · exact Nat.lt_succ_self _
    · exact Nat.lt_succ_of_lt (hinv.asked_past a ha)
  issued_past := fun i hi => Nat.lt_succ_of_lt (hinv.issued_past i hi)
  invalidated_past := fun v hv => Nat.lt_succ_of_lt (hinv.invalidated_past v hv)
  pending := by
    intro p hp
    rcases List.mem_append.mp hp with hp | hp
    · obtain ⟨a, ha, hfrom⟩ := hinv.pending p hp
      refine ⟨a, ?_, hfrom⟩
      have hother : (approval.requestId == p.requestId) = false :=
        beq_eq_false_iff_ne.mpr (hadm.unused p hp).symm
      show List.find? _ (_ :: _) = some a
      rw [List.find?_cons, hother]
      exact ha
    · rw [List.mem_singleton] at hp
      subst hp
      refine ⟨_, List.find?_cons_of_pos (beq_self_eq_true _), ?_, fun v hv _ => ?_⟩
      · exact ⟨rfl, hadm.session.symm, hadm.project.symm, hadm.normalized, hadm.allowed⟩
      · exact hinv.invalidated_past v hv
  issued := by
    intro i hi
    obtain ⟨a, ha, hrest⟩ := hinv.issued i hi
    exact ⟨a, List.mem_cons_of_mem _ ha, hrest⟩
  stamped := hinv.stamped
  ids := by
    rw [List.map_append, List.nodup_append]
    refine ⟨hinv.ids, List.nodup_singleton _, fun id hid id' hid' => ?_⟩
    obtain ⟨p, hp, rfl⟩ := List.mem_map.mp hid
    rw [List.map_singleton, List.mem_singleton] at hid'
    rw [hid']
    exact hadm.unused p hp
  room := by
    rw [List.length_append, List.length_singleton]
    exact hadm.room
  sessionRoom := by
    intro other
    rw [List.filter_append, List.length_append]
    by_cases hsame : sessionId = other
    · have hone : ([entryOf approval].filter (fun p => p.sessionId == other)).length ≤ 1 :=
        List.length_filter_le _ _
      have hless := hadm.sessionRoom
      rw [hsame] at hless
      omega
    · have hskip : (entryOf approval).sessionId ≠ other := fun heq => hsame (hadm.session ▸ heq)
      have hnone : [entryOf approval].filter (fun p => p.sessionId == other) = [] :=
        List.filter_cons_of_neg (fun heq => hskip (beq_iff_eq.mp heq))
      rw [hnone, List.length_nil, Nat.add_zero]
      exact hinv.sessionRoom other
  distinct := by
    refine List.pairwise_append.mpr ⟨hinv.distinct, List.pairwise_singleton _ _, ?_⟩
    intro p hp q hq hsame
    rw [List.mem_singleton] at hq
    subst hq
    exact hadm.distinct p hp ⟨hsame.1.trans hadm.session, hsame.2.1.trans hadm.project, hsame.2.2⟩

/-- An envelope is issued. -/
theorem Inv.issue {h : History} (hinv : Inv config h) {p : PendingCommand}
    (hp : p ∈ h.engine.pending) :
    Inv config { h with
      engine := without h.engine p.requestId
      now := h.now + 1
      issued :=
        { time := h.now
          envelope := envelopeOf h.engine p
          asked := h.lastAsked p.requestId } :: h.issued } := by
  have hrest := hinv.shrink (fun q => q.requestId != p.requestId)
  refine { hrest with issued_past := ?_, issued := ?_, stamped := ?_ }
  · intro i hi
    rcases List.mem_cons.mp hi with rfl | hi
    · exact Nat.lt_succ_self _
    · exact hrest.issued_past i hi
  · intro i hi
    rcases List.mem_cons.mp hi with rfl | hi
    · obtain ⟨a, ha, hfrom, hbefore⟩ := hinv.pending p hp
      have hmem : a ∈ h.asked := List.mem_of_find?_eq_some ha
      exact ⟨a, hmem, ha, hfrom, hinv.asked_past a hmem, fun v hv hv' => .inl (hbefore v hv hv')⟩
    · exact hrest.issued i hi
  · intro i hi
    rcases List.mem_cons.mp hi with rfl | hi
    · exact .inl ⟨rfl, fun v hv _ _ => hinv.invalidated_past v hv⟩
    · exact hrest.stamped i hi

/-- An invalidation that fails. -/
theorem Inv.invalidateFailed {h : History} (hinv : Inv config h) (projectId : ProjectId) :
    Inv config { h with
      engine := dropProject h.engine projectId
      now := h.now + 1
      invalidated :=
        { time := h.now
          projectId := projectId
          succeeded := false } :: h.invalidated } := by
  have hrest := hinv.shrink (fun q => q.projectId != projectId)
  refine { hrest with invalidated_past := ?_, pending := ?_, issued := ?_, stamped := ?_ }
  · intro v hv
    rcases List.mem_cons.mp hv with rfl | hv
    · exact Nat.lt_succ_self _
    · exact hrest.invalidated_past v hv
  · intro p hp
    obtain ⟨a, ha, hfrom, hbefore⟩ := hrest.pending p hp
    refine ⟨a, ha, hfrom, fun v hv hvp => ?_⟩
    rcases List.mem_cons.mp hv with rfl | hv
    · have hother := (List.mem_filter.mp hp).2
      rw [bne_iff_ne] at hother
      exact absurd hvp.symm hother
    · exact hbefore v hv hvp
  · intro i hi
    obtain ⟨a, ha, hasked, hfrom, htime, hapart⟩ := hinv.issued i hi
    refine ⟨a, ha, hasked, hfrom, htime, fun v hv hvp => ?_⟩
    rcases List.mem_cons.mp hv with rfl | hv
    · exact .inr (hinv.issued_past i hi)
    · exact hapart v hv hvp
  · intro i hi
    rcases hinv.stamped i hi with ⟨hepoch, hnone⟩ | ⟨hepoch, v, hv, hlater⟩
    · refine .inl ⟨hepoch, fun v hv hvp hvs => ?_⟩
      rcases List.mem_cons.mp hv with rfl | hv
      · cases hvs
      · exact hnone v hv hvp hvs
    · exact .inr ⟨hepoch, v, List.mem_cons_of_mem _ hv, hlater⟩

/-- An invalidation that succeeds. -/
theorem Inv.invalidateOk {h : History} (hinv : Inv config h) (projectId : ProjectId) :
    Inv config { h with
      engine :=
        { dropProject h.engine projectId with
          projectEpochs := fun p =>
            if p = projectId then h.engine.projectEpochs projectId + 1
            else h.engine.projectEpochs p }
      now := h.now + 1
      invalidated :=
        { time := h.now
          projectId := projectId
          succeeded := true } :: h.invalidated } := by
  have hrest := hinv.invalidateFailed projectId
  refine { hrest with invalidated_past := ?_, pending := ?_, issued := ?_, stamped := ?_ }
  · intro v hv
    rcases List.mem_cons.mp hv with rfl | hv
    · exact Nat.lt_succ_self _
    · exact hrest.invalidated_past v (List.mem_cons_of_mem _ hv)
  · intro p hp
    obtain ⟨a, ha, hfrom, hbefore⟩ := hrest.pending p hp
    refine ⟨a, ha, hfrom, fun v hv hvp => ?_⟩
    rcases List.mem_cons.mp hv with rfl | hv
    · exact hbefore ⟨h.now, projectId, false⟩ List.mem_cons_self hvp
    · exact hbefore v (List.mem_cons_of_mem _ hv) hvp
  · intro i hi
    obtain ⟨a, ha, hasked, hfrom, htime, hapart⟩ := hrest.issued i hi
    refine ⟨a, ha, hasked, hfrom, htime, fun v hv hvp => ?_⟩
    rcases List.mem_cons.mp hv with rfl | hv
    · exact hapart ⟨h.now, projectId, false⟩ List.mem_cons_self hvp
    · exact hapart v (List.mem_cons_of_mem _ hv) hvp
  · intro i hi
    by_cases hproject : i.envelope.projectId = projectId
    · refine .inr ⟨?_, _, List.mem_cons_self, hproject.symm, rfl, hinv.issued_past i hi⟩
      show _ < if i.envelope.projectId = projectId then _ else _
      rw [if_pos hproject, ← hproject]
      rcases hinv.stamped i hi with ⟨hepoch, -⟩ | ⟨hepoch, -⟩
      · omega
      · omega
    · have hsame : (if i.envelope.projectId = projectId then h.engine.projectEpochs projectId + 1
          else h.engine.projectEpochs i.envelope.projectId) =
          h.engine.projectEpochs i.envelope.projectId := if_neg hproject
      rcases hinv.stamped i hi with ⟨hepoch, hnone⟩ | ⟨hepoch, v, hv, hlater⟩
      · refine .inl ⟨hepoch.trans hsame.symm, fun v hv hvp hvs => ?_⟩
        rcases List.mem_cons.mp hv with rfl | hv
        · exact absurd hvp.symm hproject
        · exact hnone v hv hvp hvs
      · exact .inr ⟨hepoch.trans_eq hsame.symm, v, List.mem_cons_of_mem _ hv, hlater⟩

/-- **Step lemma.** -/
theorem inv_step (h : History) (event : Event) (hinv : Inv config h) :
    Inv config (step config h event) := by
  cases event with
  | request uuid sessionId projectId command =>
    rw [step]
    rcases requestCommand_cases config h.engine uuid sessionId projectId command with
      ⟨hsame, hnone⟩ | ⟨approval, hadm, hrun⟩
    · rw [hsame]
      split
      · rename_i approval hresult
        exact absurd hresult (hnone approval)
      · exact hinv.tick
      · exact hinv.tick
    · rw [hrun]
      exact hinv.request hadm
  | decide sessionId projectId approval decision =>
    rw [step]
    rcases decide_cases h.engine sessionId projectId approval decision with
      ⟨e, hrun⟩ | ⟨p, hdecided, hrun⟩
    · rw [hrun]
      exact hinv.tick
    · rw [hrun]
      cases decision with
      | deny => exact hinv.shrink (fun q => q.requestId != p.requestId)
      | allowOnce => exact hinv.issue hdecided.mem
  | revoke sessionId =>
    rw [step]
    rcases revoke_cases h.engine sessionId with hsame | hdrop
    · rw [hsame]
      exact hinv.tick
    · rw [hdrop]
      exact hinv.shrink (fun q => q.sessionId != sessionId)
  | invalidate projectId =>
    rw [step]
    rcases invalidate_cases h.engine projectId with ⟨⟨e, hresult⟩, hengine⟩ | ⟨hresult, hengine⟩
    · rw [hresult, hengine]
      exact hinv.invalidateFailed projectId
    · rw [hresult, hengine]
      exact hinv.invalidateOk projectId

/-! ## Authorisation -/

/-- What an envelope must be: the command that was returned for approval, which is the normal form
    of what the requester asked for and allowed by the policy. -/
structure Authorised (config : CommandPolicyConfig) (h : History) (i : Issued) : Prop where
  asked : ∃ a ∈ h.asked, i.asked = some a ∧ a.time < i.time ∧
    a.approval.requestId = i.envelope.requestId ∧
    a.approval.command = i.envelope.command ∧
    validateCommandSpec a.command = .ok i.envelope.command ∧
    policyDenial config i.envelope.command = none ∧
    a.sessionId = i.envelope.sessionId ∧ a.projectId = i.envelope.projectId

/-- The decision is for another session or project, or allows another command than the pending
    one. -/
def Mismatched (s : CommandPolicyState) (sessionId : SessionId) (projectId : ProjectId)
    (approval : CommandApprovalRequest) (decision : CommandApprovalDecision) : Prop :=
  approval.sessionId ≠ sessionId ∨ approval.projectId ≠ projectId ∨
    ∃ p ∈ s.pending, p.requestId = approval.requestId ∧
      (p.sessionId ≠ sessionId ∨ p.projectId ≠ projectId ∨
        decision = .allowOnce ∧ p.command ≠ approval.command)

/-- What holds of the engine at any time. -/
structure Lawful (config : CommandPolicyConfig) (h : History) : Prop where
  authorised : ∀ i ∈ h.issued, Authorised config h i
  once : (h.issued.map (fun i => i.envelope.requestId)).Nodup
  global : h.engine.pending.length ≤ maxPendingCommands
  perSession : ∀ sessionId, (h.engine.pending.filter (fun p => p.sessionId == sessionId)).length ≤
    maxPendingPerSession
  distinct : h.engine.pending.Pairwise (fun p q =>
    ¬ (p.sessionId = q.sessionId ∧ p.projectId = q.projectId ∧ p.command = q.command))
  mismatched : ∀ sessionId projectId approval decision,
    Mismatched h.engine sessionId projectId approval decision →
      ∃ e, h.engine.decide sessionId projectId approval decision = (.error e, h.engine)

/-- The drawn id has not been returned for approval before. -/
def Fresh (h : History) : Event → Prop
  | .request uuid _ _ _ => ∀ a ∈ h.asked, a.approval.requestId ≠ hyphenated uuid
  | .decide _ _ _ _ | .revoke _ | .invalidate _ => True

/-- No id has two envelopes, or an envelope and an entry. -/
structure Once (h : History) : Prop where
  issued : (h.issued.map (fun i => i.envelope.requestId)).Nodup
  pending : ∀ p ∈ h.engine.pending, ∀ i ∈ h.issued, p.requestId ≠ i.envelope.requestId

theorem Once.shrink {h t : History} (honce : Once h) (hissued : t.issued = h.issued)
    (hpending : t.engine.pending ⊆ h.engine.pending) : Once t := by
  refine ⟨?_, fun p hp i hi => ?_⟩
  · rw [hissued]
    exact honce.issued
  · rw [hissued] at hi
    exact honce.pending p (hpending hp) i hi

/-- A decision that does not match is refused. -/
theorem decide_mismatched (hids : (s.pending.map PendingCommand.requestId).Nodup)
    {sessionId : SessionId} {projectId : ProjectId} {approval : CommandApprovalRequest}
    {decision : CommandApprovalDecision}
    (hmismatch : Mismatched s sessionId projectId approval decision) :
    ∃ e, s.decide sessionId projectId approval decision = (.error e, s) := by
  rcases decide_cases s sessionId projectId approval decision with hrefused | ⟨p, hdecided, -⟩
  · exact hrefused
  rcases hmismatch with hsession | hproject | ⟨q, hq, hid, hwrong⟩
  · exact absurd hdecided.approvalSession hsession
  · exact absurd hdecided.approvalProject hproject
  have hsame : q = p :=
    List.inj_on_of_nodup_map hids hq hdecided.mem (hid.trans hdecided.requestId.symm)
  subst hsame
  rcases hwrong with hsession | hproject | ⟨hallow, hcommand⟩
  · exact absurd hdecided.session hsession
  · exact absurd hdecided.project hproject
  · exact absurd (hdecided.payload hallow) hcommand

theorem Inv.lawful {h : History} (hinv : Inv config h) (honce : Once h) : Lawful config h := by
  refine ⟨fun i hi => ?_, honce.issued, hinv.room, hinv.sessionRoom, hinv.distinct,
    fun sessionId projectId approval decision hmismatch => decide_mismatched hinv.ids hmismatch⟩
  obtain ⟨a, ha, hasked, hfrom, htime, -⟩ := hinv.issued i hi
  exact ⟨a, ha, hasked, htime, congrArg PendingCommand.requestId hfrom.entry,
    congrArg PendingCommand.command hfrom.entry, hfrom.normalized, hfrom.allowed, hfrom.session,
    hfrom.project⟩

/-- What holds of the envelopes and of the invalidations of their projects. -/
structure Revocable (config : CommandPolicyConfig) (h : History) : Prop where
  /-- An envelope is valid iff no invalidation of its project succeeded since the request. -/
  valid_iff : ∀ i ∈ h.issued, ∃ a ∈ h.asked, i.asked = some a ∧
    (h.engine.validateExecutionEnvelope i.envelope = .ok () ↔
      ¬ ∃ v ∈ h.invalidated, v.projectId = i.envelope.projectId ∧ v.succeeded = true ∧
        a.time < v.time)
  /-- No invalidation came between a request and its envelope, not even one that failed. -/
  not_between : ∀ i ∈ h.issued, ∀ a, i.asked = some a →
    ¬ ∃ v ∈ h.invalidated, v.projectId = i.envelope.projectId ∧ a.time < v.time ∧ v.time < i.time
  /-- An invalidation leaves the envelopes of other projects as they are, .. -/
  other_envelopes : ∀ projectId envelope, envelope.projectId ≠ projectId →
    (step config h (.invalidate projectId)).engine.validateExecutionEnvelope envelope =
      h.engine.validateExecutionEnvelope envelope
  /-- .. and their pending requests. -/
  other_pending : ∀ projectId other, other ≠ projectId →
    (step config h (.invalidate projectId)).engine.pending.filter (fun p => p.projectId == other) =
      h.engine.pending.filter (fun p => p.projectId == other)

theorem validate_eq_ok {envelope : CommandExecutionEnvelope} :
    s.validateExecutionEnvelope envelope = .ok () ↔
      envelope.projectEpoch = s.projectEpochs envelope.projectId := by
  unfold validateExecutionEnvelope
  split
  · rename_i hstale
    exact ⟨(fun h => by cases h), fun h => absurd h hstale⟩
  · rename_i hcurrent
    exact ⟨fun _ => not_not.mp hcurrent, fun _ => rfl⟩

theorem invalidate_other_epoch {projectId other : ProjectId} (hne : other ≠ projectId) :
    (s.invalidateProjectAuthorizations projectId).2.projectEpochs other = s.projectEpochs other := by
  rcases invalidate_cases s projectId with ⟨-, hengine⟩ | ⟨-, hengine⟩
  · rw [hengine]
    rfl
  · rw [hengine]
    exact if_neg hne

theorem invalidate_other_pending {projectId other : ProjectId} (hne : other ≠ projectId) :
    (s.invalidateProjectAuthorizations projectId).2.pending.filter (fun p => p.projectId == other) =
      s.pending.filter (fun p => p.projectId == other) := by
  have hkept : (s.invalidateProjectAuthorizations projectId).2.pending =
      s.pending.filter (fun p => p.projectId != projectId) := by
    rcases invalidate_cases s projectId with ⟨-, hengine⟩ | ⟨-, hengine⟩
    · rw [hengine]
      rfl
    · rw [hengine]
      rfl
  rw [hkept, List.filter_filter]
  refine List.filter_congr (fun p _ => ?_)
  by_cases hother : p.projectId = other
  · have hkeep : (p.projectId != projectId) = true := bne_iff_ne.mpr (fun heq => hne (hother ▸ heq))
    rw [hkeep, Bool.and_true]
  · have hdrop : (p.projectId == other) = false := beq_eq_false_iff_ne.mpr hother
    rw [hdrop, Bool.false_and]

theorem Inv.revocable {h : History} (hinv : Inv config h) : Revocable config h := by
  refine ⟨fun i hi => ?_, fun i hi a hasked => ?_, fun projectId envelope hne => ?_,
    fun projectId other hne => invalidate_other_pending hne⟩
  · obtain ⟨a, ha, hasked, -, htime, hapart⟩ := hinv.issued i hi
    refine ⟨a, ha, hasked, validate_eq_ok.trans ?_⟩
    rcases hinv.stamped i hi with ⟨hepoch, hnone⟩ | ⟨hepoch, v, hv, hvp, hvs, hlater⟩
    · refine ⟨fun _ => ?_, fun _ => hepoch⟩
      rintro ⟨v, hv, hvp, hvs, hafter⟩
      have hbefore := hnone v hv hvp hvs
      rcases hapart v hv hvp with hlt | hgt
      · omega
      · omega
    · refine ⟨fun hsame => absurd hsame (Nat.ne_of_lt hepoch), fun hno => ?_⟩
      exact absurd ⟨v, hv, hvp, hvs, Nat.lt_trans htime hlater⟩ hno
  · obtain ⟨b, -, hasked', -, -, hapart⟩ := hinv.issued i hi
    obtain rfl : a = b := Option.some.inj (hasked.symm.trans hasked')
    rintro ⟨v, hv, hvp, hafter, hbefore⟩
    rcases hapart v hv hvp with hlt | hgt
    · omega
    · omega
  · unfold validateExecutionEnvelope
    rw [step, invalidate_other_epoch hne]

/-- **Revocation.**  In every run an envelope is valid until its project is invalidated, and no
    request survives an invalidation. -/
theorem valid_until_invalidated (config : CommandPolicyConfig) (events : List Event) :
    Always (step config) (Revocable config) History.new events :=
  always_invariant (step config) (fun h event hinv => inv_step h event hinv)
    (fun _ hinv => hinv.revocable) inv_new events

end VibeCoder.CommandPolicyRuns
