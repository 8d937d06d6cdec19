/-
  The two records of a file-tool turn (`AgentActionObservation`, `validate_agent_file_tool_turn`).

  While a turn runs its events are folded into a map of calls; afterwards the turn itself reports
  its calls.  The validation compares the two.  What it decides is said here without the map:

  1. **The events of one call** — `stepsOf callId events` is what the stream says about one call
     id, everything else left out.  A proper call is a start and then a finish with the same tool,
     and nothing more (`CompleteCall`).

  2. **The map** — as long as the protocol flag is clear the map holds exactly the ids that were
     started, each with the steps it took (`Observed`); the flag is clear exactly for streams in
     which every id is part of the way through a proper call (`Proper`).  Both are proved together
     (`observed_of_clear`, `clear_of_proper`), by induction on the stream from its end.

  3. **The report** — the loop over the reported calls finds each one in the map, finished and with
     the same outcome.  Equal numbers and distinct ids make this a bijection, so nothing observed
     is left over (`Transcript`).
-/
import Mathlib.Data.List.Induction
import Mathlib.Data.List.Perm.Subperm
import VibeCoder.Core.Transcript

namespace VibeCoder

/-! ## What the events say about one call -/

/-- A start or a finish of some call. -/
inductive ToolStep where
  | started (tool : String)
  | finished (tool : String) (ok : Bool)
  deriving DecidableEq, Repr

/-- What one event says about a call. -/
def stepOf (callId : String) : AgentEvent → Option ToolStep
  | .toolStarted tool id => if id = callId then some (.started tool) else none
  | .toolFinished tool id ok _ _ => if id = callId then some (.finished tool ok) else none
  | .textDelta _ | .messageAccepted | .backgroundProgress _ _ _ _ | .sessionStatus _
  | .tokenUsage _ | .permissionRequired _ | .turnCompleted | .warning _ => none

/-- What the stream says about a call, in order. -/
def stepsOf (callId : String) (events : List AgentEvent) : List ToolStep :=
  events.filterMap (stepOf callId)

@[simp] theorem stepsOf_nil (callId : String) : stepsOf callId [] = [] := rfl

theorem stepsOf_concat (callId : String) (events : List AgentEvent) (event : AgentEvent) :
    stepsOf callId (events ++ [event]) = stepsOf callId events ++ (stepOf callId event).toList := by
  rw [stepsOf, List.filterMap_append]
  cases hstep : stepOf callId event with
  | none => simp [stepsOf, hstep]
  | some step => simp [stepsOf, hstep]

/-- A call as both records describe it. -/
structure ToolCall where
  callId : String
  tool : String
  ok : Bool
  deriving DecidableEq, Repr

/-- The identity is safe and the tool is one of the file tools. -/
def AllowedCall (tool callId : String) : Prop :=
  agentActionToolIdentityIsSafe tool callId = true ∧ tool ∈ agentActionFileTools

/-- **A proper call**: started once, then finished once with the same tool. -/
structure CompleteCall (events : List AgentEvent) (call : ToolCall) : Prop where
  allowed : AllowedCall call.tool call.callId
  steps : stepsOf call.callId events = [.started call.tool, .finished call.tool call.ok]

/-- **The calls of a stream**: proper calls with distinct ids, at most `maxAgentActionToolCalls`
    of them, and no start or finish of anything else. -/
structure Transcript (events : List AgentEvent) (calls : List ToolCall) : Prop where
  complete : ∀ call ∈ calls, CompleteCall events call
  distinct : (calls.map ToolCall.callId).Nodup
  bounded : calls.length ≤ maxAgentActionToolCalls
  nothingElse : ∀ callId, callId ∉ calls.map ToolCall.callId → stepsOf callId events = []

/-! ## Streams that keep to the protocol -/

/-- Part of the way through a proper call. -/
def PartialCall (callId : String) (steps : List ToolStep) : Prop :=
  steps = [] ∨ ∃ tool, AllowedCall tool callId ∧
    (steps = [.started tool] ∨ ∃ ok, steps = [.started tool, .finished tool ok])

/-- Every id is part of the way through a proper call, and at most `maxAgentActionToolCalls` ids
    have begun one. -/
structure Proper (events : List AgentEvent) : Prop where
  calls : ∀ callId, PartialCall callId (stepsOf callId events)
  bounded : ∀ ids : List String, ids.Nodup → (∀ callId ∈ ids, stepsOf callId events ≠ []) →
    ids.length ≤ maxAgentActionToolCalls

/-- A beginning of a partial call is one. -/
theorem PartialCall.of_concat {callId : String} {steps : List ToolStep} {step : ToolStep}
    (h : PartialCall callId (steps ++ [step])) : PartialCall callId steps := by
  rcases h with hnil | ⟨tool, hallowed, hone | ⟨ok, htwo⟩⟩
  · simp at hnil
  · have hsteps : steps ++ [step] = [] ++ [ToolStep.started tool] := hone
    exact .inl (List.append_inj_left' hsteps rfl)
  · have hsteps : steps ++ [step] =
        [ToolStep.started tool] ++ [ToolStep.finished tool ok] := htwo
    exact .inr ⟨tool, hallowed, .inl (List.append_inj_left' hsteps rfl)⟩

theorem Proper.of_concat {events : List AgentEvent} {event : AgentEvent}
    (h : Proper (events ++ [event])) : Proper events := by
  refine ⟨?_, ?_⟩
  · intro callId
    have hlater := h.calls callId
    rw [stepsOf_concat] at hlater
    cases hstep : stepOf callId event with
    | none =>
      rw [hstep, Option.toList_none, List.append_nil] at hlater
      exact hlater
    | some step =>
      rw [hstep, Option.toList_some] at hlater
      exact hlater.of_concat
  · intro ids hnodup hbegun
    refine h.bounded ids hnodup (fun callId hin hnil => hbegun callId hin ?_)
    rw [stepsOf_concat] at hnil
    exact (List.append_eq_nil_iff.mp hnil).1

theorem Transcript.proper {events : List AgentEvent} {calls : List ToolCall}
    (h : Transcript events calls) : Proper events := by
  refine ⟨?_, ?_⟩
  · intro callId
    by_cases hin : callId ∈ calls.map ToolCall.callId
    · obtain ⟨call, hcall, rfl⟩ := List.mem_map.mp hin
      have hcomplete := h.complete call hcall
      exact .inr ⟨call.tool, hcomplete.allowed, .inr ⟨call.ok, hcomplete.steps⟩⟩
    · exact .inl (h.nothingElse callId hin)
  · intro ids hnodup hbegun
    have hsub : ids ⊆ calls.map ToolCall.callId := by
      intro callId hin
      by_contra hnot
      exact hbegun callId hin (h.nothingElse callId hnot)
    have hle := (hnodup.subperm hsub).length_le
    rw [List.length_map] at hle
    exact Nat.le_trans hle h.bounded

/-! ## The map of observed calls -/

/-- The steps an entry of the map stands for. -/
def ObservedAgentToolCall.steps (call : ObservedAgentToolCall) : List ToolStep :=
  if call.finished then [.started call.tool, .finished call.tool call.ok]
  else [.started call.tool]

theorem ObservedAgentToolCall.steps_ne_nil (call : ObservedAgentToolCall) : call.steps ≠ [] := by
  rw [steps]
  split
  · exact List.cons_ne_nil _ _
  · exact List.cons_ne_nil _ _

/-- The map holds the ids that were started, each with the steps it took. -/
structure Observed (events : List AgentEvent) (calls : List ObservedAgentToolCall) : Prop where
  distinct : (calls.map ObservedAgentToolCall.callId).Nodup
  bounded : calls.length ≤ maxAgentActionToolCalls
  allowed : ∀ call ∈ calls, AllowedCall call.tool call.callId
  steps : ∀ call ∈ calls, stepsOf call.callId events = call.steps
  nothingElse : ∀ callId, callId ∉ calls.map ObservedAgentToolCall.callId →
    stepsOf callId events = []

namespace AgentActionObservation

theorem ofEvents_concat (events : List AgentEvent) (event : AgentEvent) :
    ofEvents (events ++ [event]) = (ofEvents events).observe event := by
  rw [ofEvents, List.foldl_append]
  rfl

theorem get_eq_none {o : AgentActionObservation} {callId : String} :
    o.get callId = none ↔ callId ∉ o.calls.map ObservedAgentToolCall.callId := by
  rw [get, List.find?_eq_none, List.mem_map]
  constructor
  · rintro h ⟨call, hin, hid⟩
    exact h call hin (beq_iff_eq.mpr hid)
  · intro h call hin hid
    exact h ⟨call, hin, beq_iff_eq.mp hid⟩

/-- Ids are distinct, so an id finds its entry. -/
theorem get_eq_some {o : AgentActionObservation}
    (hdistinct : (o.calls.map ObservedAgentToolCall.callId).Nodup) {callId : String}
    {call : ObservedAgentToolCall} :
    o.get callId = some call ↔ call ∈ o.calls ∧ call.callId = callId := by
  rw [get]
  constructor
  · intro h
    have hid := List.find?_some h
    exact ⟨List.mem_of_find?_eq_some h, beq_iff_eq.mp hid⟩
  · rintro ⟨hin, hid⟩
    cases hfound : o.calls.find? (fun other => other.callId == callId) with
    | none =>
      rw [List.find?_eq_none] at hfound
      exact absurd (beq_iff_eq.mpr hid) (hfound call hin)
    | some found =>
      have hfoundId := List.find?_some hfound
      have hsame : found.callId = call.callId := by
        rw [hid]
        exact beq_iff_eq.mp hfoundId
      rw [List.inj_on_of_nodup_map hdistinct (List.mem_of_find?_eq_some hfound) hin hsame]

/-- An id that is not in the map is put at the end. -/
theorem insert_new {o : AgentActionObservation} {call : ObservedAgentToolCall}
    (h : o.get call.callId = none) : o.insert call = { o with calls := o.calls ++ [call] } := by
  have hkeep : o.calls.filter (fun other => other.callId != call.callId) = o.calls := by
    rw [List.filter_eq_self]
    intro other hin
    rw [bne_iff_ne]
    intro hid
    exact get_eq_none.mp h (List.mem_map.mpr ⟨other, hin, hid⟩)
  rw [insert, hkeep]

/-- **What an event can do** to a map whose flag stays clear: enter an allowed new call, finish one
    that is open, or nothing. -/
theorem observe_clear {o : AgentActionObservation} {event : AgentEvent}
    (h : (o.observe event).protocolFailure = false) :
    o.protocolFailure = false ∧
      ((∃ tool callId, event = .toolStarted tool callId ∧ AllowedCall tool callId ∧
          o.calls.length < maxAgentActionToolCalls ∧ o.get callId = none ∧
          (o.observe event).calls = o.calls ++
            [{ callId := callId, tool := tool, finished := false, ok := false }]) ∨
       (∃ call ok output error, event = .toolFinished call.tool call.callId ok output error ∧
          o.get call.callId = some call ∧ call.finished = false ∧
          (o.observe event).calls = o.calls.map (fun other =>
            if other.callId = call.callId then { other with finished := true, ok := ok }
            else other)) ∨
       ((∀ callId, stepOf callId event = none) ∧ (o.observe event).calls = o.calls)) := by
  cases event with
  | toolStarted tool callId =>
    rw [observe] at h ⊢
    split at h
    · cases h
    · rename_i hrefused
      rw [if_neg hrefused]
      simp only [Bool.or_eq_true, decide_eq_true_eq, not_or, Bool.not_eq_true',
        Bool.not_eq_false, ge_iff_le, Decidable.not_not] at hrefused
      obtain ⟨⟨hsafe, htool⟩, hroom⟩ := hrefused
      cases hget : o.get callId with
      | some call =>
        rw [hget] at h
        cases h
      | none =>
        rw [hget] at h
        dsimp only at h ⊢
        rw [insert_new hget] at h ⊢
        exact ⟨h, .inl ⟨tool, callId, rfl, ⟨hsafe, htool⟩, Nat.lt_of_not_le hroom, hget, rfl⟩⟩
  | toolFinished tool callId ok output error =>
    rw [observe] at h ⊢
    cases hget : o.get callId with
    | none =>
      rw [hget] at h
      cases h
    | some call =>
      rw [hget] at h
      dsimp only at h ⊢
      split at h
      · rename_i hopen
        rw [if_pos hopen]
        have hid := List.find?_some hget
        have hid' : call.callId = callId := beq_iff_eq.mp hid
        subst hid'
        refine ⟨h, .inr (.inl ⟨call, ok, output, error, ?_, hget, hopen.2, rfl⟩)⟩
        rw [hopen.1]
      · cases h
  | textDelta text => exact ⟨h, .inr (.inr ⟨fun _ => rfl, rfl⟩)⟩
  | messageAccepted => exact ⟨h, .inr (.inr ⟨fun _ => rfl, rfl⟩)⟩
  | backgroundProgress taskId label summary done =>
    exact ⟨h, .inr (.inr ⟨fun _ => rfl, rfl⟩)⟩
  | sessionStatus status => exact ⟨h, .inr (.inr ⟨fun _ => rfl, rfl⟩)⟩
  | tokenUsage usage => exact ⟨h, .inr (.inr ⟨fun _ => rfl, rfl⟩)⟩
  | permissionRequired request => exact ⟨h, .inr (.inr ⟨fun _ => rfl, rfl⟩)⟩
  | turnCompleted => exact ⟨h, .inr (.inr ⟨fun _ => rfl, rfl⟩)⟩
  | warning message => exact ⟨h, .inr (.inr ⟨fun _ => rfl, rfl⟩)⟩

end AgentActionObservation

open AgentActionObservation

/-! ## One event -/

section Step

variable {events : List AgentEvent} {calls : List ObservedAgentToolCall}

theorem Observed.start (h : Observed events calls) {tool callId : String}
    (hallowed : AllowedCall tool callId) (hroom : calls.length < maxAgentActionToolCalls)
    (hnew : callId ∉ calls.map ObservedAgentToolCall.callId) :
    Observed (events ++ [.toolStarted tool callId])
      (calls ++ [{ callId := callId, tool := tool, finished := false, ok := false }]) := by
  have hother : ∀ id, id ≠ callId →
      stepsOf id (events ++ [.toolStarted tool callId]) = stepsOf id events := by
    intro id hne
    rw [stepsOf_concat, stepOf, if_neg (Ne.symm hne), Option.toList_none, List.append_nil]
  refine ⟨?_, ?_, ?_, ?_, ?_⟩
  · rw [List.map_append, List.map_singleton, List.nodup_append]
    refine ⟨h.distinct, List.nodup_singleton _, fun a ha b hb => ?_⟩
    rw [List.mem_singleton] at hb
    rintro rfl
    rw [hb] at ha
    exact hnew ha
  · rw [List.length_append, List.length_singleton]
    omega
  · intro call hin
    rcases List.mem_append.mp hin with hold | hlast
    · exact h.allowed call hold
    · rw [List.mem_singleton.mp hlast]
      exact hallowed
  · intro call hin
    rcases List.mem_append.mp hin with hold | hlast
    · have hne : call.callId ≠ callId := by
        rintro rfl
        exact hnew (List.mem_map_of_mem hold)
      rw [hother _ hne]
      exact h.steps call hold
    · rw [List.mem_singleton.mp hlast]
      dsimp only
      rw [stepsOf_concat, h.nothingElse callId hnew, stepOf, if_pos rfl]
      rfl
  · intro id hnot
    rw [List.map_append, List.mem_append, not_or] at hnot
    have hne : id ≠ callId := by
      rintro rfl
      exact hnot.2 List.mem_cons_self
    rw [hother _ hne]
    exact h.nothingElse id hnot.1

theorem Observed.finish (h : Observed events calls) {call : ObservedAgentToolCall}
    (hcall : call ∈ calls) (hopen : call.finished = false) (ok : Bool) (output : String)
    (error : Option String) :
    Observed (events ++ [.toolFinished call.tool call.callId ok output error])
      (calls.map (fun other =>
        if other.callId = call.callId then { other with finished := true, ok := ok }
        else other)) := by
  have hother : ∀ id, id ≠ call.callId →
      stepsOf id (events ++ [.toolFinished call.tool call.callId ok output error]) =
        stepsOf id events := by
    intro id hne
    rw [stepsOf_concat, stepOf, if_neg (Ne.symm hne), Option.toList_none, List.append_nil]
  have hids : (calls.map (fun other =>
      if other.callId = call.callId then { other with finished := true, ok := ok }
      else other)).map ObservedAgentToolCall.callId =
      calls.map ObservedAgentToolCall.callId := by
    rw [List.map_map]
    refine List.map_congr_left (fun other _ => ?_)
    rw [Function.comp_apply]
    split
    · rfl
    · rfl
  refine ⟨?_, ?_, ?_, ?_, ?_⟩
  · rw [hids]
    exact h.distinct
  · rw [List.length_map]
    exact h.bounded
  · intro changed hin
    obtain ⟨other, hold, rfl⟩ := List.mem_map.mp hin
    have hallowed := h.allowed other hold
    split
    · exact hallowed
    · exact hallowed
  · intro changed hin
    obtain ⟨other, hold, rfl⟩ := List.mem_map.mp hin
    by_cases hid : other.callId = call.callId
    · -- the entry of the finished call
      have hsame : other = call := List.inj_on_of_nodup_map h.distinct hold hcall hid
      subst hsame
      rw [if_pos rfl]
      dsimp only
      rw [stepsOf_concat, h.steps other hold, ObservedAgentToolCall.steps, hopen, stepOf,
        if_pos rfl]
      rfl
    · rw [if_neg hid, hother _ hid]
      exact h.steps other hold
  · intro id hnot
    rw [hids] at hnot
    have hne : id ≠ call.callId := by
      rintro rfl
      exact hnot (List.mem_map_of_mem hcall)
    rw [hother _ hne]
    exact h.nothingElse id hnot

theorem Observed.other (h : Observed events calls) {event : AgentEvent}
    (hevent : ∀ callId, stepOf callId event = none) : Observed (events ++ [event]) calls := by
  have hsame : ∀ id, stepsOf id (events ++ [event]) = stepsOf id events := by
    intro id
    rw [stepsOf_concat, hevent, Option.toList_none, List.append_nil]
  refine ⟨h.distinct, h.bounded, h.allowed, ?_, ?_⟩
  · intro call hin
    rw [hsame]
    exact h.steps call hin
  · intro id hnot
    rw [hsame]
    exact h.nothingElse id hnot

end Step

/-! ## A whole stream -/

/-- **The map.**  While the flag is clear, the map is what the stream says. -/
theorem observed_of_clear {events : List AgentEvent}
    (h : (ofEvents events).protocolFailure = false) :
    Observed events (ofEvents events).calls := by
  induction events using List.reverseRecOn with
  | nil =>
    exact ⟨List.nodup_nil, Nat.zero_le _, fun _ hin => absurd hin List.not_mem_nil,
      fun _ hin => absurd hin List.not_mem_nil, fun _ _ => rfl⟩
  | append_singleton events event ih =>
    rw [ofEvents_concat] at h ⊢
    obtain ⟨hclear, hcase⟩ := observe_clear h
    have hbefore := ih hclear
    rcases hcase with ⟨tool, callId, rfl, hallowed, hroom, hnew, hcalls⟩ |
      ⟨call, ok, output, error, rfl, hget, hopen, hcalls⟩ | ⟨hevent, hcalls⟩
    · rw [hcalls]
      exact hbefore.start hallowed hroom (get_eq_none.mp hnew)
    · rw [hcalls]
      exact hbefore.finish ((get_eq_some hbefore.distinct).mp hget).1 hopen ok output error
    · rw [hcalls]
      exact hbefore.other hevent

/-- The ids in the map are the ids the stream speaks of. -/
theorem Observed.mem_ids {events : List AgentEvent} {calls : List ObservedAgentToolCall}
    (h : Observed events calls) {callId : String} :
    callId ∈ calls.map ObservedAgentToolCall.callId ↔ stepsOf callId events ≠ [] := by
  constructor
  · intro hin
    obtain ⟨call, hcall, rfl⟩ := List.mem_map.mp hin
    rw [h.steps call hcall]
    exact call.steps_ne_nil
  · intro hne
    by_contra hnot
    exact hne (h.nothingElse callId hnot)

/-- A stream that keeps to the protocol leaves the flag clear. -/
theorem clear_of_proper {events : List AgentEvent} (h : Proper events) :
    (ofEvents events).protocolFailure = false := by
  induction events using List.reverseRecOn with
  | nil => rfl
  | append_singleton events event ih =>
    have hclear := ih h.of_concat
    have hobserved := observed_of_clear hclear
    rw [ofEvents_concat]
    cases event with
    | toolStarted tool callId =>
      have hcall := h.calls callId
      rw [stepsOf_concat, stepOf, if_pos rfl, Option.toList_some] at hcall
      -- a start can only be the first step
      obtain ⟨hfirst, hallowed⟩ : stepsOf callId events = [] ∧ AllowedCall tool callId := by
        rcases hcall with hnil | ⟨other, hallowed, hone | ⟨ok, htwo⟩⟩
        · simp at hnil
        · have hsteps : stepsOf callId events ++ [ToolStep.started tool] =
              [] ++ [ToolStep.started other] := hone
          obtain ⟨hnil, hlast⟩ := List.append_inj' hsteps rfl
          cases hlast
          exact ⟨hnil, hallowed⟩
        · have hsteps : stepsOf callId events ++ [ToolStep.started tool] =
              [ToolStep.started other] ++ [ToolStep.finished other ok] := htwo
          cases (List.append_inj' hsteps rfl).2
      have hnew : callId ∉ (ofEvents events).calls.map ObservedAgentToolCall.callId := by
        intro hin
        exact hobserved.mem_ids.mp hin hfirst
      have hroom : (ofEvents events).calls.length < maxAgentActionToolCalls := by
        have hle := h.bounded
          (callId :: (ofEvents events).calls.map ObservedAgentToolCall.callId)
          (List.nodup_cons.mpr ⟨hnew, hobserved.distinct⟩) (by
            intro id hin hnil
            rw [stepsOf_concat] at hnil
            obtain ⟨hbefore, hstep⟩ := List.append_eq_nil_iff.mp hnil
            rcases List.mem_cons.mp hin with rfl | hold
            · rw [stepOf, if_pos rfl] at hstep
              cases hstep
            · exact hobserved.mem_ids.mp hold hbefore)
        rw [List.length_cons, List.length_map] at hle
        omega
      have haccepted : ¬ (!agentActionToolIdentityIsSafe tool callId ||
          tool ∉ agentActionFileTools ||
          (ofEvents events).calls.length ≥ maxAgentActionToolCalls) = true := by
        simp only [hallowed.1, Bool.not_true, Bool.false_or, Bool.or_eq_true, decide_eq_true_eq,
          not_or, Decidable.not_not]
        exact ⟨hallowed.2, by omega⟩
      have hget : (ofEvents events).get callId = none := get_eq_none.mpr hnew
      rw [observe, if_neg haccepted, hget]
      exact hclear
    | toolFinished tool callId ok output error =>
      have hcall := h.calls callId
      rw [stepsOf_concat, stepOf, if_pos rfl, Option.toList_some] at hcall
      -- a finish can only follow the start with the same tool
      have hbefore : stepsOf callId events = [ToolStep.started tool] := by
        rcases hcall with hnil | ⟨other, -, hone | ⟨done, htwo⟩⟩
        · simp at hnil
        · have hsteps : stepsOf callId events ++ [ToolStep.finished tool ok] =
              [] ++ [ToolStep.started other] := hone
          cases (List.append_inj' hsteps rfl).2
        · have hsteps : stepsOf callId events ++ [ToolStep.finished tool ok] =
              [ToolStep.started other] ++ [ToolStep.finished other done] := htwo
          obtain ⟨hfirst, hlast⟩ := List.append_inj' hsteps rfl
          cases hlast
          exact hfirst
      have hin : callId ∈ (ofEvents events).calls.map ObservedAgentToolCall.callId := by
        rw [hobserved.mem_ids, hbefore]
        exact List.cons_ne_nil _ _
      obtain ⟨call, hmem, rfl⟩ := List.mem_map.mp hin
      have hsteps := hobserved.steps call hmem
      rw [hbefore, ObservedAgentToolCall.steps] at hsteps
      have hget : (ofEvents events).get call.callId = some call :=
        (get_eq_some hobserved.distinct).mpr ⟨hmem, rfl⟩
      rw [observe, hget]
      dsimp only
      split at hsteps
      · cases hsteps
      · rename_i hopen
        cases hsteps
        rw [if_pos ⟨rfl, Bool.not_eq_true _ ▸ hopen⟩]
        exact hclear
    | textDelta text => exact hclear
    | messageAccepted => exact hclear
    | backgroundProgress taskId label summary done => exact hclear
    | sessionStatus status => exact hclear
    | tokenUsage usage => exact hclear
    | permissionRequired request => exact hclear
    | turnCompleted => exact hclear
    | warning message => exact hclear

/-! ## The report of the turn -/

/-- A reported call, as the comparison reads it: it failed if it carries an error. -/
def ToolCallResult.report (call : ToolCallResult) : ToolCall :=
  { callId := call.callId, tool := call.tool, ok := call.error.isNone }

/-- The number of calls that succeeded. -/
def succeeded (calls : List ToolCall) : Nat := calls.countP (fun call => call.ok)

/-- The number of calls of a mutating tool that succeeded. -/
def succeededMutations (calls : List ToolCall) : Nat :=
  calls.countP (fun call => call.ok && decide (call.tool ∈ agentActionMutationTools))

/-- The map has the reported call, finished and with the reported outcome. -/
def Confirmed (o : AgentActionObservation) (call : ToolCall) : Prop :=
  AllowedCall call.tool call.callId ∧
    o.get call.callId =
      some { callId := call.callId, tool := call.tool, finished := true, ok := call.ok }

/-- The loop over the reported calls. -/
theorem validateToolCalls_eq_ok {o : AgentActionObservation} {calls : List ToolCallResult} :
    ∀ {seen : List String} {fileTools mutations : Nat} {counts : Nat × Nat},
      validateToolCalls o seen fileTools mutations calls = .ok counts ↔
        (∀ call ∈ calls.map ToolCallResult.report, Confirmed o call) ∧
        ((calls.map ToolCallResult.report).map ToolCall.callId).Nodup ∧
        (∀ callId ∈ (calls.map ToolCallResult.report).map ToolCall.callId, callId ∉ seen) ∧
        counts = (fileTools + succeeded (calls.map ToolCallResult.report),
          mutations + succeededMutations (calls.map ToolCallResult.report)) := by
  induction calls with
  | nil =>
    intro seen fileTools mutations counts
    rw [validateToolCalls]
    constructor
    · rintro ⟨⟩
      exact ⟨fun _ hin => absurd hin List.not_mem_nil, List.nodup_nil,
        fun _ hin => absurd hin List.not_mem_nil, rfl⟩
    · rintro ⟨-, -, -, rfl⟩
      rfl
  | cons call rest ih =>
    intro seen fileTools mutations counts
    have hcount : succeeded ((call :: rest).map ToolCallResult.report) =
        succeeded (rest.map ToolCallResult.report) + if call.error.isNone then 1 else 0 := by
      rw [succeeded, List.map_cons, List.countP_cons]
      rfl
    have hmutations : succeededMutations ((call :: rest).map ToolCallResult.report) =
        succeededMutations (rest.map ToolCallResult.report) +
          if (call.error.isNone && decide (call.tool ∈ agentActionMutationTools)) = true
          then 1 else 0 := by
      rw [succeededMutations, List.map_cons, List.countP_cons]
      rfl
    -- what the checks of one call come to
    have hstep : validateToolCalls o seen fileTools mutations (call :: rest) = .ok counts ↔
        Confirmed o call.report ∧ call.callId ∉ seen ∧
        validateToolCalls o (call.callId :: seen)
          (fileTools + if call.error.isNone then 1 else 0)
          (mutations +
            if (call.error.isNone && decide (call.tool ∈ agentActionMutationTools)) = true
            then 1 else 0) rest = .ok counts := by
      rw [validateToolCalls]
      split
      · rename_i hrefused
        constructor
        · intro h
          cases h
        · rintro ⟨⟨⟨hsafe, htool⟩, -⟩, hseen, -⟩
          have hsafe' : agentActionToolIdentityIsSafe call.tool call.callId = true := hsafe
          have htool' : call.tool ∈ agentActionFileTools := htool
          simp [hsafe', htool', hseen] at hrefused
      · rename_i haccepted
        simp only [Bool.or_eq_true, decide_eq_true_eq, not_or, Bool.not_eq_true',
          Bool.not_eq_false, Decidable.not_not] at haccepted
        obtain ⟨⟨hsafe, htool⟩, hseen⟩ := haccepted
        cases hget : o.get call.callId with
        | none =>
          constructor
          · intro h
            cases h
          · rintro ⟨⟨-, hconfirmed⟩, -⟩
            have hsome := hget.symm.trans hconfirmed
            cases hsome
        | some observed =>
          have hid : observed.callId = call.callId := by
            have hfound := List.find?_some hget
            exact beq_iff_eq.mp hfound
          dsimp only
          split
          · rename_i hdiffer
            constructor
            · intro h
              cases h
            · rintro ⟨⟨-, hconfirmed⟩, -⟩
              have hsame := Option.some.inj (hget.symm.trans hconfirmed)
              rw [hsame] at hdiffer
              simp [ToolCallResult.report] at hdiffer
          · rename_i hsame
            simp only [not_or, Decidable.not_not, Bool.not_eq_false] at hsame
            obtain ⟨htoolSame, hfinished, hok⟩ := hsame
            have hconfirmed : Confirmed o call.report := by
              refine ⟨⟨hsafe, htool⟩, hget.trans ?_⟩
              obtain ⟨callId, tool, finished, ok⟩ := observed
              cases hid
              cases htoolSame
              cases hfinished
              cases hok
              rfl
            split
            · rename_i herror
              have hmutates : (if (call.error.isNone &&
                  decide (call.tool ∈ agentActionMutationTools)) = true then 1 else 0) =
                  if call.tool ∈ agentActionMutationTools then 1 else 0 := by
                rw [herror, Bool.true_and]
                simp only [decide_eq_true_eq]
              have hplus : mutations + (if call.tool ∈ agentActionMutationTools then 1 else 0) =
                  if call.tool ∈ agentActionMutationTools then mutations + 1 else mutations := by
                split
                · rfl
                · rfl
              rw [hmutates, hplus]
              constructor
              · intro h
                exact ⟨hconfirmed, hseen, h⟩
              · rintro ⟨-, -, h⟩
                exact h
            · rename_i herror
              have hmutates : (if (call.error.isNone &&
                  decide (call.tool ∈ agentActionMutationTools)) = true then 1 else 0) = 0 := by
                rw [Bool.not_eq_true] at herror
                rw [herror]
                rfl
              rw [hmutates, Nat.add_zero, Nat.add_zero]
              constructor
              · intro h
                exact ⟨hconfirmed, hseen, h⟩
              · rintro ⟨-, -, h⟩
                exact h
    rw [hstep, ih, hcount, hmutations]
    simp only [List.map_cons, List.nodup_cons, List.mem_cons, not_or, forall_eq_or_imp]
    constructor
    · rintro ⟨hconfirmed, hseen, hrest, hnodup, hnew, hcounts⟩
      refine ⟨⟨hconfirmed, hrest⟩, ⟨fun hin => (hnew _ hin).1 rfl, hnodup⟩,
        ⟨hseen, fun id hin => (hnew id hin).2⟩, ?_⟩
      rw [hcounts]
      ext
      · show _ + _ + _ = _
        omega
      · show _ + _ + _ = _
        omega
    · rintro ⟨⟨hconfirmed, hrest⟩, ⟨hnotin, hnodup⟩, ⟨hseen, hnew⟩, hcounts⟩
      refine ⟨hconfirmed, hseen, hrest, hnodup, fun id hin => ⟨?_, hnew id hin⟩, ?_⟩
      · rintro rfl
        exact hnotin hin
      · rw [hcounts]
        ext
        · show _ = _ + _ + _
          omega
        · show _ = _ + _ + _
          omega

/-! ## The validation -/

/-- The reply can be stored: not blank, within the limit, without a NUL. -/
def ValidReply (text : String) : Prop :=
  blank text = false ∧ len text ≤ maxConversationMessageBytes ∧ hasNul text = false

/-- **An accepted turn.**  The stream has proper calls and nothing else, the turn reports exactly
    these in some order, at least one succeeded, and the reply is valid. -/
structure AcceptedTurn (turn : TurnResult) (events : List AgentEvent) (calls : List ToolCall) :
    Prop where
  reply : ValidReply turn.text
  observed : Transcript events calls
  reported : (turn.toolCalls.map ToolCallResult.report).Perm calls
  useful : 1 ≤ succeeded calls

/-- The true counts. -/
def trueCounts (calls : List ToolCall) : ToolCounts :=
  { observed := calls.length
    fileTools := succeeded calls
    mutations := succeededMutations calls }

theorem Transcript.perm {events : List AgentEvent} {calls others : List ToolCall}
    (h : Transcript events calls) (hperm : others.Perm calls) : Transcript events others := by
  have hids := hperm.map ToolCall.callId
  refine ⟨fun call hin => h.complete call (hperm.mem_iff.mp hin), hids.nodup_iff.mpr h.distinct,
    ?_, fun id hnot => h.nothingElse id (fun hin => hnot (hids.mem_iff.mpr hin))⟩
  rw [hperm.length_eq]
  exact h.bounded

theorem trueCounts_perm {calls others : List ToolCall} (hperm : others.Perm calls) :
    trueCounts others = trueCounts calls := by
  rw [trueCounts, trueCounts, hperm.length_eq, succeeded, succeededMutations,
    hperm.countP_eq, hperm.countP_eq]
  rfl

/-- Every reported call is confirmed by a map of the same size: then the reported calls are the
    calls of the stream. -/
theorem transcript_of_confirmed {events : List AgentEvent} {calls : List ToolCall}
    (hclear : (ofEvents events).protocolFailure = false)
    (hlength : (ofEvents events).calls.length = calls.length)
    (hconfirmed : ∀ call ∈ calls, Confirmed (ofEvents events) call)
    (hdistinct : (calls.map ToolCall.callId).Nodup) : Transcript events calls := by
  have hobserved := observed_of_clear hclear
  have hsub : calls.map ToolCall.callId ⊆
      (ofEvents events).calls.map ObservedAgentToolCall.callId := by
    intro id hin
    obtain ⟨call, hcall, rfl⟩ := List.mem_map.mp hin
    obtain ⟨hmem, -⟩ := (get_eq_some hobserved.distinct).mp (hconfirmed call hcall).2
    exact List.mem_map.mpr ⟨_, hmem, rfl⟩
  have hperm : (calls.map ToolCall.callId).Perm
      ((ofEvents events).calls.map ObservedAgentToolCall.callId) := by
    refine (hdistinct.subperm hsub).perm_of_length_le ?_
    rw [List.length_map, List.length_map]
    exact Nat.le_of_eq hlength
  refine ⟨?_, hdistinct, ?_, ?_⟩
  · intro call hcall
    obtain ⟨hallowed, hget⟩ := hconfirmed call hcall
    obtain ⟨hmem, -⟩ := (get_eq_some hobserved.distinct).mp hget
    exact ⟨hallowed, hobserved.steps _ hmem⟩
  · rw [← hlength]
    exact hobserved.bounded
  · intro id hnot
    refine hobserved.nothingElse id (fun hin => hnot ?_)
    exact hperm.mem_iff.mpr hin

/-- The calls of a stream are confirmed by its map. -/
theorem Transcript.confirmed {events : List AgentEvent} {calls : List ToolCall}
    (h : Transcript events calls) :
    (∀ call ∈ calls, Confirmed (ofEvents events) call) ∧
      (ofEvents events).calls.length = calls.length := by
  have hobserved := observed_of_clear (clear_of_proper h.proper)
  have hids : ∀ id, id ∈ (ofEvents events).calls.map ObservedAgentToolCall.callId ↔
      id ∈ calls.map ToolCall.callId := by
    intro id
    rw [hobserved.mem_ids]
    constructor
    · intro hne
      by_contra hnot
      exact hne (h.nothingElse id hnot)
    · intro hin hnil
      obtain ⟨call, hcall, rfl⟩ := List.mem_map.mp hin
      rw [(h.complete call hcall).steps] at hnil
      cases hnil
  constructor
  · intro call hcall
    have hcomplete := h.complete call hcall
    refine ⟨hcomplete.allowed, ?_⟩
    obtain ⟨entry, hentry, hid⟩ :=
      List.mem_map.mp ((hids call.callId).mpr (List.mem_map_of_mem hcall))
    have hsteps := hobserved.steps entry hentry
    rw [hid, hcomplete.steps, ObservedAgentToolCall.steps] at hsteps
    rw [(get_eq_some hobserved.distinct).mpr ⟨hentry, hid⟩]
    obtain ⟨callId, tool, finished, ok⟩ := entry
    cases hid
    cases finished with
    | false => cases hsteps
    | true =>
      cases hsteps
      rfl
  · have hperm := (List.perm_ext_iff_of_nodup hobserved.distinct h.distinct).mpr hids
    have hlength := hperm.length_eq
    rwa [List.length_map, List.length_map] at hlength

/-- What is accepted agrees with the stream, and its counts are the true ones. -/
theorem acceptedTurn_of_ok {turn : TurnResult} {events : List AgentEvent} {counts : ToolCounts}
    (h : validateAgentFileToolTurn turn (ofEvents events) = .ok counts) :
    ∃ calls, AcceptedTurn turn events calls ∧ counts = trueCounts calls := by
  rw [validateAgentFileToolTurn] at h
  split at h
  · cases h
  · rename_i hclear
    split at h
    · cases h
    · rename_i hreply
      split at h
      · cases h
      · split at h
        · cases h
        · rename_i hlength
          cases hcalls : validateToolCalls (ofEvents events) [] 0 0 turn.toolCalls with
          | error e =>
            rw [hcalls] at h
            cases h
          | ok found =>
            rw [hcalls] at h
            dsimp only at h
            split at h
            · cases h
            · rename_i huseful
              obtain ⟨hconfirmed, hdistinct, -, hfound⟩ := validateToolCalls_eq_ok.mp hcalls
              have hlen : (ofEvents events).calls.length =
                  (turn.toolCalls.map ToolCallResult.report).length := by
                rw [List.length_map]
                exact Decidable.not_not.mp hlength
              have htranscript := transcript_of_confirmed (Bool.not_eq_true _ ▸ hclear) hlen
                hconfirmed hdistinct
              rw [Nat.zero_add, Nat.zero_add] at hfound
              refine ⟨_, ⟨?_, htranscript, List.Perm.refl _, ?_⟩, ?_⟩
              · simp only [Bool.or_eq_true, decide_eq_true_eq, not_or, Bool.not_eq_true] at hreply
                exact ⟨hreply.1.1, by omega, hreply.2⟩
              · rw [hfound] at huseful
                exact Nat.pos_of_ne_zero huseful
              · cases h
                rw [trueCounts, hfound, hlen]

/-- What agrees with the stream is accepted, with the true counts. -/
theorem AcceptedTurn.ok {turn : TurnResult} {events : List AgentEvent} {calls : List ToolCall}
    (h : AcceptedTurn turn events calls) :
    validateAgentFileToolTurn turn (ofEvents events) = .ok (trueCounts calls) := by
  obtain ⟨⟨hblank, hshort, hnul⟩, htranscript, hreported, huseful⟩ := h
  rw [validateAgentFileToolTurn]
  have hreport := htranscript.perm hreported
  obtain ⟨hconfirmed, hlength⟩ := hreport.confirmed
  have hcounts := trueCounts_perm hreported
  rw [← hcounts]
  rw [List.length_map] at hlength
  have hclear : ¬ (ofEvents events).protocolFailure = true := by
    rw [clear_of_proper htranscript.proper]
    exact Bool.false_ne_true
  have hreply : ¬ (blank turn.text ||
      decide (len turn.text > maxConversationMessageBytes) || hasNul turn.text) = true := by
    simp only [hblank, hnul, Bool.false_or, Bool.or_false, decide_eq_true_eq]
    omega
  have hsome : 1 ≤ turn.toolCalls.length := by
    have hle : succeeded calls ≤ calls.length := List.countP_le_length
    rw [← hreported.length_eq, List.length_map] at hle
    omega
  have hfew : turn.toolCalls.length ≤ maxAgentActionToolCalls := by
    have hle := hreport.bounded
    rwa [List.length_map] at hle
  have hnumber : ¬ (turn.toolCalls.isEmpty ||
      decide (turn.toolCalls.length > maxAgentActionToolCalls)) = true := by
    have hne : turn.toolCalls ≠ [] := by
      intro hnil
      rw [hnil] at hsome
      cases hsome
    simp only [Bool.or_eq_true, List.isEmpty_iff, decide_eq_true_eq, hne, false_or]
    omega
  have hcalls : validateToolCalls (ofEvents events) [] 0 0 turn.toolCalls =
      .ok (succeeded (turn.toolCalls.map ToolCallResult.report),
        succeededMutations (turn.toolCalls.map ToolCallResult.report)) := by
    refine validateToolCalls_eq_ok.mpr ⟨hconfirmed, hreport.distinct,
      fun _ _ => List.not_mem_nil, ?_⟩
    rw [Nat.zero_add, Nat.zero_add]
  have huseful' : succeeded (turn.toolCalls.map ToolCallResult.report) ≠ 0 := by
    rw [succeeded, hreported.countP_eq]
    exact Nat.ne_of_gt huseful
  rw [if_neg hclear, if_neg hreply, if_neg hnumber, if_neg (not_not.mpr hlength), hcalls]
  dsimp only
  rw [if_neg huseful', trueCounts, List.length_map, hlength]

/-- **Tool transcript validation.**  For every stream of events and every turn result: the turn is
    accepted, with these counts, exactly when stream and report agree on proper calls and the
    counts are the true ones. -/
theorem validateAgentFileToolTurn_iff (turn : TurnResult) (events : List AgentEvent)
    (counts : ToolCounts) :
    validateAgentFileToolTurn turn (ofEvents events) = .ok counts ↔
      ∃ calls, AcceptedTurn turn events calls ∧ counts = trueCounts calls := by
  constructor
  · exact acceptedTurn_of_ok
  · rintro ⟨calls, haccepted, rfl⟩
    exact haccepted.ok

end VibeCoder
