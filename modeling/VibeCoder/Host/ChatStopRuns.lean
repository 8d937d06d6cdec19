/-
  Any number of chat turns and stops on one controller, in any interleaving of their critical
  sections.

  1. **Ownership** (`Inv`) — a live registration is the entry of the slot, the executor is held by
     just the call that drives a future, and the agent runs a turn only while an action turn holds
     the executor.

  2. **What a stop reaches** — the flag of a model turn is the one its own call made.  A stop that
     drives the agent's `cancel` has the executor to itself, so the agent runs no turn, and there is
     nothing it could cancel (`action_turn_never_stopped`).

  3. **The law** (`chat_stop_law`) — a stop never waits for the turn it found in just the runs in
     which no stop finds an action turn that is being driven, and no action turn is driven while a
     stop that found it is waiting.
-/
import VibeCoder.Host.ChatStop
import VibeCoder.Lib.Run

namespace VibeCoder.Host

open Runs

/-! ## Phases -/

/-- The turn whose registration the call has not dropped yet. -/
def Phase.registration : Phase → Option SendTurn
  | .sendRegistered turn | .sendDriving turn | .sendReturned turn _ => some turn
  | _ => none

/-- The call is inside `runtime.block_on`. -/
def Phase.driving : Phase → Bool
  | .sendDriving _ | .cancelDriving _ _ _ => true
  | _ => false

/-- The turn a stop has found, from the lookup to the end of the delivery. -/
def Phase.found : Phase → Option ActiveChatTurn
  | .cancelFound _ _ found | .cancelDriving _ _ found => some found
  | _ => none

/-- The turn whose stop has not been delivered. -/
def Phase.undelivered : Phase → Option ActiveChatTurn
  | .cancelFound _ _ found => some found
  | _ => none

/-- The call drives an action turn. -/
def Phase.acting : Phase → Bool
  | .sendDriving turn => turn.route = .agentAction
  | _ => false

theorem Phase.driving_of_acting {phase : Phase} (h : phase.acting = true) :
    phase.driving = true := by
  cases phase with
  | sendDriving turn => rfl
  | _ => cases h

theorem Phase.found_of_undelivered {phase : Phase} {found : ActiveChatTurn}
    (h : phase.undelivered = some found) : phase.found = some found := by
  cases phase with
  | cancelFound project conversation other => exact h
  | _ => cases h

namespace Controller

variable {c : Controller} {m n : Nat} {phase : Phase}

theorem moveTo_self : (c.moveTo n phase).calls n = phase := if_pos rfl

theorem moveTo_other (h : m ≠ n) : (c.moveTo n phase).calls m = c.calls m := if_neg h

/-- What the two phases of the moved call agree on is as it was for every call. -/
theorem moveTo_view {β : Type} {f : Phase → β} (h : f phase = f (c.calls n)) (m : Nat) :
    f ((c.moveTo n phase).calls m) = f (c.calls m) := by
  by_cases hm : m = n
  · rw [hm, moveTo_self, h]
  · rw [moveTo_other hm]

/-- What the moved call has only in its old phase. -/
theorem moveTo_lost {β : Type} {f : Phase → Option β} (h : f phase = none) {b : β}
    (hm : f ((c.moveTo n phase).calls m) = some b) : m ≠ n ∧ f (c.calls m) = some b := by
  by_cases heq : m = n
  · rw [heq, moveTo_self, h] at hm
    cases hm
  · rw [moveTo_other heq] at hm
    exact ⟨heq, hm⟩

end Controller

/-! ## What always holds -/

/-- A live registration is the entry of the slot. -/
structure Slot (c : Controller) : Prop where
  own : ∀ n turn, (c.calls n).registration = some turn → c.activeTurn = some (turn.active n)
  registered : ∀ active, c.activeTurn = some active →
    ∃ turn, (c.calls active.call).registration = some turn ∧ active = turn.active active.call

/-- The executor is held by just the call that drives a future, and the agent runs a turn only
    while an action turn is driven. -/
structure Held (c : Controller) : Prop where
  driving : ∀ n, (c.calls n).driving = true → c.executor.holder = some n
  holder : ∀ n, c.executor.holder = some n → (c.calls n).driving = true
  running : ∀ turn, c.running = some turn → (c.calls turn.call).acting = true

/-- Every request reached the turn it was meant for, and no flag is set without one. -/
structure Delivery (c : Controller) : Prop where
  aimed : ∀ pair ∈ c.delivered, pair.2 = pair.1
  requested : ∀ n, c.requested n = true → (n, n) ∈ c.delivered

/-- A stop has the flag that the call of the turn it found made. -/
structure Aimed (c : Controller) : Prop where
  found : ∀ n found flag, (c.calls n).found = some found → found.cancellation = .model flag →
    flag = found.call
  delivery : Delivery c

structure Inv (c : Controller) : Prop where
  slot : Slot c
  held : Held c
  aimed : Aimed c

theorem Inv.idle (initialized : Bool) (selectedModel : Option ModelRef) :
    Inv (Controller.idle initialized selectedModel) := by
  refine ⟨⟨?_, ?_⟩, ⟨?_, ?_, ?_⟩, ⟨?_, ?_, ?_⟩⟩ <;> intros <;> contradiction

section Steps

variable {c d : Controller} {n : Nat} {phase : Phase}

theorem Slot.same (h : Slot c) (hslot : d.activeTurn = c.activeTurn)
    (hcalls : ∀ m, (d.calls m).registration = (c.calls m).registration) : Slot d := by
  constructor
  · intro m turn hm
    rw [hcalls] at hm
    rw [hslot]
    exact h.own m turn hm
  · intro active hactive
    rw [hslot] at hactive
    rw [hcalls]
    exact h.registered active hactive

theorem Held.same (h : Held c) (hholder : d.executor.holder = c.executor.holder)
    (hrunning : d.running = c.running) (hdriving : ∀ m, (d.calls m).driving = (c.calls m).driving)
    (hacting : ∀ m, (d.calls m).acting = (c.calls m).acting) : Held d := by
  constructor
  · intro m hm
    rw [hdriving] at hm
    rw [hholder]
    exact h.driving m hm
  · intro m hm
    rw [hholder] at hm
    rw [hdriving]
    exact h.holder m hm
  · intro turn hturn
    rw [hrunning] at hturn
    rw [hacting]
    exact h.running turn hturn

theorem Delivery.same (h : Delivery c) (hdelivered : d.delivered = c.delivered)
    (hrequested : d.requested = c.requested) : Delivery d := by
  constructor
  · rw [hdelivered]
    exact h.aimed
  · rw [hdelivered, hrequested]
    exact h.requested

theorem Aimed.same (h : Aimed c) (hdelivery : Delivery d)
    (hcalls : ∀ m, (d.calls m).found = (c.calls m).found) : Aimed d := by
  refine ⟨fun m found flag hm hflag => ?_, hdelivery⟩
  rw [hcalls] at hm
  exact h.found m found flag hm hflag

/-- A stop that has nothing found any more. -/
theorem Aimed.forget (h : Aimed c) (hfound : phase.found = none) : Aimed (c.moveTo n phase) :=
  ⟨fun m found flag hm => h.found m found flag (Controller.moveTo_lost hfound hm).2,
    h.delivery.same rfl rfl⟩

/-- A call that neither registers nor drops a turn, and neither takes nor gives back the executor,
    keeps the invariant. -/
theorem Inv.move (h : Inv c) (hreg : phase.registration = (c.calls n).registration)
    (hdrive : phase.driving = (c.calls n).driving) (hact : phase.acting = (c.calls n).acting)
    (haimed : Aimed (c.moveTo n phase)) : Inv (c.moveTo n phase) where
  slot := h.slot.same rfl (Controller.moveTo_view hreg)
  held := h.held.same rfl rfl (Controller.moveTo_view hdrive) (Controller.moveTo_view hact)
  aimed := haimed

theorem Phase.not_acting {phase : Phase} (h : phase.driving = false) : phase.acting = false := by
  by_contra hcontra
  rw [Phase.driving_of_acting (Bool.eq_true_of_not_eq_false hcontra)] at h
  cases h

/-- A call that holds nothing goes on to a phase that holds nothing. -/
theorem Inv.pass (h : Inv c) (hreg : phase.registration = (c.calls n).registration)
    (hbefore : (c.calls n).driving = false) (hafter : phase.driving = false)
    (hfound : phase.found = none) : Inv (c.moveTo n phase) :=
  h.move hreg (hafter.trans hbefore.symm)
    ((Phase.not_acting hafter).trans (Phase.not_acting hbefore).symm) (h.aimed.forget hfound)

/-- Nobody drives while the executor is free. -/
theorem Held.nobody_drives (h : Held c) (hfree : c.executor.holder = none) (n : Nat) :
    (c.calls n).driving = false := by
  by_contra hcontra
  have hheld := h.driving n (Bool.eq_true_of_not_eq_false hcontra)
  rw [hfree] at hheld
  cases hheld

/-- The agent runs no turn unless the executor is held by an action turn. -/
theorem Held.not_running (h : Held c)
    (hno : ∀ m, c.executor.holder = some m → (c.calls m).acting = false) : c.running = none := by
  cases hrunning : c.running with
  | none => rfl
  | some turn =>
    have hacting := h.running turn hrunning
    have hheld := h.driving _ (Phase.driving_of_acting hacting)
    rw [hno _ hheld] at hacting
    cases hacting

/-- The free executor is taken. -/
theorem Inv.hold (h : Inv c) (hfree : c.executor.holder = none)
    (hreg : phase.registration = (c.calls n).registration) (hdrive : phase.driving = true)
    (hfound : phase.found = (c.calls n).found) : Inv (c.hold n phase) where
  slot := h.slot.same rfl (Controller.moveTo_view hreg)
  aimed := h.aimed.same (h.aimed.delivery.same rfl rfl) (Controller.moveTo_view hfound)
  held := by
    have hnone : c.running = none := h.held.not_running (fun m hm => by rw [hfree] at hm; cases hm)
    have hself : (c.hold n phase).calls n = phase := Controller.moveTo_self
    constructor
    · intro m hm
      by_cases heq : m = n
      · rw [heq]
        rfl
      · have hother : (c.hold n phase).calls m = c.calls m := Controller.moveTo_other heq
        rw [hother, h.held.nobody_drives hfree m] at hm
        cases hm
    · intro m hm
      injection hm with hm
      rw [← hm, hself]
      exact hdrive
    · intro turn hturn
      change c.running = some turn at hturn
      rw [hnone] at hturn
      cases hturn

/-- The call that drives gives the executor back. -/
theorem Inv.release (h : Inv c) (hdriving : (c.calls n).driving = true) (panicked : Bool)
    (hreg : phase.registration = (c.calls n).registration) (hdrive : phase.driving = false)
    (hfound : phase.found = none) : Inv (c.release n panicked phase) where
  slot := h.slot.same rfl (Controller.moveTo_view hreg)
  aimed := (h.aimed.forget hfound).same (h.aimed.delivery.same rfl rfl) fun _ => rfl
  held := by
    have hself : (c.release n panicked phase).calls n = phase := Controller.moveTo_self
    have hother : ∀ m, m ≠ n → (c.release n panicked phase).calls m = c.calls m :=
      fun m hm => Controller.moveTo_other hm
    constructor
    · intro m hm
      by_cases heq : m = n
      · rw [heq, hself, hdrive] at hm
        cases hm
      · rw [hother m heq] at hm
        have hheld := (h.held.driving m hm).symm.trans (h.held.driving n hdriving)
        injection hheld with hheld
        exact absurd hheld heq
    · intro m hm
      cases hm
    · intro turn hturn
      obtain ⟨hturn, hne⟩ := Option.filter_eq_some_iff.mp hturn
      rw [hother _ (of_decide_eq_true hne)]
      exact h.held.running turn hturn

/-- The free slot is taken. -/
theorem Inv.register {turn : SendTurn} (h : Inv c) (hfree : c.activeTurn = none)
    (hcall : c.calls n = .sendChecked turn) : Inv (Host.register c n turn) := by
  have hnone : ∀ m, (c.calls m).registration = none := by
    intro m
    cases hm : (c.calls m).registration with
    | none => rfl
    | some other =>
      have hown := h.slot.own m other hm
      rw [hfree] at hown
      cases hown
  unfold Host.register
  rw [hfree]
  refine ⟨⟨?_, ?_⟩, ?_, ⟨(h.aimed.forget (n := n) rfl).found, h.aimed.delivery.same rfl rfl⟩⟩
  · intro m other hm
    by_cases heq : m = n
    · subst heq
      have hself : (c.moveTo m (.sendRegistered turn)).calls m = .sendRegistered turn :=
        Controller.moveTo_self
      change ((c.moveTo m (.sendRegistered turn)).calls m).registration = some other at hm
      rw [hself] at hm
      injection hm with hm
      rw [hm]
    · change ((c.moveTo n (.sendRegistered turn)).calls m).registration = some other at hm
      rw [Controller.moveTo_other heq, hnone m] at hm
      cases hm
  · intro active hactive
    injection hactive with hactive
    refine ⟨turn, ?_, ?_⟩
    · rw [← hactive]
      exact congrArg Phase.registration Controller.moveTo_self
    · rw [← hactive]
      rfl
  · refine h.held.same rfl rfl (Controller.moveTo_view ?_) (Controller.moveTo_view ?_)
    · rw [hcall]
      rfl
    · rw [hcall]
      rfl

/-- A registration that ends clears the slot: what is there is its own entry. -/
theorem Inv.dropRegistration {turn : SendTurn} {answer : Answer} (h : Inv c)
    (hcall : c.calls n = .sendReturned turn answer) :
    Inv ((c.dropRegistration turn).moveTo n (.finished answer)) := by
  have hentry : c.activeTurn = some (turn.active n) := h.slot.own n turn (by rw [hcall]; rfl)
  have hcleared : c.dropRegistration turn = { c with activeTurn := none } := by
    unfold Controller.dropRegistration
    rw [hentry]
    exact if_pos ⟨rfl, rfl⟩
  rw [hcleared]
  have hforgot : Aimed (c.moveTo n (.finished answer)) := h.aimed.forget rfl
  refine ⟨⟨?_, fun active hactive => by cases hactive⟩, ?_,
    ⟨hforgot.found, h.aimed.delivery.same rfl rfl⟩⟩
  · intro m other hm
    obtain ⟨hne, hm⟩ := Controller.moveTo_lost rfl hm
    -- another live registration would be the same entry of the slot
    have hown := hentry.symm.trans (h.slot.own m other hm)
    injection hown with hown
    exact absurd (congrArg ActiveChatTurn.call hown).symm hne
  · refine h.held.same rfl rfl (Controller.moveTo_view ?_) (Controller.moveTo_view ?_)
    · rw [hcall]
      rfl
    · rw [hcall]
      rfl

variable (platform : Platform)

/-! ## What one step keeps -/

theorem Inv.lockForTurn {turn : SendTurn} (h : Inv c) (hcall : c.calls n = .sendRegistered turn) :
    Inv (Host.lockForTurn c n turn) := by
  unfold Host.lockForTurn
  cases hholder : c.executor.holder with
  | some m => exact h
  | none =>
    dsimp only
    split
    · exact h.pass (by rw [hcall]; rfl) (by rw [hcall]; rfl) rfl rfl
    · exact h.hold hholder (by rw [hcall]; rfl) rfl (by rw [hcall]; rfl)

theorem Inv.driveTurn {turn : SendTurn} (h : Inv c) (hcall : c.calls n = .sendDriving turn)
    (drive : Drive) : Inv (Host.driveTurn platform c n turn drive) := by
  have hdriving : (c.calls n).driving = true := by rw [hcall]; rfl
  cases drive with
  | agentTurnBegins sessionId =>
    unfold Host.driveTurn
    dsimp only
    split
    · rename_i hroute hrunning
      refine ⟨⟨h.slot.own, h.slot.registered⟩, ⟨h.held.driving, h.held.holder, ?_⟩,
        ⟨h.aimed.found, h.aimed.delivery.same rfl rfl⟩⟩
      intro running hnew
      injection hnew with hnew
      have hcalls : c.calls running.call = .sendDriving turn := by rw [← hnew]; exact hcall
      change (c.calls running.call).acting = true
      rw [hcalls]
      exact decide_eq_true hroute
    · exact h
  | agentTurnEnds =>
    refine ⟨⟨h.slot.own, h.slot.registered⟩, ⟨h.held.driving, h.held.holder, ?_⟩,
      ⟨h.aimed.found, h.aimed.delivery.same rfl rfl⟩⟩
    intro running hkept
    exact h.held.running running (Option.filter_eq_some_iff.mp hkept).1
  | completes model action => exact h.release hdriving false (by rw [hcall]; rfl) rfl rfl
  | panics => exact h.release hdriving true (by rw [hcall]; rfl) rfl rfl

theorem findTurn_some {project : ProjectId} {conversation : ConversationId}
    {found : ActiveChatTurn} (h : c.findTurn project conversation = some found) :
    c.activeTurn = some found := (Option.filter_eq_some_iff.mp h).1

theorem SendTurn.active_flag {turn : SendTurn} {n flag : Nat}
    (h : (turn.active n).cancellation = .model flag) : flag = n := by
  unfold SendTurn.active at h
  cases hroute : turn.route with
  | modelChat =>
    rw [hroute] at h
    injection h with h
    exact h.symm
  | agentAction =>
    rw [hroute] at h
    cases h

theorem Inv.lookForTurn {arguments : CancelArguments} (h : Inv c)
    (hcall : c.calls n = .cancelEntered arguments) :
    Inv (Host.lookForTurn platform c n arguments) := by
  have hends : ∀ bytes, Inv (c.finish n bytes) :=
    fun bytes => h.pass (by rw [hcall]; rfl) (by rw [hcall]; rfl) rfl rfl
  unfold Host.lookForTurn
  split
  · exact hends _
  · exact hends _
  · split
    · exact hends _
    · rename_i found hfound
      refine h.move (by rw [hcall]; rfl) (by rw [hcall]; rfl) (by rw [hcall]; rfl)
        ⟨fun m other flag hm hflag => ?_, h.aimed.delivery.same rfl rfl⟩
      by_cases heq : m = n
      · rw [heq, Controller.moveTo_self] at hm
        injection hm with hm
        subst hm
        obtain ⟨turn, -, hentry⟩ := h.slot.registered found (findTurn_some hfound)
        rw [hentry] at hflag
        exact SendTurn.active_flag hflag
      · rw [Controller.moveTo_other heq] at hm
        exact h.aimed.found m other flag hm hflag

theorem Inv.deliver {project : ProjectId} {conversation : ConversationId} {found : ActiveChatTurn}
    (h : Inv c) (hcall : c.calls n = .cancelFound project conversation found) :
    Inv (Host.deliver platform c n project conversation found) := by
  have hends : ∀ bytes, Inv (c.finish n bytes) :=
    fun bytes => h.pass (by rw [hcall]; rfl) (by rw [hcall]; rfl) rfl rfl
  unfold Host.deliver
  cases hcancellation : found.cancellation with
  | model flag =>
    have hflag : flag = found.call := h.aimed.found n found flag (by rw [hcall]; rfl) hcancellation
    have hended := hends (serializeBounded (platform.cancelJson (cancelSnapshot true)))
    refine ⟨⟨hended.slot.own, hended.slot.registered⟩,
      ⟨hended.held.driving, hended.held.holder, hended.held.running⟩, hended.aimed.found, ?_, ?_⟩
    · intro pair hpair
      rcases List.mem_append.mp hpair with hpair | hpair
      · exact h.aimed.delivery.aimed pair hpair
      · rw [List.mem_singleton.mp hpair]
        exact hflag
    · intro m hm
      by_cases heq : m = flag
      · refine List.mem_append_right _ (List.mem_singleton.mpr ?_)
        rw [heq, hflag]
      · change (if m = flag then true else c.requested m) = true at hm
        rw [if_neg heq] at hm
        exact List.mem_append_left _ (h.aimed.delivery.requested m hm)
  | agentAction =>
    dsimp only
    cases hholder : c.executor.holder with
    | some m => exact h
    | none =>
      dsimp only
      split
      · exact hends _
      · exact h.hold hholder (by rw [hcall]; rfl) rfl (by rw [hcall]; rfl)

theorem cancelAgentTurn_none (acknowledged : Result Unit) (sessionId : SessionId) :
    ∃ e, cancelAgentTurn none acknowledged sessionId = .error e := by
  unfold cancelAgentTurn
  cases Jcode.Sessions.validateJcodeSessionId sessionId with
  | error e => exact ⟨e, rfl⟩
  | ok valid => exact ⟨_, rfl⟩

/-- **A stop never stops an action turn.**  It holds the executor while the agent's `cancel` runs,
    so no call is driving a turn of the agent. -/
theorem action_turn_never_stopped {project : ProjectId} {conversation : ConversationId}
    {found : ActiveChatTurn} (h : Inv c)
    (hcall : c.calls n = .cancelDriving project conversation found) (w : World) :
    ∃ e, cancelPersistedConversationTurn platform c.running w = .error e := by
  have hheld := h.held.driving n (by rw [hcall]; rfl)
  have hnone : c.running = none := by
    refine h.held.not_running (fun m hm => ?_)
    rw [hheld] at hm
    injection hm with hm
    rw [← hm, hcall]
    rfl
  rw [hnone]
  unfold cancelPersistedConversationTurn
  cases cancelSession platform.runtimeId w.loadConversation with
  | error e => exact ⟨e, rfl⟩
  | ok sessionId => exact cancelAgentTurn_none w.acknowledged sessionId

theorem Inv.driveCancel {project : ProjectId} {conversation : ConversationId}
    {found : ActiveChatTurn} (h : Inv c)
    (hcall : c.calls n = .cancelDriving project conversation found) (w : World) :
    Inv (Host.driveCancel platform c n found w) := by
  have hdriving : (c.calls n).driving = true := by rw [hcall]; rfl
  unfold Host.driveCancel
  split
  · exact h.release hdriving true (by rw [hcall]; rfl) rfl rfl
  · obtain ⟨e, he⟩ := action_turn_never_stopped platform h hcall w
    rw [he]
    exact h.release hdriving false (by rw [hcall]; rfl) rfl rfl

theorem Inv.advance (h : Inv c) (w : World) : Inv (Host.advance platform c n w) := by
  unfold Host.advance
  cases hcall : c.calls n with
  | unstarted => exact h
  | sendEntered arguments =>
    dsimp only
    split
    · exact h.pass (by rw [hcall]; rfl) (by rw [hcall]; rfl) rfl rfl
    · exact h.pass (by rw [hcall]; rfl) (by rw [hcall]; rfl) rfl rfl
  | sendChecked turn =>
    cases hslot : c.activeTurn with
    | some active =>
      have hrefused : Host.register c n turn =
          c.finish n (.error (hostError "android_chat_turn_already_active")) := by
        unfold Host.register
        rw [hslot]
      change Inv (Host.register c n turn)
      rw [hrefused]
      exact h.pass (by rw [hcall]; rfl) (by rw [hcall]; rfl) rfl rfl
    | none => exact h.register hslot hcall
  | sendRegistered turn => exact h.lockForTurn hcall
  | sendDriving turn => exact h.driveTurn platform hcall w.drive
  | sendReturned turn answer => exact h.dropRegistration hcall
  | cancelEntered arguments => exact h.lookForTurn platform hcall
  | cancelFound project conversation found => exact h.deliver platform hcall
  | cancelDriving project conversation found => exact h.driveCancel platform hcall w
  | finished answer => exact h

theorem Inv.handle (h : Inv c) (e : Event) : Inv (Host.handle platform c e) := by
  cases e with
  | start n call =>
    unfold Host.handle
    dsimp only
    split
    · rename_i hcall
      refine h.pass ?_ (by rw [hcall]; rfl) ?_ ?_ <;> cases call <;> first | rfl | (rw [hcall]; rfl)
    · exact h
  | step n w => exact h.advance platform w

end Steps

/-! ## What a stop waits for -/

/-- The stop needs the executor, and the very turn it found holds it. -/
def WaitsForTurn (c : Controller) (found : ActiveChatTurn) : Prop :=
  found.cancellation = .agentAction ∧ c.executor.holder = some found.call ∧
    ∃ turn, c.calls found.call = .sendDriving turn

/-- No stop that has found its turn waits for that turn. -/
def Reaches (c : Controller) : Prop :=
  ∀ n found, (c.calls n).undelivered = some found → ¬ WaitsForTurn c found

/-- What is promised of every state. -/
structure Lawful (c : Controller) : Prop where
  one : ∀ m n turn other, (c.calls m).registration = some turn →
    (c.calls n).registration = some other → m = n
  slot : Slot c
  delivery : Delivery c
  reaches : Reaches c

/-- The step of a call in this phase is no lookup that finds an action turn while its call drives
    it, and starts to drive no action turn that a waiting stop has found. -/
def StepReaches (c : Controller) (n : Nat) : Phase → Prop
  | .cancelEntered arguments =>
    ∀ project conversation found, arguments.parse = .ok (project, conversation) →
      c.current = .ok () → c.findTurn project conversation = some found → ¬ WaitsForTurn c found
  | .sendRegistered _ =>
    c.executor.holder = none → c.executor.poisoned = false →
      ∀ m found, (c.calls m).undelivered = some found → found.cancellation = .agentAction →
        found.call ≠ n
  | _ => True

/-- Every stop can still be delivered after the event. -/
def StopGetsThrough (c : Controller) : Event → Prop
  | .start _ _ => True
  | .step n _ => StepReaches c n (c.calls n)

section Reach

variable {c : Controller} {n : Nat} {phase : Phase} (platform : Platform)

/-- A delivery waits just when it needs the executor and somebody holds it. -/
theorem deliver_waits {project : ProjectId} {conversation : ConversationId}
    {found : ActiveChatTurn} (hcall : c.calls n = .cancelFound project conversation found)
    (w : World) : ((advance platform c n w).calls n).undelivered = some found ↔
      found.cancellation = .agentAction ∧ c.executor.holder ≠ none := by
  have hstep : advance platform c n w = deliver platform c n project conversation found := by
    unfold advance
    rw [hcall]
  rw [hstep]
  unfold deliver
  cases hcancellation : found.cancellation with
  | model flag =>
    dsimp only
    refine ⟨fun hcontra => ?_, fun h => by cases h.1⟩
    change ((c.finish n _).calls n).undelivered = some found at hcontra
    unfold Controller.finish at hcontra
    rw [Controller.moveTo_self] at hcontra
    cases hcontra
  | agentAction =>
    dsimp only
    cases hholder : c.executor.holder with
    | some m =>
      dsimp only
      rw [hcall]
      exact ⟨fun _ => ⟨rfl, (fun h => by cases h)⟩, fun _ => rfl⟩
    | none =>
      refine ⟨fun hcontra => ?_, fun h => absurd rfl h.2⟩
      dsimp only at hcontra
      split at hcontra
      · unfold Controller.finish at hcontra
        rw [Controller.moveTo_self] at hcontra
        cases hcontra
      · change ((c.moveTo n _).calls n).undelivered = some found at hcontra
        rw [Controller.moveTo_self] at hcontra
        cases hcontra

/-- A call that goes on without taking the executor starts no waiting. -/
theorem Reaches.move (h : Reaches c) (hphase : phase.undelivered = none)
    (hnot : ∀ turn, phase ≠ .sendDriving turn) : Reaches (c.moveTo n phase) := by
  rintro m found hm ⟨hcancellation, hholder, turn, hturn⟩
  obtain ⟨-, hm⟩ := Controller.moveTo_lost hphase hm
  have hne : found.call ≠ n := by
    intro heq
    rw [heq, Controller.moveTo_self] at hturn
    exact hnot turn hturn
  rw [Controller.moveTo_other hne] at hturn
  exact h m found hm ⟨hcancellation, hholder, turn, hturn⟩

/-- A free executor keeps no stop waiting. -/
theorem Reaches.free (hfree : c.executor.holder = none) : Reaches c := by
  rintro m found - ⟨-, hholder, -⟩
  rw [hfree] at hholder
  cases hholder

theorem Reaches.lockForTurn {turn : SendTurn} (h : Reaches c)
    (hcall : c.calls n = .sendRegistered turn) (hok : StepReaches c n (c.calls n)) :
    Reaches (Host.lockForTurn c n turn) := by
  unfold Host.lockForTurn
  cases hholder : c.executor.holder with
  | some m => exact h
  | none =>
    dsimp only
    split
    · exact h.move rfl (fun _ => nofun)
    · rename_i hpoisoned
      rw [hcall] at hok
      rintro m found hm ⟨hcancellation, hheld, -⟩
      injection hheld with hheld
      have hfree : Phase.undelivered (.sendDriving turn) = none := rfl
      exact hok hholder (Bool.eq_false_of_not_eq_true hpoisoned) m found
        (Controller.moveTo_lost hfree hm).2 hcancellation hheld.symm

theorem Reaches.lookForTurn {arguments : CancelArguments} (h : Reaches c)
    (hcall : c.calls n = .cancelEntered arguments) (hok : StepReaches c n (c.calls n)) :
    Reaches (Host.lookForTurn platform c n arguments) := by
  have hends : ∀ bytes, Reaches (c.finish n bytes) := fun bytes => h.move rfl (fun _ => nofun)
  unfold Host.lookForTurn
  split
  · exact hends _
  · exact hends _
  · rename_i project conversation hparse hcurrent
    split
    · exact hends _
    · rename_i found hfound
      rw [hcall] at hok
      have hnot := hok project conversation found hparse hcurrent hfound
      rintro m other hm ⟨hcancellation, hholder, turn, hturn⟩
      have hne : other.call ≠ n := by
        intro heq
        rw [heq, Controller.moveTo_self] at hturn
        cases hturn
      rw [Controller.moveTo_other hne] at hturn
      by_cases heq : m = n
      · rw [heq, Controller.moveTo_self] at hm
        injection hm with hm
        subst hm
        exact hnot ⟨hcancellation, hholder, turn, hturn⟩
      · rw [Controller.moveTo_other heq] at hm
        exact h m other hm ⟨hcancellation, hholder, turn, hturn⟩

theorem Reaches.deliver {project : ProjectId} {conversation : ConversationId}
    {found : ActiveChatTurn} (h : Reaches c) :
    Reaches (Host.deliver platform c n project conversation found) := by
  have hends : ∀ bytes, Reaches (c.finish n bytes) := fun bytes => h.move rfl (fun _ => nofun)
  unfold Host.deliver
  cases found.cancellation with
  | model flag => exact hends _
  | agentAction =>
    dsimp only
    split
    · exact h
    · split
      · exact hends _
      · -- the executor is held by a stop, and no turn is driven by one
        rintro m other - ⟨-, hheld, turn, hturn⟩
        injection hheld with hheld
        change (c.moveTo n _).calls other.call = .sendDriving turn at hturn
        rw [← hheld, Controller.moveTo_self] at hturn
        cases hturn

theorem Reaches.advance (h : Reaches c) (w : World) (hok : StepReaches c n (c.calls n)) :
    Reaches (Host.advance platform c n w) := by
  unfold Host.advance
  cases hcall : c.calls n with
  | unstarted => exact h
  | sendEntered arguments =>
    dsimp only
    split
    · exact h.move rfl (fun _ => nofun)
    · exact h.move rfl (fun _ => nofun)
  | sendChecked turn =>
    dsimp only
    unfold Host.register
    split
    · exact h.move rfl (fun _ => nofun)
    · exact h.move rfl (fun _ => nofun)
  | sendRegistered turn => exact h.lockForTurn hcall hok
  | sendDriving turn =>
    dsimp only
    unfold Host.driveTurn
    split
    · split
      · exact h
      · exact h
    · exact h
    · exact Reaches.free rfl
    · exact Reaches.free rfl
  | sendReturned turn answer =>
    dsimp only
    unfold Controller.dropRegistration
    split
    · exact h.move rfl (fun _ => nofun)
    · split
      · exact h.move rfl (fun _ => nofun)
      · exact h.move rfl (fun _ => nofun)
  | cancelEntered arguments => exact h.lookForTurn platform hcall hok
  | cancelFound project conversation found => exact h.deliver platform
  | cancelDriving project conversation found =>
    dsimp only
    unfold Host.driveCancel
    split
    · exact Reaches.free rfl
    · split
      · exact Reaches.free rfl
      · exact Reaches.free rfl
  | finished answer => exact h

theorem Reaches.handle (h : Reaches c) (e : Event) (hok : StopGetsThrough c e) :
    Reaches (Host.handle platform c e) := by
  cases e with
  | start n call =>
    unfold Host.handle
    dsimp only
    split
    · cases call with
      | send arguments => exact h.move rfl (fun _ => nofun)
      | cancel arguments => exact h.move rfl (fun _ => nofun)
    · exact h
  | step n w => exact h.advance platform w hok

/-- A step that breaks the discipline leaves a stop that waits for its own turn. -/
theorem not_reaches (e : Event) (hno : ¬ StopGetsThrough c e) :
    ¬ Reaches (Host.handle platform c e) := by
  intro hreaches
  apply hno
  cases e with
  | start n call => trivial
  | step n w =>
    change StepReaches c n (c.calls n)
    cases hcall : c.calls n with
    | cancelEntered arguments =>
      rintro project conversation found hparse hcurrent hfound ⟨hcancellation, hholder, turn, hturn⟩
      have hstep : Host.handle platform c (.step n w) =
          c.moveTo n (.cancelFound project conversation found) := by
        change advance platform c n w = _
        unfold advance
        rw [hcall]
        dsimp only
        unfold lookForTurn
        rw [hparse, hcurrent]
        dsimp only
        rw [hfound]
      have hne : found.call ≠ n := by
        intro heq
        rw [heq, hcall] at hturn
        cases hturn
      rw [hstep] at hreaches
      refine hreaches n found ?_ ⟨hcancellation, hholder, turn, ?_⟩
      · rw [Controller.moveTo_self]
        rfl
      · rw [Controller.moveTo_other hne]
        exact hturn
    | sendRegistered turn =>
      intro hholder hpoisoned m found hm hcancellation heq
      have hstep : Host.handle platform c (.step n w) = c.hold n (.sendDriving turn) := by
        change advance platform c n w = _
        unfold advance
        rw [hcall]
        dsimp only
        unfold lockForTurn
        rw [hholder, hpoisoned]
        rfl
      have hne : m ≠ n := by
        rintro rfl
        rw [hcall] at hm
        cases hm
      rw [hstep] at hreaches
      refine hreaches m found ?_ ⟨hcancellation, congrArg some heq.symm, turn, ?_⟩
      · change ((c.moveTo n _).calls m).undelivered = some found
        rw [Controller.moveTo_other hne]
        exact hm
      · change (c.moveTo n _).calls found.call = _
        rw [heq, Controller.moveTo_self]
    | _ => trivial

end Reach

/-! ## Runs -/

theorem Inv.lawful {c : Controller} (h : Inv c) (hreaches : Reaches c) : Lawful c where
  one := by
    intro m n turn other hm hn
    have hentry := (h.slot.own m turn hm).symm.trans (h.slot.own n other hn)
    injection hentry with hentry
    exact congrArg ActiveChatTurn.call hentry
  slot := h.slot
  delivery := h.aimed.delivery
  reaches := hreaches

/-- **Chat stop.**  In every interleaving of turns and stops, every state is lawful just when each
    step lets the stops through. -/
theorem chat_stop_law (platform : Platform) (initialized : Bool) (selectedModel : Option ModelRef)
    (events : List Event) :
    Always (handle platform) Lawful (Controller.idle initialized selectedModel) events ↔
      Disciplined (handle platform) StopGetsThrough (Controller.idle initialized selectedModel)
        events := by
  refine always_iff_disciplined (handle platform) (I := fun c => Inv c ∧ Reaches c) ?_ ?_ ?_ ?_
    events
  · intro c e hc hok
    exact ⟨hc.1.handle platform e, hc.2.handle platform e hok⟩
  · intro c hc
    exact hc.1.lawful hc.2
  · intro c e _ hno hlawful
    exact not_reaches platform e hno hlawful.reaches
  · exact ⟨Inv.idle initialized selectedModel, Reaches.free rfl⟩

/-- A platform whose letters are those of ASCII. -/
def plainPlatform : Platform where
  toLowercase c := [c.toLower]
  isAlphanumeric := Char.isAlphanum
  sendJson _ := some "\x7b\x7d".toUTF8.toList
  cancelJson _ := some "\x7b\x7d".toUTF8.toList
  runtimeId := "jcode"

def calmWorld : World where
  drive := .agentTurnBegins ⟨"session"⟩
  loadConversation := .ok none
  acknowledged := .ok ()
  panics := false

def chatId : List UInt8 := "00000000-0000-4000-8000-000000000001".toUTF8.toList

/-- An action turn is driven when its stop is called. -/
def stoppedAction : List Event :=
  [.start 0 (.send ⟨some chatId, some chatId, some "please fix the app".toUTF8.toList⟩),
    .step 0 calmWorld, .step 0 calmWorld, .step 0 calmWorld, .step 0 calmWorld,
    .start 1 (.cancel ⟨some chatId, some chatId⟩), .step 1 calmWorld]

/-- A stop that is called while the turn runs waits until the turn has ended. -/
theorem stop_waits_for_its_turn :
    ¬ ∀ (platform : Platform) (initialized : Bool) (selectedModel : Option ModelRef)
      (events : List Event),
      Always (handle platform) Lawful (Controller.idle initialized selectedModel) events := by
  intro hall
  have hlast := (hall plainPlatform true (some ⟨"model", none, none⟩) stoppedAction).last
  have hfound : ∃ found, ((play (handle plainPlatform)
      (Controller.idle true (some ⟨"model", none, none⟩)) stoppedAction).calls 1).undelivered =
        some found ∧ found.cancellation = .agentAction ∧ found.call = 0 := by
    refine ⟨⟨⟨0x40008000000000000001#128⟩, ⟨0x40008000000000000001#128⟩,
      .agentAction, 0⟩, ?_, rfl, rfl⟩
    decide +kernel
  obtain ⟨found, hfound, hcancellation, hcall⟩ := hfound
  refine hlast.reaches 1 found hfound ⟨hcancellation, ?_, ?_⟩
  · rw [hcall]
    decide +kernel
  · have hacting : ((play (handle plainPlatform)
        (Controller.idle true (some ⟨"model", none, none⟩)) stoppedAction).calls 0).acting =
          true := by decide +kernel
    rw [hcall]
    cases hphase : (play (handle plainPlatform)
        (Controller.idle true (some ⟨"model", none, none⟩)) stoppedAction).calls 0 with
    | sendDriving turn => exact ⟨turn, rfl⟩
    | _ =>
      rw [hphase] at hacting
      cases hacting

end VibeCoder.Host
