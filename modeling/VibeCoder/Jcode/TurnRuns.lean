/-
  Turns of the Jcode adapter (`run_turn`, `cancel` and `ActiveTurnLease`,
  `vibecoder-agent-jcode/src/{runtime,turn}.rs`): their leases, their worker threads and the
  cancels, in any order.

  One event is what happens between two points at which another thread can run.  A turn is a
  future holding a lease and a worker thread; the future can be dropped at its only await, and
  then the lease asks Jcode to cancel and clears the slot, with the worker still running.

  1. **The slot.**  Ghost `owner` is the number of the turn whose `begin` filled the slot.  The
     code has no such number: `foreign` records every time one turn's completion, cancel or
     cleanup changes the entry of another.

  2. **The law** (`Isolated`) — nothing is done to another turn's entry, a cancel finds every
     turn that is running and not dropped, and an empty slot means that no worker runs.

  3. **When it holds** — exactly as long as no lease clears the slot of a worker that is still
     running (`turn_isolation_law`).  After such a drop the next turn of the session starts
     beside the old worker, whose late completion marks the new entry (`not_every_run_isolated`).
-/
import VibeCoder.Lib.Run
import VibeCoder.Jcode.TurnRegistry

namespace VibeCoder.Jcode

/-! ## The system -/

/-- The blocking worker thread of a turn; `completion` is what `mark_worker_finished` answered. -/
inductive Worker where
  | unspawned
  | running
  | returned (completion : Result Unit)
  | panicked
  deriving DecidableEq

/-- The `ActiveTurnLease` a `run_turn` future holds. -/
inductive Lease where
  | held
  | dropping
  | gone
  deriving DecidableEq

/-- A `run_turn` call that has passed `begin`. -/
structure Turn where
  sessionId : SessionId
  generation : Nat
  worker : Worker
  lease : Lease
  deriving DecidableEq

/-- Who holds `control_gate` between two events. -/
inductive Control where
  /-- `cancel`, waiting for Jcode's acknowledgement; it holds the session gate as well. -/
  | cancel (sessionId : SessionId) (found : Nat)
  /-- The drop of a lease, waiting for its best-effort cancel. -/
  | drop (turn : Nat)
  deriving DecidableEq

/-- The registry, the gates and all turns so far; `owner` and `foreign` are ghosts. -/
structure TurnSystem where
  registry : TurnRegistry
  control : Option Control
  turns : List Turn
  owner : Option Nat
  foreign : List Nat
  deriving DecidableEq

inductive Event where
  /-- `run_turn` up to `begin`, under the session gate. -/
  | startTurn (sessionId : SessionId) (generation : Nat)
  /-- `Builder::spawn`. -/
  | spawn (turn : Nat) (ok : Bool)
  /-- The worker's SDK call is over, and `mark_worker_finished`. -/
  | workerFinished (turn : Nat)
  | workerPanicked (turn : Nat)
  /-- The future is polled after its worker ended: `worker_completion?` and `lease.complete()`. -/
  | wake (turn : Nat)
  /-- The caller drops the future at `receiver.await`. -/
  | dropFuture (turn : Nat)
  /-- `Drop` of the lease takes `control_gate` and sends its cancel. -/
  | leaseDropped (turn : Nat)
  /-- `Drop` of the lease goes on to `force_clear`. -/
  | leaseCleared (turn : Nat)
  /-- `cancel` up to the network call; `verified` is the outcome of its checks of the
      connection, the binding and the attachment. -/
  | cancel (sessionId : SessionId) (verified : Bool)
  /-- Jcode answered the cancel. -/
  | cancelAnswered (ok : Bool)

namespace TurnSystem

/-- `TurnRegistry::new()` and no turns. -/
def new : TurnSystem :=
  { registry := TurnRegistry.new, control := none, turns := [], owner := none, foreign := [] }

def setTurn (s : TurnSystem) (k : Nat) (t : Turn) : TurnSystem := { s with turns := s.turns.set k t }

/-- A completion, cancel or cleanup of turn `k` leaves `registry`. -/
def write (s : TurnSystem) (k : Nat) (registry : TurnRegistry) : TurnSystem :=
  { s with
    registry := registry
    owner := if registry.hasActive then s.owner else none
    foreign := if registry = s.registry ∨ s.owner = some k then s.foreign else s.foreign ++ [k] }

/-- The session gate is taken: a `cancel` holds it through its network call. -/
def gateTaken (s : TurnSystem) : Bool :=
  match s.control with
  | some (.cancel _ _) => true
  | _ => false

end TurnSystem

/-- The future of turn `k` is polled after its worker has ended. -/
def wake (s : TurnSystem) (k : Nat) (t : Turn) : TurnSystem :=
  match t.worker with
  | .unspawned | .running => s
  | .panicked | .returned (.error _) => s.setTurn k { t with lease := .dropping }
  | .returned (.ok ()) =>
    -- `finish` waits for the control gate
    if s.control ≠ none then s
    else
      match s.registry.finish t.sessionId t.generation with
      | (.error _, _) => s.setTurn k { t with lease := .dropping }
      | (.ok _, registry) => (s.write k registry).setTurn k { t with lease := .gone }

/-- One event; an event that is not possible changes nothing. -/
def step (s : TurnSystem) : Event → TurnSystem
  | .startTurn sessionId generation =>
    if s.gateTaken then s
    else
      match s.registry.begin sessionId generation with
      | (.error _, _) => s
      | (.ok (), registry) =>
        { s with
          registry := registry
          owner := some s.turns.length
          turns := s.turns ++ [{
            sessionId := sessionId
            generation := generation
            worker := .unspawned
            lease := .held }] }
  | .spawn k ok =>
    match s.turns[k]? with
    | none => s
    | some t =>
      if t.worker = .unspawned ∧ t.lease = .held then
        -- without a thread the call returns an error and drops its lease
        s.setTurn k (if ok then { t with worker := .running } else { t with lease := .dropping })
      else s
  | .workerFinished k =>
    match s.turns[k]? with
    | none => s
    | some t =>
      if t.worker = .running then
        (s.write k (s.registry.markWorkerFinished t.sessionId t.generation).2).setTurn k
          { t with
            worker := .returned (s.registry.markWorkerFinished t.sessionId t.generation).1 }
      else s
  | .workerPanicked k =>
    match s.turns[k]? with
    | none => s
    | some t => if t.worker = .running then s.setTurn k { t with worker := .panicked } else s
  | .wake k =>
    match s.turns[k]? with
    | none => s
    | some t => if t.lease = .held then wake s k t else s
  | .dropFuture k =>
    match s.turns[k]? with
    | none => s
    | some t =>
      if t.lease = .held ∧ t.worker ≠ .unspawned then s.setTurn k { t with lease := .dropping }
      else s
  | .leaseDropped k =>
    match s.turns[k]? with
    | none => s
    | some t =>
      if t.lease = .dropping ∧ s.control = none then { s with control := some (.drop k) } else s
  | .leaseCleared k =>
    match s.turns[k]? with
    | none => s
    | some t =>
      if s.control = some (.drop k) then
        { (s.write k (s.registry.forceClear t.sessionId t.generation)).setTurn k
            { t with lease := .gone } with control := none }
      else s
  | .cancel sessionId verified =>
    if s.control ≠ none then s
    else
      match s.registry.activeGeneration sessionId, s.owner with
      | some _, some k =>
        if verified then { s with control := some (.cancel sessionId k) } else s
      | some _, none => s
      | none, _ => s
  | .cancelAnswered ok =>
    match s.control with
    | some (.cancel sessionId k) =>
      if ok then
        { s.write k (s.registry.markCancelAcknowledged sessionId).2 with control := none }
      else { s with control := none }
    | _ => s

/-! ## The law -/

/-- The worker of the turn has not ended. -/
def Turn.unfinished (t : Turn) : Prop := t.worker = .unspawned ∨ t.worker = .running

/-- **Turn isolation** in one state. -/
structure Isolated (s : TurnSystem) : Prop where
  own : s.foreign = []
  found : ∀ k t, s.turns[k]? = some t → t.unfinished → t.lease = .held →
    s.owner = some k ∧ s.registry.activeGeneration t.sessionId = some t.generation
  quiet : s.registry.hasActive = false → ∀ t ∈ s.turns, t.worker ≠ .running
  single : ∀ (j k : Nat) (t u : Turn), s.turns[j]? = some t → s.turns[k]? = some u →
    t.worker = .running → u.worker = .running → j = k
  quiescent : ∀ root, ensureWorkspaceQuiescent s.registry root = .ok () →
    ∀ t ∈ s.turns, t.worker ≠ .running

/-- No lease clears the slot while the worker of its turn is running. -/
def WorkerEnded (s : TurnSystem) : Event → Prop
  | .leaseCleared k => s.control = some (.drop k) →
    ∀ t, s.turns[k]? = some t → t.worker ≠ .running
  | _ => True

/-- The flag `mark_worker_finished` left in the entry of the turn. -/
def Worker.marked : Worker → Bool
  | .returned (.ok ()) => true
  | _ => false

/-- What the gate's holder knows: the slot is that of its own turn. -/
def Control.Sound (s : TurnSystem) : Control → Prop
  | .cancel sessionId k => s.owner = some k ∧ ∃ t, s.turns[k]? = some t ∧ t.sessionId = sessionId
  | .drop k => s.owner = some k

/-- What carries the law along a run: the slot is empty or that of `owner`, and every other turn
    is over. -/
structure Inv (s : TurnSystem) : Prop where
  own : s.foreign = []
  slot : ∀ k, s.owner = some k → ∃ t cancelled, s.turns[k]? = some t ∧ t.lease ≠ .gone ∧
    s.registry.active = some ⟨t.sessionId, t.generation, cancelled, t.worker.marked⟩
  idle : s.owner = none → s.registry.active = none
  others : ∀ k t, s.turns[k]? = some t → s.owner ≠ some k → t.worker ≠ .running ∧ t.lease = .gone
  control : ∀ c, s.control = some c → c.Sound s

theorem inv_new : Inv TurnSystem.new :=
  ⟨rfl, fun _ h => (by cases h), fun _ => rfl, fun _ _ h => (by cases h), fun _ h => (by cases h)⟩

/-! ## What one event preserves -/

/-- A turn that is not over owns the slot. -/
theorem Inv.owner_of {s : TurnSystem} (h : Inv s) {k : Nat} {t : Turn} (ht : s.turns[k]? = some t)
    (hbusy : t.worker = .running ∨ t.lease ≠ .gone) : s.owner = some k := by
  by_contra howner
  have hover := h.others k t ht howner
  rcases hbusy with hrun | hlease
  · exact hover.1 hrun
  · exact hlease hover.2

/-- The entry of the owner. -/
theorem Inv.active_of {s : TurnSystem} (h : Inv s) {k : Nat} {t : Turn} (ht : s.turns[k]? = some t)
    (howner : s.owner = some k) : t.lease ≠ .gone ∧ ∃ cancelled, s.registry.active =
      some ⟨t.sessionId, t.generation, cancelled, t.worker.marked⟩ := by
  obtain ⟨u, cancelled, hu, hlease, hactive⟩ := h.slot k howner
  rw [ht] at hu
  cases hu
  exact ⟨hlease, cancelled, hactive⟩

/-- The owner keeps its slot and changes its turn and its entry. -/
theorem Inv.keep {s : TurnSystem} (h : Inv s) {k : Nat} {t v : Turn} {r : TurnRegistry}
    {b : Bool} (ht : s.turns[k]? = some t) (howner : s.owner = some k)
    (hsession : v.sessionId = t.sessionId) (hlease : v.lease ≠ .gone)
    (hactive : r.active =
      some ⟨v.sessionId, v.generation, b, v.worker.marked⟩) :
    Inv { s with registry := r, turns := s.turns.set k v } := by
  have hlt : k < s.turns.length := (List.getElem?_eq_some_iff.mp ht).1
  have hself : (s.turns.set k v)[k]? = some v := List.getElem?_set_self hlt
  refine ⟨h.own, fun j hj => ?_, fun hnone => ?_, fun j u hu hj => ?_, fun c hc => ?_⟩
  · have hjk : j = k := by
      have hsome : some j = some k := hj.symm.trans howner
      exact Option.some.inj hsome
    subst hjk
    exact ⟨v, b, hself, hlease, hactive⟩
  · have hcontra : s.owner = none := hnone
    rw [howner] at hcontra
    cases hcontra
  · have hne : k ≠ j := fun heq => hj (heq ▸ howner)
    have hu' : s.turns[j]? = some u := by
      rw [← hu]
      exact (List.getElem?_set_ne hne).symm
    exact h.others j u hu' hj
  · have hsound := h.control c hc
    cases c with
    | cancel sessionId j =>
      obtain ⟨hj, u, hu, hus⟩ := hsound
      have hjk : j = k := Option.some.inj (hj.symm.trans howner)
      subst hjk
      rw [ht] at hu
      cases hu
      exact ⟨hj, v, hself, hsession.trans hus⟩
    | drop j => exact hsound

/-- The owner gives its slot up. -/
theorem Inv.close {s : TurnSystem} (h : Inv s) {k : Nat} {v : Turn} (howner : s.owner = some k)
    (hworker : v.worker ≠ .running) (hlease : v.lease = .gone) :
    Inv { s with
      registry := { active := none }, control := none, owner := none
      turns := s.turns.set k v } := by
  refine ⟨h.own, fun j hj => (by cases hj), fun _ => rfl, fun j u hu _ => ?_,
    fun c hc => (by cases hc)⟩
  have hu : (s.turns.set k v)[j]? = some u := hu
  by_cases hjk : k = j
  · subst hjk
    rw [List.getElem?_set] at hu
    split at hu
    · split at hu
      · cases hu
        exact ⟨hworker, hlease⟩
      · cases hu
    · exact absurd rfl ‹_›
  · rw [List.getElem?_set_ne hjk] at hu
    have hne : s.owner ≠ some j := by
      rw [howner]
      exact fun heq => hjk (Option.some.inj heq)
    exact h.others j u hu hne

theorem write_active {s : TurnSystem} {k : Nat} {registry : TurnRegistry} (howner : s.owner = some k)
    (hactive : registry.hasActive = true) : s.write k registry = { s with registry := registry } := by
  unfold TurnSystem.write
  rw [if_pos hactive, if_pos (Or.inr howner)]

theorem write_empty {s : TurnSystem} {k : Nat} (howner : s.owner = some k) :
    s.write k { active := none } = { s with registry := { active := none }, owner := none } := by
  unfold TurnSystem.write
  rw [if_pos (Or.inr howner)]
  rfl

/-- **Step lemma.** -/
theorem inv_step (s : TurnSystem) (event : Event) (h : Inv s) (hok : WorkerEnded s event) :
    Inv (step s event) := by
  cases event with
  | startTurn sessionId generation =>
    rw [step]
    split
    · exact h
    · rename_i hgate
      rcases hbegin : s.registry.begin sessionId generation with ⟨answer, registry⟩
      cases answer with
      | error e => exact h
      | ok u =>
        obtain ⟨hempty, hfilled⟩ := TurnRegistry.begin_ok hbegin
        have hnone : s.owner = none := by
          cases howner : s.owner with
          | none => rfl
          | some j =>
            obtain ⟨t, cancelled, -, -, hactive⟩ := h.slot j howner
            rw [hempty] at hactive
            cases hactive
        refine ⟨h.own, fun j hj => ?_, fun hcontra => (by cases hcontra), fun j u hu hj => ?_,
          fun c hc => ?_⟩
        · cases hj
          exact ⟨_, false, List.getElem?_concat_length, fun hgone => (by cases hgone), hfilled⟩
        · -- every earlier turn was over, since the slot was empty
          have hlt : j ≠ s.turns.length := fun heq => hj (congrArg some heq.symm)
          have hu : (s.turns ++ [_])[j]? = some u := hu
          rw [List.getElem?_append] at hu
          split at hu
          · exact h.others j u hu (by rw [hnone]; exact fun hcontra => (by cases hcontra))
          · have hpos : j - s.turns.length ≠ 0 := by omega
            rw [List.getElem?_cons, if_neg hpos] at hu
            cases hu
        · have hsound := h.control c hc
          cases c with
          | cancel session j => exact absurd (hnone.symm.trans hsound.1) (fun hcontra => by cases hcontra)
          | drop j =>
            have hj : s.owner = some j := hsound
            rw [hnone] at hj
            cases hj
  | spawn k ok =>
    rw [step]
    cases ht : s.turns[k]? with
    | none => exact h
    | some t =>
      dsimp only
      split
      · rename_i hcond
        have howner := h.owner_of ht (Or.inr (by rw [hcond.2]; exact fun hcontra => by cases hcontra))
        obtain ⟨-, cancelled, hactive⟩ := h.active_of ht howner
        rw [hcond.1] at hactive
        cases ok with
        | true =>
          refine h.keep ht howner rfl ?_ hactive
          rw [hcond.2]
          exact fun hcontra => by cases hcontra
        | false =>
          refine h.keep (v := { t with lease := .dropping }) ht howner rfl
            (fun hcontra => by cases hcontra) (b := cancelled) ?_
          rw [hactive, hcond.1]
      · exact h
  | workerFinished k =>
    rw [step]
    cases ht : s.turns[k]? with
    | none => exact h
    | some t =>
      dsimp only
      split
      · rename_i hrun
        have howner := h.owner_of ht (Or.inl hrun)
        obtain ⟨hlease, cancelled, hactive⟩ := h.active_of ht howner
        rw [TurnRegistry.markWorkerFinished_own hactive, write_active howner rfl]
        exact h.keep ht howner rfl hlease rfl
      · exact h
  | workerPanicked k =>
    rw [step]
    cases ht : s.turns[k]? with
    | none => exact h
    | some t =>
      dsimp only
      split
      · rename_i hrun
        have howner := h.owner_of ht (Or.inl hrun)
        obtain ⟨hlease, cancelled, hactive⟩ := h.active_of ht howner
        rw [hrun] at hactive
        exact h.keep (v := { t with worker := .panicked }) ht howner rfl hlease hactive
      · exact h
  | wake k =>
    rw [step]
    cases ht : s.turns[k]? with
    | none => exact h
    | some t =>
      dsimp only
      split
      · rename_i hheld
        have howner := h.owner_of ht (Or.inr (by rw [hheld]; exact fun hcontra => by cases hcontra))
        obtain ⟨-, cancelled, hactive⟩ := h.active_of ht howner
        have hdrop : Inv (s.setTurn k { t with lease := .dropping }) :=
          h.keep (v := { t with lease := .dropping }) ht howner rfl
            (fun hcontra => by cases hcontra) hactive
        unfold wake
        split
        · exact h
        · exact h
        · exact hdrop
        · exact hdrop
        · rename_i hworker
          split
          · exact h
          · rename_i hfree
            have hfree : s.control = none := not_not.mp hfree
            rw [TurnRegistry.finish_own hactive]
            dsimp only
            rw [write_empty howner]
            have hclosed := h.close (v := { t with lease := .gone }) howner
              (by rw [hworker]; exact fun hcontra => by cases hcontra) rfl
            rw [← hfree] at hclosed
            exact hclosed
      · exact h
  | dropFuture k =>
    rw [step]
    cases ht : s.turns[k]? with
    | none => exact h
    | some t =>
      dsimp only
      split
      · rename_i hcond
        have howner := h.owner_of ht (Or.inr (by rw [hcond.1]; exact fun hcontra => by cases hcontra))
        obtain ⟨-, cancelled, hactive⟩ := h.active_of ht howner
        exact h.keep (v := { t with lease := .dropping }) ht howner rfl
          (fun hcontra => by cases hcontra) hactive
      · exact h
  | leaseDropped k =>
    rw [step]
    cases ht : s.turns[k]? with
    | none => exact h
    | some t =>
      dsimp only
      split
      · rename_i hcond
        have howner := h.owner_of ht (Or.inr (by rw [hcond.1]; exact fun hcontra => by cases hcontra))
        refine ⟨h.own, h.slot, h.idle, h.others, fun c hc => ?_⟩
        cases hc
        exact howner
      · exact h
  | leaseCleared k =>
    rw [step]
    cases ht : s.turns[k]? with
    | none => exact h
    | some t =>
      dsimp only
      split
      · rename_i hcontrol
        have howner : s.owner = some k := h.control _ hcontrol
        obtain ⟨-, cancelled, hactive⟩ := h.active_of ht howner
        rw [TurnRegistry.forceClear_own hactive, write_empty howner]
        exact h.close (v := { t with lease := .gone }) howner (hok hcontrol t ht) rfl
      · exact h
  | cancel sessionId verified =>
    rw [step]
    split
    · exact h
    · split
      · rename_i generation k hgen howner
        split
        · obtain ⟨cancelled, hactive⟩ := TurnRegistry.activeGeneration_some hgen
          obtain ⟨t, cancelled', ht, -, hentry⟩ := h.slot k howner
          rw [hactive] at hentry
          obtain ⟨hsession, -⟩ := ActiveTurn.mk.inj (Option.some.inj hentry)
          refine ⟨h.own, h.slot, h.idle, h.others, fun c hc => ?_⟩
          cases hc
          exact ⟨howner, t, ht, hsession.symm⟩
        · exact h
      · exact h
      · exact h
  | cancelAnswered ok =>
    rw [step]
    split
    · rename_i sessionId k hcontrol
      obtain ⟨howner, t, ht, hsession⟩ := h.control _ hcontrol
      obtain ⟨hlease, cancelled, hactive⟩ := h.active_of ht howner
      have hfree : Inv { s with control := none } :=
        ⟨h.own, h.slot, h.idle, h.others, fun c hc => (by cases hc)⟩
      split
      · rw [hsession] at hactive
        rw [TurnRegistry.markCancelAcknowledged_own hactive, write_active howner rfl]
        have hkept := hfree.keep (v := t) (b := true) ht howner rfl hlease
          (r := { active := some ⟨t.sessionId, t.generation, true, t.worker.marked⟩ }) rfl
        have hset : s.turns.set k t = s.turns := by
          obtain ⟨hlt, hget⟩ := List.getElem?_eq_some_iff.mp ht
          rw [← hget]
          exact List.set_getElem_self hlt
        rw [hset, hsession] at hkept
        exact hkept
      · exact hfree
    · exact h

/-! ## Every run -/

/-- What the invariant says about one state is the law. -/
theorem Inv.isolated {s : TurnSystem} (h : Inv s) : Isolated s := by
  have hquiet : s.registry.hasActive = false → ∀ t ∈ s.turns, t.worker ≠ .running := by
    intro hempty t hmem hrun
    obtain ⟨k, ht⟩ := List.getElem?_of_mem hmem
    obtain ⟨-, cancelled, hactive⟩ := h.active_of ht (h.owner_of ht (Or.inl hrun))
    rw [TurnRegistry.hasActive, hactive] at hempty
    cases hempty
  refine ⟨h.own, fun k t ht hunfinished hheld => ?_, hquiet, fun j k t u ht hu htr hur => ?_,
    fun root hroot => hquiet ?_⟩
  · have howner : s.owner = some k :=
      h.owner_of ht (Or.inr (by rw [hheld]; exact fun hcontra => by cases hcontra))
    obtain ⟨-, cancelled, hactive⟩ := h.active_of ht howner
    have hmarked : t.worker.marked = false := by
      rcases hunfinished with hw | hw
      · rw [hw]; rfl
      · rw [hw]; rfl
    rw [hmarked] at hactive
    exact ⟨howner, TurnRegistry.activeGeneration_of_active hactive⟩
  · have hj := h.owner_of ht (Or.inl htr)
    have hk := h.owner_of hu (Or.inl hur)
    exact Option.some.inj (hj.symm.trans hk)
  · unfold ensureWorkspaceQuiescent at hroot
    split at hroot
    · cases hroot
    · rename_i hempty
      exact Bool.eq_false_iff.mpr hempty

/-- A lease that clears the slot of a running worker leaves it running beside an empty slot. -/
theorem not_isolated_step {s : TurnSystem} {event : Event} (h : Inv s)
    (hbad : ¬ WorkerEnded s event) : ¬ Isolated (step s event) := by
  cases event with
  | leaseCleared k =>
    simp only [WorkerEnded, not_forall, not_not] at hbad
    obtain ⟨hcontrol, t, ht, hrun⟩ := hbad
    have howner : s.owner = some k := h.control _ hcontrol
    obtain ⟨-, cancelled, hactive⟩ := h.active_of ht howner
    intro hisolated
    have hquiet := hisolated.quiet
    rw [step, ht] at hquiet
    dsimp only at hquiet
    rw [if_pos hcontrol, TurnRegistry.forceClear_own hactive, write_empty howner] at hquiet
    have hlt : k < s.turns.length := (List.getElem?_eq_some_iff.mp ht).1
    have hmem : { t with lease := .gone } ∈ s.turns.set k { t with lease := .gone } :=
      List.mem_of_getElem? (List.getElem?_set_self hlt)
    exact hquiet rfl _ hmem hrun
  | startTurn | spawn | workerFinished | workerPanicked | wake | dropFuture | leaseDropped
  | cancel | cancelAnswered => exact absurd trivial hbad

/-- **Turn isolation law.**  In every run: no turn's completion, cancel or cleanup touches
    another turn's entry, a cancel finds every running turn whose future is alive, and an empty
    slot means that no worker runs, all along the run, if and only if no lease clears the slot
    while the worker of its turn is running. -/
theorem turn_isolation_law (events : List Event) :
    Runs.Always step Isolated TurnSystem.new events ↔
      Runs.Disciplined step WorkerEnded TurnSystem.new events :=
  Runs.always_iff_disciplined step inv_step (fun _ h => h.isolated)
    (fun _ _ => not_isolated_step) inv_new events

/-- The future of a turn is dropped while its worker runs; the next turn of the session starts,
    and then the first worker ends. -/
def abandonedTurn : List Event :=
  [ .startTurn ⟨"session_1"⟩ 7, .spawn 0 true, .dropFuture 0, .leaseDropped 0, .leaseCleared 0,
    .startTurn ⟨"session_1"⟩ 7, .spawn 1 true, .workerFinished 0 ]

/-- The registry is idle while the abandoned worker runs, then two workers run, and the late
    completion of the first hides the second turn from a cancel. -/
theorem not_every_run_isolated :
    ¬ (∀ events : List Event, Runs.Always step Isolated TurnSystem.new events) ∧
      ((Runs.play step TurnSystem.new (abandonedTurn.take 5)).registry.hasActive = false ∧
        (Runs.play step TurnSystem.new (abandonedTurn.take 5)).turns.map Turn.worker =
          [.running]) ∧
      (Runs.play step TurnSystem.new (abandonedTurn.take 7)).turns.map Turn.worker =
        [.running, .running] ∧
      (Runs.play step TurnSystem.new abandonedTurn).foreign = [0] ∧
      (Runs.play step TurnSystem.new abandonedTurn).registry.activeGeneration ⟨"session_1"⟩ =
        none := by
  refine ⟨fun h => ?_, by decide, by decide, by decide, by decide⟩
  have hown := (h abandonedTurn).last.own
  exact absurd hown (by decide)

end VibeCoder.Jcode
