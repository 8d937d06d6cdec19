/-
  The system the calls of one process runtime share, and what each operation does to it.

  * `Registry` — the active processes; its limits are part of it, so that a registry that exceeds
    them cannot be built;
  * `Child`    — the group of a spawned process: the process itself, and what it has forked;
  * `Channel`  — the event queue between a supervisor and the holder of the handle;
  * `World`    — what the outside contributes to one operation: what has happened since the last
    one (processes fork and exit, events are received), and the answers of the system.

  A process that leaves its group is gone for the model.  `SIGKILL` to a group ends all its
  processes at once.
-/
import Mathlib.Data.List.Nodup
import Mathlib.Logic.Function.Basic
import VibeCoder.Process.Local

namespace VibeCoder.Process

open Resume

variable {ι : Type}

/-! ## The registry -/

/-- `ActiveProcess`; the flag is the one made for the call that reserved the slot. -/
structure ActiveProcess (ι : Type) where
  scope : ActiveProcessScope
  cancelRequested : ι

/-- How many of the slots are of a scope. -/
def countScope (active : List (ProcessId × ActiveProcess ι)) (scope : ActiveProcessScope) : Nat :=
  active.countP (fun a => a.2.scope == scope)

/-- How many slots one scope can have. -/
def ActiveProcessScope.limit : ActiveProcessScope → Nat
  | .project _ => maxActivePerProject
  | .runtimeService _ => 1

/-- `ProcessRegistry`. -/
structure Registry (ι : Type) where
  active : List (ProcessId × ActiveProcess ι)
  unique : (active.map Prod.fst).Nodup
  bounded : active.length ≤ maxActiveProcesses
  limited : ∀ scope, countScope active scope ≤ scope.limit

namespace Registry

def empty : Registry ι where
  active := []
  unique := List.nodup_nil
  bounded := Nat.zero_le _
  limited := fun _ => Nat.zero_le _

/-- The error of a scope that has all its slots. -/
def limitError : ActiveProcessScope → VibeCoderError
  | .project _ => processError "process_project_active_limit"
  | .runtimeService _ => processError "process_runtime_service_already_active"

/-- The slot with an id. -/
def get (r : Registry ι) (processId : ProcessId) : Option (ActiveProcess ι) :=
  (r.active.find? (fun a => a.1 == processId)).map Prod.snd

/-- An id that no slot has. -/
def Vacant (r : Registry ι) (processId : ProcessId) : Prop := processId ∉ r.active.map Prod.fst

instance (r : Registry ι) (processId : ProcessId) : Decidable (r.Vacant processId) :=
  inferInstanceAs (Decidable (¬ _))

/-- A slot more. -/
def insert (r : Registry ι) (processId : ProcessId) (a : ActiveProcess ι)
    (hvacant : r.Vacant processId) (hroom : r.active.length < maxActiveProcesses)
    (hscope : countScope r.active a.scope < a.scope.limit) : Registry ι where
  active := (processId, a) :: r.active
  unique := List.nodup_cons.mpr ⟨hvacant, r.unique⟩
  bounded := hroom
  limited := fun scope => by
    by_cases hsame : a.scope = scope
    · subst hsame
      have hcount : countScope ((processId, a) :: r.active) a.scope =
          countScope r.active a.scope + 1 := List.countP_cons_of_pos (beq_self_eq_true _)
      omega
    · have hcount : countScope ((processId, a) :: r.active) scope = countScope r.active scope :=
        List.countP_cons_of_neg (by simpa using hsame)
      exact hcount ▸ r.limited scope

/-- `release_process`. -/
def remove (r : Registry ι) (processId : ProcessId) : Registry ι where
  active := r.active.filter (fun a => a.1 != processId)
  unique := r.unique.sublist (List.filter_sublist.map Prod.fst)
  bounded := Nat.le_trans (List.length_filter_le _ _) r.bounded
  limited := fun scope =>
    Nat.le_trans (List.Sublist.countP_le List.filter_sublist) (r.limited scope)

/-- `reserve_process`, with the ids that are drawn. -/
def reserve (r : Registry ι) (owner : ι) (scope : ActiveProcessScope) (draws : List ProcessId) :
    Result (ProcessId × Registry ι) :=
  if hroom : r.active.length < maxActiveProcesses then
    if hscope : countScope r.active scope < scope.limit then
      match hfound : (draws.take 8).find? (fun id => decide (r.Vacant id)) with
      | none => .error (processError "process_id_collision")
      | some id =>
        have hvacant : r.Vacant id := by simpa using List.find?_some hfound
        .ok (id, r.insert id { scope := scope, cancelRequested := owner } hvacant hroom hscope)
    else .error (limitError scope)
  else .error (processError "process_active_limit")

end Registry

/-! ## Processes -/

/-- The process that was spawned, the leader of its group. -/
inductive Leader where
  | running
  | exited (status : ExitStatus)
  | reaped (status : ExitStatus)
  deriving DecidableEq, Repr

/-- A group: its leader, and how many other processes of it are alive. -/
structure Child where
  leader : Leader
  members : Nat
  deriving DecidableEq, Repr

/-- How many processes of the group are alive. -/
def Child.alive (c : Child) : Nat := c.members + if c.leader = .running then 1 else 0

/-- Whether there is a group to signal: a leader that was not reaped still is in it. -/
def Child.hasGroup (c : Child) : Bool :=
  match c.leader with
  | .running | .exited _ => true
  | .reaped _ => decide (0 < c.members)

/-- `SIGKILL`, as a status. -/
def killed : ExitStatus := .signaled 9

/-- `SIGKILL` to the leader. -/
def Child.killLeader (c : Child) : Child :=
  match c.leader with
  | .running => { c with leader := .exited killed }
  | .exited _ | .reaped _ => c

/-- `SIGKILL` to the group. -/
def Child.killGroup (c : Child) : Child := { c.killLeader with members := 0 }

/-- `wait`: the leader is reaped once it has exited. -/
def Child.reap (c : Child) (status : ExitStatus) : Child :=
  match c.leader with
  | .running => { c with leader := .reaped status }
  | .exited status => { c with leader := .reaped status }
  | .reaped _ => c

/-- `try_wait`. -/
def Child.tryWait (c : Child) : Option ExitStatus × Child :=
  match c.leader with
  | .running => (none, c)
  | .exited status => (some status, { c with leader := .reaped status })
  | .reaped status => (some status, c)

/-! ## The event queue -/

/-- One `try_send`: how many events were waiting, and whether there still was a receiver. -/
structure Send where
  event : ProcessEvent
  waiting : Nat
  connected : Bool
  deriving DecidableEq

/-- The answer it got. -/
def Send.answer (a : Send) : SendAnswer :=
  if a.connected then if a.waiting < eventQueueCapacity then .sent else .full
  else .disconnected

/-- A `sync_channel(EVENT_QUEUE_CAPACITY)`, with what was received and all that was sent. -/
structure Channel where
  queue : List ProcessEvent
  connected : Bool
  received : List ProcessEvent
  sends : List Send
  fits : queue.length ≤ eventQueueCapacity

namespace Channel

def new : Channel where
  queue := []
  connected := true
  received := []
  sends := []
  fits := Nat.zero_le _

/-- `try_send`. -/
def trySend (c : Channel) (event : ProcessEvent) : SendAnswer × Channel :=
  let send : Send := { event := event, waiting := c.queue.length, connected := c.connected }
  if hroom : c.connected = true ∧ c.queue.length < eventQueueCapacity then
    (send.answer, { c with
      queue := c.queue ++ [event]
      sends := c.sends ++ [send]
      fits := by
        rw [List.length_append, List.length_singleton]
        exact hroom.2 })
  else (send.answer, { c with sends := c.sends ++ [send] })

/-- `try_recv`. -/
def receive (c : Channel) : Channel :=
  match h : c.queue with
  | [] => c
  | event :: rest =>
    { c with
      queue := rest
      received := c.received ++ [event]
      fits := by
        have hfits := c.fits
        rw [h, List.length_cons] at hfits
        omega }

/-- The handle is dropped, and with it what waits in the queue. -/
def close (c : Channel) : Channel :=
  { c with
    queue := []
    connected := false
    fits := Nat.zero_le _ }

end Channel

/-! ## The state -/

/-- The slot of a call: none yet, held, or released while so many processes of its group were
    alive. -/
inductive Slot where
  | none
  | held (processId : ProcessId) (scope : ActiveProcessScope)
  | released (scope : ActiveProcessScope) (alive : Nat)
  deriving DecidableEq, Repr

/-- The registry and the cancellation flags, and for each call its slot, its process, its event
    queue and what its supervisor has read. -/
structure System (ι : Type) where
  registry : Registry ι
  cancelRequested : ι → Bool
  slot : ι → Slot
  child : ι → Option Child
  channel : ι → Channel
  taken : ι → List (OutputStream × List UInt8)

def System.new : System ι where
  registry := .empty
  cancelRequested := fun _ => false
  slot := fun _ => .none
  child := fun _ => none
  channel := fun _ => .new
  taken := fun _ => []

/-- Something that happens between two operations of the runtime. -/
inductive Occurrence where
  /-- A process of the group forks, one other than the leader exits or leaves, the leader exits. -/
  | forks
  | memberExits
  | leaderExits (status : ExitStatus)
  /-- The holder of the handle takes an event, or drops the handle. -/
  | receives
  | dropsHandle
  deriving DecidableEq, Repr

def Occurrence.child (c : Child) : Occurrence → Child
  | .forks => if 0 < c.alive then { c with members := c.members + 1 } else c
  | .memberExits => { c with members := c.members - 1 }
  | .leaderExits status =>
    match c.leader with
    | .running => { c with leader := .exited status }
    | .exited _ | .reaped _ => c
  | .receives | .dropsHandle => c

def Occurrence.channel (c : Channel) : Occurrence → Channel
  | .receives => c.receive
  | .dropsHandle => c.close
  | .forks | .memberExits | .leaderExits _ => c

variable [DecidableEq ι]

/-- An occurrence at the process or at the handle of one call. -/
def System.occur (s : System ι) (x : ι × Occurrence) : System ι :=
  { s with
    child := fun j => if j = x.1 then (s.child j).map (x.2.child ·) else s.child j
    channel := fun j => if j = x.1 then x.2.channel (s.channel j) else s.channel j }

/-- What has happened since the last operation, and what the system answers to the next one: ids
    to draw, a success or a failure, a read, the time, the status of a process that was waited
    for. -/
structure World (ι : Type) where
  before : List (ι × Occurrence)
  draws : List ProcessId
  success : Bool
  read : ReadAnswer
  now : Nat
  status : ExitStatus

/-- Replace the process of a call. -/
def System.setChild (s : System ι) (i : ι) (f : Child → Child) : System ι :=
  { s with child := fun j => if j = i then (s.child j).map f else s.child j }

/-- How many processes of a call's group are alive. -/
def System.alive (s : System ι) (i : ι) : Nat := ((s.child i).map Child.alive).getD 0

/-- The slot of a call after it was given back. -/
def Slot.release (alive : Nat) : Slot → Slot
  | .held _ scope => .released scope alive
  | .none => .none
  | .released scope alive => .released scope alive

/-- One operation of call `i`. -/
def System.perform (s : System ι) (i : ι) (w : World ι) : (o : Op) → Result o.Val × System ι
  | .prepare => (if w.success then .ok () else .error (processError "process_not_prepared"), s)
  | .reserve scope =>
    match s.registry.reserve i scope w.draws with
    | .error e => (.error e, s)
    | .ok (id, registry) =>
      (.ok id, { s with
        registry := registry
        slot := Function.update s.slot i (.held id scope) })
  | .release id =>
    (.ok (), { s with
      registry := s.registry.remove id
      slot := Function.update s.slot i ((s.slot i).release (s.alive i)) })
  | .cancel id =>
    match s.registry.get id with
    | none => (.error (processError "process_not_active"), s)
    | some a =>
      (.ok (), { s with cancelRequested := Function.update s.cancelRequested a.cancelRequested true })
  | .activeForProject p => (.ok (countScope s.registry.active (.project p)), s)
  | .activeRuntimeService id => (.ok (countScope s.registry.active (.runtimeService id)), s)
  | .spawn =>
    if w.success then
      (.ok true, { s with
        child := Function.update s.child i (some { leader := .running, members := 0 }) })
    else (.ok false, s)
  | .takePipe _ | .setNonblocking _ | .startThread => (.ok w.success, s)
  | .trySend event =>
    let (answer, channel) := (s.channel i).trySend event
    (.ok answer, { s with channel := Function.update s.channel i channel })
  | .read stream =>
    match w.read with
    | .bytes chunk =>
      (.ok (.bytes chunk), { s with
        taken := Function.update s.taken i (s.taken i ++ [(stream, chunk.bytes)]) })
    | .closed => (.ok .closed, s)
    | .wouldBlock => (.ok .wouldBlock, s)
    | .interrupted => (.ok .interrupted, s)
    | .failed => (.ok .failed, s)
  | .now => (.ok w.now, s)
  | .tryWait =>
    match s.child i with
    | none => (.error (processError "process_not_spawned"), s)
    | some c =>
      if w.success then
        (.ok c.tryWait.1, s.setChild i (fun c => c.tryWait.2))
      else (.error (processError "process_wait_failed"), s)
  | .loadCancel => (.ok (s.cancelRequested i), s)
  | .signalGroup signal =>
    match s.child i with
    | none => (.ok false, s)
    | some c =>
      if c.hasGroup then
        match signal with
        | .term => (.ok true, s)
        | .kill => (.ok true, s.setChild i Child.killGroup)
      else (.ok false, s)
  | .killChild => (.ok (), s.setChild i Child.killLeader)
  | .waitChild => (.ok (), s.setChild i (fun c => c.reap w.status))
  | .sleep => (.ok (), s)

/-- What has happened, and then one operation. -/
def exec (i : ι) (w : World ι) (o : Op) (s : System ι) : Result o.Val × System ι :=
  (w.before.foldl System.occur s).perform i w o

end VibeCoder.Process
