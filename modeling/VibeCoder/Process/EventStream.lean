/-
  The event stream of one process: what its consumer receives of what the supervisor reads.

  The consumer acts between any two operations of the supervisor, and goes on after the last one.

  1. **The queue** (`Flow`) — what was received and what waits is what was accepted, in order.

  2. **The sends** — the supervisor attempts one event for each chunk, in the order of its reads
     (`Streaming`); at the end a notice just when an event was refused, and then `Finished`
     (`Complete`).

  3. **Integrity** — who receives `Finished` and no notice received every chunk, unless the notice
     itself was refused by a full queue (`whole_iff_noticed`).
-/
import VibeCoder.Process.System

namespace VibeCoder.Process

open Resume

/-! ## The queue -/

/-- The events that were accepted, in order. -/
def accepted (sends : List Send) : List ProcessEvent :=
  (sends.filter (fun a => a.answer == .sent)).map Send.event

theorem accepted_append (sends more : List Send) :
    accepted (sends ++ more) = accepted sends ++ accepted more := by
  rw [accepted, List.filter_append, List.map_append]
  rfl

theorem accepted_one (a : Send) :
    accepted [a] = if a.answer = .sent then [a.event] else [] := by
  rw [accepted]
  by_cases hsent : a.answer = .sent
  · rw [if_pos hsent, List.filter_cons_of_pos (by rw [hsent]; rfl)]
    rfl
  · rw [if_neg hsent, List.filter_cons_of_neg (by simpa using hsent)]
    rfl

theorem Send.sent_iff (a : Send) :
    a.answer = .sent ↔ a.connected = true ∧ a.waiting < eventQueueCapacity := by
  rw [Send.answer]
  split_ifs with hconnected hroom
  · exact ⟨fun _ => ⟨hconnected, hroom⟩, fun _ => rfl⟩
  · exact ⟨(fun h => by cases h), fun h => absurd h.2 hroom⟩
  · exact ⟨(fun h => by cases h), fun h => absurd h.1 hconnected⟩

/-- A queue is first in, first out, and once its receiver is gone it stays so. -/
structure Flow (c : Channel) : Prop where
  whole : c.connected = true → c.received ++ c.queue = accepted c.sends
  part : c.received <+: accepted c.sends
  gone : c.connected = false → c.queue = []
  connected : c.connected = true → ∀ a ∈ c.sends, a.connected = true
  once : c.sends.Pairwise (fun a b => b.connected = true → a.connected = true)

theorem flow_new : Flow .new where
  whole := fun _ => rfl
  part := List.nil_prefix
  gone := fun _ => rfl
  connected := fun _ _ h => absurd h List.not_mem_nil
  once := List.Pairwise.nil

theorem Flow.trySend {c : Channel} (h : Flow c) (event : ProcessEvent) :
    Flow (c.trySend event).2 := by
  have honce : ∀ waiting, (c.sends ++ [(⟨event, waiting, c.connected⟩ : Send)]).Pairwise
      (fun a b => b.connected = true → a.connected = true) := by
    intro waiting
    refine List.pairwise_append.mpr ⟨h.once, List.pairwise_singleton _ _, fun a ha b hb hlive => ?_⟩
    rw [List.mem_singleton.mp hb] at hlive
    exact h.connected hlive a ha
  have hconnected : ∀ waiting, c.connected = true →
      ∀ a ∈ c.sends ++ [(⟨event, waiting, c.connected⟩ : Send)], a.connected = true := by
    intro waiting hlive a ha
    rcases List.mem_append.mp ha with ha | ha
    · exact h.connected hlive a ha
    · rw [List.mem_singleton.mp ha]
      exact hlive
  rw [Channel.trySend]
  split_ifs with hroom
  · have hsent : accepted [⟨event, c.queue.length, c.connected⟩] = [event] := by
      rw [accepted_one, if_pos ((Send.sent_iff _).mpr hroom)]
    refine ⟨fun hlive => ?_, ?_, fun hgone => ?_, hconnected _, honce _⟩
    · show c.received ++ (c.queue ++ [event]) = _
      rw [← List.append_assoc, h.whole hlive, accepted_append, hsent]
    · rw [accepted_append]
      exact h.part.trans (List.prefix_append _ _)
    · cases hroom.1.symm.trans hgone
  · have hrefused : accepted [⟨event, c.queue.length, c.connected⟩] = [] := by
      rw [accepted_one, if_neg (fun hsent => hroom ((Send.sent_iff _).mp hsent))]
    refine ⟨fun hlive => ?_, ?_, h.gone, hconnected _, honce _⟩
    · rw [accepted_append, hrefused, List.append_nil]
      exact h.whole hlive
    · rw [accepted_append, hrefused, List.append_nil]
      exact h.part

theorem Flow.receive {c : Channel} (h : Flow c) : Flow c.receive := by
  rw [Channel.receive]
  split
  · exact h
  · rename_i event rest hqueue
    have hlive : c.connected = true := by
      by_contra hgone
      rw [h.gone (Bool.eq_false_iff.mpr hgone)] at hqueue
      cases hqueue
    have hwhole : c.received ++ [event] ++ rest = accepted c.sends := by
      rw [List.append_assoc, List.singleton_append, ← hqueue]
      exact h.whole hlive
    have hstays : c.connected = false → rest = [] := fun hgone => by cases hlive.symm.trans hgone
    exact ⟨fun _ => hwhole, ⟨rest, hwhole⟩, hstays, h.connected, h.once⟩

theorem Flow.close {c : Channel} (h : Flow c) : Flow c.close where
  whole := fun hlive => by cases hlive
  part := h.part
  gone := fun _ => rfl
  connected := fun hlive => by cases hlive
  once := h.once

theorem Flow.occurrence {c : Channel} (h : Flow c) (x : Occurrence) : Flow (x.channel c) := by
  cases x with
  | receives => exact h.receive
  | dropsHandle => exact h.close
  | forks => exact h
  | memberExits => exact h
  | leaderExits status => exact h

section

variable {ι : Type} [DecidableEq ι] {i : ι} {s : System ι}

/-! ## What an operation does to the stream -/

/-- The attempts to send, and the chunks that were read. -/
def System.stream (s : System ι) (i : ι) : List Send × List (OutputStream × List UInt8) :=
  ((s.channel i).sends, s.taken i)

theorem occurrence_sends (x : Occurrence) (c : Channel) : (x.channel c).sends = c.sends := by
  cases x with
  | receives =>
    show c.receive.sends = c.sends
    rw [Channel.receive]
    split
    · rfl
    · rfl
  | dropsHandle => rfl
  | forks => rfl
  | memberExits => rfl
  | leaderExits status => rfl

theorem occur_stream (s : System ι) (x : ι × Occurrence) (i : ι) :
    (s.occur x).stream i = s.stream i := by
  by_cases hi : i = x.1
  · refine Prod.ext ?_ rfl
    show (if i = x.1 then x.2.channel (s.channel i) else s.channel i).sends = _
    rw [if_pos hi]
    exact occurrence_sends _ _
  · refine Prod.ext ?_ rfl
    show (if i = x.1 then x.2.channel (s.channel i) else s.channel i).sends = _
    rw [if_neg hi]
    rfl

theorem occurs_stream (xs : List (ι × Occurrence)) (s : System ι) (i : ι) :
    (xs.foldl System.occur s).stream i = s.stream i := by
  induction xs generalizing s with
  | nil => rfl
  | cons x xs ih => exact (ih (s.occur x)).trans (occur_stream s x i)

theorem occur_flow (x : ι × Occurrence) (h : Flow (s.channel i)) :
    Flow ((s.occur x).channel i) := by
  show Flow (if i = x.1 then x.2.channel (s.channel i) else s.channel i)
  split
  · exact h.occurrence x.2
  · exact h

theorem occurs_flow (xs : List (ι × Occurrence)) (h : Flow (s.channel i)) :
    Flow ((xs.foldl System.occur s).channel i) := by
  induction xs generalizing s with
  | nil => exact h
  | cons x xs ih => exact ih (occur_flow x h)

/-- The operations that neither read nor send. -/
def Silent : Op → Prop
  | .trySend _ | .read _ => False
  | _ => True

theorem setChild_channel (s : System ι) (i : ι) (f : Child → Child) :
    (s.setChild i f).channel = s.channel := rfl

/-- A silent operation leaves the queue and the reads of every call alone. -/
theorem perform_silent {o : Op} (ho : Silent o) (s : System ι) (i : ι) (w : World ι) :
    (s.perform i w o).2.channel = s.channel ∧ (s.perform i w o).2.taken = s.taken := by
  cases o with
  | trySend event => exact ho.elim
  | read stream => exact ho.elim
  | prepare => exact ⟨rfl, rfl⟩
  | release id => exact ⟨rfl, rfl⟩
  | activeForProject p => exact ⟨rfl, rfl⟩
  | activeRuntimeService id => exact ⟨rfl, rfl⟩
  | takePipe stream => exact ⟨rfl, rfl⟩
  | setNonblocking stream => exact ⟨rfl, rfl⟩
  | startThread => exact ⟨rfl, rfl⟩
  | now => exact ⟨rfl, rfl⟩
  | loadCancel => exact ⟨rfl, rfl⟩
  | killChild => exact ⟨rfl, rfl⟩
  | waitChild => exact ⟨rfl, rfl⟩
  | sleep => exact ⟨rfl, rfl⟩
  | reserve scope =>
    rw [System.perform]
    split
    · exact ⟨rfl, rfl⟩
    · exact ⟨rfl, rfl⟩
  | cancel id =>
    rw [System.perform]
    split
    · exact ⟨rfl, rfl⟩
    · exact ⟨rfl, rfl⟩
  | spawn =>
    rw [System.perform]
    split
    · exact ⟨rfl, rfl⟩
    · exact ⟨rfl, rfl⟩
  | tryWait =>
    rw [System.perform]
    split
    · exact ⟨rfl, rfl⟩
    · split
      · exact ⟨rfl, rfl⟩
      · exact ⟨rfl, rfl⟩
  | signalGroup signal =>
    rw [System.perform.eq_def]
    dsimp only
    split
    · exact ⟨rfl, rfl⟩
    · split
      · cases signal with
        | term => exact ⟨rfl, rfl⟩
        | kill => exact ⟨rfl, rfl⟩
      · exact ⟨rfl, rfl⟩

/-- A read that gives a chunk adds it to what was read; other reads add nothing. -/
def taking (stream : OutputStream) : ReadAnswer → List (OutputStream × List UInt8)
  | .bytes chunk => [(stream, chunk.bytes)]
  | .closed | .wouldBlock | .interrupted | .failed => []

theorem perform_read (s : System ι) (i : ι) (w : World ι) (stream : OutputStream) :
    (s.perform i w (.read stream)).1 = .ok w.read ∧
    (s.perform i w (.read stream)).2.stream i =
      ((s.channel i).sends, s.taken i ++ taking stream w.read) ∧
    (s.perform i w (.read stream)).2.channel = s.channel := by
  obtain ⟨before, draws, success, read, now, status⟩ := w
  cases read with
  | bytes chunk =>
    refine ⟨rfl, Prod.ext rfl ?_, rfl⟩
    exact Function.update_self ..
  | closed => exact ⟨rfl, Prod.ext rfl (List.append_nil _).symm, rfl⟩
  | wouldBlock => exact ⟨rfl, Prod.ext rfl (List.append_nil _).symm, rfl⟩
  | interrupted => exact ⟨rfl, Prod.ext rfl (List.append_nil _).symm, rfl⟩
  | failed => exact ⟨rfl, Prod.ext rfl (List.append_nil _).symm, rfl⟩

theorem trySend_sends (c : Channel) (event : ProcessEvent) :
    ∃ a : Send, a.event = event ∧ (c.trySend event).1 = a.answer ∧
      (c.trySend event).2.sends = c.sends ++ [a] := by
  refine ⟨⟨event, c.queue.length, c.connected⟩, rfl, ?_⟩
  rw [Channel.trySend]
  split_ifs
  · exact ⟨rfl, rfl⟩
  · exact ⟨rfl, rfl⟩

theorem perform_trySend (s : System ι) (i : ι) (w : World ι) (event : ProcessEvent) :
    ∃ a : Send, a.event = event ∧ (s.perform i w (.trySend event)).1 = .ok a.answer ∧
      (s.perform i w (.trySend event)).2.stream i = ((s.channel i).sends ++ [a], s.taken i) := by
  obtain ⟨a, hevent, hanswer, hsends⟩ := trySend_sends (s.channel i) event
  refine ⟨a, hevent, ?_, Prod.ext ?_ rfl⟩
  · rw [← hanswer]
    rfl
  · show (Function.update s.channel i ((s.channel i).trySend event).2 i).sends = _
    rw [Function.update_self]
    exact hsends

theorem perform_flow (o : Op) (w : World ι) (h : Flow (s.channel i)) :
    Flow ((s.perform i w o).2.channel i) := by
  by_cases ho : Silent o
  · rw [(perform_silent ho s i w).1]
    exact h
  · cases o with
    | trySend event =>
      show Flow (Function.update s.channel i _ i)
      rw [Function.update_self]
      exact h.trySend event
    | read stream =>
      rw [(perform_read s i w stream).2.2]
      exact h
    | _ => exact absurd trivial ho

/-! ## The sends -/

/-- One call, with everything else in what happens between its operations. -/
abbrev Supervised (i : ι) : Setting Op (fun o => Result o.Val) Unit (World ι) (System ι) :=
  Setting.solo (exec i) (fun _ => True)

variable {α : Type} {Q : α → System ι → Prop} {E : VibeCoderError → System ι → Prop}

theorem wp_perform {o : Op} {Q : o.Val → System ι → Prop}
    (h : ∀ w, Post Q E (exec i w o s).1 (exec i w o s).2) :
    Wp (Supervised i) () (perform o) Q E s := by
  refine wp_attempt trivial (fun w _ t hrely _ => ?_)
  have ht : (exec i w o s).2 = t := hrely
  rw [← ht]
  exact h w

/-- The event of a chunk that was read. -/
def chunkEvent (x : OutputStream × List UInt8) : ProcessEvent := outputEvent x.1 x.2

/-- An event for each chunk was sent after `Started`; `overflowed` says whether one of them was
    refused by a full queue. -/
structure Streaming (overflowed : Bool) (x : List Send × List (OutputStream × List UInt8)) :
    Prop where
  sends : ∃ first outputs, x.1 = first :: outputs ∧ (∃ id, first.event = .started id) ∧
    outputs.map Send.event = x.2.map chunkEvent ∧
    (overflowed = true ↔ ∃ a ∈ outputs, a.answer = .full)

/-- Then the notice was sent, if there was anything to notice, and `Finished`. -/
structure Complete (x : List Send × List (OutputStream × List UInt8)) : Prop where
  sends : ∃ overflowed sends notice finished, x.1 = sends ++ notice ++ [finished] ∧
    Streaming overflowed (sends, x.2) ∧
    (∃ id termination code, finished.event = .finished id termination code) ∧
    (overflowed = false ∧ notice = [] ∨
      overflowed = true ∧ ∃ a : Send, notice = [a] ∧ a.event = .eventQueueOverflow)

/-- What is not a read or a send leaves the stream as it is. -/
theorem wp_silent {K : List Send × List (OutputStream × List UInt8) → Prop} {p : ProcessM α}
    (hp : Only Silent p) (hK : K (s.stream i)) :
    Wp (Supervised i) () p (fun _ t => K (t.stream i)) (fun _ t => K (t.stream i)) s := by
  refine wp_only (P := Silent) (J := fun t : System ι => K (t.stream i))
    (fun o ho t ht => ⟨trivial, fun w _ r hr _ => ?_⟩) hp hK
  have hr' : (exec i w o t).2 = r := hr
  obtain ⟨hchannel, htaken⟩ := perform_silent ho (w.before.foldl System.occur t) i w
  have hsame : (exec i w o t).2.stream i = t.stream i := by
    rw [← occurs_stream w.before t i, System.stream, exec, hchannel, htaken]
    rfl
  rw [← hr', hsame]
  exact ht

/-- One silent operation. -/
theorem wp_silent_op {K : List Send × List (OutputStream × List UInt8) → Prop} {o : Op}
    (ho : Silent o) (hK : K (s.stream i)) :
    Wp (Supervised i) () (perform o) (fun _ t => K (t.stream i)) (fun _ t => K (t.stream i)) s :=
  wp_silent (only_attempt ho) hK

theorem wp_read {stream : OutputStream} {Q : ReadAnswer → System ι → Prop}
    (h : ∀ answer (t : System ι), t.stream i = ((s.stream i).1, (s.stream i).2 ++ taking stream answer) →
      Q answer t) :
    Wp (Supervised i) () (perform (.read stream)) Q E s := by
  refine wp_perform (fun w => ?_)
  obtain ⟨hanswer, hstream, -⟩ := perform_read (w.before.foldl System.occur s) i w stream
  rw [exec, hanswer]
  refine h w.read _ (hstream.trans ?_)
  rw [← occurs_stream w.before s i]
  rfl

theorem wp_trySend {event : ProcessEvent} {Q : SendAnswer → System ι → Prop}
    (h : ∀ (a : Send) (t : System ι), a.event = event →
      t.stream i = ((s.stream i).1 ++ [a], (s.stream i).2) → Q a.answer t) :
    Wp (Supervised i) () (perform (.trySend event)) Q E s := by
  refine wp_perform (fun w => ?_)
  obtain ⟨a, hevent, hanswer, hstream⟩ :=
    perform_trySend (w.before.foldl System.occur s) i w event
  rw [exec, hanswer]
  refine h a _ hevent (hstream.trans ?_)
  rw [← occurs_stream w.before s i]
  rfl

/-- `emit_event` notes a refusal. -/
theorem wp_emitEvent {event : ProcessEvent} {overflowed : Bool} {Q : Bool → System ι → Prop}
    (h : ∀ (a : Send) (o : Bool) (t : System ι), a.event = event →
      t.stream i = ((s.stream i).1 ++ [a], (s.stream i).2) →
      (o = true ↔ overflowed = true ∨ a.answer = .full) → Q o t) :
    Wp (Supervised i) () (emitEvent event overflowed) Q E s := by
  refine wp_bind (wp_trySend (fun a t hevent hstream => ?_))
  cases hanswer : a.answer with
  | sent => exact wp_pure (h a overflowed t hevent hstream (by simp [hanswer]))
  | disconnected => exact wp_pure (h a overflowed t hevent hstream (by simp [hanswer]))
  | full => exact wp_pure (h a true t hevent hstream (by simp [hanswer]))

/-- The supervisor has not begun, or has not come to its last events. -/
def Unfinished (x : List Send × List (OutputStream × List UInt8)) : Prop :=
  x = ([], []) ∨ ∃ overflowed, Streaming overflowed x

/-- The event of a chunk follows its read. -/
theorem Streaming.emit {overflowed o : Bool} {x : List Send × List (OutputStream × List UInt8)}
    (h : Streaming overflowed x) {a : Send} {y : OutputStream × List UInt8}
    (hevent : a.event = chunkEvent y) (ho : o = true ↔ overflowed = true ∨ a.answer = .full) :
    Streaming o (x.1 ++ [a], x.2 ++ [y]) := by
  obtain ⟨first, outputs, hsends, hfirst, hevents, hoverflowed⟩ := h.sends
  refine ⟨first, outputs ++ [a], ?_, hfirst, ?_, ?_⟩
  · show x.1 ++ [a] = _
    rw [hsends]
    rfl
  · show (outputs ++ [a]).map Send.event = (x.2 ++ [y]).map chunkEvent
    rw [List.map_append, List.map_append, hevents]
    show _ ++ [a.event] = _ ++ [chunkEvent y]
    rw [hevent]
  · rw [ho, hoverflowed]
    constructor
    · rintro (⟨b, hb, hfull⟩ | hfull)
      · exact ⟨b, List.mem_append_left _ hb, hfull⟩
      · exact ⟨a, List.mem_append_right _ List.mem_cons_self, hfull⟩
    · rintro ⟨b, hb, hfull⟩
      rcases List.mem_append.mp hb with hb | hb
      · exact .inl ⟨b, hb, hfull⟩
      · exact .inr (List.mem_singleton.mp hb ▸ hfull)

/-- By induction on the reads of one poll: each chunk read is sent before the next read. -/
theorem wp_drainChunks (stream : OutputStream) (limit : Nat) :
    ∀ (n : Nat) (pipe : Pipe) (overflowed : Bool) (s : System ι),
      Streaming overflowed (s.stream i) →
      Wp (Supervised i) () (drainChunks stream limit n pipe overflowed)
        (fun r t => Streaming r.2 (t.stream i)) (fun _ t => Unfinished (t.stream i)) s := by
  intro n
  induction n with
  | zero => exact fun pipe overflowed s h => wp_pure h
  | succ n ih =>
    intro pipe overflowed s h
    refine wp_bind (wp_read (fun answer t hstream => ?_))
    cases answer with
    | bytes chunk =>
      refine wp_bind (wp_emitEvent (fun a o u hevent hu ho => ?_))
      refine ih _ o u ?_
      rw [hu, hstream]
      exact h.emit (y := (stream, chunk.bytes)) hevent ho
    | closed =>
      refine wp_pure ?_
      rw [hstream]
      exact (List.append_nil (s.stream i).2).symm ▸ h
    | wouldBlock =>
      refine wp_pure ?_
      rw [hstream]
      exact (List.append_nil (s.stream i).2).symm ▸ h
    | interrupted =>
      refine ih _ overflowed t ?_
      rw [hstream]
      exact (List.append_nil (s.stream i).2).symm ▸ h
    | failed =>
      refine wp_throw (.inr ⟨overflowed, ?_⟩)
      rw [hstream]
      exact (List.append_nil (s.stream i).2).symm ▸ h

theorem wp_drainPipe (stream : OutputStream) (limit : Nat) (pipe : Pipe) {overflowed : Bool}
    (h : Streaming overflowed (s.stream i)) :
    Wp (Supervised i) () (drainPipe stream limit pipe overflowed)
      (fun r t => Streaming r.2 (t.stream i)) (fun _ t => Unfinished (t.stream i)) s := by
  rw [drainPipe]
  split
  · exact wp_pure h
  · exact wp_drainChunks stream limit _ pipe overflowed s h

theorem only_terminate : Only Silent terminateProcessGroupImmediately :=
  only_bind (only_attempt trivial) (fun _ =>
    only_bind (only_attempt trivial) (fun _ => only_attempt trivial))

theorem only_signalOrKill (signal : Signal) : Only Silent (signalOrKill signal) := by
  refine only_bind (only_attempt trivial) (fun signalled => ?_)
  cases signalled with
  | true => exact only_pure _
  | false => exact only_attempt trivial

theorem wp_orTerminate {part : ProcessM α} {Q : α → System ι → Prop}
    (h : Wp (Supervised i) () part Q (fun _ t => Unfinished (t.stream i)) s) :
    Wp (Supervised i) () (orTerminate part) Q (fun _ t => Unfinished (t.stream i)) s := by
  refine wp_bind (wp_settle (Wp.mono trivial h (fun a t _ ht => wp_pure ht) (fun e t _ ht => ?_)))
  exact wp_seq trivial (wp_silent only_terminate ht) (fun _ u _ hu => wp_throw hu)
    (fun _ u _ hu => hu)

theorem wp_drainPipes (limits : LocalExecutionLimits) {v : Supervision}
    (h : Streaming v.eventQueueOverflowed (s.stream i)) :
    Wp (Supervised i) () (drainPipes limits v)
      (fun v' t => v'.exitStatus = v.exitStatus ∧ Streaming v'.eventQueueOverflowed (t.stream i))
      (fun _ t => Unfinished (t.stream i)) s := by
  refine wp_seq trivial (wp_orTerminate (wp_drainPipe _ _ _ h)) (fun r t _ ht => ?_)
    (fun _ t _ ht => ht)
  refine wp_seq trivial (wp_orTerminate (wp_drainPipe _ _ _ ht)) (fun r' u _ hu => ?_)
    (fun _ t _ ht => ht)
  exact wp_pure ⟨rfl, hu⟩

section

variable {v : Supervision} (h : Streaming v.eventQueueOverflowed (s.stream i)) (now : Nat)
include h

theorem wp_observeExit :
    Wp (Supervised i) () (observeExit v now)
      (fun v' t => Streaming v'.eventQueueOverflowed (t.stream i))
      (fun _ t => Unfinished (t.stream i)) s := by
  rw [observeExit]
  split
  · refine wp_bind (wp_settle (Wp.mono trivial (wp_silent_op trivial h) (fun answer t _ ht => ?_)
      (fun e t _ ht => ?_)))
    · cases answer with
      | none => exact wp_pure ht
      | some status => exact wp_pure ht
    · exact wp_seq trivial (wp_silent only_terminate ht) (fun _ u _ hu => wp_throw (.inr ⟨_, hu⟩))
        (fun _ u _ hu => .inr ⟨_, hu⟩)
  · exact wp_pure h

theorem wp_requestTermination (deadline : Option Nat) :
    Wp (Supervised i) () (requestTermination deadline v now)
      (fun v' t => Streaming v'.eventQueueOverflowed (t.stream i))
      (fun _ t => Unfinished (t.stream i)) s := by
  rw [requestTermination]
  split
  · refine wp_seq trivial (wp_silent_op trivial h) (fun cancelled t _ ht => ?_)
      (fun _ t _ ht => .inr ⟨_, ht⟩)
    dsimp only
    split
    · exact wp_pure ht
    · exact wp_seq trivial (wp_silent (only_signalOrKill .term) ht) (fun _ u _ hu => wp_pure hu)
        (fun _ u _ hu => .inr ⟨_, hu⟩)
  · exact wp_pure h

theorem wp_escalateKill :
    Wp (Supervised i) () (escalateKill v now)
      (fun v' t => Streaming v'.eventQueueOverflowed (t.stream i))
      (fun _ t => Unfinished (t.stream i)) s := by
  rw [escalateKill]
  split
  · exact wp_pure h
  · split
    · exact wp_seq trivial (wp_silent (only_signalOrKill .kill) h) (fun _ t _ ht => wp_pure ht)
        (fun _ t _ ht => .inr ⟨_, ht⟩)
    · exact wp_pure h

end

/-- What holds of the stream when the loop ends, or has used up its rounds. -/
def LoopEnd (r : Option Supervision) (x : List Send × List (OutputStream × List UInt8)) : Prop :=
  match r with
  | none => Unfinished x
  | some v => Streaming v.eventQueueOverflowed x

/-- By induction on the rounds, with `Streaming` as the invariant of the loop. -/
theorem wp_superviseLoop (limits : LocalExecutionLimits) (deadline : Option Nat) (rounds : Nat) :
    ∀ (v : Supervision) (s : System ι), Streaming v.eventQueueOverflowed (s.stream i) →
      Wp (Supervised i) () (superviseLoop limits deadline rounds v)
        (fun r t => LoopEnd r (t.stream i)) (fun _ t => Unfinished (t.stream i)) s := by
  induction rounds with
  | zero => exact fun v s h => wp_pure (.inr ⟨_, h⟩)
  | succ rounds ih =>
    intro v s h
    refine wp_seq trivial (wp_drainPipes limits h) (fun v₁ t₁ _ ⟨_, h₁⟩ => ?_) (fun _ _ _ ht => ht)
    refine wp_seq trivial (wp_silent_op trivial h₁) (fun now t₂ _ h₂ => ?_)
      (fun _ _ _ ht => .inr ⟨_, ht⟩)
    refine wp_seq trivial (wp_observeExit h₂ now) (fun v₃ t₃ _ h₃ => ?_) (fun _ _ _ ht => ht)
    refine wp_seq trivial (wp_requestTermination h₃ now deadline) (fun v₄ t₄ _ h₄ => ?_)
      (fun _ _ _ ht => ht)
    refine wp_seq trivial (wp_escalateKill h₄ now) (fun v₅ t₅ _ h₅ => ?_) (fun _ _ _ ht => ht)
    split
    · exact wp_pure h₅
    · exact wp_seq trivial (wp_silent_op trivial h₅) (fun _ t₆ _ h₆ => ih v₅ t₆ h₆)
        (fun _ _ _ ht => .inr ⟨_, ht⟩)

/-- The notice, when there is anything to notice. -/
theorem wp_noticeOverflow {overflowed : Bool} {Q : Unit → System ι → Prop}
    (h : ∀ notice (t : System ι), t.stream i = ((s.stream i).1 ++ notice, (s.stream i).2) →
      (overflowed = false ∧ notice = [] ∨
        overflowed = true ∧ ∃ a : Send, notice = [a] ∧ a.event = .eventQueueOverflow) → Q () t) :
    Wp (Supervised i) () (noticeOverflow overflowed) Q E s := by
  cases overflowed with
  | false =>
    refine wp_pure (h [] s ?_ (.inl ⟨rfl, rfl⟩))
    rw [List.append_nil]
  | true =>
    refine wp_bind (wp_trySend (fun a t hevent ht => wp_pure ?_))
    exact h [a] t ht (.inr ⟨rfl, a, rfl, hevent⟩)

theorem wp_finishSupervision (limits : LocalExecutionLimits) (processId : ProcessId)
    (started : Nat) {v : Supervision} (h : Streaming v.eventQueueOverflowed (s.stream i)) :
    Wp (Supervised i) () (finishSupervision limits processId started v)
      (fun _ t => Complete (t.stream i)) (fun _ t => Unfinished (t.stream i)) s := by
  refine wp_seq trivial (wp_drainPipes limits h) (fun v' t _ ⟨_, ht⟩ => ?_) (fun _ _ _ ht => ht)
  cases v'.exitStatus with
  | none => exact wp_throw (.inr ⟨_, ht⟩)
  | some status =>
    refine wp_bind (wp_noticeOverflow (fun notice u hu hnotice => ?_))
    refine wp_bind (wp_emitEvent (fun a o r hevent hr _ => ?_))
    have hcomplete : Complete (r.stream i) := by
      rw [hr, hu]
      exact ⟨v'.eventQueueOverflowed, (t.stream i).1, notice, a, rfl, ht, ⟨_, _, _, hevent⟩, hnotice⟩
    refine wp_bind (wp_perform (fun w => ?_))
    show Wp (Supervised i) () (pure _) _ _ (w.before.foldl System.occur r)
    refine wp_pure ?_
    rw [occurs_stream]
    exact hcomplete

/-- What a call leaves of its stream, whatever it answers. -/
def Sent (x : List Send × List (OutputStream × List UInt8)) : Prop := Unfinished x ∨ Complete x

theorem wp_superviseProcess (rounds : Nat) (limits : LocalExecutionLimits) (processId : ProcessId)
    (started : Nat) (h : Streaming false (s.stream i)) :
    Wp (Supervised i) () (superviseProcess rounds limits processId started)
      (fun _ t => Sent (t.stream i)) (fun _ t => Sent (t.stream i)) s := by
  refine wp_seq trivial (wp_superviseLoop limits _ rounds .new s h) (fun ended t _ ht => ?_)
    (fun _ _ _ ht => .inl ht)
  cases ended with
  | none => exact wp_pure (.inl ht)
  | some v =>
    exact wp_seq trivial (wp_finishSupervision limits processId started ht)
      (fun _ _ _ hc => wp_pure (.inr hc)) (fun _ _ _ hu => .inl hu)

/-- Before the queue is made nothing is sent. -/
theorem only_orRelease (spawned : Bool) (processId : ProcessId) :
    Only Silent (orRelease spawned processId) := by
  cases spawned with
  | true => exact only_pure _
  | false => exact only_bind (only_attempt trivial) (fun _ => only_throw _)

theorem only_orAbandon (ok : Bool) (processId : ProcessId) (code : String) :
    Only Silent (orAbandon ok processId code) := by
  cases ok with
  | true => exact only_pure _
  | false =>
    exact only_bind only_terminate (fun _ => only_bind (only_attempt trivial) (fun _ => only_throw _))

theorem only_setNonblocking : Only Silent setNonblocking := by
  refine only_bind (only_attempt trivial) (fun stdout => ?_)
  cases stdout with
  | true => exact only_attempt trivial
  | false => exact only_pure _

theorem wp_start (rounds : Nat) (scope : ActiveProcessScope) (limits : LocalExecutionLimits)
    (h : s.stream i = ([], [])) :
    Wp (Supervised i) () (start rounds scope limits)
      (fun _ t => Sent (t.stream i)) (fun _ t => Sent (t.stream i)) s := by
  have hquiet : ∀ {β : Type} {p : ProcessM β} {f : β → ProcessM (Option ProcessResult)}
      {t : System ι}, Only Silent p → t.stream i = ([], []) →
      (∀ b u, u.stream i = ([], []) → Wp (Supervised i) () (f b)
        (fun _ t => Sent (t.stream i)) (fun _ t => Sent (t.stream i)) u) →
      Wp (Supervised i) () (p >>= f)
        (fun _ t => Sent (t.stream i)) (fun _ t => Sent (t.stream i)) t := by
    intro β p f t hp ht hf
    exact wp_seq trivial (wp_silent (K := fun x => x = ([], [])) hp ht) (fun b u _ hu => hf b u hu)
      (fun _ _ _ hu => .inl (.inl hu))
  refine hquiet (only_attempt trivial) h (fun _ t ht => ?_)
  refine hquiet (only_attempt trivial) ht (fun processId t ht => ?_)
  refine hquiet (only_attempt trivial) ht (fun _ t ht => hquiet (only_orRelease _ _) ht ?_)
  intro _ t ht
  refine hquiet (only_attempt trivial) ht (fun started t ht => ?_)
  refine hquiet (only_attempt trivial) ht (fun _ t ht => hquiet (only_orAbandon _ _ _) ht ?_)
  intro _ t ht
  refine hquiet (only_attempt trivial) ht (fun _ t ht => hquiet (only_orAbandon _ _ _) ht ?_)
  intro _ t ht
  refine hquiet only_setNonblocking ht (fun _ t ht => hquiet (only_orAbandon _ _ _) ht ?_)
  intro _ t ht
  refine wp_bind (wp_trySend (fun a t₁ hevent h₁ => ?_))
  have hstreaming : Streaming false (t₁.stream i) := by
    rw [h₁, ht]
    exact ⟨a, [], rfl, ⟨_, hevent⟩, rfl, (fun h => by cases h), fun ⟨_, hb, _⟩ => by cases hb⟩
  refine wp_seq trivial (wp_silent_op trivial hstreaming) (fun threaded t₂ _ h₂ => ?_)
    (fun _ _ _ hu => .inl (.inr ⟨_, hu⟩))
  refine wp_seq trivial (wp_silent (only_orAbandon threaded _ _) h₂) (fun _ t₃ _ h₃ => ?_)
    (fun _ _ _ hu => .inl (.inr ⟨_, hu⟩))
  refine wp_bind (wp_settle (Wp.mono trivial (wp_superviseProcess rounds limits processId started h₃)
    (fun result u _ hu => ?_) (fun e u _ hu => ?_)))
  · cases result with
    | none => exact wp_pure hu
    | some result =>
      exact wp_seq trivial (wp_silent_op trivial hu) (fun _ _ _ hv => wp_pure hv)
        (fun _ _ _ hv => hv)
  · exact wp_seq trivial (wp_silent_op trivial hu) (fun _ _ _ hv => wp_throw hv)
      (fun _ _ _ hv => hv)

end

/-! ## Integrity -/

/-- The chunk of one stream that an event carries. -/
def outputOf (stream : OutputStream) : ProcessEvent → Option (List UInt8)
  | .stdout bytes => if stream = .stdout then some bytes else none
  | .stderr bytes => if stream = .stderr then some bytes else none
  | .started _ | .eventQueueOverflow | .finished _ _ _ => none

/-- The chunks of one stream, in the order of the events. -/
def outputs (stream : OutputStream) (events : List ProcessEvent) : List (List UInt8) :=
  events.filterMap (outputOf stream)

/-- The chunks that were read from one stream. -/
def chunks (stream : OutputStream) (taken : List (OutputStream × List UInt8)) :
    List (List UInt8) :=
  (taken.filter (fun x => x.1 = stream)).map Prod.snd

/-- The consumer has the last event. -/
def FinishedReceived (events : List ProcessEvent) : Prop :=
  ∃ id termination code, .finished id termination code ∈ events

/-- Who has received `Finished` and no notice has every chunk of each stream, in order and once. -/
def Whole {ι : Type} (s : System ι) (i : ι) : Prop :=
  FinishedReceived (s.channel i).received → .eventQueueOverflow ∉ (s.channel i).received →
    ∀ stream, outputs stream (s.channel i).received = chunks stream (s.taken i)

/-- The notice found the queue full. -/
def NoticeRefused (sends : List Send) : Prop :=
  ∃ a ∈ sends, a.event = .eventQueueOverflow ∧ a.answer = .full

instance (sends : List Send) : Decidable (NoticeRefused sends) :=
  inferInstanceAs (Decidable (∃ a ∈ sends, _))

theorem outputs_append (stream : OutputStream) (xs ys : List ProcessEvent) :
    outputs stream (xs ++ ys) = outputs stream xs ++ outputs stream ys := List.filterMap_append

theorem outputs_chunkEvent (stream : OutputStream) (taken : List (OutputStream × List UInt8)) :
    outputs stream (taken.map chunkEvent) = chunks stream taken := by
  induction taken with
  | nil => rfl
  | cons x taken ih =>
    obtain ⟨origin, bytes⟩ := x
    have hone : outputs stream [chunkEvent (origin, bytes)] = chunks stream [(origin, bytes)] := by
      cases origin <;> cases stream <;> rfl
    have hsplit : chunks stream ((origin, bytes) :: taken) =
        chunks stream [(origin, bytes)] ++ chunks stream taken := by
      rw [chunks, chunks, chunks, ← List.map_append, ← List.filter_append]
      rfl
    rw [hsplit, ← hone, ← ih, ← outputs_append]
    rfl

/-- Every chunk is one of the two streams'. -/
theorem outputs_length {events : List ProcessEvent} (h : ∀ e ∈ events, ∃ x, chunkEvent x = e) :
    (outputs .stdout events).length + (outputs .stderr events).length = events.length := by
  induction events with
  | nil => rfl
  | cons e events ih =>
    have hrest := ih (fun e he => h e (List.mem_cons_of_mem _ he))
    obtain ⟨⟨stream, bytes⟩, rfl⟩ := h e List.mem_cons_self
    cases stream with
    | stdout =>
      show (outputs .stdout events).length + 1 + (outputs .stderr events).length = _ + 1
      omega
    | stderr =>
      show (outputs .stdout events).length + ((outputs .stderr events).length + 1) = _ + 1
      omega

theorem mem_accepted {sends : List Send} {e : ProcessEvent} (h : e ∈ accepted sends) :
    ∃ a ∈ sends, a.event = e ∧ a.answer = .sent := by
  obtain ⟨a, ha, rfl⟩ := List.mem_map.mp h
  obtain ⟨hmem, hsent⟩ := List.mem_filter.mp ha
  exact ⟨a, hmem, rfl, beq_iff_eq.mp hsent⟩

/-- Sends to a live receiver that were not refused were accepted. -/
theorem accepted_all {sends : List Send} (hlive : ∀ a ∈ sends, a.connected = true)
    (hroom : ¬ ∃ a ∈ sends, a.answer = .full) : accepted sends = sends.map Send.event := by
  have hall : sends.filter (fun a => a.answer == .sent) = sends := by
    refine List.filter_eq_self.mpr (fun a ha => beq_iff_eq.mpr ?_)
    by_contra hnot
    refine hroom ⟨a, ha, ?_⟩
    rw [Send.answer, if_pos (hlive a ha)] at hnot ⊢
    split
    · rename_i hlt
      exact absurd (if_pos hlt) hnot
    · rfl
  rw [accepted, hall]

/-- What was refused is missing. -/
theorem accepted_length_lt {sends : List Send} (hrefused : ∃ a ∈ sends, a.answer = .full) :
    (accepted sends).length < (sends.map Send.event).length := by
  obtain ⟨a, ha, hfull⟩ := hrefused
  rw [accepted, List.length_map, List.length_map]
  refine List.length_filter_lt_length_iff_exists.mpr ⟨a, ha, ?_⟩
  rw [hfull]
  decide

section

variable {overflowed : Bool} {sends notice : List Send} {finished : Send}
  {taken : List (OutputStream × List UInt8)}

theorem Streaming.event {x : List Send × List (OutputStream × List UInt8)}
    (h : Streaming overflowed x) {a : Send} (ha : a ∈ x.1) :
    (∃ id, a.event = .started id) ∨ ∃ y, chunkEvent y = a.event := by
  obtain ⟨first, outs, hsends, hfirst, hevents, -⟩ := h.sends
  rw [hsends] at ha
  rcases List.mem_cons.mp ha with rfl | ha
  · exact .inl hfirst
  · have hmem : a.event ∈ outs.map Send.event := List.mem_map_of_mem ha
    rw [hevents] at hmem
    obtain ⟨y, -, hy⟩ := List.mem_map.mp hmem
    exact .inr ⟨y, hy⟩

theorem chunkEvent_ne (y : OutputStream × List UInt8) :
    chunkEvent y ≠ .eventQueueOverflow ∧
      ∀ id termination code, chunkEvent y ≠ .finished id termination code := by
  obtain ⟨stream, bytes⟩ := y
  cases stream with
  | stdout => exact ⟨(fun h => by cases h), fun _ _ _ h => by cases h⟩
  | stderr => exact ⟨(fun h => by cases h), fun _ _ _ h => by cases h⟩

theorem Streaming.event_ne {x : List Send × List (OutputStream × List UInt8)}
    (h : Streaming overflowed x) {a : Send} (ha : a ∈ x.1) :
    a.event ≠ .eventQueueOverflow ∧
      ∀ id termination code, a.event ≠ .finished id termination code := by
  rcases h.event ha with ⟨id, hid⟩ | ⟨y, hy⟩
  · rw [hid]
    exact ⟨(fun h => by cases h), fun _ _ _ h => by cases h⟩
  · rw [← hy]
    exact chunkEvent_ne y

/-- Nobody has `Finished` before the supervisor is at its end. -/
theorem Unfinished.not_received {c : Channel} (hflow : Flow c)
    (h : Unfinished (c.sends, taken)) : ¬ FinishedReceived c.received := by
  rintro ⟨id, termination, code, hmem⟩
  obtain ⟨a, ha, hevent, -⟩ := mem_accepted (hflow.part.subset hmem)
  rcases h with hempty | ⟨overflowed, hstreaming⟩
  · rw [show c.sends = [] from congrArg Prod.fst hempty] at ha
    cases ha
  · exact (hstreaming.event_ne ha).2 id termination code hevent

/-- Who has `Finished` has everything that was accepted, and the receiver was there all along. -/
theorem received_all {c : Channel} (hflow : Flow c)
    (hsends : c.sends = sends ++ notice ++ [finished])
    (hearlier : ∀ a ∈ sends ++ notice, ∀ id termination code,
      a.event ≠ .finished id termination code)
    (hreceived : FinishedReceived c.received) :
    c.received = accepted (sends ++ notice) ++ [finished.event] ∧
      ∀ a ∈ sends ++ notice, a.connected = true := by
  obtain ⟨id, termination, code, hmem⟩ := hreceived
  obtain ⟨a, ha, hevent, hsent⟩ := mem_accepted (hflow.part.subset hmem)
  have hlast : a = finished := by
    rw [hsends] at ha
    rcases List.mem_append.mp ha with ha | ha
    · exact absurd hevent (hearlier a ha id termination code)
    · exact List.mem_singleton.mp ha
  subst hlast
  have hpart := hflow.part
  rw [hsends, accepted_append, accepted_one, if_pos hsent] at hpart
  constructor
  · rcases List.prefix_concat_iff.mp hpart with hwhole | hshort
    · exact hwhole
    · obtain ⟨b, hb, hevent', -⟩ := mem_accepted (hshort.subset hmem)
      exact absurd hevent' (hearlier b hb id termination code)
  · intro b hb
    have honce := hflow.once
    rw [hsends] at honce
    obtain ⟨-, -, hbefore⟩ := List.pairwise_append.mp honce
    exact hbefore b hb a List.mem_cons_self ((Send.sent_iff a).mp hsent).1

/-- `Started` carries no output. -/
theorem outputs_started {first : Send} (hfirst : ∃ id, first.event = .started id)
    (outs : List Send) (stream : OutputStream) :
    outputs stream (accepted (first :: outs)) = outputs stream (accepted outs) := by
  obtain ⟨id, hid⟩ := hfirst
  rw [← List.singleton_append, accepted_append, outputs_append, accepted_one]
  split
  · rw [hid]
    rfl
  · rfl

theorem Streaming.outputs_all (h : Streaming false (sends, taken))
    (hlive : ∀ a ∈ sends, a.connected = true) (stream : OutputStream) :
    outputs stream (accepted sends) = chunks stream taken := by
  obtain ⟨first, outs, hsends, hfirst, hevents, hrefused⟩ := h.sends
  obtain rfl : sends = first :: outs := hsends
  have hroom : ¬ ∃ a ∈ outs, a.answer = .full := fun hfull => by cases hrefused.mpr hfull
  rw [outputs_started hfirst,
    accepted_all (fun a ha => hlive a (List.mem_cons_of_mem _ ha)) hroom, hevents]
  exact outputs_chunkEvent stream taken

/-- With a chunk refused, some stream has fewer than were read: count both. -/
theorem Streaming.outputs_missing (h : Streaming true (sends, taken)) :
    ¬ ∀ stream, outputs stream (accepted sends) = chunks stream taken := by
  obtain ⟨first, outs, hsends, hfirst, hevents, hrefused⟩ := h.sends
  obtain rfl : sends = first :: outs := hsends
  intro hall
  have hshorter : (accepted outs).length < (taken.map chunkEvent).length :=
    Nat.lt_of_lt_of_eq (accepted_length_lt (hrefused.mp rfl)) (congrArg List.length hevents)
  have hmem : ∀ e ∈ accepted outs, ∃ x, chunkEvent x = e := by
    intro e he
    obtain ⟨a, ha, rfl, -⟩ := mem_accepted he
    have hevent : a.event ∈ outs.map Send.event := List.mem_map_of_mem ha
    rw [hevents] at hevent
    obtain ⟨y, -, hy⟩ := List.mem_map.mp hevent
    exact ⟨y, hy⟩
  have hgot := outputs_length hmem
  have hread : (outputs .stdout (taken.map chunkEvent)).length +
      (outputs .stderr (taken.map chunkEvent)).length = (taken.map chunkEvent).length := by
    refine outputs_length (fun e he => ?_)
    obtain ⟨y, -, hy⟩ := List.mem_map.mp he
    exact ⟨y, hy⟩
  rw [← outputs_started hfirst outs .stdout, ← outputs_started hfirst outs .stderr, hall, hall]
    at hgot
  rw [outputs_chunkEvent, outputs_chunkEvent] at hread
  omega

end

/-- **Integrity of a finished stream.** -/
theorem Complete.whole_iff {ι : Type} {t : System ι} {i : ι} (hflow : Flow (t.channel i))
    (h : Complete (t.stream i)) (hreceived : FinishedReceived (t.channel i).received) :
    Whole t i ↔ ¬ NoticeRefused (t.channel i).sends := by
  obtain ⟨overflowed, sends, notice, finished, hsends, hstreaming, ⟨id, termination, code, hlast⟩,
    hnotice⟩ := h.sends
  have hshape : (t.channel i).sends = sends ++ notice ++ [finished] := hsends
  have hearlier : ∀ a ∈ sends ++ notice, ∀ id termination code,
      a.event ≠ .finished id termination code := by
    intro a ha
    rcases List.mem_append.mp ha with ha | ha
    · exact (hstreaming.event_ne ha).2
    · rcases hnotice with ⟨-, rfl⟩ | ⟨-, b, rfl, hb⟩
      · cases ha
      · rw [List.mem_singleton.mp ha, hb]
        exact fun _ _ _ h => by cases h
  obtain ⟨hall, hlive⟩ := received_all hflow hshape hearlier hreceived
  have houtputs : ∀ stream, outputs stream (t.channel i).received =
      outputs stream (accepted sends) := by
    intro stream
    rw [hall, accepted_append, outputs_append, outputs_append, hlast]
    rcases hnotice with ⟨-, rfl⟩ | ⟨-, b, rfl, hb⟩
    · exact (List.append_nil _).trans (List.append_nil _)
    · rw [accepted_one, hb]
      split
      · exact (List.append_nil _).trans (List.append_nil _)
      · exact (List.append_nil _).trans (List.append_nil _)
  have hsilent : ∀ a ∈ sends, a.event ≠ .eventQueueOverflow :=
    fun a ha => (hstreaming.event_ne ha).1
  rcases hnotice with ⟨rfl, rfl⟩ | ⟨rfl, b, rfl, hb⟩
  · -- nothing was refused
    refine iff_of_true (fun _ _ stream => ?_) ?_
    · rw [houtputs stream]
      exact hstreaming.outputs_all (fun a ha => hlive a (List.mem_append_left _ ha)) stream
    · rintro ⟨a, ha, hevent, -⟩
      rw [hshape, List.append_nil] at ha
      rcases List.mem_append.mp ha with ha | ha
      · exact hsilent a ha hevent
      · rw [List.mem_singleton.mp ha, hlast] at hevent
        cases hevent
  · by_cases hsent : b.answer = .sent
    · -- the notice was accepted, and so received
      have hmem : ProcessEvent.eventQueueOverflow ∈ (t.channel i).received := by
        rw [hall, accepted_append, accepted_one, if_pos hsent, hb]
        exact List.mem_append_left _ (List.mem_append_right _ List.mem_cons_self)
      refine iff_of_true (fun _ hnone => absurd hmem hnone) ?_
      rintro ⟨a, ha, hevent, hfull⟩
      rw [hshape] at ha
      rcases List.mem_append.mp ha with ha | ha
      · rcases List.mem_append.mp ha with ha | ha
        · exact hsilent a ha hevent
        · rw [List.mem_singleton.mp ha, hsent] at hfull
          cases hfull
      · rw [List.mem_singleton.mp ha, hlast] at hevent
        cases hevent
    · -- a live receiver refuses only when the queue is full
      have hfull : b.answer = .full := by
        have hconnected := hlive b (List.mem_append_right _ List.mem_cons_self)
        rw [Send.answer, if_pos hconnected] at hsent ⊢
        split
        · rename_i hroom
          exact absurd (if_pos hroom) hsent
        · rfl
      refine iff_of_false (fun hwhole => ?_) (not_not.mpr ⟨b, ?_, hb, hfull⟩)
      · refine hstreaming.outputs_missing (fun stream => ?_)
        rw [← houtputs stream]
        refine hwhole hreceived (fun hmem => ?_) stream
        rw [hall, accepted_append, accepted_one, if_neg hsent, List.append_nil] at hmem
        rcases List.mem_append.mp hmem with hmem | hmem
        · obtain ⟨a, ha, hevent, -⟩ := mem_accepted hmem
          exact hsilent a ha hevent
        · rw [List.mem_singleton, hlast] at hmem
          cases hmem
      · rw [hshape]
        exact List.mem_append_left _ (List.mem_append_right _ List.mem_cons_self)

/-- Whatever a call does, it keeps the queue one. -/
theorem wp_flow {ι : Type} [DecidableEq ι] {i : ι} {s : System ι} {α : Type} (p : ProcessM α)
    (h : Flow (s.channel i)) :
    Wp (Supervised i) () p (fun _ t => Flow (t.channel i)) (fun _ t => Flow (t.channel i)) s := by
  refine wp_only (J := fun t : System ι => Flow (t.channel i))
    (fun o _ t ht => ⟨trivial, fun w _ r hr _ => ?_⟩) (Proc.only_all p.run) h
  have hr' : (exec i w o t).2 = r := hr
  rw [← hr']
  exact perform_flow o w (occurs_flow w.before ht)

/-- **Integrity of the event stream.**  For every output, every interleaving of the consumer with
    the supervisor, and whatever the consumer does after it, also when the supervisor fails or is
    still running. -/
theorem whole_iff_noticed {ι : Type} [DecidableEq ι] (i : ι) (rounds : Nat)
    (scope : ActiveProcessScope) (limits : LocalExecutionLimits) (w : Nat → World ι)
    (s : System ι) (hnew : s.channel i = .new ∧ s.taken i = []) (after : List (ι × Occurrence)) :
    let t := after.foldl System.occur (runAlone (exec i) w (start rounds scope limits) 0 s).2.2
    Whole t i ↔ ¬ (FinishedReceived (t.channel i).received ∧ NoticeRefused (t.channel i).sends) := by
  intro t
  have hstart : s.stream i = ([], []) := by
    rw [System.stream, hnew.1, hnew.2]
    rfl
  have hflow₀ : Flow (s.channel i) := hnew.1 ▸ flow_new
  have hcall : Wp (Supervised i) () (start rounds scope limits)
      (fun _ t => Sent (t.stream i) ∧ Flow (t.channel i))
      (fun _ t => Sent (t.stream i) ∧ Flow (t.channel i)) s :=
    Wp.and (wp_start rounds scope limits hstart) (wp_flow _ hflow₀)
  have hran := Post.both (wp_run (w := w) (n := 0) (fun _ => trivial) hcall)
  have hflow : Flow (t.channel i) := occurs_flow after hran.2
  have hsent : Sent (t.stream i) := (occurs_stream after _ i).symm ▸ hran.1
  by_cases hreceived : FinishedReceived (t.channel i).received
  · rcases hsent with hunfinished | hcomplete
    · exact absurd hreceived (Unfinished.not_received hflow hunfinished)
    · rw [hcomplete.whole_iff hflow hreceived]
      exact not_congr ⟨fun h => ⟨hreceived, h⟩, fun h => h.2⟩
  · exact iff_of_true (fun h => absurd h hreceived) (fun h => hreceived h.1)

/-- A process that writes a byte to each stream whenever it is read, up to the operation number
    `last`, and then exits; the consumer takes its first event shortly after that. -/
def writing (last n : Nat) : World Unit where
  before :=
    if n < last then []
    else if n < last + 5 then [((), .leaderExits (.exited 0))]
    else if n = last + 5 then [((), .receives)]
    else []
  draws := [⟨7⟩]
  success := true
  read := if n < last then .bytes ⟨[46], by decide, by decide⟩ else .closed
  now := n
  status := .exited 0

/-- The system when that process has been supervised to its end, and all events were taken. -/
def afterWriting (rounds last : Nat) : System Unit :=
  (List.replicate eventQueueCapacity ((), Occurrence.receives)).foldl System.occur
    (runAlone (exec ()) (writing last) (start rounds (.project ⟨2⟩)
      { timeout := none, maxStdoutBytes := 512, maxStderrBytes := 512 }) 0 System.new).2.2

/-- One round of writing fits in the queue. -/
theorem whole_of_sixteen : Whole (afterWriting 2 46) () :=
  (whole_iff_noticed () 2 (.project ⟨2⟩)
    { timeout := none, maxStdoutBytes := 512, maxStderrBytes := 512 } (writing 46) System.new
    ⟨rfl, rfl⟩ (List.replicate eventQueueCapacity ((), Occurrence.receives))).mpr
    (fun h => absurd h.2 (by set_option maxRecDepth 20000 in decide))

/-- Sixteen rounds do not: the last chunk is refused, and so is the notice; then one event is taken,
    and `Finished` gets through. -/
theorem lostNotice_not_whole :
    FinishedReceived ((afterWriting 17 586).channel ()).received ∧
      .eventQueueOverflow ∉ ((afterWriting 17 586).channel ()).received ∧
      ¬ Whole (afterWriting 17 586) () := by
  have hfinished : .finished ⟨7⟩ .exited (some 0) ∈ ((afterWriting 17 586).channel ()).received := by
    set_option maxRecDepth 20000 in decide
  have hsilent : .eventQueueOverflow ∉ ((afterWriting 17 586).channel ()).received := by
    set_option maxRecDepth 20000 in decide
  have hmissing : (outputs .stderr ((afterWriting 17 586).channel ()).received).length ≠
      (chunks .stderr ((afterWriting 17 586).taken ())).length := by
    set_option maxRecDepth 20000 in decide
  refine ⟨⟨_, _, _, hfinished⟩, hsilent, fun hwhole => hmissing ?_⟩
  rw [hwhole ⟨_, _, _, hfinished⟩ hsilent]

end VibeCoder.Process
