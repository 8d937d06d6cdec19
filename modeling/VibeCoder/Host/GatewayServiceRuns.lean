/-
  Any sequence of starts, status reports and stops of the gateway service, with services that exit
  at any moment, also between two steps of a call.

  1. **Supervision** (`Sound`) — an entry of the registry belongs to just the launch whose supervisor
     has not released it, so at most one launch is live; supervisors only ever release.

  2. **Readiness** — two attestations in a row that passed, and a service still active after them:
     both were answered while the new launch was active.

  3. **Between calls** (`Between`) — what is active is what the session holds, and what the session
     holds was attested.

  4. **The law** (`gateway_service_law`) — a stop fails for nothing but a missing session in just the
     runs in which no service leaves the registry between a stop's second look at it and its
     cancellation.
-/
import VibeCoder.Host.GatewayService
import VibeCoder.Lib.WeakestPre
import VibeCoder.Process.Slots

namespace VibeCoder.OmniRoute

open Resume Runs
open Process (ProcessId ProcessResult ExitStatus Registry ActiveProcess classifyExit processError)
open Host (hostError)

/-! ## Supervision -/

/-- The result a supervisor has. -/
def Supervisor.result : Supervisor → Option ProcessResult
  | .reported _ result | .released result | .completed result => some result
  | .absent | .watching _ => none

/-- The registry has just the entries of the live launches. -/
structure Sound (p : Processes) : Prop where
  live : ∀ n id, (p.supervisor n).live = some id ↔
    (id, (⟨nodeScope, n⟩ : ActiveProcess Nat)) ∈ p.registry.active
  scope : ∀ a ∈ p.registry.active, a.2.scope = nodeScope
  fresh : ∀ n, p.launches ≤ n → p.supervisor n = .absent
  timely : ∀ n result, (p.supervisor n).result = some result → result.termination ≠ .timedOut

/-- No launch is live. -/
def Quiet (p : Processes) : Prop := ∀ n, (p.supervisor n).live = none

theorem Sound.empty : Sound Processes.empty where
  live := fun _ _ => ⟨fun h => (by cases h), fun h => (by cases h)⟩
  scope := fun _ h => by cases h
  fresh := fun _ _ => rfl
  timely := fun _ _ h => by cases h

theorem exit_timely (exit : Exit) (id : ProcessId) (requested : Bool) :
    (exit.result id requested).termination ≠ .timedOut := by
  unfold Exit.result
  dsimp only
  split
  · exact nofun
  · cases exit.status with
    | exited code => exact nofun
    | signaled number => exact nofun

section Supervision

variable {p : Processes} {n m : Nat} {id : ProcessId}

theorem Processes.set_self {v : Supervisor} : (p.set n v).supervisor n = v := if_pos rfl

theorem Processes.set_other {v : Supervisor} (h : m ≠ n) :
    (p.set n v).supervisor m = p.supervisor m := if_neg h

theorem Sound.active_eq (h : Sound p) : p.activeRuntimeService = p.registry.active.length := by
  refine List.countP_eq_length.mpr (fun a ha => ?_)
  rw [h.scope a ha]
  rfl

theorem Sound.length_le (h : Sound p) : p.registry.active.length ≤ 1 := by
  rw [← h.active_eq]
  exact p.registry.limited nodeScope

/-- A live launch has the only entry. -/
theorem Sound.entry (h : Sound p) (hlive : (p.supervisor n).live = some id) :
    p.registry.active = [(id, ⟨nodeScope, n⟩)] := by
  have hmem := (h.live n id).mp hlive
  have hlength := h.length_le
  match hactive : p.registry.active with
  | [] =>
    rw [hactive] at hmem
    cases hmem
  | [a] =>
    rw [hactive, List.mem_singleton] at hmem
    rw [hmem]
  | a :: b :: rest =>
    rw [hactive, List.length_cons, List.length_cons] at hlength
    omega

theorem Sound.quiet_of_nil (h : Sound p) (hnil : p.registry.active = []) : Quiet p := by
  intro n
  cases hlive : (p.supervisor n).live with
  | none => rfl
  | some id =>
    rw [h.entry hlive] at hnil
    cases hnil

theorem Sound.nil_of_quiet (h : Sound p) (hquiet : Quiet p) : p.registry.active = [] := by
  match hactive : p.registry.active with
  | [] => rfl
  | (id, ⟨scope, n⟩) :: rest =>
    have hmem : (id, (⟨scope, n⟩ : ActiveProcess Nat)) ∈ p.registry.active := by
      rw [hactive]
      exact List.mem_cons_self
    have hscope : scope = nodeScope := h.scope _ hmem
    subst hscope
    have hlive := (h.live n id).mpr hmem
    rw [hquiet n] at hlive
    cases hlive

/-- The service is active just when a launch is live. -/
theorem Sound.active_iff (h : Sound p) : p.activeRuntimeService = 1 ↔ ¬ Quiet p := by
  rw [h.active_eq]
  constructor
  · intro hone hquiet
    rw [h.nil_of_quiet hquiet] at hone
    cases hone
  · intro hnot
    have hne : p.registry.active ≠ [] := fun hnil => hnot (h.quiet_of_nil hnil)
    have hpos := List.length_pos_of_ne_nil hne
    have hle := h.length_le
    omega

/-- A supervisor that goes on with its entry as it was. -/
theorem Sound.set {v : Supervisor} (h : Sound p) (hn : n < p.launches)
    (hlive : v.live = (p.supervisor n).live)
    (htimely : ∀ result, v.result = some result → result.termination ≠ .timedOut) :
    Sound (p.set n v) where
  live := by
    intro m id
    by_cases hm : m = n
    · rw [hm, Processes.set_self, hlive]
      exact h.live n id
    · rw [Processes.set_other hm]
      exact h.live m id
  scope := h.scope
  fresh := by
    intro m hm
    have hne : m ≠ n := Nat.ne_of_gt (Nat.lt_of_lt_of_le hn hm)
    rw [Processes.set_other hne]
    exact h.fresh m hm
  timely := by
    intro m result hm
    by_cases heq : m = n
    · rw [heq, Processes.set_self] at hm
      exact htimely result hm
    · rw [Processes.set_other heq] at hm
      exact h.timely m result hm

theorem Sound.started_lt (h : Sound p) (hstarted : p.supervisor n ≠ .absent) : n < p.launches := by
  by_contra hcontra
  exact hstarted (h.fresh n (Nat.le_of_not_lt hcontra))

theorem Sound.supervise (h : Sound p) (n : Nat) (exit : Exit) : Sound (p.supervise n exit) := by
  unfold Processes.supervise
  cases hn : p.supervisor n with
  | absent => exact h
  | completed result => exact h
  | watching id =>
    have hlt : n < p.launches := h.started_lt (by rw [hn]; exact nofun)
    refine h.set hlt (by rw [hn]; rfl) (fun result hresult => ?_)
    injection hresult with hresult
    rw [← hresult]
    exact exit_timely exit id _
  | released result =>
    have hlt : n < p.launches := h.started_lt (by rw [hn]; exact nofun)
    refine h.set hlt (by rw [hn]; rfl) (fun other hother => ?_)
    injection hother with hother
    rw [← hother]
    exact h.timely n result (by rw [hn]; rfl)
  | reported id result =>
    have hlt : n < p.launches := h.started_lt (by rw [hn]; exact nofun)
    have hentry : p.registry.active = [(id, ⟨nodeScope, n⟩)] := h.entry (by rw [hn]; rfl)
    have hgone : (p.registry.remove id).active = [] := by
      unfold Registry.remove
      dsimp only
      rw [hentry]
      simp
    have hother : ∀ m, m ≠ n → (p.supervisor m).live = none := by
      intro m hm
      cases hlive : (p.supervisor m).live with
      | none => rfl
      | some other =>
        have hsame := hentry.symm.trans (h.entry hlive)
        simp only [List.cons.injEq, Prod.mk.injEq, ActiveProcess.mk.injEq] at hsame
        exact absurd hsame.1.2.2.symm hm
    constructor
    · intro m other
      change ((p.set n (.released result)).supervisor m).live = some other ↔
        (other, (⟨nodeScope, m⟩ : ActiveProcess Nat)) ∈ (p.registry.remove id).active
      rw [hgone]
      refine ⟨fun hlive => ?_, fun hmem => by cases hmem⟩
      by_cases hm : m = n
      · rw [hm, Processes.set_self] at hlive
        cases hlive
      · rw [Processes.set_other hm, hother m hm] at hlive
        cases hlive
    · intro a ha
      change a ∈ (p.registry.remove id).active at ha
      rw [hgone] at ha
      cases ha
    · intro m hm
      have hne : m ≠ n := Nat.ne_of_gt (Nat.lt_of_lt_of_le hlt hm)
      exact (Processes.set_other hne).trans (h.fresh m hm)
    · intro m other hm
      change ((p.set n (.released result)).supervisor m).result = some other at hm
      by_cases heq : m = n
      · rw [heq, Processes.set_self] at hm
        injection hm with hm
        rw [← hm]
        exact h.timely n result (by rw [hn]; rfl)
      · rw [Processes.set_other heq] at hm
        exact h.timely m other hm

/-- What can become of a process table by itself: supervisors go on, and none begins. -/
structure Later (p q : Processes) : Prop where
  live : ∀ n id, (q.supervisor n).live = some id → (p.supervisor n).live = some id
  started : ∀ n, p.supervisor n ≠ .absent → q.supervisor n ≠ .absent

theorem Later.refl (p : Processes) : Later p p := ⟨fun _ _ h => h, fun _ h => h⟩

theorem Later.trans {p q r : Processes} (h : Later p q) (h' : Later q r) : Later p r :=
  ⟨fun n id hr => h.live n id (h'.live n id hr), fun n hp => h'.started n (h.started n hp)⟩

theorem Later.quiet {p q : Processes} (h : Later p q) (hquiet : Quiet p) : Quiet q := by
  intro n
  cases hlive : (q.supervisor n).live with
  | none => rfl
  | some id =>
    have hbefore := h.live n id hlive
    rw [hquiet n] at hbefore
    cases hbefore

theorem later_set {v : Supervisor} (hstarted : v ≠ .absent)
    (hlive : ∀ id, v.live = some id → (p.supervisor n).live = some id) :
    Later p (p.set n v) := by
  constructor
  · intro m id hm
    by_cases heq : m = n
    · rw [heq, Processes.set_self] at hm
      rw [heq]
      exact hlive id hm
    · rwa [Processes.set_other heq] at hm
  · intro m hm
    by_cases heq : m = n
    · rw [heq, Processes.set_self]
      exact hstarted
    · rwa [Processes.set_other heq]

theorem later_supervise (p : Processes) (n : Nat) (exit : Exit) :
    Later p (p.supervise n exit) := by
  unfold Processes.supervise
  cases hn : p.supervisor n with
  | absent => exact Later.refl p
  | completed result => exact Later.refl p
  | watching id => exact later_set nofun (fun other hother => by rw [hn]; exact hother)
  | reported id result =>
    have hset : Later p (p.set n (.released result)) := later_set nofun nofun
    exact ⟨hset.live, hset.started⟩
  | released result => exact later_set nofun nofun

theorem Sound.occurs (h : Sound p) (occurred : List (Nat × Exit)) : Sound (p.occurs occurred) := by
  induction occurred generalizing p with
  | nil => exact h
  | cons x occurred ih => exact ih (h.supervise x.1 x.2)

theorem later_occurs (p : Processes) (occurred : List (Nat × Exit)) :
    Later p (p.occurs occurred) := by
  induction occurred generalizing p with
  | nil => exact Later.refl p
  | cons x occurred ih => exact (later_supervise p x.1 x.2).trans (ih _)

end Supervision

/-! ## Operations -/

/-- One call alone; what else happens comes with each operation. -/
abbrev Alone : Setting Op (fun o => Result o.Val) Unit World Gateway :=
  Setting.solo exec (fun _ => True)

/-- The gateway after what has happened by itself. -/
def Gateway.later (g : Gateway) (occurred : List (Nat × Exit)) : Gateway :=
  { g with processes := g.processes.occurs occurred }

/-- An assertion that what happens by itself leaves true. -/
def Stable (K : Gateway → Prop) : Prop := ∀ g occurred, K g → K (g.later occurred)

/-- The operations that change nothing themselves. -/
def Op.Plain : Op → Prop
  | .putSession _ | .startPersistentRuntimeService | .executionProfile | .cancel _ | .wait _ => False
  | _ => True

/-- The operations that cannot fail either. -/
def Op.Total : Op → Prop
  | .session | .now | .sleep | .activeRuntimeService | .drainFinished _ => True
  | _ => False

section Rules

variable {K : Gateway → Prop} {g : Gateway} {o : Op}

theorem exec_plain (ho : o.Plain) (w : World) (g : Gateway) : (exec w o g).2 = g.later w.occurred := by
  cases o with
  | putSession session => exact ho.elim
  | startPersistentRuntimeService => exact ho.elim
  | executionProfile => exact ho.elim
  | cancel processId => exact ho.elim
  | wait process => exact ho.elim
  | _ => rfl

theorem wp_perform {Q : o.Val → Gateway → Prop} {E : VibeCoderError → Gateway → Prop}
    (h : ∀ w, Post Q E (exec w o g).1 (exec w o g).2) : Wp Alone () (perform o) Q E g := by
  refine wp_attempt trivial (fun w _ t ht _ => ?_)
  change (exec w o g).2 = t at ht
  rw [← ht]
  exact h w

theorem wp_plain (hK : Stable K) (ho : o.Plain) (h : K g) :
    Wp Alone () (perform o) (fun _ => K) (fun _ => K) g := by
  refine wp_perform (fun w => ?_)
  rw [exec_plain ho]
  have hafter : K (g.later w.occurred) := hK g w.occurred h
  cases (exec w o g).1 with
  | ok v => exact hafter
  | error e => exact hafter

theorem wp_total (hK : Stable K) (ho : o.Total) (h : K g) :
    Wp Alone () (perform o) (fun _ => K) (fun _ _ => False) g := by
  refine wp_perform (fun w => ?_)
  have hafter : K (g.later w.occurred) := hK g w.occurred h
  cases o with
  | session => exact hafter
  | now => exact hafter
  | sleep => exact hafter
  | activeRuntimeService => exact hafter
  | drainFinished process => exact hafter
  | _ => exact ho.elim

theorem wp_failIf {c : Bool} {code : String} {Q : Unit → Gateway → Prop}
    {E : VibeCoderError → Gateway → Prop} (hfail : c = true → E (hostError code) g)
    (hgo : c = false → Q () g) : Wp Alone () (failIf c code) Q E g := by
  refine wp_resume ?_
  cases c with
  | true => exact hfail rfl
  | false => exact hgo rfl

/-- The service is active just when a launch is live. -/
theorem wp_omnirouteServiceActive (hK : Stable K) (hsound : ∀ t, K t → Sound t.processes)
    (h : K g) : Wp Alone () omnirouteServiceActive
      (fun b t => K t ∧ (b = true ↔ ¬ Quiet t.processes)) (fun _ _ => False) g := by
  refine wp_seq trivial (R := fun (v : Nat) t => K t ∧ v = t.processes.activeRuntimeService)
    (wp_perform (fun w => ⟨hK g w.occurred h, rfl⟩)) ?_ (fun _ _ _ hfalse => hfalse)
  rintro v t - ⟨ht, rfl⟩
  exact ⟨ht, by rw [beq_iff_eq, (hsound t ht).active_iff]⟩

end Rules

/-! ## One launch -/

/-- The launch has begun, and no other one is live. -/
structure Sole (p : Processes) (r : RunningProcess) : Prop where
  sound : Sound p
  only : ∀ n id, (p.supervisor n).live = some id → r = ⟨id, n⟩
  started : p.supervisor r.launch ≠ .absent

section Launch

variable {p q : Processes} {r : RunningProcess} {g : Gateway}
variable {session : Option AndroidOmniRouteSession}

theorem Sole.later (h : Sole p r) (hsound : Sound q) (hlater : Later p q) : Sole q r :=
  ⟨hsound, fun n id hlive => h.only n id (hlater.live n id hlive), hlater.started _ h.started⟩

/-- An active service is that launch. -/
theorem Sole.live (h : Sole p r) (hactive : ¬ Quiet p) :
    (p.supervisor r.launch).live = some r.processId := by
  obtain ⟨n, hn⟩ := not_forall.mp hactive
  obtain ⟨id, hid⟩ := Option.ne_none_iff_exists'.mp hn
  rw [h.only n id hid]
  exact hid

theorem Sole.entry (h : Sole p r) (hactive : ¬ Quiet p) :
    p.registry.active = [(r.processId, ⟨nodeScope, r.launch⟩)] :=
  h.sound.entry (h.live hactive)

theorem Sole.activeLaunch (h : Sole p r) (hactive : ¬ Quiet p) :
    p.activeLaunch = some r.launch := by
  unfold Processes.activeLaunch
  rw [h.entry hactive]
  rfl

/-- The session is as it was, and only the launch can be active. -/
structure Launched (session : Option AndroidOmniRouteSession) (r : RunningProcess)
    (g : Gateway) : Prop where
  sole : Sole g.processes r
  session : g.session = session

theorem stable_launched : Stable (Launched session r) := fun _ occurred h =>
  ⟨h.sole.later (h.sole.sound.occurs occurred) (later_occurs _ occurred), h.session⟩

/-- The last `k` attestations passed, and were answered while the launch was active, if it still is. -/
def Streak (r : RunningProcess) (k : Nat) (g : Gateway) : Prop :=
  ∃ before last, g.attested = before ++ last ∧ last.length = k ∧
    (¬ Quiet g.processes → ∀ a ∈ last, a = (some r.launch, true))

theorem streak_zero : Streak r 0 g := ⟨g.attested, [], (List.append_nil _).symm, rfl, fun _ => nofun⟩

theorem Streak.later {k : Nat} (h : Streak r k g) (occurred : List (Nat × Exit)) :
    Streak r k (g.later occurred) := by
  obtain ⟨before, last, hsplit, hlength, hlast⟩ := h
  exact ⟨before, last, hsplit, hlength,
    fun hactive => hlast (fun hquiet => hactive ((later_occurs _ occurred).quiet hquiet))⟩

/-- One more attestation that passed. -/
theorem Streak.pass {k : Nat} (h : Streak r k g) (hsole : Sole g.processes r) :
    Streak r (k + 1)
      { g with attested := g.attested ++ [(g.processes.activeLaunch, true)] } := by
  obtain ⟨before, last, hsplit, hlength, hlast⟩ := h
  refine ⟨before, last ++ [(g.processes.activeLaunch, true)], ?_, ?_, fun hactive a ha => ?_⟩
  · change g.attested ++ [_] = _
    rw [hsplit, List.append_assoc]
  · rw [List.length_append, hlength]
    rfl
  · rcases List.mem_append.mp ha with ha | ha
    · exact hlast hactive a ha
    · rw [List.mem_singleton.mp ha, hsole.activeLaunch hactive]

/-- Two in a row before a service that is still active are two of the service. -/
theorem Streak.attested {k : Nat} (h : Streak r k g) (hk : readyConsecutiveAttestations ≤ k)
    (hactive : ¬ Quiet g.processes) : Attested g.attested r.launch := by
  obtain ⟨before, last, hsplit, hlength, hlast⟩ := h
  have hall := hlast hactive
  match last with
  | [] =>
    rw [← hlength] at hk
    exact absurd hk (by decide)
  | [a] =>
    rw [← hlength, List.length_singleton] at hk
    exact absurd hk (by decide)
  | a :: b :: rest =>
    have ha : a = (some r.launch, true) := hall a List.mem_cons_self
    have hb : b = (some r.launch, true) := hall b (List.mem_cons_of_mem _ List.mem_cons_self)
    rw [ha, hb] at hsplit
    exact ⟨before, rest, hsplit⟩

/-- The loop between two attestations. -/
structure Probing (session : Option AndroidOmniRouteSession) (r : RunningProcess) (k : Nat)
    (g : Gateway) : Prop where
  launched : Launched session r g
  streak : Streak r k g

theorem stable_probing {k : Nat} : Stable (Probing session r k) := fun g occurred h =>
  ⟨stable_launched g occurred h.launched, h.streak.later occurred⟩

/-- The service has passed its attestations. -/
structure Ready (session : Option AndroidOmniRouteSession) (r : RunningProcess) (g : Gateway) :
    Prop where
  launched : Launched session r g
  attested : Attested g.attested r.launch

theorem stable_ready : Stable (Ready session r) := fun g occurred h =>
  ⟨stable_launched g occurred h.launched, h.attested⟩

theorem wp_attestOnce {started attempts k : Nat} (h : Probing session r k g) :
    Wp Alone () (attestOnce r started attempts k)
      (fun answer t =>
        match answer with
        | .inl _ => Ready session r t
        | .inr k => Probing session r k t)
      (fun _ => Launched session r) g := by
  refine wp_seq trivial (R := fun answer t => Launched session r t ∧
      (attestationPassed answer = true → Streak r (k + 1) t))
    (wp_settle (wp_perform (fun w => ?_))) ?_ (fun _ _ _ hfalse => hfalse)
  · have hlater := stable_probing g w.occurred h
    have hlaunched : Launched session r (exec w .executionProfile g).2 :=
      ⟨hlater.launched.sole, hlater.launched.session⟩
    have hstreak : attestationPassed w.profile = true →
        Streak r (k + 1) (exec w .executionProfile g).2 := by
      intro hpassed
      have hpass := hlater.streak.pass hlater.launched.sole
      rw [← hpassed] at hpass
      exact hpass
    change Post _ _ w.profile _
    cases hprofile : w.profile with
    | error e =>
      rw [hprofile] at hstreak
      exact ⟨hlaunched, hstreak⟩
    | ok profile =>
      rw [hprofile] at hstreak
      exact ⟨hlaunched, hstreak⟩
  · rintro (error | profile) t - ⟨hlaunched, hstreak⟩
    · cases error with
      | gateway code =>
        dsimp only
        split
        · exact wp_throw hlaunched
        · exact wp_pure ⟨hlaunched, streak_zero⟩
      | _ => exact wp_pure ⟨hlaunched, streak_zero⟩
    · dsimp only
      split
      · exact wp_throw hlaunched
      · rename_i hmatches
        have hpassed : attestationPassed (.ok profile) = true := by
          change profileMatches profile = true
          simpa using hmatches
        have hprobing : Probing session r (k + 1) t := ⟨hlaunched, hstreak hpassed⟩
        split
        · rename_i hk
          refine wp_seq trivial (wp_omnirouteServiceActive stable_probing
            (fun _ ht => ht.launched.sole.sound) hprobing) ?_ (fun _ _ _ hfalse => hfalse.elim)
          rintro active u - ⟨hu, hactive⟩
          refine wp_seq trivial (R := fun _ u => Ready session r u)
            (F := fun _ => Launched session r)
            (wp_failIf (fun _ => hu.launched) (fun hgo => ⟨hu.launched, ?_⟩)) ?_
            (fun _ _ _ hf => hf)
          · refine hu.streak.attested hk (hactive.mp ?_)
            simpa using hgo
          · intro _ v _ hv
            refine wp_seq trivial (wp_total stable_ready trivial hv) ?_
              (fun _ _ _ hfalse => hfalse.elim)
            intro now x _ hx
            exact hx
        · exact wp_pure hprobing

theorem wp_readinessLoop {started : Nat} (rounds : Nat) {attempts k : Nat}
    (h : Probing session r k g) :
    Wp Alone () (readinessLoop r started rounds attempts k) (fun _ => Ready session r)
      (fun _ => Launched session r) g := by
  induction rounds generalizing attempts k g with
  | zero => exact wp_throw h.launched
  | succ rounds ih =>
    refine wp_seq trivial (wp_total stable_probing trivial h) ?_ (fun _ _ _ hfalse => hfalse.elim)
    intro finished t _ ht
    refine wp_seq trivial (R := fun _ => Probing session r k) (F := fun _ => Launched session r)
      (wp_failIf (fun _ => ht.launched) (fun _ => ht)) ?_ (fun _ _ _ hf => hf)
    intro _ t _ ht
    refine wp_seq trivial (wp_omnirouteServiceActive stable_probing
      (fun _ hu => hu.launched.sole.sound) ht) ?_ (fun _ _ _ hfalse => hfalse.elim)
    rintro active t - ⟨ht, -⟩
    refine wp_seq trivial (R := fun _ => Probing session r k) (F := fun _ => Launched session r)
      (wp_failIf (fun _ => ht.launched) (fun _ => ht)) ?_ (fun _ _ _ hf => hf)
    intro _ t _ ht
    refine wp_seq trivial (wp_attestOnce ht) ?_ (fun _ _ _ hf => hf)
    rintro (readiness | k) t - ht
    · exact wp_pure ht
    · refine wp_seq trivial (wp_total stable_probing trivial ht) ?_ (fun _ _ _ hfalse => hfalse.elim)
      intro now t _ ht
      refine wp_seq trivial (R := fun _ => Probing session r k) (F := fun _ => Launched session r)
        (wp_failIf (fun _ => ht.launched) (fun _ => ht)) ?_ (fun _ _ _ hf => hf)
      intro _ t _ ht
      refine wp_seq trivial (wp_total stable_probing trivial ht) ?_ (fun _ _ _ hfalse => hfalse.elim)
      intro _ t _ ht
      exact ih ht

theorem wp_waitForOmnirouteReadiness (h : Launched session r g) :
    Wp Alone () (waitForOmnirouteReadiness r) (fun _ => Ready session r)
      (fun _ => Launched session r) g := by
  refine wp_seq trivial (wp_plain stable_launched trivial h) ?_ (fun _ _ _ hf => hf)
  intro _ t _ ht
  refine wp_seq trivial (wp_total stable_launched trivial ht) ?_ (fun _ _ _ hfalse => hfalse.elim)
  intro started t _ ht
  exact wp_readinessLoop _ ⟨ht, streak_zero⟩

end Launch

/-! ## Ending a launch -/

section Ending

variable {p q : Processes} {r : RunningProcess} {g : Gateway} {n : Nat}
variable {session : Option AndroidOmniRouteSession}

/-- A supervisor that has begun is done after three more steps. -/
theorem supervise_completes (h : p.supervisor n ≠ .absent) (exit : Exit) :
    ∃ result, (((p.supervise n exit).supervise n exit).supervise n exit).supervisor n =
      .completed result := by
  have hcompleted : ∀ {q : Processes} {result}, q.supervisor n = .completed result →
      (q.supervise n exit).supervisor n = .completed result := by
    intro q result hq
    unfold Processes.supervise
    rw [hq]
    exact hq
  have hreleased : ∀ {q : Processes} {result}, q.supervisor n = .released result →
      (q.supervise n exit).supervisor n = .completed result := by
    intro q result hq
    unfold Processes.supervise
    rw [hq]
    exact Processes.set_self
  have hreported : ∀ {q : Processes} {id result}, q.supervisor n = .reported id result →
      (q.supervise n exit).supervisor n = .released result := by
    intro q id result hq
    unfold Processes.supervise
    rw [hq]
    exact Processes.set_self (p := q)
  have hwatching : ∀ {q : Processes} {id}, q.supervisor n = .watching id →
      ∃ result, (q.supervise n exit).supervisor n = .reported id result := by
    intro q id hq
    unfold Processes.supervise
    rw [hq]
    exact ⟨_, Processes.set_self⟩
  cases hn : p.supervisor n with
  | absent => exact absurd hn h
  | watching id =>
    obtain ⟨result, hreport⟩ := hwatching hn
    exact ⟨result, hreleased (hreported hreport)⟩
  | reported id result => exact ⟨result, hcompleted (hreleased (hreported hn))⟩
  | released result => exact ⟨result, hcompleted (hcompleted (hreleased hn))⟩
  | completed result => exact ⟨result, hcompleted (hcompleted (hcompleted hn))⟩

/-- The session is as it was, and nothing is active. -/
structure Ended (session : Option AndroidOmniRouteSession) (g : Gateway) : Prop where
  sound : Sound g.processes
  quiet : Quiet g.processes
  session : g.session = session

theorem stable_ended : Stable (Ended session) := fun _ occurred h =>
  ⟨h.sound.occurs occurred, (later_occurs _ occurred).quiet h.quiet, h.session⟩

/-- When the launch is not live, nothing is. -/
theorem Sole.quiet (h : Sole p r) (hgone : (p.supervisor r.launch).live = none) : Quiet p := by
  by_contra hactive
  rw [h.live hactive] at hgone
  cases hgone

theorem wp_wait (h : Launched session r g) :
    Wp Alone () (perform (.wait r))
      (fun result t => Ended session t ∧ result.termination ≠ .timedOut) (fun _ _ => False) g := by
  refine wp_perform (fun w => ?_)
  have hbefore := stable_launched g w.occurred h
  obtain ⟨result, hresult⟩ := supervise_completes hbefore.sole.started w.exit
  have hsound := ((hbefore.sole.sound.supervise r.launch w.exit).supervise r.launch w.exit).supervise
    r.launch w.exit
  have hsole := hbefore.sole.later hsound (((later_supervise _ r.launch w.exit).trans
    (later_supervise _ r.launch w.exit)).trans (later_supervise _ r.launch w.exit))
  have hanswer : (exec w (.wait r) g).1 = .ok result := by
    change ((g.later w.occurred).processes.wait r.launch w.exit).1 = _
    unfold Processes.wait
    dsimp only
    rw [hresult]
  have hstate : (exec w (.wait r) g).2 = { g.later w.occurred with
      processes := (((g.later w.occurred).processes.supervise r.launch w.exit).supervise r.launch
        w.exit).supervise r.launch w.exit } := by
    change { g.later w.occurred with
      processes := ((g.later w.occurred).processes.wait r.launch w.exit).2 } = _
    unfold Processes.wait
    dsimp only
    rw [hresult]
  rw [hanswer, hstate]
  exact ⟨⟨hsound, hsole.quiet (by rw [hresult]; rfl), hbefore.session⟩,
    hsound.timely r.launch result (by rw [hresult]; rfl)⟩

theorem get_of_mem {registry : Registry Nat} {a : ProcessId × ActiveProcess Nat}
    (h : registry.active = [a]) : registry.get a.1 = some a.2 := by
  unfold Registry.get
  rw [h]
  simp

/-- A cancellation fails just when nothing is active. -/
theorem Sole.cancel_cases (h : Sole p r) :
    (Quiet p ∧ p.cancel r.processId = (.error (processError "process_not_active"), p)) ∨
    (¬ Quiet p ∧ (p.cancel r.processId).1 = .ok () ∧
      (p.cancel r.processId).2 = { p with
        requested := fun n => if n = r.launch then true else p.requested n }) := by
  by_cases hquiet : Quiet p
  · have hnone : p.registry.get r.processId = none := by
      unfold Registry.get
      rw [h.sound.nil_of_quiet hquiet]
      rfl
    refine .inl ⟨hquiet, ?_⟩
    unfold Processes.cancel
    rw [hnone]
  · have hsome : p.registry.get r.processId = some ⟨nodeScope, r.launch⟩ :=
      get_of_mem (h.entry hquiet)
    refine .inr ⟨hquiet, ?_, ?_⟩
    · unfold Processes.cancel
      rw [hsome]
    · unfold Processes.cancel
      rw [hsome]

/-- A request changes nothing but the flag. -/
theorem Sole.request (h : Sole p r) (requested : Nat → Bool) :
    Sole { p with requested := requested } r :=
  ⟨⟨h.sound.live, h.sound.scope, h.sound.fresh, h.sound.timely⟩, h.only, h.started⟩

theorem wp_cancel (h : Launched session r g) :
    Wp Alone () (perform (.cancel r.processId)) (fun _ => Launched session r)
      (fun e t => Launched session r t ∧ Quiet t.processes ∧
        e = processError "process_not_active") g := by
  refine wp_perform (fun w => ?_)
  have hbefore := stable_launched g w.occurred h
  change Post _ _ ((g.later w.occurred).processes.cancel r.processId).1
    { g.later w.occurred with processes := ((g.later w.occurred).processes.cancel r.processId).2 }
  rcases hbefore.sole.cancel_cases with ⟨hquiet, hanswer⟩ | ⟨-, hanswer, hstate⟩
  · rw [hanswer]
    exact ⟨⟨hbefore.sole, hbefore.session⟩, hquiet, rfl⟩
  · rw [hanswer, hstate]
    exact ⟨hbefore.sole.request _, hbefore.session⟩

end Ending

/-! ## Starting -/

section Starting

variable {g : Gateway} {session : Option AndroidOmniRouteSession}

/-- A new launch has the only entry. -/
theorem Sound.launch {p : Processes} (h : Sound p) (hquiet : Quiet p) {id : ProcessId}
    {registry : Registry Nat}
    (hregistry : registry.active = (id, ⟨nodeScope, p.launches⟩) :: p.registry.active)
    (requested : Nat → Bool) :
    Sole { p.set p.launches (.watching id) with
        registry := registry, launches := p.launches + 1, requested := requested }
      ⟨id, p.launches⟩ := by
  have hactive : registry.active = [(id, ⟨nodeScope, p.launches⟩)] := by
    rw [hregistry, h.nil_of_quiet hquiet]
  have hother : ∀ m, m ≠ p.launches →
      ((p.set p.launches (.watching id)).supervisor m).live = none := by
    intro m hm
    rw [Processes.set_other hm]
    exact hquiet m
  refine ⟨⟨?_, ?_, ?_, ?_⟩, ?_, ?_⟩
  · intro m other
    change ((p.set p.launches (.watching id)).supervisor m).live = some other ↔
      (other, (⟨nodeScope, m⟩ : ActiveProcess Nat)) ∈ registry.active
    rw [hactive, List.mem_singleton]
    by_cases hm : m = p.launches
    · rw [hm, Processes.set_self]
      simp [Supervisor.live, eq_comm]
    · rw [hother m hm]
      simp [hm]
  · intro a ha
    change a ∈ registry.active at ha
    rw [hactive] at ha
    rw [List.mem_singleton.mp ha]
  · intro m hm
    change p.launches + 1 ≤ m at hm
    have hne : m ≠ p.launches := by omega
    exact (Processes.set_other hne).trans (h.fresh m (by omega))
  · intro m result hm
    change ((p.set p.launches (.watching id)).supervisor m).result = some result at hm
    by_cases heq : m = p.launches
    · rw [heq, Processes.set_self] at hm
      cases hm
    · rw [Processes.set_other heq] at hm
      exact h.timely m result hm
  · intro m other hm
    change ((p.set p.launches (.watching id)).supervisor m).live = some other at hm
    by_cases heq : m = p.launches
    · rw [heq, Processes.set_self] at hm
      injection hm with hm
      rw [hm, heq]
    · rw [hother m heq] at hm
      cases hm
  · change (p.set p.launches (.watching id)).supervisor p.launches ≠ .absent
    rw [Processes.set_self]
    exact nofun

theorem wp_startPersistentRuntimeService (h : Ended session g) :
    Wp Alone () (perform .startPersistentRuntimeService) (fun r => Launched session r)
      (fun _ => Ended session) g := by
  refine wp_perform (fun w => ?_)
  have hbefore := stable_ended g w.occurred h
  change Post _ _ ((g.later w.occurred).processes.start w).1
    { g.later w.occurred with processes := ((g.later w.occurred).processes.start w).2 }
  unfold Processes.start
  cases w.fault with
  | some e => exact ⟨hbefore.sound, hbefore.quiet, hbefore.session⟩
  | none =>
    dsimp only
    cases hreserve : (g.later w.occurred).processes.registry.reserve
        (g.later w.occurred).processes.launches nodeScope w.draws with
    | error e => exact ⟨hbefore.sound, hbefore.quiet, hbefore.session⟩
    | ok reserved =>
      obtain ⟨id, registry⟩ := reserved
      exact ⟨hbefore.sound.launch hbefore.quiet (Process.reserve_ok hreserve) _, hbefore.session⟩

/-- A start that fails leaves no service behind. -/
theorem wp_startOmnirouteService (h : Ended session g) (expectedManifestSha256 : String) :
    Wp Alone () (startOmnirouteService expectedManifestSha256)
      (fun service => Ready session service.process) (fun _ => Ended session) g := by
  refine wp_seq trivial (wp_plain stable_ended trivial h) ?_ (fun _ _ _ hf => hf)
  intro _ t _ ht
  refine wp_seq trivial (wp_omnirouteServiceActive stable_ended (fun _ hu => hu.sound) ht) ?_
    (fun _ _ _ hfalse => hfalse.elim)
  rintro active t - ⟨ht, -⟩
  refine wp_seq trivial (R := fun _ => Ended session) (F := fun _ => Ended session)
    (wp_failIf (fun _ => ht) (fun _ => ht)) ?_ (fun _ _ _ hf => hf)
  intro _ t _ ht
  refine wp_seq trivial (wp_plain stable_ended trivial ht) ?_ (fun _ _ _ hf => hf)
  intro runtime t _ ht
  refine wp_seq trivial (wp_plain stable_ended trivial ht) ?_ (fun _ _ _ hf => hf)
  intro _ t _ ht
  refine wp_seq trivial (wp_plain stable_ended trivial ht) ?_ (fun _ _ _ hf => hf)
  intro _ t _ ht
  refine wp_seq trivial (wp_startPersistentRuntimeService ht) ?_ (fun _ _ _ hf => hf)
  intro process t _ ht
  refine wp_seq trivial
    (R := Post (fun _ => Ready session process) (fun _ => Launched session process))
    (wp_settle (wp_waitForOmnirouteReadiness ht)) ?_ (fun _ _ _ hfalse => hfalse)
  rintro (error | readiness) t - ht
  · -- the process is cancelled, if it is still there, and waited for
    refine wp_seq trivial (R := fun _ => Launched session process)
      (wp_settle (Wp.mono trivial (wp_cancel ht) (fun _ _ _ hu => hu) (fun _ _ _ hu => hu.1))) ?_
      (fun _ _ _ hfalse => hfalse)
    intro _ t _ ht
    refine wp_seq trivial (R := fun _ => Ended session)
      (wp_settle (Wp.mono trivial (wp_wait ht) (fun _ _ _ hu => hu.1)
        (fun _ _ _ hfalse => hfalse.elim))) ?_ (fun _ _ _ hfalse => hfalse)
    intro _ t _ ht
    exact wp_throw ht
  · exact wp_pure ht

end Starting

/-! ## Between calls -/

/-- What is active is what the session holds, and what the session holds has begun and was
    attested. -/
structure Between (g : Gateway) : Prop where
  sound : Sound g.processes
  held : ∀ n id, (g.processes.supervisor n).live = some id → ∃ session service,
    g.session = some session ∧ session.service = some service ∧ service.process = ⟨id, n⟩
  proven : ∀ session service, g.session = some session → session.service = some service →
    g.processes.supervisor service.process.launch ≠ .absent ∧
      Attested g.attested service.process.launch

/-- A snapshot says ready only of a process that is active and was attested. -/
def Answered (g : Gateway) (snapshot : ServiceSnapshot) : Prop :=
  snapshot.ready = true → ∃ n id, (g.processes.supervisor n).live = some id ∧
    snapshot.processId = some (UuidText.hyphenated id.uuid) ∧ Attested g.attested n

section Calls

variable {g : Gateway} {session : AndroidOmniRouteSession} {service : OmniRouteServiceHandle}

theorem stable_between : Stable Between := by
  intro g occurred h
  have hlater := later_occurs g.processes occurred
  refine ⟨h.sound.occurs occurred, fun n id hlive => h.held n id (hlater.live n id hlive), ?_⟩
  intro session service hsession hservice
  obtain ⟨hstarted, hattested⟩ := h.proven session service hsession hservice
  exact ⟨hlater.started _ hstarted, hattested⟩

theorem Ended.between {held : Option AndroidOmniRouteSession} (h : Ended held g)
    (hnone : ∀ session, held = some session → session.service = none) : Between g := by
  refine ⟨h.sound, fun n id hlive => ?_, fun session service hsession hservice => ?_⟩
  · rw [h.quiet n] at hlive
    cases hlive
  · rw [h.session] at hsession
    rw [hnone session hsession] at hservice
    cases hservice

/-- A session without a service has none running. -/
theorem Between.quiet (h : Between g)
    (hnone : ∀ session, g.session = some session → session.service = none) : Quiet g.processes := by
  intro n
  cases hlive : (g.processes.supervisor n).live with
  | none => rfl
  | some id =>
    obtain ⟨session, service, hsession, hservice, -⟩ := h.held n id hlive
    rw [hnone session hsession] at hservice
    cases hservice

/-- The service of the session is the only one that can be active. -/
theorem Between.sole (h : Between g) (hsession : g.session = some session)
    (hservice : session.service = some service) : Sole g.processes service.process := by
  refine ⟨h.sound, fun n id hlive => ?_, (h.proven session service hsession hservice).1⟩
  obtain ⟨other, running, hother, hrunning, hprocess⟩ := h.held n id hlive
  rw [hsession] at hother
  injection hother with hother
  rw [← hother, hservice] at hrunning
  injection hrunning with hrunning
  rw [hrunning]
  exact hprocess

/-- The snapshot of the session that is there. -/
theorem Between.answered (h : Between g) (hsession : g.session = some session) {status : String}
    {active : Bool} (hactive : active = true → ¬ Quiet g.processes) :
    Answered g (snapshotOf session status active) := by
  intro hready
  obtain ⟨hon, hsome⟩ := Bool.and_eq_true_iff.mp hready
  obtain ⟨service, hservice⟩ := Option.isSome_iff_exists.mp hsome
  have hsole := h.sole hsession hservice
  refine ⟨service.process.launch, service.process.processId, hsole.live (hactive hon), ?_,
    (h.proven session service hsession hservice).2⟩
  change session.service.map _ = _
  rw [hservice]
  rfl

theorem wp_snapshotBytes {K : Gateway → Prop} (hK : Stable K) (hbetween : ∀ t, K t → Between t)
    (hsession : ∀ t, K t → t.session = some session) (h : K g) (status : String) :
    Wp Alone () (snapshotBytes session status) (fun snapshot t => K t ∧ Answered t snapshot)
      (fun _ _ => False) g := by
  refine wp_seq trivial (wp_omnirouteServiceActive hK (fun t ht => (hbetween t ht).sound) h) ?_
    (fun _ _ _ hfalse => hfalse)
  rintro active t - ⟨ht, hactive⟩
  exact wp_pure ⟨ht, (hbetween t ht).answered (hsession t ht) hactive.mp⟩

/-- The session is replaced. -/
theorem wp_putSession {held : Option AndroidOmniRouteSession} {Q : Gateway → Prop}
    {E : VibeCoderError → Gateway → Prop}
    (h : ∀ occurred, Q { g.later occurred with session := held }) :
    Wp Alone () (perform (.putSession held)) (fun _ => Q) E g :=
  wp_perform (fun w => h w.occurred)

/-- The state of a call that has the session and nothing else. -/
structure Holding (session : AndroidOmniRouteSession) (g : Gateway) : Prop where
  between : Between g
  session : g.session = some session

theorem stable_holding : Stable (Holding session) := fun g occurred h =>
  ⟨stable_between g occurred h.between, h.session⟩

theorem Holding.ended (h : Holding session g) (hnone : session.service = none) :
    Ended (some session) g := by
  refine ⟨h.between.sound, h.between.quiet (fun other hother => ?_), h.session⟩
  rw [h.session] at hother
  injection hother with hother
  rw [← hother]
  exact hnone

theorem Ended.holding (h : Ended (some session) g) (hnone : session.service = none) :
    Holding session g := by
  refine ⟨h.between (fun other hother => ?_), h.session⟩
  injection hother with hother
  rw [← hother]
  exact hnone

theorem wp_launchService (h : Ended (some session) g) (hnone : session.service = none)
    (manifestSha : String) :
    Wp Alone () (launchService session manifestSha)
      (fun snapshot t => Between t ∧ Answered t snapshot) (fun _ => Between) g := by
  refine wp_seq trivial (wp_startOmnirouteService h manifestSha) ?_
    (fun _ t _ ht => (ht.holding hnone).between)
  intro service t _ ht
  refine wp_seq trivial (R := fun _ => Holding { session with service := some service })
    (F := fun _ _ => False) (wp_putSession (fun occurred => ?_)) ?_
    (fun _ _ _ hfalse => hfalse.elim)
  · have hready := stable_ready t occurred ht
    refine ⟨⟨hready.launched.sole.sound, fun n id hlive => ?_, ?_⟩, rfl⟩
    · exact ⟨_, service, rfl, rfl, hready.launched.sole.only n id hlive⟩
    · intro other running hother hrunning
      injection hother with hother
      rw [← hother] at hrunning
      injection hrunning with hrunning
      rw [← hrunning]
      exact ⟨hready.launched.sole.started, hready.attested⟩
  · intro _ t _ ht
    exact Wp.mono trivial (wp_snapshotBytes stable_holding (fun _ hu => hu.between)
      (fun _ hu => hu.session) ht _) (fun _ _ _ hu => ⟨hu.1.between, hu.2⟩)
      (fun _ _ _ hfalse => hfalse.elim)

/-- The service is taken out of the session, which keeps nothing that runs but the service. -/
theorem Between.take (h : Between g) (hsession : g.session = some session)
    (hservice : session.service = some service) (occurred : List (Nat × Exit)) :
    Launched (some { session with service := none }) service.process
      { g.later occurred with session := some { session with service := none } } := by
  have hlater := stable_between g occurred h
  exact ⟨hlater.sole hsession hservice, rfl⟩

theorem wp_reapStale (h : Holding session g) (hservice : session.service = some service) :
    Wp Alone () (reapStale session service)
      (fun left t => Ended (some left) t ∧ left.service = none) (fun _ _ => False) g := by
  refine wp_seq trivial (R := fun _ =>
      Launched (some { session with service := none }) service.process) (F := fun _ _ => False)
    (wp_putSession (h.between.take h.session hservice)) ?_ (fun _ _ _ hfalse => hfalse)
  intro _ t _ ht
  refine wp_seq trivial (wp_wait ht) ?_ (fun _ _ _ hfalse => hfalse)
  rintro result t - ⟨ht, -⟩
  refine wp_seq trivial (R := fun _ => Ended (some { session with
      service := none, lastExit := some (exitSummary result) })) (F := fun _ _ => False)
    (wp_putSession (fun occurred => ?_)) ?_ (fun _ _ _ hfalse => hfalse)
  · have hended := stable_ended t occurred ht
    exact ⟨hended.sound, hended.quiet, rfl⟩
  · intro _ t _ ht
    exact wp_pure ⟨ht, rfl⟩

theorem wp_openSession (h : Between g) (key : String) :
    Wp Alone () (openSession key) (fun session => Holding session) (fun _ => Between) g := by
  refine wp_seq trivial (R := fun held t => Between t ∧ t.session = held) (F := fun _ _ => False)
    (wp_perform (fun w => ⟨stable_between g w.occurred h, rfl⟩)) ?_
    (fun _ _ _ hfalse => hfalse.elim)
  rintro (_ | session) t - ⟨ht, hheld⟩
  · have hended : Ended none t := by
      refine ⟨ht.sound, ht.quiet (fun session hsession => ?_), hheld⟩
      rw [hheld] at hsession
      cases hsession
    refine wp_seq trivial (wp_plain stable_ended trivial hended) ?_
      (fun _ u _ hu => hu.between nofun)
    intro _ t _ ht
    refine wp_seq trivial (R := fun _ => Holding { key := key, service := none, lastExit := none })
      (F := fun _ _ => False) (wp_putSession (fun occurred => ?_)) ?_
      (fun _ _ _ hfalse => hfalse.elim)
    · have hlater := stable_ended t occurred ht
      exact Ended.holding ⟨hlater.sound, hlater.quiet, rfl⟩ rfl
    · intro _ t _ ht
      exact wp_pure ht
  · exact wp_pure ⟨ht, hheld⟩

theorem wp_startBytes (h : Between g) (arguments : Result StartArguments) :
    Wp Alone () (startBytes arguments) (fun snapshot t => Between t ∧ Answered t snapshot)
      (fun _ => Between) g := by
  refine wp_seq trivial (R := fun _ => Between) (F := fun _ => Between) (wp_resume ?_) ?_
    (fun _ _ _ hf => hf)
  · cases arguments with
    | error e => exact h
    | ok arguments => exact h
  intro arguments t _ ht
  refine wp_seq trivial (wp_openSession ht arguments.key) ?_ (fun _ _ _ hf => hf)
  intro session t _ ht
  refine wp_seq trivial (R := fun _ => Holding session) (F := fun _ => Between)
    (wp_failIf (fun _ => ht.between) (fun _ => ht)) ?_ (fun _ _ _ hf => hf)
  intro _ t _ ht
  cases hservice : session.service with
  | none => exact wp_launchService (ht.ended hservice) hservice arguments.manifestSha
  | some existing =>
    refine wp_seq trivial (wp_omnirouteServiceActive stable_holding
      (fun _ hu => hu.between.sound) ht) ?_ (fun _ _ _ hfalse => hfalse.elim)
    rintro active t - ⟨ht, -⟩
    cases active with
    | true =>
      refine wp_seq trivial (R := fun _ => Holding session) (F := fun _ => Between)
        (wp_failIf (fun _ => ht.between) (fun _ => ht)) ?_ (fun _ _ _ hf => hf)
      intro _ t _ ht
      exact Wp.mono trivial (wp_snapshotBytes stable_holding (fun _ hu => hu.between)
        (fun _ hu => hu.session) ht _) (fun _ _ _ hu => ⟨hu.1.between, hu.2⟩)
        (fun _ _ _ hfalse => hfalse.elim)
    | false =>
      refine wp_seq trivial (wp_reapStale ht hservice) ?_ (fun _ _ _ hfalse => hfalse.elim)
      rintro left t - ⟨ht, hnone⟩
      exact wp_launchService ht hnone arguments.manifestSha

theorem wp_statusBytes (h : Between g) :
    Wp Alone () statusBytes (fun snapshot t => Between t ∧ Answered t snapshot)
      (fun _ _ => False) g := by
  refine wp_seq trivial (R := fun held t => Between t ∧ t.session = held) (F := fun _ _ => False)
    (wp_perform (fun w => ⟨stable_between g w.occurred h, rfl⟩)) ?_ (fun _ _ _ hfalse => hfalse)
  rintro (_ | session) t - ⟨ht, hheld⟩
  · exact wp_pure ⟨ht, fun hready => by cases hready⟩
  · refine wp_seq trivial (wp_omnirouteServiceActive stable_holding
      (fun _ hu => hu.between.sound) (⟨ht, hheld⟩ : Holding session t)) ?_
      (fun _ _ _ hfalse => hfalse)
    rintro active t - ⟨ht, -⟩
    exact Wp.mono trivial (wp_snapshotBytes stable_holding (fun _ hu => hu.between)
      (fun _ hu => hu.session) ht _) (fun _ _ _ hu => ⟨hu.1.between, hu.2⟩)
      (fun _ _ _ hfalse => hfalse)

/-- What a stop leaves. -/
structure Stopped (g : Gateway) : Prop where
  between : Between g
  quiet : Quiet g.processes

theorem wp_recordStop {held : Option AndroidOmniRouteSession} (h : Ended held g)
    (result : ProcessResult) :
    Wp Alone () (recordStop session result) (fun snapshot t => Stopped t ∧ Answered t snapshot)
      (fun _ _ => False) g := by
  refine wp_seq trivial (R := fun _ => Ended (some { session with
      service := none, lastExit := some (exitSummary result) })) (F := fun _ _ => False)
    (wp_putSession (fun occurred => ?_)) ?_ (fun _ _ _ hfalse => hfalse)
  · have hlater := stable_ended g occurred h
    exact ⟨hlater.sound, hlater.quiet, rfl⟩
  · intro _ t _ ht
    exact Wp.mono trivial (wp_snapshotBytes stable_ended (fun _ hu => (hu.holding rfl).between)
      (fun _ hu => hu.session) ht _) (fun _ _ _ hu => ⟨⟨(hu.1.holding rfl).between, hu.1.quiet⟩, hu.2⟩)
      (fun _ _ _ hfalse => hfalse)

theorem wp_reapStopped {held : Option AndroidOmniRouteSession}
    (h : Launched held service.process g) :
    Wp Alone () (reapStopped service) (fun _ => Ended held) (fun _ _ => False) g := by
  refine wp_seq trivial (wp_wait h) ?_ (fun _ _ _ hfalse => hfalse)
  rintro result t - ⟨ht, htimely⟩
  refine wp_seq trivial (R := fun _ => Ended held) (F := fun _ _ => False)
    (wp_failIf (fun hfail => ?_) (fun _ => ht)) ?_ (fun _ _ _ hfalse => hfalse)
  · cases htermination : result.termination with
    | timedOut => exact htimely htermination
    | _ =>
      rw [htermination] at hfail
      cases hfail
  intro _ t _ ht
  refine wp_seq trivial (wp_omnirouteServiceActive stable_ended (fun _ hu => hu.sound) ht) ?_
    (fun _ _ _ hfalse => hfalse)
  rintro active t - ⟨ht, hactive⟩
  refine wp_seq trivial (R := fun _ => Ended held) (F := fun _ _ => False)
    (wp_failIf (fun hfail => hactive.mp hfail ht.quiet) (fun _ => ht)) ?_
    (fun _ _ _ hfalse => hfalse)
  intro _ t _ ht
  exact wp_pure ht

/-- The service that is asked to end, or gone, is waited for and recorded. -/
theorem wp_finishStop {held : Option AndroidOmniRouteSession}
    (h : Launched held service.process g) :
    Wp Alone () (reapStopped service >>= recordStop session)
      (fun snapshot t => Stopped t ∧ Answered t snapshot) (fun _ _ => False) g := by
  refine wp_seq trivial (wp_reapStopped h) ?_ (fun _ _ _ hfalse => hfalse)
  intro result t _ ht
  exact wp_recordStop ht result

/-- The service that was gone before it was asked to end. -/
theorem wp_finishGone {held : Option AndroidOmniRouteSession}
    (h : Launched held service.process g) :
    Wp Alone () (waitOmnirouteService service >>= recordStop session)
      (fun snapshot t => Stopped t ∧ Answered t snapshot) (fun _ _ => False) g := by
  refine wp_seq trivial (wp_wait h) ?_ (fun _ _ _ hfalse => hfalse)
  rintro result t - ⟨ht, -⟩
  exact wp_recordStop ht result

end Calls

/-! ## Stopping -/

/-- The processes when a stop looks for the second time whether the service is active. -/
def beforeCancel (g : Gateway) (w : Nat → World) : Processes :=
  (((g.processes.occurs (w 0).occurred).occurs (w 1).occurred).occurs (w 2).occurred).occurs
    (w 3).occurred

/-- The service of the session leaves the registry between the second look of a stop and its
    cancellation. -/
structure Overtaken (g : Gateway) (w : Nat → World) : Prop where
  held : ∃ session service, g.session = some session ∧ session.service = some service
  seen : ¬ Quiet (beforeCancel g w)
  gone : Quiet ((beforeCancel g w).occurs (w 4).occurred)

/-- How a stop ends. -/
def StopEnds (g : Gateway) (w : Nat → World) : Result ServiceSnapshot → Gateway → Prop :=
  Post (fun snapshot t => Stopped t ∧ Answered t snapshot ∧ ¬ Overtaken g w)
    (fun e t => Stopped t ∧ (e = notStartedError ∧ ¬ Overtaken g w ∨
      e = processError "process_not_active" ∧ Overtaken g w))

section Stop

variable {g : Gateway} {session : AndroidOmniRouteSession} {service : OmniRouteServiceHandle}

theorem stopEnds_of_wp {w : Nat → World} {p : GatewayM ServiceSnapshot} {n : Nat} {t : Gateway}
    (hno : ¬ Overtaken g w) (h : Wp Alone () p (fun snapshot t => Stopped t ∧ Answered t snapshot)
      (fun _ _ => False) t) :
    StopEnds g w (runAlone exec w p n t).1 (runAlone exec w p n t).2.2 := by
  have hpost := wp_run (w := w) (n := n) (fun _ => trivial) h
  rcases hrun : runAlone exec w p n t with ⟨answer, m, u⟩
  rw [hrun] at hpost
  cases answer with
  | error e => exact hpost.elim
  | ok snapshot => exact ⟨hpost.1, hpost.2, hno⟩

/-- A stop without a session. -/
theorem run_stopBytes_noSession (h : Between g) (hsession : g.session = none) (w : Nat → World) :
    StopEnds g w (runAlone exec w stopBytes 0 g).1 (runAlone exec w stopBytes 0 g).2.2 := by
  have hrun : runAlone exec w stopBytes 0 g =
      (.error notStartedError, 1, g.later (w 0).occurred) := by
    change runAlone exec w (match g.session with
      | none => throw notStartedError
      | some session => _) 1 (g.later (w 0).occurred) = _
    rw [hsession]
    rfl
  rw [hrun]
  have hbetween := stable_between g (w 0).occurred h
  refine ⟨⟨hbetween, hbetween.quiet (fun other hother => ?_)⟩, .inl ⟨rfl, fun hover => ?_⟩⟩
  · change g.session = some other at hother
    rw [hsession] at hother
    cases hother
  · obtain ⟨other, service, hother, -⟩ := hover.held
    rw [hsession] at hother
    cases hother

/-- A stop of a session without a service. -/
theorem run_stopBytes_noService (h : Between g) (hsession : g.session = some session)
    (hservice : session.service = none) (w : Nat → World) :
    StopEnds g w (runAlone exec w stopBytes 0 g).1 (runAlone exec w stopBytes 0 g).2.2 := by
  have hrun : runAlone exec w stopBytes 0 g =
      runAlone exec w (snapshotBytes session "already_stopped") 1 (g.later (w 0).occurred) := by
    change runAlone exec w (match g.session with
      | none => throw notStartedError
      | some session => _) 1 (g.later (w 0).occurred) = _
    rw [hsession]
    dsimp only
    rw [hservice]
  have hholding : Holding session (g.later (w 0).occurred) := stable_holding g _ ⟨h, hsession⟩
  rw [hrun]
  refine stopEnds_of_wp (fun hover => ?_) ?_
  · obtain ⟨other, service, hother, hrunning⟩ := hover.held
    rw [hsession] at hother
    injection hother with hother
    rw [← hother, hservice] at hrunning
    cases hrunning
  · exact Wp.mono trivial (wp_snapshotBytes stable_holding (fun _ hu => hu.between)
      (fun _ hu => hu.session) hholding _)
      (fun _ _ _ hu => ⟨⟨hu.1.between, (hu.1.ended hservice).quiet⟩, hu.2⟩)
      (fun _ _ _ hfalse => hfalse)

/-- The cancellation of a stop fails just when the service has left the registry before it. -/
theorem run_cancel {held : Option AndroidOmniRouteSession}
    (h : Launched held service.process g) (w : Nat → World) (n : Nat) :
    (Quiet (g.later (w n).occurred).processes ∧
      runAlone exec w (perform (.cancel service.process.processId)) n g =
        (.error (processError "process_not_active"), n + 1, g.later (w n).occurred)) ∨
    (¬ Quiet (g.later (w n).occurred).processes ∧ ∃ t, Launched held service.process t ∧
      runAlone exec w (perform (.cancel service.process.processId)) n g =
        ((.ok () : Result Unit), n + 1, t)) := by
  have hbefore := stable_launched g (w n).occurred h
  have hrun : runAlone exec w (perform (.cancel service.process.processId)) n g =
      (((g.later (w n).occurred).processes.cancel service.process.processId).1, n + 1,
        { g.later (w n).occurred with processes :=
          ((g.later (w n).occurred).processes.cancel service.process.processId).2 }) := rfl
  rw [hrun]
  rcases hbefore.sole.cancel_cases with ⟨hquiet, hcancel⟩ | ⟨hstill, hok, hstate⟩
  · rw [hcancel]
    exact .inl ⟨hquiet, rfl⟩
  · rw [hok, hstate]
    refine .inr ⟨hstill, _, ?_, rfl⟩
    exact ⟨hbefore.sole.request _, hbefore.session⟩

/-- A stop of a service. -/
theorem run_stopBytes_service (h : Between g) (hsession : g.session = some session)
    (hservice : session.service = some service) (w : Nat → World) :
    StopEnds g w (runAlone exec w stopBytes 0 g).1 (runAlone exec w stopBytes 0 g).2.2 := by
  -- the session is read, the service taken out of it, and the registry looked at twice
  have htaken := (stable_between g (w 0).occurred h).take hsession hservice (w 1).occurred
  have hfirst := stable_launched _ (w 2).occurred htaken
  generalize hlooked : Gateway.later { (g.later (w 0).occurred).later (w 1).occurred with
    session := some { session with service := none } } (w 2).occurred = looked at *
  have hsecond := stable_launched _ (w 3).occurred hfirst
  have hbefore : beforeCancel g w = (looked.later (w 3).occurred).processes := by
    rw [← hlooked]
    rfl
  have hcount : ∀ {t : Gateway}, Launched (some { session with service := none })
      service.process t → ((t.processes.activeRuntimeService == 1) = true ↔ ¬ Quiet t.processes) :=
    fun ht => by rw [beq_iff_eq, ht.sole.sound.active_iff]
  have hrun : runAlone exec w stopBytes 0 g = runAlone exec w
      (if (looked.processes.activeRuntimeService == 1) = true then
        stopOmnirouteService service >>= recordStop session
      else waitOmnirouteService service >>= recordStop session) 3 looked := by
    change runAlone exec w (match g.session with
      | none => throw notStartedError
      | some session => _) 1 (g.later (w 0).occurred) = _
    rw [hsession]
    dsimp only
    rw [hservice, ← hlooked]
    rfl
  rw [hrun]
  by_cases hactive : Quiet looked.processes
  · rw [if_neg (fun hone => (hcount hfirst).mp hone hactive)]
    refine stopEnds_of_wp (fun hover => hover.seen ?_) (wp_finishGone hfirst)
    rw [hbefore]
    exact (later_occurs _ _).quiet hactive
  rw [if_pos ((hcount hfirst).mpr hactive)]
  have hrun : runAlone exec w (stopOmnirouteService service >>= recordStop session) 3 looked =
      runAlone exec w
        ((if ((looked.later (w 3).occurred).processes.activeRuntimeService == 1) = true then
            perform (.cancel service.process.processId) >>= fun _ => reapStopped service
          else reapStopped service) >>= recordStop session) 4 (looked.later (w 3).occurred) := rfl
  rw [hrun]
  by_cases hactive : Quiet (looked.later (w 3).occurred).processes
  · rw [if_neg (fun hone => (hcount hsecond).mp hone hactive)]
    refine stopEnds_of_wp (fun hover => hover.seen ?_) (wp_finishStop hsecond)
    rw [hbefore]
    exact hactive
  rw [if_pos ((hcount hsecond).mpr hactive)]
  have hafter : (beforeCancel g w).occurs (w 4).occurred =
      ((looked.later (w 3).occurred).later (w 4).occurred).processes := by
    rw [hbefore]
    rfl
  rcases run_cancel hsecond w 4 with ⟨hquiet, hcancel⟩ | ⟨hstill, t, ht, hcancel⟩
  · rw [runAlone_bind_error exec w _ (runAlone_bind_error exec w _ hcancel)]
    have hthird := stable_launched _ (w 4).occurred hsecond
    refine ⟨⟨Ended.between ⟨hthird.sole.sound, hquiet, hthird.session⟩ ?_, hquiet⟩,
      .inr ⟨rfl, ⟨session, service, hsession, hservice⟩, ?_, ?_⟩⟩
    · intro other hother
      injection hother with hother
      rw [← hother]
    · rw [hbefore]
      exact hactive
    · rw [hafter]
      exact hquiet
  · rw [runAlone_bind_run exec w _ (runAlone_bind_ok exec w _ hcancel)]
    refine stopEnds_of_wp (fun hover => hstill ?_) (wp_finishStop ht)
    rw [← hafter]
    exact hover.gone

/-- **A stop** fails just when there is no session, or its service is overtaken. -/
theorem run_stopBytes (h : Between g) (w : Nat → World) :
    StopEnds g w (runAlone exec w stopBytes 0 g).1 (runAlone exec w stopBytes 0 g).2.2 := by
  cases hsession : g.session with
  | none => exact run_stopBytes_noSession h hsession w
  | some session =>
    cases hservice : session.service with
    | none => exact run_stopBytes_noService h hsession hservice w
    | some service => exact run_stopBytes_service h hsession hservice w

end Stop

/-! ## Runs -/

/-- A call of the session's interface. -/
inductive Call where
  | start (arguments : Result StartArguments)
  | status
  | stop
  deriving DecidableEq

def Call.program : Call → GatewayM ServiceSnapshot
  | .start arguments => startBytes arguments
  | .status => statusBytes
  | .stop => stopBytes

/-- A call, with what happens before each of its steps, or what happens between calls. -/
inductive Event where
  | call (c : Call) (w : Nat → World)
  | passes (occurred : List (Nat × Exit))

/-- The gateway, and the answer to the call that has just returned. -/
structure Host where
  gateway : Gateway
  answer : Option (Call × Result ServiceSnapshot)

def Host.fresh : Host where
  gateway := { processes := Processes.empty, session := none, attested := [] }
  answer := none

def step (h : Host) : Event → Host
  | .call c w =>
    { gateway := (runAlone exec w c.program 0 h.gateway).2.2
      answer := some (c, (runAlone exec w c.program 0 h.gateway).1) }
  | .passes occurred => { gateway := h.gateway.later occurred, answer := none }

/-- What is promised of every state between calls. -/
structure Lawful (h : Host) : Prop where
  one : ∀ m n i j, (h.gateway.processes.supervisor m).live = some i →
    (h.gateway.processes.supervisor n).live = some j → m = n
  held : ∀ n id, (h.gateway.processes.supervisor n).live = some id → ∃ session service,
    h.gateway.session = some session ∧ session.service = some service ∧ service.process = ⟨id, n⟩
  ready : ∀ c snapshot, h.answer = some (c, .ok snapshot) → Answered h.gateway snapshot
  stopped : ∀ r, h.answer = some (.stop, r) → Quiet h.gateway.processes
  stops : ∀ e, h.answer = some (.stop, .error e) → e = notStartedError

/-- No stop is overtaken by the exit of its service. -/
def KeepsUp (h : Host) : Event → Prop
  | .call .stop w => ¬ Overtaken h.gateway w
  | .call (.start _) _ | .call .status _ | .passes _ => True

section Law

variable {h : Host}

theorem between_fresh : Between Host.fresh.gateway :=
  ⟨Sound.empty, fun _ _ hlive => (by cases hlive), fun _ _ hsession => (by cases hsession)⟩

theorem StopEnds.stopped {g t : Gateway} {w : Nat → World} {r : Result ServiceSnapshot}
    (hends : StopEnds g w r t) : Stopped t := by
  cases r with
  | error e => exact hends.1
  | ok snapshot => exact hends.1

/-- What a call leaves and answers. -/
theorem run_call (hb : Between h.gateway) (c : Call) (w : Nat → World) :
    Post (fun snapshot t => Between t ∧ Answered t snapshot) (fun _ => Between)
      (runAlone exec w c.program 0 h.gateway).1 (runAlone exec w c.program 0 h.gateway).2.2 := by
  cases c with
  | start arguments => exact wp_run (fun _ => trivial) (wp_startBytes hb arguments)
  | status =>
    exact wp_run (fun _ => trivial) (Wp.mono trivial (wp_statusBytes hb) (fun _ _ _ hu => hu)
      (fun _ _ _ hfalse => hfalse.elim))
  | stop =>
    have hends := run_stopBytes hb w
    change Post _ _ (runAlone exec w stopBytes 0 h.gateway).1
      (runAlone exec w stopBytes 0 h.gateway).2.2
    rcases hrun : runAlone exec w stopBytes 0 h.gateway with ⟨answer, n, t⟩
    rw [hrun] at hends
    cases answer with
    | error e => exact hends.1.between
    | ok snapshot => exact ⟨hends.1.between, hends.2.1⟩

theorem step_between (hb : Between h.gateway) (e : Event) : Between (step h e).gateway := by
  cases e with
  | passes occurred => exact stable_between _ occurred hb
  | call c w =>
    have hpost := run_call hb c w
    change Between (runAlone exec w c.program 0 h.gateway).2.2
    rcases hrun : runAlone exec w c.program 0 h.gateway with ⟨answer, n, t⟩
    rw [hrun] at hpost
    cases answer with
    | error e => exact hpost
    | ok snapshot => exact hpost.1

theorem Between.one {g : Gateway} (hb : Between g) {m n : Nat} {i j : ProcessId}
    (hm : (g.processes.supervisor m).live = some i)
    (hn : (g.processes.supervisor n).live = some j) : m = n := by
  have hsame := (hb.sound.entry hm).symm.trans (hb.sound.entry hn)
  injection hsame with hsame
  injection hsame with _ hsame
  injection hsame

/-- What a stop answers, when its service keeps up with it. -/
theorem stops_of_keepsUp (hb : Between h.gateway) {w : Nat → World}
    (hok : ¬ Overtaken h.gateway w) {e : VibeCoderError}
    (hanswer : (runAlone exec w stopBytes 0 h.gateway).1 = .error e) : e = notStartedError := by
  have hends := run_stopBytes hb w
  rw [hanswer] at hends
  rcases hends.2 with ⟨he, -⟩ | ⟨-, hover⟩
  · exact he
  · exact absurd hover hok

theorem step_lawful (hb : Between h.gateway) (e : Event) (hok : KeepsUp h e) :
    Lawful (step h e) := by
  have hafter := step_between hb e
  refine ⟨fun m n i j hm hn => hafter.one hm hn, hafter.held, ?_, ?_, ?_⟩
  · intro c snapshot hanswer
    cases e with
    | passes occurred => cases hanswer
    | call c w =>
      have hpost := run_call hb c w
      injection hanswer with hanswer
      injection hanswer with _ hanswer
      rw [hanswer] at hpost
      exact hpost.2
  · intro r hanswer
    cases e with
    | passes occurred => cases hanswer
    | call c w =>
      injection hanswer with hanswer
      injection hanswer with hcall
      subst hcall
      exact (run_stopBytes hb w).stopped.quiet
  · intro err hanswer
    cases e with
    | passes occurred => cases hanswer
    | call c w =>
      injection hanswer with hanswer
      injection hanswer with hcall hanswer
      subst hcall
      exact stops_of_keepsUp hb hok hanswer

/-- An overtaken stop fails because its process is gone. -/
theorem stop_overtaken (hb : Between h.gateway) {w : Nat → World} (hover : Overtaken h.gateway w) :
    (step h (.call .stop w)).answer =
      some (.stop, .error (processError "process_not_active")) := by
  have hends := run_stopBytes hb w
  change some (Call.stop, (runAlone exec w stopBytes 0 h.gateway).1) = _
  rcases hrun : runAlone exec w stopBytes 0 h.gateway with ⟨answer, n, t⟩
  rw [hrun] at hends
  cases answer with
  | ok snapshot => exact absurd hover hends.2.2
  | error e =>
    rcases hends.2 with ⟨-, hno⟩ | ⟨he, -⟩
    · exact absurd hover hno
    · rw [he]

theorem not_lawful_of_overtaken (hb : Between h.gateway) (e : Event) (hno : ¬ KeepsUp h e) :
    ¬ Lawful (step h e) := by
  intro hlawful
  match e with
  | .passes occurred => exact hno trivial
  | .call (.start arguments) w => exact hno trivial
  | .call .status w => exact hno trivial
  | .call .stop w =>
    have hanswer := stop_overtaken hb (not_not.mp hno)
    cases hlawful.stops _ hanswer

end Law

/-- **Gateway service.**  After every sequence of calls and exits, every state is lawful just when
    no stop is overtaken by the exit of its service. -/
theorem gateway_service_law (events : List Event) :
    Always step Lawful Host.fresh events ↔ Disciplined step KeepsUp Host.fresh events := by
  refine always_iff_disciplined step (I := fun h => Between h.gateway ∧ Lawful h) ?_ ?_ ?_ ?_ events
  · intro h e hh hok
    exact ⟨step_between hh.1 e, step_lawful hh.1 e hok⟩
  · intro h hh
    exact hh.2
  · intro h e hh hno
    exact not_lawful_of_overtaken hh.1 e hno
  · exact ⟨between_fresh, fun m n i j hm hn => between_fresh.one hm hn, between_fresh.held,
      fun _ _ => nofun, fun _ => nofun, fun _ => nofun⟩

def serviceProfile : GatewayExecutionProfile where
  gatewayId := expectedComponent
  upstreamVersion := expectedVersion
  profileId := expectedGatewayProfileId
  profileSha256 := expectedRoutingProfileSha256
  exactModelOnly := true
  hiddenModelReroutesDisabled := true

def plainExit : Exit where
  status := .exited 0
  sawCancel := true
  stdout := []
  stderr := []
  stdoutTruncated := false
  stderrTruncated := false
  eventQueueOverflowed := false
  durationMs := 1000

/-- Nothing fails, and the service answers as it must. -/
def servedWorld (occurred : List (Nat × Exit)) : World where
  occurred := occurred
  fault := none
  draws := [⟨1⟩]
  verification := ⟨"", "", "", 1, 1⟩
  profile := .ok serviceProfile
  sawFinished := false
  now := 0
  exit := plainExit

/-- The service exits, and its supervisor takes it out of the registry, after a stop has seen it. -/
def exitDuringStop : List Event :=
  [.call (.start (.ok ⟨"key", "sha"⟩)) (fun _ => servedWorld []),
    .call .stop fun n => servedWorld (if n = 4 then [(0, plainExit), (0, plainExit)] else [])]

/-- A stop fails because its service has exited by itself. -/
theorem stop_fails_on_exit : ¬ ∀ events, Always step Lawful Host.fresh events := by
  intro hall
  have hlast := (hall exitDuringStop).last
  have hanswer : (play step Host.fresh exitDuringStop).answer =
      some (.stop, .error (processError "process_not_active")) := rfl
  cases hlast.stops _ hanswer

end VibeCoder.OmniRoute
