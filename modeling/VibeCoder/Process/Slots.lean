/-
  The slots of the calls of one process runtime, and the processes of these calls, while any number of
  them go on at once.

  1. **Processes** (`Later`) — what a process and its group become while others act.

  2. **Slots** (`Inv`) — the registry holds just the slots that calls hold; a call that gave its slot
     back has no live leader, and no live process at all if none was alive then.

  3. **The contract** (`Calls`) — a call reserves once, spawns once, and releases what it holds when
     its leader is gone (`Allowed`); meanwhile nobody else touches its slot or its process (`Rely`).

  4. **Supervision** (`Supervises`) — the rules for one call among the others.
-/
import VibeCoder.Process.System
import VibeCoder.Lib.RelyGuarantee

namespace VibeCoder.Process

open Resume

/-! ## Processes -/

/-- What a group becomes: nothing of it comes back to life. -/
structure Later (c c' : Child) : Prop where
  gone : c.leader ≠ .running → c'.leader ≠ .running
  dead : c.alive = 0 → c'.alive = 0

theorem Later.refl (c : Child) : Later c c := ⟨id, id⟩

theorem Later.trans {c c' c'' : Child} (h : Later c c') (h' : Later c' c'') : Later c c'' :=
  ⟨h'.gone ∘ h.gone, h'.dead ∘ h.dead⟩

theorem alive_running {c : Child} (h : c.leader = .running) : c.alive = c.members + 1 := by
  rw [Child.alive, if_pos h]

theorem alive_gone {c : Child} (h : c.leader ≠ .running) : c.alive = c.members := by
  rw [Child.alive, if_neg h]
  rfl

/-- No process of the group is alive. -/
theorem alive_eq_zero {c : Child} : c.alive = 0 ↔ c.leader ≠ .running ∧ c.members = 0 := by
  by_cases h : c.leader = .running
  · rw [alive_running h]
    exact iff_of_false (Nat.succ_ne_zero _) (fun hdead => hdead.1 h)
  · rw [alive_gone h]
    exact ⟨fun hnone => ⟨h, hnone⟩, fun hdead => hdead.2⟩

theorem later_occurrence (c : Child) (x : Occurrence) : Later c (x.child c) := by
  cases x with
  | forks =>
    rw [Occurrence.child]
    split
    · rename_i halive
      refine ⟨id, fun hdead => ?_⟩
      omega
    · exact Later.refl c
  | memberExits =>
    refine ⟨id, fun hdead => alive_eq_zero.mpr ?_⟩
    obtain ⟨hgone, hmembers⟩ := alive_eq_zero.mp hdead
    refine ⟨hgone, ?_⟩
    show c.members - 1 = 0
    omega
  | leaderExits status =>
    rw [Occurrence.child]
    cases hleader : c.leader with
    | running =>
      refine ⟨fun h => absurd hleader h, fun hdead => ?_⟩
      exact absurd hleader (alive_eq_zero.mp hdead).1
    | exited status => exact Later.refl c
    | reaped status => exact Later.refl c
  | receives => exact Later.refl c
  | dropsHandle => exact Later.refl c

/-- Signals are nothing that a group could not do without its supervisor. -/
theorem later_killLeader (c : Child) : Later c c.killLeader := by
  rw [Child.killLeader]
  cases hleader : c.leader with
  | running =>
    refine ⟨fun h => absurd hleader h, fun hdead => ?_⟩
    exact absurd hleader (alive_eq_zero.mp hdead).1
  | exited status => exact Later.refl c
  | reaped status => exact Later.refl c

/-- Nobody is alive. -/
def Dead (c : Child) : Prop := c.alive = 0

theorem killLeader_gone (c : Child) : c.killLeader.leader ≠ .running := by
  rw [Child.killLeader]
  cases hleader : c.leader with
  | running => exact fun h => by cases h
  | exited status => exact fun h => by cases hleader.symm.trans h
  | reaped status => exact fun h => by cases hleader.symm.trans h

theorem killGroup_alive (c : Child) : c.killGroup.alive = 0 :=
  alive_eq_zero.mpr ⟨killLeader_gone c, rfl⟩

theorem later_killGroup (c : Child) : Later c c.killGroup where
  gone := fun _ => killLeader_gone c
  dead := fun _ => killGroup_alive c

/-- Without a group to signal nobody is left. -/
theorem alive_of_not_hasGroup {c : Child} (h : ¬ c.hasGroup = true) : c.alive = 0 := by
  obtain ⟨leader, members⟩ := c
  cases leader with
  | running => exact absurd rfl h
  | exited status => exact absurd rfl h
  | reaped status =>
    refine alive_eq_zero.mpr ⟨(fun h => by cases h), ?_⟩
    show members = 0
    have hnone : ¬ 0 < members := fun hsome => h (decide_eq_true hsome)
    omega

theorem reap_members (c : Child) (status : ExitStatus) : (c.reap status).members = c.members := by
  rw [Child.reap]
  cases c.leader with
  | running => rfl
  | exited status => rfl
  | reaped status => rfl

theorem reap_gone (c : Child) (status : ExitStatus) : (c.reap status).leader ≠ .running := by
  rw [Child.reap]
  cases hleader : c.leader with
  | running => exact fun h => by cases h
  | exited status => exact fun h => by cases h
  | reaped status => exact fun h => by cases hleader.symm.trans h

/-- Reaping a group of which nobody is alive changes nothing in that. -/
theorem reap_alive {c : Child} (h : c.alive = 0) (status : ExitStatus) :
    (c.reap status).alive = 0 :=
  alive_eq_zero.mpr ⟨reap_gone c status, (reap_members c status).trans (alive_eq_zero.mp h).2⟩

/-- A status is reported once the leader is gone; that it is reaped then changes nothing else. -/
theorem tryWait_gone {c : Child} {status : ExitStatus} (h : c.tryWait.1 = some status) :
    c.tryWait.2.leader ≠ .running := by
  obtain ⟨leader, members⟩ := c
  cases leader with
  | running => cases h
  | exited status => exact fun h => by cases h
  | reaped status => exact fun h => by cases h

theorem later_tryWait (c : Child) : Later c c.tryWait.2 := by
  obtain ⟨leader, members⟩ := c
  cases leader with
  | running => exact Later.refl _
  | exited status => exact ⟨(fun _ h => by cases h), id⟩
  | reaped status => exact Later.refl _

section

variable {ι : Type} {i j : ι} {s t : System ι}

/-! ## Slots -/

/-- What a call can rely on while others run: its slot is its own, and so is its process but for
    what that does by itself. -/
structure Rely (i : ι) (s t : System ι) : Prop where
  slot : t.slot i = s.slot i
  absent : s.child i = none → t.child i = none
  child : ∀ c, s.child i = some c → ∃ c', t.child i = some c' ∧ Later c c'

theorem Rely.same (hslot : t.slot i = s.slot i) (hchild : t.child i = s.child i) : Rely i s t where
  slot := hslot
  absent := fun h => hchild.trans h
  child := fun c h => ⟨c, hchild.trans h, Later.refl c⟩

theorem Rely.trans {r : System ι} (h : Rely i s t) (h' : Rely i t r) : Rely i s r where
  slot := h'.slot.trans h.slot
  absent := fun hnone => h'.absent (h.absent hnone)
  child := fun c hc => by
    obtain ⟨c', hc', hlater⟩ := h.child c hc
    obtain ⟨c'', hc'', hlater'⟩ := h'.child c' hc'
    exact ⟨c'', hc'', hlater.trans hlater'⟩

/-- The scope of a slot, held or given back. -/
def Slot.scope : Slot → Option ActiveProcessScope
  | .none => Option.none
  | .held _ scope | .released scope _ => some scope

/-- The registry holds just the slots that calls hold, each in the scope the call is for; a call
    that gave its slot back has no leader, and nobody at all if nobody was alive then. -/
structure Inv (scopes : ι → Option ActiveProcessScope) (s : System ι) : Prop where
  owned : ∀ id a, (id, a) ∈ s.registry.active ↔ s.slot a.cancelRequested = .held id a.scope
  scope : ∀ i scope, (s.slot i).scope = some scope → scopes i = some scope
  spawned : ∀ i c, s.child i = some c → s.slot i ≠ .none
  settled : ∀ i scope alive c, s.slot i = .released scope alive → s.child i = some c →
    c.leader ≠ .running ∧ (alive = 0 → c.alive = 0)

/-- What a call promises before each operation: it reserves once, spawns once and releases what it
    holds, when its leader is gone; and that is its last operation. -/
def Allowed (scopes : ι → Option ActiveProcessScope) (i : ι) : Op → System ι → Prop
  | .reserve scope, s => s.slot i = .none ∧ scopes i = some scope
  | .release id, s => (∃ scope, s.slot i = .held id scope) ∧
      ∀ c, s.child i = some c → c.leader ≠ .running
  | .spawn, s => (∃ id scope, s.slot i = .held id scope) ∧ s.child i = none
  | _, s => ∀ scope alive, s.slot i ≠ .released scope alive

variable {scopes : ι → Option ActiveProcessScope}

/-- Who gave its slot back performs nothing any more. -/
theorem Allowed.not_released {o : Op} (h : Allowed scopes i o s) (scope : ActiveProcessScope)
    (alive : Nat) : s.slot i ≠ .released scope alive := by
  intro hreleased
  cases o with
  | reserve scope => cases h.1.symm.trans hreleased
  | release id =>
    obtain ⟨⟨scope, hheld⟩, -⟩ := h
    cases hheld.symm.trans hreleased
  | spawn =>
    obtain ⟨⟨id, scope, hheld⟩, -⟩ := h
    cases hheld.symm.trans hreleased
  | _ => exact h scope alive hreleased

theorem Allowed.rely {o : Op} (h : Allowed scopes i o s) (hrely : Rely i s t) :
    Allowed scopes i o t := by
  cases o with
  | reserve scope => exact ⟨hrely.slot.trans h.1, h.2⟩
  | release id =>
    obtain ⟨⟨scope, hheld⟩, hgone⟩ := h
    refine ⟨⟨scope, hrely.slot.trans hheld⟩, fun c' hc' => ?_⟩
    cases hc : s.child i with
    | none => cases (hrely.absent hc).symm.trans hc'
    | some c =>
      obtain ⟨c'', hc'', hlater⟩ := hrely.child c hc
      cases hc''.symm.trans hc'
      exact hlater.gone (hgone c hc)
  | spawn =>
    obtain ⟨⟨id, scope, hheld⟩, hnone⟩ := h
    exact ⟨⟨id, scope, hrely.slot.trans hheld⟩, hrely.absent hnone⟩
  | _ => exact fun scope alive hreleased => h scope alive (hrely.slot.symm.trans hreleased)

/-- Slots and registry are as before, and no process came to be or came back. -/
theorem Inv.later (h : Inv scopes s) (hregistry : t.registry = s.registry) (hslot : t.slot = s.slot)
    (hchild : ∀ j, t.child j = s.child j ∨ ∃ c c', s.child j = some c ∧ t.child j = some c' ∧
      ((∃ scope alive, s.slot j = .released scope alive) → Later c c')) : Inv scopes t where
  owned := by
    rw [hregistry, hslot]
    exact h.owned
  scope := by
    rw [hslot]
    exact h.scope
  spawned := fun j c' hc' => by
    rw [hslot]
    rcases hchild j with hsame | ⟨c, c'', hc, -, -⟩
    · exact h.spawned j c' (hsame.symm.trans hc')
    · exact h.spawned j c hc
  settled := fun j scope alive c' hreleased hc' => by
    rw [hslot] at hreleased
    rcases hchild j with hsame | ⟨c, c'', hc, hc'', hlater⟩
    · exact h.settled j scope alive c' hreleased (hsame.symm.trans hc')
    · cases hc''.symm.trans hc'
      obtain ⟨hgone, hdead⟩ := h.settled j scope alive c hreleased hc
      have hlater := hlater ⟨scope, alive, hreleased⟩
      exact ⟨hlater.gone hgone, fun hnone => hlater.dead (hdead hnone)⟩

/-- The slots are of different calls, and so there are no more of them than entries. -/
theorem Inv.length_le (h : Inv scopes s) {is : List ι} (hnodup : is.Nodup)
    {K : ProcessId × ActiveProcess ι → Bool}
    (hheld : ∀ i ∈ is, ∃ id scope, s.slot i = .held id scope ∧
      K (id, { scope := scope, cancelRequested := i }) = true) :
    is.length ≤ s.registry.active.countP K := by
  have hsubset : is ⊆ (s.registry.active.filter K).map (fun a => a.2.cancelRequested) := by
    intro i hi
    obtain ⟨id, scope, hslot, hK⟩ := hheld i hi
    have hmem : (id, ({ scope := scope, cancelRequested := i } : ActiveProcess ι)) ∈
        s.registry.active := (h.owned id _).mpr hslot
    exact List.mem_map.mpr ⟨_, List.mem_filter.mpr ⟨hmem, hK⟩, rfl⟩
  have hlength := hnodup.length_le_of_subset hsubset
  rw [List.length_map, ← List.countP_eq_length_filter] at hlength
  exact hlength

theorem reserve_ok {r r' : Registry ι} {owner : ι} {scope : ActiveProcessScope}
    {draws : List ProcessId} {id : ProcessId}
    (h : r.reserve owner scope draws = .ok (id, r')) :
    r'.active = (id, { scope := scope, cancelRequested := owner }) :: r.active := by
  rw [Registry.reserve] at h
  split at h
  · split at h
    · split at h
      · cases h
      · cases h
        rfl
    · cases h
  · cases h

/-! ## What an operation does -/

/-- What the operation of a call does to its own process, once there is one. -/
def Op.onChild (w : World ι) : Op → Child → Child
  | .tryWait, c => if w.success then c.tryWait.2 else c
  | .signalGroup .kill, c => if c.hasGroup then c.killGroup else c
  | .killChild, c => c.killLeader
  | .waitChild, c => c.reap w.status
  | _, c => c

/-- The operations that neither take or give a slot nor put a process in place. -/
def Op.Plain : Op → Prop
  | .reserve _ | .release _ | .spawn => False
  | _ => True

theorem dead_signalKill (w : World ι) (c : Child) : Dead (Op.onChild w (.signalGroup .kill) c) := by
  show Child.alive (if c.hasGroup = true then c.killGroup else c) = 0
  split
  · exact killGroup_alive c
  · rename_i hgroup
    exact alive_of_not_hasGroup hgroup

/-- The operations after which a process is just something it could have become by itself. -/
def Op.Calm : Op → Prop
  | .tryWait | .waitChild => False
  | o => o.Plain

theorem later_onChild {o : Op} (ho : o.Calm) (w : World ι) (c : Child) :
    Later c (o.onChild w c) := by
  cases o with
  | signalGroup signal =>
    cases signal with
    | term => exact Later.refl c
    | kill =>
      show Later c (if c.hasGroup = true then c.killGroup else c)
      split
      · exact later_killGroup c
      · exact Later.refl c
  | killChild => exact later_killLeader c
  | tryWait => exact absurd ho (fun hcalm => hcalm)
  | waitChild => exact absurd ho (fun hcalm => hcalm)
  | _ => exact Later.refl c

theorem Op.Calm.plain {o : Op} (ho : o.Calm) : o.Plain := by
  cases o with
  | tryWait => trivial
  | waitChild => trivial
  | reserve scope => exact ho
  | release id => exact ho
  | spawn => exact ho
  | _ => trivial

/-- The call holds its slot, and its process is as `P` says. -/
def Supervises (i : ι) (id : ProcessId) (P : Child → Prop) (s : System ι) : Prop :=
  (∃ scope, s.slot i = .held id scope) ∧ ∃ c, s.child i = some c ∧ P c

/-- Whatever a process does, `P` stays true of it. -/
def Stable (P : Child → Prop) : Prop := ∀ c c', Later c c' → P c → P c'

theorem stable_dead : Stable Dead := fun _ _ hlater hdead => hlater.dead hdead

theorem stable_any : Stable (fun _ => True) := fun _ _ _ _ => trivial

theorem stable_later (c : Child) : Stable (Later c) := fun _ _ hlater h => h.trans hlater

variable {id : ProcessId} {P R : Child → Prop}

theorem Supervises.rely (h : Supervises i id P s) (hP : Stable P) (hrely : Rely i s t) :
    Supervises i id P t := by
  obtain ⟨⟨scope, hheld⟩, c, hc, hPc⟩ := h
  obtain ⟨c', hc', hlater⟩ := hrely.child c hc
  exact ⟨⟨scope, hrely.slot.trans hheld⟩, c', hc', hP c c' hlater hPc⟩

/-- The call holds its slot and has no process yet. -/
def Reserved (i : ι) (id : ProcessId) (s : System ι) : Prop :=
  (∃ scope, s.slot i = .held id scope) ∧ s.child i = none

theorem Reserved.rely (h : Reserved i id s) (hrely : Rely i s t) : Reserved i id t := by
  obtain ⟨⟨scope, hheld⟩, hnone⟩ := h
  exact ⟨⟨scope, hrely.slot.trans hheld⟩, hrely.absent hnone⟩

theorem Supervises.mono (h : Supervises i id P s) (hPR : ∀ c, P c → R c) :
    Supervises i id R s := by
  obtain ⟨hheld, c, hc, hPc⟩ := h
  exact ⟨hheld, c, hc, hPR c hPc⟩

theorem Supervises.allowed {o : Op} (h : Supervises i id P s) (ho : o.Plain) :
    Allowed scopes i o s := by
  obtain ⟨⟨scope, hheld⟩, -⟩ := h
  cases o with
  | reserve scope => exact absurd ho (fun hplain => hplain)
  | release id => exact absurd ho (fun hplain => hplain)
  | spawn => exact absurd ho (fun hplain => hplain)
  | _ => exact fun scope alive hreleased => by cases hheld.symm.trans hreleased

variable [DecidableEq ι]

/-- The operations that always have an answer, among them. -/
def Op.Sure : Op → Prop
  | .takePipe _ | .setNonblocking _ | .startThread | .trySend _ | .now | .loadCancel
  | .signalGroup _ | .killChild | .sleep => True
  | _ => False

theorem Op.Sure.calm {o : Op} (ho : o.Sure) : o.Calm := by
  cases o with
  | takePipe stream => trivial
  | setNonblocking stream => trivial
  | startThread => trivial
  | trySend event => trivial
  | now => trivial
  | loadCancel => trivial
  | signalGroup signal => trivial
  | killChild => trivial
  | sleep => trivial
  | _ => exact absurd ho (fun hsure => hsure)

/-- Slots and registry stay, and of the processes only the call's own is touched. -/
structure OnlyChild (i : ι) (s t : System ι) (f : Child → Child) : Prop where
  registry : t.registry = s.registry
  slot : t.slot = s.slot
  child : t.child = fun j => if j = i then (s.child j).map f else s.child j

theorem onlyChild_same {f : Child → Child} (hf : ∀ c, s.child i = some c → f c = c)
    (hregistry : t.registry = s.registry) (hslot : t.slot = s.slot) (hchild : t.child = s.child) :
    OnlyChild i s t f := by
  refine ⟨hregistry, hslot, ?_⟩
  rw [hchild]
  funext j
  by_cases hj : j = i
  · subst hj
    rw [if_pos rfl]
    cases hc : s.child j with
    | none => rfl
    | some c => exact congrArg some (hf c hc).symm
  · exact (if_neg hj).symm

theorem perform_plain {o : Op} (ho : o.Plain) (s : System ι) (i : ι) (w : World ι) :
    OnlyChild i s (s.perform i w o).2 (o.onChild w) := by
  cases o with
  | reserve scope => exact absurd ho id
  | release processId => exact absurd ho id
  | spawn => exact absurd ho id
  | prepare => exact onlyChild_same (fun _ _ => rfl) rfl rfl rfl
  | cancel id =>
    rw [System.perform]
    split
    · exact onlyChild_same (fun _ _ => rfl) rfl rfl rfl
    · exact onlyChild_same (fun _ _ => rfl) rfl rfl rfl
  | activeForProject p => exact onlyChild_same (fun _ _ => rfl) rfl rfl rfl
  | activeRuntimeService id => exact onlyChild_same (fun _ _ => rfl) rfl rfl rfl
  | takePipe stream => exact onlyChild_same (fun _ _ => rfl) rfl rfl rfl
  | setNonblocking stream => exact onlyChild_same (fun _ _ => rfl) rfl rfl rfl
  | startThread => exact onlyChild_same (fun _ _ => rfl) rfl rfl rfl
  | trySend event => exact onlyChild_same (fun _ _ => rfl) rfl rfl rfl
  | read stream =>
    obtain ⟨before, draws, success, read, now, status⟩ := w
    cases read with
    | bytes chunk => exact onlyChild_same (fun _ _ => rfl) rfl rfl rfl
    | closed => exact onlyChild_same (fun _ _ => rfl) rfl rfl rfl
    | wouldBlock => exact onlyChild_same (fun _ _ => rfl) rfl rfl rfl
    | interrupted => exact onlyChild_same (fun _ _ => rfl) rfl rfl rfl
    | failed => exact onlyChild_same (fun _ _ => rfl) rfl rfl rfl
  | now => exact onlyChild_same (fun _ _ => rfl) rfl rfl rfl
  | loadCancel => exact onlyChild_same (fun _ _ => rfl) rfl rfl rfl
  | sleep => exact onlyChild_same (fun _ _ => rfl) rfl rfl rfl
  | killChild => exact ⟨rfl, rfl, rfl⟩
  | waitChild => exact ⟨rfl, rfl, rfl⟩
  | tryWait =>
    rw [System.perform]
    split
    · rename_i hnone
      exact onlyChild_same (fun c hc => by cases hnone.symm.trans hc) rfl rfl rfl
    · by_cases hok : w.success = true
      · rw [if_pos hok]
        refine ⟨rfl, rfl, ?_⟩
        have hchild : Op.onChild w .tryWait = fun c => c.tryWait.2 := by
          funext c
          exact if_pos hok
        rw [hchild]
        rfl
      · rw [if_neg hok]
        exact onlyChild_same (fun c _ => if_neg hok) rfl rfl rfl
  | signalGroup signal =>
    rw [System.perform.eq_def]
    dsimp only
    split
    · rename_i hnone
      exact onlyChild_same (fun c hc => by cases hnone.symm.trans hc) rfl rfl rfl
    · rename_i c hc
      cases signal with
      | term =>
        split
        · exact onlyChild_same (fun _ _ => rfl) rfl rfl rfl
        · exact onlyChild_same (fun _ _ => rfl) rfl rfl rfl
      | kill =>
        split
        · rename_i hgroup
          refine ⟨rfl, rfl, ?_⟩
          funext j
          show (if j = i then _ else _) = if j = i then _ else _
          by_cases hj : j = i
          · subst hj
            rw [if_pos rfl, if_pos rfl, hc]
            exact congrArg some (if_pos hgroup).symm
          · rw [if_neg hj, if_neg hj]
        · rename_i hgroup
          refine onlyChild_same (fun c' hc' => ?_) rfl rfl rfl
          cases hc.symm.trans hc'
          exact if_neg hgroup

theorem perform_sure {o : Op} (ho : o.Sure) (s : System ι) (i : ι) (w : World ι) :
    ∃ a, (s.perform i w o).1 = .ok a := by
  cases o with
  | takePipe stream => exact ⟨_, rfl⟩
  | setNonblocking stream => exact ⟨_, rfl⟩
  | startThread => exact ⟨_, rfl⟩
  | trySend event => exact ⟨_, rfl⟩
  | now => exact ⟨_, rfl⟩
  | loadCancel => exact ⟨_, rfl⟩
  | killChild => exact ⟨_, rfl⟩
  | sleep => exact ⟨_, rfl⟩
  | signalGroup signal =>
    rw [System.perform.eq_def]
    dsimp only
    split
    · exact ⟨_, rfl⟩
    · split
      · cases signal with
        | term => exact ⟨_, rfl⟩
        | kill => exact ⟨_, rfl⟩
      · exact ⟨_, rfl⟩
  | _ => exact absurd ho (fun hsure => hsure)

theorem perform_tryWait {c : Child} (hc : s.child i = some c) (w : World ι) :
    (s.perform i w .tryWait).1 =
      if w.success then .ok c.tryWait.1 else .error (processError "process_wait_failed") := by
  rw [System.perform, hc]
  dsimp only
  split
  · rfl
  · rfl

/-- What a call reserves, and what happens to the registry when it does. -/
theorem perform_reserve (s : System ι) (i : ι) (w : World ι) (scope : ActiveProcessScope) :
    (∃ e, s.perform i w (.reserve scope) = (.error e, s)) ∨
    ∃ id registry, s.perform i w (.reserve scope) =
        (.ok id, { s with
          registry := registry
          slot := Function.update s.slot i (.held id scope) }) ∧
      registry.active = (id, { scope := scope, cancelRequested := i }) :: s.registry.active := by
  rw [System.perform]
  cases hreserve : s.registry.reserve i scope w.draws with
  | error e => exact .inl ⟨e, rfl⟩
  | ok reserved => exact .inr ⟨reserved.1, reserved.2, rfl, reserve_ok hreserve⟩

theorem rely_occur (i : ι) (s : System ι) (x : ι × Occurrence) : Rely i s (s.occur x) := by
  have hchild : (s.occur x).child i = if i = x.1 then (s.child i).map (x.2.child ·) else s.child i :=
    rfl
  by_cases hi : i = x.1
  · rw [if_pos hi] at hchild
    refine ⟨rfl, fun hnone => ?_, fun c hc => ⟨x.2.child c, ?_, later_occurrence c x.2⟩⟩
    · rw [hchild, hnone]
      rfl
    · rw [hchild, hc]
      rfl
  · rw [if_neg hi] at hchild
    exact Rely.same rfl hchild

theorem rely_occurs (i : ι) (xs : List (ι × Occurrence)) (s : System ι) :
    Rely i s (xs.foldl System.occur s) := by
  induction xs generalizing s with
  | nil => exact Rely.same rfl rfl
  | cons x xs ih => exact (rely_occur i s x).trans (ih (s.occur x))

/-- An operation is nothing to the other calls. -/
theorem rely_perform (hij : i ≠ j) (o : Op) (s : System ι) (w : World ι) :
    Rely i s (s.perform j w o).2 := by
  by_cases ho : o.Plain
  · have honly := perform_plain ho s j w
    refine Rely.same (congrFun honly.slot i) ?_
    rw [honly.child]
    exact if_neg hij
  · cases o with
    | reserve scope =>
      rcases perform_reserve s j w scope with ⟨e, h⟩ | ⟨id, registry, h, -⟩
      · rw [h]
        exact Rely.same rfl rfl
      · rw [h]
        exact Rely.same (Function.update_of_ne hij _ _) rfl
    | release id => exact Rely.same (Function.update_of_ne hij _ _) rfl
    | spawn =>
      rw [System.perform]
      split
      · exact Rely.same rfl (Function.update_of_ne hij _ _)
      · exact Rely.same rfl rfl
    | _ => exact absurd trivial ho

/-! ## The invariant -/

theorem Inv.occur (h : Inv scopes s) (x : ι × Occurrence) : Inv scopes (s.occur x) := by
  refine h.later rfl rfl (fun j => ?_)
  have hrely := rely_occur j s x
  cases hc : s.child j with
  | none => exact .inl (hrely.absent hc)
  | some c =>
    obtain ⟨c', hc', hlater⟩ := hrely.child c hc
    exact .inr ⟨c, c', rfl, hc', fun _ => hlater⟩

theorem Inv.occurs (h : Inv scopes s) (xs : List (ι × Occurrence)) :
    Inv scopes (xs.foldl System.occur s) := by
  induction xs generalizing s with
  | nil => exact h
  | cons x xs ih => exact ih (h.occur x)

/-- A slot is taken. -/
theorem Inv.reserve (h : Inv scopes s) {id : ProcessId} {scope : ActiveProcessScope}
    {registry : Registry ι} (hfree : s.slot i = .none) (hscope : scopes i = some scope)
    (hactive : registry.active = (id, { scope := scope, cancelRequested := i }) ::
      s.registry.active) :
    Inv scopes { s with
      registry := registry
      slot := Function.update s.slot i (.held id scope) } where
  owned := fun id' a => by
    show (id', a) ∈ registry.active ↔ Function.update s.slot i _ a.cancelRequested = _
    rw [hactive, List.mem_cons, h.owned]
    by_cases hi : a.cancelRequested = i
    · rw [hi, Function.update_self, hfree]
      constructor
      · rintro (heq | hheld)
        · cases heq
          rfl
        · cases hheld
      · intro hheld
        cases hheld
        refine .inl ?_
        rw [← hi]
    · rw [Function.update_of_ne hi]
      refine ⟨?_, .inr⟩
      rintro (heq | hheld)
      · cases heq
        exact absurd rfl hi
      · exact hheld
  scope := fun j scope' hj => by
    change (Function.update s.slot i _ j).scope = _ at hj
    by_cases hi : j = i
    · subst hi
      rw [Function.update_self] at hj
      exact hscope.trans hj
    · rw [Function.update_of_ne hi] at hj
      exact h.scope j scope' hj
  spawned := fun j c hc => by
    show Function.update s.slot i _ j ≠ _
    by_cases hi : j = i
    · subst hi
      rw [Function.update_self]
      exact fun hnone => by cases hnone
    · rw [Function.update_of_ne hi]
      exact h.spawned j c hc
  settled := fun j scope' alive c hreleased hc => by
    change Function.update s.slot i _ j = _ at hreleased
    by_cases hi : j = i
    · subst hi
      rw [Function.update_self] at hreleased
      cases hreleased
    · rw [Function.update_of_ne hi] at hreleased
      exact h.settled j scope' alive c hreleased hc

/-- A slot is given back: it is the only one with its id. -/
theorem Inv.release (h : Inv scopes s) {id : ProcessId} {scope : ActiveProcessScope}
    (hheld : s.slot i = .held id scope) (hgone : ∀ c, s.child i = some c → c.leader ≠ .running) :
    Inv scopes { s with
      registry := s.registry.remove id
      slot := Function.update s.slot i ((s.slot i).release (s.alive i)) } where
  owned := fun id' a => by
    show (id', a) ∈ s.registry.active.filter _ ↔ Function.update s.slot i _ a.cancelRequested = _
    have hmine : (id, { scope := scope, cancelRequested := i }) ∈ s.registry.active :=
      (h.owned id { scope := scope, cancelRequested := i }).mpr hheld
    rw [List.mem_filter, bne_iff_ne, h.owned]
    by_cases hi : a.cancelRequested = i
    · rw [hi, Function.update_self, hheld]
      refine iff_of_false (fun hother => ?_) (fun hreleased => by cases hreleased)
      obtain ⟨hsame, hne⟩ := hother
      cases hsame
      exact hne rfl
    · rw [Function.update_of_ne hi]
      refine ⟨fun hother => hother.1, fun hother => ⟨hother, fun hid => hi ?_⟩⟩
      have hentry := List.inj_on_of_nodup_map s.registry.unique ((h.owned id' a).mpr hother) hmine
        hid
      cases hentry
      rfl
  scope := fun j scope' hj => by
    change (Function.update s.slot i _ j).scope = _ at hj
    by_cases hi : j = i
    · subst hi
      rw [Function.update_self, hheld] at hj
      refine h.scope j scope' ?_
      rw [hheld]
      exact hj
    · rw [Function.update_of_ne hi] at hj
      exact h.scope j scope' hj
  spawned := fun j c hc => by
    show Function.update s.slot i _ j ≠ _
    by_cases hi : j = i
    · subst hi
      rw [Function.update_self, hheld]
      exact fun hnone => by cases hnone
    · rw [Function.update_of_ne hi]
      exact h.spawned j c hc
  settled := fun j scope' alive c hreleased hc => by
    change Function.update s.slot i _ j = _ at hreleased
    by_cases hi : j = i
    · subst hi
      rw [Function.update_self, hheld] at hreleased
      cases hreleased
      refine ⟨hgone c hc, fun hdead => ?_⟩
      have hc' : s.child j = some c := hc
      rw [System.alive, hc'] at hdead
      exact hdead
    · rw [Function.update_of_ne hi] at hreleased
      exact h.settled j scope' alive c hreleased hc

/-- A process is spawned for a slot that is held. -/
theorem Inv.spawn (h : Inv scopes s) {id : ProcessId} {scope : ActiveProcessScope} (c : Child)
    (hheld : s.slot i = .held id scope) :
    Inv scopes { s with child := Function.update s.child i (some c) } where
  owned := h.owned
  scope := h.scope
  spawned := fun j c' hc' => by
    change Function.update s.child i _ j = _ at hc'
    by_cases hi : j = i
    · subst hi
      exact fun hnone => by cases hheld.symm.trans hnone
    · rw [Function.update_of_ne hi] at hc'
      exact h.spawned j c' hc'
  settled := fun j scope' alive c' hreleased hc' => by
    change Function.update s.child i _ j = _ at hc'
    by_cases hi : j = i
    · subst hi
      cases hheld.symm.trans hreleased
    · rw [Function.update_of_ne hi] at hc'
      exact h.settled j scope' alive c' hreleased hc'

theorem Inv.perform {o : Op} (h : Inv scopes s) (hallowed : Allowed scopes i o s) (w : World ι) :
    Inv scopes (s.perform i w o).2 := by
  by_cases ho : o.Plain
  · have honly := perform_plain ho s i w
    refine h.later honly.registry honly.slot (fun j => ?_)
    rw [honly.child]
    show (if j = i then _ else _) = _ ∨ ∃ c c', _ ∧ (if j = i then _ else _) = _ ∧ _
    by_cases hj : j = i
    · subst hj
      rw [if_pos rfl]
      cases hc : s.child j with
      | none => exact .inl rfl
      | some c =>
        refine .inr ⟨c, o.onChild w c, rfl, rfl, ?_⟩
        rintro ⟨scope, alive, hreleased⟩
        exact absurd hreleased (hallowed.not_released scope alive)
    · exact .inl (if_neg hj)
  · cases o with
    | reserve scope =>
      rcases perform_reserve s i w scope with ⟨e, hanswer⟩ | ⟨id, registry, hanswer, hactive⟩
      · rw [hanswer]
        exact h
      · rw [hanswer]
        exact h.reserve hallowed.1 hallowed.2 hactive
    | release id =>
      obtain ⟨⟨scope, hheld⟩, hgone⟩ := hallowed
      exact h.release hheld hgone
    | spawn =>
      obtain ⟨⟨id, scope, hheld⟩, -⟩ := hallowed
      rw [System.perform]
      split
      · exact h.spawn _ hheld
      · exact h
    | _ => exact absurd trivial ho

/-! ## One call among others -/

/-- The calls of one runtime, each for the scope it is given. -/
abbrev Calls (scopes : ι → Option ActiveProcessScope) :
    Setting Op (fun o => Result o.Val) ι (World ι) (System ι) where
  exec := exec
  admits := fun _ => True
  inv := Inv scopes
  allowed := Allowed scopes
  rely := Rely
  rely_refl := fun _ _ => Rely.same rfl rfl
  rely_trans := Rely.trans
  inv_step := fun _ h hallowed => (h.occurs _).perform (hallowed.rely (rely_occurs _ _ _)) _
  rely_step := fun hij _ _ _ => (rely_occurs _ _ _).trans (rely_perform hij _ _ _)

/-- What a plain operation does, for the call that supervises. -/
theorem Supervises.after {o : Op} (ho : o.Plain) (w : World ι) (h : Supervises i id P s) :
    ∃ c, s.child i = some c ∧ P c ∧
      Supervises i id (fun c' => c' = o.onChild w c) (s.perform i w o).2 := by
  obtain ⟨⟨scope, hheld⟩, c, hc, hPc⟩ := h
  have honly := perform_plain ho s i w
  refine ⟨c, hc, hPc, ⟨scope, (congrFun honly.slot i).trans hheld⟩, o.onChild w c, ?_, rfl⟩
  rw [honly.child]
  show (if i = i then _ else _) = _
  rw [if_pos rfl, hc]
  rfl

variable {α : Type} {Q : α → System ι → Prop} {E : VibeCoderError → System ι → Prop}

/-- A plain operation: it is performed on what the process has become by then, and what it leaves
    goes on changing. -/
theorem supervises_plain {o : Op} {Q : o.Val → System ι → Prop} (h : Supervises i id P s)
    (hP : Stable P) (ho : o.Plain)
    (hQ : ∀ (w : World ι) (u : System ι) c t, u.child i = some c → P c →
      Supervises i id (Later (o.onChild w c)) t → Post Q E (u.perform i w o).1 t) :
    Wp (Calls scopes) i (perform o) Q E s := by
  refine wp_attempt (h.allowed ho) (fun w _ t hrely _ => ?_)
  obtain ⟨c, hc, hPc, hnow⟩ := (h.rely hP (rely_occurs i w.before s)).after ho w
  have hlater : Supervises i id (Later (o.onChild w c)) (exec i w o s).2 :=
    hnow.mono (fun c' hc' => hc' ▸ Later.refl _)
  exact hQ w _ c t hc hPc (hlater.rely (stable_later _) hrely)

/-- **Frame rule.**  A calm part of the supervisor. -/
theorem supervises_calm {p : ProcessM α} (h : Supervises i id P s) (hP : Stable P)
    (hp : Only Op.Calm p) :
    Wp (Calls scopes) i p (fun _ => Supervises i id P) (fun _ => Supervises i id P) s := by
  refine wp_only (J := Supervises i id P) (fun o ho t ht => ⟨ht.allowed ho.plain, ?_⟩) hp h
  intro w _ r hrely _
  obtain ⟨c, -, hPc, hnow⟩ := (ht.rely hP (rely_occurs i w.before t)).after ho.plain w
  have hnow : Supervises i id P (exec i w o t).2 :=
    hnow.mono (fun c' hc' => hc' ▸ hP c _ (later_onChild ho w c) hPc)
  exact hnow.rely hP hrely

/-- An operation that always has an answer. -/
theorem supervises_sure {o : Op} (h : Supervises i id P s) (hP : Stable P) (ho : o.Sure) :
    Wp (Calls scopes) i (perform o) (fun _ => Supervises i id P) (fun _ _ => False) s := by
  refine supervises_plain h hP ho.calm.plain (fun w u c t _ hPc ht => ?_)
  obtain ⟨a, hanswer⟩ := perform_sure ho u i w
  rw [hanswer]
  exact ht.mono (fun c' hc' => hP c c' ((later_onChild ho.calm w c).trans hc') hPc)

end

end VibeCoder.Process
