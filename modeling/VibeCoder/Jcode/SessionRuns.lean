/-
  Every run of the session methods of the Jcode adapter: which session Jcode is attached to when
  a worker starts.

  1. **The law** (`AttachmentLaw`) — a session is never bound to a second project, and a worker
     was started only for the session Jcode acknowledged last on the connection, with every
     directory reported for it then equal to the root the session is bound to.

  2. **The invariant** (`Inv`) — a session recorded as attached on the current generation is the
     one Jcode acknowledged.  In the middle of a method that is not so: a method that has changed
     the attachment upstream records the new one or drops the connection before it returns.

  3. **When it holds** — `create_session` is the method that does not: when Jcode answers with the
     id of a session bound to another project, `mark_attached` refuses and the record of the
     previous attachment stays (`session_attachment_law`, `not_every_worker_verified`).
-/
import VibeCoder.Lib.Run
import VibeCoder.Jcode.Sessions

namespace VibeCoder.Jcode.Sessions

open Resume

/-! ## The law -/

/-- Jcode acknowledged just this session, and reported no other directory for it. -/
def Upstream.Confirms (u : Upstream) (sessionId : SessionId) (root : String) : Prop :=
  u.sessionId = sessionId.value ∧ (∀ asked, u.asked = some asked → asked = sessionId) ∧
    ∀ dir ∈ u.reported, dir = some root

/-- The worker was started for the session Jcode was attached to, on its own project. -/
def Started.Verified (x : Started) : Prop :=
  ∃ binding u, x.binding = some binding ∧ x.upstream = some u ∧
    u.Confirms x.sessionId binding.projectRoot

/-- **Session attachment law.** -/
structure AttachmentLaw (a : Adapter) : Prop where
  bound : ∀ x ∈ a.bound, ∀ y ∈ a.bound, x.1 = y.1 →
    x.2.projectId = y.2.projectId ∧ x.2.projectRoot = y.2.projectRoot
  started : ∀ x ∈ a.started, x.Verified

/-- The session is recorded as attached on the current generation. -/
def Adapter.attachedNow (a : Adapter) (sessionId : SessionId) : Bool :=
  a.sessions.isAttachedOnGeneration sessionId a.connection.generation

/-- What holds also in the middle of a method. -/
structure Base (a : Adapter) : Prop where
  bound : ∀ x ∈ a.bound, ∃ binding, a.sessions.bindings x.1 = some binding ∧
    binding.projectId = x.2.projectId ∧ binding.projectRoot = x.2.projectRoot
  old : ∀ sessionId binding, a.sessions.bindings sessionId = some binding →
    binding.connectionGeneration ≤ a.connection.generation
  started : ∀ x ∈ a.started, x.Verified

/-- What holds between two methods: the record of the attachment is honest. -/
structure Inv (a : Adapter) : Prop extends Base a where
  honest : ∀ sessionId, a.attachedNow sessionId = true → ∃ binding u,
    a.sessions.bindings sessionId = some binding ∧ a.upstream = some u ∧
      u.Confirms sessionId binding.projectRoot

theorem inv_new : Inv Adapter.new where
  bound := fun _ h => absurd h List.not_mem_nil
  old := fun _ _ h => by cases h
  started := fun _ h => absurd h List.not_mem_nil
  honest := fun _ h => by cases h

theorem Inv.law {a : Adapter} (h : Inv a) : AttachmentLaw a := by
  refine ⟨fun x hx y hy hxy => ?_, h.started⟩
  obtain ⟨b, hb, hid, hroot⟩ := h.bound x hx
  obtain ⟨c, hc, hid', hroot'⟩ := h.bound y hy
  rw [hxy, hc] at hb
  cases hb
  exact ⟨hid.symm.trans hid', hroot.symm.trans hroot'⟩

/-! ## What the steps leave alone -/

/-- Everything but what Jcode acknowledged is as before. -/
structure Apart (a b : Adapter) : Prop where
  sessions : b.sessions = a.sessions
  generation : b.connection.generation = a.connection.generation
  bound : b.bound = a.bound
  started : b.started = a.started

/-- Everything the law speaks of is as before. -/
structure Same (a b : Adapter) : Prop extends Apart a b where
  upstream : b.upstream = a.upstream

theorem Same.refl (a : Adapter) : Same a a := ⟨⟨rfl, rfl, rfl, rfl⟩, rfl⟩

theorem Apart.trans {a b c : Adapter} (h : Apart a b) (h' : Apart b c) : Apart a c :=
  ⟨h'.sessions.trans h.sessions, h'.generation.trans h.generation, h'.bound.trans h.bound,
    h'.started.trans h.started⟩

theorem Same.trans {a b c : Adapter} (h : Same a b) (h' : Same b c) : Same a c :=
  ⟨h.toApart.trans h'.toApart, h'.upstream.trans h.upstream⟩

theorem Apart.base {a b : Adapter} (h : Apart a b) (ha : Base a) : Base b := by
  refine ⟨?_, ?_, ?_⟩
  · rw [h.bound, h.sessions]
    exact ha.bound
  · rw [h.sessions, h.generation]
    exact ha.old
  · rw [h.started]
    exact ha.started

theorem Same.attachedNow {a b : Adapter} (h : Same a b) (sessionId : SessionId) :
    b.attachedNow sessionId = a.attachedNow sessionId := by
  unfold Adapter.attachedNow
  rw [h.sessions, h.generation]

theorem Same.inv {a b : Adapter} (h : Same a b) (ha : Inv a) : Inv b := by
  refine ⟨h.toApart.base ha.toBase, fun sessionId hattached => ?_⟩
  rw [h.attachedNow] at hattached
  rw [h.sessions, h.upstream]
  exact ha.honest sessionId hattached

theorem refreshClosed_generation (c : Connection) : c.refreshClosed.generation = c.generation := by
  unfold Connection.refreshClosed
  split
  · rfl
  · rfl

/-- What happens outside touches nothing the law speaks of. -/
theorem outside_same (events : List Outside) (a : Adapter) :
    Same a (events.foldl Outside.apply a) := by
  induction events generalizing a with
  | nil => exact Same.refl a
  | cons event events ih =>
    have hone : Same a (event.apply a) := by
      cases event with
      | transportLost => exact ⟨⟨rfl, rfl, rfl, rfl⟩, rfl⟩
      | statusRead => exact ⟨⟨rfl, refreshClosed_generation _, rfl, rfl⟩, rfl⟩
      | turnOver => exact ⟨⟨rfl, rfl, rfl, rfl⟩, rfl⟩
    exact hone.trans (ih _)

/-- The steps that touch nothing the law speaks of. -/
def Quiet : Op → Prop
  | .connect | .markAttached _ _ _ _ | .clearAttachment | .createSession _ | .attachSession _
  | .listSessions | .startWorker _ _ => False
  | .hasActive | .inspectRoot _ | .canonicalize _ | .disconnect | .status | .client | .binding _
  | .isAttached _ _ | .probe _ | .beginTurn _ _ => True

theorem perform_quiet {o : Op} (ho : Quiet o) (r : Replies) (n : Nat) (a : Adapter) :
    Same a (a.perform r n o).2 := by
  cases o with
  | connect | markAttached | clearAttachment | createSession | attachSession | listSessions
  | startWorker => exact ho.elim
  | hasActive | inspectRoot | canonicalize | disconnect | binding | isAttached | probe
  | beginTurn => exact ⟨⟨rfl, rfl, rfl, rfl⟩, rfl⟩
  | status | client => exact ⟨⟨rfl, refreshClosed_generation _, rfl, rfl⟩, rfl⟩

/-! ## One step of a method -/

/-- One method alone, with the answers of one call. -/
abbrev Alone (r : Replies) : Setting Op (fun o => Result o.Val) Unit (Replies × Nat) Adapter :=
  Setting.solo Adapter.exec (fun w => w.1 = r)

variable {r : Replies} {a : Adapter} {α : Type}

/-- A step from wherever the outside took the state. -/
theorem wp_op {o : Op} {Q : o.Val → Adapter → Prop} {E : VibeCoderError → Adapter → Prop}
    (h : ∀ n b, Same a b → Post Q E (b.perform r n o).1 (b.perform r n o).2) :
    Wp (Alone r) () (ask o) Q E a := by
  refine wp_attempt trivial (fun w hw t hrely _ => ?_)
  have ht : (Adapter.exec w o a).2 = t := hrely
  have hreplies : w.1 = r := hw
  rw [← ht]
  show Post Q E (Adapter.exec w o a).1 (Adapter.exec w o a).2
  unfold Adapter.exec
  rw [hreplies]
  exact h w.2 _ (outside_same _ a)

/-- A program of quiet steps. -/
theorem wp_quiet {p : AdapterM α} (hp : Only Quiet p) :
    Wp (Alone r) () p (fun _ => Same a) (fun _ => Same a) a := by
  refine wp_only (fun o ho b hb => ⟨trivial, fun w _ t hrely _ => ?_⟩) hp (Same.refl a)
  have ht : (Adapter.exec w o b).2 = t := hrely
  rw [← ht]
  exact (hb.trans (outside_same _ b)).trans (perform_quiet ho _ _ _)

/-- Quiet steps before the rest of a method. -/
theorem wp_after_quiet {β : Type} {p : AdapterM β} {f : β → AdapterM α}
    {Q : α → Adapter → Prop} {E : VibeCoderError → Adapter → Prop} (hp : Only Quiet p)
    (hE : ∀ e b, Same a b → E e b) (hf : ∀ c b, Same a b → Wp (Alone r) () (f c) Q E b) :
    Wp (Alone r) () (p >>= f) Q E a :=
  wp_seq trivial (wp_quiet hp) (fun c b _ hb => hf c b hb) (fun e b _ hb => hE e b hb)

/-- A read of the registry. -/
theorem wp_binding {sessionId : SessionId} {E : VibeCoderError → Adapter → Prop} :
    Wp (Alone r) () (ask (.binding sessionId))
      (fun v b => v = a.sessions.bindings sessionId ∧ Same a b) E a :=
  wp_op fun _ _ hb => ⟨congrArg (fun s => s.bindings sessionId) hb.sessions, hb⟩

/-- The root of a project is the one the file system answers. -/
theorem wp_projectRoot {project : ProjectRef} :
    Wp (Alone r) () (projectRoot project)
      (fun root b => canonicalProjectRoot project r.root = .ok root ∧ Same a b)
      (fun _ => Same a) a := by
  refine wp_bind (wp_op fun _ b hb => wp_resume ?_)
  show Post _ _ (canonicalProjectRoot project r.root) b
  cases canonicalProjectRoot project r.root with
  | error e => exact hb
  | ok root => exact ⟨rfl, hb⟩

theorem wp_isAttached {sessionId : SessionId} {E : VibeCoderError → Adapter → Prop} :
    Wp (Alone r) () (ask (.isAttached sessionId a.connection.generation))
      (fun v b => v = a.attachedNow sessionId ∧ Same a b) E a := by
  refine wp_op fun _ b hb => ⟨?_, hb⟩
  show b.sessions.isAttachedOnGeneration sessionId a.connection.generation = _
  rw [hb.sessions]
  rfl

theorem only_refuseIf (P : Op → Prop) (c : Bool) (e : VibeCoderError) :
    Only P (refuseIf c e) := only_resume _

theorem only_requireSome {β : Type} (P : Op → Prop) (x : Option β) (e : VibeCoderError) :
    Only P (requireSome x e) := only_resume _

theorem only_onlyIf {P : Op → Prop} {p : AdapterM Unit} (c : Bool) (hp : Only P p) :
    Only P (onlyIf c p) := by
  unfold onlyIf
  split
  · exact hp
  · exact only_pure _

theorem only_ask {P : Op → Prop} {o : Op} (h : P o) : Only P (ask o) := only_attempt h

theorem only_refuseWhileActive (message : String) : Only Quiet (refuseWhileActive message) :=
  only_bind (only_ask trivial) fun _ => only_refuseIf _ _ _

theorem only_projectRoot (project : ProjectRef) : Only Quiet (projectRoot project) :=
  only_bind (only_ask trivial) fun _ => only_resume _

theorem only_boundRootUnchanged (binding : SessionBinding) :
    Only Quiet (boundRootUnchanged binding) :=
  only_bind (only_ask trivial) fun _ => only_bind (only_requireSome _ _ _) fun _ =>
    only_refuseIf _ _ _

theorem only_openFreshModelClient (binding : SessionBinding) :
    Only Quiet (openFreshModelClient binding) :=
  only_bind (only_boundRootUnchanged binding) fun _ => only_bind (only_ask trivial) fun _ =>
    only_ask trivial

theorem only_verifyTransportGeneration (expected : Nat) :
    Only Quiet (verifyTransportGeneration expected) := by
  refine only_bind (only_ask trivial) fun snapshot => ?_
  cases snapshot.state with
  | connected identity => exact only_refuseIf _ _ _
  | disconnected => exact only_throw _
  | connecting => exact only_throw _
  | faulted => exact only_throw _

theorem only_discoverSessionModels (binding : SessionBinding) (generation : Nat) :
    Only Quiet (discoverSessionModels binding generation) :=
  only_bind (only_openFreshModelClient binding) fun _ => only_bind (only_ask trivial) fun _ =>
    only_verifyTransportGeneration generation

theorem only_selectSessionModel (binding : SessionBinding) (generation : Nat) :
    Only Quiet (selectSessionModel binding generation) :=
  only_bind (only_ask trivial) fun _ => only_bind (only_ask trivial) fun _ =>
    only_bind (only_openFreshModelClient binding) fun _ => only_bind (only_ask trivial) fun _ =>
      only_verifyTransportGeneration generation

/-! ## The transport -/

/-- The connection is the same, or a later one. -/
structure Transported (a b : Adapter) : Prop where
  sessions : b.sessions = a.sessions
  bound : b.bound = a.bound
  started : b.started = a.started
  connection : (b.connection.generation = a.connection.generation ∧ b.upstream = a.upstream) ∨
    a.connection.generation < b.connection.generation

theorem Same.transported {a b : Adapter} (h : Same a b) : Transported a b :=
  ⟨h.sessions, h.bound, h.started, .inl ⟨h.generation, h.upstream⟩⟩

theorem Same.then_transported {a b c : Adapter} (h : Same a b) (h' : Transported b c) :
    Transported a c := by
  refine ⟨h'.sessions.trans h.sessions, h'.bound.trans h.bound, h'.started.trans h.started, ?_⟩
  rcases h'.connection with ⟨hgen, hup⟩ | hlater
  · exact .inl ⟨hgen.trans h.generation, hup.trans h.upstream⟩
  · right
    rw [← h.generation]
    exact hlater

/-- What is attached on a later connection was attached on this one. -/
theorem Transported.attachedNow {a b : Adapter} (h : Transported a b) (ha : Base a)
    {sessionId : SessionId} (hb : b.attachedNow sessionId = true) :
    a.attachedNow sessionId = true ∧ b.upstream = a.upstream := by
  unfold Adapter.attachedNow at hb
  rcases h.connection with ⟨hgen, hup⟩ | hlater
  · rw [h.sessions, hgen] at hb
    exact ⟨hb, hup⟩
  · -- no binding carries a generation of the future
    exfalso
    rw [h.sessions] at hb
    unfold SessionRegistry.isAttachedOnGeneration at hb
    rcases hbinding : a.sessions.bindings sessionId with _ | binding
    · rw [hbinding] at hb
      simp at hb
    · have hold := ha.old sessionId binding hbinding
      rw [hbinding] at hb
      simp only [Option.any_some, Bool.and_eq_true, beq_iff_eq] at hb
      omega

theorem Transported.inv {a b : Adapter} (h : Transported a b) (ha : Inv a) : Inv b := by
  refine ⟨⟨?_, ?_, ?_⟩, fun sessionId hattached => ?_⟩
  · rw [h.bound, h.sessions]
    exact ha.bound
  · intro sessionId binding hbinding
    rw [h.sessions] at hbinding
    have hold := ha.old sessionId binding hbinding
    rcases h.connection with ⟨hgen, -⟩ | hlater
    · omega
    · omega
  · rw [h.started]
    exact ha.started
  · obtain ⟨hbefore, hup⟩ := h.attachedNow ha.toBase hattached
    rw [h.sessions, hup]
    exact ha.honest sessionId hbefore

/-- A connection attempt. -/
theorem wp_connect (hgen : a.connection.generation < u64Max) :
    Wp (Alone r) () (ask .connect)
      (fun snapshot b => Transported a b ∧ snapshot.generation = b.connection.generation)
      (fun _ => Transported a) a := by
  refine wp_op fun n b hb => ?_
  have hrefresh := refreshClosed_generation b.connection
  have hsame := hb.generation
  have hkept : ∀ c : Connection, c.generation = b.connection.refreshClosed.generation →
      Transported a { b with connection := c } := by
    intro c hc
    exact ⟨hb.sessions, hb.bound, hb.started, .inl ⟨hc.trans (hrefresh.trans hsame), hb.upstream⟩⟩
  rcases hstate : b.connection.refreshClosed.state with _ | _ | identity | _
  case connecting =>
    simp only [Adapter.perform, Connection.connect, hstate]
    exact hkept _ rfl
  case connected =>
    simp only [Adapter.perform, Connection.connect, hstate]
    exact ⟨hkept _ rfl, rfl⟩
  all_goals
    rcases hopened : r.opened with e | identity
    · simp only [Adapter.perform, Connection.connect, hstate, hopened]
      exact hkept _ rfl
    · simp only [Adapter.perform, Connection.connect, hstate, hopened]
      refine ⟨⟨hb.sessions, hb.bound, hb.started, .inr ?_⟩, rfl⟩
      show a.connection.generation < min (b.connection.refreshClosed.generation + 1) u64Max
      omega

theorem wp_ensureSessionTransport (hgen : a.connection.generation < u64Max) :
    Wp (Alone r) () ensureSessionTransport
      (fun generation b => Transported a b ∧ generation = b.connection.generation)
      (fun _ => Transported a) a := by
  refine wp_seq trivial (wp_connect hgen) (fun snapshot b _ hb => ?_) (fun _ _ _ hb => hb)
  cases snapshot.state with
  | disconnected => exact wp_throw hb.1
  | connecting => exact wp_throw hb.1
  | faulted => exact wp_throw hb.1
  | connected identity =>
    refine wp_seq (R := fun _ => (· = b)) (F := fun _ => (· = b)) trivial ?_ ?_ ?_
    · refine wp_resume ?_
      split
      · exact rfl
      · exact rfl
    · rintro _ _ - rfl
      exact wp_pure hb
    · rintro _ _ - rfl
      exact hb.1

/-! ## The attachment upstream -/

theorem verifyAttachedSessionId_ok {attached : SessionInfo} {expected : Option SessionId}
    {actual : SessionId} (h : verifyAttachedSessionId attached expected = .ok actual) :
    attached.sessionId = actual.value ∧ ∀ asked, expected = some asked → asked = actual := by
  unfold verifyAttachedSessionId at h
  split at h
  · cases h
  · split at h
    · cases h
    · cases expected with
      | none =>
        cases h
        exact ⟨rfl, fun _ hasked => by cases hasked⟩
      | some sessionId =>
        dsimp only at h
        split at h
        · cases h
        · rename_i hsame
          cases h
          rw [ne_eq, not_not] at hsame
          refine ⟨rfl, fun asked hasked => ?_⟩
          cases hasked
          exact hsame.symm

theorem verifySessionProject_ok {metadata : SessionInfo} {root : String}
    (h : verifySessionProject metadata root = .ok ()) :
    ∃ dir, metadata.workingDir = some dir ∧ dir.canonical = some root := by
  unfold verifySessionProject at h
  rcases hdir : metadata.workingDir with _ | dir
  · rw [hdir] at h
    cases h
  · rw [hdir] at h
    dsimp only at h
    split at h
    · cases h
    · split at h
      · cases h
      · rcases hcanonical : dir.canonical with _ | actual
        · rw [hcanonical] at h
          cases h
        · rw [hcanonical] at h
          dsimp only at h
          split at h
          · cases h
          · rename_i hroot
            rw [ne_eq, not_not] at hroot
            exact ⟨dir, rfl, hroot ▸ hcanonical⟩

/-- The listing reports one entry, with this root. -/
theorem report_of_metadata {sessions : List SessionInfo} {sessionId : SessionId}
    {metadata : SessionInfo} {root : String}
    (hmeta : sessionMetadata sessions sessionId = .ok metadata)
    (hroot : verifySessionProject metadata root = .ok ()) (asked : Option SessionId) :
    (Upstream.report sessions
      { sessionId := sessionId.value, asked := asked, reported := [] }).reported = [some root] := by
  obtain ⟨dir, hdir, hcanonical⟩ := verifySessionProject_ok hroot
  unfold sessionMetadata at hmeta
  split at hmeta
  · cases hmeta
  · rename_i heq
    cases hmeta
    simp [Upstream.report, heq, hdir, hcanonical]
  · cases hmeta

/-- The listing reports nothing yet, or this root. -/
theorem report_of_corroborated {sessions : List SessionInfo} {sessionId : SessionId}
    {root : String} (h : corroborateNewSessionProject sessions sessionId root = .ok ())
    (asked : Option SessionId) :
    ∀ dir ∈ (Upstream.report sessions
      { sessionId := sessionId.value, asked := asked, reported := [] }).reported,
      dir = some root := by
  unfold corroborateNewSessionProject at h
  split at h
  · rename_i heq
    simp [Upstream.report, heq]
  · rename_i metadata heq
    rcases hdir : metadata.workingDir with _ | dir
    · simp [Upstream.report, heq, hdir]
    · rw [hdir] at h
      obtain ⟨dir', hdir', hcanonical⟩ := verifySessionProject_ok h
      simp [Upstream.report, heq, hdir', hcanonical]
  · cases h

/-- Jcode is attached to the session, in the state the registry does not know of yet. -/
def Attached (a : Adapter) (sessionId : SessionId) (root : String) (b : Adapter) : Prop :=
  Apart a b ∧ ∃ u, b.upstream = some u ∧ u.Confirms sessionId root

/-- What a reply leaves: just this session is acknowledged. -/
def Acknowledged (a : Adapter) (asked : Option SessionId) (info : SessionInfo) (b : Adapter) :
    Prop :=
  Apart a b ∧ b.upstream = some { sessionId := info.sessionId, asked := asked, reported := [] }

theorem acknowledge_post (a : Adapter) (asked : Option SessionId) (reply : Result SessionInfo) :
    Post (Acknowledged a asked) (fun _ => Apart a) reply (a.acknowledge asked reply) := by
  cases reply with
  | error e => exact ⟨rfl, rfl, rfl, rfl⟩
  | ok info => exact ⟨⟨rfl, rfl, rfl, rfl⟩, rfl⟩

theorem Same.then_post {b : Adapter} {asked : Option SessionId} {reply : Result SessionInfo}
    (h : Same a b) : Post (Acknowledged a asked) (fun _ => Apart a) reply
      (b.acknowledge asked reply) := by
  have hpost := acknowledge_post b asked reply
  cases reply with
  | error e => exact h.toApart.trans hpost
  | ok info => exact ⟨h.toApart.trans hpost.1, hpost.2⟩

theorem wp_attachSession {sessionId : SessionId} :
    Wp (Alone r) () (ask (.attachSession sessionId)) (Acknowledged a (some sessionId))
      (fun _ => Apart a) a :=
  wp_op fun _ _ hb => hb.then_post

theorem wp_createSession {workingDir : String} :
    Wp (Alone r) () (ask (.createSession workingDir))
      (fun info b => r.attached = .ok info ∧ Acknowledged a none info b) (fun _ => Apart a) a := by
  refine wp_op fun _ b hb => ?_
  have hpost : Post (Acknowledged a none) (fun _ => Apart a) r.attached
    (b.acknowledge none r.attached) := hb.then_post
  show Post _ _ r.attached (b.acknowledge none r.attached)
  rcases hreply : r.attached with e | info
  · rw [hreply] at hpost
    exact hpost
  · rw [hreply] at hpost
    exact ⟨rfl, hpost⟩

theorem wp_listSessions {u : Upstream} (hu : a.upstream = some u) :
    Wp (Alone r) () (ask .listSessions)
      (fun sessions b => Apart a b ∧ b.upstream = some (u.report sessions))
      (fun _ => Apart a) a := by
  refine wp_op fun _ b hb => ?_
  show Post _ _ r.sessions (b.report r.sessions)
  have hub : b.upstream = some u := hb.upstream.trans hu
  cases r.sessions with
  | error e => exact hb.toApart
  | ok sessions =>
    refine ⟨hb.toApart.trans ⟨rfl, rfl, rfl, rfl⟩, ?_⟩
    show b.upstream.map (Upstream.report sessions) = _
    rw [hub]
    rfl

/-- The closure ends attached to the session it was asked for, on the root it was given. -/
theorem wp_attachAndVerify {sessionId : SessionId} {root : String} :
    Wp (Alone r) () (attachAndVerify sessionId root)
      (fun actual b => actual = sessionId ∧ Attached a sessionId root b)
      (fun _ => Apart a) a := by
  refine wp_after_quiet (only_ask trivial) (fun _ _ hb => hb.toApart) (fun _ b hb => ?_)
  refine wp_seq trivial wp_attachSession ?_ (fun _ c _ hc => hb.toApart.trans hc)
  rintro attached c - ⟨hc, hupstream⟩
  have hac : Apart a c := hb.toApart.trans hc
  refine wp_bind (wp_resume ?_)
  rcases hactual : verifyAttachedSessionId attached (some sessionId) with e | actual
  · exact hac
  obtain ⟨hid, hasked⟩ := verifyAttachedSessionId_ok hactual
  have hsame : sessionId = actual := hasked sessionId rfl
  subst hsame
  refine wp_seq trivial (wp_listSessions hupstream) ?_ (fun _ d _ hd => hac.trans hd)
  rintro sessions d - ⟨hd, hreport⟩
  have had : Apart a d := hac.trans hd
  refine wp_bind (wp_resume ?_)
  rcases hmeta : sessionMetadata sessions sessionId with e | metadata
  · exact had
  refine wp_bind (wp_resume ?_)
  rcases hproject : verifySessionProject metadata root with e | ⟨⟩
  · exact had
  refine wp_pure ⟨rfl, had, _, hreport, ?_⟩
  rw [hid]
  refine ⟨rfl, fun asked hasked' => ?_, fun dir hdir => ?_⟩
  · cases hasked'
    rfl
  · rw [report_of_metadata hmeta hproject] at hdir
    exact List.mem_singleton.mp hdir

/-- The registry takes a verified attachment, or refuses it. -/
theorem wp_markAttached {sessionId : SessionId} {projectId : ProjectId} {root : String}
    (hbase : Base a) (hup : ∃ u, a.upstream = some u ∧ u.Confirms sessionId root) :
    Wp (Alone r) () (ask (.markAttached sessionId projectId root a.connection.generation))
      (fun _ b => Inv b ∧ b.attachedNow sessionId = true ∧
        b.connection.generation = a.connection.generation)
      (fun _ b => Same a b ∧ a.sessions.accepts sessionId projectId root = false) a := by
  refine wp_op fun _ b hb => ?_
  have hbbase : Base b := hb.toApart.base hbase
  by_cases haccepts : b.sessions.accepts sessionId projectId root = true
  · simp only [Adapter.perform, SessionRegistry.markAttached, haccepts, Bool.not_true,
      Bool.false_eq_true, if_false]
    refine ⟨⟨⟨?_, ?_, hbbase.started⟩, ?_⟩, ?_, hb.generation⟩
    · -- the session keeps the project it was bound to
      intro x hx
      dsimp only
      by_cases hsession : x.1 = sessionId
      · refine ⟨_, by rw [hsession, Function.update_self], ?_⟩
        rcases List.mem_cons.mp hx with rfl | hx
        · exact ⟨rfl, rfl⟩
        · obtain ⟨binding, hbinding, hid, hroot⟩ := hbbase.bound x hx
          unfold SessionRegistry.accepts at haccepts
          rw [hsession] at hbinding
          rw [hbinding] at haccepts
          simp only [Option.all_some, Bool.and_eq_true, beq_iff_eq] at haccepts
          exact ⟨haccepts.1.symm.trans hid, haccepts.2.symm.trans hroot⟩
      · rw [Function.update_of_ne hsession]
        rcases List.mem_cons.mp hx with rfl | hx
        · exact absurd rfl hsession
        · exact hbbase.bound x hx
    · intro other binding hbinding
      dsimp only at hbinding ⊢
      by_cases hsession : other = sessionId
      · rw [hsession, Function.update_self] at hbinding
        cases hbinding
        exact Nat.le_of_eq hb.generation.symm
      · rw [Function.update_of_ne hsession] at hbinding
        exact hbbase.old other binding hbinding
    · -- only this session is attached now
      intro other hattached
      unfold Adapter.attachedNow SessionRegistry.isAttachedOnGeneration at hattached
      simp only [Bool.and_eq_true, beq_iff_eq, Option.some.injEq] at hattached
      obtain ⟨hsession, -⟩ := hattached
      subst hsession
      obtain ⟨u, hu, hconfirms⟩ := hup
      refine ⟨_, u, Function.update_self _ _ _, hb.upstream.trans hu, hconfirms⟩
    · unfold Adapter.attachedNow SessionRegistry.isAttachedOnGeneration
      simp [hb.generation]
  · simp only [Adapter.perform, SessionRegistry.markAttached, haccepts]
    refine ⟨hb, ?_⟩
    rw [← hb.sessions]
    exact Bool.eq_false_iff.mpr haccepts

/-! ## Dropping an attachment -/

theorem Base.inv_detached (h : Base a) (hnone : a.sessions.attachedSession = none) : Inv a := by
  refine ⟨h, fun sessionId hattached => ?_⟩
  unfold Adapter.attachedNow SessionRegistry.isAttachedOnGeneration at hattached
  rw [hnone] at hattached
  cases hattached

theorem wp_clearAttachment {E : VibeCoderError → Adapter → Prop} (h : Base a) :
    Wp (Alone r) () (ask .clearAttachment)
      (fun _ b => Base b ∧ b.sessions.attachedSession = none ∧
        b.connection.generation = a.connection.generation) E a := by
  refine wp_op fun _ b hb => ⟨?_, rfl, hb.generation⟩
  have hbbase := hb.toApart.base h
  exact ⟨hbbase.bound, hbbase.old, hbbase.started⟩

theorem wp_resetUnverifiedAttachment {E : VibeCoderError → Adapter → Prop} (h : Base a) :
    Wp (Alone r) () resetUnverifiedAttachment (fun _ => Inv) E a := by
  refine wp_bind (wp_settle ?_)
  have hdisconnect : Wp (Alone r) () (ask .disconnect) (fun _ => Same a) (fun _ => Same a) a :=
    wp_quiet (only_ask trivial)
  refine Wp.mono trivial hdisconnect (fun _ b _ hb => ?_) (fun _ b _ hb => ?_)
  all_goals
    refine wp_bind (wp_settle ?_)
    refine Wp.mono trivial (wp_clearAttachment (E := fun _ _ => False) (hb.toApart.base h))
      (fun _ c _ hc => ?_) (fun _ _ _ hc => hc.elim)
    exact wp_pure (hc.1.inv_detached hc.2.1)

/-- After a failure the record of the attachment goes with the connection. -/
theorem wp_reset_throw {Q : α → Adapter → Prop} {e : VibeCoderError} (h : Base a) :
    Wp (Alone r) () (do resetUnverifiedAttachment; throw e) Q (fun _ => Inv) a :=
  wp_seq trivial (wp_resetUnverifiedAttachment (E := fun _ => Inv) h)
    (fun _ _ _ hb => wp_throw hb) (fun _ _ _ hb => hb)

/-! ## Attaching a session -/

/-- `attach_verified`, when a refused binding leaves no record behind. -/
theorem wp_attachVerified {project : ProjectRef} {sessionId : SessionId} {root : String}
    (h : Base a) (hrefuse : a.sessions.accepts sessionId project.id root = true ∨
      a.sessions.attachedSession = none) :
    Wp (Alone r) () (attachVerified project sessionId root a.connection.generation)
      (fun _ => Inv) (fun _ => Inv) a := by
  refine wp_bind (wp_settle ?_)
  refine Wp.mono trivial wp_attachAndVerify ?_ (fun _ b _ hb => wp_reset_throw (hb.base h))
  rintro actual b - ⟨rfl, hab, hup⟩
  have hbase := hab.base h
  rw [← hab.generation]
  refine Wp.mono trivial (wp_markAttached hbase hup) (fun _ c _ hc => hc.1) ?_
  rintro _ c - ⟨hbc, haccepts⟩
  rw [hab.sessions] at haccepts
  rcases hrefuse with hok | hnone
  · rw [hok] at haccepts
    cases haccepts
  · refine (hbc.toApart.base hbase).inv_detached ?_
    rw [hbc.sessions, hab.sessions, hnone]

/-- `ensure_bound_session_attached`: afterwards the session is the one recorded as attached. -/
theorem wp_ensureBoundSessionAttached {sessionId : SessionId} {binding : SessionBinding}
    (h : Inv a) (hbinding : a.sessions.bindings sessionId = some binding) :
    Wp (Alone r) () (ensureBoundSessionAttached sessionId binding a.connection.generation)
      (fun _ b => Inv b ∧ b.attachedNow sessionId = true ∧
        b.connection.generation = a.connection.generation) (fun _ => Inv) a := by
  refine wp_seq trivial (wp_isAttached (E := fun _ _ => False)) ?_ (fun _ _ _ hb => hb.elim)
  rintro _ b - ⟨rfl, hb⟩
  have hbinv := hb.inv h
  by_cases hattached : a.attachedNow sessionId = true
  · rw [if_pos hattached]
    exact wp_pure ⟨hbinv, (hb.attachedNow sessionId).trans hattached, hb.generation⟩
  rw [if_neg hattached]
  refine wp_after_quiet (only_boundRootUnchanged binding) (fun _ c hc => hc.inv hbinv)
    (fun _ c hc => ?_)
  have hac := hb.trans hc
  have hcinv := hc.inv hbinv
  refine wp_bind (wp_settle ?_)
  refine Wp.mono trivial wp_attachAndVerify ?_
    (fun _ d _ hd => wp_reset_throw (hd.base hcinv.toBase))
  rintro actual d - ⟨rfl, hcd, hup⟩
  have hbase := hcd.base hcinv.toBase
  have hgen := hcd.generation.trans hac.generation
  rw [← hgen]
  refine Wp.mono trivial (wp_markAttached hbase hup) (fun _ e _ he => he) ?_
  -- the binding that was read is still the one of the session
  rintro _ e - ⟨-, haccepts⟩
  unfold SessionRegistry.accepts at haccepts
  rw [hcd.sessions, hac.sessions, hbinding] at haccepts
  simp at haccepts

/-- A worker is started on an honest record. -/
theorem wp_startWorker {sessionId : SessionId} {generation : Nat} (h : Inv a)
    (hattached : a.attachedNow sessionId = true) :
    Wp (Alone r) () (ask (.startWorker sessionId generation)) (fun _ => Inv) (fun _ => Inv) a := by
  refine wp_op fun _ b hb => ?_
  have hbinv := hb.inv h
  simp only [Adapter.perform]
  split
  · have hverified : Started.Verified
        { sessionId := sessionId, binding := b.sessions.bindings sessionId,
          upstream := b.upstream } :=
      hbinv.honest sessionId ((hb.attachedNow sessionId).trans hattached)
    refine ⟨⟨hbinv.bound, hbinv.old, fun x hx => ?_⟩, hbinv.honest⟩
    rcases List.mem_cons.mp hx with rfl | hx
    · exact hverified
    · exact hbinv.started x hx
  · exact ⟨⟨hbinv.bound, hbinv.old, hbinv.started⟩, hbinv.honest⟩

/-! ## The methods -/

/-- The program keeps the invariant, however it ends. -/
def Keeps (r : Replies) (p : AdapterM α) (a : Adapter) : Prop :=
  Wp (Alone r) () p (fun _ => Inv) (fun _ => Inv) a

theorem keeps_quiet {p : AdapterM α} (hp : Only Quiet p) (h : Inv a) : Keeps r p a :=
  Wp.mono trivial (wp_quiet hp) (fun _ _ _ hb => hb.inv h) (fun _ _ _ hb => hb.inv h)

theorem keeps_after_quiet {β : Type} {p : AdapterM β} {f : β → AdapterM α} (hp : Only Quiet p)
    (h : Inv a) (hf : ∀ c b, Same a b → Inv b → Keeps r (f c) b) : Keeps r (p >>= f) a :=
  wp_after_quiet hp (fun _ _ hb => hb.inv h) (fun c b hb => hf c b hb (hb.inv h))

theorem keeps_after_transport {f : Nat → AdapterM α} (h : Inv a)
    (hgen : a.connection.generation < u64Max)
    (hf : ∀ b, Transported a b → Inv b → Keeps r (f b.connection.generation) b) :
    Keeps r (ensureSessionTransport >>= f) a := by
  refine wp_seq trivial (wp_ensureSessionTransport hgen) ?_ (fun _ _ _ hb => hb.inv h)
  rintro generation b - ⟨hb, rfl⟩
  exact hf b hb (hb.inv h)

theorem keeps_after_refusal {c : Bool} {e : VibeCoderError} {f : Unit → AdapterM α} (h : Inv a)
    (hf : c = false → Keeps r (f ()) a) : Keeps r (refuseIf c e >>= f) a := by
  refine wp_bind (wp_resume ?_)
  cases c with
  | true => exact h
  | false => exact hf rfl

theorem keeps_connect (h : Inv a) (hgen : a.connection.generation < u64Max) :
    Keeps r connect a := by
  refine keeps_after_quiet (only_refuseWhileActive _) h (fun _ b hb hbinv => ?_)
  rw [← hb.generation] at hgen
  exact wp_seq trivial (wp_connect hgen) (fun _ _ _ hc => wp_pure (hc.1.inv hbinv))
    (fun _ _ _ hc => hc.inv hbinv)

theorem keeps_clearAttachment (h : Inv a) : Keeps r (ask .clearAttachment) a :=
  Wp.mono trivial (wp_clearAttachment (E := fun _ => Inv) h.toBase)
    (fun _ _ _ hb => hb.1.inv_detached hb.2.1) (fun _ _ _ hb => hb)

theorem keeps_disconnect (h : Inv a) : Keeps r disconnect a :=
  keeps_after_quiet (only_refuseWhileActive _) h fun _ _ _ hb =>
    keeps_after_quiet (only_ask trivial) hb fun _ _ _ hc => keeps_clearAttachment hc

theorem keeps_reconnect (h : Inv a) (hgen : a.connection.generation < u64Max) :
    Keeps r reconnect a := by
  refine keeps_after_quiet (only_refuseWhileActive _) h (fun _ b hb hbinv => ?_)
  refine keeps_after_quiet (only_ask trivial) hbinv (fun _ c hc hcinv => ?_)
  rw [← hb.generation, ← hc.generation] at hgen
  exact wp_seq trivial (wp_connect hgen)
    (fun _ _ _ hd => keeps_clearAttachment (hd.1.inv hcinv)) (fun _ _ _ hd => hd.inv hcinv)

theorem keeps_resumeSession {project : ProjectRef} {sessionId : SessionId} (h : Inv a)
    (hgen : a.connection.generation < u64Max) :
    Keeps r (resumeSession project sessionId) a := by
  refine keeps_after_quiet (only_resume _) h (fun _ b hb hbinv => ?_)
  refine keeps_after_quiet (only_refuseWhileActive _) hbinv (fun _ c hc hcinv => ?_)
  refine keeps_after_quiet (only_projectRoot project) hcinv (fun root d hd hdinv => ?_)
  rw [← hb.generation, ← hc.generation, ← hd.generation] at hgen
  refine keeps_after_transport hdinv hgen (fun e _ heinv => ?_)
  refine wp_seq trivial (wp_binding (E := fun _ => Inv)) ?_ (fun _ _ _ hx => hx)
  rintro found f - ⟨rfl, hf⟩
  have hfinv := hf.inv heinv
  rw [← hf.generation]
  rcases hbinding : e.sessions.bindings sessionId with _ | binding
  · -- a session that is bound to nothing is accepted
    refine wp_attachVerified hfinv.toBase (.inl ?_)
    unfold SessionRegistry.accepts
    rw [hf.sessions, hbinding]
    rfl
  refine keeps_after_refusal hfinv (fun hsame => ?_)
  simp only [Bool.or_eq_false_iff, bne_eq_false_iff_eq] at hsame
  refine keeps_after_quiet (only_ask trivial) hfinv (fun attached g hg hginv => ?_)
  cases attached with
  | true => exact wp_pure hginv
  | false =>
    rw [← hg.generation]
    refine wp_attachVerified hginv.toBase (.inl ?_)
    unfold SessionRegistry.accepts
    rw [hg.sessions, hf.sessions, hbinding]
    simp [hsame.1, hsame.2]

theorem keeps_verifySessionProjectBinding {project : ProjectRef} {sessionId : SessionId}
    (h : Inv a) : Keeps r (verifySessionProjectBinding project sessionId) a := by
  refine keeps_quiet ?_ h
  refine only_bind (only_resume _) fun _ => only_bind (only_projectRoot project) fun _ =>
    only_bind (only_ask trivial) fun _ => only_bind (only_requireSome _ _ _) fun _ =>
    only_bind (only_refuseIf _ _ _) fun _ => only_bind (only_ask trivial) fun snapshot => ?_
  cases snapshot.state with
  | connected identity =>
    exact only_bind (only_ask trivial) fun _ => only_refuseIf _ _ _
  | disconnected => exact only_throw _
  | connecting => exact only_throw _
  | faulted => exact only_throw _

theorem keeps_refreshSession {project : ProjectRef} {sessionId : SessionId} (h : Inv a)
    (hgen : a.connection.generation < u64Max) :
    Keeps r (refreshSessionAfterWorkspaceReplacement project sessionId) a := by
  refine keeps_after_quiet (only_resume _) h (fun _ b hb hbinv => ?_)
  refine keeps_after_quiet (only_projectRoot project) hbinv (fun root c hc hcinv => ?_)
  refine keeps_after_quiet (only_refuseWhileActive _) hcinv (fun _ d hd hdinv => ?_)
  rw [← hb.generation, ← hc.generation, ← hd.generation] at hgen
  refine keeps_after_transport hdinv hgen (fun e _ heinv => ?_)
  refine wp_seq trivial (wp_clearAttachment (E := fun _ => Inv) heinv.toBase) ?_
    (fun _ _ _ hx => hx)
  rintro _ f - ⟨hf, hnone, hfgen⟩
  rw [← hfgen]
  exact wp_attachVerified hf (.inr hnone)

theorem keeps_listModels {sessionId : SessionId} (h : Inv a)
    (hgen : a.connection.generation < u64Max) : Keeps r (listModels sessionId) a := by
  refine keeps_after_quiet (only_resume _) h (fun _ b hb hbinv => ?_)
  refine keeps_after_quiet (only_refuseWhileActive _) hbinv (fun _ c hc hcinv => ?_)
  rw [← hb.generation, ← hc.generation] at hgen
  refine keeps_after_transport hcinv hgen (fun d _ hdinv => keeps_quiet ?_ hdinv)
  exact only_bind (only_ask trivial) fun _ => only_bind (only_requireSome _ _ _) fun _ =>
    only_discoverSessionModels _ _

/-- The binding of a session, and what goes on with it. -/
theorem keeps_after_binding {sessionId : SessionId} {message : VibeCoderError}
    {f : SessionBinding → AdapterM α} (h : Inv a)
    (hf : ∀ binding b, Same a b → Inv b → b.sessions.bindings sessionId = some binding →
      Keeps r (f binding) b) :
    Keeps r (do
      let binding ← ask (.binding sessionId)
      let binding ← requireSome binding message
      f binding) a := by
  refine wp_seq trivial (wp_binding (E := fun _ => Inv)) ?_ (fun _ _ _ hx => hx)
  rintro found b - ⟨rfl, hb⟩
  refine wp_bind (wp_resume ?_)
  rcases hbinding : a.sessions.bindings sessionId with _ | binding
  · exact hb.inv h
  · refine hf binding b hb (hb.inv h) ?_
    rw [hb.sessions, hbinding]

theorem keeps_corroborateModelIdentity {sessionId : SessionId} (h : Inv a)
    (hgen : a.connection.generation < u64Max) :
    Keeps r (corroborateModelIdentity sessionId) a := by
  refine keeps_after_quiet (only_resume _) h (fun _ b hb hbinv => ?_)
  refine keeps_after_quiet (only_refuseWhileActive _) hbinv (fun _ c hc hcinv => ?_)
  rw [← hb.generation, ← hc.generation] at hgen
  refine keeps_after_transport hcinv hgen (fun d _ hdinv => ?_)
  refine keeps_after_binding hdinv (fun binding e he heinv hbinding => ?_)
  refine keeps_after_quiet (only_discoverSessionModels _ _) heinv (fun _ f hf hfinv => ?_)
  rw [← he.generation, ← hf.generation]
  rw [← hf.sessions] at hbinding
  exact wp_seq trivial (wp_ensureBoundSessionAttached hfinv hbinding)
    (fun _ _ _ hg => keeps_quiet (only_selectSessionModel _ _) hg.1) (fun _ _ _ hg => hg)

theorem keeps_runTurn {sessionId : SessionId} {prompt : String} {model : Option ModelRef}
    (h : Inv a) (hgen : a.connection.generation < u64Max) :
    Keeps r (runTurn sessionId prompt model) a := by
  refine keeps_after_quiet (only_resume _) h (fun _ b hb hbinv => ?_)
  refine keeps_after_refusal hbinv (fun _ => ?_)
  refine keeps_after_quiet (only_refuseWhileActive _) hbinv (fun _ c hc hcinv => ?_)
  rw [← hb.generation, ← hc.generation] at hgen
  refine keeps_after_transport hcinv hgen (fun d _ hdinv => ?_)
  refine keeps_after_quiet (only_ask trivial) hdinv (fun snapshot e he heinv => ?_)
  cases hstate : snapshot.state with
  | disconnected => exact wp_throw heinv
  | connecting => exact wp_throw heinv
  | faulted => exact wp_throw heinv
  | connected identity =>
    refine keeps_after_refusal heinv (fun _ => ?_)
    refine keeps_after_refusal heinv (fun _ => ?_)
    refine keeps_after_binding heinv (fun binding f hf hfinv hbinding => ?_)
    have hdiscover := only_onlyIf model.isSome
      (only_discoverSessionModels binding d.connection.generation)
    have hselect := only_onlyIf model.isSome
      (only_selectSessionModel binding d.connection.generation)
    refine keeps_after_quiet hdiscover hfinv (fun _ g hg hginv => ?_)
    have hgeneration : d.connection.generation = g.connection.generation := by
      rw [hg.generation, hf.generation, he.generation]
    rw [← hg.sessions] at hbinding
    rw [hgeneration] at hselect ⊢
    refine wp_seq trivial (wp_ensureBoundSessionAttached hginv hbinding) ?_ (fun _ _ _ hx => hx)
    -- the session stays the attached one up to the start of its worker
    rintro _ i - ⟨hiinv, hattached, -⟩
    refine keeps_after_quiet hselect hiinv (fun _ j hj hjinv => ?_)
    refine keeps_after_quiet (only_ask trivial) hjinv (fun _ k hk hkinv => ?_)
    refine keeps_after_quiet (only_ask trivial) hkinv (fun _ l hl hlinv => ?_)
    refine wp_startWorker hlinv ?_
    rw [hl.attachedNow, hk.attachedNow, hj.attachedNow, hattached]

/-! ## Creating a session -/

/-- Some session is recorded as attached on the current generation. -/
def Adapter.recordsAttachment (a : Adapter) : Bool := a.sessions.attachedSession.any a.attachedNow

/-- The session Jcode answers with is not bound to another project. -/
def Replies.createsUnbound (r : Replies) (a : Adapter) (project : ProjectRef) : Bool :=
  match canonicalProjectRoot project r.root, r.attached with
  | .ok root, .ok info => a.sessions.accepts ⟨info.sessionId⟩ project.id root
  | _, _ => true

theorem wp_createAndVerify {root : String} :
    Wp (Alone r) () (do
        ask .client
        let attached ← ask (.createSession root)
        let sessionId ← resume (verifyAttachedSessionId attached none)
        let sessions ← ask .listSessions
        resume (corroborateNewSessionProject sessions sessionId root)
        pure sessionId)
      (fun sessionId b => (∃ info, r.attached = .ok info ∧ info.sessionId = sessionId.value) ∧
        Attached a sessionId root b)
      (fun _ => Apart a) a := by
  refine wp_after_quiet (only_ask trivial) (fun _ _ hb => hb.toApart) (fun _ b hb => ?_)
  refine wp_seq trivial wp_createSession ?_ (fun _ c _ hc => hb.toApart.trans hc)
  rintro attached c - ⟨hreply, hc, hupstream⟩
  have hac : Apart a c := hb.toApart.trans hc
  refine wp_bind (wp_resume ?_)
  rcases hactual : verifyAttachedSessionId attached none with e | sessionId
  · exact hac
  obtain ⟨hid, -⟩ := verifyAttachedSessionId_ok hactual
  refine wp_seq trivial (wp_listSessions hupstream) ?_ (fun _ d _ hd => hac.trans hd)
  rintro sessions d - ⟨hd, hreport⟩
  have had : Apart a d := hac.trans hd
  refine wp_bind (wp_resume ?_)
  rcases hproject : corroborateNewSessionProject sessions sessionId root with e | ⟨⟩
  · exact had
  refine wp_pure ⟨⟨attached, hreply, hid⟩, had, _, hreport, ?_⟩
  rw [hid]
  refine ⟨rfl, fun asked hasked => ?_, report_of_corroborated hproject none⟩
  cases hasked

/-- `create_session`, unless Jcode answers with a session of another project while one is
    recorded as attached. -/
theorem keeps_createSession {project : ProjectRef} {model : Option ModelRef} (h : Inv a)
    (hgen : a.connection.generation < u64Max)
    (hfresh : r.createsUnbound a project = true ∨ a.recordsAttachment = false) :
    Keeps r (createSession project model) a := by
  refine keeps_after_refusal h (fun _ => ?_)
  refine keeps_after_quiet (only_refuseWhileActive _) h (fun _ b hb hbinv => ?_)
  refine wp_seq trivial wp_projectRoot ?_ (fun _ _ _ hc => hc.inv hbinv)
  rintro root c - ⟨hroot, hc⟩
  have hac := hb.trans hc
  have hcinv := hc.inv hbinv
  rw [← hac.generation] at hgen
  refine keeps_after_transport hcinv hgen (fun d hd hdinv => ?_)
  refine wp_bind (wp_settle ?_)
  refine Wp.mono trivial wp_createAndVerify ?_
    (fun _ e _ he => wp_reset_throw (he.base hdinv.toBase))
  rintro sessionId e - ⟨⟨info, hreply, hid⟩, hde, hup⟩
  have hbase := hde.base hdinv.toBase
  rw [← hde.generation]
  refine wp_seq trivial (wp_markAttached hbase hup) (fun _ f _ hf => wp_pure hf.1) ?_
  rintro _ f - ⟨hf, haccepts⟩
  have hsessions : e.sessions = a.sessions := by
    rw [hde.sessions, hd.sessions, hac.sessions]
  refine ⟨hf.toApart.base hbase, fun other hattached => ?_⟩
  exfalso
  rcases hfresh with hunbound | hnone
  · unfold Replies.createsUnbound at hunbound
    rw [hroot, hreply] at hunbound
    dsimp only at hunbound
    rw [hid, ← hsessions, haccepts] at hunbound
    cases hunbound
  · -- what is recorded now was recorded before
    have hnow : d.attachedNow other = true := by
      rw [hf.attachedNow] at hattached
      unfold Adapter.attachedNow at hattached ⊢
      rw [← hde.sessions, ← hde.generation]
      exact hattached
    have hbefore := (hd.attachedNow hcinv.toBase hnow).1
    rw [hac.attachedNow] at hbefore
    have hsession : a.sessions.attachedSession = some other := by
      unfold Adapter.attachedNow SessionRegistry.isAttachedOnGeneration at hbefore
      simp only [Bool.and_eq_true, beq_iff_eq] at hbefore
      exact hbefore.1
    unfold Adapter.recordsAttachment at hnone
    rw [hsession, Option.any_some, hbefore] at hnone
    cases hnone

/-! ## Every run -/

/-- A method is called, and the outside answers it. -/
def step (a : Adapter) (event : Call × Replies) : Adapter :=
  (runAlone Adapter.exec (fun n => (event.2, n)) event.1.program 0 a).2.2

/-- Jcode does not answer a creation with a session that is bound to another project while some
    session is recorded as attached; the generation counter is not exhausted. -/
def Orderly (a : Adapter) (event : Call × Replies) : Prop :=
  a.connection.generation < u64Max ∧ ∀ project model, event.1 = .createSession project model →
    event.2.createsUnbound a project = true ∨ a.recordsAttachment = false

theorem inv_step {a : Adapter} {event : Call × Replies} (h : Inv a) (hok : Orderly a event) :
    Inv (step a event) := by
  obtain ⟨call, r⟩ := event
  obtain ⟨hgen, hcreate⟩ := hok
  have hkeeps : Keeps r call.program a := by
    cases call with
    | connect => exact keeps_connect h hgen
    | disconnect => exact keeps_disconnect h
    | reconnect => exact keeps_reconnect h hgen
    | createSession project model =>
      exact wp_seq trivial (keeps_createSession h hgen (hcreate project model rfl))
        (fun _ _ _ hb => wp_pure hb) (fun _ _ _ hb => hb)
    | resumeSession project sessionId => exact keeps_resumeSession h hgen
    | verifySessionProjectBinding project sessionId =>
      exact keeps_verifySessionProjectBinding h
    | refreshSession project sessionId => exact keeps_refreshSession h hgen
    | runTurn sessionId prompt model => exact keeps_runTurn h hgen
    | listModels sessionId => exact keeps_listModels h hgen
    | corroborateModelIdentity sessionId => exact keeps_corroborateModelIdentity h hgen
  exact (wp_run (w := fun n => (r, n)) (n := 0) (fun _ => rfl) hkeeps).both

/-- Answers of a working Jcode: the project root is there, the connection opens, the session
    asked for is attached and the listing reports it in its directory. -/
def answering (root sessionId : String) (events : List Outside) : Replies where
  before := fun n => if n = 0 then events else []
  root := { canonical := some root, isDir := true, utf8 := true }
  opened := .ok { capabilities := ["sessions", "streaming"] }
  attached := .ok { sessionId := sessionId, workingDir := none }
  sessions := .ok
    [{ sessionId := sessionId, workingDir := some { text := root, canonical := some root } }]
  canonical := fun _ => some root
  probe := fun _ => .ok ()
  spawned := true

end VibeCoder.Jcode.Sessions
