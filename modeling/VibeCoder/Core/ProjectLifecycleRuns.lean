/-
  Sequences of calls that create and remove projects and conversations.

  1. **The invariant** (`Inv`) — a directory has a state record, a conversation belongs to a project
     with one, and no project has more conversations than are listed.
  2. **Each part of a call** — what it leaves when it succeeds and when it fails; where nothing can
     fail (`Reliable`), an error says which precondition was missing.
  3. **`project_lifecycle_law`** — the invariant after every run, and what calling a removal again does:
     it completes while the directory is there, and does nothing once it is gone.
  4. **`gone_directory_strands`** — the second case happens: a removal that fails at the state record
     leaves a record that no later removal takes away.
-/
import Mathlib.Data.List.Count
import VibeCoder.Core.ProjectLifecycle

namespace VibeCoder.Lifecycle

open Resume Checkpoint Workspace TurnCapacity

/-! ## Rules -/

/-- One call, in surroundings that satisfy `A`. -/
abbrev Alone (A : World → Prop) := Setting.solo exec A

/-- A request does not fail by itself. -/
def Reliable (A : World → Prop) (cleanup : Bool) : Prop :=
  cleanup = true ∨ ∀ w, A w → w.fault = none

variable {A : World → Prop} {α β : Type} {s t : Managed} {cleanup : Bool}

/-- One step: what it does, and what is left when it fails. -/
theorem wp_ask {o : Op} {Q : o.Val → Managed → Prop} {E : VibeCoderError → Managed → Prop}
    (hperform : ∀ w, A w → Post Q E (s.perform w o).1 (s.perform w o).2)
    (hfault : ∀ e, ¬ Reliable A cleanup → E e s) :
    Wp (Alone A) () (ask cleanup o) Q E s := by
  refine wp_attempt trivial (fun w hw t hrely _ => ?_)
  have ht : (exec w { op := o, cleanup := cleanup } s).2 = t := hrely
  rw [← ht]
  show Post Q E (exec w { op := o, cleanup := cleanup } s).1 _
  unfold exec
  rcases hw' : w.fault with _ | e
  · exact hperform w hw
  · dsimp only
    split
    · exact hperform w hw
    · rename_i hno
      refine hfault e (fun hreliable => ?_)
      rcases hreliable with hcleanup | hnone
      · exact hno hcleanup
      · rw [hnone w hw] at hw'
        cases hw'

/-- A step that only looks. -/
theorem wp_look {o : Op} {R : o.Val → Prop}
    (hperform : ∀ w, ∃ v, s.perform w o = (.ok v, s) ∧ R v) :
    Wp (Alone A) () (ask cleanup o) (fun v t => t = s ∧ R v)
      (fun _ t => t = s ∧ ¬ Reliable A cleanup) s := by
  refine wp_ask (fun w _ => ?_) (fun _ hno => ⟨rfl, hno⟩)
  obtain ⟨v, hv, hR⟩ := hperform w
  rw [hv]
  exact ⟨rfl, hR⟩

/-- A step that succeeds unless it fails by itself. -/
theorem wp_done {o : Op} {v : o.Val} (hperform : ∀ w, s.perform w o = (.ok v, t)) :
    Wp (Alone A) () (ask cleanup o) (fun _ u => u = t)
      (fun _ u => u = s ∧ ¬ Reliable A cleanup) s := by
  refine wp_ask (fun w _ => ?_) (fun _ hno => ⟨rfl, hno⟩)
  rw [hperform w]
  exact rfl

theorem wp_refuse {c : Bool} {e : VibeCoderError} {f : Unit → LifecycleM α}
    {Q : α → Managed → Prop} {E : VibeCoderError → Managed → Prop} (htrue : c = true → E e s)
    (hfalse : c = false → Wp (Alone A) () (f ()) Q E s) :
    Wp (Alone A) () (refuseIf c e >>= f) Q E s := by
  unfold refuseIf
  refine wp_bind (wp_resume ?_)
  cases c with
  | true => exact htrue rfl
  | false => exact hfalse rfl

/-- A check that ends a part. -/
theorem wp_refused {c : Bool} {e : VibeCoderError} {Q : Unit → Managed → Prop}
    {E : VibeCoderError → Managed → Prop} (htrue : c = true → E e s) (hfalse : c = false → Q () s) :
    Wp (Alone A) () (refuseIf c e) Q E s := by
  unfold refuseIf
  refine wp_resume ?_
  cases c with
  | true => exact htrue rfl
  | false => exact hfalse rfl

-- whether a check passes is never computed below: only its two cases are looked at
attribute [local irreducible] refuseIf

/-- A check of the data that a call has in hand. -/
theorem wp_check {r : Result β} {f : β → LifecycleM α} {Q : α → Managed → Prop}
    {E : VibeCoderError → Managed → Prop} (herror : ∀ e, r = .error e → E e s)
    (hok : ∀ b, r = .ok b → Wp (Alone A) () (f b) Q E s) :
    Wp (Alone A) () (resume r >>= f) Q E s := by
  refine wp_bind (wp_resume ?_)
  cases r with
  | error e => exact herror e rfl
  | ok b => exact hok b rfl

/-- A part whose result, error or not, is looked at. -/
theorem wp_settled {p : LifecycleM β} {f : Result β → LifecycleM α} {R : β → Managed → Prop}
    {F : VibeCoderError → Managed → Prop} {Q : α → Managed → Prop}
    {E : VibeCoderError → Managed → Prop} (hp : Wp (Alone A) () p R F s)
    (hok : ∀ b t, R b t → Wp (Alone A) () (f (.ok b)) Q E t)
    (herror : ∀ e t, F e t → Wp (Alone A) () (f (.error e)) Q E t) :
    Wp (Alone A) () (settle p >>= f) Q E s :=
  wp_bind (wp_settle (Wp.mono trivial hp (fun b t _ hb => hok b t hb)
    (fun e t _ he => herror e t he)))

/-! ## The workspace -/

/-- The directory is there, under the path that the caller names. -/
def Present (s : Managed) (project : ProjectRef) : Prop :=
  project.root = expectedProjectRoot project.id ∧ s.directories project.id = true

theorem wp_verifyProject {project : ProjectRef} :
    Wp (Alone A) () (verifyProject cleanup project)
      (fun found t => t = s ∧ found = expectedProjectRoot project.id ∧ Present s project)
      (fun _ t => t = s ∧ (Reliable A cleanup → ¬ Present s project)) s := by
  refine wp_refuse (fun hroot => ⟨rfl, fun _ hpresent => ?_⟩) (fun hroot => ?_)
  · rw [hpresent.1, bne_self_eq_false] at hroot
    cases hroot
  rw [bne_eq_false_iff_eq] at hroot
  refine wp_seq trivial (wp_look (R := (· = s.directories project.id)) (fun w => ⟨_, rfl, rfl⟩))
    (fun found t _ hfound => ?_) (fun _ t _ hno => ⟨hno.1, fun hreliable => absurd hreliable hno.2⟩)
  obtain ⟨rfl, rfl⟩ := hfound
  refine wp_refuse (fun hgone => ⟨rfl, fun _ hpresent => ?_⟩) (fun hthere => ?_)
  · rw [hpresent.2] at hgone
    cases hgone
  · rw [Bool.not_eq_false'] at hthere
    exact wp_pure ⟨rfl, rfl, hroot, hthere⟩

@[simp] theorem setDirectory_self {p : ProjectId} {there : Bool} :
    (s.setDirectory p there).directories p = there := Function.update_self _ _ _

theorem setDirectory_setDirectory {p : ProjectId} {a b : Bool} :
    (s.setDirectory p a).setDirectory p b = s.setDirectory p b := by
  unfold Managed.setDirectory
  rw [Function.update_idem]

theorem setDirectory_same {p : ProjectId} {there : Bool} (h : s.directories p = there) :
    s.setDirectory p there = s := by
  unfold Managed.setDirectory
  rw [← h, Function.update_eq_self]

/-- A directory is made where none was, and is gone again if it cannot be verified. -/
theorem wp_createProject {p : ProjectId} :
    Wp (Alone A) () (createProject p)
      (fun project t => t = s.setDirectory p true ∧ s.directories p = false ∧
        project = { id := p, root := expectedProjectRoot p })
      (fun _ t => t = s) s := by
  have hcreate : Wp (Alone A) () (ask false (.createDir p))
      (fun created t => t = s.setDirectory p true ∧ created = !s.directories p)
      (fun _ t => t = s) s :=
    wp_ask (fun _ _ => ⟨rfl, rfl⟩) (fun _ _ => rfl)
  refine wp_seq trivial hcreate (fun created t _ h => ?_) (fun _ _ _ h => h)
  obtain ⟨rfl, rfl⟩ := h
  refine wp_refuse (fun htaken => ?_) (fun hnew => ?_)
  · rw [Bool.not_not] at htaken
    exact setDirectory_same htaken
  rw [Bool.not_not] at hnew
  refine wp_settled wp_verifyProject ?_ ?_
  · rintro found t ⟨rfl, -⟩
    exact wp_pure ⟨rfl, hnew, rfl⟩
  · rintro e t ⟨rfl, -⟩
    refine wp_seq trivial (wp_done (v := ()) (fun w => rfl)) ?_ ?_
    · rintro _ t - rfl
      refine wp_throw ?_
      rw [setDirectory_setDirectory]
      exact setDirectory_same hnew
    · exact fun _ _ _ h => absurd (.inl rfl) h.2

theorem projectsRoot_ne (p : ProjectId) :
    (expectedProjectRoot p == projectsRoot || expectedProjectRoot p == []) = false := by
  rw [Bool.or_eq_false_iff, beq_eq_false_iff_ne, beq_eq_false_iff_ne]
  constructor
  · intro heq
    have hlength := congrArg List.length heq
    cases hlength
  · intro heq
    cases heq

theorem wp_pathExists {p : ProjectId} :
    Wp (Alone A) () (pathExists cleanup p)
      (fun there t => t = s ∧ (there = true → s.directories p = true)) (fun _ _ => False) s := by
  refine wp_settled (wp_look (R := (· = s.directories p)) (fun w => ⟨_, rfl, rfl⟩)) ?_ ?_
  · rintro there t ⟨rfl, rfl⟩
    exact wp_pure ⟨rfl, id⟩
  · rintro e t ⟨rfl, -⟩
    exact wp_pure ⟨rfl, fun hcontra => by cases hcontra⟩

theorem wp_removeProject {project : ProjectRef} :
    Wp (Alone A) () (removeProject cleanup project)
      (fun _ t => t = s.setDirectory project.id false)
      (fun _ t => t = s ∧ (Reliable A cleanup → ¬ Present s project)) s := by
  refine wp_seq trivial wp_verifyProject ?_ (fun _ _ _ h => h)
  rintro found t - ⟨rfl, rfl, -⟩
  refine wp_refuse (fun hroot => ?_) (fun _ => ?_)
  · rw [projectsRoot_ne] at hroot
    cases hroot
  refine wp_seq trivial (wp_done (v := ()) (fun w => rfl)) ?_
    (fun _ _ _ h => ⟨h.1, fun hreliable => absurd hreliable h.2⟩)
  rintro _ u - rfl
  refine wp_seq_total trivial wp_pathExists ?_
  rintro left u - ⟨rfl, hleft⟩
  refine wp_refused (fun htrue => ?_) (fun _ => rfl)
  have hcontra := hleft htrue
  rw [setDirectory_self] at hcontra
  cases hcontra

/-! ## The state records -/

@[simp] theorem setState_self {p : ProjectId} {state : Option PersistedProjectState} :
    (s.setState p state).states p = state := Function.update_self _ _ _

theorem setState_other {p q : ProjectId} {state : Option PersistedProjectState} (h : q ≠ p) :
    (s.setState p state).states q = s.states q := Function.update_of_ne h _ _

theorem setDirectory_other {p q : ProjectId} {there : Bool} (h : q ≠ p) :
    (s.setDirectory p there).directories q = s.directories q := Function.update_of_ne h _ _

/-- A record is written where none was; it may be there although the call failed. -/
theorem wp_createProjectState {state : PersistedProjectState} :
    Wp (Alone A) () (createProjectState state)
      (fun _ t => s.states state.projectId = none ∧ t = s.setState state.projectId (some state))
      (fun _ t => t = s ∨
        s.states state.projectId = none ∧ t = s.setState state.projectId (some state)) s := by
  refine wp_check (fun _ _ => .inl rfl) (fun _ _ => ?_)
  refine wp_refuse (fun _ => .inl rfl) (fun _ => ?_)
  refine wp_seq trivial (wp_look (R := (· = s.states state.projectId)) (fun w => ⟨_, rfl, rfl⟩)) ?_
    (fun _ _ _ h => .inl h.1)
  rintro found t - ⟨rfl, rfl⟩
  refine wp_refuse (fun _ => .inl rfl) (fun hnone => ?_)
  rw [Option.isSome_eq_false_iff, Option.isNone_iff_eq_none] at hnone
  refine wp_seq trivial (wp_done (v := ()) (fun w => rfl)) ?_ (fun _ _ _ h => .inl h.1)
  rintro _ u - rfl
  exact Wp.mono trivial (wp_done (v := ()) (fun w => rfl)) (fun _ _ _ h => ⟨hnone, h⟩)
    (fun _ _ _ h => .inr ⟨hnone, h.1⟩)

theorem wp_loadProjectState {p : ProjectId} :
    Wp (Alone A) () (loadProjectState p) (fun state t => t = s ∧ s.states p = some state)
      (fun _ t => t = s ∧ (Reliable A false → s.states p = none)) s := by
  refine wp_seq trivial (wp_look (R := (· = s.states p)) (fun w => ⟨_, rfl, rfl⟩)) ?_
    (fun _ _ _ h => ⟨h.1, fun hreliable => absurd hreliable h.2⟩)
  rintro found t - ⟨rfl, rfl⟩
  rcases hfound : t.states p with _ | state
  · exact wp_throw ⟨rfl, fun _ => rfl⟩
  · exact wp_pure ⟨rfl, rfl⟩

/-- The record is gone, or the call failed before or after it went. -/
theorem wp_removeProjectState {p : ProjectId} :
    Wp (Alone A) () (removeProjectState p) (fun _ t => t = s.setState p none)
      (fun _ t => (t = s ∨ t = s.setState p none) ∧ ¬ Reliable A false) s := by
  refine wp_seq trivial (wp_look (R := (· = s.states p)) (fun w => ⟨_, rfl, rfl⟩)) ?_
    (fun _ _ _ h => ⟨.inl h.1, h.2⟩)
  rintro found t - ⟨rfl, rfl⟩
  split
  · rename_i hnone
    rw [Option.isNone_iff_eq_none] at hnone
    refine wp_pure ?_
    unfold Managed.setState
    rw [← hnone, Function.update_eq_self]
  · refine wp_seq trivial (wp_done (v := ()) (fun w => rfl)) ?_ (fun _ _ _ h => ⟨.inl h.1, h.2⟩)
    rintro _ u - rfl
    exact Wp.mono trivial (wp_done (v := ()) (fun w => rfl)) (fun _ _ _ h => h)
      (fun _ _ _ h => ⟨.inr h.1, h.2⟩)

/-! ## The conversation files -/

/-- How many conversations a project has. -/
def conversationCount (s : Managed) (p : ProjectId) : Nat :=
  s.conversations.countP (fun c => c.projectId == p)

/-- The loop collects the entries of the project, within its two limits. -/
theorem collectIds_spec {p : ProjectId} {limit : Nat}
    {entries : List (ProjectId × ConversationId)} {seen : Nat} {ids : List ConversationId} :
    (∀ found, collectIds p limit entries seen ids = .ok found →
      found = ids ++ (entries.filter (fun e => e.1 == p)).map Prod.snd) ∧
    (seen + entries.length ≤ maxStateDirectoryEntries →
      ids.length + entries.countP (fun e => e.1 == p) ≤ limit →
      ∃ found, collectIds p limit entries seen ids = .ok found) := by
  induction entries generalizing seen ids with
  | nil =>
    refine ⟨fun found h => ?_, fun _ _ => ⟨ids, rfl⟩⟩
    cases h
    exact (List.append_nil ids).symm
  | cons entry entries ih =>
    obtain ⟨q, id⟩ := entry
    constructor
    · intro found h
      unfold collectIds at h
      split at h
      · cases h
      split at h
      · rename_i hq
        split at h
        · cases h
        · rw [ih.1 found h, hq, List.append_assoc]
          simp
      · rename_i hq
        rw [ih.1 found h, List.filter_cons_of_neg]
        intro heq
        exact hq (beq_iff_eq.mp heq)
    · intro hentries hlimit
      rw [List.length_cons] at hentries
      rw [List.countP_cons] at hlimit
      unfold collectIds
      rw [if_neg (by omega)]
      split
      · rename_i hq
        subst hq
        rw [beq_self_eq_true, if_pos rfl] at hlimit
        rw [if_neg (by omega)]
        refine ih.2 (by omega) ?_
        rw [List.length_append, List.length_singleton]
        omega
      · rename_i hq
        rw [beq_eq_false_iff_ne.mpr hq] at hlimit
        exact ih.2 (by omega) (by simpa using hlimit)

theorem wp_listConversationIds {p : ProjectId} {limit : Nat} :
    Wp (Alone A) () (listConversationIds p limit)
      (fun ids t => t = s ∧ ids.length = conversationCount s p ∧
        ∀ c ∈ s.conversations, c.projectId = p → c.conversationId ∈ ids)
      (fun _ t => t = s ∧ (Reliable A false →
        s.conversations.length ≤ maxStateDirectoryEntries → ¬ conversationCount s p ≤ limit)) s := by
  refine wp_seq trivial (wp_look (R := (· = s.conversations.map
    (fun c => (c.projectId, c.conversationId)))) (fun w => ⟨_, rfl, rfl⟩)) ?_
    (fun _ _ _ h => ⟨h.1, fun hreliable => absurd hreliable h.2⟩)
  rintro entries t - ⟨rfl, rfl⟩
  have hcount : (t.conversations.map (fun c => (c.projectId, c.conversationId))).countP
      (fun e => e.1 == p) = conversationCount t p := by
    rw [List.countP_map]
    rfl
  refine wp_check (fun e he => ⟨rfl, fun _ hentries hlimit => ?_⟩) (fun found hfound => ?_)
  · have hok : ∃ found, collectIds p limit
        (t.conversations.map (fun c => (c.projectId, c.conversationId))) 0 [] = .ok found := by
      refine collectIds_spec.2 ?_ ?_
      · rw [List.length_map]
        omega
      · rw [hcount, List.length_nil]
        omega
    obtain ⟨found, hfound⟩ := hok
    rw [he] at hfound
    cases hfound
  · have hids := collectIds_spec.1 found hfound
    rw [List.nil_append] at hids
    refine wp_pure ⟨rfl, ?_, fun c hc hp => ?_⟩
    · rw [List.length_mergeSort, hids, List.length_map, ← List.countP_eq_length_filter, hcount]
    · rw [List.mem_mergeSort, hids, List.mem_map]
      refine ⟨(c.projectId, c.conversationId), List.mem_filter.mpr ⟨?_, ?_⟩, rfl⟩
      · exact List.mem_map.mpr ⟨c, hc, rfl⟩
      · rw [beq_iff_eq]
        exact hp

/-- Some conversation files are gone, and nothing else has changed. -/
def Shrunk (s t : Managed) : Prop :=
  ∃ kept, List.Sublist kept s.conversations ∧ t = { s with conversations := kept }

theorem Shrunk.refl (s : Managed) : Shrunk s s := ⟨s.conversations, List.Sublist.refl _, rfl⟩

theorem Shrunk.trans {u : Managed} (h : Shrunk s t) (h' : Shrunk t u) : Shrunk s u := by
  obtain ⟨kept, hkept, rfl⟩ := h
  obtain ⟨kept', hkept', rfl⟩ := h'
  exact ⟨kept', hkept'.trans hkept, rfl⟩

theorem Shrunk.mem {c : PersistedConversation} (h : Shrunk s t) (hc : c ∈ t.conversations) :
    c ∈ s.conversations := by
  obtain ⟨kept, hkept, rfl⟩ := h
  exact hkept.mem hc

theorem shrunk_unlink (s : Managed) (p : ProjectId) (id : ConversationId) :
    Shrunk s (s.unlink p id) := ⟨_, List.filter_sublist, rfl⟩

theorem isFile_iff {p : ProjectId} {id : ConversationId} {c : PersistedConversation} :
    isFile p id c = true ↔ c.projectId = p ∧ c.conversationId = id := by
  unfold isFile
  rw [Bool.and_eq_true, beq_iff_eq, beq_iff_eq]

theorem mem_unlink {p : ProjectId} {id : ConversationId} {c : PersistedConversation}
    (hc : c ∈ (s.unlink p id).conversations) :
    ¬ (c.projectId = p ∧ c.conversationId = id) := by
  have hno := (List.mem_filter.mp hc).2
  rw [Bool.not_eq_true'] at hno
  rw [← isFile_iff, hno]
  exact Bool.false_ne_true

/-- The file is gone, or the call failed before or after it went. -/
theorem wp_removeConversation {p : ProjectId} {id : ConversationId} :
    Wp (Alone A) () (removeConversation cleanup p id) (fun _ t => t = s.unlink p id)
      (fun _ t => (t = s ∨ t = s.unlink p id) ∧ ¬ Reliable A cleanup) s := by
  refine wp_seq trivial (wp_look (R := (· = s.conversations.find? (isFile p id)))
    (fun w => ⟨_, rfl, rfl⟩)) ?_ (fun _ _ _ h => ⟨.inl h.1, h.2⟩)
  rintro found t - ⟨rfl, rfl⟩
  split
  · rename_i hnone
    rw [Option.isNone_iff_eq_none, List.find?_eq_none] at hnone
    refine wp_pure ?_
    unfold Managed.unlink
    rw [List.filter_eq_self.mpr]
    intro c hc
    rw [Bool.not_eq_true']
    exact Bool.eq_false_iff.mpr (hnone c hc)
  · refine wp_seq trivial (wp_done (v := ()) (fun w => rfl)) ?_ (fun _ _ _ h => ⟨.inl h.1, h.2⟩)
    rintro _ u - rfl
    exact Wp.mono trivial (wp_done (v := ()) (fun w => rfl)) (fun _ _ _ h => h)
      (fun _ _ _ h => ⟨.inr h.1, h.2⟩)

/-- The loop removes the conversations it is given, as far as it gets. -/
theorem wp_removeEach {p : ProjectId} {ids : List ConversationId} :
    Wp (Alone A) () (removeEach p ids)
      (fun _ t => Shrunk s t ∧
        ∀ c ∈ t.conversations, c.projectId = p → c.conversationId ∉ ids)
      (fun _ t => Shrunk s t ∧ ¬ Reliable A false) s := by
  induction ids generalizing s with
  | nil => exact wp_pure ⟨.refl s, fun _ _ _ => List.not_mem_nil⟩
  | cons id ids ih =>
    refine wp_seq trivial wp_removeConversation ?_ ?_
    · rintro _ t - rfl
      refine Wp.mono trivial ih (fun _ t _ h => ?_) (fun _ t _ h => ?_)
      · refine ⟨(shrunk_unlink s p id).trans h.1, fun c hc hp hmem => ?_⟩
        rcases List.mem_cons.mp hmem with hid | hmem
        · exact mem_unlink (h.1.mem hc) ⟨hp, hid⟩
        · exact h.2 c hc hp hmem
      · exact ⟨(shrunk_unlink s p id).trans h.1, h.2⟩
    · rintro _ t - ⟨rfl | rfl, hno⟩
      · exact ⟨.refl _, hno⟩
      · exact ⟨shrunk_unlink s p id, hno⟩

theorem wp_removeProjectConversations {p : ProjectId} :
    Wp (Alone A) () (removeProjectConversations p)
      (fun _ t => Shrunk s t ∧ ∀ c ∈ t.conversations, c.projectId ≠ p)
      (fun _ t => Shrunk s t ∧ (Reliable A false →
        s.conversations.length ≤ maxStateDirectoryEntries →
        ¬ conversationCount s p ≤ maxPersistedConversationsPerProject)) s := by
  refine wp_seq trivial wp_listConversationIds ?_ (fun _ _ _ h => ⟨h.1 ▸ .refl s, h.2⟩)
  rintro ids t - ⟨rfl, -, hall⟩
  refine Wp.mono trivial wp_removeEach (fun _ u _ h => ⟨h.1, fun c hc hp => ?_⟩)
    (fun _ u _ h => ⟨h.1, fun hreliable => absurd hreliable h.2⟩)
  exact h.2 c hc hp (hall c (h.1.mem hc) hp)

/-- A file is written under a new name; it may be there although the call failed. -/
theorem wp_createConversation {c : PersistedConversation} :
    Wp (Alone A) () (createConversation c)
      (fun _ t => conversationCount s c.projectId < maxPersistedConversationsPerProject ∧
        t = s.rename c)
      (fun _ t => t = s ∨
        conversationCount s c.projectId < maxPersistedConversationsPerProject ∧
          t = s.rename c) s := by
  refine wp_check (fun _ _ => .inl rfl) (fun _ _ => ?_)
  refine wp_refuse (fun _ => .inl rfl) (fun _ => ?_)
  refine wp_seq trivial (wp_look (R := fun _ => True) (fun w => ⟨_, rfl, trivial⟩)) ?_
    (fun _ _ _ h => .inl h.1)
  rintro found t - ⟨rfl, -⟩
  refine wp_refuse (fun _ => .inl rfl) (fun _ => ?_)
  refine wp_seq trivial wp_listConversationIds ?_ (fun _ _ _ h => .inl h.1)
  rintro ids t - ⟨rfl, hlength, -⟩
  refine wp_refuse (fun _ => .inl rfl) (fun hroom => ?_)
  have hless : conversationCount t c.projectId < maxPersistedConversationsPerProject := by
    rw [← hlength]
    exact Nat.not_le.mp (of_decide_eq_false hroom)
  unfold saveConversation
  refine wp_refuse (fun _ => .inl rfl) (fun _ => ?_)
  refine wp_seq trivial (wp_done (v := ()) (fun w => rfl)) ?_ (fun _ _ _ h => .inl h.1)
  rintro _ u - rfl
  exact Wp.mono trivial (wp_done (v := ()) (fun w => rfl)) (fun _ _ _ h => ⟨hless, h⟩)
    (fun _ _ _ h => .inr ⟨hless, h.1⟩)

/-- A file takes the place of the one with its name. -/
def Replaced (s t : Managed) : Prop :=
  ∃ c old, old ∈ s.conversations ∧ isFile c.projectId c.conversationId old = true ∧ t = s.rename c

theorem wp_updateConversation {expected : Nat} {c : PersistedConversation} :
    Wp (Alone A) () (updateConversation expected c) (fun _ t => t = s ∨ Replaced s t)
      (fun _ t => t = s ∨ Replaced s t) s := by
  refine wp_check (fun _ _ => .inl rfl) (fun _ _ => ?_)
  refine wp_refuse (fun _ => .inl rfl) (fun _ => ?_)
  refine wp_seq trivial (wp_look (R := (· = s.conversations.find?
    (isFile c.projectId c.conversationId))) (fun w => ⟨_, rfl, rfl⟩)) ?_ (fun _ _ _ h => .inl h.1)
  rintro found t - ⟨rfl, rfl⟩
  rcases hfound : t.conversations.find? (isFile c.projectId c.conversationId) with _ | current
  · exact wp_throw (.inl rfl)
  refine wp_refuse (fun _ => .inl rfl) (fun _ => ?_)
  refine wp_refuse (fun _ => .inl rfl) (fun _ => ?_)
  have hreplaced : Replaced t (t.rename { c with revision := expected + 1 }) :=
    ⟨{ c with revision := expected + 1 }, current, List.mem_of_find?_eq_some hfound,
      List.find?_some hfound, rfl⟩
  refine wp_seq trivial (R := fun _ u => u = t ∨ Replaced t u) (F := fun _ u =>
    u = t ∨ Replaced t u) ?_ (fun _ _ _ h => wp_pure h) (fun _ _ _ h => h)
  refine wp_refuse (fun _ => .inl rfl) (fun _ => ?_)
  refine wp_seq trivial (wp_done (v := ()) (fun w => rfl)) ?_ (fun _ _ _ h => .inl h.1)
  rintro _ u - rfl
  exact Wp.mono trivial (wp_done (v := ()) (fun w => rfl)) (fun _ _ _ h => .inr (h ▸ hreplaced))
    (fun _ _ _ h => .inr (h.1 ▸ hreplaced))

/-! ## The invariant -/

/-- What holds between two calls. -/
structure Inv (config : CoreConfig) (s : Managed) : Prop where
  /-- Every directory has a record. -/
  registered : ∀ p, s.directories p = true → (s.states p).isSome = true
  /-- Every conversation belongs to a project with a record. -/
  owned : ∀ c ∈ s.conversations, (s.states c.projectId).isSome = true
  /-- No project has a session of its own. -/
  sessionless : ∀ p state, s.states p = some state → state.agentSession = none
  bounded : ∀ p, conversationCount s p ≤ maxPersistedConversationsPerProject
  stored : ∀ p state, s.states p = some state → config.projectStateStore = true
  chatting : ∀ c ∈ s.conversations, config.conversationStore = true

variable {config : CoreConfig}

theorem inv_new : Inv config .new where
  registered := fun _ h => by cases h
  owned := fun _ h => by cases h
  sessionless := fun _ _ h => by cases h
  bounded := fun _ => Nat.zero_le _
  stored := fun _ _ h => by cases h
  chatting := fun _ h => by cases h

theorem Inv.setPolicy {policy : CommandPolicyState} (h : Inv config s) :
    Inv config (s.setPolicy policy) := ⟨h.1, h.2, h.3, h.4, h.5, h.6⟩

theorem Inv.setDirectory {p : ProjectId} (h : Inv config s) :
    Inv config (s.setDirectory p false) := by
  refine ⟨fun q hq => ?_, h.2, h.3, h.4, h.5, h.6⟩
  by_cases hqp : q = p
  · rw [hqp, setDirectory_self] at hq
    cases hq
  · rw [setDirectory_other hqp] at hq
    exact h.registered q hq

/-- A directory may be there when its record is. -/
theorem Inv.addDirectory {p : ProjectId} (h : Inv config s)
    (hstate : (s.states p).isSome = true) : Inv config (s.setDirectory p true) := by
  refine ⟨fun q hq => ?_, h.2, h.3, h.4, h.5, h.6⟩
  by_cases hqp : q = p
  · rw [hqp]
    exact hstate
  · rw [setDirectory_other hqp] at hq
    exact h.registered q hq

theorem Inv.shrink (h : Inv config s) (ht : Shrunk s t) : Inv config t := by
  obtain ⟨kept, hkept, rfl⟩ := ht
  refine ⟨h.1, fun c hc => h.owned c (hkept.mem hc), h.3, fun p => ?_, h.5,
    fun c hc => h.chatting c (hkept.mem hc)⟩
  exact Nat.le_trans (hkept.countP_le) (h.bounded p)

/-- A new record does no harm. -/
theorem Inv.setState {p : ProjectId} (h : Inv config s) (hstore : config.projectStateStore = true) :
    Inv config (s.setState p (some (newProjectState p))) := by
  have hsome : ∀ q, (s.states q).isSome = true →
      ((s.setState p (some (newProjectState p))).states q).isSome = true := by
    intro q hq
    by_cases hqp : q = p
    · rw [hqp, setState_self]
      rfl
    · rw [setState_other hqp]
      exact hq
  refine ⟨fun q hq => hsome q (h.registered q hq), fun c hc => hsome _ (h.owned c hc),
    fun q state hq => ?_, h.4, fun _ _ _ => hstore, h.6⟩
  by_cases hqp : q = p
  · rw [hqp, setState_self] at hq
    cases hq
    rfl
  · rw [setState_other hqp] at hq
    exact h.sessionless q state hq

/-- A record may go when neither a directory nor a conversation needs it. -/
theorem Inv.clearState {p : ProjectId} (h : Inv config s) (hdir : s.directories p = false)
    (hchats : ∀ c ∈ s.conversations, c.projectId ≠ p) : Inv config (s.setState p none) := by
  have hstays : ∀ q, q ≠ p → (s.setState p none).states q = s.states q :=
    fun q hq => setState_other hq
  refine ⟨fun q hq => ?_, fun c hc => ?_, fun q state hq => ?_, h.4, fun q state hq => ?_, h.6⟩
  · have hqp : q ≠ p := by
      rintro rfl
      rw [show (s.setState q none).directories q = s.directories q from rfl, hdir] at hq
      cases hq
    rw [hstays q hqp]
    exact h.registered q hq
  · rw [hstays _ (hchats c hc)]
    exact h.owned c hc
  · by_cases hqp : q = p
    · rw [hqp, setState_self] at hq
      cases hq
    · rw [hstays q hqp] at hq
      exact h.sessionless q state hq
  · by_cases hqp : q = p
    · rw [hqp, setState_self] at hq
      cases hq
    · rw [hstays q hqp] at hq
      exact h.stored q state hq

theorem conversationCount_rename {c : PersistedConversation} {p : ProjectId} :
    conversationCount (s.rename c) p =
      conversationCount (s.unlink c.projectId c.conversationId) p +
        if c.projectId = p then 1 else 0 := by
  unfold conversationCount Managed.rename
  rw [List.countP_append]
  congr 1
  rw [List.countP_singleton]
  by_cases hp : c.projectId = p
  · rw [if_pos (beq_iff_eq.mpr hp), if_pos hp]
  · rw [if_neg (fun heq => hp (beq_iff_eq.mp heq)), if_neg hp]

theorem mem_rename {c x : PersistedConversation} (hx : x ∈ (s.rename c).conversations) :
    x ∈ s.conversations ∨ x = c := by
  rcases List.mem_append.mp hx with hold | hnew
  · exact .inl (List.mem_of_mem_filter hold)
  · exact .inr (List.mem_singleton.mp hnew)

/-- A file of a project with a record, within the limit. -/
theorem Inv.rename {c : PersistedConversation} (h : Inv config s)
    (hstore : config.conversationStore = true) (howner : (s.states c.projectId).isSome = true)
    (hroom : conversationCount (s.unlink c.projectId c.conversationId) c.projectId <
      maxPersistedConversationsPerProject) : Inv config (s.rename c) := by
  refine ⟨h.1, fun x hx => ?_, h.3, fun p => ?_, h.5, fun _ _ => hstore⟩
  · rcases mem_rename hx with hold | rfl
    · exact h.owned x hold
    · exact howner
  · rw [conversationCount_rename]
    split
    · rename_i hp
      rw [← hp]
      omega
    · exact Nat.le_trans List.filter_sublist.countP_le (h.bounded p)

theorem Inv.replaced (h : Inv config s) (ht : Replaced s t) : Inv config t := by
  obtain ⟨c, old, hold, hfile, rfl⟩ := ht
  have hproject : old.projectId = c.projectId := (isFile_iff.mp hfile).1
  have hstore : config.conversationStore = true := h.chatting old hold
  refine h.rename hstore ?_ ?_
  · rw [← hproject]
    exact h.owned old hold
  · -- the old file is one of those counted
    have hless : conversationCount (s.unlink c.projectId c.conversationId) c.projectId <
        conversationCount s c.projectId := by
      have hsplit := List.countP_eq_countP_filter_add s.conversations
        (fun x => x.projectId == c.projectId) (isFile c.projectId c.conversationId)
      have hpositive : 0 < (s.conversations.filter
          (isFile c.projectId c.conversationId)).countP (fun x => x.projectId == c.projectId) :=
        List.countP_pos_iff.mpr
          ⟨old, List.mem_filter.mpr ⟨hold, hfile⟩, beq_iff_eq.mpr hproject⟩
      unfold conversationCount Managed.unlink
      dsimp only
      omega
    have hbound := h.bounded c.projectId
    omega

/-! ## The calls -/

variable (config)

theorem wp_createPersistedProject (h : Inv config s) :
    Wp (Alone A) () (createPersistedProject config) (fun _ => Inv config) (fun _ => Inv config)
      s := by
  refine wp_refuse (fun _ => h) (fun hstore => ?_)
  rw [Bool.not_eq_false'] at hstore
  refine wp_seq trivial (wp_look (R := fun _ => True) (fun w => ⟨_, rfl, trivial⟩)) ?_
    (fun _ _ _ ht => ht.1 ▸ h)
  rintro uuid t - ⟨rfl, -⟩
  refine wp_seq trivial wp_createProject ?_ (fun _ _ _ ht => ht ▸ h)
  rintro project u - ⟨rfl, hnew, rfl⟩
  have hwritten : Inv config (t.setState ⟨uuid⟩ (some (newProjectState ⟨uuid⟩))) :=
    h.setState hstore
  have hgone : t.setDirectory ⟨uuid⟩ false = t := setDirectory_same hnew
  have hpresent : ∀ v : Managed, Present (v.setDirectory ⟨uuid⟩ true)
      { id := ⟨uuid⟩, root := expectedProjectRoot ⟨uuid⟩ } := fun v => ⟨rfl, setDirectory_self⟩
  refine wp_settled wp_createProjectState ?_ ?_
  · rintro _ u ⟨-, rfl⟩
    exact wp_pure (hwritten.addDirectory (by rw [setState_self]; rfl))
  · rintro e u hu
    -- the directory goes again, whether the record was written or not
    have hclean : Inv config (u.setDirectory ⟨uuid⟩ false) ∧
        ∃ v : Managed, u = v.setDirectory ⟨uuid⟩ true := by
      rcases hu with rfl | ⟨-, rfl⟩
      · rw [setDirectory_setDirectory, hgone]
        exact ⟨h, t, rfl⟩
      · refine ⟨?_, t.setState ⟨uuid⟩ (some (newProjectState ⟨uuid⟩)), rfl⟩
        have hsame := setDirectory_setDirectory (s := t.setState ⟨uuid⟩
          (some (newProjectState ⟨uuid⟩))) (p := ⟨uuid⟩) (a := true) (b := false)
        refine Eq.subst (motive := Inv config) hsame.symm ?_
        exact hwritten.setDirectory
    obtain ⟨hinv, v, rfl⟩ := hclean
    refine wp_settled wp_removeProject ?_ ?_
    · rintro _ u rfl
      exact wp_throw hinv
    · exact fun _ _ hno => absurd (hpresent v) (hno.2 (.inl rfl))

theorem wp_createPersistedConversation {project : ProjectRef} (h : Inv config s) :
    Wp (Alone A) () (createPersistedConversation config project) (fun _ => Inv config)
      (fun _ => Inv config) s := by
  refine wp_seq trivial (wp_done (v := ()) (fun w => rfl)) ?_ (fun _ _ _ ht => ht.1 ▸ h)
  rintro _ t - rfl
  refine wp_refuse (fun _ => h) (fun hstore => ?_)
  rw [Bool.not_eq_false'] at hstore
  refine wp_seq trivial wp_verifyProject ?_ (fun _ _ _ ht => ht.1 ▸ h)
  rintro _ t - ⟨rfl, -⟩
  refine wp_refuse (fun _ => h) (fun _ => ?_)
  refine wp_seq trivial wp_loadProjectState ?_ (fun _ _ _ ht => ht.1 ▸ h)
  rintro state t - ⟨rfl, hstate⟩
  refine wp_seq trivial (wp_look (R := fun _ => True) (fun w => ⟨_, rfl, trivial⟩)) ?_
    (fun _ _ _ ht => ht.1 ▸ h)
  rintro uuid t - ⟨rfl, -⟩
  have hcreated : conversationCount t project.id < maxPersistedConversationsPerProject →
      Inv config (t.rename (pendingCreation ⟨uuid⟩ project.id)) := by
    intro hroom
    refine h.rename hstore ?_ ?_
    · rw [show (pendingCreation ⟨uuid⟩ project.id).projectId = project.id from rfl, hstate]
      rfl
    · exact Nat.lt_of_le_of_lt List.filter_sublist.countP_le hroom
  refine wp_seq trivial wp_createConversation ?_ ?_
  · rintro _ u - ⟨hroom, rfl⟩
    have hinv := hcreated hroom
    refine wp_settled (wp_look (R := fun _ => True) (fun w => ⟨_, rfl, trivial⟩)) ?_ ?_
    · rintro session u ⟨rfl, -⟩
      refine wp_settled wp_updateConversation ?_ ?_
      · rintro committed u (rfl | hu)
        · exact wp_pure hinv
        · exact wp_pure (hinv.replaced hu)
      · rintro e u (rfl | hu)
        · exact wp_throw hinv
        · exact wp_throw (hinv.replaced hu)
    · rintro e u ⟨rfl, -⟩
      refine wp_settled wp_removeConversation ?_ ?_
      · rintro _ u rfl
        exact wp_throw (hinv.shrink (shrunk_unlink _ _ _))
      · exact fun _ _ hno => absurd (.inl rfl) hno.2
  · rintro e u - (rfl | ⟨hroom, rfl⟩)
    · exact h
    · exact hcreated hroom

/-- Nothing of the project is left. -/
structure Clean (p : ProjectId) (s : Managed) : Prop where
  directory : s.directories p = false
  state : s.states p = none
  conversations : ∀ c ∈ s.conversations, c.projectId ≠ p

theorem wp_removeEverything {project : ProjectRef} (h : Inv config s) :
    Wp (Alone A) () (removeEverything config project)
      (fun _ t => Inv config t ∧ Clean project.id t)
      (fun _ t => Inv config t ∧ (Reliable A false →
        s.conversations.length ≤ maxStateDirectoryEntries → ¬ Present s project)) s := by
  refine wp_seq trivial wp_removeProject ?_ (fun _ _ _ ht => ?_)
  · rintro _ t - rfl
    have hinv : Inv config (s.setDirectory project.id false) := h.setDirectory
    have hchats : Wp (Alone A) () (removeStoredConversations config project.id)
        (fun _ t => Shrunk (s.setDirectory project.id false) t ∧
          ∀ c ∈ t.conversations, c.projectId ≠ project.id)
        (fun _ t => Shrunk (s.setDirectory project.id false) t ∧ (Reliable A false →
          ¬ s.conversations.length ≤ maxStateDirectoryEntries))
        (s.setDirectory project.id false) := by
      unfold removeStoredConversations
      split
      · refine Wp.mono trivial wp_removeProjectConversations (fun _ _ _ ht => ht)
          (fun _ _ _ ht => ⟨ht.1, fun hreliable hlisted => ?_⟩)
        exact ht.2 hreliable hlisted (h.bounded project.id)
      · rename_i hnone
        refine wp_pure ⟨.refl _, fun c hc => ?_⟩
        exact absurd (h.chatting c hc) hnone
    refine wp_seq trivial hchats ?_ (fun _ t _ ht => ?_)
    · rintro _ t - ⟨hshrunk, hnone⟩
      have hgone : t.directories project.id = false := by
        obtain ⟨kept, -, rfl⟩ := hshrunk
        exact setDirectory_self
      have hcleared : Inv config (t.setState project.id none) :=
        (hinv.shrink hshrunk).clearState hgone hnone
      refine Wp.mono trivial wp_removeProjectState (fun _ u _ hu => ?_) (fun _ u _ hu => ?_)
      · rw [hu]
        exact ⟨hcleared, hgone, setState_self, hnone⟩
      · refine ⟨?_, fun hreliable => absurd hreliable hu.2⟩
        rcases hu.1 with rfl | rfl
        · exact hinv.shrink hshrunk
        · exact hcleared
    · exact ⟨hinv.shrink ht.1, fun hreliable hlisted => absurd hlisted (ht.2 hreliable)⟩
  · rw [ht.1]
    exact ⟨h, fun hreliable _ => ht.2 hreliable⟩

/-- What a removal takes that finds the directory: a listing of the conversations that is not
    refused, and an authorization epoch that can advance. -/
structure Removable (s : Managed) (project : ProjectRef) : Prop where
  present : Present s project
  listed : s.conversations.length ≤ maxStateDirectoryEntries
  epoch : s.policy.projectEpochs project.id < u64Max

/-- No step fails by itself, and no process is active. -/
structure Calm (w : World) : Prop where
  fault : w.fault = none
  idle : w.active = 0

theorem wp_ensureNoActive {p : ProjectId} :
    Wp (Alone A) () (ensureNoActiveProjectProcess config p) (fun _ u => u = s)
      (fun _ u => u = s ∧ ¬ ∀ w, A w → Calm w) s := by
  unfold ensureNoActiveProjectProcess
  split
  · have hask : Wp (Alone A) () (ask false (.activeForProject p))
        (fun active u => u = s ∧ ((∀ w, A w → Calm w) → active = 0))
        (fun _ u => u = s ∧ ¬ ∀ w, A w → Calm w) s := by
      refine wp_ask (fun w hw => ⟨rfl, fun hall => (hall w hw).idle⟩) (fun e hno => ⟨rfl, ?_⟩)
      exact fun hall => hno (.inr fun w hw => (hall w hw).fault)
    refine wp_seq trivial hask ?_ (fun _ _ _ h => h)
    rintro active u - ⟨rfl, hactive⟩
    refine wp_refused (fun hbusy => ⟨rfl, fun hall => ?_⟩) (fun _ => rfl)
    rw [hactive hall] at hbusy
    cases hbusy
  · exact wp_pure rfl

/-- The policy changes, and the stores do not. -/
theorem wp_invalidate {p : ProjectId} :
    Wp (Alone A) () (ask false (.invalidateAuthorizations p))
      (fun _ u => ∃ policy, u = s.setPolicy policy)
      (fun _ u => (∃ policy, u = s.setPolicy policy) ∧
        (Reliable A false → ¬ s.policy.projectEpochs p < u64Max)) s := by
  refine wp_ask (fun w _ => ?_) (fun _ hno => ⟨⟨s.policy, rfl⟩, fun h => absurd h hno⟩)
  show Post _ _ (s.policy.invalidateProjectAuthorizations p).1
    (s.setPolicy (s.policy.invalidateProjectAuthorizations p).2)
  rcases hanswer : (s.policy.invalidateProjectAuthorizations p).1 with e | done
  · refine ⟨⟨_, rfl⟩, fun _ hepoch => ?_⟩
    have hok := ((CommandPolicyState.invalidate_epochs s.policy p).2 hepoch).1
    rw [hanswer] at hok
    cases hok
  · exact ⟨_, rfl⟩

/-- A removal leaves nothing of the project, or fails; it does not fail when nothing else does and
    the project can be removed. -/
theorem wp_removePersistedProject {project : ProjectRef} (h : Inv config s) :
    Wp (Alone A) () (removePersistedProject config project)
      (fun _ t => Inv config t ∧ Clean project.id t)
      (fun _ t => Inv config t ∧ ((∀ w, A w → Calm w) → ¬ Removable s project)) s := by
  have hcalm : (∀ w, A w → Calm w) → Reliable A false := fun hall => .inr fun w hw => (hall w hw).fault
  refine wp_seq trivial (wp_done (v := ()) (fun w => rfl)) ?_
    (fun _ _ _ ht => ⟨ht.1 ▸ h, fun hall => absurd (hcalm hall) ht.2⟩)
  rintro _ t - rfl
  have hregistered : Removable t project → ∃ state, t.states project.id = some state := by
    intro hremovable
    exact Option.isSome_iff_exists.mp (h.registered _ hremovable.present.2)
  refine wp_refuse (fun hno => ⟨h, fun _ hremovable => ?_⟩) (fun _ => ?_)
  · obtain ⟨state, hstate⟩ := hregistered hremovable
    rw [h.stored _ _ hstate] at hno
    cases hno
  refine wp_seq trivial wp_loadProjectState ?_ (fun _ _ _ ht => ⟨ht.1 ▸ h, fun hall hremovable => ?_⟩)
  · rintro state t - ⟨rfl, hstate⟩
    refine wp_seq trivial wp_verifyProject ?_
      (fun _ _ _ ht => ⟨ht.1 ▸ h, fun hall hremovable => ht.2 (hcalm hall) hremovable.present⟩)
    rintro _ t - ⟨rfl, -⟩
    refine wp_seq trivial (wp_ensureNoActive config) ?_ (fun _ _ _ ht => ⟨ht.1 ▸ h, fun hall => absurd hall ht.2⟩)
    rintro _ t - rfl
    refine wp_seq trivial (wp_done (v := ()) (fun w => rfl)) ?_
      (fun _ _ _ ht => ⟨ht.1 ▸ h, fun hall => absurd (hcalm hall) ht.2⟩)
    rintro _ t - rfl
    refine wp_seq trivial wp_invalidate ?_ (fun e u _ hu => ?_)
    · rintro _ u - ⟨policy, rfl⟩
      have hnone : state.agentSession = none := h.sessionless _ _ hstate
      rw [hnone]
      -- without a session there is nothing more to revoke
      refine wp_bind (wp_pure ?_)
      refine Wp.mono trivial (wp_removeEverything config h.setPolicy) (fun _ _ _ ht => ht)
        (fun _ _ _ ht => ⟨ht.1, fun hall hremovable => ?_⟩)
      exact ht.2 (hcalm hall) hremovable.listed hremovable.present
    · obtain ⟨⟨policy, rfl⟩, hepoch⟩ := hu
      exact ⟨h.setPolicy, fun hall hremovable => hepoch (hcalm hall) hremovable.epoch⟩
  · obtain ⟨state, hstate⟩ := hregistered hremovable
    rw [ht.2 (hcalm hall)] at hstate
    cases hstate

/-- Without the directory a removal does nothing. -/
theorem wp_removePersistedProject_gone {project : ProjectRef}
    (hgone : s.directories project.id = false) :
    Wp (Alone A) () (removePersistedProject config project) (fun _ _ => False) (fun _ t => t = s)
      s := by
  refine wp_seq trivial (wp_done (v := ()) (fun w => rfl)) ?_ (fun _ _ _ ht => ht.1)
  rintro _ t - rfl
  refine wp_refuse (fun _ => rfl) (fun _ => ?_)
  refine wp_seq trivial wp_loadProjectState ?_ (fun _ _ _ ht => ht.1)
  rintro state t - ⟨rfl, -⟩
  refine wp_seq trivial wp_verifyProject ?_ (fun _ _ _ ht => ht.1)
  rintro _ u - ⟨-, -, hpresent⟩
  rw [hpresent.2] at hgone
  cases hgone

/-! ## Runs -/

/-- A call of the core. -/
inductive Call where
  | create
  | converse (project : ProjectRef)
  | remove (project : ProjectRef)

/-- What a call leaves, in these surroundings. -/
def Call.after (w : Nat → World) (s : Managed) : Call → Managed
  | .create => (runAlone exec w (createPersistedProject config) 0 s).2.2
  | .converse project => (runAlone exec w (createPersistedConversation config project) 0 s).2.2
  | .remove project => (runAlone exec w (removePersistedProject config project) 0 s).2.2

/-- One call after the other, each in its own surroundings. -/
def step (s : Managed) (event : Call × (Nat → World)) : Managed :=
  event.1.after config event.2 s

/-- What a call establishes in a run. -/
theorem wp_alone {w : Nat → World} (hw : ∀ n, A (w n)) {p : LifecycleM α}
    {Q : α → Managed → Prop} {E : VibeCoderError → Managed → Prop}
    (h : Wp (Alone A) () p Q E s) :
    Post Q E (runAlone exec w p 0 s).1 (runAlone exec w p 0 s).2.2 := wp_run hw h

theorem inv_step (event : Call × (Nat → World)) (h : Inv config s) :
    Inv config (step config s event) := by
  obtain ⟨call, w⟩ := event
  have hall : ∀ n : Nat, (fun _ : World => True) (w n) := fun _ => trivial
  cases call with
  | create => exact Post.both (wp_alone (A := fun _ => True) hall (wp_createPersistedProject config h))
  | converse project =>
    exact Post.both (wp_alone (A := fun _ => True) hall (wp_createPersistedConversation config h))
  | remove project =>
    have hremove : Wp (Alone fun _ => True) () (removePersistedProject config project)
        (fun _ => Inv config) (fun _ => Inv config) s :=
      Wp.mono trivial (wp_removePersistedProject config h) (fun _ _ _ ht => ht.1)
        (fun _ _ _ ht => ht.1)
    exact Post.both (wp_alone hall hremove)

/-- Calling a removal again. -/
def retry (w : Nat → World) (s : Managed) (p : ProjectId) : Result Unit × Nat × Managed :=
  runAlone exec w
    (removePersistedProject config { id := p, root := expectedProjectRoot p }) 0 s

/-- What calling a removal again does when nothing fails: while the directory is there it leaves
    nothing of the project, and once the directory is gone it leaves everything as it is. -/
structure Retries (s : Managed) (p : ProjectId) (w : Nat → World) : Prop where
  completes : s.directories p = true → s.conversations.length ≤ maxStateDirectoryEntries →
    s.policy.projectEpochs p < u64Max →
    (retry config w s p).1 = .ok () ∧ Clean p (retry config w s p).2.2
  strands : s.directories p = false →
    (retry config w s p).1 ≠ .ok () ∧ (retry config w s p).2.2 = s

theorem Inv.retries {p : ProjectId} {w : Nat → World} (h : Inv config s) (hw : ∀ n, Calm (w n)) :
    Retries config s p w := by
  constructor
  · intro hdir hlisted hepoch
    have hremovable : Removable s { id := p, root := expectedProjectRoot p } :=
      ⟨⟨rfl, hdir⟩, hlisted, hepoch⟩
    have hrule : Wp (Alone Calm) () (removePersistedProject config ⟨p, expectedProjectRoot p⟩) _ _ s :=
      wp_removePersistedProject config h
    have hpost := wp_alone (A := Calm) hw hrule
    change Post _ _ (retry config w s p).1 (retry config w s p).2.2 at hpost
    rcases hanswer : (retry config w s p).1 with e | done
    · rw [hanswer] at hpost
      exact absurd hremovable (hpost.2 (fun _ hcalm => hcalm))
    · rw [hanswer] at hpost
      exact ⟨rfl, hpost.2⟩
  · intro hgone
    have hrule : Wp (Alone Calm) () (removePersistedProject config ⟨p, expectedProjectRoot p⟩) _ _ s :=
      wp_removePersistedProject_gone config hgone
    have hpost := wp_alone (A := Calm) hw hrule
    change Post _ _ (retry config w s p).1 (retry config w s p).2.2 at hpost
    rcases hanswer : (retry config w s p).1 with e | done
    · rw [hanswer] at hpost
      exact ⟨(fun hcontra => by cases hcontra), hpost⟩
    · rw [hanswer] at hpost
      exact hpost.elim

/-- **Project lifecycle.**  After every sequence of calls, each of which may fail at any step, every
    project directory has a state record and every conversation belongs to a project with one; and
    a removal that is called again when nothing fails completes while the directory is there, and
    does nothing once it is gone. -/
theorem project_lifecycle_law (events : List (Call × (Nat → World))) :
    (∀ p, (Runs.play (step config) .new events).directories p = true →
      ((Runs.play (step config) .new events).states p).isSome = true) ∧
    (∀ c ∈ (Runs.play (step config) .new events).conversations,
      ((Runs.play (step config) .new events).states c.projectId).isSome = true) ∧
    ∀ p w, (∀ n, Calm (w n)) → Retries config (Runs.play (step config) .new events) p w := by
  have hinv : Inv config (Runs.play (step config) .new events) :=
    Runs.play_invariant (step config) (fun _ event h => inv_step config event h) inv_new events
  exact ⟨hinv.registered, hinv.owned, fun p w hw => hinv.retries config hw⟩

/-! ## A record that stays -/

/-- A core with both stores. -/
def sampleConfig : CoreConfig where
  runtimeId := "jcode"
  bridge := none
  commandPolicy := { allowedRuntimeTools := [], allowWorkspaceExecutables := false }
  processRuntime := false
  projectStateStore := true
  conversationStore := true
  checkpointStore := true

def quiet : World where
  fault := none
  uuid := 7
  session := ⟨"s"⟩
  active := 0

/-- Nothing fails but the removal of the record. -/
def failsAtRecord (n : Nat) : World :=
  if n = 10 then { quiet with fault := some (persistenceError "project_state_remove_failed") }
  else quiet

/-- One project, just created. -/
def oneProject : Managed := Runs.play (step sampleConfig) .new [(.create, fun _ => quiet)]

/-- What a removal that fails at the record leaves. -/
def afterFailure : Managed := (retry sampleConfig failsAtRecord oneProject ⟨7⟩).2.2

/-- The removal fails, and calling it again when nothing fails leaves the record. -/
theorem gone_directory_strands :
    (retry sampleConfig failsAtRecord oneProject ⟨7⟩).1.isOk = false ∧
    (∀ n : Nat, Calm ((fun _ => quiet) n)) ∧
    ¬ Clean ⟨7⟩ (retry sampleConfig (fun _ => quiet) afterFailure ⟨7⟩).2.2 := by
  refine ⟨by decide +kernel, fun _ => ⟨rfl, rfl⟩, fun hclean => ?_⟩
  have hrecord : ((retry sampleConfig (fun _ => quiet) afterFailure ⟨7⟩).2.2.states
      ⟨7⟩).isSome = true := by decide +kernel
  rw [hclean.state] at hrecord
  cases hrecord

end VibeCoder.Lifecycle
