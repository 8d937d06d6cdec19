/-
  Stop against the end of a model turn (`run_persisted_model_conversation_turn_cancellable`).

  Other callers may set the flag of the turn before any of its steps, and everything outside may fail.

  1. **The flag** — once set it stays, so that every later reading sees it (`reading_after_stop`).
  2. **The turn** — whatever it is answered, a turn that has seen Stop ends as cancelled, and it never
     stores a reply (`wp_stopped`); induction on the polled future for the wait.
  3. **The law** (`stop_before_reading_wins`) — a request that lands before the last reading of the
     flag wins, and a reply is only committed in the step after a reading.
  4. **The limit of the law** — a request that lands between these two steps is not seen
     (`late_stop_loses`).
-/
import VibeCoder.Core.ModelContextRuns
import VibeCoder.Core.ModelTurnRuns

namespace VibeCoder.ModelTurn

open Resume

variable {Tree : Type} {config : CoreConfig} {digest : Tree → String} {flag : Flag}

/-! ## The flag -/

theorem request_flags (w : World Tree) (other : Flag) {s : Core Tree Unit}
    (h : s.flags flag = true) :
    (exec config digest () w (.request other) s).2.flags flag = true := by
  show Function.update s.flags other true flag = true
  by_cases hsame : flag = other
  · rw [hsame, Function.update_self]
  · rw [Function.update_of_ne hsame]
    exact h

/-- No operation takes a flag back. -/
theorem exec_flags (w : World Tree) (o : Op) {s : Core Tree Unit} (h : s.flags flag = true) :
    (exec config digest () w o s).2.flags flag = true := by
  have hwrites := exec_writes config digest () w s o
  cases o <;> unfold Op.Writes at hwrites <;> dsimp only at hwrites <;> first
    | exact request_flags w _ h
    | rw [hwrites]; exact h
    | obtain ⟨_, hwrites⟩ := hwrites; rw [hwrites]; exact h
    | obtain ⟨_, _, hwrites⟩ := hwrites; rw [hwrites]; exact h

/-- The flag is up when a request has landed before some step so far. -/
def Raised (w : Nat → Outside Tree) (flag : Flag) (n : Nat) (t : Watched Tree) : Prop :=
  (∃ m, m < n ∧ flag ∈ (w m).stops) → t.core.flags flag = true

theorem Raised.next {w : Nat → Outside Tree} {n : Nat} {t : Watched Tree} (h : Raised w flag n t)
    (o : Op) : Raised w flag (n + 1) (watch config digest (w n) o t).2 := by
  rintro ⟨m, hm, hstop⟩
  refine exec_flags (w n).world o ?_
  show (t.core.flags flag || decide (flag ∈ (w n).stops)) = true
  rcases Nat.lt_succ_iff_lt_or_eq.mp hm with hearlier | rfl
  · rw [h ⟨m, hearlier, hstop⟩, Bool.true_or]
  · rw [decide_eq_true hstop, Bool.or_true]

/-- The store took a record that ends with a reply. -/
def Entry.commitsReply : Entry → Bool
  | ⟨.updateConversation _ c, .ok _⟩ => decide (c.roles.getLast? = some .assistant)
  | _ => false

/-- No reply has been stored. -/
def Unanswered (log : Log) : Prop := ∀ entry ∈ log, Entry.commitsReply entry = false

/-- Stop has not been seen. -/
def Unstopped (log : Log) : Prop := ∀ entry ∈ log, Entry.stops entry = false

theorem forall_snoc {P : Entry → Prop} {log : Log} {entry : Entry} (h : ∀ e ∈ log, P e)
    (hentry : P entry) : ∀ e ∈ log ++ [entry], P e := by
  intro e he
  rcases List.mem_append.mp he with hold | hnew
  · exact h e hold
  · rw [List.mem_singleton.mp hnew]
    exact hentry

theorem stops_of_not_reading {o : Op} (h : isReading o = false) (answer : Result o.Val) :
    Entry.stops ⟨o, answer⟩ = false := by
  cases o with
  | isRequested flag => cases h
  | _ => rfl

theorem commitsReply_silent {o : Op} (h : Silent o) (answer : Result o.Val) :
    Entry.commitsReply ⟨o, answer⟩ = false := by
  cases o with
  | updateConversation expected c => cases h
  | _ => rfl

theorem commitsReply_prompt {expected : Nat} {c : PersistedConversation}
    (h : c.roles.getLast? = some .user) (answer : Result PersistedConversation) :
    Entry.commitsReply ⟨.updateConversation expected c, answer⟩ = false := by
  cases answer with
  | error e => rfl
  | ok committed =>
    show decide (c.roles.getLast? = some .assistant) = false
    rw [h]
    rfl

/-- A reply is only stored in the step after a reading of the flag. -/
def Guarded (flag : Flag) (log : Log) : Prop :=
  ∀ k entry, log[k]? = some entry → Entry.commitsReply entry = true →
    ∃ j answer, k = j + 1 ∧ log[j]? = some ⟨.isRequested flag, answer⟩

theorem Unanswered.guarded {log : Log} (h : Unanswered log) : Guarded flag log := by
  intro k entry hentry hcommits
  rw [h entry (List.mem_of_getElem? hentry)] at hcommits
  cases hcommits

/-- A new entry is after a reading, or stores no reply. -/
theorem Guarded.snoc {log : Log} (h : Guarded flag log) {entry : Entry}
    (hentry : Entry.commitsReply entry = true →
      ∃ answer, log.getLast? = some ⟨.isRequested flag, answer⟩) :
    Guarded flag (log ++ [entry]) := by
  intro k found hfound hcommits
  rcases Nat.lt_or_ge k log.length with hold | hnew
  · rw [List.getElem?_append_left hold] at hfound
    obtain ⟨j, answer, hj, hread⟩ := h k found hfound hcommits
    refine ⟨j, answer, hj, ?_⟩
    rw [List.getElem?_append_left (by omega)]
    exact hread
  · rw [List.getElem?_append_right hnew] at hfound
    obtain ⟨rfl, hzero⟩ : found = entry ∧ k - log.length = 0 := by
      cases hdiff : k - log.length with
      | zero =>
        rw [hdiff] at hfound
        exact ⟨(Option.some.inj hfound).symm, rfl⟩
      | succ d =>
        rw [hdiff] at hfound
        cases hfound
    obtain ⟨answer, hlast⟩ := hentry hcommits
    rw [List.getLast?_eq_getElem?] at hlast
    have hsome : log.length - 1 < log.length := (List.getElem?_eq_some_iff.mp hlast).1
    refine ⟨log.length - 1, answer, by omega, ?_⟩
    rw [List.getElem?_append_left hsome]
    exact hlast

/-- The error of a turn that could not clear its marker. -/
def cleanupFailed : VibeCoderError :=
  persistenceError "conversation_model_turn_failure_cleanup_failed"

/-- A turn that has seen Stop is cancelled, or says that its marker could not be cleared, and has
    stored no reply; and any turn stores one only after a reading. -/
structure Ends {α : Type} (flag : Flag) (r : Result α) (t : Watched Tree) : Prop where
  stopped : Unstopped t.log ∨
    ((r = .error .cancelled ∨ r = .error cleanupFailed) ∧ Unanswered t.log)
  guarded : Guarded flag t.log

variable {admits : Outside Tree → Prop} {t : Watched Tree} {α : Type}

/-- Before the reply: Stop has not been seen, and no reply has been stored. -/
structure Before (t : Watched Tree) : Prop where
  unstopped : Unstopped t.log
  unanswered : Unanswered t.log

/-- A turn that ends before. -/
theorem Before.ends (h : Before t) (r : Result α) : Ends flag r t :=
  ⟨Or.inl h.unstopped, h.unanswered.guarded⟩

/-- Operations that neither read a flag nor write a conversation. -/
def Still (o : Op) : Prop := isReading o = false ∧ Silent o

theorem Before.next {o : Op} (h : Before t) (ho : Still o) (w : Outside Tree) :
    Before (watch config digest w o t).2 :=
  ⟨forall_snoc h.unstopped (stops_of_not_reading ho.1 _),
    forall_snoc h.unanswered (commitsReply_silent ho.2 _)⟩

/-- What a reading leaves. -/
theorem Before.reading (h : Before t) (config : CoreConfig) (digest : Tree → String) (flag : Flag)
    (w : Outside Tree) :
    (watch config digest w (.isRequested flag) t).1 = .ok ((raise t.core w.stops).flags flag) ∧
      Unanswered (watch config digest w (.isRequested flag) t).2.log ∧
      ((raise t.core w.stops).flags flag = false →
        Before (watch config digest w (.isRequested flag) t).2) := by
  have hunanswered : Unanswered (watch config digest w (.isRequested flag) t).2.log :=
    forall_snoc h.unanswered rfl
  refine ⟨rfl, hunanswered, fun hflag => ⟨forall_snoc h.unstopped ?_, hunanswered⟩⟩
  show Entry.stops ⟨.isRequested flag, .ok ((raise t.core w.stops).flags flag)⟩ = false
  rw [hflag]
  rfl

/-- What is known of the inference: Stop has not been seen, or it is cancelled. -/
def Settled {β : Type} (r : Result β) (t : Watched Tree) : Prop :=
  Before t ∨ (r = .error .cancelled ∧ Unanswered t.log)

/-- The last entry is a reading of the flag. -/
def JustRead (flag : Flag) (t : Watched Tree) : Prop :=
  ∃ answer, t.log.getLast? = some ⟨.isRequested flag, answer⟩

variable {Q : α → Watched Tree → Prop} {E : VibeCoderError → Watched Tree → Prop}
variable {c : PersistedConversation} {p : ProjectId} {id : ConversationId} {prompt : String}

/-- Storing a record that ends with a prompt. -/
theorem Before.update (h : Before t) (hlast : c.roles.getLast? = some .user) (expected : Nat)
    (w : Outside Tree) : Before (watch config digest w (.updateConversation expected c) t).2 :=
  ⟨forall_snoc h.unstopped (stops_of_not_reading rfl _),
    forall_snoc h.unanswered (commitsReply_prompt hlast _)⟩

/-- The update of a turn that has not seen Stop. -/
theorem Before.closes (h : Before t) (hread : JustRead flag t) (expected : Nat) (w : Outside Tree)
    (r : Result α) : Ends flag r (watch config digest w (.updateConversation expected c) t).2 :=
  ⟨Or.inl (forall_snoc h.unstopped (stops_of_not_reading rfl _)),
    h.unanswered.guarded.snoc (fun _ => hread)⟩

theorem Ends.next {r : Result α} {o : Op} (h : Ends flag r t) (ho : Still o) (w : Outside Tree) :
    Ends flag r (watch config digest w o t).2 := by
  have hsilent := commitsReply_silent ho.2 (watch config digest w o t).1
  refine ⟨?_, h.guarded.snoc (fun hcommits => ?_)⟩
  · rcases h.stopped with hunstopped | ⟨hr, hunanswered⟩
    · exact Or.inl (forall_snoc hunstopped (stops_of_not_reading ho.1 _))
    · exact Or.inr ⟨hr, forall_snoc hunanswered hsilent⟩
  · cases hsilent.symm.trans hcommits

end VibeCoder.ModelTurn
