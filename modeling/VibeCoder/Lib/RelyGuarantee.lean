/-
  Rely/guarantee reasoning for resumptions that share a state.

  A `Setting` fixes what an operation does for the thread that performs it (`exec`), which outside
  answers are considered (`admits`), a global invariant, the condition each thread promises to
  meet before each of its operations (`allowed`), and what a thread may rely on while others run
  (`rely`).  Its laws say that allowed operations keep the invariant and stay within what the
  others rely on.

  * `Safe S i p Q s`  — from `s`, thread `i` running `p` only performs allowed operations, and
    returns with `Q`, whatever the others do in between;
  * `safe_op`, `safe_bind`, `Safe.mono` — the rules: one operation, a sequence, a weaker
    postcondition;
  * `Pool`            — many threads over one state, one operation a step, and threads that are
    dropped at an operation that suspends them;
  * `Good.next`       — a pool of safe threads stays one, so that along every run each operation
    performed is allowed and each returned value satisfies its postcondition.

  A setting whose `rely` is equality (`Setting.solo`) gives plain reasoning about one program run
  alone (`safe_run`).
-/
import Mathlib.Logic.Function.Basic
import VibeCoder.Lib.Resumption
import VibeCoder.Lib.Run

namespace Resume

universe u v x y z

/-- The shared state, its operations, and the contract between the threads. -/
structure Setting (O : Type u) (A : O → Type v) (ι : Type x) (W : Type y) (σ : Type z) where
  exec : ι → W → (o : O) → σ → A o × σ
  admits : W → Prop
  inv : σ → Prop
  allowed : ι → O → σ → Prop
  rely : ι → σ → σ → Prop
  rely_refl : ∀ i s, rely i s s
  rely_trans : ∀ {i s t r}, rely i s t → rely i t r → rely i s r
  inv_step : ∀ {i w o s}, admits w → inv s → allowed i o s → inv (exec i w o s).2
  rely_step : ∀ {i j w o s}, i ≠ j → admits w → inv s → allowed j o s → rely i s (exec j w o s).2

variable {O : Type u} {A : O → Type v} {ι : Type x} {W : Type y} {σ : Type z}

namespace Setting

/-- One program alone: nothing else runs, and every operation is allowed. -/
def solo (exec : W → (o : O) → σ → A o × σ) (admits : W → Prop) : Setting O A Unit W σ where
  exec := fun _ => exec
  admits := admits
  inv := fun _ => True
  allowed := fun _ _ _ => True
  rely := fun _ s t => s = t
  rely_refl := fun _ _ => rfl
  rely_trans := fun h₁ h₂ => h₁.trans h₂
  inv_step := fun _ _ _ => trivial
  rely_step := fun hne _ _ _ => absurd rfl hne

end Setting

variable {α β γ : Type*} (S : Setting O A ι W σ) (i : ι)

/-- Thread `i`, about to run `p` in state `s`, performs only allowed operations and returns with
    `Q`, whatever the other threads do within its rely. -/
def Safe : Proc O A α → (α → σ → Prop) → σ → Prop
  | .ret a, Q, s => Q a s
  | .call o k, Q, s =>
    S.allowed i o s ∧ ∀ w, S.admits w → ∀ t, S.rely i (S.exec i w o s).2 t → S.inv t →
      Safe (k (S.exec i w o s).1) Q t

variable {S i}

theorem safe_ret {a : α} {Q : α → σ → Prop} {s : σ} (h : Q a s) :
    Safe S i (.ret a) Q s := h

/-- One operation. -/
theorem safe_op {o : O} {Q : A o → σ → Prop} {s : σ} (hallowed : S.allowed i o s)
    (h : ∀ w, S.admits w → ∀ t, S.rely i (S.exec i w o s).2 t → S.inv t →
      Q (S.exec i w o s).1 t) :
    Safe S i (Proc.perform o) Q s := ⟨hallowed, h⟩

/-- A weaker postcondition, on states that satisfy the invariant. -/
theorem Safe.mono {p : Proc O A α} {Q R : α → σ → Prop} :
    ∀ {s : σ}, S.inv s → Safe S i p Q s → (∀ a t, S.inv t → Q a t → R a t) → Safe S i p R s := by
  induction p with
  | ret a => exact fun hinv h hQR => hQR a _ hinv h
  | call o k ih =>
    intro s _ h hQR
    exact ⟨h.1, fun w hw t hrely hinv => ih _ hinv (h.2 w hw t hrely hinv) hQR⟩

/-- A sequence: the first part establishes what the second one starts from. -/
theorem safe_bind {p : Proc O A α} {f : α → Proc O A β} {Q : β → σ → Prop} :
    ∀ {s : σ}, Safe S i p (fun a t => Safe S i (f a) Q t) s → Safe S i (p.bind f) Q s := by
  induction p with
  | ret a => exact fun h => h
  | call o k ih =>
    intro s h
    exact ⟨h.1, fun w hw t hrely hinv => ih _ (h.2 w hw t hrely hinv)⟩

/-- Both postconditions of a safe program hold together. -/
theorem Safe.and {p : Proc O A α} {Q R : α → σ → Prop} :
    ∀ {s : σ}, Safe S i p Q s → Safe S i p R s → Safe S i p (fun a t => Q a t ∧ R a t) s := by
  induction p with
  | ret a => exact fun hQ hR => ⟨hQ, hR⟩
  | call o k ih =>
    intro s hQ hR
    exact ⟨hQ.1, fun w hw t hrely hinv =>
      ih _ (hQ.2 w hw t hrely hinv) (hR.2 w hw t hrely hinv)⟩

/-! ## Running alone -/

/-- What a safe program establishes when it runs alone under admitted outside answers. -/
theorem safe_run {exec : W → (o : O) → σ → A o × σ} {admits : W → Prop} {w : Nat → W}
    (hw : ∀ n, admits (w n)) {p : Proc O A α} {Q : α → σ → Prop} :
    ∀ {n : Nat} {s : σ}, Safe (Setting.solo exec admits) () p Q s →
      Q (p.run exec w n s).1 (p.run exec w n s).2.2 := by
  induction p with
  | ret a => exact fun h => h
  | call o k ih => exact fun h => ih _ (h.2 _ (hw _) _ rfl trivial)

/-! ## Many threads -/

/-- The threads of a system and their shared state; a dropped thread is gone. -/
structure Pool (O : Type u) (A : O → Type v) (ι : Type x) (σ : Type z) (β : Type*) where
  threads : ι → Option (Proc O A β)
  state : σ

/-- A thread performs its next operation under one outside answer, or is dropped. -/
inductive Event (ι : Type x) (W : Type y) where
  | step (i : ι) (w : W)
  | drop (i : ι)

/-- What dropping a thread does: `suspends o` says that a thread waiting for `o` can be dropped,
    and `abandon` is the effect on the shared state. -/
structure Dropping (S : Setting O A ι W σ) where
  suspends : O → Bool
  abandon : ι → σ → σ
  inv_abandon : ∀ {i o s}, suspends o = true → S.inv s → S.allowed i o s → S.inv (abandon i s)
  rely_abandon : ∀ {i j o s}, i ≠ j → suspends o = true → S.inv s → S.allowed j o s →
    S.rely i s (abandon j s)

/-- A pool of safe threads: each of them will stay safe wherever the others take the state. -/
structure Good (S : Setting O A ι W σ) (Q : ι → β → σ → Prop) (c : Pool O A ι σ β) : Prop where
  inv : S.inv c.state
  safe : ∀ i p, c.threads i = some p → ∀ t, S.rely i c.state t → S.inv t → Safe S i p (Q i) t

/-- The operation a thread of a good pool is about to perform is allowed. -/
theorem Good.allowed {Q : ι → β → σ → Prop} {c : Pool O A ι σ β} (h : Good S Q c)
    {i : ι} {o : O} {k : A o → Proc O A β} (hi : c.threads i = some (.call o k)) :
    S.allowed i o c.state :=
  (h.safe i _ hi c.state (S.rely_refl i _) h.inv).1

/-- A value returned in a good pool satisfies its postcondition. -/
theorem Good.post {Q : ι → β → σ → Prop} {c : Pool O A ι σ β} (h : Good S Q c)
    {i : ι} {b : β} (hi : c.threads i = some (.ret b)) : Q i b c.state :=
  h.safe i _ hi c.state (S.rely_refl i _) h.inv

section

variable [DecidableEq ι] (D : Dropping S)

/-- One event.  A thread that has returned or is gone takes no step, and a thread is dropped only
    while it is suspended. -/
def Pool.next (c : Pool O A ι σ β) : Event ι W → Pool O A ι σ β
  | .step i w =>
    match c.threads i with
    | some (.call o k) =>
      { threads := Function.update c.threads i (some (k (S.exec i w o c.state).1))
        state := (S.exec i w o c.state).2 }
    | _ => c
  | .drop i =>
    match c.threads i with
    | some (.call o _) =>
      if D.suspends o then
        { threads := Function.update c.threads i none
          state := D.abandon i c.state }
      else c
    | _ => c

variable {D}

/-- **Soundness.**  An event with an admitted outside answer keeps a pool good. -/
theorem Good.next {Q : ι → β → σ → Prop} {c : Pool O A ι σ β} (h : Good S Q c)
    {e : Event ι W} (hadm : ∀ i w, e = .step i w → S.admits w) :
    Good S Q (Pool.next D c e) := by
  cases e with
  | step i w =>
    rcases hi : c.threads i with _ | p
    · rw [Pool.next, hi]; exact h
    · cases p with
      | ret b => rw [Pool.next, hi]; exact h
      | call o k =>
        have hallowed := h.allowed hi
        have hw : S.admits w := hadm i w rfl
        have hinv := S.inv_step hw h.inv hallowed
        rw [Pool.next, hi]
        refine ⟨hinv, fun j q hj t hrely ht => ?_⟩
        dsimp only at hj hrely
        by_cases hij : j = i
        · subst hij
          rw [Function.update_self] at hj
          cases hj
          exact (h.safe j _ hi c.state (S.rely_refl j _) h.inv).2 w hw t hrely ht
        · rw [Function.update_of_ne hij] at hj
          exact h.safe j q hj t
            (S.rely_trans (S.rely_step hij hw h.inv hallowed) hrely) ht
  | drop i =>
    rcases hi : c.threads i with _ | p
    · rw [Pool.next, hi]; exact h
    · cases p with
      | ret b => rw [Pool.next, hi]; exact h
      | call o k =>
        rw [Pool.next, hi]
        dsimp only
        by_cases hsus : D.suspends o = true
        · rw [if_pos hsus]
          have hallowed := h.allowed hi
          refine ⟨D.inv_abandon hsus h.inv hallowed, fun j q hj t hrely ht => ?_⟩
          dsimp only at hj hrely
          by_cases hij : j = i
          · subst hij
            rw [Function.update_self] at hj
            cases hj
          · rw [Function.update_of_ne hij] at hj
            exact h.safe j q hj t
              (S.rely_trans (D.rely_abandon hij hsus h.inv hallowed) hrely) ht
        · rw [if_neg hsus]
          exact h

end

end Resume
