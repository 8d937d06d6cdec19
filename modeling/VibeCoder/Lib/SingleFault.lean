/-
  Runs in which at most one operation fails.

  That a fault has been is not something the state of a program knows.  `spending` keeps it beside
  the state: a fault is let through once, and every later operation has the outside without it
  (`calm`).  Under this meaning an error says that the fault is gone, so that what cleans up after it
  can be proved to succeed.

  1. **`SingleFault`** — at most one outside answer of a run is a fault.
  2. **`spending`** — the operations on a state and a mark, set when the fault has been.
  3. **`run_spending`** — a run with a single fault is the run of `spending`, its mark forgotten.
-/
import VibeCoder.Lib.WeakestPre

namespace Resume

universe u v x y

variable {O : Type u} {A : O → Type v} {α : Type x} {W : Type y} {σ : Type*}

/-- At most one outside answer is a fault. -/
def SingleFault (F : W → Bool) (w : Nat → W) : Prop :=
  ∀ m n, F (w m) = true → F (w n) = true → m = n

/-- The outside that comes to pass: after the fault there is none. -/
def afterFault (F : W → Bool) (calm : W → W) (spent : Bool) (v : W) : W :=
  if F v && spent then calm v else v

/-- The operations on a state and a mark that the fault has been. -/
def spending (F : W → Bool) (calm : W → W) (exec : W → (o : O) → σ → A o × σ) (v : W) (o : O)
    (s : σ × Bool) : A o × (σ × Bool) :=
  ((exec (afterFault F calm s.2 v) o s.1).1,
    ((exec (afterFault F calm s.2 v) o s.1).2, s.2 || F v))

variable {F : W → Bool} {calm : W → W} {exec : W → (o : O) → σ → A o × σ} {w : Nat → W}

/-- The mark is set only where a fault has been. -/
def Spent (F : W → Bool) (w : Nat → W) (n : Nat) (spent : Bool) : Prop :=
  spent = true → ∃ m, m < n ∧ F (w m) = true

theorem Spent.next {n : Nat} {spent : Bool} (h : Spent F w n spent) :
    Spent F w (n + 1) (spent || F (w n)) := by
  intro hmark
  rw [Bool.or_eq_true] at hmark
  rcases hmark with hspent | hhere
  · obtain ⟨m, hm, hfault⟩ := h hspent
    exact ⟨m, by omega, hfault⟩
  · exact ⟨n, by omega, hhere⟩

/-- A single fault does not come twice. -/
theorem Spent.outside {n : Nat} {spent : Bool} (hsingle : SingleFault F w)
    (h : Spent F w n spent) : afterFault F calm spent (w n) = w n := by
  unfold afterFault
  rw [if_neg]
  intro hboth
  rw [Bool.and_eq_true] at hboth
  obtain ⟨m, hm, hfault⟩ := h hboth.2
  have hsame := hsingle m n hfault hboth.1
  omega

/-- **One fault.**  The mark changes nothing a program sees. -/
theorem run_spending (hsingle : SingleFault F w) (p : Proc O A α) (n : Nat) (s : σ)
    (spent : Bool) (h : Spent F w n spent) :
    p.run exec w n s =
      ((p.run (spending F calm exec) w n (s, spent)).1,
        (p.run (spending F calm exec) w n (s, spent)).2.1,
        (p.run (spending F calm exec) w n (s, spent)).2.2.1) := by
  induction p generalizing n s spent with
  | ret a => rfl
  | call o k ih =>
    have houtside : afterFault F calm spent (w n) = w n := h.outside hsingle
    have hstep : spending F calm exec (w n) o (s, spent) =
        ((exec (w n) o s).1, ((exec (w n) o s).2, spent || F (w n))) := by
      unfold spending
      simp only [houtside]
    have hrest := ih (exec (w n) o s).1 (n + 1) (exec (w n) o s).2 (spent || F (w n)) h.next
    simp only [Proc.run, hstep]
    exact hrest

variable {ε : Type v} {V : O → Type v} {β : Type v}

/-- What a program establishes in a run with at most one fault: after an error that only a fault
    can cause, the mark is set. -/
theorem wp_single {exec : W → (o : O) → σ → Except ε (V o) × σ} {admits : W → Prop}
    (hadmits : ∀ n, admits (w n)) (hsingle : SingleFault F w) {p : Prog ε O V β}
    {Q : β → σ × Bool → Prop} {E : ε → σ × Bool → Prop} {s : σ}
    (h : Wp (Setting.solo (spending F calm exec) admits) () p Q E (s, false)) :
    ∃ spent, Post Q E (runAlone exec w p 0 s).1 ((runAlone exec w p 0 s).2.2, spent) := by
  have hpost := wp_run (w := w) (n := 0) hadmits h
  have hrun : runAlone exec w p 0 s =
      ((runAlone (spending F calm exec) w p 0 (s, false)).1,
        (runAlone (spending F calm exec) w p 0 (s, false)).2.1,
        (runAlone (spending F calm exec) w p 0 (s, false)).2.2.1) :=
    run_spending hsingle p.run 0 s false (fun hfalse => absurd hfalse Bool.false_ne_true)
  rw [hrun]
  exact ⟨_, hpost⟩

end Resume
