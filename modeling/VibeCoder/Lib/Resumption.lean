/-
  Programs as resumptions: a program either returns, or asks its surroundings to perform one
  operation and goes on with the answer.

  `Proc O A α` is the free monad over operations `o : O` with answers `A o`.  What an operation
  does is not part of the program; an interpreter `exec` gives it a meaning on a state, and the
  outside world enters as one value `w` a step.  Programs that can fail (`Prog`) are `ExceptT` over it.

  * `run`      — run a program alone, one outside answer a step;
  * `run_bind` — a sequence runs its parts one after the other.
-/
import Mathlib.Order.Basic

namespace Resume

universe u v x y

/-- A program over operations `O` with answers `A`. -/
inductive Proc (O : Type u) (A : O → Type v) (α : Type x) : Type (max u v x) where
  | ret (a : α) : Proc O A α
  | call (o : O) (k : A o → Proc O A α) : Proc O A α

namespace Proc

variable {O : Type u} {A : O → Type v} {α : Type x} {β : Type y}

/-- Sequencing. -/
def bind (p : Proc O A α) (f : α → Proc O A β) : Proc O A β :=
  match p with
  | .ret a => f a
  | .call o k => .call o (fun answer => (k answer).bind f)

instance : Monad (Proc O A) where
  pure := Proc.ret
  bind := Proc.bind

/-- Perform one operation. -/
def perform (o : O) : Proc O A (A o) := .call o .ret

@[simp] theorem pure_eq (a : α) : (pure a : Proc O A α) = .ret a := rfl

theorem bind_assoc {γ : Type*} (p : Proc O A α) (f : α → Proc O A β) (g : β → Proc O A γ) :
    (p.bind f).bind g = p.bind (fun a => (f a).bind g) := by
  induction p with
  | ret a => rfl
  | call o k ih =>
    show Proc.call o _ = Proc.call o _
    congr 1
    funext answer
    exact ih answer

/-! ## Running alone -/

/-- Run a program from a state, at step number `n`: the value, the next step number and the
    state it leaves. -/
def run {W σ : Type*} (exec : W → (o : O) → σ → A o × σ) (w : Nat → W) :
    Proc O A α → Nat → σ → α × Nat × σ
  | .ret a, n, s => (a, n, s)
  | .call o k, n, s => run exec w (k (exec (w n) o s).1) (n + 1) (exec (w n) o s).2

variable {W σ : Type*} (exec : W → (o : O) → σ → A o × σ) (w : Nat → W)

/-- A sequence runs its first part, and then the rest from where that stopped. -/
theorem run_bind (p : Proc O A α) (f : α → Proc O A β) (n : Nat) (s : σ) :
    run exec w (p.bind f) n s =
      run exec w (f (run exec w p n s).1) (run exec w p n s).2.1 (run exec w p n s).2.2 := by
  induction p generalizing n s with
  | ret a => rfl
  | call o k ih => exact ih _ (n + 1) _

/-- Steps are counted up. -/
theorem le_run (p : Proc O A α) (n : Nat) (s : σ) : n ≤ (run exec w p n s).2.1 := by
  induction p generalizing n s with
  | ret a => exact Nat.le_refl n
  | call o k ih => exact Nat.le_trans (Nat.le_succ n) (ih _ (n + 1) _)

/-- Two outsides that agree at the steps of a run give the same run. -/
theorem run_congr {w c : Nat → W} (p : Proc O A α) (n : Nat) (s : σ)
    (h : ∀ k, n ≤ k → k < (run exec c p n s).2.1 → w k = c k) :
    run exec w p n s = run exec c p n s := by
  induction p generalizing n s with
  | ret a => rfl
  | call o k ih =>
    have hhere : w n = c n :=
      h n (Nat.le_refl n) (Nat.lt_of_lt_of_le (Nat.lt_succ_self n) (le_run exec c _ (n + 1) _))
    have hrest := ih (exec (c n) o s).1 (n + 1) (exec (c n) o s).2
      (fun m hm hlt => h m (Nat.le_of_succ_le hm) hlt)
    show run exec w (k (exec (w n) o s).1) (n + 1) (exec (w n) o s).2 = _
    rw [hhere]
    exact hrest

/-- Under an outside that is the same at every step, the step number does not matter. -/
theorem run_const (c : W) (p : Proc O A α) (n m : Nat) (s : σ) :
    (run exec (fun _ => c) p n s).1 = (run exec (fun _ => c) p m s).1 ∧
    (run exec (fun _ => c) p n s).2.2 = (run exec (fun _ => c) p m s).2.2 := by
  induction p generalizing n m s with
  | ret a => exact ⟨rfl, rfl⟩
  | call o k ih => exact ih _ (n + 1) (m + 1) _

end Proc

/-! ## Programs that can fail -/

variable {ε : Type v} {O : Type u} {V : O → Type v}

/-- Programs that stop at the first error, over operations whose answers may be errors. -/
abbrev Prog (ε : Type v) (O : Type u) (V : O → Type v) : Type v → Type (max u v) :=
  ExceptT ε (Proc O (fun o => Except ε (V o)))

/-- Perform one operation, and stop if it answers with an error. -/
def attempt (o : O) : Prog ε O V (V o) := ExceptT.mk (Proc.perform o)

/-- Run a part to its result, error or not, and go on with that. -/
def settle {α : Type v} (p : Prog ε O V α) : Prog ε O V (Except ε α) := ExceptT.lift p.run

/-- Go on with a result obtained before. -/
def resume {α : Type v} (r : Except ε α) : Prog ε O V α := ExceptT.mk (.ret r)

/-- Sequences of programs that can fail may be regrouped. -/
theorem prog_bind_assoc {α β γ : Type v} (p : Prog ε O V α) (f : α → Prog ε O V β)
    (g : β → Prog ε O V γ) : (p >>= f) >>= g = p >>= fun a => f a >>= g := by
  refine (Proc.bind_assoc p.run (ExceptT.bindCont f) (ExceptT.bindCont g)).trans ?_
  show Proc.bind p.run _ = Proc.bind p.run _
  congr 1
  funext r
  cases r with
  | ok a => rfl
  | error e => rfl

/-- Run a program that can fail alone. -/
def runAlone {W σ : Type*} (exec : W → (o : O) → σ → Except ε (V o) × σ) (w : Nat → W)
    {α : Type v} (p : Prog ε O V α) (n : Nat) (s : σ) : Except ε α × Nat × σ :=
  p.run.run exec w n s

section

variable {W σ : Type*} (exec : W → (o : O) → σ → Except ε (V o) × σ) (w : Nat → W)
variable {α β : Type v}

/-- A run ends at a later step, or where it began. -/
theorem le_runAlone {p : Prog ε O V α} {n : Nat} {s : σ} {r : Except ε α} {after : Nat × σ}
    (h : runAlone exec w p n s = (r, after)) : n ≤ after.1 := by
  have hle := Proc.le_run exec w p.run n s
  rw [show Proc.run exec w p.run n s = _ from h] at hle
  exact hle

/-- An error ends a sequence where it occurred. -/
theorem runAlone_bind_error {p : Prog ε O V α} (f : α → Prog ε O V β) {n m : Nat} {s t : σ}
    {e : ε} (h : runAlone exec w p n s = (.error e, m, t)) :
    runAlone exec w (p >>= f) n s = (.error e, m, t) := by
  have hrun := Proc.run_bind exec w p.run (ExceptT.bindCont f) n s
  have hp : Proc.run exec w p.run n s = (.error e, m, t) := h
  rw [hp] at hrun
  exact hrun

/-- A value is handed to the rest. -/
theorem runAlone_bind_ok {p : Prog ε O V α} (f : α → Prog ε O V β) {n m : Nat} {s t : σ} {a : α}
    (h : runAlone exec w p n s = (.ok a, m, t)) :
    runAlone exec w (p >>= f) n s = runAlone exec w (f a) m t := by
  have hrun := Proc.run_bind exec w p.run (ExceptT.bindCont f) n s
  have hp : Proc.run exec w p.run n s = (.ok a, m, t) := h
  rw [hp] at hrun
  exact hrun

/-- Parts that end the same way are followed by the same rest. -/
theorem runAlone_bind_run {p q : Prog ε O V α} (f : α → Prog ε O V β) {n m : Nat} {s t : σ}
    (h : runAlone exec w p n s = runAlone exec w q m t) :
    runAlone exec w (p >>= f) n s = runAlone exec w (q >>= f) m t := by
  rcases hq : runAlone exec w q m t with ⟨answer, k, u⟩
  rw [hq] at h
  cases answer with
  | error e => rw [runAlone_bind_error exec w f h, runAlone_bind_error exec w f hq]
  | ok a => rw [runAlone_bind_ok exec w f h, runAlone_bind_ok exec w f hq]

/-- A settled part hands its result to the rest, error or not. -/
theorem runAlone_settle (p : Prog ε O V α) (f : Except ε α → Prog ε O V β) (n : Nat) (s : σ) :
    runAlone exec w (settle p >>= f) n s =
      runAlone exec w (f (runAlone exec w p n s).1) (runAlone exec w p n s).2.1
        (runAlone exec w p n s).2.2 := by
  refine runAlone_bind_ok exec w f ?_
  exact Proc.run_bind exec w p.run _ n s

/-- What performs nothing after a part leaves the state where the part left it. -/
theorem runAlone_bind_silent (p : Prog ε O V α) {f : α → Prog ε O V β}
    (hf : ∀ a m t, (runAlone exec w (f a) m t).2 = (m, t)) (n : Nat) (s : σ) :
    (runAlone exec w (p >>= f) n s).2 = (runAlone exec w p n s).2 := by
  rcases hp : runAlone exec w p n s with ⟨answer, m, t⟩
  cases answer with
  | error e => rw [runAlone_bind_error exec w f hp]
  | ok a => rw [runAlone_bind_ok exec w f hp, hf]

theorem runAlone_settle_silent (p : Prog ε O V α) {f : Except ε α → Prog ε O V β}
    (hf : ∀ r m t, (runAlone exec w (f r) m t).2 = (m, t)) (n : Nat) (s : σ) :
    (runAlone exec w (settle p >>= f) n s).2 = (runAlone exec w p n s).2 := by
  rw [runAlone_settle, hf]

end

end Resume
