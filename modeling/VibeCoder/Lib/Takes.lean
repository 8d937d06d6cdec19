/-
  Programs that end after a known number of operations, where every step has the same outside.

  * `Takes`         — a program ends with a result and a state, after `n` operations;
  * `Takes.then`    — sequences add their numbers up, and an error ends one where it occurs;
  * `Takes.reach`   — a run with that many steps left is not cut off;
  * `Cut`           — a program is cut off after `n` operations: in the first part of a sequence, or in
                      the rest of it once the first part has ended.
-/
import VibeCoder.Lib.Crash

namespace Resume

universe u v

variable {ε : Type v} {O : Type u} {V : O → Type v} {W σ : Type*}
variable {exec : W → (o : O) → σ → Except ε (V o) × σ} {c : W} {α β : Type v}

/-- Wherever it starts, a program ends with this result and in this state, after `n` operations. -/
def Takes (exec : W → (o : O) → σ → Except ε (V o) × σ) (c : W) (n : Nat) (p : Prog ε O V α)
    (s : σ) (r : Except ε α) (t : σ) : Prop :=
  ∀ k, runAlone exec (fun _ => c) p k s = (r, k + n, t)

variable {n m : Nat} {s t u : σ} {p : Prog ε O V α} {f : α → Prog ε O V β}

theorem Takes.count {r : Except ε α} (h : Takes exec c n p s r t) (heq : n = m) :
    Takes exec c m p s r t :=
  heq ▸ h

theorem takes_pure (a : α) : Takes exec c 0 (pure a) s (.ok a) s := fun _ => rfl

theorem takes_resume {r r' : Except ε α} (h : r = r') : Takes exec c 0 (resume r) s r' s := by
  intro k
  rw [← h]
  rfl

/-- One operation. -/
theorem takes_attempt {o : O} {r : Except ε (V o)} (h : exec c o s = (r, t)) :
    Takes exec c 1 (attempt o) s r t := by
  intro k
  show ((exec c o s).1, k + 1, (exec c o s).2) = _
  rw [h]

/-- A value is handed to the rest. -/
theorem Takes.then {a : α} {r : Except ε β} (h : Takes exec c n p s (.ok a) t)
    (hf : Takes exec c m (f a) t r u) : Takes exec c (n + m) (p >>= f) s r u := by
  intro k
  rw [runAlone_bind_ok exec _ f (h k), hf (k + n), Nat.add_assoc]

/-- An error ends a sequence. -/
theorem Takes.stop {e : ε} (h : Takes exec c n p s (.error e) t) :
    Takes exec c n (p >>= f) s (.error e) t :=
  fun k => runAlone_bind_error exec _ f (h k)

/-- A part that is settled. -/
theorem Takes.settle {r : Except ε α} (h : Takes exec c n p s r t) :
    Takes exec c n (settle p) s (.ok r) t := by
  intro k
  have hrun := Proc.run_bind exec (fun _ => c) p.run (fun a => .ret (Except.ok (ε := ε) a)) k s
  rw [show Proc.run exec (fun _ => c) p.run k s = (r, k + n, t) from h k] at hrun
  exact hrun

/-- A run that ends in time is not cut off. -/
theorem Proc.reach_of_run {A : O → Type*} {α : Type*} {exec : W → (o : O) → σ → A o × σ}
    {w : Nat → W} {limit : Nat} (p : Proc O A α) :
    ∀ {n : Nat} {s : σ}, (p.run exec w n s).2.1 ≤ limit →
      p.reach exec w limit n s =
        (some ((p.run exec w n s).1, (p.run exec w n s).2.1), (p.run exec w n s).2.2) := by
  induction p with
  | ret a => exact fun _ => rfl
  | call o p ih =>
    intro n s h
    have hnext := Proc.le_run exec w (p (exec (w n) o s).1) (n + 1) (exec (w n) o s).2
    have hlt : n < limit := Nat.lt_of_lt_of_le hnext h
    rw [Proc.reach, if_pos hlt]
    exact ih _ h

theorem Takes.reach {limit k : Nat} {r : Except ε α} (h : Takes exec c n p s r t)
    (hlimit : k + n ≤ limit) :
    reach exec (fun _ => c) limit p k s = (some (r, k + n), t) := by
  have hp : Proc.run exec (fun _ => c) p.run k s = (r, k + n, t) := h k
  have hle : (Proc.run exec (fun _ => c) p.run k s).2.1 ≤ limit := by
    rw [hp]
    exact hlimit
  have hreach := Proc.reach_of_run p.run hle
  rw [hp] at hreach
  exact hreach

/-! ## Cut off -/

/-- A program that is stopped after `n` operations has not ended, and this is the state. -/
def Cut (exec : W → (o : O) → σ → Except ε (V o) × σ) (c : W) (n : Nat) (p : Prog ε O V α) (s t : σ) :
    Prop :=
  ∀ k, reach exec (fun _ => c) (k + n) p k s = (none, t)

theorem Cut.count (h : Cut exec c n p s t) (heq : n = m) : Cut exec c m p s t :=
  heq ▸ h

theorem cut_attempt {o : O} : Cut exec c 0 (attempt (ε := ε) (V := V) o) s s := by
  intro k
  exact if_neg (Nat.lt_irrefl k)

/-- In the first part of a sequence. -/
theorem Cut.first (h : Cut exec c n p s t) : Cut exec c n (p >>= f) s t := by
  intro k
  have hbind : (p.run.bind (ExceptT.bindCont f)).reach exec (fun _ => c) (k + n) k s = _ :=
    Proc.reach_bind p.run (ExceptT.bindCont f) k s
  rw [show p.run.reach exec (fun _ => c) (k + n) k s = (none, t) from h k] at hbind
  exact hbind

/-- In the rest of a sequence. -/
theorem Takes.cut {a : α} (h : Takes exec c n p s (.ok a) t) (hf : Cut exec c m (f a) t u) :
    Cut exec c (n + m) (p >>= f) s u := by
  intro k
  have hbind : (p.run.bind (ExceptT.bindCont f)).reach exec (fun _ => c) (k + (n + m)) k s = _ :=
    Proc.reach_bind p.run (ExceptT.bindCont f) k s
  have hfirst : p.run.reach exec (fun _ => c) (k + (n + m)) k s = (some (.ok a, k + n), t) :=
    h.reach (by omega)
  rw [hfirst] at hbind
  have hrest := hf (k + n)
  rw [Nat.add_assoc] at hrest
  exact hbind.trans hrest

theorem Cut.settle (h : Cut exec c n p s t) : Cut exec c n (settle p) s t := by
  intro k
  have hbind : (p.run.bind (fun a => .ret (Except.ok (ε := ε) a))).reach exec (fun _ => c) (k + n) k s =
      _ := Proc.reach_bind p.run _ k s
  rw [show p.run.reach exec (fun _ => c) (k + n) k s = (none, t) from h k] at hbind
  exact hbind

end Resume
