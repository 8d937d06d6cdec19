/-
  Runs of a deterministic event system.

  A system is a step function `step : σ → ε → σ`; a run plays a list of events from a start
  state.  Everything a safety argument needs is stated once here:

  * `play_invariant`   — what every step preserves holds after every run;
  * `Disciplined`      — a run all of whose steps meet a condition on (state before, event);
  * `play_disciplined` — what every disciplined step preserves holds after a disciplined run;
  * `Always`, `always_invariant` — a property of every state of a run;
  * `always_iff_disciplined` — the discipline that is exactly what such a property takes.

  Nothing here mentions a particular system.
-/
import Mathlib.Data.List.Basic
import Mathlib.Order.Basic

namespace Runs

variable {σ ε : Type*} (step : σ → ε → σ)

/-- Play a list of events, first event first. -/
def play (s : σ) : List ε → σ
  | [] => s
  | e :: es => play (step s e) es

@[simp] theorem play_nil (s : σ) : play step s [] = s := rfl

@[simp] theorem play_cons (s : σ) (e : ε) (es : List ε) :
    play step s (e :: es) = play step (step s e) es := rfl

theorem play_append (s : σ) (es fs : List ε) :
    play step s (es ++ fs) = play step (play step s es) fs := by
  induction es generalizing s with
  | nil => rfl
  | cons e es ih => exact ih (step s e)

/-- **Invariant rule.**  What one step preserves, a whole run preserves. -/
theorem play_invariant {I : σ → Prop} (hstep : ∀ s e, I s → I (step s e))
    {s : σ} (h : I s) (es : List ε) : I (play step s es) := by
  induction es generalizing s with
  | nil => exact h
  | cons e es ih => exact ih (hstep s e h)

/-- Every event of the run meets `ok` in the state in which it is taken. -/
def Disciplined (ok : σ → ε → Prop) (s : σ) : List ε → Prop
  | [] => True
  | e :: es => ok s e ∧ Disciplined ok (step s e) es

instance decidableDisciplined (ok : σ → ε → Prop) [∀ s e, Decidable (ok s e)] :
    (s : σ) → (es : List ε) → Decidable (Disciplined step ok s es)
  | _, [] => .isTrue trivial
  | s, e :: es =>
    have := decidableDisciplined ok (step s e) es
    inferInstanceAs (Decidable (ok s e ∧ Disciplined step ok (step s e) es))

/-- **Invariant rule, under a discipline.** -/
theorem play_disciplined {ok : σ → ε → Prop} {I : σ → Prop}
    (hstep : ∀ s e, I s → ok s e → I (step s e))
    {s : σ} (h : I s) {es : List ε} (hok : Disciplined step ok s es) :
    I (play step s es) := by
  induction es generalizing s with
  | nil => exact h
  | cons e es ih => exact ih (hstep s e h hok.1) hok.2

/-- The property holds in every state a run passes through. -/
def Always (P : σ → Prop) (s : σ) : List ε → Prop
  | [] => P s
  | e :: es => P s ∧ Always P (step s e) es

theorem Always.here {P : σ → Prop} {s : σ} {es : List ε} (h : Always step P s es) : P s := by
  cases es with
  | nil => exact h
  | cons e es => exact h.1

theorem Always.last {P : σ → Prop} {s : σ} {es : List ε} (h : Always step P s es) :
    P (play step s es) := by
  induction es generalizing s with
  | nil => exact h
  | cons e es ih => exact ih h.2

/-- `Always` is about the states after each beginning of the run. -/
theorem always_iff_take {P : σ → Prop} {s : σ} {es : List ε} :
    Always step P s es ↔ ∀ n, P (play step s (es.take n)) := by
  induction es generalizing s with
  | nil =>
    refine ⟨fun h n => ?_, fun h => h 0⟩
    rw [List.take_nil]
    exact h
  | cons e es ih =>
    refine ⟨fun h n => ?_, fun h => ⟨h 0, ih.mpr fun n => h (n + 1)⟩⟩
    cases n with
    | zero => exact h.1
    | succ n => exact ih.mp h.2 n

/-- What every step preserves holds all along a run. -/
theorem always_invariant {I P : σ → Prop} (hstep : ∀ s e, I s → I (step s e))
    (hP : ∀ s, I s → P s) {s : σ} (h : I s) (es : List ε) : Always step P s es := by
  induction es generalizing s with
  | nil => exact hP s h
  | cons e es ih => exact ⟨hP s h, ih (hstep s e h)⟩

/-- What every disciplined step preserves holds all along a disciplined run. -/
theorem always_disciplined {ok : σ → ε → Prop} {I P : σ → Prop}
    (hstep : ∀ s e, I s → ok s e → I (step s e)) (hP : ∀ s, I s → P s)
    {s : σ} (h : I s) {es : List ε} (hok : Disciplined step ok s es) :
    Always step P s es := by
  induction es generalizing s with
  | nil => exact hP s h
  | cons e es ih => exact ⟨hP s h, ih (hstep s e h hok.1) hok.2⟩

/-- **Exact discipline.**  When a disciplined step keeps the invariant, and any other step from
    it breaks the property, the property holds all along just the disciplined runs. -/
theorem always_iff_disciplined {ok : σ → ε → Prop} {I P : σ → Prop}
    (hstep : ∀ s e, I s → ok s e → I (step s e)) (hP : ∀ s, I s → P s)
    (hbreak : ∀ s e, I s → ¬ ok s e → ¬ P (step s e))
    {s : σ} (h : I s) (es : List ε) :
    Always step P s es ↔ Disciplined step ok s es := by
  refine ⟨fun halways => ?_, always_disciplined step hstep hP h⟩
  induction es generalizing s with
  | nil => trivial
  | cons e es ih =>
    have hok : ok s e := by
      by_contra hnot
      exact hbreak s e h hnot halways.2.here
    exact ⟨hok, ih (hstep s e h hok) halways.2⟩

/-- A quantity that no step decreases does not decrease along a run. -/
theorem play_mono {f : σ → Nat} (hstep : ∀ s e, f s ≤ f (step s e)) (s : σ) (es : List ε) :
    f s ≤ f (play step s es) :=
  play_invariant step (I := fun t => f s ≤ f t)
    (fun t e ht => Nat.le_trans ht (hstep t e)) (Nat.le_refl _) es

/-- When a quantity is unchanged over a whole run and never decreases, every intermediate step
    left it unchanged: the invariant rule may assume so. -/
theorem play_invariant_const {f : σ → Nat} (hmono : ∀ s e, f s ≤ f (step s e))
    {I : σ → Prop} (hstep : ∀ s e, I s → f (step s e) = f s → I (step s e))
    {s : σ} (h : I s) (es : List ε) (hconst : f (play step s es) = f s) :
    I (play step s es) := by
  induction es generalizing s with
  | nil => exact h
  | cons e es ih =>
    have hle : f s ≤ f (step s e) := hmono s e
    have hrest : f (step s e) ≤ f (play step (step s e) es) := play_mono step hmono _ es
    rw [play_cons] at hconst ⊢
    have hhere : f (step s e) = f s := by omega
    exact ih (hstep s e h hhere) (hconst.trans hhere.symm)

end Runs
