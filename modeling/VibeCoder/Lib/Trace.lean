/-
  Programs against an outside that may answer anything.

  The state is the trace of what was performed and answered, and the outside world of a step is a
  whole answer function.  What `Wp` proves here holds for every behaviour of the surroundings:

  * `record`, `Recorded` — the interpretation, and the setting of one program in it;
  * `wp_record`   — one operation appends one entry, with an arbitrary answer;
  * `RecordedUnder`, `wp_recordUnder` — the same where some answers are ruled out;
  * `bind_congr_of_safe` — continuations that agree on every value a program can return make
    equal programs.
-/
import VibeCoder.Lib.WeakestPre

namespace Resume

universe u v

variable {O : Type u} {A : O → Type v}

/-- What a program performed, and what it was answered. -/
abbrev Trace (O : Type u) (A : O → Type v) := List ((o : O) × A o)

/-- Perform an operation: whatever the outside answers is written down. -/
def record (w : (o : O) → A o) (o : O) (trace : Trace O A) : A o × Trace O A :=
  (w o, trace ++ [⟨o, w o⟩])

/-- One program alone against arbitrary answers. -/
def Recorded (O : Type u) (A : O → Type v) : Setting O A Unit ((o : O) → A o) (Trace O A) :=
  Setting.solo record (fun _ => True)

variable {ε : Type v} {V : O → Type v} {α : Type v}

/-- One operation: a new entry with an arbitrary answer. -/
theorem wp_record {o : O} {trace : Trace O (fun o => Except ε (V o))}
    {Q : V o → Trace O (fun o => Except ε (V o)) → Prop}
    {E : ε → Trace O (fun o => Except ε (V o)) → Prop}
    (h : ∀ answer : Except ε (V o), Post Q E answer (trace ++ [⟨o, answer⟩])) :
    Wp (Recorded O (fun o => Except ε (V o))) () (attempt o) Q E trace := by
  refine wp_attempt trivial (fun w _ t hrely _ => ?_)
  have ht : trace ++ [⟨o, w o⟩] = t := hrely
  rw [← ht]
  exact h (w o)

/-- One program alone against answers of some kind. -/
def RecordedUnder (admits : ((o : O) → A o) → Prop) :
    Setting O A Unit ((o : O) → A o) (Trace O A) :=
  Setting.solo record admits

theorem wp_recordUnder {admits : ((o : O) → Except ε (V o)) → Prop} {o : O}
    {trace : Trace O (fun o => Except ε (V o))}
    {Q : V o → Trace O (fun o => Except ε (V o)) → Prop}
    {E : ε → Trace O (fun o => Except ε (V o)) → Prop}
    (h : ∀ w, admits w → Post Q E (w o) (trace ++ [⟨o, w o⟩])) :
    Wp (RecordedUnder admits) () (attempt o) Q E trace := by
  refine wp_attempt trivial (fun w hw t hrely _ => ?_)
  have ht : trace ++ [⟨o, w o⟩] = t := hrely
  rw [← ht]
  exact h w hw

/-- Continuations that agree wherever the first part can return make equal programs. -/
theorem bind_congr_of_safe [DecidableEq O] {γ δ : Type*} (answers : (o : O) → A o)
    {p : Proc O A γ} {Q : γ → Trace O A → Prop} {f g : γ → Proc O A δ}
    (hfg : ∀ c t, Q c t → f c = g c) :
    ∀ {trace : Trace O A}, Safe (Recorded O A) () p Q trace → p.bind f = p.bind g := by
  induction p with
  | ret c => exact fun h => hfg c _ h
  | call o k ih =>
    intro trace h
    have hk : ∀ answer, (k answer).bind f = (k answer).bind g := by
      intro answer
      -- an outside that gives just this answer
      have hsafe := h.2 (Function.update answers o answer) trivial _ rfl trivial
      change Safe _ () (k (Function.update answers o answer o)) Q _ at hsafe
      rw [Function.update_self] at hsafe
      exact ih answer hsafe
    exact congrArg (Proc.call o) (funext hk)

end Resume
