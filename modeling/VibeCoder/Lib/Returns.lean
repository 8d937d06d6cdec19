/-
  What a program can return, whatever it is answered within bounds.

  `Gives admits p P` says that every value of `p` has `P` as long as every operation is answered as
  `admits` allows.  There is no state: a fact about the value alone needs none.

  1. **Rules** — one for each way to build a program, and `gives_bind` to go on with what is known.
  2. **In a trace** — `wp_seq_gives`: what a first part gives is known of the rest, in any state.
-/
import VibeCoder.Lib.Trace

namespace Resume

universe u v

variable {O : Type u} {A : O → Type v}

/-- Every value the program returns under such answers has the property. -/
def Proc.Returns {γ : Type*} (admits : (o : O) → A o → Prop) (P : γ → Prop) : Proc O A γ → Prop
  | .ret c => P c
  | .call o k => ∀ answer, admits o answer → (k answer).Returns admits P

section

variable {γ δ : Type*} {admits : (o : O) → A o → Prop} {P : γ → Prop}

theorem Proc.Returns.mono {R : γ → Prop} {p : Proc O A γ} (h : p.Returns admits P)
    (hPR : ∀ c, P c → R c) : p.Returns admits R := by
  induction p with
  | ret c => exact hPR c h
  | call o k ih => exact fun answer hanswer => ih answer (h answer hanswer)

theorem Proc.returns_bind {R : δ → Prop} {p : Proc O A γ} {f : γ → Proc O A δ}
    (hp : p.Returns admits P) (hf : ∀ c, P c → (f c).Returns admits R) :
    (p.bind f).Returns admits R := by
  induction p with
  | ret c => exact hf c hp
  | call o k ih => exact fun answer hanswer => ih answer (hp answer hanswer)

theorem Proc.returns_all (p : Proc O A γ) : p.Returns admits (fun _ => True) := by
  induction p with
  | ret c => trivial
  | call o k ih => exact fun answer _ => ih answer

end

/-! ## Programs that can fail -/

variable {ε : Type v} {V : O → Type v} {α β : Type v}
variable {admits : (o : O) → Except ε (V o) → Prop} {P : α → Prop} {R : β → Prop}

/-- What is known of a result: the property of its value, if it has one. -/
def OnOk (P : α → Prop) (r : Except ε α) : Prop := ∀ a, r = .ok a → P a

theorem onOk_ok {a : α} (h : P a) : OnOk P (.ok a : Except ε α) := by
  rintro b ⟨⟩
  exact h

theorem onOk_error (e : ε) : OnOk P (.error e : Except ε α) := by
  rintro b ⟨⟩

/-- `Returns` for the values of a program that can fail. -/
def Gives (admits : (o : O) → Except ε (V o) → Prop) (p : Prog ε O V α) (P : α → Prop) : Prop :=
  p.run.Returns admits (OnOk P)

theorem gives_all (p : Prog ε O V α) : Gives admits p (fun _ => True) :=
  Proc.Returns.mono (Proc.returns_all p.run) (fun _ _ _ _ => trivial)

theorem gives_pure {a : α} (h : P a) : Gives admits (pure a : Prog ε O V α) P := onOk_ok h

theorem gives_throw (e : ε) : Gives admits (throw e : Prog ε O V α) P := onOk_error e

theorem gives_resume {r : Except ε α} (h : ∀ a, r = .ok a → P a) :
    Gives admits (resume r : Prog ε O V α) P := h

theorem gives_attempt {o : O} {P : V o → Prop} (h : ∀ a, admits o (.ok a) → P a) :
    Gives admits (attempt o : Prog ε O V (V o)) P := by
  rintro answer hanswer a rfl
  exact h a hanswer

theorem gives_bind {p : Prog ε O V β} {f : β → Prog ε O V α} (hp : Gives admits p R)
    (hf : ∀ b, R b → Gives admits (f b) P) : Gives admits (p >>= f) P := by
  refine Proc.returns_bind hp (fun r hr => ?_)
  cases r with
  | ok b => exact hf b (hr b rfl)
  | error e => exact onOk_error e

/-- A sequence of which only the last part matters. -/
theorem gives_then {p : Prog ε O V β} {f : β → Prog ε O V α} (hf : ∀ b, Gives admits (f b) P) :
    Gives admits (p >>= f) P := gives_bind (gives_all p) (fun b _ => hf b)

theorem gives_settle {p : Prog ε O V β} (hp : Gives admits p R) :
    Gives admits (settle p) (OnOk R) :=
  Proc.returns_bind hp (fun _ hr => onOk_ok hr)

theorem Gives.mono {R : α → Prop} {p : Prog ε O V α} (h : Gives admits p P)
    (hPR : ∀ a, P a → R a) : Gives admits p R :=
  Proc.Returns.mono h (fun _ hr a ha => hPR a (hr a ha))

/-! ## In a trace -/

variable {Q : α → Trace O (fun o => Except ε (V o)) → Prop}
variable {trace : Trace O (fun o => Except ε (V o))}

/-- A program against recorded answers of the kind. -/
abbrev RecordedAs (admits : (o : O) → Except ε (V o) → Prop) :
    Setting O (fun o => Except ε (V o)) Unit ((o : O) → Except ε (V o))
      (Trace O (fun o => Except ε (V o))) :=
  RecordedUnder (fun w => ∀ o, admits o (w o))

theorem safe_returns {γ : Type*} {P : γ → Prop} {p : Proc O (fun o => Except ε (V o)) γ}
    (h : p.Returns admits P) : ∀ trace, Safe (RecordedAs admits) () p (fun c _ => P c) trace := by
  induction p with
  | ret c => exact fun _ => h
  | call o k ih => exact fun _ => ⟨trivial, fun w hw _ _ _ => ih (w o) (h (w o) (hw o)) _⟩

/-- What a program gives, in whatever state it runs. -/
theorem wp_gives {p : Prog ε O V α} (h : Gives admits p P) :
    Wp (RecordedAs admits) () p (fun a _ => P a) (fun _ _ => True) trace := by
  refine Safe.mono trivial (safe_returns h trace) (fun r t _ hr => ?_)
  cases r with
  | ok a => exact hr a rfl
  | error e => trivial

/-- **What the first part gives is known of the rest.** -/
theorem wp_seq_gives {p : Prog ε O V β} {f : β → Prog ε O V α} (hp : Gives admits p R)
    (hf : ∀ b t, R b → Wp (RecordedAs admits) () (f b) Q (fun _ _ => True) t) :
    Wp (RecordedAs admits) () (p >>= f) Q (fun _ _ => True) trace :=
  wp_seq trivial (wp_gives hp) (fun b t _ hb => hf b t hb) (fun _ _ _ _ => trivial)

/-- A first part of which nothing is known. -/
theorem wp_after {p : Prog ε O V β} {f : β → Prog ε O V α}
    (hf : ∀ b t, Wp (RecordedAs admits) () (f b) Q (fun _ _ => True) t) :
    Wp (RecordedAs admits) () (p >>= f) Q (fun _ _ => True) trace :=
  wp_seq_gives (gives_all p) (fun b t _ => hf b t)

/-- A program that never returns a value. -/
theorem wp_never {p : Prog ε O V α} (h : Gives admits p (fun _ => False)) :
    Wp (RecordedAs admits) () p Q (fun _ _ => True) trace :=
  Wp.mono trivial (wp_gives h) (fun _ _ _ hfalse => hfalse.elim) (fun _ _ _ _ => trivial)

end Resume
