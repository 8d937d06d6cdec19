/-
  Weakest preconditions for programs that can fail.

  `Wp T i p Q E s` says that thread `i` may run `p` from `s` in the setting `T`: it performs only
  allowed operations, returns a value with `Q`, and fails with `E`.  It is `Safe` with the
  postcondition split in two, so that a sequence hands only the normal exit on:

  * `wp_bind`, `wp_attempt`, `wp_settle`, `wp_resume` — one rule for each way to build a program,
    and `wp_seq` for a sequence whose first part is proved on its own;
  * `Only P p`  — every operation `p` can perform satisfies `P`;
  * `wp_only`   — what such operations preserve, the program preserves (the frame rule);
  * `wp_run`    — what a program establishes when it runs alone;
  * `runAlone_bind_congr` — two programs that go on differently only where a run never gets.
-/
import VibeCoder.Lib.RelyGuarantee

namespace Resume

universe u v x y z

variable {ε : Type v} {O : Type u} {V : O → Type v} {ι : Type x} {W : Type y} {σ : Type z}
variable {α β : Type v}

/-- The two postconditions as one. -/
def Post (Q : α → σ → Prop) (E : ε → σ → Prop) : Except ε α → σ → Prop
  | .ok a, s => Q a s
  | .error e, s => E e s

/-- The same assertion on both exits. -/
theorem Post.both {J : σ → Prop} {r : Except ε α} {t : σ}
    (h : Post (fun _ => J) (fun _ => J) r t) : J t := by
  cases r with
  | ok a => exact h
  | error e => exact h

/-- An assertion on the answer, exit by exit. -/
theorem Post.each {R : Except ε α → σ → Prop} {r : Except ε α} {t : σ}
    (h : Post (fun a => R (.ok a)) (fun e => R (.error e)) r t) : R r t := by
  cases r with
  | ok a => exact h
  | error e => exact h

/-- From `s`, thread `i` runs `p` with allowed operations only, to `Q` or to the error `E`. -/
def Wp (T : Setting O (fun o => Except ε (V o)) ι W σ) (i : ι) (p : Prog ε O V α)
    (Q : α → σ → Prop) (E : ε → σ → Prop) (s : σ) : Prop :=
  Safe T i p.run (Post Q E) s

variable {T : Setting O (fun o => Except ε (V o)) ι W σ} {i : ι}
variable {Q : α → σ → Prop} {E : ε → σ → Prop} {s : σ}

theorem wp_pure {a : α} (h : Q a s) : Wp T i (pure a) Q E s := h

theorem wp_throw {e : ε} (h : E e s) : Wp T i (throw e : Prog ε O V α) Q E s := h

theorem wp_resume {r : Except ε α} (h : Post Q E r s) : Wp T i (resume r) Q E s := h

/-- A sequence: an error of the first part is an error of the whole. -/
theorem wp_bind {p : Prog ε O V β} {f : β → Prog ε O V α}
    (h : Wp T i p (fun b t => Wp T i (f b) Q E t) E s) : Wp T i (p >>= f) Q E s := by
  -- the continuation of a bind in `ExceptT` is exactly the two cases
  have hcont : (fun r t => Safe T i
        (ExceptT.bindCont (m := Proc O (fun o => Except ε (V o))) f r) (Post Q E) t) =
      Post (fun b t => Wp T i (f b) Q E t) E := by
    funext r t
    cases r with
    | ok b => rfl
    | error e => rfl
  refine safe_bind (p := p.run) ?_
  rw [hcont]
  exact h

/-- One operation. -/
theorem wp_attempt {o : O} {Q : V o → σ → Prop} (hallowed : T.allowed i o s)
    (h : ∀ w, T.admits w → ∀ t, T.rely i (T.exec i w o s).2 t → T.inv t →
      Post Q E (T.exec i w o s).1 t) :
    Wp T i (attempt o) Q E s := ⟨hallowed, h⟩

/-- A part run to its result, after which both exits go on together. -/
theorem wp_settle {p : Prog ε O V β} {Q : Except ε β → σ → Prop}
    (h : Wp T i p (fun b => Q (.ok b)) (fun e => Q (.error e)) s) :
    Wp T i (settle p) Q E s := by
  have hpost : Post (fun b => Q (.ok b)) (fun e => Q (.error e)) = Q := by
    funext r t
    cases r with
    | ok b => rfl
    | error e => rfl
  rw [Wp, hpost] at h
  exact safe_bind (p := p.run) h

/-- Weaker postconditions, on states that satisfy the invariant. -/
theorem Wp.mono {p : Prog ε O V α} {Q' : α → σ → Prop} {E' : ε → σ → Prop} (hinv : T.inv s)
    (h : Wp T i p Q E s) (hQ : ∀ a t, T.inv t → Q a t → Q' a t)
    (hE : ∀ e t, T.inv t → E e t → E' e t) : Wp T i p Q' E' s := by
  refine Safe.mono hinv h (fun r t ht hr => ?_)
  cases r with
  | ok a => exact hQ a t ht hr
  | error e => exact hE e t ht hr

/-- A sequence whose first part has been proved on its own. -/
theorem wp_seq {p : Prog ε O V β} {f : β → Prog ε O V α} {R : β → σ → Prop} {F : ε → σ → Prop}
    (hinv : T.inv s) (hp : Wp T i p R F s) (hf : ∀ b t, T.inv t → R b t → Wp T i (f b) Q E t)
    (hE : ∀ e t, T.inv t → F e t → E e t) : Wp T i (p >>= f) Q E s :=
  wp_bind (Wp.mono hinv hp hf hE)

/-- A sequence whose first part cannot fail. -/
theorem wp_seq_total {p : Prog ε O V β} {f : β → Prog ε O V α} {R : β → σ → Prop}
    (hinv : T.inv s) (hp : Wp T i p R (fun _ _ => False) s)
    (hf : ∀ b t, T.inv t → R b t → Wp T i (f b) Q E t) : Wp T i (p >>= f) Q E s :=
  wp_seq hinv hp hf (fun _ _ _ hfalse => hfalse.elim)

/-- Two facts about one program hold together. -/
theorem Wp.and {p : Prog ε O V α} {Q' : α → σ → Prop} {E' : ε → σ → Prop}
    (h : Wp T i p Q E s) (h' : Wp T i p Q' E' s) :
    Wp T i p (fun a t => Q a t ∧ Q' a t) (fun e t => E e t ∧ E' e t) s := by
  have hpost : (fun r t => Post Q E r t ∧ Post Q' E' r t) =
      Post (fun a t => Q a t ∧ Q' a t) (fun e t => E e t ∧ E' e t) := by
    funext r t
    cases r with
    | ok a => rfl
    | error e => rfl
  rw [Wp, ← hpost]
  exact Safe.and h h'

/-! ## Frames -/

/-- Every operation the program can perform satisfies `P`. -/
def Proc.Only {A : O → Type v} {γ : Type*} (P : O → Prop) : Proc O A γ → Prop
  | .ret _ => True
  | .call o k => P o ∧ ∀ answer, (k answer).Only P

theorem Proc.only_bind {A : O → Type v} {γ δ : Type*} {P : O → Prop} {p : Proc O A γ}
    {f : γ → Proc O A δ} (hp : p.Only P) (hf : ∀ c, (f c).Only P) : (p.bind f).Only P := by
  induction p with
  | ret c => exact hf c
  | call o k ih => exact ⟨hp.1, fun answer => ih answer (hp.2 answer)⟩

theorem Proc.only_all {A : O → Type v} {γ : Type*} (p : Proc O A γ) : p.Only (fun _ => True) := by
  induction p with
  | ret c => trivial
  | call o k ih => exact ⟨trivial, ih⟩

/-- `Only` for programs that can fail. -/
def Only (P : O → Prop) (p : Prog ε O V α) : Prop := p.run.Only P

variable {P : O → Prop}

theorem only_pure (a : α) : Only P (pure a : Prog ε O V α) := trivial

theorem only_throw (e : ε) : Only P (throw e : Prog ε O V α) := trivial

theorem only_resume (r : Except ε α) : Only P (resume r : Prog ε O V α) := trivial

theorem only_attempt {o : O} (h : P o) : Only P (attempt o : Prog ε O V (V o)) :=
  ⟨h, fun _ => trivial⟩

theorem only_bind {p : Prog ε O V β} {f : β → Prog ε O V α} (hp : Only P p)
    (hf : ∀ b, Only P (f b)) : Only P (p >>= f) := by
  refine Proc.only_bind hp (fun r => ?_)
  cases r with
  | ok b => exact hf b
  | error e => trivial

theorem only_settle {p : Prog ε O V β} (hp : Only P p) : Only P (settle p) :=
  Proc.only_bind hp (fun _ => trivial)

theorem Only.mono {R : O → Prop} {p : Prog ε O V α} (hp : Only P p) (hPR : ∀ o, P o → R o) :
    Only R p := by
  have hproc : ∀ q : Proc O (fun o => Except ε (V o)) (Except ε α), q.Only P → q.Only R := by
    intro q hq
    induction q with
    | ret r => trivial
    | call o k ih => exact ⟨hPR o hq.1, fun answer => ih answer (hq.2 answer)⟩
  exact hproc _ hp

/-- **Frame rule.**  An assertion that allows every operation of a kind and survives each of them
    survives any program made of them. -/
theorem wp_only {J : σ → Prop}
    (hstep : ∀ o, P o → ∀ t, J t → T.allowed i o t ∧ ∀ w, T.admits w → ∀ r,
      T.rely i (T.exec i w o t).2 r → T.inv r → J r)
    {p : Prog ε O V α} (hp : Only P p) (hJ : J s) :
    Wp T i p (fun _ => J) (fun _ => J) s := by
  have hproc : ∀ (q : Proc O (fun o => Except ε (V o)) (Except ε α)) (t : σ), q.Only P → J t →
      Safe T i q (fun _ => J) t := by
    intro q
    induction q with
    | ret r => exact fun t _ ht => ht
    | call o k ih =>
      intro t hq ht
      have hhere := hstep o hq.1 t ht
      exact ⟨hhere.1, fun w hw r hrely hr => ih _ r (hq.2 _) (hhere.2 w hw r hrely hr)⟩
  have hpost : (fun _ => J : Except ε α → σ → Prop) = Post (fun _ => J) (fun _ => J) := by
    funext r t
    cases r with
    | ok a => rfl
    | error e => rfl
  rw [Wp, ← hpost]
  exact hproc _ s hp hJ

/-! ## Running alone -/

/-- What a program establishes when it runs alone under admitted outside answers. -/
theorem wp_run {exec : W → (o : O) → σ → Except ε (V o) × σ} {admits : W → Prop} {w : Nat → W}
    (hw : ∀ n, admits (w n)) {p : Prog ε O V α} {n : Nat}
    (h : Wp (Setting.solo exec admits) () p Q E s) :
    Post Q E (runAlone exec w p n s).1 (runAlone exec w p n s).2.2 :=
  safe_run hw h

/-- The same for a run under a name, with one assertion on its answer and its last state. -/
theorem wp_ran {exec : W → (o : O) → σ → Except ε (V o) × σ} {admits : W → Prop} {w : Nat → W}
    {R : Except ε α → σ → Prop} (hw : ∀ n, admits (w n)) {p : Prog ε O V α} {n : Nat}
    (h : Wp (Setting.solo exec admits) () p (fun a => R (.ok a)) (fun e => R (.error e)) s)
    (run : Except ε α × Nat × σ) (hrun : run = runAlone exec w p n s) : R run.1 run.2.2 := by
  rw [hrun]
  exact Post.each (wp_run hw h)

/-- Two sequences that agree after their first part, wherever that can end, agree. -/
theorem runAlone_bind_congr {exec : W → (o : O) → σ → Except ε (V o) × σ} {admits : W → Prop}
    {w : Nat → W} (hw : ∀ n, admits (w n)) {p : Prog ε O V β} {f g : β → Prog ε O V α}
    {R : β → σ → Prop} {F : ε → σ → Prop} {n : Nat}
    (hp : Wp (Setting.solo exec admits) () p R F s)
    (h : ∀ b m t, R b t → runAlone exec w (f b) m t = runAlone exec w (g b) m t) :
    runAlone exec w (p >>= f) n s = runAlone exec w (p >>= g) n s := by
  have hpost := wp_run (w := w) (n := n) hw hp
  rcases hrun : runAlone exec w p n s with ⟨answer, m, t⟩
  rw [hrun] at hpost
  cases answer with
  | error e => rw [runAlone_bind_error exec w f hrun, runAlone_bind_error exec w g hrun]
  | ok b =>
    rw [runAlone_bind_ok exec w f hrun, runAlone_bind_ok exec w g hrun]
    exact h b m t hpost

end Resume
