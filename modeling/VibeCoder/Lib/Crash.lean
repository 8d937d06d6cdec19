/-
  Programs that are cut off, and programs some of whose operations fail.

  * `Setting.watched` — one program alone, where a condition `J` holds before each operation;
  * `Proc.cut`        — the state when a program stops after at most `k` operations;
  * `safe_cut`        — a watched program is in a state with `J`, or with its postcondition,
    wherever it is cut off;
  * `reach`           — how far a program gets before a step number: `reach_bind` takes a sequence
    apart, and `wp_reach` says what a watched program has established there;
  * `Strict`          — a program that gives up as soon as an operation fails;
  * `strict_fault`    — it ends in an error when one of the operations fails that it performs while
    nothing does.
-/
import VibeCoder.Lib.WeakestPre

namespace Resume

universe u v x y z

variable {O : Type u} {A : O → Type v} {W : Type y} {σ : Type z}

/-! ## Cut off -/

/-- One program alone, that only performs an operation in a state with `J`. -/
def Setting.watched (exec : W → (o : O) → σ → A o × σ) (admits : W → Prop) (J : σ → Prop) :
    Setting O A Unit W σ where
  exec := fun _ => exec
  admits := admits
  inv := fun _ => True
  allowed := fun _ _ => J
  rely := fun _ s t => s = t
  rely_refl := fun _ _ => rfl
  rely_trans := fun h₁ h₂ => h₁.trans h₂
  inv_step := fun _ _ _ => trivial
  rely_step := fun hne _ _ _ => absurd rfl hne

/-- The state of a program that stops after at most `k` operations. -/
def Proc.cut {α : Type x} (exec : W → (o : O) → σ → A o × σ) (w : Nat → W) :
    Proc O A α → Nat → Nat → σ → σ
  | .ret _, _, _, s => s
  | .call _ _, 0, _, s => s
  | .call o p, k + 1, n, s => cut exec w (p (exec (w n) o s).1) k (n + 1) (exec (w n) o s).2

section

variable {α : Type x} {exec : W → (o : O) → σ → A o × σ} {admits : W → Prop} {J : σ → Prop}
variable {w : Nat → W}

/-- Wherever a watched program is cut off, `J` holds, or it has returned. -/
theorem safe_cut (hw : ∀ n, admits (w n)) {p : Proc O A α} {Q : α → σ → Prop} :
    ∀ {k n : Nat} {s : σ}, Safe (Setting.watched exec admits J) () p Q s →
      J (p.cut exec w k n s) ∨ ∃ a, Q a (p.cut exec w k n s) := by
  induction p with
  | ret a => exact fun h => .inr ⟨a, h⟩
  | call o p ih =>
    intro k n s h
    cases k with
    | zero => exact .inl h.1
    | succ k => exact ih _ (h.2 (w n) (hw n) _ rfl trivial)

/-- A watched program that is not cut off. -/
theorem safe_watched_run (hw : ∀ n, admits (w n)) {p : Proc O A α} {Q : α → σ → Prop} :
    ∀ {n : Nat} {s : σ}, Safe (Setting.watched exec admits J) () p Q s →
      Q (p.run exec w n s).1 (p.run exec w n s).2.2 := by
  induction p with
  | ret a => exact fun h => h
  | call o p ih => exact fun h => ih _ (h.2 _ (hw _) _ rfl trivial)

/-- A run that is long enough is not cut off. -/
theorem Proc.cut_run (p : Proc O A α) (n : Nat) (s : σ) :
    ∃ k, ∀ m, k ≤ m → p.cut exec w m n s = (p.run exec w n s).2.2 := by
  induction p generalizing n s with
  | ret a => exact ⟨0, fun _ _ => rfl⟩
  | call o p ih =>
    obtain ⟨k, hk⟩ := ih (exec (w n) o s).1 (n + 1) (exec (w n) o s).2
    refine ⟨k + 1, fun m hm => ?_⟩
    obtain ⟨m, rfl⟩ : ∃ m', m = m' + 1 := ⟨m - 1, by omega⟩
    exact hk m (by omega)

end

/-! ## Getting as far as a step number -/

/-- The value, with the step number, of a program that returns before step `limit`, and the state
    it has come to. -/
def Proc.reach {α : Type x} (exec : W → (o : O) → σ → A o × σ) (w : Nat → W) (limit : Nat) :
    Proc O A α → Nat → σ → Option (α × Nat) × σ
  | .ret a, n, s => (some (a, n), s)
  | .call o p, n, s =>
    if n < limit then reach exec w limit (p (exec (w n) o s).1) (n + 1) (exec (w n) o s).2
    else (none, s)

section

variable {α : Type x} {β : Type*} {exec : W → (o : O) → σ → A o × σ} {admits : W → Prop}
variable {J : σ → Prop} {w : Nat → W} {limit : Nat}

/-- A sequence goes on from where its first part returned. -/
theorem Proc.reach_bind (p : Proc O A α) (f : α → Proc O A β) (n : Nat) (s : σ) :
    (p.bind f).reach exec w limit n s =
      match p.reach exec w limit n s with
      | (none, t) => (none, t)
      | (some (a, m), t) => (f a).reach exec w limit m t := by
  induction p generalizing n s with
  | ret a => rfl
  | call o p ih =>
    show (if n < limit then _ else _) = _
    by_cases hn : n < limit
    · rw [if_pos hn, reach, if_pos hn]
      exact ih _ (n + 1) _
    · rw [if_neg hn, reach, if_neg hn]

/-- Before the end `J`, and at the end `Q`. -/
def Reached (J : σ → Prop) (Q : α → σ → Prop) : Option (α × Nat) × σ → Prop
  | (none, t) => J t
  | (some (a, _), t) => Q a t

/-- Where a watched program has come to, `J` holds, or it has returned with its postcondition. -/
theorem safe_reach (hw : ∀ n, admits (w n)) {p : Proc O A α} {Q : α → σ → Prop} {n : Nat} {s : σ}
    (h : Safe (Setting.watched exec admits J) () p Q s) :
    Reached J Q (p.reach exec w limit n s) := by
  induction p generalizing n s with
  | ret a => exact h
  | call o p ih =>
    by_cases hn : n < limit
    · rw [Proc.reach, if_pos hn]
      exact ih _ (h.2 (w n) (hw n) _ rfl trivial)
    · rw [Proc.reach, if_neg hn]
      exact h.1

end

/-! ## Operations that fail -/

variable {ε : Type v} {V : O → Type v} {α β : Type v}

/-- `reach` for programs that can fail. -/
def reach (exec : W → (o : O) → σ → Except ε (V o) × σ) (w : Nat → W) (limit : Nat)
    (p : Prog ε O V α) (n : Nat) (s : σ) : Option (Except ε α × Nat) × σ :=
  p.run.reach exec w limit n s

section

variable {exec : W → (o : O) → σ → Except ε (V o) × σ} {admits : W → Prop} {J : σ → Prop}
variable {w : Nat → W} {limit : Nat}

/-- What follows the first part of a sequence, if that returns a value. -/
def andThen (f : α → Nat → σ → Option (Except ε β × Nat) × σ) :
    Option (Except ε α × Nat) × σ → Option (Except ε β × Nat) × σ
  | (none, t) => (none, t)
  | (some (.error e, m), t) => (some (.error e, m), t)
  | (some (.ok a, m), t) => f a m t

/-- A sequence that can fail goes on from the value of its first part. -/
theorem reach_bind (p : Prog ε O V α) (f : α → Prog ε O V β) (n : Nat) (s : σ) :
    reach exec w limit (p >>= f) n s =
      andThen (fun a m t => reach exec w limit (f a) m t) (reach exec w limit p n s) := by
  refine (Proc.reach_bind p.run (ExceptT.bindCont f) n s).trans ?_
  unfold reach
  rcases p.run.reach exec w limit n s with ⟨_ | ⟨_ | a, m⟩, t⟩
  · rfl
  · rfl
  · rfl

theorem wp_reach (hw : ∀ n, admits (w n)) {p : Prog ε O V α} {Q : α → σ → Prop}
    {E : ε → σ → Prop} {n : Nat} {s : σ}
    (h : Wp (Setting.watched exec admits J) () p Q E s) :
    Reached J (Post Q E) (reach exec w limit p n s) :=
  safe_reach hw h

/-- What a program does may be proved without the watch, and the watch beside it. -/
theorem wp_watch {p : Prog ε O V α} {Q R : α → σ → Prop} {E F : ε → σ → Prop} {s : σ}
    (h : Wp (Setting.watched exec admits (fun _ => True)) () p Q E s)
    (hwatch : Wp (Setting.watched exec admits J) () p R F s) :
    Wp (Setting.watched exec admits J) () p (fun a t => Q a t ∧ R a t) (fun e t => E e t ∧ F e t)
      s := by
  have hproc : ∀ (q : Proc O (fun o => Except ε (V o)) (Except ε α)) (t : σ),
      Safe (Setting.watched exec admits (fun _ => True)) () q (Post Q E) t →
      Safe (Setting.watched exec admits J) () q (Post R F) t →
      Safe (Setting.watched exec admits J) () q
        (Post (fun a t => Q a t ∧ R a t) (fun e t => E e t ∧ F e t)) t := by
    intro q
    induction q with
    | ret r =>
      intro t hq hr
      cases r with
      | ok a => exact ⟨hq, hr⟩
      | error e => exact ⟨hq, hr⟩
    | call o k ih =>
      intro t hq hr
      refine ⟨hr.1, fun w hw u hu _ => ?_⟩
      exact ih _ u (hq.2 w hw u hu trivial) (hr.2 w hw u hu trivial)
  exact hproc _ s h hwatch

end

/-- A program over operations with `P` that ends in an error when one of them fails; its errors
    satisfy `S`. -/
def Proc.Strict {γ : Type v} (P : O → Prop) (S : ε → Prop) :
    Proc O (fun o => Except ε (V o)) (Except ε γ) → Prop
  | .ret r => ∀ e, r = .error e → S e
  | .call o p => P o ∧ (∀ e, ∃ e', S e' ∧ p (.error e) = .ret (.error e')) ∧
      ∀ v, (p (.ok v)).Strict P S

/-- `Strict` for programs that can fail. -/
def Strict (P : O → Prop) (S : ε → Prop) (p : Prog ε O V α) : Prop := p.run.Strict P S

variable {P : O → Prop} {S : ε → Prop}

theorem strict_pure (a : α) : Strict P S (pure a : Prog ε O V α) := fun _ h => by cases h

theorem strict_throw {e : ε} (h : S e) : Strict P S (throw e : Prog ε O V α) := by
  intro e' he'
  cases he'
  exact h

theorem strict_resume {r : Except ε α} (h : ∀ e, r = .error e → S e) :
    Strict P S (resume r : Prog ε O V α) := h

theorem strict_bind {p : Prog ε O V β} {f : β → Prog ε O V α} (hp : Strict P S p)
    (hf : ∀ b, Strict P S (f b)) : Strict P S (p >>= f) := by
  have hproc : ∀ q : Proc O (fun o => Except ε (V o)) (Except ε β), q.Strict P S →
      (q.bind (ExceptT.bindCont f)).Strict P S := by
    intro q hq
    induction q with
    | ret r =>
      cases r with
      | ok b => exact hf b
      | error e => exact strict_throw (hq e rfl)
    | call o q ih =>
      refine ⟨hq.1, fun e => ?_, fun v => ih _ (hq.2.2 v)⟩
      obtain ⟨e', hS, he'⟩ := hq.2.1 e
      refine ⟨e', hS, ?_⟩
      show (q (.error e)).bind (ExceptT.bindCont f) = _
      rw [he']
      rfl
  exact hproc _ hp

/-- An operation whose error is replaced by another one. -/
theorem strict_settle {o : O} (ho : P o) {f : Except ε (V o) → Prog ε O V α}
    (herror : ∀ e, ∃ e', S e' ∧ f (.error e) = throw e') (hok : ∀ v, Strict P S (f (.ok v))) :
    Strict P S (settle (attempt o) >>= f) := by
  refine ⟨ho, fun e => ?_, hok⟩
  obtain ⟨e', hS, he'⟩ := herror e
  refine ⟨e', hS, ?_⟩
  show (f (.error e)).run = _
  rw [he']
  rfl

section

variable {exec : W → (o : O) → σ → Except ε (V o) × σ} {w c : Nat → W} {F : W → Prop}

/-- The errors a strict program ends in. -/
theorem strict_raises {p : Proc O (fun o => Except ε (V o)) (Except ε α)} (hp : p.Strict P S)
    {n : Nat} {s : σ} {e : ε} (h : (p.run exec w n s).1 = .error e) : S e := by
  induction p generalizing n s with
  | ret r => exact hp e h
  | call o p ih =>
    change ((p (exec (w n) o s).1).run exec w (n + 1) (exec (w n) o s).2).1 = .error e at h
    rcases hanswer : (exec (w n) o s).1 with e' | v
    · obtain ⟨e'', hS, he''⟩ := hp.2.1 e'
      rw [hanswer, he''] at h
      cases h
      exact hS
    · rw [hanswer] at h
      exact ih _ (hp.2.2 v) h

/-- A failure of one of the operations of that run ends the program in an error. -/
theorem strict_fault (hcalm : ∀ n o s, P o → ¬ F (w n) → exec (w n) o s = exec (c n) o s)
    (hfault : ∀ n o s, P o → F (w n) → ∃ e, (exec (w n) o s).1 = .error e)
    {p : Proc O (fun o => Except ε (V o)) (Except ε α)} (hp : p.Strict P S) {n : Nat} {s : σ}
    (h : ∃ k, n ≤ k ∧ k < (p.run exec c n s).2.1 ∧ F (w k)) :
    ∃ e, (p.run exec w n s).1 = .error e := by
  induction p generalizing n s with
  | ret r =>
    obtain ⟨k, hk, hlt, -⟩ := h
    exact absurd hlt (Nat.not_lt.mpr hk)
  | call o p ih =>
    show ∃ e, ((p (exec (w n) o s).1).run exec w (n + 1) (exec (w n) o s).2).1 = .error e
    by_cases hhere : F (w n)
    · obtain ⟨e, he⟩ := hfault n o s hp.1 hhere
      obtain ⟨e', -, he'⟩ := hp.2.1 e
      rw [he, he']
      exact ⟨e', rfl⟩
    · rw [hcalm n o s hp.1 hhere]
      rcases hanswer : (exec (c n) o s).1 with e | v
      · obtain ⟨e', -, he'⟩ := hp.2.1 e
        rw [he']
        exact ⟨e', rfl⟩
      · refine ih _ (hp.2.2 v) ?_
        obtain ⟨k, hk, hlt, hfail⟩ := h
        have hne : k ≠ n := by
          rintro rfl
          exact hhere hfail
        refine ⟨k, by omega, ?_, hfail⟩
        change k < ((p (exec (c n) o s).1).run exec c (n + 1) (exec (c n) o s).2).2.1 at hlt
        rw [hanswer] at hlt
        exact hlt

end

end Resume
