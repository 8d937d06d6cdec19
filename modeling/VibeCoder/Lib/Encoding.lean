/-
  Encodings that can be read back from the front of whatever contains them.

  1. **`Delimits`** — an encoding delimits itself on a set if from the encoding of a member and what
     follows it one can tell the member, and what follows.

  2. **Kinds** — encodings of one length (`of_length`), encodings with a terminator that is not in
     them (`terminated`), and lists with their length in front (`sized`).

  3. **Lists** — encodings one after another, up to something that begins no encoding (`flatMap`).

  4. **Numbers** — the little-endian bytes of a number (`leBytes`), which are of one length and tell
     the number as long as it fits.
-/
import Mathlib.Algebra.GroupWithZero.Nat
import Mathlib.Data.Set.Function

namespace Encoding

variable {α β : Type*}

/-! ## `Delimits` -/

/-- What is encoded, and what follows, can be told. -/
def Delimits (s : Set α) (enc : α → List β) : Prop :=
  ∀ ⦃a⦄, a ∈ s → ∀ ⦃b⦄, b ∈ s → ∀ {x y : List β}, enc a ++ x = enc b ++ y → a = b ∧ x = y

theorem Delimits.injOn {s : Set α} {enc : α → List β} (h : Delimits s enc) : Set.InjOn enc s := by
  intro a ha b hb heq
  exact (h ha hb (congrArg (· ++ []) heq)).1

/-! ## Kinds -/

/-- All encodings are of one length. -/
theorem Delimits.of_length {s : Set α} {enc : α → List β} {width : Nat}
    (hlen : ∀ a ∈ s, (enc a).length = width) (hinj : Set.InjOn enc s) : Delimits s enc := by
  intro a ha b hb x y h
  obtain ⟨henc, hrest⟩ := List.append_inj h ((hlen a ha).trans (hlen b hb).symm)
  exact ⟨hinj ha hb henc, hrest⟩

/-- Up to a separator that does not occur before it. -/
theorem cut_at_separator {sep : β} {as bs x y : List β} (ha : sep ∉ as) (hb : sep ∉ bs)
    (h : as ++ sep :: x = bs ++ sep :: y) : as = bs ∧ x = y := by
  induction as generalizing bs with
  | nil =>
    cases bs with
    | nil => exact ⟨rfl, (List.cons.inj h).2⟩
    | cons b bs =>
      obtain ⟨rfl, -⟩ := List.cons.inj h
      exact absurd List.mem_cons_self hb
  | cons a as ih =>
    cases bs with
    | nil =>
      obtain ⟨rfl, -⟩ := List.cons.inj h
      exact absurd List.mem_cons_self ha
    | cons b bs =>
      obtain ⟨rfl, hrest⟩ := List.cons.inj h
      obtain ⟨rfl, hxy⟩ := ih (fun hin => ha (List.mem_cons_of_mem _ hin))
        (fun hin => hb (List.mem_cons_of_mem _ hin)) hrest
      exact ⟨rfl, hxy⟩

/-- Encodings without the terminator, each followed by it. -/
theorem Delimits.terminated {s : Set α} {enc : α → List β} {sep : β}
    (hsep : ∀ a ∈ s, sep ∉ enc a) (hinj : Set.InjOn enc s) :
    Delimits s (fun a => enc a ++ [sep]) := by
  intro a ha b hb x y h
  simp only [List.append_assoc, List.singleton_append] at h
  obtain ⟨henc, hrest⟩ := cut_at_separator (hsep a ha) (hsep b hb) h
  exact ⟨hinj ha hb henc, hrest⟩

/-- Lists with their length in front. -/
theorem Delimits.sized {s : Set Nat} {enc : Nat → List β} (h : Delimits s enc) :
    Delimits { xs : List β | xs.length ∈ s } (fun xs => enc xs.length ++ xs) := by
  intro as has bs hbs x y heq
  rw [List.append_assoc, List.append_assoc] at heq
  obtain ⟨hlen, hrest⟩ := h has hbs heq
  exact List.append_inj hrest hlen

/-! ## Lists -/

/-- No encoding begins here. -/
def Stops (s : Set α) (enc : α → List β) (x : List β) : Prop :=
  ∀ a ∈ s, ∀ rest, x ≠ enc a ++ rest

/-- **Encodings one after another**, by induction on the first list. -/
theorem Delimits.flatMap {s : Set α} {enc : α → List β} (h : Delimits s enc) {as bs : List α}
    (has : ∀ a ∈ as, a ∈ s) (hbs : ∀ b ∈ bs, b ∈ s) {x y : List β} (hx : Stops s enc x)
    (hy : Stops s enc y) (heq : as.flatMap enc ++ x = bs.flatMap enc ++ y) : as = bs ∧ x = y := by
  induction as generalizing bs with
  | nil =>
    cases bs with
    | nil => exact ⟨rfl, heq⟩
    | cons b bs =>
      rw [List.flatMap_cons, List.append_assoc] at heq
      exact absurd heq (hx b (hbs b List.mem_cons_self) _)
  | cons a as ih =>
    have ha := has a List.mem_cons_self
    cases bs with
    | nil =>
      rw [List.flatMap_cons, List.append_assoc] at heq
      exact absurd heq.symm (hy a ha _)
    | cons b bs =>
      rw [List.flatMap_cons, List.flatMap_cons, List.append_assoc, List.append_assoc] at heq
      obtain ⟨rfl, hrest⟩ := h ha (hbs b List.mem_cons_self) heq
      obtain ⟨rfl, hxy⟩ := ih (fun a ha => has a (List.mem_cons_of_mem _ ha))
        (fun b hb => hbs b (List.mem_cons_of_mem _ hb)) hrest
      exact ⟨rfl, hxy⟩

/-! ## Numbers -/

/-- The number of a list of bytes, the lowest first. -/
def leValue : List UInt8 → Nat
  | [] => 0
  | byte :: bytes => byte.toNat + 256 * leValue bytes

/-- `width` bytes of a number, the lowest first. -/
def leBytes : Nat → Nat → List UInt8
  | 0, _ => []
  | width + 1, n => UInt8.ofNat n :: leBytes width (n / 256)

@[simp] theorem length_leBytes (width n : Nat) : (leBytes width n).length = width := by
  induction width generalizing n with
  | zero => rfl
  | succ width ih => rw [leBytes, List.length_cons, ih]

/-- The bytes tell the number if it fits. -/
theorem leValue_leBytes {width n : Nat} (h : n < 256 ^ width) : leValue (leBytes width n) = n := by
  induction width generalizing n with
  | zero =>
    rw [Nat.pow_zero] at h
    rw [leBytes, leValue]
    omega
  | succ width ih =>
    rw [Nat.pow_succ] at h
    have hrest : n / 256 < 256 ^ width := Nat.div_lt_of_lt_mul (by omega)
    rw [leBytes, leValue, ih hrest, UInt8.toNat_ofNat']
    omega

theorem leBytes_injOn (width : Nat) : Set.InjOn (leBytes width) { n | n < 256 ^ width } := by
  intro m hm n hn h
  rw [← leValue_leBytes hm, h, leValue_leBytes hn]

theorem delimits_leBytes (width : Nat) : Delimits { n | n < 256 ^ width } (leBytes width) :=
  .of_length (fun n _ => length_leBytes width n) (leBytes_injOn width)

end Encoding
