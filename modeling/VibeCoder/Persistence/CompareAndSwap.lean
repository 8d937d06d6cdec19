/-
  Compare-and-swap on conversations and project states, over any run of creates, updates and removals
  of any number of clients, with any step of any call failing.  The gate makes the calls one at a
  time, and a load changes nothing, so that every interleaving is such a run.

  1. **Faults** — a load that succeeds although some step of its call fails is a load on which none
     does (`loadRecord_faultless`).

  2. **One call** — a record stays, or is replaced by one of a later revision, or is removed; and what
     has been removed is only there again once it is created (`StoreCalls`, for both kinds).

  3. **The law** (`compare_and_swap_law`) — an update is only accepted over the record that it was made
     from, and one of two updates made from one record is refused.

  4. **The limit of the law** — a record that is created again starts at revision zero, and an update
     made from the one that was removed is accepted over it (`removed_record_updated`).
-/
import VibeCoder.Persistence.LastSaved

namespace VibeCoder.Persistence

open Chars

/-! ## Faults -/

section Faultless

variable {K R : Type} [DecidableEq K] {kind : RecordKind K R} {codec : Codec R} {fault : Fault}
  {d : Directory} {key : K} {found : Option R}

theorem readRecord_faultless {entry : Entry}
    (h : readRecord kind codec fault entry key = .ok found) :
    readRecord kind codec none entry key = .ok found := by
  unfold readRecord at h ⊢
  obtain ⟨hsize, h⟩ := Result.guard_eq_ok.mp h
  obtain ⟨-, h⟩ := Result.check_eq_ok.mp h
  obtain ⟨-, h⟩ := Result.check_eq_ok.mp h
  obtain ⟨hverify, h⟩ := Result.check_eq_ok.mp h
  obtain ⟨-, h⟩ := Result.check_eq_ok.mp h
  refine Result.guard_eq_ok.mpr ⟨hsize, ?_⟩
  refine Result.check_eq_ok.mpr ⟨rfl, Result.check_eq_ok.mpr ⟨rfl, ?_⟩⟩
  exact Result.check_eq_ok.mpr ⟨hverify, Result.check_eq_ok.mpr ⟨rfl, h⟩⟩

theorem inspectStateForRead_faultless {purpose : Purpose} {name : List UInt8}
    {looked : Option Entry} (h : inspectStateForRead fault purpose d name = .ok looked) :
    inspectStateForRead none purpose d name = .ok looked := by
  unfold inspectStateForRead fstatatOptional at h ⊢
  obtain ⟨entry, hentry, h⟩ := Result.bind_eq_ok.mp h
  obtain ⟨-, hentry⟩ := Result.check_eq_ok.mp hentry
  exact Result.bind_eq_ok.mpr ⟨entry, Result.check_eq_ok.mpr ⟨rfl, hentry⟩, h⟩

/-- What a load has found under a fault is there. -/
theorem loadRecord_faultless (h : loadRecord kind codec fault d key = .ok found) :
    loadRecord kind codec none d key = .ok found := by
  unfold loadRecord at h ⊢
  obtain ⟨-, h⟩ := Result.check_eq_ok.mp h
  obtain ⟨looked, hlooked, h⟩ := Result.bind_eq_ok.mp h
  refine Result.check_eq_ok.mpr ⟨rfl, ?_⟩
  refine Result.bind_eq_ok.mpr ⟨looked, inspectStateForRead_faultless hlooked, ?_⟩
  cases looked with
  | none => exact h
  | some entry => exact readRecord_faultless h

end Faultless

/-! ## One call -/

section Records

variable {K R : Type} {kind : RecordKind K R} {codec : Codec R} {d : Directory} {key : K} {r : R}

/-- The record is this one, or one of a later revision. -/
def Follows (kind : RecordKind K R) (now r : R) : Prop :=
  now = r ∨ kind.revision r < kind.revision now

theorem Follows.trans {a b c : R} (h : Follows kind b a) (h' : Follows kind c b) :
    Follows kind c a := by
  rcases h' with rfl | h'
  · exact h
  · rcases h with rfl | h
    · exact .inr h'
    · exact .inr (Nat.lt_trans h h')

variable [DecidableEq K]

/-- A create gets to its save only where nothing is. -/
theorem createRecord_places (kind : RecordKind K R) (codec : Codec R) (fault : Fault)
    (limit : Result Unit) (uuid : BitVec 128) (d : Directory) (record : R) :
    (createRecord kind codec fault false limit uuid d record).2 = d ∨
      loadRecord kind codec none d (kind.key record) = .ok none ∧
        (createRecord kind codec fault false limit uuid d record).2 =
          place d (kind.target (kind.key record)) (codec.encode record) := by
  unfold createRecord
  cases hchecks : createChecks kind codec fault false limit d record with
  | error e => exact .inl rfl
  | ok _ =>
    unfold createChecks at hchecks
    obtain ⟨-, hchecks⟩ := Result.check_eq_ok.mp hchecks
    obtain ⟨-, hchecks⟩ := Result.guard_eq_ok.mp hchecks
    obtain ⟨-, hchecks⟩ := Result.check_eq_ok.mp hchecks
    obtain ⟨found, hload, hchecks⟩ := Result.bind_eq_ok.mp hchecks
    obtain ⟨hnone, -⟩ := Result.guard_eq_ok.mp hchecks
    cases found with
    | some current => exact absurd rfl hnone
    | none =>
      rcases saveRecord_cases kind codec fault uuid d record with
        ⟨e, hsave⟩ | ⟨-, -, hsave⟩
      · left
        dsimp only
        rw [hsave]
      · right
        dsimp only
        rw [hsave]
        exact ⟨loadRecord_faultless hload, rfl⟩

/-- What an update that gets to its save has found, and what it leaves. -/
structure Replaces (kind : RecordKind K R) (codec : Codec R) (expectedRevision : Nat)
    (d : Directory) (record : R) (outcome : Result R × Directory) (current : R) : Prop where
  found : loadRecord kind codec none d (kind.key record) = .ok (some current)
  revision : kind.revision current = expectedRevision
  valid : kind.validate (kind.withRevision (expectedRevision + 1) record) = .ok ()
  fits : (codec.encode (kind.withRevision (expectedRevision + 1) record)).length ≤ kind.maxBytes
  answer : ∀ committed, outcome.1 = .ok committed →
    committed = kind.withRevision (expectedRevision + 1) record
  placed : outcome.2 = place d (kind.target (kind.key record))
    (codec.encode (kind.withRevision (expectedRevision + 1) record))

/-- An update gets to its save only over a record of the revision it expects. -/
theorem updateRecord_places (hkind : kind.Lawful) (codec : Codec R) (fault : Fault)
    (uuid : BitVec 128) (expectedRevision : Nat) (d : Directory) (record : R) :
    (updateRecord kind codec fault false uuid expectedRevision d record).2 = d ∧
        (∃ e, (updateRecord kind codec fault false uuid expectedRevision d record).1 = .error e) ∨
      ∃ current, Replaces kind codec expectedRevision d record
        (updateRecord kind codec fault false uuid expectedRevision d record) current := by
  unfold updateRecord
  cases hchecks : updateChecks kind codec fault false expectedRevision d record with
  | error e => exact .inl ⟨rfl, e, rfl⟩
  | ok committed =>
    unfold updateChecks at hchecks
    obtain ⟨hvalid, hchecks⟩ := Result.check_eq_ok.mp hchecks
    obtain ⟨-, hchecks⟩ := Result.guard_eq_ok.mp hchecks
    obtain ⟨-, hchecks⟩ := Result.check_eq_ok.mp hchecks
    obtain ⟨found, hload, hchecks⟩ := Result.bind_eq_ok.mp hchecks
    cases found with
    | none => cases hchecks
    | some current =>
      obtain ⟨hrevision, hchecks⟩ := Result.guard_eq_ok.mp hchecks
      obtain ⟨-, hchecks⟩ := Result.guard_eq_ok.mp hchecks
      cases hchecks
      rcases saveRecord_cases kind codec fault uuid d
          (kind.withRevision (expectedRevision + 1) record) with
        ⟨e, hsave⟩ | ⟨hstart, -, hsave⟩
      · left
        dsimp only
        rw [hsave]
        exact ⟨rfl, e, rfl⟩
      · right
        have hvalid' : kind.validate (kind.withRevision (expectedRevision + 1) record) = .ok () := by
          rw [hkind.validate_withRevision]
          exact hvalid
        refine ⟨current, loadRecord_faultless hload, not_not.mp hrevision, hvalid',
          saveStart_size hstart, ?_, ?_⟩
        · dsimp only
          rw [hsave]
          cases attempt fault .syncRoot (kind.code "parent_sync_failed") with
          | error e => exact fun _ h => by cases h
          | ok _ =>
            intro committed h
            cases h
            rfl
        · dsimp only
          rw [hsave, hkind.key_withRevision]
          cases attempt fault .syncRoot (kind.code "parent_sync_failed") <;> rfl

/-- What an update has placed loads, and is of a later revision. -/
theorem Replaces.loads (hkind : kind.Lawful) {expectedRevision : Nat} {record current : R}
    {outcome : Result R × Directory}
    (h : Replaces kind codec expectedRevision d record outcome current)
    (hjson : codec.decode (codec.encode (kind.withRevision (expectedRevision + 1) record)) =
      some (kind.withRevision (expectedRevision + 1) record)) :
    loadRecord kind codec none outcome.2 (kind.key record) =
        .ok (some (kind.withRevision (expectedRevision + 1) record)) ∧
      kind.revision current < kind.revision (kind.withRevision (expectedRevision + 1) record) := by
  constructor
  · rw [h.placed, ← hkind.key_withRevision (expectedRevision + 1) record]
    exact loadRecord_place h.fits hjson h.valid
  · rw [hkind.revision_withRevision, h.revision]
    exact Nat.lt_succ_self _

/-! ## Runs -/

/-- The calls of a store: what each leaves, which records it saves, and which keys it may remove or
    create. -/
structure StoreCalls (kind : RecordKind K R) (codec : Codec R) (C : Type) where
  step : Directory → C → Directory
  saves : C → Option R
  Removes : K → C → Prop
  Creates : K → C → Prop
  /-- A record stays, is replaced by a later one, or is removed. -/
  keeps : ∀ {d call key r},
    (∀ record ∈ saves call, codec.decode (codec.encode record) = some record) →
    loadRecord kind codec none d key = .ok (some r) →
      (∃ now, loadRecord kind codec none (step d call) key = .ok (some now) ∧ Follows kind now r) ∨
        Removes key call ∧ loadRecord kind codec none (step d call) key = .ok none
  /-- What is not there is created, or stays away. -/
  absent : ∀ {d call key},
    (∀ record ∈ saves call, codec.decode (codec.encode record) = some record) →
    loadRecord kind codec none d key = .ok none → ¬ Creates key call →
      loadRecord kind codec none (step d call) key = .ok none

namespace StoreCalls

variable {C : Type} (calls : StoreCalls kind codec C)

/-- The calls one after another. -/
def after (d : Directory) (run : List C) : Directory := run.foldl calls.step d

/-- The JSON of every saved record is read back. -/
def Sound (run : List C) : Prop :=
  ∀ call ∈ run, ∀ record ∈ calls.saves call, codec.decode (codec.encode record) = some record

/-- The key is not removed and later created again. -/
def Once (key : K) (run : List C) : Prop :=
  run.Pairwise (fun call later => calls.Removes key call → ¬ calls.Creates key later)

/-- What has become of a record. -/
def Stands (kind : RecordKind K R) (codec : Codec R) (d : Directory) (key : K) (r : R) : Prop :=
  loadRecord kind codec none d key = .ok none ∨
    ∃ now, loadRecord kind codec none d key = .ok (some now) ∧ Follows kind now r

variable {calls}

theorem absent_after {run : List C} (hsound : calls.Sound run)
    (habsent : loadRecord kind codec none d key = .ok none)
    (hcreates : ∀ call ∈ run, ¬ calls.Creates key call) :
    loadRecord kind codec none (calls.after d run) key = .ok none := by
  induction run generalizing d with
  | nil => exact habsent
  | cons call rest ih =>
    have hnext := calls.absent (hsound call List.mem_cons_self) habsent
      (hcreates call List.mem_cons_self)
    exact ih (fun other hother => hsound other (List.mem_cons_of_mem _ hother)) hnext
      (fun other hother => hcreates other (List.mem_cons_of_mem _ hother))

/-- **A run.**  The record stands: it is gone, itself, or of a later revision. -/
theorem stands_after {run : List C} (hsound : calls.Sound run) (honce : calls.Once key run)
    (hload : loadRecord kind codec none d key = .ok (some r)) :
    Stands kind codec (calls.after d run) key r := by
  induction run generalizing d r with
  | nil => exact .inr ⟨r, hload, .inl rfl⟩
  | cons call rest ih =>
    obtain ⟨hlater, honce⟩ := List.pairwise_cons.mp honce
    have hrest : calls.Sound rest := fun other hother => hsound other (List.mem_cons_of_mem _ hother)
    rcases calls.keeps (hsound call List.mem_cons_self) hload with
      ⟨next, hnext, hfollows⟩ | ⟨hremoves, hgone⟩
    · rcases ih hrest honce hnext with hgone | ⟨now, hnow, hfollows'⟩
      · exact .inl hgone
      · exact .inr ⟨now, hnow, hfollows.trans hfollows'⟩
    · left
      show loadRecord kind codec none (calls.after (calls.step d call) rest) key = .ok none
      exact absent_after hrest hgone (fun other hother => hlater other hother hremoves)

/-- The law of a kind of records.  Let a client have read a record, and let any calls of anybody
    follow, in which its key is not removed and then created again.  Then the record is gone, or
    there, or replaced by one of a later revision.  An update made from it that is accepted replaces
    this very record by the client's own, of the next revision; and after that, whatever follows
    short of such a second creation, no update made from the record is accepted any more. -/
def SwapLaw (calls : StoreCalls kind codec C) : Prop :=
  ∀ (d : Directory) (run : List C) (key : K) (r : R), calls.Sound run → calls.Once key run →
    loadRecord kind codec none d key = .ok (some r) →
      Stands kind codec (calls.after d run) key r ∧
      ∀ fault uuid next committed, kind.key next = key →
        codec.decode (codec.encode committed) = some committed →
        (updateRecord kind codec fault false uuid (kind.revision r) (calls.after d run) next).1 =
            .ok committed →
          let swapped :=
            (updateRecord kind codec fault false uuid (kind.revision r) (calls.after d run) next).2
          loadRecord kind codec none (calls.after d run) key = .ok (some r) ∧
            committed = kind.withRevision (kind.revision r + 1) next ∧
            loadRecord kind codec none swapped key = .ok (some committed) ∧
            ∀ more, calls.Sound more → calls.Once key more →
              ∀ fault' uuid' other answer, kind.key other = key →
                (updateRecord kind codec fault' false uuid' (kind.revision r)
                  (calls.after swapped more) other).1 ≠ .ok answer

/-- An update is refused over a later record, and over none. -/
theorem update_refused (hkind : kind.Lawful) {later : R} {revision : Nat}
    (hstands : Stands kind codec d key later)
    (hrevision : revision < kind.revision later) {fault : Fault} {uuid : BitVec 128} {other answer : R}
    (hkey : kind.key other = key) :
    (updateRecord kind codec fault false uuid revision d other).1 ≠ .ok answer := by
  intro haccepted
  rcases updateRecord_places hkind codec fault uuid revision d other with
    ⟨-, e, herror⟩ | ⟨current, hreplaces⟩
  · cases herror.symm.trans haccepted
  · have hfound := hreplaces.found
    rw [hkey] at hfound
    have hcurrent := hreplaces.revision
    rcases hstands with hgone | ⟨now, hnow, hfollows⟩
    · cases hgone.symm.trans hfound
    · cases hnow.symm.trans hfound
      rcases hfollows with rfl | hfollows
      · omega
      · omega

theorem swapLaw (hkind : kind.Lawful) (calls : StoreCalls kind codec C) : calls.SwapLaw := by
  intro d run key r hsound honce hload
  have hstands := stands_after hsound honce hload
  refine ⟨hstands, ?_⟩
  intro fault uuid next committed hkey hjson haccepted swapped
  rcases updateRecord_places hkind codec fault uuid (kind.revision r) (calls.after d run) next with
    ⟨-, e, herror⟩ | ⟨current, hreplaces⟩
  · cases herror.symm.trans haccepted
  · have hcommitted := hreplaces.answer committed haccepted
    have hfound := hreplaces.found
    rw [hkey] at hfound
    have hread : current = r := by
      rcases hstands with hgone | ⟨now, hnow, hfollows⟩
      · cases hgone.symm.trans hfound
      · cases hnow.symm.trans hfound
        rcases hfollows with rfl | hlater
        · rfl
        · have hrevision := hreplaces.revision
          omega
    rw [hcommitted] at hjson
    obtain ⟨hloads, hlater⟩ := hreplaces.loads hkind hjson
    rw [hkey] at hloads
    rw [hread] at hfound hlater
    refine ⟨hfound, hcommitted, ?_, ?_⟩
    · rw [hcommitted]
      exact hloads
    · intro more hmore honce' fault' uuid' other answer hother
      exact update_refused hkind (stands_after hmore honce' hloads) hlater hother

end StoreCalls

/-! ## Creates and updates -/

/-- A create leaves what is there. -/
theorem createRecord_keeps (hkind : kind.Lawful) {fault : Fault} {limit : Result Unit}
    {uuid : BitVec 128} {record : R}
    (hload : loadRecord kind codec none d key = .ok (some r)) :
    loadRecord kind codec none (createRecord kind codec fault false limit uuid d record).2 key =
      .ok (some r) := by
  rcases createRecord_places kind codec fault limit uuid d record with hsame | ⟨hnone, hplaced⟩
  · rw [hsame]
    exact hload
  · have hother : key ≠ kind.key record := by
      rintro rfl
      cases hload.symm.trans hnone
    rw [hplaced, loadRecord_place_other hkind hother]
    exact hload

/-- A create of another key leaves what is not there. -/
theorem createRecord_absent (hkind : kind.Lawful) {fault : Fault} {limit : Result Unit}
    {uuid : BitVec 128} {record : R}
    (habsent : loadRecord kind codec none d key = .ok none) (hother : kind.key record ≠ key) :
    loadRecord kind codec none (createRecord kind codec fault false limit uuid d record).2 key =
      .ok none := by
  rcases createRecord_places kind codec fault limit uuid d record with hsame | ⟨-, hplaced⟩
  · rw [hsame]
    exact habsent
  · rw [hplaced, loadRecord_place_other hkind (Ne.symm hother)]
    exact habsent

/-- An update leaves what is there, or a later record. -/
theorem updateRecord_keeps (hkind : kind.Lawful) {fault : Fault} {uuid : BitVec 128}
    {expectedRevision : Nat} {record : R}
    (hjson : codec.decode (codec.encode (kind.withRevision (expectedRevision + 1) record)) =
      some (kind.withRevision (expectedRevision + 1) record))
    (hload : loadRecord kind codec none d key = .ok (some r)) :
    ∃ now, loadRecord kind codec none
        (updateRecord kind codec fault false uuid expectedRevision d record).2 key = .ok (some now) ∧
      Follows kind now r := by
  rcases updateRecord_places hkind codec fault uuid expectedRevision d record with
    ⟨hsame, -⟩ | ⟨current, hreplaces⟩
  · rw [hsame]
    exact ⟨r, hload, .inl rfl⟩
  · by_cases hsame : key = kind.key record
    · -- the record that was found is the one that is replaced
      subst hsame
      cases hreplaces.found.symm.trans hload
      obtain ⟨hloads, hlater⟩ := hreplaces.loads hkind hjson
      exact ⟨_, hloads, .inr hlater⟩
    · rw [hreplaces.placed, loadRecord_place_other hkind hsame]
      exact ⟨r, hload, .inl rfl⟩

/-- An update creates nothing. -/
theorem updateRecord_absent (hkind : kind.Lawful) {fault : Fault} {uuid : BitVec 128}
    {expectedRevision : Nat} {record : R}
    (habsent : loadRecord kind codec none d key = .ok none) :
    loadRecord kind codec none
        (updateRecord kind codec fault false uuid expectedRevision d record).2 key = .ok none := by
  rcases updateRecord_places hkind codec fault uuid expectedRevision d record with
    ⟨hsame, -⟩ | ⟨current, hreplaces⟩
  · rw [hsame]
    exact habsent
  · have hother : key ≠ kind.key record := by
      rintro rfl
      cases habsent.symm.trans hreplaces.found
    rw [hreplaces.placed, loadRecord_place_other hkind hother]
    exact habsent

end Records

/-! ## Conversations -/

section Conversations

variable {codec : Codec PersistedConversation} {d : Directory}
  {key : ProjectId × ConversationId} {r : PersistedConversation}

/-- The calls that may take the record of a key away. -/
def Change.Removes (key : ProjectId × ConversationId) : Change → Prop
  | .create _ _ _ | .update _ _ _ _ => False
  | .remove _ other => other = key
  | .removeProject _ _ projectId => projectId = key.1

/-- The calls that may put a record under a key where none is. -/
def Change.Creates (key : ProjectId × ConversationId) : Change → Prop
  | .create _ _ conversation => conversationKind.key conversation = key
  | .update _ _ _ _ | .remove _ _ | .removeProject _ _ _ => False

/-- The events of other keys say nothing of this one. -/
theorem lastSaved_other {start : Result (Option PersistedConversation)} {events : List Event}
    (h : ∀ e ∈ events, e.1 ≠ key) : lastSaved key start events = start := by
  induction events generalizing start with
  | nil => rfl
  | cons e events ih =>
    obtain ⟨other, record⟩ := e
    rw [lastSaved, if_neg (h _ List.mem_cons_self)]
    exact ih (fun e he => h e (List.mem_cons_of_mem _ he))

/-- After removals there is what was there, or nothing. -/
theorem lastSaved_removed {start : Result (Option PersistedConversation)} {events : List Event}
    (h : ∀ e ∈ events, e.2 = none) :
    lastSaved key start events = start ∨ lastSaved key start events = .ok none := by
  induction events generalizing start with
  | nil => exact .inl rfl
  | cons e events ih =>
    obtain ⟨other, record⟩ := e
    have hnone : record = none := h _ List.mem_cons_self
    rw [lastSaved, hnone]
    have hrest : ∀ e ∈ events, e.2 = none := fun e he => h e (List.mem_cons_of_mem _ he)
    split
    · rcases ih hrest with hgone | hgone
      · exact .inr hgone
      · exact .inr hgone
    · exact ih hrest

theorem eventOf_eq {α : Type} {outcome : Result α × Directory} {event e : Event}
    (h : e ∈ eventOf outcome d event) : e = event := by
  unfold eventOf at h
  split at h
  · exact List.mem_singleton.mp h
  · exact absurd h List.not_mem_nil

theorem removeEvents_project {faults : ConversationId → Fault} {projectId : ProjectId}
    {ids : List ConversationId} {e : Event} (h : e ∈ removeEvents faults projectId ids d) :
    e.1.1 = projectId ∧ e.2 = none := by
  induction ids generalizing d with
  | nil => exact absurd h List.not_mem_nil
  | cons c rest ih =>
    unfold removeEvents at h
    dsimp only at h
    rcases List.mem_append.mp h with h | h
    · rw [eventOf_eq h]
      exact ⟨rfl, rfl⟩
    · split at h
      · exact absurd h List.not_mem_nil
      · exact ih h

/-- The events of a removal are of the keys that it removes. -/
theorem Change.removal_events {change : Change} (hsaves : change.record = none) {e : Event}
    (h : e ∈ (change.run codec d).2) : change.Removes e.1 ∧ e.2 = none := by
  cases change with
  | create fault uuid conversation => cases hsaves
  | update fault uuid expectedRevision conversation => cases hsaves
  | remove fault other =>
    rw [eventOf_eq h]
    exact ⟨rfl, rfl⟩
  | removeProject fault faults projectId =>
    unfold Change.run at h
    dsimp only at h
    split at h
    · exact absurd h List.not_mem_nil
    · obtain ⟨hproject, hnone⟩ := removeEvents_project h
      exact ⟨hproject.symm, hnone⟩

/-- A removal leaves what is there, or takes it away. -/
theorem Change.removal_loads {change : Change} (hsaves : change.record = none) :
    loadConversation codec (change.run codec d).1 key = loadConversation codec d key ∨
      change.Removes key ∧ loadConversation codec (change.run codec d).1 key = .ok none := by
  have hjson : ∀ record ∈ change.record, codec.decode (codec.encode record) = some record := by
    rw [hsaves]
    exact fun _ h => by cases h
  have hexplains := explains_run hjson (d := d) key
  rw [hexplains]
  by_cases hremoves : change.Removes key
  · rcases lastSaved_removed (fun e he => (Change.removal_events hsaves he).2) with h | h
    · exact .inl h
    · exact .inr ⟨hremoves, h⟩
  · left
    refine lastSaved_other (fun e he heq => hremoves ?_)
    rw [← heq]
    exact (Change.removal_events hsaves he).1

/-- The calls on conversations. -/
def conversationCalls (codec : Codec PersistedConversation) :
    StoreCalls conversationKind codec Change where
  step d change := (change.run codec d).1
  saves := Change.record
  Removes := Change.Removes
  Creates := Change.Creates
  keeps {d change key r} hjson hload := by
    have hremoval : change.record = none →
        (∃ now, loadConversation codec (change.run codec d).1 key = .ok (some now) ∧
          Follows conversationKind now r) ∨
        change.Removes key ∧ loadConversation codec (change.run codec d).1 key = .ok none := by
      intro hsaves
      rcases Change.removal_loads hsaves with hsame | hgone
      · exact .inl ⟨r, hsame.trans hload, .inl rfl⟩
      · exact .inr hgone
    cases change with
    | create fault uuid conversation =>
      exact .inl ⟨r, createRecord_keeps conversationKind_lawful hload, .inl rfl⟩
    | update fault uuid expectedRevision conversation =>
      exact .inl (updateRecord_keeps conversationKind_lawful (hjson _ rfl) hload)
    | remove fault other => exact hremoval rfl
    | removeProject fault faults projectId => exact hremoval rfl
  absent {d change key} hjson habsent hcreates := by
    have hremoval : change.record = none →
        loadConversation codec (change.run codec d).1 key = .ok none := by
      intro hsaves
      rcases Change.removal_loads hsaves with hsame | hgone
      · exact hsame.trans habsent
      · exact hgone.2
    cases change with
    | create fault uuid conversation =>
      exact createRecord_absent conversationKind_lawful habsent hcreates
    | update fault uuid expectedRevision conversation =>
      exact updateRecord_absent conversationKind_lawful habsent
    | remove fault other => exact hremoval rfl
    | removeProject fault faults projectId => exact hremoval rfl

end Conversations

/-! ## Project states -/

/-- `remove_project_state`, under the gate. -/
def removeProjectState (fault : Fault) (d : Directory) (projectId : ProjectId) :
    Result Unit × Directory :=
  match openRoot fault .remove with
  | .error e => (.error e, d)
  | .ok () =>
    match inspectStateForRead fault .remove d (projectStateKind.target projectId) with
    | .error e => (.error e, d)
    | .ok none => (.ok (), d)
    | .ok (some _) =>
      match attempt fault .unlinkRecord "project_state_remove_failed" with
      | .error e => (.error e, d)
      | .ok () =>
        (attempt fault .syncRoot "project_state_parent_sync_failed",
          without d (projectStateKind.target projectId))

/-- A removal leaves the directory, or takes the name away. -/
theorem removeProjectState_cases (fault : Fault) (d : Directory) (projectId : ProjectId) :
    (removeProjectState fault d projectId).2 = d ∨
      (removeProjectState fault d projectId).2 = without d (projectStateKind.target projectId) := by
  unfold removeProjectState
  split
  · exact .inl rfl
  · split
    · exact .inl rfl
    · exact .inl rfl
    · split
      · exact .inl rfl
      · exact .inr rfl

/-- A call that saves or removes a project state, with the step of it that fails. -/
inductive StateChange where
  | create (fault : Fault) (uuid : BitVec 128) (state : PersistedProjectState)
  | update (fault : Fault) (uuid : BitVec 128) (expectedRevision : Nat)
      (state : PersistedProjectState)
  | remove (fault : Fault) (projectId : ProjectId)

namespace StateChange

/-- The record a call saves. -/
def record : StateChange → Option PersistedProjectState
  | .create _ _ state => some state
  | .update _ _ expectedRevision state => some { state with revision := expectedRevision + 1 }
  | .remove _ _ => none

/-- The directory after a call. -/
def run (codec : Codec PersistedProjectState) (d : Directory) : StateChange → Directory
  | .create fault uuid state => (createProjectState codec fault false uuid d state).2
  | .update fault uuid expectedRevision state =>
    (updateProjectState codec fault false uuid expectedRevision d state).2
  | .remove fault projectId => (removeProjectState fault d projectId).2

/-- The removals of a key. -/
def Removes (key : ProjectId) : StateChange → Prop
  | .create _ _ _ | .update _ _ _ _ => False
  | .remove _ projectId => projectId = key

/-- The creates of a key. -/
def Creates (key : ProjectId) : StateChange → Prop
  | .create _ _ state => state.projectId = key
  | .update _ _ _ _ | .remove _ _ => False

end StateChange

/-- A removal leaves what is there, or takes it away. -/
theorem removeProjectState_loads (codec : Codec PersistedProjectState) {d : Directory}
    {fault : Fault} {projectId key : ProjectId} :
    loadRecord projectStateKind codec none (removeProjectState fault d projectId).2 key =
        loadRecord projectStateKind codec none d key ∨
      projectId = key ∧
        loadRecord projectStateKind codec none (removeProjectState fault d projectId).2 key =
          .ok none := by
  rcases removeProjectState_cases fault d projectId with hsame | hremoved
  · rw [hsame]
    exact .inl rfl
  · rw [hremoved]
    by_cases hkey : projectId = key
    · subst hkey
      exact .inr ⟨rfl, loadRecord_absent (entryOf_without_self d _)⟩
    · left
      refine loadRecord_congr (entryOf_without ?_)
      exact fun heq => hkey (target_injective projectStateKind_lawful heq).symm

/-- The calls on project states. -/
def stateCalls (codec : Codec PersistedProjectState) :
    StoreCalls projectStateKind codec StateChange where
  step := StateChange.run codec
  saves := StateChange.record
  Removes := StateChange.Removes
  Creates := StateChange.Creates
  keeps {d change key r} hjson hload := by
    cases change with
    | create fault uuid state =>
      exact .inl ⟨r, createRecord_keeps projectStateKind_lawful hload, .inl rfl⟩
    | update fault uuid expectedRevision state =>
      exact .inl (updateRecord_keeps projectStateKind_lawful (hjson _ rfl) hload)
    | remove fault projectId =>
      rcases removeProjectState_loads codec with hsame | hgone
      · exact .inl ⟨r, hsame.trans hload, .inl rfl⟩
      · exact .inr hgone
  absent {d change key} hjson habsent hcreates := by
    cases change with
    | create fault uuid state =>
      exact createRecord_absent projectStateKind_lawful habsent hcreates
    | update fault uuid expectedRevision state =>
      exact updateRecord_absent projectStateKind_lawful habsent
    | remove fault projectId =>
      rcases removeProjectState_loads codec with hsame | hgone
      · exact hsame.trans habsent
      · exact hgone.2

/-! ## The law -/

/-- **Compare-and-swap.**  Both kinds of records obey the law of swaps, whatever calls are made in
    whatever order, and whatever step of them fails. -/
theorem compare_and_swap_law (codec : Codec PersistedConversation)
    (stateCodec : Codec PersistedProjectState) :
    (conversationCalls codec).SwapLaw ∧ (stateCalls stateCodec).SwapLaw := by
  constructor
  · exact StoreCalls.swapLaw conversationKind_lawful (conversationCalls codec)
  · exact StoreCalls.swapLaw projectStateKind_lawful (stateCalls stateCodec)

/-! ## A record that is created again -/

/-- Another conversation under the same ids. -/
def renamedConversation : PersistedConversation := { newConversation 0 with title := some "b" }

/-- Its JSON. -/
def renamedConversationJson : List Char :=
  "\x7b\"schema\":1,\"revision\":0,".toList ++
    "\"conversation_id\":\"00000000-0000-0000-0000-000000000002\",".toList ++
    "\"project_id\":\"00000000-0000-0000-0000-000000000001\",".toList ++
    "\"session_creation_pending\":true,\"agent_session\":null,\"turn_pending\":false,".toList ++
    "\"title\":\"b\",\"messages\":[]\x7d".toList

/-- The encoding of both. -/
def renamedCodec : Codec PersistedConversation where
  encode conversation :=
    if conversation = renamedConversation then encode renamedConversationJson
    else newConversationCodec.encode conversation
  decode bytes :=
    if bytes = encode renamedConversationJson then some renamedConversation
    else newConversationCodec.decode bytes

/-- A client reads a conversation; it is removed and created again under another title; and the
    client's update is accepted over this other record. -/
theorem removed_record_updated :
    let d := (createConversation renamedCodec none false 7 [] (newConversation 0)).2
    let reached := ((conversationCalls renamedCodec).after d
      [.remove none (⟨1⟩, ⟨2⟩), .create none 8 renamedConversation])
    loadConversation renamedCodec d (⟨1⟩, ⟨2⟩) = .ok (some (newConversation 0)) ∧
      loadConversation renamedCodec reached (⟨1⟩, ⟨2⟩) = .ok (some renamedConversation) ∧
      renamedConversation ≠ newConversation 0 ∧
      (updateConversation renamedCodec none false 9 (newConversation 0).revision reached
        (newConversation 0)).1 = .ok (newConversation 1) := by
  decide +kernel

end VibeCoder.Persistence
