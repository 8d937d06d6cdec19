/-
  The listings of the two stores after any sequence of accepted calls.

  All conversations are in one directory, and all project states in another.  A creation of a
  conversation counts those of its project; a listing counts every entry.

  1. **Tidy** — after accepted calls a directory has one private file for each live key, and no others.
  2. **Listing** — what a listing of a tidy directory gives, and when it is refused.
  3. **Runs** — `Accepted`: the stores that accepted calls lead to, with the keys that are live.
  4. **The law** (`store_isolation_iff`) — the listings succeed, and a project's conversations can be
     created and removed whatever the others hold, exactly up to the bounds of the directories.
  5. **The defect** — no creation looks at the bound on projects (`crowded_projects_not_listed`).
-/
import VibeCoder.Persistence.CompareAndSwap

namespace VibeCoder.Persistence

open Chars

/-! ## Listing projects -/

def maxPersistedProjects : Nat := 4096

def unexpectedState : VibeCoderError := persistenceError "project_state_directory_unexpected_entry"

def orUnexpectedState {α : Type} : Option α → Result α
  | none => .error unexpectedState
  | some a => .ok a

/-- What `list_project_ids` reads from a name. -/
def parseStateFileName (text : List Char) : Result ProjectId := do
  let stem ← orUnexpectedState (stripSuffix text ".json".toList)
  let uuid ← orUnexpectedState (UuidText.parseStr (String.ofList stem))
  if stem ≠ uuidText uuid then throw unexpectedState
  return ⟨uuid⟩

/-- The loop of `list_project_ids`. -/
def listProjectsLoop (fault : Fault) (maxProjects : Nat) :
    (index : Nat) → List ProjectId → Directory → Result (List ProjectId)
  | index, ids, [] => do
    attempt fault (.listRead index) "project_state_list_read_failed"
    return ids
  | index, ids, (name, entry) :: rest => do
    attempt fault (.listRead index) "project_state_list_read_failed"
    if index + 1 > maxStateDirectoryEntries then
      throw (persistenceError "project_state_directory_too_large")
    if (encode projectStateKind.tempPrefix).isPrefixOf name then
      listProjectsLoop fault maxProjects (index + 1) ids rest
    else
      let text ← orUnexpectedState (decode name)
      let projectId ← parseStateFileName text
      attempt fault (.listStat index) "project_state_list_stat_failed"
      verifyPrivateRegularStat entry.stat "project_state_target_invalid"
      if (ids ++ [projectId]).length > maxProjects then
        throw (persistenceError "project_state_list_limit_exceeded")
      listProjectsLoop fault maxProjects (index + 1) (ids ++ [projectId]) rest

/-- `list_project_ids`.  The directory is given without `.` and `..`. -/
def listProjectIds (fault : Fault) (d : Directory) (maxProjects : Nat) :
    Result (List ProjectId) := do
  openRoot fault .list
  attempt fault .listDup "project_state_list_dup_failed"
  attempt fault .listOpen "project_state_list_open_failed"
  let ids ← listProjectsLoop fault maxProjects 0 [] d
  return ids.mergeSort (fun a b => UuidText.hyphenated a.uuid ≤ UuidText.hyphenated b.uuid)

theorem parseStateFileName_name (projectId : ProjectId) :
    parseStateFileName (stateFileName projectId) = .ok projectId := by
  have hstem : stripSuffix (stateFileName projectId) ".json".toList =
      some (uuidText projectId.uuid) := stripSuffix_iff.mpr rfl
  unfold parseStateFileName
  rw [hstem, orUnexpectedState]
  simp only [bind, Except.bind, parseStr_uuidText, orUnexpectedState]
  rw [if_neg (not_not.mpr rfl)]
  rfl

/-! ## Tidy directories -/

section Tidy

variable {K R : Type} {kind : RecordKind K R} {codec : Codec R} {d : Directory} {keys : List K}
  {key : K}

/-- One private file for each key, in this order. -/
structure Tidy (kind : RecordKind K R) (d : Directory) (keys : List K) : Prop where
  names : d.map Prod.fst = keys.map kind.target
  distinct : keys.Nodup
  safe : ∀ e ∈ d, e.2.stat = newEntry.stat

theorem tidy_empty : Tidy kind [] ([] : List K) :=
  ⟨rfl, List.nodup_nil, fun _ h => absurd h List.not_mem_nil⟩

theorem Tidy.length (h : Tidy kind d keys) : d.length = keys.length := by
  have hlength := congrArg List.length h.names
  rwa [List.length_map, List.length_map] at hlength

theorem Tidy.named (h : Tidy kind d keys) {e : List UInt8 × Entry} (he : e ∈ d) :
    ∃ other ∈ keys, kind.target other = e.1 := by
  have hname : e.1 ∈ keys.map kind.target := by
    rw [← h.names]
    exact List.mem_map_of_mem he
  exact List.mem_map.mp hname

theorem Tidy.entry_iff (hkind : kind.Lawful) (h : Tidy kind d keys) :
    entryOf d (kind.target key) = none ↔ key ∉ keys := by
  rw [entryOf_eq_none]
  constructor
  · intro hnone hin
    have hname : kind.target key ∈ d.map Prod.fst := by
      rw [h.names]
      exact List.mem_map_of_mem hin
    obtain ⟨e, he, heq⟩ := List.mem_map.mp hname
    exact hnone e he heq
  · intro hnot e he heq
    obtain ⟨other, hother, htarget⟩ := h.named he
    cases target_injective hkind (htarget.trans heq)
    exact hnot hother

/-- No temporary name is taken. -/
theorem Tidy.free (hkind : kind.Lawful) (h : Tidy kind d keys) (uuid : BitVec 128) :
    entryOf d (kind.temp uuid) = none := by
  rw [entryOf_eq_none]
  intro e he heq
  obtain ⟨other, -, htarget⟩ := h.named he
  exact target_ne_temp hkind other (prefix_temp kind uuid) (htarget.trans heq).symm

variable [DecidableEq K]

theorem Tidy.without (hkind : kind.Lawful) (h : Tidy kind d keys) (key : K) :
    Tidy kind (without d (kind.target key)) (keys.filter (fun other => decide (other ≠ key))) := by
  refine ⟨?_, h.distinct.filter _, fun e he => h.safe e (List.mem_filter.mp he).1⟩
  have hnames : (Persistence.without d (kind.target key)).map Prod.fst =
      (d.map Prod.fst).filter (fun name => name != kind.target key) := by
    rw [Persistence.without, List.filter_map]
    rfl
  rw [hnames, h.names, List.filter_map]
  congr 1
  refine List.filter_congr (fun other _ => ?_)
  show (kind.target other != kind.target key) = decide (other ≠ key)
  by_cases hsame : other = key
  · rw [hsame, bne_self_eq_false, decide_eq_false (not_not.mpr rfl)]
  · have htarget : kind.target other ≠ kind.target key :=
      fun heq => hsame (target_injective hkind heq)
    rw [bne_iff_ne.mpr htarget, decide_eq_true hsame]

theorem nodup_moved (hnodup : keys.Nodup) :
    (keys.filter (fun other => decide (other ≠ key)) ++ [key]).Nodup := by
  rw [List.nodup_append]
  refine ⟨hnodup.filter _, List.nodup_singleton key, fun a ha b hb => ?_⟩
  rw [List.mem_singleton.mp hb]
  exact of_decide_eq_true (List.mem_filter.mp ha).2

theorem Tidy.place (hkind : kind.Lawful) (h : Tidy kind d keys) (key : K) (bytes : List UInt8) :
    Tidy kind (place d (kind.target key) bytes)
      (keys.filter (fun other => decide (other ≠ key)) ++ [key]) := by
  have hrest := h.without hkind key
  refine ⟨?_, ?_, fun e he => ?_⟩
  · rw [Persistence.place, List.map_append, hrest.names, List.map_append]
    rfl
  · exact nodup_moved h.distinct
  · rcases List.mem_append.mp he with hold | hnew
    · exact hrest.safe e hold
    · rw [List.mem_singleton.mp hnew]

theorem filter_fresh (h : key ∉ keys) : keys.filter (fun other => decide (other ≠ key)) = keys := by
  rw [List.filter_eq_self]
  intro other hother
  refine decide_eq_true ?_
  rintro rfl
  exact h hother

/-- A key that is placed again goes to the end. -/
theorem filter_append_perm (hnodup : keys.Nodup) (h : key ∈ keys) :
    (keys.filter (fun other => decide (other ≠ key)) ++ [key]).Perm keys := by
  rw [List.perm_ext_iff_of_nodup (nodup_moved hnodup) hnodup]
  intro other
  rw [List.mem_append, List.mem_filter, List.mem_singleton, decide_eq_true_eq]
  constructor
  · rintro (⟨hin, -⟩ | rfl)
    · exact hin
    · exact h
  · intro hin
    by_cases hsame : other = key
    · exact .inr hsame
    · exact .inl ⟨hin, hsame⟩

/-! ## Accepted calls -/

theorem createRecord_ok {limit : Result Unit} {uuid : BitVec 128} {record : R} {d' : Directory}
    (h : createRecord kind codec none false limit uuid d record = (.ok (), d')) :
    loadRecord kind codec none d (kind.key record) = .ok none ∧ limit = .ok () ∧
      d' = place d (kind.target (kind.key record)) (codec.encode record) := by
  unfold createRecord at h
  cases hchecks : createChecks kind codec none false limit d record with
  | error e =>
    rw [hchecks] at h
    cases h
  | ok _ =>
    rw [hchecks] at h
    dsimp only at h
    obtain ⟨-, -, -, habsent, hlimit⟩ := createChecks_iff.mp hchecks
    rcases saveRecord_cases kind codec none uuid d record with ⟨e, hsave⟩ | ⟨-, -, hsave⟩
    · rw [hsave] at h
      cases h
    · rw [hsave] at h
      cases h
      exact ⟨habsent, hlimit, rfl⟩

/-- A create that nothing stands against. -/
theorem createRecord_accepted {limit : Result Unit} {uuid : BitVec 128} {record : R}
    (hready : CreateReady kind codec false limit uuid d record) :
    createRecord kind codec none false limit uuid d record =
      (.ok (), place d (kind.target (kind.key record)) (codec.encode record)) := by
  have hchecks : createChecks kind codec none false limit d record = .ok () :=
    createChecks_iff.mpr ⟨hready.valid, hready.revision, rfl, hready.absent, hready.limit⟩
  have hstart : saveStart kind codec none d record = .ok () :=
    (saveStart_iff (.inl rfl)).mpr ⟨hready.fits, replaceable hready.absent⟩
  have htemp : ¬ OnTemp none := by
    rintro (h | ⟨_, h⟩ | h | h) <;> cases h
  unfold createRecord
  rw [hchecks]
  dsimp only
  rw [saveRecord_reached hstart hready.free (by decide) htemp]
  rfl

theorem Tidy.created (hkind : kind.Lawful) (h : Tidy kind d keys) {limit : Result Unit}
    {uuid : BitVec 128} {record : R} {d' : Directory}
    (hcreate : createRecord kind codec none false limit uuid d record = (.ok (), d')) :
    kind.key record ∉ keys ∧ Tidy kind d' (keys ++ [kind.key record]) := by
  obtain ⟨habsent, -, rfl⟩ := createRecord_ok hcreate
  have hfresh : kind.key record ∉ keys := by
    rw [← h.entry_iff hkind]
    rcases loadRecord_eq_ok habsent with ⟨-, hnone⟩ | ⟨_, _, hsome, -⟩
    · exact hnone
    · cases hsome
  refine ⟨hfresh, ?_⟩
  have hplaced := h.place hkind (kind.key record) (codec.encode record)
  rwa [filter_fresh hfresh] at hplaced

theorem Tidy.updated (hkind : kind.Lawful) (h : Tidy kind d keys) {uuid : BitVec 128}
    {expectedRevision : Nat} {record committed : R} {d' : Directory}
    (hupdate : updateRecord kind codec none false uuid expectedRevision d record =
      (.ok committed, d')) :
    ∃ order, Tidy kind d' order ∧ order.Perm keys := by
  rcases updateRecord_places hkind codec none uuid expectedRevision d record with
    ⟨-, e, herror⟩ | ⟨current, hreplaces⟩
  · rw [hupdate] at herror
    cases herror
  · have hin : kind.key record ∈ keys := by
      by_contra hnot
      have hnone : loadRecord kind codec none d (kind.key record) = .ok none :=
        loadRecord_absent ((h.entry_iff hkind).mpr hnot)
      cases hnone.symm.trans hreplaces.found
    have hplaced := hreplaces.placed
    rw [hupdate] at hplaced
    dsimp only at hplaced
    rw [hplaced]
    exact ⟨_, h.place hkind _ _, filter_append_perm h.distinct hin⟩

end Tidy

/-! ## Listing -/

/-- The conversations of a project among some keys. -/
def owned (projectId : ProjectId) (keys : List (ProjectId × ConversationId)) :
    List ConversationId :=
  (keys.filter (fun key => key.1 == projectId)).map Prod.snd

theorem mem_owned {projectId : ProjectId} {keys : List (ProjectId × ConversationId)}
    {c : ConversationId} : c ∈ owned projectId keys ↔ (projectId, c) ∈ keys := by
  unfold owned
  rw [List.mem_map]
  constructor
  · rintro ⟨⟨p, e⟩, hfound, rfl⟩
    obtain ⟨hmem, hproject⟩ := List.mem_filter.mp hfound
    rw [beq_iff_eq] at hproject
    dsimp only at hproject
    rw [← hproject]
    exact hmem
  · intro hin
    exact ⟨(projectId, c), List.mem_filter.mpr ⟨hin, beq_self_eq_true _⟩, rfl⟩

theorem decode_target {K R : Type} (kind : RecordKind K R) (key : K) :
    decode (kind.target key) = some (kind.fileName key) := decode_iff.mpr rfl

theorem isPrefixOf_target {K R : Type} {kind : RecordKind K R} (hkind : kind.Lawful) (key : K) :
    ¬ (encode kind.tempPrefix).isPrefixOf (kind.target key) = true :=
  fun h => hkind.not_temp key (List.isPrefixOf_iff_prefix.mp h)

theorem verify_safe {stat : Stat} (h : stat = newEntry.stat) (code : String) :
    verifyPrivateRegularStat stat code = .ok () := by
  rw [h]
  exact verifyPrivateRegularStat_new

/-- One entry of a tidy directory. -/
theorem listLoop_entry {projectId : ProjectId} {limit index : Nat} {ids : List ConversationId}
    {key : ProjectId × ConversationId} {entry : Entry} {rest : Directory}
    (hsafe : entry.stat = newEntry.stat) (hindex : index + 1 ≤ maxStateDirectoryEntries) :
    listLoop none projectId limit index ids ((conversationKind.target key, entry) :: rest) =
      if key.1 = projectId then
        if (ids ++ [key.2]).length > limit then
          .error (persistenceError "conversation_list_limit_exceeded")
        else listLoop none projectId limit (index + 1) (ids ++ [key.2]) rest
      else listLoop none projectId limit (index + 1) ids rest := by
  have hparse : parseConversationFileName (conversationKind.fileName key) = .ok (key.1, key.2) :=
    parseConversationFileName_iff.mpr rfl
  rw [listLoop]
  simp only [attempt, bind, Except.bind, decode_target, orUnexpected, hparse, verify_safe hsafe,
    if_neg (Nat.not_lt.mpr hindex), if_neg (isPrefixOf_target conversationKind_lawful key)]
  rfl

/-- **A listing within the bounds** gives the conversations of the project. -/
theorem listLoop_ok {projectId : ProjectId} {limit : Nat} (d : Directory) :
    ∀ {index : Nat} {ids : List ConversationId} {keys : List (ProjectId × ConversationId)},
      d.map Prod.fst = keys.map conversationKind.target →
      (∀ e ∈ d, e.2.stat = newEntry.stat) → index + keys.length ≤ maxStateDirectoryEntries →
      ids.length + (owned projectId keys).length ≤ limit →
        listLoop none projectId limit index ids d = .ok (ids ++ owned projectId keys) := by
  -- over the rest of the directory; `index` counts every entry, `ids` only those of the project
  induction d with
  | nil =>
    intro index ids keys hnames _ _ _
    have hnil : keys = [] := List.map_eq_nil_iff.mp hnames.symm
    subst hnil
    rw [owned, List.filter_nil, List.map_nil, List.append_nil]
    rfl
  | cons e rest ih =>
    intro index ids keys hnames hsafe hindex hlimit
    obtain ⟨name, entry⟩ := e
    cases keys with
    | nil => cases hnames
    | cons key keys =>
      obtain ⟨hname, hrest⟩ := List.cons.inj hnames
      have hname' : name = conversationKind.target key := hname
      subst hname'
      rw [List.length_cons] at hindex
      rw [listLoop_entry (hsafe _ List.mem_cons_self) (by omega)]
      have hsafe' : ∀ e ∈ rest, e.2.stat = newEntry.stat :=
        fun e he => hsafe e (List.mem_cons_of_mem _ he)
      by_cases hproject : key.1 = projectId
      · have howned : owned projectId (key :: keys) = key.2 :: owned projectId keys := by
          rw [owned, List.filter_cons_of_pos (by rw [hproject, beq_self_eq_true]), List.map_cons]
          rfl
        rw [howned, List.length_cons] at hlimit
        have hroom : ¬ (ids ++ [key.2]).length > limit := by
          rw [List.length_append, List.length_singleton]
          omega
        rw [if_pos hproject, if_neg hroom, ih hrest hsafe' (by omega) (by
          rw [List.length_append, List.length_singleton]
          omega), howned, List.append_assoc]
        rfl
      · have howned : owned projectId (key :: keys) = owned projectId keys := by
          rw [owned, List.filter_cons_of_neg (by rw [beq_iff_eq]; exact hproject)]
          rfl
        rw [howned] at hlimit ⊢
        rw [if_neg hproject]
        exact ih hrest hsafe' (by omega) hlimit

/-- **A listing of too many entries** is refused, whoever they belong to. -/
theorem listLoop_refused {projectId : ProjectId} {limit : Nat} (d : Directory) :
    ∀ {index : Nat} {ids : List ConversationId} {keys : List (ProjectId × ConversationId)},
      d.map Prod.fst = keys.map conversationKind.target →
      (∀ e ∈ d, e.2.stat = newEntry.stat) → index ≤ maxStateDirectoryEntries →
      index + keys.length > maxStateDirectoryEntries →
        ∃ e, listLoop none projectId limit index ids d = .error e := by
  induction d with
  | nil =>
    intro index ids keys hnames _ hindex hmany
    have hnil : keys = [] := List.map_eq_nil_iff.mp hnames.symm
    subst hnil
    rw [List.length_nil] at hmany
    omega
  | cons e rest ih =>
    intro index ids keys hnames hsafe hindex hmany
    obtain ⟨name, entry⟩ := e
    cases keys with
    | nil => cases hnames
    | cons key keys =>
      obtain ⟨hname, hrest⟩ := List.cons.inj hnames
      have hname' : name = conversationKind.target key := hname
      subst hname'
      rw [List.length_cons] at hmany
      have hsafe' : ∀ e ∈ rest, e.2.stat = newEntry.stat :=
        fun e he => hsafe e (List.mem_cons_of_mem _ he)
      by_cases hnext : index + 1 ≤ maxStateDirectoryEntries
      · rw [listLoop_entry (hsafe _ List.mem_cons_self) hnext]
        split
        · split
          · exact ⟨_, rfl⟩
          · exact ih hrest hsafe' hnext (by omega)
        · exact ih hrest hsafe' hnext (by omega)
      · refine ⟨persistenceError "conversation_directory_too_large", ?_⟩
        rw [listLoop]
        simp only [attempt, bind, Except.bind, if_pos (Nat.lt_of_not_le hnext)]
        rfl

/-- One entry of a tidy directory of project states. -/
theorem listProjectsLoop_entry {limit index : Nat} {ids : List ProjectId} {key : ProjectId}
    {entry : Entry} {rest : Directory} (hsafe : entry.stat = newEntry.stat)
    (hindex : index + 1 ≤ maxStateDirectoryEntries) :
    listProjectsLoop none limit index ids ((projectStateKind.target key, entry) :: rest) =
      if (ids ++ [key]).length > limit then
        .error (persistenceError "project_state_list_limit_exceeded")
      else listProjectsLoop none limit (index + 1) (ids ++ [key]) rest := by
  have hparse : parseStateFileName (projectStateKind.fileName key) = .ok key :=
    parseStateFileName_name key
  rw [listProjectsLoop]
  simp only [attempt, bind, Except.bind, decode_target, orUnexpectedState, hparse,
    verify_safe hsafe, if_neg (Nat.not_lt.mpr hindex),
    if_neg (isPrefixOf_target projectStateKind_lawful key)]
  rfl

theorem listProjectsLoop_tidy (limit : Nat) (hlimit : limit ≤ maxStateDirectoryEntries)
    (d : Directory) :
    ∀ ids keys : List ProjectId, d.map Prod.fst = keys.map projectStateKind.target →
      (∀ e ∈ d, e.2.stat = newEntry.stat) → ids.length ≤ limit →
        (ids.length + keys.length ≤ limit →
          listProjectsLoop none limit ids.length ids d = .ok (ids ++ keys)) ∧
        (ids.length + keys.length > limit →
          ∃ e, listProjectsLoop none limit ids.length ids d = .error e) := by
  induction d with
  | nil =>
    intro ids keys hnames _ hids
    have hnil : keys = [] := List.map_eq_nil_iff.mp hnames.symm
    subst hnil
    refine ⟨fun _ => ?_, fun hmany => ?_⟩
    · rw [List.append_nil]
      rfl
    · rw [List.length_nil] at hmany
      omega
  | cons e rest ih =>
    intro ids keys hnames hsafe hids
    obtain ⟨name, entry⟩ := e
    cases keys with
    | nil => cases hnames
    | cons key keys =>
      obtain ⟨hname, hrest⟩ := List.cons.inj hnames
      have hname' : name = projectStateKind.target key := hname
      subst hname'
      have hlength : (ids ++ [key]).length = ids.length + 1 := by
        rw [List.length_append, List.length_singleton]
      have hsafe' : ∀ e ∈ rest, e.2.stat = newEntry.stat :=
        fun e he => hsafe e (List.mem_cons_of_mem _ he)
      rw [List.length_cons]
      by_cases hroom : ids.length + 1 ≤ limit
      · obtain ⟨hok, herror⟩ := ih (ids ++ [key]) keys hrest hsafe' (by omega)
        rw [hlength] at hok herror
        rw [listProjectsLoop_entry (hsafe _ List.mem_cons_self) (by omega), hlength,
          if_neg (Nat.not_lt.mpr hroom)]
        refine ⟨fun hfew => ?_, fun hmany => herror (by omega)⟩
        rw [hok (by omega), List.append_assoc]
        rfl
      · refine ⟨fun hfew => by omega, fun _ => ?_⟩
        by_cases hnext : ids.length + 1 ≤ maxStateDirectoryEntries
        · rw [listProjectsLoop_entry (hsafe _ List.mem_cons_self) hnext, hlength,
            if_pos (Nat.lt_of_not_le hroom)]
          exact ⟨_, rfl⟩
        · refine ⟨persistenceError "project_state_directory_too_large", ?_⟩
          rw [listProjectsLoop]
          simp only [attempt, bind, Except.bind, if_pos (Nat.lt_of_not_le hnext)]
          rfl

/-- The order of a listing. -/
def inOrder {K : Type} (uuid : K → BitVec 128) (ids : List K) : Prop :=
  ids.Pairwise (fun a b => UuidText.hyphenated (uuid a) ≤ UuidText.hyphenated (uuid b))

theorem sorted_ids {K : Type} (uuid : K → BitVec 128) (ids : List K) :
    inOrder uuid (ids.mergeSort
      (fun a b => UuidText.hyphenated (uuid a) ≤ UuidText.hyphenated (uuid b))) := by
  have htrans : ∀ a b c : K,
      decide (UuidText.hyphenated (uuid a) ≤ UuidText.hyphenated (uuid b)) = true →
        decide (UuidText.hyphenated (uuid b) ≤ UuidText.hyphenated (uuid c)) = true →
          decide (UuidText.hyphenated (uuid a) ≤ UuidText.hyphenated (uuid c)) = true :=
    fun a b c hab hbc => decide_eq_true
      (String.le_trans (of_decide_eq_true hab) (of_decide_eq_true hbc))
  have htotal : ∀ a b : K,
      (decide (UuidText.hyphenated (uuid a) ≤ UuidText.hyphenated (uuid b)) ||
        decide (UuidText.hyphenated (uuid b) ≤ UuidText.hyphenated (uuid a))) = true := by
    intro a b
    rw [Bool.or_eq_true, decide_eq_true_eq, decide_eq_true_eq]
    exact String.le_total _ _
  exact (List.pairwise_mergeSort htrans htotal ids).imp (fun h => of_decide_eq_true h)

section Directories

variable {d : Directory}

theorem listConversationIds_tidy {order : List (ProjectId × ConversationId)}
    (h : Tidy conversationKind d order) {projectId : ProjectId}
    (hfew : (owned projectId order).length ≤ maxPersistedConversationsPerProject) :
    (order.length ≤ maxStateDirectoryEntries →
      ∃ ids, listConversationIds none d projectId maxPersistedConversationsPerProject = .ok ids ∧
        ids.Perm (owned projectId order) ∧ inOrder ConversationId.uuid ids) ∧
    (order.length > maxStateDirectoryEntries →
      ∃ e, listConversationIds none d projectId maxPersistedConversationsPerProject = .error e) := by
  have hlist : listConversationIds none d projectId maxPersistedConversationsPerProject =
      (listLoop none projectId maxPersistedConversationsPerProject 0 [] d).map (fun ids =>
        ids.mergeSort (fun a b => UuidText.hyphenated a.uuid ≤ UuidText.hyphenated b.uuid)) := by
    unfold listConversationIds
    cases listLoop none projectId maxPersistedConversationsPerProject 0 [] d <;> rfl
  rw [hlist]
  constructor
  · intro hroom
    have hok : listLoop none projectId maxPersistedConversationsPerProject 0 [] d =
        .ok ([] ++ owned projectId order) :=
      listLoop_ok d h.names h.safe (by omega) (by rw [List.length_nil]; omega)
    rw [hok]
    exact ⟨_, rfl, List.mergeSort_perm _ _, sorted_ids _ _⟩
  · intro hmany
    have hrefused : ∃ e, listLoop none projectId maxPersistedConversationsPerProject 0 [] d =
        .error e := listLoop_refused d h.names h.safe (Nat.zero_le _) (by omega)
    obtain ⟨e, herror⟩ := hrefused
    rw [herror]
    exact ⟨e, rfl⟩

theorem listProjectIds_tidy {order : List ProjectId} (h : Tidy projectStateKind d order) :
    (order.length ≤ maxPersistedProjects →
      ∃ ids, listProjectIds none d maxPersistedProjects = .ok ids ∧ ids.Perm order ∧
        inOrder ProjectId.uuid ids) ∧
    (order.length > maxPersistedProjects →
      ∃ e, listProjectIds none d maxPersistedProjects = .error e) := by
  have hlist : listProjectIds none d maxPersistedProjects =
      (listProjectsLoop none maxPersistedProjects 0 [] d).map (fun ids =>
        ids.mergeSort (fun a b => UuidText.hyphenated a.uuid ≤ UuidText.hyphenated b.uuid)) := by
    unfold listProjectIds
    cases listProjectsLoop none maxPersistedProjects 0 [] d <;> rfl
  obtain ⟨hok, herror⟩ := listProjectsLoop_tidy maxPersistedProjects (by decide) d [] order
    h.names h.safe (Nat.zero_le _)
  rw [List.length_nil, Nat.zero_add] at hok herror
  rw [hlist]
  constructor
  · intro hroom
    rw [hok hroom]
    exact ⟨_, rfl, List.mergeSort_perm _ _, sorted_ids _ _⟩
  · intro hmany
    obtain ⟨e, hrefused⟩ := herror hmany
    rw [hrefused]
    exact ⟨e, rfl⟩

/-! ## Removals -/

theorem inspect_tidy {K R : Type} {kind : RecordKind K R} {keys : List K} (h : Tidy kind d keys)
    (purpose : Purpose) (name : List UInt8) :
    inspectStateForRead none purpose d name = .ok (entryOf d name) := by
  unfold inspectStateForRead fstatatOptional
  have hpass : ¬ (none : Fault) = some (Step.inspect purpose) := fun h => by cases h
  simp only [attempt, bind, Except.bind, pure, Except.pure, if_neg hpass]
  cases hentry : entryOf d name with
  | none => rfl
  | some entry =>
    have hmem : ∃ e ∈ d, e.2 = entry := by
      unfold entryOf at hentry
      obtain ⟨e, hfind, rfl⟩ := Option.map_eq_some_iff.mp hentry
      exact ⟨e, List.mem_of_find?_eq_some hfind, rfl⟩
    obtain ⟨e, he, rfl⟩ := hmem
    dsimp only
    rw [verify_safe (h.safe e he)]

/-- The removal of one conversation is never refused. -/
theorem removeConversation_tidy {keys : List (ProjectId × ConversationId)}
    (h : Tidy conversationKind d keys) (key : ProjectId × ConversationId) :
    removeConversation none d key = (.ok (), without d (conversationKind.target key)) := by
  unfold removeConversation
  rw [show openRoot none .remove = .ok () from rfl]
  dsimp only
  rw [inspect_tidy h]
  cases hentry : entryOf d (conversationKind.target key) with
  | none =>
    dsimp only
    rw [without_of_none hentry]
  | some entry => rfl

theorem removeProjectState_tidy {keys : List ProjectId} (h : Tidy projectStateKind d keys)
    (projectId : ProjectId) :
    removeProjectState none d projectId =
      (.ok (), without d (projectStateKind.target projectId)) := by
  unfold removeProjectState
  rw [show openRoot none .remove = .ok () from rfl]
  dsimp only
  rw [inspect_tidy h]
  cases hentry : entryOf d (projectStateKind.target projectId) with
  | none =>
    dsimp only
    rw [without_of_none hentry]
  | some entry => rfl

/-- Removing some conversations of a project. -/
theorem removeAll_tidy {projectId : ProjectId} (ids : List ConversationId) :
    ∀ {d d' : Directory} {keys : List (ProjectId × ConversationId)},
      Tidy conversationKind d keys → removeAll (fun _ => none) projectId ids d = (.ok (), d') →
        ∃ order, Tidy conversationKind d' order ∧
          ∀ key, key ∈ order ↔ key ∈ keys ∧ ¬ (key.1 = projectId ∧ key.2 ∈ ids) := by
  induction ids with
  | nil =>
    intro d d' keys h hremove
    cases hremove
    exact ⟨keys, h, fun key => by simp⟩
  | cons c rest ih =>
    intro d d' keys h hremove
    rw [removeAll, removeConversation_tidy h] at hremove
    obtain ⟨order, htidy, hmem⟩ := ih (h.without conversationKind_lawful (projectId, c)) hremove
    refine ⟨order, htidy, fun key => ?_⟩
    rw [hmem, List.mem_filter, List.mem_cons, decide_eq_true_eq]
    obtain ⟨p, e⟩ := key
    simp only [ne_eq, Prod.mk.injEq, not_and]
    constructor
    · rintro ⟨⟨hin, hne⟩, hrest⟩
      refine ⟨hin, fun hp he => ?_⟩
      rcases he with rfl | he
      · exact hne hp rfl
      · exact hrest hp he
    · rintro ⟨hin, hnot⟩
      exact ⟨⟨hin, fun hp he => hnot hp (.inl he)⟩, fun hp he => hnot hp (.inr he)⟩

/-- Nothing stands against the removal of a project's conversations, once they are listed. -/
theorem removeAll_accepted {projectId : ProjectId} (ids : List ConversationId) :
    ∀ {d : Directory} {keys : List (ProjectId × ConversationId)}, Tidy conversationKind d keys →
      (removeAll (fun _ => none) projectId ids d).1 = .ok () := by
  induction ids with
  | nil => exact fun _ => rfl
  | cons c rest ih =>
    intro d keys h
    rw [removeAll, removeConversation_tidy h]
    exact ih (h.without conversationKind_lawful (projectId, c))

end Directories

/-! ## Runs -/

/-- The stores that calls lead to, each of them accepted, with the projects and the conversations that
    are live: created, and not removed since. -/
inductive Accepted (codecs : Codecs) :
    Stores → List ProjectId → List (ProjectId × ConversationId) → Prop where
  | start : Accepted codecs ⟨[], []⟩ [] []
  | createProjectState {s ps cs uuid state d} (before : Accepted codecs s ps cs)
    (call : createProjectState codecs.states none false uuid s.states state = (.ok (), d)) :
    Accepted codecs ⟨d, s.conversations⟩ (ps ++ [state.projectId]) cs
  | updateProjectState {s ps cs uuid expectedRevision state committed d}
    (before : Accepted codecs s ps cs)
    (call : updateProjectState codecs.states none false uuid expectedRevision s.states state =
      (.ok committed, d)) :
    Accepted codecs ⟨d, s.conversations⟩ ps cs
  | removeProjectState {s ps cs projectId d} (before : Accepted codecs s ps cs)
    (call : removeProjectState none s.states projectId = (.ok (), d)) :
    Accepted codecs ⟨d, s.conversations⟩
      (ps.filter (fun other => decide (other ≠ projectId))) cs
  | createConversation {s ps cs uuid conversation d} (before : Accepted codecs s ps cs)
    (call : createConversation codecs.conversations none false uuid s.conversations conversation =
      (.ok (), d)) :
    Accepted codecs ⟨s.states, d⟩ ps
      (cs ++ [(conversation.projectId, conversation.conversationId)])
  | updateConversation {s ps cs uuid expectedRevision conversation committed d}
    (before : Accepted codecs s ps cs)
    (call : updateConversation codecs.conversations none false uuid expectedRevision s.conversations
      conversation = (.ok committed, d)) :
    Accepted codecs ⟨s.states, d⟩ ps cs
  | removeConversation {s ps cs key d} (before : Accepted codecs s ps cs)
    (call : removeConversation none s.conversations key = (.ok (), d)) :
    Accepted codecs ⟨s.states, d⟩ ps (cs.filter (fun other => decide (other ≠ key)))
  | removeProjectConversations {s ps cs projectId d} (before : Accepted codecs s ps cs)
    (call : removeProjectConversations none (fun _ => none) s.conversations projectId =
      (.ok (), d)) :
    Accepted codecs ⟨s.states, d⟩ ps (cs.filter (fun other => decide (other.1 ≠ projectId)))

/-- A directory is tidy, in some order of the keys. -/
def Holds {K R : Type} (kind : RecordKind K R) (d : Directory) (keys : List K) : Prop :=
  ∃ order, Tidy kind d order ∧ order.Perm keys

/-- What the stores hold after accepted calls. -/
structure Kept (s : Stores) (ps : List ProjectId) (cs : List (ProjectId × ConversationId)) :
    Prop where
  states : Holds projectStateKind s.states ps
  conversations : Holds conversationKind s.conversations cs
  few : ∀ projectId, (owned projectId cs).length ≤ maxPersistedConversationsPerProject

section Holding

variable {K R : Type} [DecidableEq K] {kind : RecordKind K R} {codec : Codec R} {d d' : Directory}
  {keys : List K}

theorem Holds.created (hkind : kind.Lawful) (h : Holds kind d keys) {limit : Result Unit}
    {uuid : BitVec 128} {record : R}
    (hcreate : createRecord kind codec none false limit uuid d record = (.ok (), d')) :
    Holds kind d' (keys ++ [kind.key record]) := by
  obtain ⟨order, htidy, hperm⟩ := h
  exact ⟨_, (htidy.created hkind hcreate).2, hperm.append_right _⟩

theorem Holds.updated (hkind : kind.Lawful) (h : Holds kind d keys) {uuid : BitVec 128}
    {expectedRevision : Nat} {record committed : R}
    (hupdate : updateRecord kind codec none false uuid expectedRevision d record =
      (.ok committed, d')) : Holds kind d' keys := by
  obtain ⟨order, htidy, hperm⟩ := h
  obtain ⟨order', htidy', hmoved⟩ := htidy.updated hkind hupdate
  exact ⟨order', htidy', hmoved.trans hperm⟩

theorem Holds.without (hkind : kind.Lawful) (h : Holds kind d keys) (key : K) :
    Holds kind (without d (kind.target key)) (keys.filter (fun other => decide (other ≠ key))) := by
  obtain ⟨order, htidy, hperm⟩ := h
  exact ⟨_, htidy.without hkind key, hperm.filter _⟩

end Holding

theorem owned_perm {keys keys' : List (ProjectId × ConversationId)} (h : keys.Perm keys')
    (projectId : ProjectId) : (owned projectId keys).Perm (owned projectId keys') :=
  (h.filter _).map _

theorem owned_filter_length (projectId : ProjectId) (keys : List (ProjectId × ConversationId))
    (keep : ProjectId × ConversationId → Bool) :
    (owned projectId (keys.filter keep)).length ≤ (owned projectId keys).length :=
  ((List.filter_sublist.filter _).map _).length_le

theorem owned_append (projectId : ProjectId) (keys : List (ProjectId × ConversationId))
    (key : ProjectId × ConversationId) :
    owned projectId (keys ++ [key]) =
      owned projectId keys ++ if key.1 = projectId then [key.2] else [] := by
  unfold owned
  rw [List.filter_append, List.map_append]
  congr 1
  by_cases hproject : key.1 = projectId
  · rw [if_pos hproject, List.filter_cons_of_pos (by rw [hproject, beq_self_eq_true])]
    rfl
  · rw [if_neg hproject, List.filter_cons_of_neg (by rw [beq_iff_eq]; exact hproject)]
    rfl

section Kept

variable {codecs : Codecs} {s : Stores} {ps : List ProjectId}
  {cs : List (ProjectId × ConversationId)}

/-- **The listing of a project**: its live conversations, up to the bound on all of them. -/
theorem Kept.conversationIds (h : Kept s ps cs) (projectId : ProjectId) :
    (cs.length ≤ maxStateDirectoryEntries →
      ∃ ids, listConversationIds none s.conversations projectId
          maxPersistedConversationsPerProject = .ok ids ∧
        ids.Perm (owned projectId cs) ∧ inOrder ConversationId.uuid ids) ∧
    (cs.length > maxStateDirectoryEntries →
      ∃ e, listConversationIds none s.conversations projectId
        maxPersistedConversationsPerProject = .error e) := by
  obtain ⟨order, htidy, hperm⟩ := h.conversations
  have howned : (owned projectId order).Perm (owned projectId cs) := owned_perm hperm projectId
  have hfew : (owned projectId order).length ≤ maxPersistedConversationsPerProject := by
    rw [howned.length_eq]
    exact h.few projectId
  obtain ⟨hok, herror⟩ := listConversationIds_tidy htidy hfew
  rw [hperm.length_eq] at hok herror
  refine ⟨fun hroom => ?_, herror⟩
  obtain ⟨ids, hlist, hids, hsorted⟩ := hok hroom
  exact ⟨ids, hlist, hids.trans howned, hsorted⟩

/-- **The listing of the projects**: the live ones, up to its bound. -/
theorem Kept.projectIds (h : Kept s ps cs) :
    (ps.length ≤ maxPersistedProjects →
      ∃ ids, listProjectIds none s.states maxPersistedProjects = .ok ids ∧ ids.Perm ps ∧
        inOrder ProjectId.uuid ids) ∧
    (ps.length > maxPersistedProjects →
      ∃ e, listProjectIds none s.states maxPersistedProjects = .error e) := by
  obtain ⟨order, htidy, hperm⟩ := h.states
  obtain ⟨hok, herror⟩ := listProjectIds_tidy htidy
  rw [hperm.length_eq] at hok herror
  refine ⟨fun hroom => ?_, herror⟩
  obtain ⟨ids, hlist, hids, hsorted⟩ := hok hroom
  exact ⟨ids, hlist, hids.trans hperm, hsorted⟩

/-- The limit of a creation: the bound on all conversations, and the one on those of the project. -/
theorem Kept.limit_iff (h : Kept s ps cs) (projectId : ProjectId) :
    conversationLimit none s.conversations projectId = .ok () ↔
      cs.length ≤ maxStateDirectoryEntries ∧
        (owned projectId cs).length < maxPersistedConversationsPerProject := by
  obtain ⟨hok, herror⟩ := h.conversationIds projectId
  unfold conversationLimit
  by_cases hroom : cs.length ≤ maxStateDirectoryEntries
  · obtain ⟨ids, hlist, hids, -⟩ := hok hroom
    rw [hlist]
    simp only [bind, Except.bind, hids.length_eq]
    by_cases hown : (owned projectId cs).length < maxPersistedConversationsPerProject
    · rw [if_neg (Nat.not_le.mpr hown)]
      exact iff_of_true rfl ⟨hroom, hown⟩
    · rw [if_pos (Nat.le_of_not_lt hown)]
      exact iff_of_false (fun hcontra => by cases hcontra) (fun hcontra => hown hcontra.2)
  · obtain ⟨e, hlist⟩ := herror (Nat.lt_of_not_le hroom)
    rw [hlist]
    exact iff_of_false (fun hcontra => by cases hcontra) (fun hcontra => hroom hcontra.1)

theorem Kept.createdConversation (h : Kept s ps cs) {uuid : BitVec 128}
    {conversation : PersistedConversation} {d : Directory}
    (hcreate : createConversation codecs.conversations none false uuid s.conversations conversation =
      (.ok (), d)) :
    Kept ⟨s.states, d⟩ ps (cs ++ [(conversation.projectId, conversation.conversationId)]) := by
  refine ⟨h.states, h.conversations.created conversationKind_lawful hcreate, fun projectId => ?_⟩
  obtain ⟨-, hlimit, -⟩ := createRecord_ok hcreate
  -- the accepted limit left room for one more conversation of this project
  have hown := ((h.limit_iff _).mp hlimit).2
  rw [owned_append, List.length_append]
  split
  · rename_i hproject
    dsimp only at hproject
    subst hproject
    rw [List.length_singleton]
    omega
  · exact h.few projectId

theorem Kept.removedProject (h : Kept s ps cs) {projectId : ProjectId} {d : Directory}
    (hremove : removeProjectConversations none (fun _ => none) s.conversations projectId =
      (.ok (), d)) :
    Kept ⟨s.states, d⟩ ps (cs.filter (fun other => decide (other.1 ≠ projectId))) := by
  refine ⟨h.states, ?_, fun other => (owned_filter_length other cs _).trans (h.few other)⟩
  obtain ⟨hok, herror⟩ := h.conversationIds projectId
  unfold removeProjectConversations at hremove
  by_cases hroom : cs.length ≤ maxStateDirectoryEntries
  · obtain ⟨ids, hlist, hids, -⟩ := hok hroom
    rw [hlist] at hremove
    dsimp only at hremove
    obtain ⟨order, htidy, hperm⟩ := h.conversations
    obtain ⟨order', htidy', hmem⟩ := removeAll_tidy ids htidy hremove
    refine ⟨order', htidy', ?_⟩
    -- no key is there twice, so it is enough to compare which keys are there
    have hnodup : cs.Nodup := hperm.nodup_iff.mp htidy.distinct
    rw [List.perm_ext_iff_of_nodup htidy'.distinct (hnodup.filter _)]
    rintro ⟨p, c⟩
    rw [hmem, List.mem_filter, decide_eq_true_eq, hperm.mem_iff]
    refine and_congr_right fun hin => not_congr (and_iff_left_of_imp fun hproject => ?_)
    rw [hids.mem_iff, mem_owned, ← hproject]
    exact hin
  · obtain ⟨e, hlist⟩ := herror (Nat.lt_of_not_le hroom)
    rw [hlist] at hremove
    cases hremove

/-- **Accepted calls keep the stores**: the directories hold the live records, and no others. -/
theorem Accepted.kept (h : Accepted codecs s ps cs) : Kept s ps cs := by
  induction h with
  | start => exact ⟨⟨[], tidy_empty, .nil⟩, ⟨[], tidy_empty, .nil⟩, fun _ => Nat.zero_le _⟩
  | createProjectState _ call ih =>
    exact ⟨ih.states.created projectStateKind_lawful call, ih.conversations, ih.few⟩
  | updateProjectState _ call ih =>
    exact ⟨ih.states.updated projectStateKind_lawful call, ih.conversations, ih.few⟩
  | @removeProjectState s ps cs projectId d _ call ih =>
    -- an accepted removal of a project that is not live changes nothing, like the filter
    obtain ⟨order, htidy, -⟩ := ih.states
    rw [removeProjectState_tidy htidy] at call
    cases call
    exact ⟨ih.states.without projectStateKind_lawful projectId, ih.conversations, ih.few⟩
  | createConversation _ call ih => exact ih.createdConversation call
  | updateConversation _ call ih =>
    exact ⟨ih.states, ih.conversations.updated conversationKind_lawful call, ih.few⟩
  | @removeConversation s ps cs key d _ call ih =>
    obtain ⟨order, htidy, -⟩ := ih.conversations
    rw [removeConversation_tidy htidy] at call
    cases call
    exact ⟨ih.states, ih.conversations.without conversationKind_lawful key,
      fun projectId => (owned_filter_length projectId cs _).trans (ih.few projectId)⟩
  | removeProjectConversations _ call ih => exact ih.removedProject call

end Kept

/-! ## The law -/

/-- The projects do not stand in each other's way. -/
structure Isolated (codecs : Codecs) (s : Stores) (ps : List ProjectId)
    (cs : List (ProjectId × ConversationId)) : Prop where
  conversations : ∀ projectId, ∃ ids,
    listConversationIds none s.conversations projectId maxPersistedConversationsPerProject = .ok ids ∧
      ids.Perm (owned projectId cs) ∧ inOrder ConversationId.uuid ids
  projects : ∃ ids, listProjectIds none s.states maxPersistedProjects = .ok ids ∧ ids.Perm ps ∧
    inOrder ProjectId.uuid ids
  creates : ∀ uuid (conversation : PersistedConversation), conversation.validate = .ok () →
    conversation.revision = 0 →
    (codecs.conversations.encode conversation).length ≤ maxPersistedConversationBytes →
    (conversation.projectId, conversation.conversationId) ∉ cs →
    (owned conversation.projectId cs).length < maxPersistedConversationsPerProject →
      (createConversation codecs.conversations none false uuid s.conversations conversation).1 =
        .ok ()
  removes : ∀ key, (removeConversation none s.conversations key).1 = .ok ()
  removesProject : ∀ projectId,
    (removeProjectConversations none (fun _ => none) s.conversations projectId).1 = .ok ()

/-- **Isolation of the projects.**  After accepted calls the listings give the live records, and no
    creation or removal of a conversation is refused for what other projects hold, exactly while the
    two directories are within the bounds of the listings. -/
theorem store_isolation_iff (codecs : Codecs) {s : Stores} {ps : List ProjectId}
    {cs : List (ProjectId × ConversationId)} (haccepted : Accepted codecs s ps cs) :
    Isolated codecs s ps cs ↔
      ps.length ≤ maxPersistedProjects ∧ cs.length ≤ maxStateDirectoryEntries := by
  have hkept := haccepted.kept
  constructor
  · intro h
    constructor
    · by_contra hmany
      obtain ⟨ids, hlist, -⟩ := h.projects
      obtain ⟨e, herror⟩ := hkept.projectIds.2 (Nat.lt_of_not_le hmany)
      cases hlist.symm.trans herror
    · by_contra hmany
      -- the listing of any project would do: it reads the entries of all of them
      obtain ⟨ids, hlist, -⟩ := h.conversations ⟨0⟩
      obtain ⟨e, herror⟩ := (hkept.conversationIds ⟨0⟩).2 (Nat.lt_of_not_le hmany)
      cases hlist.symm.trans herror
  · rintro ⟨hprojects, hroom⟩
    obtain ⟨order, htidy, hperm⟩ := hkept.conversations
    refine ⟨fun p => (hkept.conversationIds p).1 hroom, hkept.projectIds.1 hprojects, ?_, ?_, ?_⟩
    · intro uuid conversation hvalid hrevision hfits hfresh hown
      have habsent : entryOf s.conversations (conversationKind.target
          (conversation.projectId, conversation.conversationId)) = none := by
        rw [htidy.entry_iff conversationKind_lawful, hperm.mem_iff]
        exact hfresh
      have hready : CreateReady conversationKind codecs.conversations false
          (conversationLimit none s.conversations conversation.projectId) uuid s.conversations
          conversation :=
        ⟨hvalid, hrevision, rfl, loadRecord_absent habsent, (hkept.limit_iff _).mpr ⟨hroom, hown⟩,
          hfits, htidy.free conversationKind_lawful uuid⟩
      unfold createConversation
      rw [createRecord_accepted hready]
    · intro key
      rw [removeConversation_tidy htidy]
    · intro projectId
      obtain ⟨ids, hlist, -⟩ := (hkept.conversationIds projectId).1 hroom
      unfold removeProjectConversations
      rw [hlist]
      exact removeAll_accepted ids htidy

/-! ## A crowded store -/

/-- The state of a new project. -/
def blankState (projectId : ProjectId) : PersistedProjectState := { newState 0 with projectId }

/-- Its JSON. -/
def blankStateJson (projectId : ProjectId) : List Char :=
  "\x7b\"schema\":1,\"revision\":0,\"project_id\":\"".toList ++ uuidText projectId.uuid ++
    "\",\"session_creation_pending\":false,\"agent_session\":null,\"route_policy\":null\x7d".toList

/-- The projects with the ids below `n`. -/
def firstProjects (n : Nat) : List ProjectId := (List.range n).map (fun i => ⟨BitVec.ofNat 128 i⟩)

/-- The encoding of the states of the new projects. -/
def blankStateCodecs : Codecs where
  states :=
    { encode state := encode (blankStateJson state.projectId)
      decode bytes := ((firstProjects 4097).map blankState).find?
        (fun state => encode (blankStateJson state.projectId) == bytes) }
  conversations := ⟨fun _ => [], fun _ => none⟩

theorem byteLen_le_length (cs : List Char) : byteLen cs ≤ 4 * cs.length := by
  induction cs with
  | nil => exact Nat.zero_le _
  | cons c rest ih =>
    have hchar : c.utf8Size ≤ 4 := c.utf8Size_le_four
    rw [byteLen_cons, List.length_cons]
    omega

theorem byteLen_uuidText_le (uuid : BitVec 128) : byteLen (uuidText uuid) ≤ 4 * 36 := by
  have hlength : (uuidText uuid).length = 36 := UuidText.length_hyphenated uuid
  have hbytes := byteLen_le_length (uuidText uuid)
  rwa [hlength] at hbytes

theorem length_encode_around {before text after : List Char} {a b c : Nat}
    (hbefore : byteLen before ≤ a) (htext : byteLen text ≤ b) (hafter : byteLen after ≤ c) :
    (encode (before ++ text ++ after)).length ≤ a + b + c := by
  rw [length_encode, byteLen_append, byteLen_append]
  omega

theorem blankState_fits (projectId : ProjectId) :
    (encode (blankStateJson projectId)).length ≤ maxPersistedStateBytes := by
  have hbefore : byteLen "\x7b\"schema\":1,\"revision\":0,\"project_id\":\"".toList ≤ 100 := by
    decide
  have hafter : byteLen
      "\",\"session_creation_pending\":false,\"agent_session\":null,\"route_policy\":null\x7d".toList ≤
        100 := by
    decide
  have hlength := length_encode_around hbefore (byteLen_uuidText_le projectId.uuid) hafter
  exact Nat.le_trans hlength (by decide)

/-- A project that is not live can be created, whatever the store holds. -/
theorem blank_created {s : Stores} {ps : List ProjectId}
    {cs : List (ProjectId × ConversationId)} (h : Accepted blankStateCodecs s ps cs)
    {projectId : ProjectId} (hfresh : projectId ∉ ps) :
    ∃ s', Accepted blankStateCodecs s' (ps ++ [projectId]) cs := by
  obtain ⟨order, htidy, hperm⟩ := h.kept.states
  have habsent : entryOf s.states (projectStateKind.target projectId) = none := by
    rw [htidy.entry_iff projectStateKind_lawful, hperm.mem_iff]
    exact hfresh
  have hready : CreateReady projectStateKind blankStateCodecs.states false (.ok ()) 0 s.states
      (blankState projectId) :=
    ⟨rfl, rfl, rfl, loadRecord_absent habsent, rfl, blankState_fits projectId,
      htidy.free projectStateKind_lawful 0⟩
  have hcall : createProjectState blankStateCodecs.states none false 0 s.states
      (blankState projectId) = (.ok (), place s.states (projectStateKind.target projectId)
        (encode (blankStateJson projectId))) := createRecord_accepted hready
  exact ⟨_, h.createProjectState hcall⟩

theorem firstProjects_accepted (n : Nat) (hn : n < 2 ^ 128) :
    ∃ s, Accepted blankStateCodecs s (firstProjects n) [] := by
  induction n with
  | zero => exact ⟨_, .start⟩
  | succ n ih =>
    obtain ⟨s, haccepted⟩ := ih (by omega)
    have hfresh : (⟨BitVec.ofNat 128 n⟩ : ProjectId) ∉ firstProjects n := by
      intro hin
      obtain ⟨i, hi, heq⟩ := List.mem_map.mp hin
      rw [List.mem_range] at hi
      have huuid : BitVec.ofNat 128 i = BitVec.ofNat 128 n := congrArg ProjectId.uuid heq
      have hnat := congrArg BitVec.toNat huuid
      rw [BitVec.toNat_ofNat, BitVec.toNat_ofNat, Nat.mod_eq_of_lt (by omega),
        Nat.mod_eq_of_lt (by omega)] at hnat
      omega
    have hnext : firstProjects (n + 1) = firstProjects n ++ [⟨BitVec.ofNat 128 n⟩] := by
      rw [firstProjects, List.range_succ, List.map_append]
      rfl
    rw [hnext]
    exact blank_created haccepted hfresh

theorem store_isolation_iff_blank :
    ∃ s, Accepted blankStateCodecs s (firstProjects 2) [] ∧
      (Isolated blankStateCodecs s (firstProjects 2) [] ↔
        (firstProjects 2).length ≤ maxPersistedProjects ∧
          ([] : List (ProjectId × ConversationId)).length ≤ maxStateDirectoryEntries) := by
  obtain ⟨s, haccepted⟩ := firstProjects_accepted 2 (by decide)
  exact ⟨s, haccepted, store_isolation_iff blankStateCodecs haccepted⟩

/-- **No creation looks at the bound on the projects.**  4097 projects can be created one after
    another, and after the last one the listing is refused. -/
theorem crowded_projects_not_listed :
    ∃ s, Accepted blankStateCodecs s (firstProjects 4097) [] ∧
      ∃ e, listProjectIds none s.states maxPersistedProjects = .error e := by
  obtain ⟨s, haccepted⟩ := firstProjects_accepted 4097 (by decide)
  refine ⟨s, haccepted, haccepted.kept.projectIds.2 ?_⟩
  rw [firstProjects, List.length_map, List.length_range]
  decide

end VibeCoder.Persistence
