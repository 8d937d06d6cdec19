/-
  Runs of the installer: any calls, each cut off anywhere, with any faults.

  1. **Hosts** — the runtime root after a call, and what can be said of the call: whether a complete
     tree was there before, where its recovery step ended, and what it returned.

  2. **One call** (`step_lawful`) — a call comes to its recovery step (`approach`), or not; from there
     on it is the watched call of `CrashSafety`.

  3. **The law** (`crash_safety_law`) — runs are safe as long as no call enters its recovery step with
     its only complete tree in the previous directory, and no staging directory is reported absent
     while stale ones are cleaned up.

  An upgrade that crashes between its two renames leaves the only complete tree in the previous
  directory, and the recovery step of the next call deletes it (`recovery_deletes_only_tree`).
-/
import VibeCoder.Install.CalmRuns
import VibeCoder.Lib.Run
import VibeCoder.Lib.Text

namespace VibeCoder.Installer

open Resume

variable {platform : Platform} {t : Store}

/-! ## Runs -/

/-- One call: the packaged bundle, what goes wrong at each step, and the step it crashes before. -/
structure Call where
  assets : Dir
  faults : Nat → Option Fault
  limit : Nat

/-- The runtime root after a call, and what can be said of the call. -/
structure Host where
  root : Root
  /-- A complete tree was there when the call began. -/
  before : Bool
  /-- The runtime root where the recovery step of the call ended. -/
  recovered : Option Root
  /-- The digest of the packaged manifest. -/
  packaged : Option String
  outcome : Option (Except Throwable Result)

def Host.fresh : Host := ⟨∅, false, none, none, none⟩

/-- How far a part of the call gets. -/
def Call.reach (call : Call) {α : Type} (p : Program α) (root : Root) :
    Option (Except Throwable α × Nat) × Store :=
  Resume.reach (exec call.assets) call.faults call.limit p 0 ⟨root, false⟩

/-- The state in which a call enters its recovery step. -/
def Call.entry (platform : Platform) (call : Call) (root : Root) : Option Store :=
  match call.reach (approach platform) root with
  | (some (.ok (some _), _), t) => some t
  | _ => none

/-- The runtime root where the recovery step of a call ends. -/
def Call.recovered (platform : Platform) (call : Call) (root : Root) : Option Root :=
  match call.reach (throughRecovery platform) root with
  | (some (.ok true, _), t) => some t.root
  | _ => none

/-- A complete tree is there. -/
def Root.installed (platform : Platform) (root : Root) : Bool :=
  root.whole platform currentName || root.whole platform previousName

def Host.step (platform : Platform) (host : Host) (call : Call) : Host :=
  let run := call.reach (ensureInstalled platform) host.root
  { root := run.2.root
    before := host.root.installed platform
    recovered := call.recovered platform host.root
    packaged := (call.assets.lookup manifestName).map platform.sha256
    outcome := run.1.map Prod.fst }

/-- **A first call** on which nothing goes wrong installs a bundle that is well formed. -/
theorem Host.step_fresh {platform : Platform} {call : Call} {bytes : List UInt8}
    {manifest : BundleManifest} (h : Installable platform call.assets bytes manifest)
    (hcalm : call.faults = fun _ => none) (hlimit : firstSteps call.assets manifest ≤ call.limit) :
    (Host.step platform Host.fresh call).outcome =
        some (.ok (.installed currentName manifest (platform.sha256 bytes))) ∧
      (Host.step platform Host.fresh call).root =
        installedRoot (stageName manifest.treeSha256)
          (stagedTree platform call.assets bytes manifest) ∧
      (Host.step platform Host.fresh call).packaged = some (platform.sha256 bytes) := by
  have hsteps : 0 + firstSteps call.assets manifest ≤ call.limit := by omega
  have hreach := (calm_ensureInstalled h).reach hsteps
  rw [← hcalm] at hreach
  have hrun : call.reach (ensureInstalled platform) Host.fresh.root = _ := hreach
  refine ⟨?_, ?_, ?_⟩
  · rw [Host.step, hrun]
    rfl
  · rw [Host.step, hrun]
  · rw [Host.step, h.asset]
    rfl

/-- A call that is cut off. -/
theorem Host.step_cut {platform : Platform} {host : Host} {call : Call} {t : Store}
    (h : Cut (exec call.assets) none call.limit (ensureInstalled platform) ⟨host.root, false⟩ t)
    (hcalm : call.faults = fun _ => none) : (Host.step platform host call).root = t.root := by
  have hreach := h 0
  rw [Nat.zero_add, ← hcalm] at hreach
  have hrun : call.reach (ensureInstalled platform) host.root = (none, t) := hreach
  rw [Host.step, hrun]

/-- **The claim about a call.**  A complete tree that was there is there still, the recovery step leaves
    it as the current one, and a verified result is true. -/
structure Lawful (platform : Platform) (host : Host) : Prop where
  kept : host.before = true → host.root.installed platform = true
  recovered : ∀ root, host.recovered = some root → host.before = true →
    root.whole platform currentName = true
  verified : ∀ result, host.outcome = some (.ok result) → result.verified = true →
    (∃ sha, host.packaged = some sha ∧ Holds platform host.root currentName (some sha)) ∧
      host.root.Clean

/-- No staging directory has been reported absent when the recovery step is entered, and the only
    complete tree is not the previous one. -/
def Guarded (platform : Platform) (host : Host) (call : Call) : Prop :=
  (call.entry platform host.root).all (fun t => !t.hidden &&
    (!t.root.whole platform previousName || t.root.whole platform currentName)) = true

instance (host : Host) (call : Call) : Decidable (Guarded platform host call) :=
  inferInstanceAs (Decidable (_ = true))

section

variable {host : Host} {call : Call}

/-- The directories of a runtime root that calls have worked on. -/
def Host.Sound (platform : Platform) (host : Host) : Prop :=
  Slot platform (host.root.lookup currentName) ∧ Slot platform (host.root.lookup previousName)

theorem installed_iff {root : Root} : root.installed platform = true ↔
    root.whole platform currentName = true ∨ root.whole platform previousName = true := by
  unfold Root.installed
  rw [Bool.or_eq_true]

theorem Intact.installed {before : Prop} (h : Intact platform before s) (hbefore : before) :
    s.root.installed platform = true :=
  installed_iff.mpr (h.kept hbefore)

/-- What is left of a call that has returned nothing verified and has recovered nothing. -/
theorem lawful_of_intact {ended : Option (Except Throwable Result × Nat)}
    (h : Intact platform (host.root.installed platform = true) t)
    (hresult : ∀ result m, ended = some (.ok result, m) → result.verified = false)
    (hrun : call.reach (ensureInstalled platform) host.root = (ended, t))
    (hrecovered : call.recovered platform host.root = none) :
    Host.Sound platform (host.step platform call) ∧ Lawful platform (host.step platform call) := by
  have hroot : (host.step platform call).root = t.root := congrArg (fun run => run.2.root) hrun
  have hended : (host.step platform call).outcome = ended.map Prod.fst :=
    congrArg (fun run => run.1.map Prod.fst) hrun
  refine ⟨?_, fun hbefore => ?_, fun root hthere => ?_, fun result hdone hverified => ?_⟩
  · unfold Host.Sound
    rw [hroot]
    exact ⟨h.left, h.right⟩
  · rw [hroot]
    exact h.installed hbefore
  · change call.recovered platform host.root = some root at hthere
    rw [hrecovered] at hthere
    cases hthere
  · rw [hended] at hdone
    obtain ⟨⟨answer, m⟩, hanswer, hsame⟩ := Option.map_eq_some_iff.mp hdone
    subst hsame
    rw [hresult result m hanswer] at hverified
    cases hverified

/-- A part of the call from where another part has come to. -/
def Call.goOn (call : Call) {α : Type} (p : Program α) (m : Nat) (t : Store) :
    Option (Except Throwable α × Nat) × Store :=
  Resume.reach (exec call.assets) call.faults call.limit p m t

theorem Call.reach_bind {α β : Type} (p : Program α) (f : α → Program β) (root : Root) :
    call.reach (p >>= f) root = andThen (fun a m t => call.goOn (f a) m t) (call.reach p root) :=
  Resume.reach_bind p f 0 _

theorem ensureInstalled_reach : call.reach (ensureInstalled platform) host.root =
    andThen (fun r m t => call.goOn (proceed platform r) m t)
      (call.reach (approach platform) host.root) := by
  rw [ensureInstalled_eq, Call.reach_bind]

/-- The recovery step, and what follows it, of a call that enters it as it should. -/
theorem entered_lawful {packaged : Packaged} {m : Nat}
    (hentry : call.reach (approach platform) host.root = (some (.ok (some packaged), m), t))
    (hread : packaged.Read platform) (hasset : call.assets.lookup manifestName = some packaged.bytes)
    (h : Held platform (host.root.installed platform = true) True t.root) :
    Host.Sound platform (host.step platform call) ∧ Lawful platform (host.step platform call) := by
  -- the whole call, and its part that ends with the recovery step
  have hrun : call.reach (ensureInstalled platform) host.root =
      call.goOn (proceed platform (some packaged)) m t := by
    rw [ensureInstalled_reach, hentry]
    rfl
  have hwhole : Reached (Intact platform (host.root.installed platform = true)) (Post
        (fun _ u => Installed platform (host.root.installed platform = true) True packaged.sha u.root)
        (fun _ => Intact platform (host.root.installed platform = true)))
      (call.reach (ensureInstalled platform) host.root) := by
    rw [hrun]
    refine wp_reach (fun _ => trivial) (wp_seq trivial (wp_recoverPreviousIfNeeded h) ?_ ?_)
    · exact fun _ u _ hheld => wp_installRecovered hread hheld
    · exact fun _ _ _ hintact => hintact
  have hpart : Reached (Intact platform (host.root.installed platform = true)) (Post
        (fun _ u => Held platform (host.root.installed platform = true) True u.root)
        (fun _ => Intact platform (host.root.installed platform = true)))
      (call.reach (throughRecovery platform) host.root) := by
    unfold throughRecovery
    rw [Call.reach_bind, hentry]
    refine wp_reach (fun _ => trivial) (wp_seq trivial (wp_recoverPreviousIfNeeded h) ?_ ?_)
    · exact fun _ u _ hheld => wp_pure hheld
    · exact fun _ _ _ hintact => hintact
  have hrecovered : ∀ root, call.recovered platform host.root = some root →
      host.root.installed platform = true → root.whole platform currentName = true := by
    intro root hroot hbefore
    unfold Call.recovered at hroot
    split at hroot
    · rename_i k u hreach
      cases hroot
      rw [hreach] at hpart
      exact Held.whole hpart hbefore
    · cases hroot
  have hintact : Intact platform (host.root.installed platform = true)
      (call.reach (ensureInstalled platform) host.root).2 := by
    rcases hend : call.reach (ensureInstalled platform) host.root with ⟨_ | ⟨_ | result, k⟩, u⟩
    · rw [hend] at hwhole
      exact hwhole
    · rw [hend] at hwhole
      exact hwhole
    · rw [hend] at hwhole
      exact Installed.kept hwhole
  refine ⟨⟨hintact.left, hintact.right⟩, hintact.installed, hrecovered, fun result hdone _ => ?_⟩
  change (call.reach (ensureInstalled platform) host.root).1.map Prod.fst = some (.ok result) at hdone
  obtain ⟨⟨answer, k⟩, hanswer, hresult⟩ := Option.map_eq_some_iff.mp hdone
  have hend : call.reach (ensureInstalled platform) host.root =
      (some (.ok result, k), (call.reach (ensureInstalled platform) host.root).2) := by
    rw [← hresult, ← hanswer]
  rw [hend] at hwhole
  have hinstalled : Installed platform (host.root.installed platform = true) True packaged.sha
    (host.step platform call).root := hwhole
  refine ⟨⟨packaged.sha, ?_, hinstalled.holds⟩, hinstalled.clean trivial⟩
  show (call.assets.lookup manifestName).map platform.sha256 = some packaged.sha
  rw [hasset, hread.digest]
  rfl

/-- **One call.** -/
theorem step_lawful (hsound : host.Sound platform) (hguard : Guarded platform host call) :
    Host.Sound platform (host.step platform call) ∧ Lawful platform (host.step platform call) := by
  have hstart : Intact platform (host.root.installed platform = true) ⟨host.root, false⟩ :=
    ⟨hsound.1, hsound.2, installed_iff.mp⟩
  have happroach : Reached _ _ (call.reach (approach platform) host.root) :=
    wp_reach (fun _ => trivial) (wp_approach hstart)
  have hrun : call.reach (ensureInstalled platform) host.root =
      andThen (fun r m t => call.goOn (proceed platform r) m t)
        (call.reach (approach platform) host.root) := ensureInstalled_reach
  have hnotRecovered : ∀ {r t}, call.reach (approach platform) host.root = (r, t) →
      (∀ packaged m, r ≠ some (.ok (some packaged), m)) → call.recovered platform host.root = none := by
    intro r t hreach hr
    unfold Call.recovered throughRecovery
    rw [Call.reach_bind, hreach]
    rcases r with _ | ⟨_ | _ | packaged, m⟩
    · rfl
    · rfl
    · rfl
    · exact absurd rfl (hr packaged m)
  rcases hreach : call.reach (approach platform) host.root with ⟨_ | ⟨e | _ | packaged, m⟩, t⟩
  · rw [hreach] at happroach hrun
    exact lawful_of_intact happroach (fun _ _ hdone => by cases hdone) hrun
      (hnotRecovered hreach nofun)
  · rw [hreach] at happroach hrun
    exact lawful_of_intact happroach (fun _ _ hdone => by cases hdone) hrun
      (hnotRecovered hreach nofun)
  · rw [hreach] at happroach hrun
    refine lawful_of_intact happroach.1 (fun result k hdone => ?_) hrun (hnotRecovered hreach nofun)
    cases hdone
    rfl
  · rw [hreach] at happroach
    obtain ⟨hintact, hpackaged⟩ := happroach
    obtain ⟨hread, hasset, hclean⟩ := hpackaged packaged rfl
    unfold Guarded Call.entry at hguard
    rw [hreach] at hguard
    simp only [Option.all_some, Bool.and_eq_true, Bool.not_eq_true', Bool.or_eq_true] at hguard
    refine entered_lawful hreach hread hasset ⟨hintact, fun hbefore => ?_, fun _ => hclean hguard.1⟩
    rcases hintact.kept hbefore with hcurrent | hprevious
    · exact hcurrent
    · rcases hguard.2 with hnot | hcurrent
      · rw [hprevious] at hnot
        cases hnot
      · exact hcurrent

/-- **Crash safety.**  Any calls one after the other, each with its own bundle, any faults, and a
    crash anywhere: as long as every call that enters its recovery step does so with its complete
    tree, if it has one, in the current directory and without having overlooked a staging directory,
    no call loses the complete tree, recovery leaves it as the current one, and every verified result
    is true. -/
theorem crash_safety_law (calls : List Call)
    (h : Runs.Disciplined (Host.step platform) (Guarded platform) Host.fresh calls) :
    Runs.Always (Host.step platform) (Lawful platform) Host.fresh calls := by
  refine Runs.always_disciplined (Host.step platform)
    (I := fun host => Host.Sound platform host ∧ Lawful platform host)
    (fun host call hI hguard => step_lawful hI.1 hguard) (fun host hI => hI.2) ?_ h
  exact ⟨⟨fun _ hdir => (by cases hdir), fun _ hdir => (by cases hdir)⟩, nofun, nofun, nofun⟩

end

/-! ## An upgrade that crashes between its renames -/

section

variable {platform : Platform} {bytes bytes' : List UInt8} {manifest manifest' : BundleManifest}
variable {first upgrade again : Call}

/-- The runtime root where the upgrade crashes. -/
def crashedRoot (stage stage' : String) (tree tree' : Dir) : Root :=
  (((installedRoot stage tree).insert stage' tree').erase currentName).insert previousName tree

variable {stage stage' : String} {tree tree' : Dir}

theorem crashedRoot_current : (crashedRoot stage stage' tree tree').lookup currentName = none :=
  (AList.lookup_insert_ne current_ne_previous).trans (AList.lookup_erase _ _)

theorem crashedRoot_previous : (crashedRoot stage stage' tree tree').lookup previousName = some tree :=
  AList.lookup_insert _

theorem crashedRoot_stage (hstage : isStage stage' = true) :
    (crashedRoot stage stage' tree tree').lookup stage' = some tree' := by
  obtain ⟨hcurrent, hprevious⟩ := stage_ne hstage
  rw [crashedRoot, AList.lookup_insert_ne hprevious.symm, AList.lookup_erase_ne hcurrent.symm,
    AList.lookup_insert]

theorem crashedRoot_stages (hstage : isStage stage' = true) :
    (crashedRoot stage stage' tree tree').keys.filter isStage = [stage'] := by
  obtain ⟨hcurrent, hprevious⟩ := stage_ne hstage
  have hkeys : (crashedRoot stage stage' tree tree').keys = [previousName, stage'] := by
    rw [crashedRoot, AList.keys_insert, AList.keys_erase, AList.keys_insert, keys_installedRoot]
    simp [hcurrent, hcurrent.symm, hprevious.symm]
  rw [hkeys, List.filter_cons_of_neg (by decide), List.filter_cons_of_pos hstage]
  rfl

/-- **The only complete tree is lost** whenever an upgrade crashes after its first rename, and the next
    call after the first file that its recovery step deletes: that step verifies the previous
    directory as if it had no receipt. -/
theorem interrupted_upgrade (h : Installable platform first.assets bytes manifest)
    (h' : Installable platform upgrade.assets bytes' manifest') (hagain : again.assets = upgrade.assets)
    (hfirst : first.faults = fun _ => none) (hupgrade : upgrade.faults = fun _ => none)
    (hcalm : again.faults = fun _ => none) (hlimit : firstSteps first.assets manifest ≤ first.limit)
    (hcrash : upgrade.limit =
      29 + copyTotal upgrade.assets manifest'.files + verifySize manifest')
    (hdeleted : again.limit = 18 + manifest'.files.length + 3 * manifest.files.length)
    (hother : constantEquals (platform.sha256 bytes) (platform.sha256 bytes') = false) :
    ¬ Runs.Always (Host.step platform) (Lawful platform) Host.fresh [first, upgrade, again] := by
  intro halways
  have hlast := Runs.Always.last (Host.step platform) halways
  have hbounded := bounded_stagedTree h
  have hmanifest := (lookup_stagedTree h).1
  have hlength := length_keys_stagedTree h
  have hlength' := length_keys_stagedTree h'
  have hname : isStage (stageName manifest.treeSha256) = true := isStage_stageName _
  have hname' : isStage (stageName manifest'.treeSha256) = true := isStage_stageName _
  have hinstalled := (Host.step_fresh h hfirst hlimit).2.1
  have hupgraded : Cut (exec upgrade.assets) none upgrade.limit (ensureInstalled platform)
      ⟨installedRoot (stageName manifest.treeSha256) (stagedTree platform first.assets bytes manifest),
        false⟩
      ⟨crashedRoot (stageName manifest.treeSha256) (stageName manifest'.treeSha256)
        (stagedTree platform first.assets bytes manifest)
        (stagedTree platform upgrade.assets bytes' manifest'), false⟩ := by
    refine (cut_upgrade h' lookup_installedRoot (lookup_installedRoot_previous hname) ?_ hmanifest
      h.small hother).count hcrash.symm
    intro key hkey
    rw [keys_installedRoot, List.mem_singleton] at hkey
    rw [hkey]
    decide
  generalize stageName manifest.treeSha256 = stage at hinstalled hupgraded
  generalize stageName manifest'.treeSha256 = stage' at hname' hupgraded
  generalize stagedTree platform first.assets bytes manifest = tree at *
  generalize stagedTree platform upgrade.assets bytes' manifest' = tree' at *
  rw [← hinstalled] at hupgraded
  have hcrashed := Host.step_cut hupgraded hupgrade
  obtain ⟨path, next, rest, horder⟩ : ∃ path next rest,
      deletionOrder tree.keys = path :: next :: rest := by
    have horder : (deletionOrder tree.keys).length = tree.keys.length :=
      List.length_insertionSort _ _
    match hcase : deletionOrder tree.keys with
    | path :: next :: rest => exact ⟨path, next, rest, rfl⟩
    | [path] =>
      rw [hcase, hlength, List.length_singleton] at horder
      omega
    | [] =>
      rw [hcase, hlength, List.length_nil] at horder
      omega
  obtain ⟨t, hcut, hcurrent, hprevious⟩ := cut_recovery (hagain ▸ h')
    (show (⟨crashedRoot stage stage' tree tree', false⟩ : Store).root.keys.filter isStage = _ from
      crashedRoot_stages hname')
    (crashedRoot_stage hname') crashedRoot_current crashedRoot_previous hbounded horder
  have hagain' : Cut (exec again.assets) none again.limit (ensureInstalled platform)
      ⟨(Host.step platform (Host.step platform Host.fresh first) upgrade).root, false⟩ t := by
    rw [hcrashed]
    exact hcut.count (by omega)
  have hroot : (Runs.play (Host.step platform) Host.fresh [first, upgrade, again]).root = t.root :=
    Host.step_cut hagain' hcalm
  have hcomplete : tree.complete platform none = true :=
    Dir.complete_none (Dir.complete_iff.mpr ⟨_, _, hbounded.verified, hbounded.sized⟩)
  have hbefore : (Runs.play (Host.step platform) Host.fresh [first, upgrade, again]).before = true := by
    show Root.installed platform (Host.step platform _ upgrade).root = true
    rw [hcrashed, installed_iff, Root.whole, Root.whole, crashedRoot_previous]
    exact .inr hcomplete
  rcases installed_iff.mp (hlast.kept hbefore) with hwhole | hwhole
  · rw [Root.whole, hroot, hcurrent] at hwhole
    cases hwhole
  · rw [Root.whole, hroot, hprevious, Option.any_some] at hwhole
    obtain ⟨sha, found, hverified, -⟩ := Dir.complete_iff.mp hwhole
    exact (Dir.gappy_of_first (.inl hcomplete) horder).not_verified hverified

end


def emptySha : String := "e3b0c44298fc1c149afbf4c8996fb92427ae41e4649b934ca495991b7852b855"

/-- A bundle of empty files. -/
structure SmallBundle where
  paths : List String
  treeSha256 : String

namespace SmallBundle

def fileText (path : String) : List String :=
  ["\x7b\"path\":\"", path, "\",\"size\":0,\"sha256\":\"", emptySha, "\"\x7d"]

/-- The manifest of the bundle, in pieces. -/
def text (bundle : SmallBundle) : List String :=
  ["\x7b\"tree_sha256\":\"", bundle.treeSha256, "\",\"schema\":1,",
    "\"component_id\":\"omniroute\",", "\"version\":\"3.8.50\",", "\"profile_id\":\"",
    expectedProfile, "\",\"required_node_version\":", "\"24.19.0\",",
    "\"source_archive_sha256\":\"", expectedSourceSha256, "\",\"routing_patch_profile_sha256",
    "\":\"", expectedPatchSha256, "\",\"apk_asset_packaged\":false,",
    "\"service_round_trip_proven\":", "false,\"runtime\":", "\x7b\"bind_host\":\"127.0.0.1\",",
    "\"port\":20128,\"entrypoint\":", "\"server-ws.mjs\",\"environment\":",
    "\x7b\"PORT\":\"20128\",", "\"DASHBOARD_PORT\":\"20128\",", "\"HOSTNAME\":\"127.0.0.1\",",
    "\"VECTOR_STORE_DISABLE_VEC\":", "\"true\",\"OMNIROUTE_MITM_STUB\":", "\"1\"\x7d\x7d,",
    "\"total_bytes\":0,\"file_count\":", toString bundle.paths.length, ",\"files\":["] ++
  [","].intercalate (bundle.paths.map fileText) ++ ["]\x7d"]

def bytes (bundle : SmallBundle) : List UInt8 := bundle.text.flatMap utf8Bytes

/-- What the reader says of that text. -/
def json (bundle : SmallBundle) : ManifestJson where
  schema := 1
  componentId := expectedComponent
  version := expectedVersion
  profileId := expectedProfile
  requiredNodeVersion := expectedNode
  sourceArchiveSha256 := expectedSourceSha256
  routingPatchProfileSha256 := expectedPatchSha256
  apkAssetPackaged := false
  serviceRoundTripProven := false
  runtime := some
    { bindHost := "127.0.0.1"
      port := 20128
      entrypoint := "server-ws.mjs"
      environment := some ⟨"20128", "20128", "127.0.0.1", "true", "1"⟩ }
  treeSha256 := bundle.treeSha256
  totalBytes := 0
  fileCount := bundle.paths.length
  files := some (bundle.paths.map (fun path => .ok ⟨path, 0, emptySha⟩))

def assets (bundle : SmallBundle) : Dir :=
  (bundle.paths.foldl (fun (dir : Dir) path => dir.insert path []) ∅).insert manifestName bundle.bytes

end SmallBundle

def firstBundle : SmallBundle where
  paths := "migrations/1.sql" :: requiredFiles
  treeSha256 := "9e208fe06d2ef7c58245e20c2fc2e9c9c4f520ecf5b2a3f5682d403dd60109ba"

def secondBundle : SmallBundle where
  paths := "migrations/2.sql" :: requiredFiles
  treeSha256 := "e5f985c6cafaa0d4e08d7079395f4b1b9d20c7138230ec1ab1f999c2ca785bdf"

def firstSha : String := "b6469ffa8d260c892067295a2caeda2865b31950991740d6a5627bc811bf9fcc"
def secondSha : String := "0f29dbc19bd2d9c395e177faefa301388d6f18075365d589b538588f2df19412"

def malformed : Throwable := ⟨"JSONException", some "malformed"⟩

/-- `JSONObject.toString` of a receipt; it escapes a slash. -/
def receiptText (receipt : Receipt) : List UInt8 :=
  ["\x7b\"schema\":", toString receipt.schema, ",\"component_id\":\"", receipt.componentId,
    "\",\"version\":\"", receipt.version, "\",\"profile_id\":\"", receipt.profileId,
    "\",\"manifest_sha256\":\"", receipt.manifestSha256, "\",\"tree_sha256\":\"",
    receipt.treeSha256, "\",\"install_root\":\"",
    String.ofList (receipt.installRoot.toList.flatMap (fun c => if c = '/' then ['\\', '/'] else [c])),
    "\",\"source\":\"", receipt.source, "\",\"service_round_trip_proven\":",
    if receipt.serviceRoundTripProven then "true" else "false", "\x7d"].flatMap utf8Bytes

def receiptOf (sha : String) (bundle : SmallBundle) : Receipt where
  schema := 1
  componentId := expectedComponent
  version := expectedVersion
  profileId := expectedProfile
  manifestSha256 := sha
  treeSha256 := bundle.treeSha256
  installRoot := installRelativeRoot
  source := "verified_apk_asset"
  serviceRoundTripProven := false

def receiptJson (receipt : Receipt) : ReceiptJson :=
  ⟨receipt.schema, receipt.componentId, receipt.version, receipt.profileId, receipt.manifestSha256,
    receipt.treeSha256⟩

/-- The platform on the texts of these two bundles: a manifest differs from the other in its tree
    digest, a list of files in the migration it starts with, a receipt in the manifest's digest. -/
def smallPlatform : Platform where
  readManifest bytes :=
    if bytes[16]? = some 57 then .ok firstBundle.json
    else if bytes[16]? = some 101 then .ok secondBundle.json
    else .error malformed
  readReceipt bytes :=
    if bytes[131]? = some 98 then .ok (receiptJson (receiptOf firstSha firstBundle))
    else if bytes[131]? = some 48 then .ok (receiptJson (receiptOf secondSha secondBundle))
    else .error malformed
  receiptText := receiptText
  sha256 bytes :=
    if bytes = [] then emptySha
    else if bytes.head? = some 109 then
      if bytes[11]? = some 49 then firstBundle.treeSha256 else secondBundle.treeSha256
    else if bytes[16]? = some 57 then firstSha
    else secondSha

/-- A call on which nothing goes wrong before it crashes. -/
def callOf (bundle : SmallBundle) (limit : Nat) : Call := ⟨bundle.assets, fun _ => none, limit⟩

/-- The first call enters its recovery step as it should. -/
theorem guarded_fresh (call : Call) : Guarded platform Host.fresh call := by
  have hreached : Reached _ _ (call.reach (approach platform) ∅) :=
    wp_reach (fun _ => trivial) wp_approach_fresh
  unfold Guarded Call.entry
  split
  · rename_i packaged m t hreach
    change call.reach (approach platform) ∅ = _ at hreach
    rw [hreach] at hreached
    obtain rfl : t = ⟨∅, false⟩ := hreached
    rfl
  · rfl

namespace SmallBundle

variable {bundle : SmallBundle}

def manifest (bundle : SmallBundle) : BundleManifest :=
  ⟨bundle.treeSha256, 0, bundle.paths.map (fun path => ⟨path, 0, emptySha⟩)⟩

theorem paths_manifest : bundle.manifest.files.map ManifestFile.path = bundle.paths := by
  rw [manifest, List.map_map]
  exact List.map_id _

theorem lookup_assets {path : String} (hpath : path ∈ bundle.paths) (hne : path ≠ manifestName) :
    bundle.assets.lookup path = some [] := by
  have hfold : ∀ (paths : List String) (dir : Dir), (path ∈ paths ∨ dir.lookup path = some []) →
      (paths.foldl (fun (dir : Dir) path => dir.insert path []) dir).lookup path = some [] := by
    intro paths
    induction paths with
    | nil => exact fun dir h => h.resolve_left List.not_mem_nil
    | cons other rest ih =>
      intro dir h
      refine ih _ ?_
      by_cases hother : path = other
      · exact .inr (hother ▸ AList.lookup_insert dir)
      · rcases h with h | h
        · exact .inl ((List.mem_cons.mp h).resolve_left hother)
        · exact .inr ((AList.lookup_insert_ne hother).trans h)
  exact (AList.lookup_insert_ne hne).trans (hfold bundle.paths ∅ (.inl hpath))

theorem supplied (hsha : platform.sha256 [] = emptySha) (hreserved : manifestName ∉ bundle.paths)
    {item : ManifestFile} (hitem : item ∈ bundle.manifest.files) :
    Supplied platform bundle.assets item [] := by
  obtain ⟨path, hpath, rfl⟩ := List.mem_map.mp hitem
  have hne : path ≠ manifestName := fun heq => hreserved (heq ▸ hpath)
  refine ⟨lookup_assets hpath hne, rfl, show (0 : Int) ≤ maxFileBytes by decide, ?_⟩
  rw [hsha]
  simp [constantEquals]

/-- A file that is empty is copied in four operations. -/
theorem copyTotal_eq (hreserved : manifestName ∉ bundle.paths) :
    copyTotal bundle.assets bundle.manifest.files = 4 * bundle.paths.length := by
  have hsteps : ∀ item ∈ bundle.manifest.files,
      copySteps ((bundle.assets.lookup item.path).getD []) = 4 := by
    intro item hitem
    obtain ⟨path, hpath, rfl⟩ := List.mem_map.mp hitem
    rw [lookup_assets hpath (fun heq => hreserved (heq ▸ hpath))]
    rfl
  rw [copyTotal, List.map_congr_left hsteps, List.map_const', List.sum_replicate_nat, manifest,
    List.length_map, Nat.mul_comm]

end SmallBundle

theorem apart_of_chars {names : List String}
    (h : (names.map String.toList).all (fun a =>
      (names.map String.toList).all (fun b => !(a ++ ['/']).isPrefixOf b)) = true) : Apart names := by
  intro a ha b hb
  have hpair := List.all_eq_true.mp (List.all_eq_true.mp h _ (List.mem_map_of_mem ha)) _
    (List.mem_map_of_mem hb)
  rw [String.toList_append]
  simpa using hpair

/-- What has to be checked of a bundle of empty files. -/
theorem SmallBundle.installable {bundle : SmallBundle} (hsha : platform.sha256 [] = emptySha)
    (hsmall : bundle.bytes.length ≤ maxManifestBytes)
    (hparse : BundleManifest.parse platform bundle.bytes = .ok bundle.manifest)
    (hapart : Apart (stagedNames bundle.manifest))
    (hreserved : ∀ name ∈ [manifestName, tempName manifestName, tempName receiptName],
      name ∉ bundle.paths)
    (hreceipt : ∃ receipt, platform.readReceipt (buildReceipt platform bundle.manifest
      (platform.sha256 bundle.bytes)) = .ok receipt ∧
        receipt.matches (platform.sha256 bundle.bytes) bundle.manifest = true)
    (hreceiptSmall : (buildReceipt platform bundle.manifest
      (platform.sha256 bundle.bytes)).length ≤ maxReceiptBytes) :
    Installable platform bundle.assets bundle.bytes bundle.manifest where
  asset := AList.lookup_insert _
  small := hsmall
  parsed := hparse
  supplied _ hitem := ⟨[], SmallBundle.supplied hsha (hreserved _ (by simp)) hitem⟩
  apart := hapart
  manifestTemp := by
    rw [SmallBundle.paths_manifest]
    exact hreserved _ (by simp)
  receiptTemp := by
    rw [SmallBundle.paths_manifest]
    exact hreserved _ (by simp)
  receipt := hreceipt
  receiptSmall := hreceiptSmall

theorem firstBundle_apart : Apart (stagedNames firstBundle.manifest) := by
  refine apart_of_chars ?_
  simp only [stagedNames, SmallBundle.paths_manifest, firstBundle, requiredFiles, manifestName,
    receiptName, tempName, List.map_cons, List.map_nil, List.cons_append, List.nil_append,
    String.toList_append]
  decide

theorem secondBundle_apart : Apart (stagedNames secondBundle.manifest) := by
  refine apart_of_chars ?_
  simp only [stagedNames, SmallBundle.paths_manifest, secondBundle, requiredFiles, manifestName,
    receiptName, tempName, List.map_cons, List.map_nil, List.cons_append, List.nil_append,
    String.toList_append]
  decide

theorem firstBundle_reserved : ∀ name ∈ [manifestName, tempName manifestName, tempName receiptName],
    name ∉ firstBundle.paths := by
  simp only [List.forall_mem_cons]
  exact ⟨by decide, by decide, by decide, nofun⟩

theorem secondBundle_reserved : ∀ name ∈ [manifestName, tempName manifestName, tempName receiptName],
    name ∉ secondBundle.paths := by
  simp only [List.forall_mem_cons]
  exact ⟨by decide, by decide, by decide, nofun⟩

/-- What has to be computed about a bundle. -/
structure SmallBundle.Checked (bundle : SmallBundle) (receipt : ReceiptJson) : Prop where
  small : bundle.bytes.length ≤ maxManifestBytes
  parsed : BundleManifest.parse smallPlatform bundle.bytes = .ok bundle.manifest
  read : smallPlatform.readReceipt (buildReceipt smallPlatform bundle.manifest
    (smallPlatform.sha256 bundle.bytes)) = .ok receipt
  matched : receipt.matches (smallPlatform.sha256 bundle.bytes) bundle.manifest = true
  receiptSmall : (buildReceipt smallPlatform bundle.manifest
    (smallPlatform.sha256 bundle.bytes)).length ≤ maxReceiptBytes

theorem length_utf8Bytes (value : String) : (utf8Bytes value).length = value.utf8ByteSize := by
  rw [utf8Bytes, List.length_flatMap, Text.utf8ByteSize_eq_sum]
  exact congrArg List.sum (List.map_congr_left fun c _ => String.length_utf8EncodeChar c)

/-- The length of a text in pieces. -/
theorem length_pieces (pieces : List String) :
    (pieces.flatMap utf8Bytes).length = (pieces.map String.utf8ByteSize).sum := by
  rw [List.length_flatMap]
  exact congrArg List.sum (List.map_congr_left fun piece _ => length_utf8Bytes piece)

theorem isSha256_emptySha : isSha256 emptySha = true := by
  decide

/-- The loop over files that are all empty. -/
theorem parseFiles_paths {paths : List String} :
    ∀ {read : List ManifestFile},
      (∀ path ∈ paths, validateRelativePath path = .ok () ∧ path ≠ manifestName ∧
        path ≠ receiptName) →
      (read.map ManifestFile.path ++ paths).Nodup →
      parseFiles (paths.map (fun path => .ok ⟨path, 0, emptySha⟩)) read 0 =
        .ok (read ++ paths.map (fun path => ⟨path, 0, emptySha⟩), 0) := by
  induction paths with
  | nil =>
    intro read _ _
    rw [List.map_nil, List.map_nil, List.append_nil, parseFiles]
  | cons path rest ih =>
    intro read hchecked hnodup
    obtain ⟨⟨hvalid, hmanifest, hreceipt⟩, hrest⟩ := List.forall_mem_cons.mp hchecked
    have hfresh : path ∉ read.map ManifestFile.path := by
      intro hmem
      exact (List.nodup_append.mp hnodup).2.2 path hmem path List.mem_cons_self rfl
    have hnext : ((read ++ [(⟨path, 0, emptySha⟩ : ManifestFile)]).map ManifestFile.path ++
        rest).Nodup := by
      rw [List.map_append, List.append_assoc]
      exact hnodup
    have hparsed := ih hrest hnext
    rw [List.append_assoc] at hparsed
    have hadd : checkedAdd 0 0 = .ok 0 := by decide
    have hsize : ¬ (0 : Int) > maxFileBytes := by decide
    have htotal : ¬ (0 : Int) > maxTotalBytes := by decide
    rw [List.map_cons, parseFiles]
    simp only [bind, Except.bind, hvalid, hmanifest, hreceipt, hfresh, isSha256_emptySha, hadd,
      hsize, htotal, decide_false, Bool.or_self, Bool.false_eq_true, if_false, Int.lt_irrefl,
      Bool.not_true]
    exact hparsed

/-- A bundle whose paths and tree digest pass the checks of a manifest. -/
structure SmallBundle.Sound (bundle : SmallBundle) : Prop where
  checked : ∀ path ∈ bundle.paths, validateRelativePath path = .ok () ∧ path ≠ manifestName ∧
    path ≠ receiptName
  distinct : bundle.paths.Nodup
  few : (bundle.paths.length : Int) ≤ maxFiles
  required : ∀ path ∈ requiredFiles, path ∈ bundle.paths
  migrations : bundle.paths.any isMigration = true
  sha : isSha256 bundle.treeSha256 = true

/-- **The manifest of a sound bundle parses.** -/
theorem SmallBundle.parse {bundle : SmallBundle} (h : bundle.Sound)
    (hread : platform.readManifest bundle.bytes = .ok bundle.json)
    (hdigest : platform.sha256 (bundle.manifest.files.flatMap ManifestFile.digestLine) =
      bundle.treeSha256) :
    BundleManifest.parse platform bundle.bytes = .ok bundle.manifest := by
  have hsome : ¬ (bundle.paths.length : Int) < 1 := by
    have hpos := List.length_pos_of_mem (h.required "server.js" List.mem_cons_self)
    omega
  have hheader : bundle.json.checkHeader =
      .ok (bundle.paths.map (fun path => .ok ⟨path, 0, emptySha⟩)) := by
    have htotal : ¬ (0 : Int) > maxTotalBytes := by decide
    have hfew := Int.not_lt.mpr h.few
    simp [ManifestJson.checkHeader, SmallBundle.json, ManifestJson.identity, RuntimeJson.contract,
      EnvironmentJson.contract, h.sha, hsome, hfew, htotal, pure, Except.pure]
  have hfiles : parseFiles (bundle.paths.map (fun path => .ok ⟨path, 0, emptySha⟩)) [] 0 =
      .ok ([] ++ bundle.paths.map (fun path => ⟨path, 0, emptySha⟩), 0) :=
    parseFiles_paths h.checked h.distinct
  rw [List.nil_append] at hfiles
  change _ = Except.ok (bundle.manifest.files, 0) at hfiles
  have hpaths : bundle.manifest.files.map ManifestFile.path = bundle.paths := paths_manifest
  have hequal : constantEquals bundle.treeSha256 bundle.treeSha256 = true := by
    simp [constantEquals]
  have hnone : requiredFiles.find? (fun required => decide (required ∉ bundle.paths)) = none := by
    simpa using h.required
  have htotal : bundle.json.totalBytes = 0 := rfl
  have htree : bundle.json.treeSha256 = bundle.treeSha256 := rfl
  rw [BundleManifest.parse, hread]
  simp only [bind, Except.bind, hheader, hfiles, hdigest, hequal, hpaths, hnone, h.migrations,
    htotal, htree, ne_eq, not_true, if_false, Bool.not_true, Bool.false_eq_true]
  rfl

/-! ## Two bundles -/

theorem requiredFiles_checked : ∀ path ∈ requiredFiles,
    validateRelativePath path = .ok () ∧ path ≠ manifestName ∧ path ≠ receiptName := by
  decide

theorem firstBundle_sound : firstBundle.Sound where
  checked := List.forall_mem_cons.mpr ⟨by decide, requiredFiles_checked⟩
  distinct := by decide
  few := by decide
  required _ h := List.mem_cons_of_mem _ h
  migrations := by decide
  sha := by decide

theorem secondBundle_sound : secondBundle.Sound where
  checked := List.forall_mem_cons.mpr ⟨by decide, requiredFiles_checked⟩
  distinct := by decide
  few := by decide
  required _ h := List.mem_cons_of_mem _ h
  migrations := by decide
  sha := by decide

theorem firstBundle_at :
    firstBundle.bytes.head? = some 123 ∧ firstBundle.bytes[16]? = some 57 := by
  decide

theorem secondBundle_at :
    secondBundle.bytes.head? = some 123 ∧ secondBundle.bytes[16]? = some 101 := by
  decide

/-- The digest of a manifest. -/
theorem SmallBundle.sha_bytes {bundle : SmallBundle} (hhead : bundle.bytes.head? = some 123) :
    smallPlatform.sha256 bundle.bytes =
      if bundle.bytes[16]? = some 57 then firstSha else secondSha := by
  have hne : bundle.bytes ≠ [] := by
    intro hnil
    rw [hnil] at hhead
    cases hhead
  simp [smallPlatform, hne, hhead]

theorem firstBundle_sha : smallPlatform.sha256 firstBundle.bytes = firstSha := by
  rw [SmallBundle.sha_bytes firstBundle_at.1, if_pos firstBundle_at.2]

theorem secondBundle_sha : smallPlatform.sha256 secondBundle.bytes = secondSha := by
  rw [SmallBundle.sha_bytes secondBundle_at.1, secondBundle_at.2]
  rfl

/-- The list of files starts with the first path. -/
theorem SmallBundle.digest_at {bundle : SmallBundle} {path : String} {rest : List String}
    (hpaths : bundle.paths = path :: rest) {n : Nat} (hn : n < path.utf8ByteSize) :
    (bundle.manifest.files.flatMap ManifestFile.digestLine)[n]? = (utf8Bytes path)[n]? := by
  have hlines : bundle.manifest.files.flatMap ManifestFile.digestLine =
      utf8Bytes path ++ ([0] ++ utf8Bytes (toString (0 : Int)) ++ [0] ++ utf8Bytes emptySha ++ [10] ++
        (rest.map (fun path => (⟨path, 0, emptySha⟩ : ManifestFile))).flatMap
          ManifestFile.digestLine) := by
    rw [manifest, hpaths, List.map_cons, List.flatMap_cons, ManifestFile.digestLine]
    simp only [List.append_assoc]
  rw [hlines]
  exact List.getElem?_append_left (by rw [length_utf8Bytes]; exact hn)

/-- The digest of a list of files. -/
theorem SmallBundle.sha_digest {bundle : SmallBundle} {path : String} {rest : List String}
    (hpaths : bundle.paths = path :: rest) (hlong : 11 < path.utf8ByteSize)
    (hhead : (utf8Bytes path)[0]? = some 109) :
    smallPlatform.sha256 (bundle.manifest.files.flatMap ManifestFile.digestLine) =
      if (utf8Bytes path)[11]? = some 49 then firstBundle.treeSha256
      else secondBundle.treeSha256 := by
  have h0 := (digest_at hpaths (by omega : 0 < path.utf8ByteSize)).trans hhead
  have h11 := digest_at hpaths hlong
  generalize bundle.manifest.files.flatMap ManifestFile.digestLine = lines at h0 h11
  have hne : lines ≠ [] := by
    rintro rfl
    cases h0
  rw [← List.head?_eq_getElem?] at h0
  simp [smallPlatform, hne, h0, h11]

theorem firstBundle_parsed :
    BundleManifest.parse smallPlatform firstBundle.bytes = .ok firstBundle.manifest := by
  refine SmallBundle.parse firstBundle_sound ?_ ?_
  · simp [smallPlatform, firstBundle_at.2]
  · rw [SmallBundle.sha_digest rfl (by decide) (by decide), if_pos (by decide)]

theorem secondBundle_parsed :
    BundleManifest.parse smallPlatform secondBundle.bytes = .ok secondBundle.manifest := by
  refine SmallBundle.parse secondBundle_sound ?_ ?_
  · simp [smallPlatform, secondBundle_at.2]
  · rw [SmallBundle.sha_digest rfl (by decide) (by decide), if_neg (by decide)]

/-- A receipt is read as the one it was built from, if its place in `smallPlatform` is known. -/
theorem SmallBundle.checked {bundle : SmallBundle} {sha : String}
    (hsha : smallPlatform.sha256 bundle.bytes = sha)
    (hparsed : BundleManifest.parse smallPlatform bundle.bytes = .ok bundle.manifest)
    (hread : smallPlatform.readReceipt (buildReceipt smallPlatform bundle.manifest sha) =
      .ok (receiptJson (receiptOf sha bundle)))
    (hsmall : (bundle.text.map String.utf8ByteSize).sum ≤ maxManifestBytes)
    (hreceiptSmall : (buildReceipt smallPlatform bundle.manifest sha).length ≤ maxReceiptBytes) :
    bundle.Checked (receiptJson (receiptOf sha bundle)) where
  small := by
    rw [bytes, length_pieces]
    exact hsmall
  parsed := hparsed
  read := by
    rw [hsha]
    exact hread
  matched := by
    rw [hsha]
    simp [ReceiptJson.matches, receiptJson, receiptOf, constantEquals, manifest]
  receiptSmall := by
    rw [hsha]
    exact hreceiptSmall

theorem firstBundle_checked : firstBundle.Checked (receiptJson (receiptOf firstSha firstBundle)) := by
  refine SmallBundle.checked firstBundle_sha firstBundle_parsed ?_ (by decide) ?_
  · have hat : (buildReceipt smallPlatform firstBundle.manifest firstSha)[131]? = some 98 := by
      decide
    simp only [smallPlatform] at hat ⊢
    rw [if_pos hat]
  · show (List.flatMap utf8Bytes _ ++ [10]).length ≤ maxReceiptBytes
    rw [List.length_append, length_pieces]
    decide

theorem secondBundle_checked :
    secondBundle.Checked (receiptJson (receiptOf secondSha secondBundle)) := by
  refine SmallBundle.checked secondBundle_sha secondBundle_parsed ?_ (by decide) ?_
  · have hat : (buildReceipt smallPlatform secondBundle.manifest secondSha)[131]? = some 48 := by
      decide
    have hother : ¬ (some 48 : Option UInt8) = some 98 := by decide
    simp only [smallPlatform] at hat ⊢
    rw [hat, if_neg hother, if_pos rfl]
  · show (List.flatMap utf8Bytes _ ++ [10]).length ≤ maxReceiptBytes
    rw [List.length_append, length_pieces]
    decide

theorem bundles_differ : constantEquals (smallPlatform.sha256 firstBundle.bytes)
    (smallPlatform.sha256 secondBundle.bytes) = false := by
  rw [firstBundle_sha, secondBundle_sha]
  decide

/-- The first bundle, on any platform that differs from `smallPlatform` in the receipts it reads. -/
theorem firstBundle_installable (readReceipt : List UInt8 → Except Throwable ReceiptJson)
    (hreceipt : ∃ receipt, readReceipt (buildReceipt smallPlatform firstBundle.manifest
      (smallPlatform.sha256 firstBundle.bytes)) = .ok receipt ∧
        receipt.matches (smallPlatform.sha256 firstBundle.bytes) firstBundle.manifest = true) :
    Installable { smallPlatform with readReceipt := readReceipt } firstBundle.assets
      firstBundle.bytes firstBundle.manifest :=
  SmallBundle.installable rfl firstBundle_checked.small firstBundle_checked.parsed firstBundle_apart
    firstBundle_reserved hreceipt firstBundle_checked.receiptSmall

theorem secondBundle_installable :
    Installable smallPlatform secondBundle.assets secondBundle.bytes secondBundle.manifest := by
  have h := secondBundle_checked
  exact SmallBundle.installable rfl h.small h.parsed secondBundle_apart secondBundle_reserved
    ⟨_, h.read, h.matched⟩ h.receiptSmall

theorem firstBundle_steps : firstSteps firstBundle.assets firstBundle.manifest ≤ 1000 := by
  rw [firstSteps, SmallBundle.copyTotal_eq (firstBundle_reserved _ (by simp)), verifySize]
  decide

/-- An installation. -/
theorem crash_safety_law_first :
    Runs.Always (Host.step smallPlatform) (Lawful smallPlatform) Host.fresh
      [callOf firstBundle 1000] :=
  crash_safety_law _ ⟨guarded_fresh _, trivial⟩

/-- The upgrade crashes between its two renames, and the recovery step of the next call deletes the
    only complete tree. -/
theorem recovery_deletes_only_tree :
    ¬ Runs.Always (Host.step smallPlatform) (Lawful smallPlatform) Host.fresh
      [callOf firstBundle 1000, callOf secondBundle 93, callOf secondBundle 50] := by
  have hcopy : copyTotal secondBundle.assets secondBundle.manifest.files = 32 :=
    SmallBundle.copyTotal_eq (secondBundle_reserved _ (by simp))
  have hfirst : Installable smallPlatform firstBundle.assets firstBundle.bytes firstBundle.manifest :=
    firstBundle_installable smallPlatform.readReceipt ⟨_, firstBundle_checked.read, firstBundle_checked.matched⟩
  have hlimit : 93 = 29 + copyTotal secondBundle.assets secondBundle.manifest.files +
      verifySize secondBundle.manifest := by
    rw [hcopy]
    rfl
  exact interrupted_upgrade hfirst secondBundle_installable rfl rfl rfl rfl firstBundle_steps hlimit rfl
    bundles_differ

end VibeCoder.Installer
