/-
  What a search returns, whatever fails on the way.

  1. **`Surely.readFile`** — a listed file is read as it is, unless a request of the reading fails;
     where the failing request is, `Peeks.ran` says.
  2. **`Searched`** — the files of a listing, one after the other: too large, not read, no text, or
     read with its leftmost matches.
  3. **`searchFiles_searched`** — induction on the files; a search that is not cut short has gone
     through all of them.
  4. **`listing_and_search_law`** — both operations, from any disk and with any failures.
-/
import VibeCoder.Workspace.SearchText
import VibeCoder.Workspace.WalkRuns

namespace VibeCoder.Workspace

open Resume Files Checkpoint

variable {α : Type} {d : Disk} {project : ProjectRef} {e : ProjectFileEntry}

/-! ## Reading a listed file -/

section

variable {J : ∀ {α : Type}, FileM α → (α → Prop) → Prop}

theorem Surely.openExistingDirAt (hJ : Surely d J) {p : Path} (hdir : d.node p = some .dir) :
    J (Workspace.openExistingDirAt p) (fun _ => True) := by
  have hopen : J (io (.openAt p) "project_path_parent_not_directory_or_symlink") (· = true) := by
    refine hJ.ask rfl (fun w hw => ⟨true, ?_, rfl⟩)
    simp only [exec, hw, Bool.false_eq_true, if_false, hdir]
  refine hJ.seq hopen ?_
  rintro found rfl
  exact hJ.pass rfl

/-- A directory whose path is followed to it. -/
theorem Surely.openParents (hJ : Surely d J) {current : Path} {names : List String}
    (hdir : d.node (current ++ names) = some .dir) :
    J (Workspace.openParents current names) (· = current ++ names) := by
  induction names generalizing current with
  | nil => exact hJ.ret (List.append_nil current).symm
  | cons name names ih =>
    have hregroup : current ++ name :: names = current ++ [name] ++ names := by simp
    rw [hregroup] at hdir ⊢
    have hhere : d.node (current ++ [name]) = some .dir := by
      by_cases hnil : names = []
      · rw [hnil, List.append_nil] at hdir
        exact hdir
      · exact d.dir_above hnil (by rw [hdir]; exact Option.some_ne_none _)
    exact hJ.seq (hJ.openExistingDirAt hhere) (fun _ _ => ih hdir)

/-- A project that is there passes its checks. -/
theorem Surely.verifyProject (hJ : Surely d J) (h : ProjectThere d project) :
    J (Workspace.verifyProject project) (fun _ => True) := by
  have hlstat : J (diskIo (.lstat (expectedProjectRoot project.id)) "project_root_is_symlink")
      (· = some .dir) := by
    refine hJ.performed rfl (fun w => ?_)
    simp only [Disk.perform, h.dir]
    rfl
  have hmetadata : J (diskIo (.metadata (expectedProjectRoot project.id))
      "project_root_unavailable") (· = .dir) := by
    refine hJ.performed rfl (fun w => ?_)
    simp only [Disk.perform, Disk.followed, h.dir]
    rfl
  have hcanonical : J (diskIo (.canonicalize (expectedProjectRoot project.id))
      "project_root_unavailable") (· = expectedProjectRoot project.id) := by
    refine hJ.performed rfl (fun w => ?_)
    simp only [Disk.perform, Disk.followed, h.dir]
    rfl
  refine hJ.seq (hJ.pass (bne_eq_false_iff_eq.mpr h.root)) (fun _ _ => ?_)
  refine hJ.seq (R := fun _ => True) (hJ.seq hlstat ?_) (fun _ _ => ?_)
  · rintro found rfl
    exact hJ.pass rfl
  refine hJ.seq (R := (· = expectedProjectRoot project.id)) (hJ.seq hmetadata ?_) ?_
  · rintro found rfl
    exact hJ.seq (hJ.pass rfl) (fun _ _ => hcanonical)
  · rintro canonical rfl
    refine hJ.seq (hJ.pass ?_) (fun _ _ => hJ.ret trivial)
    rw [bne_self_eq_false, Bool.false_or, Bool.not_eq_false', List.isPrefixOf_iff_prefix]
    exact List.prefix_append _ _

theorem Surely.openVerifiedProjectRoot (hJ : Surely d J) (h : ProjectThere d project) :
    J (Workspace.openVerifiedProjectRoot project) (· = expectedProjectRoot project.id) := by
  -- whatever is above the project is a directory
  have habove : ∀ {p rel : Path}, rel ≠ [] → expectedProjectRoot project.id = p ++ rel →
      d.node p = some .dir := by
    intro p rel hrel heq
    refine d.dir_above hrel ?_
    rw [← heq, h.dir]
    exact Option.some_ne_none _
  have hopen : J (diskIo (.openDir []) "app_private_root_open_failed") (· = ()) := by
    have htop : d.node [] = some .dir := by
      refine habove ?_ (List.nil_append _).symm
      exact List.cons_ne_nil _ _
    refine hJ.performed rfl (fun w => ?_)
    simp only [Disk.perform]
    rw [if_pos htop]
  have hlstat : J (diskIo (.lstat project.root) "project_root_metadata_failed")
      (· = some .dir) := by
    refine hJ.performed rfl (fun w => ?_)
    simp only [Disk.perform, h.root, h.dir]
    rfl
  have hstat : J (diskIo (.statFile (expectedProjectRoot project.id))
      "project_root_fstat_failed") (· = .dir) := by
    refine hJ.performed rfl (fun w => ?_)
    simp only [Disk.perform, h.dir]
    rfl
  refine hJ.seq (hJ.verifyProject h) (fun _ _ => hJ.seq hopen (fun _ _ => ?_))
  refine hJ.seq (hJ.openExistingDirAt (habove (List.cons_ne_nil _ _) rfl)) (fun _ _ => ?_)
  refine hJ.seq (hJ.openExistingDirAt (habove (List.cons_ne_nil _ []) rfl)) (fun _ _ => ?_)
  refine hJ.seq (hJ.openExistingDirAt h.dir) (fun _ _ => hJ.seq hlstat ?_)
  rintro found rfl
  refine hJ.seq (hJ.pass rfl) (fun _ _ => hJ.seq (hJ.pass rfl) (fun _ _ => hJ.seq hstat ?_))
  rintro stat rfl
  exact hJ.seq (hJ.pass rfl) (fun _ _ => hJ.ret rfl)

theorem Surely.inspect (hJ : Surely d J) {p : Path} {content : List UInt8} {executable : Bool}
    (h : HoldsFile d p content executable) :
    J (inspectExistingReadTarget p)
      (fun found => ∃ writable, found = (.file content.length executable 1, writable)) := by
  have hstat : J (io (.statAt p) "file_read_target_metadata_failed")
      (fun found => ∃ writable, found = some (.file content.length executable 1, writable)) := by
    refine hJ.ask rfl (fun w hw => ⟨_, ?_, w.writable, rfl⟩)
    simp only [exec, hw, Bool.false_eq_true, if_false, show d.node p = _ from h]
    rfl
  refine hJ.seq (R := fun found => ∃ writable,
    found = some (.file content.length executable 1, writable)) (hJ.seq hstat ?_) ?_
  · rintro found ⟨writable, rfl⟩
    refine hJ.seq (hJ.pass rfl) (fun _ _ => hJ.seq (hJ.regular rfl rfl) (fun _ _ => ?_))
    exact hJ.ret ⟨writable, rfl⟩
  · rintro found ⟨writable, rfl⟩
    exact hJ.ret ⟨writable, rfl⟩

/-- **A listed file is read.** -/
theorem Surely.readFile (hJ : Surely d J) (h : ProjectThere d project) {names : List String}
    (hlisted : Listed d (expectedProjectRoot project.id) "" names e) {content : List UInt8}
    (hfile : HoldsFile d (expectedProjectRoot project.id ++ names) content e.ownerExecutable)
    {maxBytes : Nat} (hpositive : maxBytes ≠ 0) (hlimit : maxBytes ≤ maxFileReadBytes)
    (hsize : content.length ≤ maxBytes) :
    J (Workspace.readFile project e.relativePath maxBytes) (· = content) := by
  have hbounds : (decide (maxBytes = 0) || decide (maxBytes > maxFileReadBytes)) = false := by
    rw [decide_eq_false hpositive, decide_eq_false (Nat.not_lt.mpr hlimit)]
    rfl
  have hfits : decide (content.length > maxBytes) = false := decide_eq_false (Nat.not_lt.mpr hsize)
  obtain ⟨front, name, rfl⟩ : ∃ front name, names = front ++ [name] :=
    ⟨_, _, (List.dropLast_append_getLast hlisted.nonempty).symm⟩
  have hparent : d.node (expectedProjectRoot project.id ++ front) = some .dir := by
    refine d.dir_above (List.cons_ne_nil name []) ?_
    rw [List.append_assoc, show d.node _ = _ from hfile]
    exact Option.some_ne_none _
  have hopen : J (openParent project (front ++ [name]))
      (· = (expectedProjectRoot project.id ++ front, name)) := by
    rw [openParent, List.getLast?_concat]
    refine hJ.seq (hJ.openVerifiedProjectRoot h) ?_
    rintro root rfl
    rw [List.dropLast_concat]
    refine hJ.seq (hJ.openParents hparent) ?_
    rintro parent rfl
    exact hJ.ret rfl
  have hresume : J (resume (validateRelativePath e.relativePath)) (· = front ++ [name]) := by
    rw [hlisted.accepted]
    exact hJ.ret rfl
  refine hJ.seq (hJ.pass hbounds) (fun _ _ => hJ.seq hresume ?_)
  rintro components rfl
  refine hJ.seq hopen ?_
  rintro found rfl
  rw [← List.append_assoc] at hfile
  refine hJ.seq (hJ.inspect hfile) ?_
  rintro found ⟨writable, rfl⟩
  exact hJ.seq (hJ.pass hfits) (fun _ _ => hJ.readVerified hfile hsize)

end

/-! ## Runs -/

/-- What a run of a program that looks tells: if it fails, one of its own requests has failed. -/
theorem Peeks.ran {p : FileM α} {R : α → Prop} (h : ∀ calm, Peeks calm d (¬calm) p R)
    {w : Nat → World} {k m : Nat} {t : Disk} {answer : Result α}
    (hrun : runAlone exec w p k d = (answer, m, t)) :
    t = d ∧ (∀ a, answer = .ok a → R a) ∧
      (∀ error, answer = .error error → ∃ n, k ≤ n ∧ n < m ∧ (w n).fails = true) := by
  have hpost := wp_run (w := w) (n := k) (fun n hno => hno.elim) (h False)
  rw [hrun] at hpost
  refine ⟨?_, fun a ha => ?_, fun error herror => ?_⟩
  · cases answer with
    | ok a => exact hpost.1
    | error error => exact hpost.1
  · subst ha
    exact hpost.2
  · subst herror
    by_contra hno
    -- the same run where nothing else fails either
    have hsame : runAlone exec (fun n => if k ≤ n ∧ n < m then w n else { w n with fails := false })
        p k d = (.error error, m, t) := by
      rw [← hrun]
      refine Proc.run_congr exec p.run k d (fun n hn hlt => if_pos ⟨hn, ?_⟩)
      have hlast : (Proc.run exec w p.run k d).2.1 = m := congrArg (fun r => r.2.1) hrun
      rwa [hlast] at hlt
    have hcalm : ∀ n, True →
        (if k ≤ n ∧ n < m then w n else { w n with fails := false }).fails = false := by
      intro n _
      split
      · rename_i hn
        exact Bool.eq_false_iff.mpr (fun hfails => hno ⟨n, hn.1, hn.2, hfails⟩)
      · rfl
    have hquiet := wp_run (n := k) hcalm (h True)
    rw [hsame] at hquiet
    exact hquiet.2 trivial

/-! ## The search -/

/-- The file that an entry names has these bytes. -/
def Holds (d : Disk) (project : ProjectRef) (e : ProjectFileEntry) (bytes : List UInt8) : Prop :=
  ∃ names, validateRelativePath e.relativePath = .ok names ∧
    HoldsFile d (expectedProjectRoot project.id ++ names) bytes e.ownerExecutable

/-- The files searched in turn from a request on, and all that was found. -/
inductive Searched (w : Nat → World) (d : Disk) (project : ProjectRef) (needle : List Char) :
    Nat → List ProjectFileEntry → List ProjectTextMatch → Prop where
  | done (k : Nat) : Searched w d project needle k [] []
  /-- The file is over the bound. -/
  | large {k : Nat} {e : ProjectFileEntry} {files : List ProjectFileEntry}
      {found : List ProjectTextMatch} (size : maxProjectSearchFileBytes < e.sizeBytes)
      (rest : Searched w d project needle k files found) :
      Searched w d project needle k (e :: files) found
  /-- A request of the reading has failed. -/
  | unreadable {k m n : Nat} {e : ProjectFileEntry} {files : List ProjectFileEntry}
      {found : List ProjectTextMatch} {error : VibeCoderError}
      (ran : runAlone exec w (readFile project e.relativePath maxProjectSearchFileBytes) k d =
        (.error error, m, d))
      (failed : k ≤ n ∧ n < m ∧ (w n).fails = true)
      (rest : Searched w d project needle m files found) :
      Searched w d project needle k (e :: files) found
  /-- The file is not UTF-8. -/
  | binary {k m : Nat} {e : ProjectFileEntry} {files : List ProjectFileEntry}
      {found : List ProjectTextMatch} {bytes : List UInt8} (file : Holds d project e bytes)
      (ran : runAlone exec w (readFile project e.relativePath maxProjectSearchFileBytes) k d =
        (.ok bytes, m, d))
      (text : fromUtf8 bytes = none) (rest : Searched w d project needle m files found) :
      Searched w d project needle k (e :: files) found
  /-- The matches of the file are its leftmost occurrences, each with its place. -/
  | read {k m : Nat} {e : ProjectFileEntry} {files : List ProjectFileEntry}
      {here found : List ProjectTextMatch} {bytes : List UInt8} {text : List Char}
      {positions : List Nat} (file : Holds d project e bytes)
      (ran : runAlone exec w (readFile project e.relativePath maxProjectSearchFileBytes) k d =
        (.ok bytes, m, d))
      (decoded : fromUtf8 bytes = some text) (leftmost : Leftmost needle text positions)
      (matched : here.map (fun x => (x.relativePath, x.line, x.column)) =
        positions.map (fun i => (e.relativePath, place (text.take i))))
      (rest : Searched w d project needle m files found) :
      Searched w d project needle k (e :: files) (here ++ found)

variable {w : Nat → World} {needle : List Char}

/-- The loop over the matches takes them all, or the search is cut short. -/
theorem collectMatches_cases {relative : String} {text : List Char} {maxMatches : Nat}
    {positions : List Nat} {result after : ProjectTextSearchResult} {returns : Bool}
    (h : collectMatches relative text maxMatches positions result = (after, returns)) :
    (returns = true ∧ after.truncated = true) ∨
      (returns = false ∧ after.truncated = result.truncated ∧
        after.matches_ = result.matches_ ++ positions.map (textMatch relative text)) := by
  induction positions generalizing result with
  | nil =>
    cases h
    exact .inr ⟨rfl, rfl, (List.append_nil _).symm⟩
  | cons index rest ih =>
    rw [collectMatches] at h
    split at h
    · cases h
      exact .inl ⟨rfl, rfl⟩
    · rcases ih h with hcut | ⟨hreturns, htruncated, hmatches⟩
      · exact .inl hcut
      · refine .inr ⟨hreturns, htruncated, ?_⟩
        rw [hmatches, List.map_cons, List.append_assoc]
        rfl

/-- The matches of a text of a file within the bound. -/
theorem matched_textMatch {relative : String} {text : List Char} (positions : List Nat)
    (hsize : text.length ≤ maxProjectSearchFileBytes) :
    (positions.map (textMatch relative text)).map (fun x => (x.relativePath, x.line, x.column)) =
      positions.map (fun i => (relative, place (text.take i))) := by
  have hbound : text.length < u32Max := Nat.lt_of_le_of_lt hsize (by decide)
  rw [List.map_map]
  refine List.map_congr_left (fun i _ => ?_)
  rw [← locateTextMatch_place hbound]
  rfl

/-- A search that ends by being cut short is marked. -/
theorem truncate_run {result after : ProjectTextSearchResult} {k m : Nat} {t : Disk}
    (h : runAlone exec w (pure result.truncate : FileM _) k d = (.ok after, m, t)) :
    after.truncated = true := by
  have hafter : result.truncate = after := by
    injection congrArg Prod.fst h
  rw [← hafter]
  rfl

/-- **The files in turn**, by induction on them. -/
theorem searchFiles_searched (hthere : ProjectThere d project) (hne : needle ≠ [])
    {maxMatches : Nat} {files : List ProjectFileEntry}
    (hfiles : ∀ e ∈ files, ∃ names, Listed d (expectedProjectRoot project.id) "" names e)
    {result after : ProjectTextSearchResult} {k m : Nat} {t : Disk}
    (hrun : runAlone exec w (searchFiles project needle maxMatches files result) k d =
      (.ok after, m, t)) (hcut : after.truncated = false) :
    result.truncated = false ∧ ∃ found, after.matches_ = result.matches_ ++ found ∧
      Searched w d project needle k files found := by
  induction files generalizing result k with
  | nil =>
    obtain rfl : result = after := by
      injection congrArg Prod.fst hrun
    exact ⟨hcut, [], (List.append_nil _).symm, .done k⟩
  | cons e files ih =>
    have hlater := fun other (hother : other ∈ files) =>
      hfiles other (List.mem_cons_of_mem _ hother)
    have hwhole : ∀ {r : ProjectTextSearchResult} {n : Nat} {s : Disk},
        runAlone exec w (pure r.truncate : FileM _) n s ≠ (.ok after, m, t) := by
      intro r n s h
      rw [truncate_run h] at hcut
      cases hcut
    rw [searchFiles] at hrun
    split at hrun
    · rename_i hlarge
      obtain ⟨htruncated, found, hmatches, hsearched⟩ := ih hlater hrun
      exact ⟨htruncated, found, hmatches, .large hlarge hsearched⟩
    rename_i hsmall
    split at hrun
    · exact absurd hrun hwhole
    -- the file is read
    obtain ⟨names, hlisted⟩ := hfiles e List.mem_cons_self
    obtain ⟨content, hfile, hsize⟩ := hlisted.file
    have hlength : content.length ≤ maxProjectSearchFileBytes := by
      rw [← hsize]
      exact Nat.not_lt.mp hsmall
    rcases hread : runAlone exec w
      (readFile project e.relativePath maxProjectSearchFileBytes) k d with ⟨answer, n, u⟩
    obtain ⟨rfl, hbytes, hfailed⟩ := Peeks.ran
      (fun _ => peeks_surely.readFile hthere hlisted hfile (by decide) (by decide) hlength) hread
    rw [runAlone_settle, hread] at hrun
    cases answer with
    | error error =>
      obtain ⟨j, hj⟩ := hfailed error rfl
      obtain ⟨htruncated, found, hmatches, hsearched⟩ := ih hlater hrun
      exact ⟨htruncated, found, hmatches, .unreadable hread hj hsearched⟩
    | ok bytes =>
      obtain rfl := hbytes bytes rfl
      have hholds : Holds u project e bytes := ⟨names, hlisted.accepted, hfile⟩
      simp only at hrun
      split at hrun
      · exact absurd hrun hwhole
      rcases hdecoded : fromUtf8 bytes with _ | text
      · rw [hdecoded] at hrun
        obtain ⟨htruncated, found, hmatches, hsearched⟩ := ih hlater hrun
        exact ⟨htruncated, found, hmatches, .binary hholds hread hdecoded hsearched⟩
      rw [hdecoded] at hrun
      simp only at hrun
      split at hrun
      · -- the loop over the matches returns
        rename_i scanned hcollected
        rcases collectMatches_cases hcollected with ⟨-, hmarked⟩ | ⟨hreturns, -⟩
        · obtain rfl : scanned = after := by
            injection congrArg Prod.fst hrun
          rw [hmarked] at hcut
          cases hcut
        · cases hreturns
      · rename_i scanned hcollected
        rcases collectMatches_cases hcollected with ⟨hreturns, -⟩ | ⟨-, htruncated, hhere⟩
        · cases hreturns
        obtain ⟨hrest, found, hmatches, hsearched⟩ := ih hlater hrun
        refine ⟨htruncated.symm.trans hrest, _, ?_, .read hholds hread hdecoded
          (matchIndices_leftmost hne text)
          (matched_textMatch _ ((length_le_bytes hdecoded).trans hlength)) hsearched⟩
        rw [hmatches, hhere, List.append_assoc]

/-- **Listing and search are complete.**  From any disk, with any failures:

    * a listing is in the order of the paths; the validator accepts each path and reads the names
      of the file that the entry tells of in it.  When no request fails and the listing is not cut
      short, it has every regular file with one name whose path the validator takes;
    * a search that is not marked truncated has the leftmost matches of every file of its own
      listing that is within the bound, UTF-8, and not lost to a failing request; they come in the
      order of the listing, each with its line and column. -/
theorem listing_and_search_law (hd : RealNames d) (foreign : Path → Nat) (project : ProjectRef)
    (w : Nat → World) (k : Nat) :
    (∀ maxEntries listing m t,
      runAlone exec w (listProjectFiles foreign project maxEntries) k d = (.ok listing, m, t) →
      listing.files.Pairwise (fun a b => a.relativePath < b.relativePath) ∧
      (∀ e ∈ listing.files, ∃ bytes, Holds d project e bytes ∧ e.sizeBytes = bytes.length) ∧
      ((∀ n, (w n).fails = false) → listing.truncated = false →
        ∀ names content executable, names ≠ [] → (∀ name ∈ names, OrdinaryName name) →
          len ("/".intercalate names) ≤ maxRelativePathBytes →
          HoldsFile d (expectedProjectRoot project.id ++ names) content executable →
          ⟨"/".intercalate names, content.length, executable⟩ ∈ listing.files)) ∧
    (∀ needle maxMatches result m t,
      runAlone exec w (searchProjectText foreign project needle maxMatches) k d =
        (.ok result, m, t) → result.truncated = false →
      ∃ listing n,
        runAlone exec w (listProjectFiles foreign project maxProjectSearchFiles) k d =
          (.ok listing, n, d) ∧ listing.truncated = false ∧
        Searched w d project needle.toList n listing.files result.matches_) := by
  -- what any listing of this run says
  have hlist : ∀ {maxEntries : Nat} {listing : ProjectFileList} {m : Nat} {t : Disk},
      runAlone exec w (listProjectFiles foreign project maxEntries) k d = (.ok listing, m, t) →
      t = d ∧ Listing (∀ n, (w n).fails = false) d project listing := by
    intro maxEntries listing m t hrun
    have hpeeks : Peeks (∀ n, (w n).fails = false) d True
        (listProjectFiles foreign project maxEntries) (Listing (∀ n, (w n).fails = false) d project) :=
      peeks_listProjectFiles hd
    have hpost := wp_run (w := w) (n := k) (fun n hcalm => hcalm n) hpeeks
    rw [hrun] at hpost
    exact hpost
  constructor
  · intro maxEntries listing m t hrun
    obtain ⟨-, hlisting⟩ := hlist hrun
    refine ⟨hlisting.sorted, fun e he => ?_, ?_⟩
    · obtain ⟨names, hlisted⟩ := hlisting.listed e he
      obtain ⟨content, hfile, hsize⟩ := hlisted.file
      exact ⟨content, ⟨names, hlisted.accepted, hfile⟩, hsize⟩
    · intro hcalm hcut names content executable hne hnames hshort hfile
      exact hlisting.complete hcalm hcut names _
        ⟨hne, hnames, (pathText_join hne hnames).symm, hshort, content, hfile, rfl⟩
  · intro needle maxMatches result m t hrun hcut
    unfold searchProjectText at hrun
    -- the needle and the limit have passed their checks
    have hpass : ∀ {α : Type} {c : Bool} {code : String} {f : Unit → FileM α} {a : α},
        runAlone exec w (refuseIf c code >>= f) k d = (.ok a, m, t) →
        c = false ∧ runAlone exec w (f ()) k d = (.ok a, m, t) := by
      intro α c code f a h
      cases c with
      | true => cases congrArg Prod.fst h
      | false => exact ⟨rfl, h⟩
    obtain ⟨hempty, hneedle⟩ := hpass hrun
    obtain ⟨-, hlimit⟩ := hpass hneedle
    obtain ⟨-, hlists⟩ := hpass hlimit
    have hne : needle.toList ≠ [] := by
      intro hnil
      rw [String.toList_eq_nil_iff.mp hnil] at hempty
      cases hempty
    rcases hlisted : runAlone exec w
      (listProjectFiles foreign project maxProjectSearchFiles) k d with ⟨answer, n, u⟩
    cases answer with
    | error e =>
      rw [runAlone_bind_error exec w _ hlisted] at hlists
      cases congrArg Prod.fst hlists
    | ok listing =>
      rw [runAlone_bind_ok exec w _ hlisted] at hlists
      obtain ⟨rfl, hlisting⟩ := hlist hlisted
      obtain ⟨htruncated, found, hmatches, hsearched⟩ :=
        searchFiles_searched hlisting.there hne hlisting.listed hlists hcut
      refine ⟨listing, n, rfl, htruncated, ?_⟩
      rw [hmatches]
      exact hsearched

/-- A project with one file, whose second line has a character of two bytes. -/
def sampleTree : Disk :=
  afterAll (do
    createDir [] productRootName ""
    createDir [productRootName] projectsRootName ""
    createDir projectsRoot (ProjectId.dirName sampleProject.id) ""
    createDir sampleProject.root "src" ""
    Checkpoint.io (.createFile (sampleProject.root ++ ["src"]) "main" false) ""
    Checkpoint.io (.writeAll (sampleProject.root ++ ["src"]) "main" [97, 10, 195, 182, 98]) "")
    freshDisk

theorem sampleTree_names : RealNames sampleTree := by
  have hall : ∀ q ∈ sampleTree.paths, ∀ name ∈ q, '/' ∉ name.toList := by
    decide
  intro dir name h
  exact hall _ (sampleTree.covered _ h) name (List.mem_append_right _ List.mem_cons_self)

/-- Nothing fails. -/
def sampleWorld : World := { Checkpoint.quiet 0 with writable := true }

theorem listing_and_search_law_sample :
    ∃ listing n,
      runAlone exec (fun _ => sampleWorld)
        (listProjectFiles (fun _ => 0) sampleProject maxProjectSearchFiles) 0 sampleTree =
          (.ok listing, n, sampleTree) ∧ listing.truncated = false ∧
      Searched (fun _ => sampleWorld) sampleTree sampleProject "b".toList n listing.files
        [⟨"src/main", 2, 2, "öb"⟩] := by
  have hresult : (runAlone exec (fun _ => sampleWorld)
      (searchProjectText (fun _ => 0) sampleProject "b" 512) 0 sampleTree).1 =
        .ok ⟨[⟨"src/main", 2, 2, "öb"⟩], 1, 0, 5, false⟩ := by
    decide
  rcases hrun : runAlone exec (fun _ => sampleWorld)
    (searchProjectText (fun _ => 0) sampleProject "b" 512) 0 sampleTree with ⟨answer, m, t⟩
  rw [hrun] at hresult
  subst hresult
  exact (listing_and_search_law sampleTree_names (fun _ => 0) sampleProject
    (fun _ => sampleWorld) 0).2 "b" 512 _ m t hrun rfl

end VibeCoder.Workspace
