/-
  What the check of an installed runtime accepts.

  1. **Specification** (`Exact`) — the regular files of the directory, but for the manifest and the
     receipt, are the ones that are declared, with their sizes and digests, and there is nothing
     else than directories beside them.

  2. **Paths** — a declared path is split at slashes by one function and parsed into components by
     another, which drops empty parts and dots.  On a path that joins names of entries they agree
     (`components_plain`), and only such a path is found by the walk.

  3. **The walk (`collectRuntimeFiles_eq`)** — it visits the leaves of the directory in the order in
     which they are listed: by induction on the node.

  4. **The declared files (`verifyFiles_iff`)** — by induction on the list.

  5. **The law (`verifyRuntimeTree_exact`)** — both directions, and the figures.
-/
import VibeCoder.Host.RuntimeDirectory
import VibeCoder.Build.PromptLimit

namespace VibeCoder.RuntimeDirectory

open NodeTree
open Gateway (refuse refuse_iff)
open Host (hostError)
open Installer (manifestName receiptName samePaths)
open RuntimeTree (ManifestFile BundleManifest InstallReceipt validateManifestRelativePath validPath
  maxManifestBytes maxReceiptBytes maxFiles maxFileBytes maxTotalBytes maxPathBytes profileRuntime
  isSha256 isNormal totalSize totalSize_cons orFail_then_iff samePaths_iff)
open Workspace (Component components component splitSlash_eq_splitOn component_normal isAbsolute)

/-! ## Paths -/

/-- The parts of a path between slashes. -/
def parts (path : String) : List String := (Workspace.splitSlash path.toList).map String.ofList

/-- The names of the entries on a path. -/
def namesOf (path : String) : List OsName := (parts path).map .text

/-- A path that can be declared. -/
structure PlainPath (path : String) : Prop where
  parts : ∀ part ∈ parts path, PlainName part
  no_backslash : '\\' ∉ path.toList
  short : len path ≤ maxPathBytes
  not_manifest : path ≠ manifestName
  not_receipt : path ≠ receiptName

theorem splitSlash_append (as bs : List Char) :
    Workspace.splitSlash (as ++ '/' :: bs) = Workspace.splitSlash as ++ Workspace.splitSlash bs := by
  induction as with
  | nil => rfl
  | cons a as ih =>
    rw [List.cons_append, Workspace.splitSlash, Workspace.splitSlash, ih]
    split
    · rfl
    · cases hsplit : Workspace.splitSlash as with
      | nil =>
        rw [splitSlash_eq_splitOn] at hsplit
        exact absurd hsplit (List.splitOn_ne_nil _ _)
      | cons part rest => rfl

/-- A path is its parts joined. -/
theorem join_parts (path : String) : "/".intercalate (parts path) = path := by
  refine String.toList_injective ?_
  have hchars : (parts path).map String.toList = path.toList.splitOn '/' := by
    unfold parts
    rw [splitSlash_eq_splitOn, List.map_map]
    simp
  rw [String.toList_intercalate, hchars]
  exact List.intercalate_splitOn '/'

theorem parts_join {names : List String} (hne : names ≠ []) (h : ∀ name ∈ names, '/' ∉ name.toList) :
    parts ("/".intercalate names) = names := by
  have hslash : ∀ part ∈ names.map String.toList, '/' ∉ part := by
    intro part hpart
    obtain ⟨name, hname, rfl⟩ := List.mem_map.mp hpart
    exact h name hname
  have hsome : names.map String.toList ≠ [] := fun hnil => hne (List.map_eq_nil_iff.mp hnil)
  unfold parts
  rw [String.toList_intercalate, splitSlash_eq_splitOn]
  show ((['/'].intercalate (names.map String.toList)).splitOn '/').map String.ofList = names
  rw [List.splitOn_intercalate '/' hslash hsome, List.map_map]
  simp

/-- What stands around a slash. -/
theorem parts_around {path : String} {as bs : List Char} (h : path.toList = as ++ '/' :: bs) :
    parts path = (Workspace.splitSlash as).map String.ofList ++ (Workspace.splitSlash bs).map String.ofList := by
  unfold parts
  rw [h, splitSlash_append, List.map_append]

/-- **Splitting and parsing agree** where every part is the name of an entry. -/
theorem components_plain {path : String} (h : ∀ part ∈ parts path, PlainName part) :
    components path = (parts path).map Component.normal := by
  have hempty : ∀ cs bs, path.toList = cs ++ '/' :: bs → cs ≠ [] := by
    rintro cs bs hpath rfl
    refine (h "" ?_).nonempty rfl
    rw [parts_around hpath]
    exact List.mem_cons_self
  have habsolute : isAbsolute path = false := by
    rw [isAbsolute, beq_eq_false_iff_ne]
    intro hhead
    obtain ⟨bs, hbs⟩ := List.head?_eq_some_iff.mp hhead
    exact hempty [] bs hbs rfl
  have hdot : (parts path).head? ≠ some "." :=
    fun hhead => (h "." (List.mem_of_mem_head? hhead)).not_dot rfl
  have hnormal : (parts path).filterMap component = (parts path).map Component.normal := by
    have hall : ∀ part ∈ parts path, component part = some (.normal part) := fun part hpart =>
      component_normal (h part hpart).nonempty (h part hpart).not_dot (h part hpart).not_parent
    rw [List.filterMap_congr hall]
    exact congrFun List.filterMap_eq_map _
  show (if isAbsolute path = true then _ else if (parts path).head? = some "." then _ else _) = _
  rw [habsolute, if_neg Bool.false_ne_true, if_neg hdot]
  exact hnormal

/-- A path that can be declared passes the textual checks. -/
theorem PlainPath.valid {path : String} (h : PlainPath path) : validPath path = true := by
  have hpart : ∀ as bs, path.toList = as ++ '/' :: bs →
      [] ∉ Workspace.splitSlash as ∧ [] ∉ Workspace.splitSlash bs := by
    intro as bs hpath
    have hall : ∀ part ∈ (Workspace.splitSlash as).map String.ofList ++ (Workspace.splitSlash bs).map String.ofList,
        PlainName part := by
      rw [← parts_around hpath]
      exact h.parts
    constructor
    · intro hmem
      exact (hall "" (List.mem_append_left _ (List.mem_map_of_mem hmem))).nonempty rfl
    · intro hmem
      exact (hall "" (List.mem_append_right _ (List.mem_map_of_mem hmem))).nonempty rfl
  have hempty : path ≠ "" := by
    rintro rfl
    exact (h.parts "" (by decide)).nonempty rfl
  have hhead : path.toList.head? ≠ some '/' := by
    intro hhead
    obtain ⟨bs, hbs⟩ := List.head?_eq_some_iff.mp hhead
    exact (hpart [] bs hbs).1 List.mem_cons_self
  have hlast : path.toList.getLast? ≠ some '/' := by
    intro hlast
    obtain ⟨as, has⟩ := List.getLast?_eq_some_iff.mp hlast
    exact (hpart as [] has).2 List.mem_cons_self
  have hdouble : Chars.contains ['/', '/'] path.toList = false := by
    rw [← Bool.not_eq_true, Chars.contains_iff]
    rintro ⟨as, bs, hpath⟩
    have hsplit : path.toList = as ++ '/' :: ('/' :: bs) := by
      rw [← hpath, List.append_assoc]
      rfl
    refine (hpart as _ hsplit).2 ?_
    rw [Workspace.splitSlash, if_pos rfl]
    exact List.mem_cons_self
  have hnormal : (components path).all isNormal = true := by
    rw [components_plain h.parts, List.all_map, List.all_eq_true]
    exact fun part _ => rfl
  simp [validPath, hempty, h.short, hhead, hlast, h.no_backslash, hdouble, h.not_manifest,
    h.not_receipt, hnormal]

/-- What the textual checks see besides the parts. -/
theorem validPath_sees {path : String} (h : validPath path = true) :
    '\\' ∉ path.toList ∧ len path ≤ maxPathBytes ∧ path ≠ manifestName ∧ path ≠ receiptName := by
  simp only [validPath, Bool.and_eq_true, decide_eq_true_eq] at h
  exact ⟨h.1.1.1.1.2, h.1.1.1.1.1.1.1.2, h.1.1.2, h.1.2⟩

/-- A path below the root is text iff all its names are. -/
theorem relativeText_eq_some {names : List OsName} {path : String} :
    relativeText names = some path ↔
      ∃ texts : List String, names = texts.map OsName.text ∧ path = "/".intercalate texts := by
  have hmap : ∀ {names : List OsName} {texts : List String},
      names.mapM OsName.toStr = some texts ↔ names = texts.map OsName.text := by
    intro names
    induction names with
    | nil =>
      intro texts
      cases texts with
      | nil => exact iff_of_true rfl rfl
      | cons t texts => exact iff_of_false (fun h => by cases h) (fun h => by cases h)
    | cons name names ih =>
      intro texts
      rw [List.mapM_cons]
      cases name with
      | bytes value =>
        refine iff_of_false (fun h => by cases h) (fun h => ?_)
        cases texts with
        | nil => cases h
        | cons t texts => cases h
      | text value =>
        show (names.mapM OsName.toStr).bind (fun rest => some (value :: rest)) = some texts ↔ _
        rw [Option.bind_eq_some_iff]
        constructor
        · rintro ⟨rest, hrest, ⟨⟩⟩
          rw [ih.mp hrest]
          rfl
        · intro h
          cases texts with
          | nil => cases h
          | cons t texts =>
            obtain ⟨ht, hrest⟩ := List.cons.inj h
            cases ht
            exact ⟨texts, ih.mpr hrest, rfl⟩
  unfold relativeText
  rw [Option.map_eq_some_iff]
  constructor
  · rintro ⟨texts, htexts, rfl⟩
    exact ⟨texts, hmap.mp htexts, rfl⟩
  · rintro ⟨texts, hnames, rfl⟩
    exact ⟨texts, hmap.mpr hnames, rfl⟩

/-! ## A declared file -/

/-- The names that have been gone down are those of the components. -/
theorem walkDown_ok {node : Node} {comps : List Component} {names result : List OsName}
    (h : walkDown node comps names = .ok result) :
    ∃ texts : List String, comps = texts.map Component.normal ∧
      result = names ++ texts.map OsName.text := by
  induction comps generalizing node names with
  | nil =>
    rw [walkDown] at h
    cases h
    exact ⟨[], rfl, (List.append_nil _).symm⟩
  | cons comp rest ih =>
    cases comp with
    | rootDir => cases h
    | curDir => cases h
    | parentDir => cases h
    | normal name =>
      have hstep : ∀ {next : Node}, walkDown next rest (names ++ [.text name]) = .ok result →
          ∃ texts : List String, Component.normal name :: rest = texts.map Component.normal ∧
            result = names ++ texts.map OsName.text := by
        intro next hnext
        obtain ⟨texts, rfl, rfl⟩ := ih hnext
        exact ⟨name :: texts, rfl, List.append_assoc _ _ _⟩
      rw [walkDown] at h
      split at h
      · cases h
      · cases h
      · split at h
        · exact hstep h
        · cases h
      · exact hstep h

/-- A file is reached through directories only. -/
theorem walkDown_of_get {node : Node} {texts : List String} {content : List UInt8}
    (h : get (texts.map OsName.text) node = some (.leaf (.file content))) (names : List OsName) :
    walkDown node (texts.map Component.normal) names = .ok (names ++ texts.map OsName.text) := by
  induction texts generalizing node names with
  | nil => exact congrArg Except.ok (List.append_nil _).symm
  | cons text rest ih =>
    have hfirst : get (OsName.text text :: rest.map OsName.text) node =
        (get [.text text] node).bind (get (rest.map OsName.text)) :=
      get_append [OsName.text text] (rest.map OsName.text) node
    rw [List.map_cons, hfirst] at h
    obtain ⟨next, hnext, h⟩ := Option.bind_eq_some_iff.mp h
    have hrest := ih h (names ++ [.text text])
    rw [List.append_assoc, List.singleton_append] at hrest
    rw [List.map_cons, walkDown, hnext, List.map_cons]
    cases next with
    | dir entries => exact hrest
    | leaf value =>
      cases rest with
      | nil =>
        cases h
        exact hrest
      | cons other rest => cases h

/-- The file that a path is parsed to is there as it is declared. -/
structure Sound (crates : Crates) (root : Node) (item : ManifestFile) : Prop where
  valid : validPath item.path = true
  bounded : item.size.toNat ≤ maxFileBytes
  present : ∃ names content, canonicalRelativeFile root item.path = .ok names ∧
    get names root = some (.leaf (.file content)) ∧ content.length = item.size.toNat ∧
      crates.sha256Hex content = item.sha256

/-- A digest in hex is one. -/
theorem isSha256_hex (crates : Crates) (content : List UInt8) :
    isSha256 (crates.sha256Hex content) = true := by
  have hdigit : ∀ n < 16, (Nat.digitChar n).isDigit = true ∨
      ('a' ≤ Nat.digitChar n ∧ Nat.digitChar n ≤ 'f') := by decide
  have hlen : len (crates.sha256Hex content) = 64 := by
    have hbytes := Build.byteLen_hex (crates.sha256 content).toList
    rw [Vector.length_toList] at hbytes
    exact (Text.utf8ByteSize_ofList _).trans hbytes
  unfold isSha256
  rw [hlen, Bool.and_eq_true, List.all_eq_true]
  refine ⟨decide_eq_true rfl, fun c hc => ?_⟩
  unfold Crates.sha256Hex hexDigest at hc
  rw [String.toList_ofList] at hc
  obtain ⟨byte, -, hc⟩ := List.mem_flatMap.mp hc
  have hbyte : byte.toNat < 256 := byte.toNat_lt
  have hone : ∀ n < 16, c = Nat.digitChar n →
      (c.isDigit || (decide ('a' ≤ c) && decide (c ≤ 'f'))) = true := by
    rintro n hn rfl
    rw [Bool.or_eq_true, Bool.and_eq_true, decide_eq_true_eq, decide_eq_true_eq]
    exact hdigit n hn
  unfold Build.hexByte at hc
  rcases List.mem_cons.mp hc with hhigh | hlow
  · exact hone (byte.toNat / 16) (by omega) hhigh
  · exact hone (byte.toNat % 16) (by omega) (List.mem_singleton.mp hlow)

theorem payload_then_iff {β : Type} {root : Node} {names : List OsName}
    {f : List UInt8 → Result β} {b : β} : (payload root names >>= f) = .ok b ↔
      ∃ content, get names root = some (.leaf (.file content)) ∧ f content = .ok b := by
  rw [Result.bind_eq_ok]
  unfold payload
  constructor
  · rintro ⟨content, h, hf⟩
    split at h
    · cases h
    · rename_i found hfound
      cases h
      exact ⟨_, hfound, hf⟩
    · cases h
  · rintro ⟨content, h, hf⟩
    rw [h]
    exact ⟨content, rfl, hf⟩

theorem canonicalRelativeFile_then_iff {β : Type} {root : Node} {relative : String}
    {f : List OsName → Result β} {b : β} : (canonicalRelativeFile root relative >>= f) = .ok b ↔
      ∃ names, canonicalRelativeFile root relative = .ok names ∧ f names = .ok b :=
  Result.bind_eq_ok

/-- **The declared files.**  Each is sound, none is declared twice, and together they are small
    enough. -/
theorem verifyFiles_iff {crates : Crates} {root : Node} {files : List ManifestFile} :
    ∀ {paths read : List String} {total whole : Nat}, total ≤ maxTotalBytes →
      (verifyFiles crates root files paths total = .ok (read, whole) ↔
        (∀ item ∈ files, Sound crates root item ∧ item.path ∉ paths) ∧
          (files.map ManifestFile.path).Nodup ∧ total + totalSize files ≤ maxTotalBytes ∧
          read = (files.map ManifestFile.path).reverse ++ paths ∧
          whole = total + totalSize files) := by
  induction files with
  | nil =>
    intro paths read total whole htotal
    simp [verifyFiles, totalSize, htotal, eq_comm]
  | cons item rest ih =>
    intro paths read total whole htotal
    simp only [verifyFiles, validateManifestRelativePath, Result.check_eq_ok, refuse_iff,
      canonicalRelativeFile_then_iff, payload_then_iff, Bool.not_eq_false, not_or, not_not,
      ge_iff_le, gt_iff_lt, Nat.not_lt, Nat.not_le, ne_eq]
    have hmax : maxTotalBytes < 2 ^ 64 := by decide
    have hsplit : ∀ {Q : ManifestFile → Prop}, (∀ other ∈ item :: rest, Q other) ↔
        Q item ∧ ∀ other ∈ rest, Q other := List.forall_mem_cons
    rw [hsplit, List.map_cons, List.nodup_cons, List.reverse_cons, List.append_assoc,
      List.singleton_append, totalSize_cons]
    constructor
    · rintro ⟨hvalid, ⟨hbounded, -, hnew⟩, names, hnames, content, hcontent, hsize, hsha, -, hfits,
        hrest⟩
      obtain ⟨hall, hnodup, hsum, rfl, rfl⟩ := (ih hfits).mp hrest
      refine ⟨⟨⟨⟨hvalid, hbounded, names, content, hnames, hcontent, hsize, hsha⟩, hnew⟩, ?_⟩,
        ⟨?_, hnodup⟩, by omega, rfl, by omega⟩
      · exact fun other hother =>
          ⟨(hall other hother).1, fun hmem => (hall other hother).2 (List.mem_cons_of_mem _ hmem)⟩
      · intro hmem
        obtain ⟨other, hother, heq⟩ := List.mem_map.mp hmem
        exact (hall other hother).2 (heq ▸ List.mem_cons_self)
    · rintro ⟨⟨⟨hsound, hnew⟩, hall⟩, ⟨hfresh, hnodup⟩, hsum, rfl, rfl⟩
      obtain ⟨names, content, hnames, hcontent, hsize, hsha⟩ := hsound.present
      have hfits : total + item.size.toNat ≤ maxTotalBytes := by omega
      have hdigest : isSha256 item.sha256 = true := hsha ▸ isSha256_hex crates content
      refine ⟨hsound.valid, ⟨hsound.bounded, hdigest, hnew⟩, names, hnames, content, hcontent,
        hsize, hsha, by omega, hfits, (ih hfits).mpr ⟨fun other hother => ?_, hnodup, by omega, rfl,
          by omega⟩⟩
      obtain ⟨hother', hold⟩ := hall other hother
      refine ⟨hother', fun hmem => ?_⟩
      rcases List.mem_cons.mp hmem with heq | hmem
      · exact hfresh (heq ▸ List.mem_map_of_mem hother)
      · exact hold hmem

/-! ## The walk -/

/-- The walk, over the leaves in their order. -/
def visitAll : List (List OsName × Leaf) → List String → Result (List String)
  | [], files => .ok files
  | (path, value) :: rest, files => do
    let files ← visitLeaf path value files
    visitAll rest files

theorem visitAll_append (as bs : List (List OsName × Leaf)) (files : List String) :
    visitAll (as ++ bs) files = visitAll as files >>= visitAll bs := by
  induction as generalizing files with
  | nil => rfl
  | cons a as ih =>
    obtain ⟨path, value⟩ := a
    rw [List.cons_append, visitAll, visitAll]
    cases visitLeaf path value files with
    | error e => rfl
    | ok files => exact ih files

/-- The leaves of a node, as they are found from the root. -/
def found (path : List OsName) (ls : List (List OsName × Leaf)) : List (List OsName × Leaf) :=
  ls.map (fun leaf => (path ++ leaf.1, leaf.2))

/-- **The walk** visits the leaves in the order in which they are listed. -/
theorem visitNode_eq (node : Node) : ∀ (path : List OsName) (files : List String),
    visitNode node path files = visitAll (found path (leaves node)) files := by
  induction node using Node.induction with
  | leaf value =>
    intro path files
    have hone : found path (leaves (.leaf value)) = [(path, value)] := by
      rw [leaves]
      show [(path ++ [], value)] = _
      rw [List.append_nil]
    rw [hone, visitNode, visitAll]
    cases visitLeaf path value files with
    | error e => rfl
    | ok files => rfl
  | dir entries ih =>
    intro path files
    rw [visitNode, leaves]
    induction entries generalizing files with
    | nil =>
      rw [collectRuntimeFiles, entryLeaves]
      rfl
    | cons e rest ihe =>
      obtain ⟨name, node⟩ := e
      obtain ⟨hnode, hrest⟩ := List.forall_mem_cons.mp ih
      have hshape : found path (entryLeaves ((name, node) :: rest)) =
          found (path ++ [name]) (leaves node) ++ found path (entryLeaves rest) := by
        unfold found
        rw [entryLeaves, List.map_append, List.map_map]
        simp only [Function.comp_def, List.append_assoc, List.singleton_append]
      rw [hshape, visitAll_append, collectRuntimeFiles, hnode]
      congr 1
      funext files
      exact ihe hrest files

theorem collectRuntimeFiles_eq (entries : Entries) (files : List String) :
    collectRuntimeFiles entries [] files = visitAll (leaves (.dir entries)) files := by
  have hroot : found [] (leaves (.dir entries)) = leaves (.dir entries) := by
    unfold found
    simp only [List.nil_append]
    exact List.map_id _
  have hwalk := visitNode_eq (.dir entries) [] files
  rw [visitNode, hroot] at hwalk
  exact hwalk

/-- A leaf that the walk takes: a regular file whose path is text. -/
def Taken (leaf : List OsName × Leaf) (path : String) : Prop :=
  (∃ content, leaf.2 = .file content) ∧ relativeText leaf.1 = some path

theorem visitLeaf_ok {path : List OsName} {value : Leaf} {files result : List String} :
    visitLeaf path value files = .ok result ↔
      ∃ relative, Taken (path, value) relative ∧ result = files.insert relative ∧
        (files.insert relative).length ≤ maxFiles + 2 := by
  cases value with
  | symlink => exact iff_of_false (fun h => by cases h) (fun ⟨_, ⟨⟨_, h⟩, _⟩, _⟩ => by cases h)
  | special => exact iff_of_false (fun h => by cases h) (fun ⟨_, ⟨⟨_, h⟩, _⟩, _⟩ => by cases h)
  | file content =>
    rw [visitLeaf, orFail_then_iff]
    refine exists_congr (fun relative => ?_)
    rw [Result.check_eq_ok, refuse_iff, Nat.not_lt]
    constructor
    · rintro ⟨htext, hfew, h⟩
      cases h
      exact ⟨⟨⟨content, rfl⟩, htext⟩, rfl, hfew⟩
    · rintro ⟨⟨-, htext⟩, rfl, hfew⟩
      exact ⟨htext, hfew, rfl⟩

/-- What a walk that ends has found. -/
theorem visitAll_ok {ls : List (List OsName × Leaf)} {files result : List String}
    (h : visitAll ls files = .ok result) :
    (∀ leaf ∈ ls, ∃ path, Taken leaf path) ∧
      ∀ path, path ∈ result ↔ path ∈ files ∨ ∃ leaf ∈ ls, Taken leaf path := by
  induction ls generalizing files with
  | nil =>
    rw [visitAll] at h
    cases h
    refine ⟨fun _ hnone => absurd hnone List.not_mem_nil, fun path => ⟨Or.inl, fun h => ?_⟩⟩
    exact h.resolve_right (fun hnone => List.not_mem_nil hnone.choose_spec.1)
  | cons leaf rest ih =>
    obtain ⟨path, value⟩ := leaf
    rw [visitAll, Result.bind_eq_ok] at h
    obtain ⟨later, hlater, h⟩ := h
    obtain ⟨relative, htaken, rfl, -⟩ := visitLeaf_ok.mp hlater
    obtain ⟨hrest, hresult⟩ := ih h
    refine ⟨List.forall_mem_cons.mpr ⟨⟨relative, htaken⟩, hrest⟩, fun other => ?_⟩
    have hthis : Taken (path, value) other ↔ other = relative := by
      constructor
      · rintro ⟨-, hother⟩
        exact Option.some.inj (hother.symm.trans htaken.2)
      · rintro rfl
        exact htaken
    rw [hresult, List.mem_insert_iff, List.exists_mem_cons_iff, hthis, or_assoc]
    exact or_left_comm

/-- The walk ends where there are few enough leaves, and only such that it takes. -/
theorem visitAll_total {ls : List (List OsName × Leaf)} (hall : ∀ leaf ∈ ls, ∃ path, Taken leaf path)
    {files : List String} (hfew : files.length + ls.length ≤ maxFiles + 2) :
    ∃ result, visitAll ls files = .ok result := by
  induction ls generalizing files with
  | nil => exact ⟨files, rfl⟩
  | cons leaf rest ih =>
    obtain ⟨path, value⟩ := leaf
    obtain ⟨⟨relative, htaken⟩, hrest⟩ := List.forall_mem_cons.mp hall
    have hgrow : (files.insert relative).length ≤ files.length + 1 := by
      by_cases hmem : relative ∈ files
      · rw [List.insert_of_mem hmem]
        exact Nat.le_succ _
      · rw [List.insert_of_not_mem hmem, List.length_cons]
    rw [List.length_cons] at hfew
    have hvisit := visitLeaf_ok.mpr ⟨relative, htaken, rfl, Nat.le_trans hgrow (by omega)⟩
    obtain ⟨result, hresult⟩ : ∃ result, visitAll rest (files.insert relative) = .ok result :=
      ih hrest (by omega)
    exact ⟨result, by rw [visitAll, hvisit]; exact hresult⟩

/-! ## Names -/

/-- A path of a leaf joins names of entries, and is read back as these. -/
theorem namesOf_relative {root : Node} (h : AllDirs ProperEntries root) {names : List OsName}
    {value : Leaf} (hleaf : (names, value) ∈ leaves root) (hne : names ≠ []) {path : String}
    (hpath : relativeText names = some path) :
    names = namesOf path ∧ ∀ part ∈ parts path, PlainName part := by
  obtain ⟨texts, rfl, rfl⟩ := relativeText_eq_some.mp hpath
  have hnamed : ∀ text ∈ texts, EntryName text := by
    intro text htext
    exact names_of_leaves (Q := fun name => ∀ text, name.toStr = some text → EntryName text)
      (h.mono (fun _ hentries => hentries.named)) hleaf (.text text) (List.mem_map_of_mem htext) text
      rfl
  have hback : parts ("/".intercalate texts) = texts := by
    refine parts_join (fun hnil => hne ?_) (fun name hname => (hnamed name hname).no_slash)
    rw [hnil]
    rfl
  unfold namesOf
  rw [hback]
  exact ⟨rfl, fun part hpart => (hnamed part hpart).toPlainName⟩

theorem namesOf_inj {a b : String} (h : namesOf a = namesOf b) : a = b := by
  have htexts : parts a = parts b :=
    List.map_injective_iff.mpr (fun _ _ heq => OsName.text.inj heq) h
  rw [← join_parts a, htexts, join_parts]

theorem relativeText_namesOf (path : String) : relativeText (namesOf path) = some path :=
  relativeText_eq_some.mpr ⟨parts path, rfl, (join_parts path).symm⟩

theorem namesOf_ne_nil (path : String) : namesOf path ≠ [] := by
  intro hnil
  have hsplit : Workspace.splitSlash path.toList = [] :=
    List.map_eq_nil_iff.mp (List.map_eq_nil_iff.mp hnil)
  rw [splitSlash_eq_splitOn] at hsplit
  exact List.splitOn_ne_nil _ _ hsplit

theorem namesOf_manifest : namesOf manifestName = [.text manifestName] := by decide

theorem namesOf_receipt : namesOf receiptName = [.text receiptName] := by decide

/-! ## The law -/

/-- What the check asks of a directory, its manifest and its receipt. -/
structure Exact (crates : Crates) (root : Node) (expectedManifestSha256 : String)
    (manifest : BundleManifest) : Prop where
  manifestFile : ∃ bytes, get [.text manifestName] root = some (.leaf (.file bytes)) ∧
    bytes.length ≤ maxManifestBytes ∧ crates.sha256Hex bytes = expectedManifestSha256 ∧
    crates.readManifest bytes = some manifest
  identity : manifest.identity = true
  runtime : manifest.runtime = profileRuntime
  receiptFile : ∃ bytes receipt, get [.text receiptName] root = some (.leaf (.file bytes)) ∧
    bytes.length ≤ maxReceiptBytes ∧ crates.readReceipt bytes = some receipt ∧
    receipt.accords expectedManifestSha256 manifest = true
  distinct : (manifest.files.map ManifestFile.path).Nodup
  plain : ∀ item ∈ manifest.files, PlainPath item.path
  /-- Every other regular file is declared. -/
  listed : ∀ names content, get names root = some (.leaf (.file content)) →
    names ≠ [.text manifestName] → names ≠ [.text receiptName] →
      ∃ item ∈ manifest.files, names = namesOf item.path
  /-- Every declared file is there. -/
  present : ∀ item ∈ manifest.files, ∃ content,
    get (namesOf item.path) root = some (.leaf (.file content)) ∧
      content.length = item.size.toNat ∧ crates.sha256Hex content = item.sha256
  bounded : ∀ item ∈ manifest.files, item.size.toNat ≤ maxFileBytes
  count : manifest.files.length = manifest.fileCount.toNat
  few : manifest.files.length ≤ maxFiles
  total : totalSize manifest.files = manifest.totalBytes.toNat
  small : totalSize manifest.files ≤ maxTotalBytes
  tree : crates.sha256Hex (manifest.files.flatMap ManifestFile.digestLine) = manifest.treeSha256
  entrypoint : "server-ws.mjs" ∈ manifest.files.map ManifestFile.path
  /-- No symbolic link and no special file is anywhere. -/
  regular : ∀ names value, get names root = some (.leaf value) → ∃ content, value = .file content

/-- What is reported of such a directory. -/
def report (path expectedManifestSha256 : String) (manifest : BundleManifest) :
    OmniRouteRuntimeVerification where
  root := path
  manifestSha256 := expectedManifestSha256
  treeSha256 := manifest.treeSha256
  fileCount := manifest.fileCount
  totalBytes := totalSize manifest.files

section

variable {crates : Crates} {place : Place} {entries : Entries} {sha : String}
variable {manifest : BundleManifest}

theorem readBoundedFile_then_iff {β : Type} {root : Node} {name : String} {maxBytes : Nat}
    {f : List UInt8 → Result β} {b : β} :
    (readBoundedFile root name maxBytes >>= f) = .ok b ↔
      ∃ bytes, (get [.text name] root = some (.leaf (.file bytes)) ∧ bytes.length ≤ maxBytes) ∧
        f bytes = .ok b := by
  rw [Result.bind_eq_ok]
  unfold readBoundedFile
  constructor
  · rintro ⟨bytes, h, hf⟩
    split at h
    · cases h
    · rename_i content hfound
      split at h
      · cases h
      · rename_i hsize
        cases h
        exact ⟨_, ⟨hfound, Nat.not_lt.mp hsize⟩, hf⟩
    · cases h
  · rintro ⟨bytes, ⟨hfound, hsize⟩, hf⟩
    rw [hfound]
    dsimp only
    rw [if_neg (Nat.not_lt.mpr hsize)]
    exact ⟨bytes, rfl, hf⟩

theorem verifyFiles_then_iff {β : Type} {root : Node} {files : List ManifestFile}
    {f : List String × Nat → Result β} {b : β} : (verifyFiles crates root files [] 0 >>= f) = .ok b ↔
      ((∀ item ∈ files, Sound crates root item) ∧ (files.map ManifestFile.path).Nodup ∧
        totalSize files ≤ maxTotalBytes) ∧
        f ((files.map ManifestFile.path).reverse, totalSize files) = .ok b := by
  have hloop : ∀ read whole, verifyFiles crates root files [] 0 = .ok (read, whole) ↔ _ :=
    fun read whole => verifyFiles_iff (Nat.zero_le _)
  simp only [Nat.zero_add, List.append_nil, List.not_mem_nil, not_false_eq_true, and_true] at hloop
  rw [Result.bind_eq_ok]
  constructor
  · rintro ⟨⟨read, whole⟩, h, hf⟩
    obtain ⟨hall, hnodup, hsum, rfl, rfl⟩ := (hloop read whole).mp h
    exact ⟨⟨hall, hnodup, hsum⟩, hf⟩
  · rintro ⟨⟨hall, hnodup, hsum⟩, hf⟩
    exact ⟨_, (hloop _ _).mpr ⟨hall, hnodup, hsum, rfl, rfl⟩, hf⟩

theorem openRoot_then_iff {β : Type} {f : String × Entries → Result β} {b : β} :
    (openRoot place >>= f) = .ok b ↔
      ∃ entries, (place.node = some (.dir entries) ∧ place.canonical = some place.path) ∧
        f (place.path, entries) = .ok b := by
  rw [Result.bind_eq_ok]
  unfold openRoot
  constructor
  · rintro ⟨opened, h, hf⟩
    split at h
    · cases h
    · cases h
    · rename_i entries hnode
      split at h
      · cases h
      · rename_i canonicalRoot hcanonical
        split at h
        · cases h
        · rename_i hsame
          cases h
          have heq : canonicalRoot = place.path := not_not.mp hsame
          subst heq
          exact ⟨entries, ⟨hnode, hcanonical⟩, hf⟩
  · rintro ⟨entries, ⟨hnode, hcanonical⟩, hf⟩
    rw [hnode, hcanonical]
    dsimp only
    rw [if_neg (not_not_intro rfl)]
    exact ⟨(place.path, entries), rfl, hf⟩

theorem collectRuntimeFiles_then_iff {β : Type} {f : List String → Result β} {b : β} :
    (collectRuntimeFiles entries [] [] >>= f) = .ok b ↔
      ∃ found, visitAll (leaves (.dir entries)) [] = .ok found ∧ f found = .ok b := by
  rw [collectRuntimeFiles_eq]
  exact Result.bind_eq_ok

/-- The steps of the check, as conditions. -/
theorem verifyRuntimeTree_steps {verified : OmniRouteRuntimeVerification} :
    verifyRuntimeTree crates place sha = .ok verified ↔
      ∃ entries manifest bytes receiptBytes receipt found,
        (place.node = some (.dir entries) ∧ place.canonical = some place.path) ∧
        (get [.text manifestName] (.dir entries) = some (.leaf (.file bytes)) ∧
          bytes.length ≤ maxManifestBytes) ∧
        (isSha256 sha = true ∧ crates.sha256Hex bytes = sha) ∧
        crates.readManifest bytes = some manifest ∧ manifest.identity = true ∧
        manifest.runtime = profileRuntime ∧
        (get [.text receiptName] (.dir entries) = some (.leaf (.file receiptBytes)) ∧
          receiptBytes.length ≤ maxReceiptBytes) ∧
        crates.readReceipt receiptBytes = some receipt ∧ receipt.accords sha manifest = true ∧
        ((∀ item ∈ manifest.files, Sound crates (.dir entries) item) ∧
          (manifest.files.map ManifestFile.path).Nodup ∧
          totalSize manifest.files ≤ maxTotalBytes) ∧
        (manifest.files.length = manifest.fileCount.toNat ∧ manifest.files.length ≤ maxFiles ∧
          totalSize manifest.files = manifest.totalBytes.toNat ∧
          crates.sha256Hex (manifest.files.flatMap ManifestFile.digestLine) = manifest.treeSha256) ∧
        "server-ws.mjs" ∈ manifest.files.map ManifestFile.path ∧
        visitAll (leaves (.dir entries)) [] = .ok found ∧
        (∀ path, (path ∈ found ∧ path ≠ manifestName ∧ path ≠ receiptName) ↔
          path ∈ manifest.files.map ManifestFile.path) ∧
        verified = report place.path sha manifest := by
  simp only [verifyRuntimeTree, openRoot_then_iff, orFail_then_iff, readBoundedFile_then_iff,
    Result.check_eq_ok, refuse_iff, verifyFiles_then_iff, collectRuntimeFiles_then_iff, not_or,
    not_not, ne_eq, Bool.not_eq_false, gt_iff_lt, Nat.not_lt, samePaths_iff, List.mem_reverse,
    List.mem_filter, Bool.and_eq_true, decide_eq_true_eq]
  constructor
  · rintro ⟨entries, hroot, bytes, hbytes, ⟨hdigest, rfl⟩, manifest, hmanifest, hidentity, hruntime,
      receiptBytes, hreceiptBytes, receipt, hreceipt, haccords, hfiles, hagrees, hentry, found, hfound,
      hpaths, hresult⟩
    cases hresult
    exact ⟨entries, manifest, bytes, receiptBytes, receipt, found, hroot, hbytes, ⟨hdigest, rfl⟩,
      hmanifest, hidentity, hruntime, hreceiptBytes, hreceipt, haccords, hfiles, hagrees, hentry,
      hfound, hpaths, rfl⟩
  · rintro ⟨entries, manifest, bytes, receiptBytes, receipt, found, hroot, hbytes, ⟨hdigest, rfl⟩,
      hmanifest, hidentity, hruntime, hreceiptBytes, hreceipt, haccords, hfiles, hagrees, hentry,
      hfound, hpaths, rfl⟩
    exact ⟨entries, hroot, bytes, hbytes, ⟨hdigest, rfl⟩, manifest, hmanifest, hidentity, hruntime,
      receiptBytes, hreceiptBytes, receipt, hreceipt, haccords, hfiles, hagrees, hentry, found, hfound,
      hpaths, rfl⟩

/-- A leaf that the walk has taken is a file of the directory, named by its path. -/
theorem taken_names (hproper : AllDirs ProperEntries (.dir entries)) {leaf : List OsName × Leaf}
    (hleaf : leaf ∈ leaves (.dir entries)) {path : String} (htaken : Taken leaf path) :
    (∃ content, get (namesOf path) (.dir entries) = some (.leaf (.file content))) ∧
      leaf.1 = namesOf path ∧ ∀ part ∈ parts path, PlainName part := by
  obtain ⟨names, value⟩ := leaf
  obtain ⟨⟨content, rfl⟩, hpath⟩ := htaken
  have hget := (mem_leaves_iff_get (hproper.mono fun _ h => h.distinct)).mp hleaf
  have hne : names ≠ [] := by
    rintro rfl
    cases hget
  obtain ⟨hnames, hplain⟩ := namesOf_relative hproper hleaf hne hpath
  exact ⟨⟨content, hnames ▸ hget⟩, hnames, hplain⟩

/-- **Accepted directories are exact.** -/
theorem exact_of_verified (hnode : place.node = some (.dir entries))
    {verified : OmniRouteRuntimeVerification} (h : verifyRuntimeTree crates place sha = .ok verified) :
    ∃ manifest, Exact crates (.dir entries) sha manifest ∧ place.canonical = some place.path ∧
      verified = report place.path sha manifest := by
  obtain ⟨entries', manifest, bytes, receiptBytes, receipt, found, ⟨hnode', hcanonical⟩,
    ⟨hbytes, hbound⟩, ⟨-, hsha⟩, hmanifest, hidentity, hruntime, ⟨hreceiptBytes, hreceiptBound⟩,
    hreceipt, haccords, ⟨hsound, hdistinct, hsmall⟩, ⟨hcount, hfew, htotal, htree⟩, hentry, hfound,
    hpaths, rfl⟩ := verifyRuntimeTree_steps.mp h
  cases hnode.symm.trans hnode'
  have hproper := place.proper _ hnode
  obtain ⟨hall, hmem⟩ := visitAll_ok hfound
  have hin : ∀ path, path ∈ found ↔ ∃ leaf ∈ leaves (.dir entries), Taken leaf path :=
    fun path => (hmem path).trans (or_iff_right List.not_mem_nil)
  have hlisted : ∀ {names : List OsName} {value : Leaf},
      get names (.dir entries) = some (.leaf value) → (names, value) ∈ leaves (.dir entries) :=
    fun hget => (mem_leaves_iff_get (hproper.mono fun _ h => h.distinct)).mpr hget
  -- a declared path is one that the walk has found
  have hdeclared : ∀ item ∈ manifest.files,
      (∃ content, get (namesOf item.path) (.dir entries) = some (.leaf (.file content))) ∧
        (∀ part ∈ parts item.path, PlainName part) := by
    intro item hitem
    obtain ⟨hpath, -⟩ := (hpaths item.path).mpr (List.mem_map_of_mem hitem)
    obtain ⟨leaf, hleaf, htaken⟩ := (hin _).mp hpath
    obtain ⟨hfile, -, hplain⟩ := taken_names hproper hleaf htaken
    exact ⟨hfile, hplain⟩
  refine ⟨manifest, {
    manifestFile := ⟨bytes, hbytes, hbound, hsha, hmanifest⟩
    identity := hidentity
    runtime := hruntime
    receiptFile := ⟨receiptBytes, receipt, hreceiptBytes, hreceiptBound, hreceipt, haccords⟩
    distinct := hdistinct
    plain := fun item hitem => ?_
    listed := fun names content hget hmanifestName hreceiptName => ?_
    present := fun item hitem => ?_
    bounded := fun item hitem => (hsound item hitem).bounded
    count := hcount
    few := hfew
    total := htotal
    small := hsmall
    tree := htree
    entrypoint := hentry
    regular := fun names value hget => ?_ }, hcanonical, rfl⟩
  · obtain ⟨hslash, hshort, hnotManifest, hnotReceipt⟩ := validPath_sees (hsound item hitem).valid
    exact ⟨(hdeclared item hitem).2, hslash, hshort, hnotManifest, hnotReceipt⟩
  · obtain ⟨path, htaken⟩ := hall _ (hlisted hget)
    obtain ⟨-, hnames, -⟩ := taken_names hproper (hlisted hget) htaken
    have hpath : path ∈ manifest.files.map ManifestFile.path := by
      refine (hpaths path).mp ⟨(hin path).mpr ⟨_, hlisted hget, htaken⟩, ?_, ?_⟩
      · rintro rfl
        exact hmanifestName (hnames.trans namesOf_manifest)
      · rintro rfl
        exact hreceiptName (hnames.trans namesOf_receipt)
    obtain ⟨item, hitem, rfl⟩ := List.mem_map.mp hpath
    exact ⟨item, hitem, hnames⟩
  · obtain ⟨names, content, hwalk, hget, hsize, hdigest⟩ := (hsound item hitem).present
    obtain ⟨texts, hcomponents, rfl⟩ := walkDown_ok hwalk
    rw [components_plain (hdeclared item hitem).2] at hcomponents
    have htexts : parts item.path = texts :=
      List.map_injective_iff.mpr (fun _ _ heq => Component.normal.inj heq) hcomponents
    rw [← htexts, List.nil_append] at hget
    exact ⟨content, hget, hsize, hdigest⟩
  · obtain ⟨path, hfile, -⟩ := hall _ (hlisted hget)
    exact hfile

/-- **Exact directories are accepted.** -/
theorem verified_of_exact (hnode : place.node = some (.dir entries))
    (hcanonical : place.canonical = some place.path) (h : Exact crates (.dir entries) sha manifest) :
    verifyRuntimeTree crates place sha = .ok (report place.path sha manifest) := by
  have hproper := place.proper _ hnode
  have hdistinct := hproper.mono (fun _ h => h.distinct)
  obtain ⟨bytes, hbytes, hbound, hsha, hmanifest⟩ := h.manifestFile
  obtain ⟨receiptBytes, receipt, hreceiptBytes, hreceiptBound, hreceipt, haccords⟩ := h.receiptFile
  have hsound : ∀ item ∈ manifest.files, Sound crates (.dir entries) item := by
    intro item hitem
    obtain ⟨content, hget, hsize, hdigest⟩ := h.present item hitem
    have hwalk := walkDown_of_get hget []
    rw [← components_plain (h.plain item hitem).parts, List.nil_append] at hwalk
    exact ⟨(h.plain item hitem).valid, h.bounded item hitem, _, content, hwalk, hget, hsize, hdigest⟩
  -- every leaf is the manifest, the receipt or declared
  have hleaves : ∀ leaf ∈ leaves (.dir entries), ∃ path, Taken leaf path ∧ leaf.1 = namesOf path ∧
      (path = manifestName ∨ path = receiptName ∨ path ∈ manifest.files.map ManifestFile.path) := by
    rintro ⟨names, value⟩ hleaf
    have hget := (mem_leaves_iff_get hdistinct).mp hleaf
    obtain ⟨content, rfl⟩ := h.regular names value hget
    have hname : ∀ path, names = namesOf path → Taken (names, .file content) path := by
      rintro path rfl
      exact ⟨⟨content, rfl⟩, relativeText_namesOf path⟩
    by_cases hisManifest : names = [.text manifestName]
    · have heq := hisManifest.trans namesOf_manifest.symm
      exact ⟨manifestName, hname _ heq, heq, .inl rfl⟩
    by_cases hisReceipt : names = [.text receiptName]
    · have heq := hisReceipt.trans namesOf_receipt.symm
      exact ⟨receiptName, hname _ heq, heq, .inr (.inl rfl)⟩
    obtain ⟨item, hitem, heq⟩ := h.listed names content hget hisManifest hisReceipt
    exact ⟨item.path, hname _ heq, heq, .inr (.inr (List.mem_map_of_mem hitem))⟩
  have hroom : (leaves (.dir entries)).length ≤ maxFiles + 2 := by
    have hsub : (leaves (.dir entries)).map Prod.fst ⊆
        (manifestName :: receiptName :: manifest.files.map ManifestFile.path).map namesOf := by
      intro names hnames
      obtain ⟨leaf, hleaf, rfl⟩ := List.mem_map.mp hnames
      obtain ⟨path, -, heq, hpath⟩ := hleaves leaf hleaf
      rw [heq]
      refine List.mem_map_of_mem ?_
      rw [List.mem_cons, List.mem_cons]
      exact hpath
    have hlen := (List.subperm_of_subset (leaves_nodup hdistinct) hsub).length_le
    rw [List.length_map, List.length_map, List.length_cons, List.length_cons, List.length_map] at hlen
    have hfew := h.few
    omega
  obtain ⟨found, hfound⟩ := visitAll_total
    (fun leaf hleaf => ⟨_, (hleaves leaf hleaf).choose_spec.1⟩)
    (show ([] : List String).length + _ ≤ _ by rw [List.length_nil, Nat.zero_add]; exact hroom)
  refine verifyRuntimeTree_steps.mpr ⟨entries, manifest, bytes, receiptBytes, receipt, found,
    ⟨hnode, hcanonical⟩, ⟨hbytes, hbound⟩, ⟨hsha ▸ isSha256_hex crates bytes, hsha⟩, hmanifest,
    h.identity, h.runtime, ⟨hreceiptBytes, hreceiptBound⟩, hreceipt, haccords,
    ⟨hsound, h.distinct, h.small⟩, ⟨h.count, h.few, h.total, h.tree⟩, h.entrypoint, hfound, ?_, rfl⟩
  intro path
  rw [(visitAll_ok hfound).2, or_iff_right List.not_mem_nil]
  constructor
  · rintro ⟨⟨leaf, hleaf, htaken⟩, hnotManifest, hnotReceipt⟩
    obtain ⟨other, hother, -, hpath⟩ := hleaves leaf hleaf
    cases Option.some.inj (hother.2.symm.trans htaken.2)
    rcases hpath with hpath | hpath | hpath
    · exact absurd hpath hnotManifest
    · exact absurd hpath hnotReceipt
    · exact hpath
  · intro hpath
    obtain ⟨item, hitem, rfl⟩ := List.mem_map.mp hpath
    obtain ⟨content, hget, -⟩ := h.present item hitem
    refine ⟨⟨_, (mem_leaves_iff_get hdistinct).mpr hget, ⟨content, rfl⟩, relativeText_namesOf _⟩, ?_⟩
    exact ⟨(h.plain item hitem).not_manifest, (h.plain item hitem).not_receipt⟩

/-! ## The figures -/

/-- The regular files of a directory, but for the manifest and the receipt. -/
def payloadFiles (entries : Entries) : List (List OsName × Leaf) :=
  (leaves (.dir entries)).filter
    (fun leaf => leaf.1 ≠ [.text manifestName] ∧ leaf.1 ≠ [.text receiptName])

/-- The length of a regular file. -/
def Leaf.size : Leaf → Nat
  | .file content => content.length
  | .symlink => 0
  | .special => 0

/-- The size of what is found at a path. -/
def sizeAt (root : Node) (names : List OsName) : Nat :=
  match get names root with
  | some (.leaf value) => value.size
  | some (.dir _) => 0
  | none => 0

/-- The files that are there are the ones that are declared, one for one. -/
theorem payloadFiles_perm (hproper : AllDirs ProperEntries (.dir entries))
    (h : Exact crates (.dir entries) sha manifest) :
    ((payloadFiles entries).map Prod.fst).Perm
      (manifest.files.map (fun item => namesOf item.path)) := by
  have hdistinct := hproper.mono (fun _ h => h.distinct)
  have hdeclared : (manifest.files.map (fun item => namesOf item.path)).Nodup := by
    have hpaths := h.distinct.map (f := namesOf) (fun _ _ heq => namesOf_inj heq)
    rw [List.map_map] at hpaths
    exact hpaths
  have hthere : ((payloadFiles entries).map Prod.fst).Nodup :=
    (leaves_nodup hdistinct).sublist (List.filter_sublist.map _)
  refine (List.perm_ext_iff_of_nodup hthere hdeclared).mpr (fun names => ?_)
  rw [List.mem_map, List.mem_map]
  constructor
  · rintro ⟨⟨names, value⟩, hleaf, rfl⟩
    obtain ⟨hleaf, hkept⟩ := List.mem_filter.mp hleaf
    obtain ⟨hmanifestName, hreceiptName⟩ := of_decide_eq_true hkept
    have hget := (mem_leaves_iff_get hdistinct).mp hleaf
    obtain ⟨content, rfl⟩ := h.regular names value hget
    obtain ⟨item, hitem, heq⟩ := h.listed names content hget hmanifestName hreceiptName
    exact ⟨item, hitem, heq.symm⟩
  · rintro ⟨item, hitem, rfl⟩
    obtain ⟨content, hget, -⟩ := h.present item hitem
    refine ⟨(namesOf item.path, .file content), List.mem_filter.mpr
      ⟨(mem_leaves_iff_get hdistinct).mpr hget, decide_eq_true ⟨?_, ?_⟩⟩, rfl⟩
    · rw [← namesOf_manifest]
      exact fun heq => (h.plain item hitem).not_manifest (namesOf_inj heq)
    · rw [← namesOf_receipt]
      exact fun heq => (h.plain item hitem).not_receipt (namesOf_inj heq)

/-- The figures of the manifest are those of the directory. -/
theorem payloadFiles_figures (hproper : AllDirs ProperEntries (.dir entries))
    (h : Exact crates (.dir entries) sha manifest) :
    (payloadFiles entries).length = manifest.files.length ∧
      ((payloadFiles entries).map (fun leaf => leaf.2.size)).sum = totalSize manifest.files := by
  have hdistinct := hproper.mono (fun _ h => h.distinct)
  have hperm := payloadFiles_perm hproper h
  refine ⟨?_, ?_⟩
  · have hlen := hperm.length_eq
    rw [List.length_map, List.length_map] at hlen
    exact hlen
  have hsizeAt : ∀ {names value}, get names (.dir entries) = some (.leaf value) →
      sizeAt (.dir entries) names = value.size := by
    intro names value hget
    unfold sizeAt
    rw [hget]
  have hthere : (payloadFiles entries).map (fun leaf => leaf.2.size) =
      ((payloadFiles entries).map Prod.fst).map (sizeAt (.dir entries)) := by
    rw [List.map_map]
    refine List.map_congr_left (fun leaf hleaf => ?_)
    exact (hsizeAt ((mem_leaves_iff_get hdistinct).mp (List.mem_filter.mp hleaf).1)).symm
  have hdeclared : manifest.files.map (fun item => item.size.toNat) =
      (manifest.files.map (fun item => namesOf item.path)).map (sizeAt (.dir entries)) := by
    rw [List.map_map]
    refine List.map_congr_left (fun item hitem => ?_)
    obtain ⟨content, hget, hsize, -⟩ := h.present item hitem
    exact hsize.symm.trans (hsizeAt hget).symm
  unfold totalSize
  rw [hthere, hdeclared]
  exact (hperm.map _).sum_eq

end

/-- **The law.**  A directory is accepted iff it is exact, and then the figures are its own. -/
theorem verifyRuntimeTree_exact (crates : Crates) (place : Place) (expectedManifestSha256 : String) :
    ((∃ verified, verifyRuntimeTree crates place expectedManifestSha256 = .ok verified) ↔
      ∃ entries manifest, place.node = some (.dir entries) ∧ place.canonical = some place.path ∧
        Exact crates (.dir entries) expectedManifestSha256 manifest) ∧
    ∀ verified, verifyRuntimeTree crates place expectedManifestSha256 = .ok verified →
      ∃ entries manifest, place.node = some (.dir entries) ∧
        Exact crates (.dir entries) expectedManifestSha256 manifest ∧
        verified.root = place.path ∧
        verified.manifestSha256 = expectedManifestSha256 ∧
        verified.treeSha256 =
          crates.sha256Hex (manifest.files.flatMap ManifestFile.digestLine) ∧
        verified.fileCount.toNat = (payloadFiles entries).length ∧
        verified.totalBytes = ((payloadFiles entries).map (fun leaf => leaf.2.size)).sum := by
  constructor
  · constructor
    · rintro ⟨verified, h⟩
      obtain ⟨entries, -, -, -, -, -, ⟨hnode, -⟩, -⟩ := verifyRuntimeTree_steps.mp h
      obtain ⟨manifest, hexact, hcanonical, -⟩ := exact_of_verified hnode h
      exact ⟨entries, manifest, hnode, hcanonical, hexact⟩
    · rintro ⟨entries, manifest, hnode, hcanonical, hexact⟩
      exact ⟨_, verified_of_exact hnode hcanonical hexact⟩
  · intro verified h
    obtain ⟨entries, -, -, -, -, -, ⟨hnode, -⟩, -⟩ := verifyRuntimeTree_steps.mp h
    obtain ⟨manifest, hexact, -, rfl⟩ := exact_of_verified hnode h
    obtain ⟨hcount, htotal⟩ := payloadFiles_figures (place.proper _ hnode) hexact
    exact ⟨entries, manifest, hnode, hexact, rfl, rfl, hexact.tree.symm,
      hexact.count.symm.trans hcount.symm, htotal.symm⟩

end VibeCoder.RuntimeDirectory
