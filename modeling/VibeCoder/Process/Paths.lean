/-
  The path of a working directory or an executable on its way to a process.  The command policy
  normalises what a user approves (`normalize_project_relative`), the process layer normalises it
  again before it resolves it (`normalize_relative_path`), and the workspace has a validator of its
  own (`validate_relative_path`).  The three are written apart, and this module shows that they
  agree on whatever the first one lets through:

    * **fixpoint** — a normal form is its own normal form;
    * **containment** — it is `.` or ordinary names between slashes, never absolute, never with a
      parent component;
    * **one reading** — the process layer and the workspace take it, and read the same names in it
      as stand in the path that was approved.

  A path is its UTF-8 text, as for the two other layers.
-/
import Mathlib.Algebra.Order.BigOperators.Group.List
import VibeCoder.Lib.Chars
import VibeCoder.Lib.Text
import VibeCoder.CommandPolicy
import VibeCoder.Process.Contract
import VibeCoder.Workspace.Paths

namespace VibeCoder.Process

open Workspace (Component OrdinaryName components isAbsolute component validateRelativePath
  validateComponents splitSlash_eq_splitOn splitSlash_join component_normal isAbsolute_join
  components_join validateComponents_ordinary)
open Checkpoint (startsWith workspaceTempPrefix)

/-! ## The process layer's normaliser -/

/-- `PathBuf::push` of a relative path. -/
def pushPath (path value : String) : String :=
  if path.isEmpty then value else path ++ "/" ++ value

/-- The loop of `normalize_relative_path`. -/
def normalizeComponents : List Component → String → Result String
  | [], normalized => .ok normalized
  | .curDir :: rest, normalized => normalizeComponents rest normalized
  | .normal value :: rest, normalized =>
    if value.isEmpty ∨ len value > maxPathComponentBytes ∨ startsWith value internalTempPrefix then
      .error (processError "process_path_component_invalid")
    else normalizeComponents rest (pushPath normalized value)
  | .parentDir :: _, _ => .error (processError "process_path_parent_forbidden")
  | .rootDir :: _, _ => .error (processError "process_path_absolute_forbidden")

/-- `normalize_relative_path`; the root of the project is the empty path here. -/
def normalizeRelativePath (path : String) (allowRoot : Bool) : Result String :=
  if isAbsolute path then .error (processError "process_path_absolute_forbidden")
  else if len path > maxRelativePathBytes ∨ path.toList.contains '\\' ∨
      hasForbiddenDisplayChar path then
    .error (processError "process_path_invalid")
  else
    match normalizeComponents (components path) "" with
    | .error e => .error e
    | .ok normalized =>
      if normalized.isEmpty ∧ ¬allowRoot then .error (processError "process_path_empty")
      else .ok normalized

example : normalizeRelativePath "./a//b/." true = .ok "a/b" := by decide
example : normalizeRelativePath "." true = .ok "" := by decide

/-! ## Slashes -/

theorem policy_splitSlash (cs : List Char) : VibeCoder.splitSlash cs = Workspace.splitSlash cs := by
  induction cs with
  | nil => rfl
  | cons c cs ih =>
    rw [VibeCoder.splitSlash, Workspace.splitSlash, ih]
    by_cases hc : c = '/'
    · simp [hc]
    · cases Workspace.splitSlash cs <;> simp [hc]

/-! ## What the policy lets through -/

/-- The parts that the policy's loop keeps. -/
def keepsPart (part : List Char) : Bool := !(part.isEmpty || String.ofList part == ".")

/-- A name that the policy's loop lets through. -/
structure Kept (name : String) : Prop where
  nonempty : name ≠ ""
  not_dot : name ≠ "."
  not_parent : name ≠ ".."
  short : len name ≤ maxPathComponentBytes
  not_temp : startsWith name internalTempPrefix = false

/-- The policy's loop drops empty parts and dots, and lets the rest through if it can. -/
theorem policy_normalizeComponents {parts : List (List Char)} {names : List String}
    (h : VibeCoder.normalizeComponents parts = .ok names) :
    names = (parts.filter keepsPart).map String.ofList ∧ ∀ name ∈ names, Kept name := by
  induction parts generalizing names with
  | nil =>
    cases h
    exact ⟨rfl, fun name hname => absurd hname List.not_mem_nil⟩
  | cons part parts ih =>
    rw [VibeCoder.normalizeComponents] at h
    simp only [bind, Except.bind, throw, throwThe, MonadExceptOf.throw, pure, Except.pure] at h
    split at h
    · rename_i hdrop
      have hkeeps : keepsPart part = false := by
        rw [keepsPart, hdrop]
        rfl
      rw [List.filter_cons_of_neg (by simp [hkeeps])]
      exact ih h
    rename_i hdrop
    have hkeeps : keepsPart part = true := by
      rw [keepsPart, Bool.eq_false_iff.mpr hdrop]
      rfl
    split at h
    · cases h
    rename_i hparent
    split at h
    · cases h
    rename_i hfits
    split at h
    · cases h
    rename_i later hlater
    cases h
    obtain ⟨hnames, hkept⟩ := ih hlater
    rw [List.filter_cons_of_pos hkeeps, List.map_cons, ← hnames]
    refine ⟨rfl, fun name hname => ?_⟩
    rcases List.mem_cons.mp hname with rfl | hname
    · simp only [Bool.or_eq_true, decide_eq_true_eq, beq_iff_eq, not_or, Nat.not_lt,
        List.isEmpty_iff] at hdrop hparent hfits
      refine ⟨?_, hdrop.2, hparent, hfits.1, ?_⟩
      · intro hempty
        exact hdrop.1 (String.ofList_eq_empty_iff.mp hempty)
      · rw [startsWith, String.toList_ofList]
        exact Bool.eq_false_iff.mpr hfits.2
    · exact hkept name hname

/-- The other way round: parts that are all let through come back as they are. -/
theorem policy_normalizeComponents_kept {names : List String} (h : ∀ name ∈ names, Kept name) :
    VibeCoder.normalizeComponents (names.map String.toList) = .ok names := by
  induction names with
  | nil => rfl
  | cons name names ih =>
    have hname := h name List.mem_cons_self
    have hempty : name.toList ≠ [] := by
      intro hnil
      exact hname.nonempty (String.toList_eq_nil_iff.mp hnil)
    have htemp : internalTempPrefix.toList.isPrefixOf name.toList = false := hname.not_temp
    rw [List.map_cons, VibeCoder.normalizeComponents, ih (fun n hn => h n (List.mem_cons_of_mem _ hn))]
    have hshort : ¬ len name > maxPathComponentBytes := Nat.not_lt.mpr hname.short
    simp [hempty, hname.not_dot, hname.not_parent, hshort, htemp, bind, Except.bind, pure,
      Except.pure]

/-! ## The normal form -/

/-- A path in normal form, with the names that stand in it. -/
structure NormalForm (normal : String) (names : List String) : Prop where
  kept : ∀ name ∈ names, Kept name
  ordinary : ∀ name ∈ names, OrdinaryName name
  text : normal = if names = [] then "." else "/".intercalate names
  short : len normal ≤ maxRelativePathBytes
  no_backslash : normal.toList.contains '\\' = false
  shown : hasForbiddenDisplayChar normal = false

theorem hasControl_of_shown {text : String} (h : hasForbiddenDisplayChar text = false) :
    hasControl text = false := by
  refine Bool.eq_false_iff.mpr (fun hcontrol => ?_)
  obtain ⟨c, hc, hctrl⟩ := List.any_eq_true.mp hcontrol
  have hhidden := List.any_eq_false.mp h c hc
  simp [hctrl] at hhidden

/-- Fewer characters in the same order: no longer in bytes, and nothing new in it. -/
theorem len_le_of_sublist {a b : String} (h : a.toList.Sublist b.toList) : len a ≤ len b := by
  rw [len, len, Text.utf8ByteSize_eq_sum, Text.utf8ByteSize_eq_sum]
  exact (h.map Char.utf8Size).sum_le_sum (fun _ _ => Nat.zero_le _)

/-- The names joined are what is left of the path. -/
theorem join_sublist {path : String} {names : List String}
    (h : names = ((VibeCoder.splitSlash path.toList).filter keepsPart).map String.ofList) :
    ("/".intercalate names).toList.Sublist path.toList := by
  have hparts : names.map String.toList = (path.toList.splitOn '/').filter keepsPart := by
    rw [h, List.map_map, policy_splitSlash, splitSlash_eq_splitOn]
    simp
  rw [String.toList_intercalate, hparts]
  have hall := Chars.intercalate_sublist '/' (List.filter_sublist (p := keepsPart)
    (l := path.toList.splitOn '/'))
  rw [List.intercalate_splitOn] at hall
  exact hall

/-- What the policy accepts is in normal form. -/
theorem normalForm_of_accepted {path normal : String} {allowRoot : Bool}
    (h : normalizeProjectRelative path allowRoot = .ok normal) :
    ∃ names, NormalForm normal names ∧ (names = [] → allowRoot = true) ∧
      names = ((VibeCoder.splitSlash path.toList).filter keepsPart).map String.ofList := by
  rw [normalizeProjectRelative] at h
  split at h
  · cases h
  split at h
  · cases h
  rename_i hchecks
  simp only [Bool.or_eq_true, decide_eq_true_eq, not_or, Nat.not_lt] at hchecks
  obtain ⟨⟨hlen, hback⟩, hshown⟩ := hchecks
  split at h
  · cases h
  · -- nothing is left of the path
    rename_i hnone
    split at h
    · rename_i hroot
      cases h
      obtain ⟨hnames, -⟩ := policy_normalizeComponents hnone
      refine ⟨[], ⟨?_, ?_, rfl, by decide, by decide, by decide⟩, fun _ => hroot, hnames⟩
      · intro name hname
        exact absurd hname List.not_mem_nil
      · intro name hname
        exact absurd hname List.not_mem_nil
    · cases h
  rename_i names hne hloop
  cases h
  obtain ⟨hnames, hkept⟩ := policy_normalizeComponents hloop
  have hsub := join_sublist hnames
  have hnil : names ≠ [] := by
    rintro rfl
    exact hne rfl
  refine ⟨names, ⟨hkept, ?_, ?_, ?_, ?_, ?_⟩, fun hempty => absurd hempty hnil, hnames⟩
  · -- a name is a part of the path, so its characters passed the checks on the whole
    intro name hname
    have hname' := hkept name hname
    refine ⟨hname'.nonempty, hname'.not_dot, hname'.not_parent, hname'.short, ?_, hname'.not_temp⟩
    intro c hc
    rw [hnames] at hname
    obtain ⟨part, hpart, rfl⟩ := List.mem_map.mp hname
    rw [policy_splitSlash] at hpart
    rw [String.toList_ofList] at hc
    obtain ⟨hin, hslash⟩ := Workspace.splitSlash_mem (List.mem_of_mem_filter hpart) hc
    refine ⟨hslash, ?_, ?_⟩
    · rintro rfl
      exact hback (List.contains_iff_mem.mpr hin)
    · have hcontrol := hasControl_of_shown (Bool.eq_false_iff.mpr hshown)
      exact Bool.eq_false_iff.mpr (List.any_eq_false.mp hcontrol c hin)
  · rw [if_neg hnil]
  · exact Nat.le_trans (len_le_of_sublist hsub) hlen
  · refine Bool.eq_false_iff.mpr (fun hmem => ?_)
    exact hback (List.contains_iff_mem.mpr (hsub.subset (List.contains_iff_mem.mp hmem)))
  · refine Bool.eq_false_iff.mpr (fun hhidden => ?_)
    obtain ⟨c, hc, hbad⟩ := List.any_eq_true.mp hhidden
    exact hshown (List.any_eq_true.mpr ⟨c, hsub.subset hc, hbad⟩)

namespace NormalForm

variable {normal : String} {names : List String} (form : NormalForm normal names)
include form

theorem not_absolute : isAbsolute normal = false := by
  rw [form.text]
  split
  · decide
  · rename_i hne
    exact isAbsolute_join hne form.ordinary

/-- The components of a normal form: a dot alone, or its names. -/
theorem components_eq :
    components normal = if names = [] then [.curDir] else names.map Component.normal := by
  rw [form.text]
  by_cases hne : names = []
  · rw [if_pos hne, if_pos hne]
    decide
  · rw [if_neg hne, if_neg hne]
    exact components_join hne form.ordinary

theorem head_ne_slash : normal.toList.head? ≠ some '/' := by
  have habs := form.not_absolute
  intro hhead
  rw [isAbsolute, hhead] at habs
  simp at habs

/-- **A normal form is its own normal form.** -/
theorem policy_fixed {allowRoot : Bool} (hroot : names = [] → allowRoot = true) :
    normalizeProjectRelative normal allowRoot = .ok normal := by
  have hchecks : (decide (len normal > maxRelativePathBytes) || normal.toList.contains '\\' ||
      hasForbiddenDisplayChar normal) = false := by
    rw [form.no_backslash, form.shown, decide_eq_false (Nat.not_lt.mpr form.short)]
    rfl
  rw [normalizeProjectRelative, if_neg form.head_ne_slash, if_neg (by rw [hchecks]; simp)]
  by_cases hne : names = []
  · have hdot : normal = "." := by rw [form.text, if_pos hne]
    rw [hdot, hroot hne]
    decide
  · have hparts : VibeCoder.splitSlash normal.toList = names.map String.toList := by
      have hjoin := congrArg (List.map String.toList) (splitSlash_join hne form.ordinary)
      rw [List.map_map] at hjoin
      rw [form.text, if_neg hne, policy_splitSlash]
      simpa using hjoin
    rw [hparts, policy_normalizeComponents_kept form.kept]
    rw [form.text, if_neg hne]
    cases names with
    | nil => exact absurd rfl hne
    | cons name names => rfl

end NormalForm

/-! ## The two other layers -/

theorem process_kept {name : String} (h : Kept name) :
    ¬(name.isEmpty ∨ len name > maxPathComponentBytes ∨ startsWith name internalTempPrefix) := by
  rintro (hempty | hlong | htemp)
  · exact h.nonempty (String.isEmpty_iff.mp hempty)
  · exact absurd h.short (Nat.not_le.mpr hlong)
  · rw [h.not_temp] at htemp
    cases htemp

theorem pushPath_nonempty {path value : String} (h : value ≠ "") : pushPath path value ≠ "" := by
  rw [pushPath]
  split
  · exact h
  · intro hempty
    have hlen := congrArg (fun text => text.toList.length) hempty
    simp at hlen

/-- Pushing names one after the other joins them. -/
theorem foldl_pushPath {names : List String} (h : ∀ name ∈ names, name ≠ "") {path : String}
    (hpath : path ≠ "") :
    names.foldl pushPath path = "/".intercalate (path :: names) := by
  induction names generalizing path with
  | nil => simp
  | cons name names ih =>
    have hlater : ∀ n ∈ names, n ≠ "" := fun n hn => h n (List.mem_cons_of_mem _ hn)
    have hempty : path.isEmpty = false :=
      Bool.eq_false_iff.mpr (fun hp => hpath (String.isEmpty_iff.mp hp))
    rw [List.foldl_cons, ih hlater (pushPath_nonempty (h name List.mem_cons_self)), pushPath, hempty]
    cases names with
    | nil => simp [String.append_assoc]
    | cons next names => simp [String.append_assoc]

theorem process_normalizeComponents {names : List String} (h : ∀ name ∈ names, Kept name)
    (path : String) :
    normalizeComponents (names.map Component.normal) path = .ok (names.foldl pushPath path) := by
  induction names generalizing path with
  | nil => rfl
  | cons name names ih =>
    rw [List.map_cons, normalizeComponents, if_neg (process_kept (h name List.mem_cons_self)),
      ih (fun n hn => h n (List.mem_cons_of_mem _ hn)), List.foldl_cons]

namespace NormalForm

variable {normal : String} {names : List String} (form : NormalForm normal names)
include form

/-- The process layer takes a normal form and keeps its names. -/
theorem process_accepts {allowRoot : Bool} (hroot : names = [] → allowRoot = true) :
    ∃ resolved, normalizeRelativePath normal allowRoot = .ok resolved ∧
      components resolved = names.map Component.normal := by
  have hchecks : ¬(len normal > maxRelativePathBytes ∨ normal.toList.contains '\\' ∨
      hasForbiddenDisplayChar normal) := by
    rw [form.no_backslash, form.shown]
    simp [form.short]
  rw [normalizeRelativePath, form.not_absolute, if_neg Bool.false_ne_true, if_neg hchecks,
    form.components_eq]
  cases names with
  | nil =>
    refine ⟨"", ?_, by decide⟩
    rw [hroot rfl]
    rfl
  | cons name names =>
    have hne : name :: names ≠ [] := List.cons_ne_nil _ _
    have hnonempty : ∀ n ∈ name :: names, n ≠ "" := fun n hn => (form.kept n hn).nonempty
    have hjoined : (name :: names).foldl pushPath "" = "/".intercalate (name :: names) := by
      rw [List.foldl_cons]
      exact foldl_pushPath (fun n hn => hnonempty n (List.mem_cons_of_mem _ hn))
        (hnonempty name List.mem_cons_self)
    refine ⟨"/".intercalate (name :: names), ?_, components_join hne form.ordinary⟩
    rw [if_neg hne, process_normalizeComponents form.kept, hjoined]
    have hsome : ("/".intercalate (name :: names)).isEmpty = false := by
      refine Bool.eq_false_iff.mpr (fun hempty => ?_)
      have hcomps := components_join hne form.ordinary
      rw [String.isEmpty_iff.mp hempty] at hcomps
      cases hcomps
    simp [hsome]

/-- The workspace takes a normal form and keeps its names. -/
theorem workspace_accepts : validateRelativePath normal = .ok names := by
  have hchars : (hasControl normal || normal.toList.contains '\\') = false := by
    rw [form.no_backslash, hasControl_of_shown form.shown]
    rfl
  have hshort : ¬ len normal > Workspace.maxRelativePathBytes := Nat.not_lt.mpr form.short
  rw [validateRelativePath, form.not_absolute, if_neg Bool.false_ne_true, if_neg hshort, hchars,
    if_neg Bool.false_ne_true, form.components_eq]
  by_cases hne : names = []
  · rw [if_pos hne, hne]
    rfl
  · rw [if_neg hne, validateComponents_ordinary form.ordinary]
    rfl

end NormalForm

/-! ## The three agree -/

/-- What the policy keeps of the parts is what `Path::components` makes of them. -/
theorem filterMap_component_kept {parts : List (List Char)}
    (h : ∀ name ∈ (parts.filter keepsPart).map String.ofList, Kept name) :
    (parts.map String.ofList).filterMap component =
      ((parts.filter keepsPart).map String.ofList).map Component.normal := by
  induction parts with
  | nil => rfl
  | cons part parts ih =>
    rw [List.map_cons]
    by_cases hkeeps : keepsPart part = true
    · rw [List.filter_cons_of_pos hkeeps] at h ⊢
      have hpart := h (String.ofList part) List.mem_cons_self
      rw [List.filterMap_cons_some (component_normal hpart.nonempty hpart.not_dot hpart.not_parent),
        ih (fun n hn => h n (List.mem_cons_of_mem _ hn)), List.map_cons, List.map_cons]
    · rw [List.filter_cons_of_neg hkeeps] at h ⊢
      have hnone : component (String.ofList part) = none := by
        simp only [keepsPart, Bool.not_eq_true', Bool.not_eq_false, Bool.or_eq_true,
          List.isEmpty_iff, beq_iff_eq] at hkeeps
        rw [component, if_pos]
        rcases hkeeps with hempty | hdot
        · exact .inl (String.ofList_eq_empty_iff.mpr hempty)
        · exact .inr hdot
      rw [List.filterMap_cons_none hnone, ih h]

/-- The names of the normal form are the components of the path, dots left out. -/
theorem components_of_accepted {path : String} {names : List String}
    (habs : isAbsolute path = false) (hkept : ∀ name ∈ names, Kept name)
    (h : names = ((VibeCoder.splitSlash path.toList).filter keepsPart).map String.ofList) :
    (components path).filter (· ≠ .curDir) = names.map Component.normal := by
  rw [policy_splitSlash] at h
  have hall : ((Workspace.splitSlash path.toList).map String.ofList).filterMap component =
      names.map Component.normal := by
    rw [h] at hkept ⊢
    exact filterMap_component_kept hkept
  have hnodot : (names.map Component.normal).filter (· ≠ .curDir) = names.map Component.normal := by
    refine List.filter_eq_self.mpr (fun comp hcomp => ?_)
    obtain ⟨name, -, rfl⟩ := List.mem_map.mp hcomp
    simp
  rw [components, habs]
  simp only [Bool.false_eq_true, if_false]
  split
  · -- a dot in front is the one component more
    rename_i hdot
    have hskip : ((Workspace.splitSlash path.toList).map String.ofList).tail.filterMap component =
        names.map Component.normal := by
      rw [← hall]
      generalize (Workspace.splitSlash path.toList).map String.ofList = parts at hdot
      cases parts with
      | nil => rfl
      | cons part parts =>
        cases hdot
        rw [List.tail_cons, List.filterMap_cons_none (by decide)]
    rw [hskip, List.filter_cons_of_neg (by simp), hnodot]
  · rw [hall, hnodot]

/-- **An approved path is read by all three in one way.**  Its normal form is a fixpoint and names
    something beneath the root of the project: it is `.` or ordinary names between slashes.  The
    process layer and the workspace accept it, and read the names that stand in the path itself. -/
theorem approvedPath_agrees {path normal : String} {allowRoot : Bool}
    (h : normalizeProjectRelative path allowRoot = .ok normal) :
    normalizeProjectRelative normal allowRoot = .ok normal ∧
      ∃ names : List String,
        (∀ name ∈ names, OrdinaryName name) ∧
        normal = (if names = [] then "." else "/".intercalate names) ∧
        isAbsolute normal = false ∧
        components normal = (if names = [] then [.curDir] else names.map .normal) ∧
        (components path).filter (· ≠ .curDir) = names.map .normal ∧
        (∃ resolved, normalizeRelativePath normal allowRoot = .ok resolved ∧
          components resolved = names.map .normal) ∧
        validateRelativePath normal = .ok names := by
  obtain ⟨names, form, hroot, hnames⟩ := normalForm_of_accepted h
  have habs : isAbsolute path = false := by
    rw [normalizeProjectRelative] at h
    split at h
    · cases h
    · rename_i hhead
      rw [isAbsolute]
      simpa using hhead
  refine ⟨form.policy_fixed hroot, names, form.ordinary, form.text, form.not_absolute,
    form.components_eq, ?_, form.process_accepts hroot, form.workspace_accepts⟩
  exact components_of_accepted habs form.kept hnames

theorem approvedPath_agrees_main :
    normalizeProjectRelative "./src//main.rs" false = .ok "src/main.rs" ∧
      normalizeProjectRelative "src/main.rs" false = .ok "src/main.rs" :=
  have haccepted : normalizeProjectRelative "./src//main.rs" false = .ok "src/main.rs" := by decide
  ⟨haccepted, (approvedPath_agrees haccepted).1⟩

end VibeCoder.Process
