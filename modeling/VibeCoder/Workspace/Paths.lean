/-
  Project-relative paths (`vibecoder-workspace-local`, `validate_relative_path`).

  `Path::components` of a Unix path splits at `/`, drops empty parts and dots (but for a dot in
  front), and marks `..` and a leading slash.  A path that is accepted is a list of ordinary names
  (`validateRelativePath_ordinary`), and ordinary names between slashes are accepted
  (`validateRelativePath_join`).

  Left out: paths that are not UTF-8, which the validator refuses.
-/
import VibeCoder.Checkpoint.Walk

namespace VibeCoder.Workspace

open Checkpoint

/-- `workspace_error`. -/
def workspaceError (code : String) : VibeCoderError := .workspace code

/-! ## Components -/

/-- The parts between slashes. -/
def splitSlash : List Char → List (List Char)
  | [] => [[]]
  | c :: cs =>
    if c = '/' then [] :: splitSlash cs
    else match splitSlash cs with
      | [] => [[c]]
      | part :: parts => (c :: part) :: parts

/-- `std::path::Component`. -/
inductive Component where
  | rootDir
  | curDir
  | parentDir
  | normal (value : String)
  deriving DecidableEq, Repr

/-- A part that is not the first one. -/
def component (part : String) : Option Component :=
  if part = "" ∨ part = "." then none
  else if part = ".." then some .parentDir
  else some (.normal part)

/-- `Path::is_absolute`. -/
def isAbsolute (text : String) : Bool := text.toList.head? == some '/'

/-- `Path::components`. -/
def components (text : String) : List Component :=
  let parts := (splitSlash text.toList).map String.ofList
  if isAbsolute text then .rootDir :: parts.filterMap component
  else if parts.head? = some "." then .curDir :: parts.tail.filterMap component
  else parts.filterMap component

/-- A slash separates the parts. -/
theorem splitSlash_mem {cs part : List Char} (hpart : part ∈ splitSlash cs) {c : Char}
    (hc : c ∈ part) : c ∈ cs ∧ c ≠ '/' := by
  induction cs generalizing part with
  | nil =>
    rw [splitSlash, List.mem_singleton] at hpart
    subst hpart
    exact absurd hc List.not_mem_nil
  | cons b cs ih =>
    rw [splitSlash] at hpart
    have hlater : ∀ {p : List Char}, p ∈ splitSlash cs → c ∈ p → c ∈ b :: cs ∧ c ≠ '/' :=
      fun hp hcp => ⟨List.mem_cons_of_mem _ (ih hp hcp).1, (ih hp hcp).2⟩
    split at hpart
    · rcases List.mem_cons.mp hpart with rfl | hpart
      · exact absurd hc List.not_mem_nil
      · exact hlater hpart hc
    rename_i hb
    have hfirst : c = b → c ∈ b :: cs ∧ c ≠ '/' := by
      rintro rfl
      exact ⟨List.mem_cons_self, hb⟩
    split at hpart
    · rw [List.mem_singleton.mp hpart, List.mem_singleton] at hc
      exact hfirst hc
    · rename_i front parts hsplit
      rw [hsplit] at hlater
      rcases List.mem_cons.mp hpart with rfl | hpart
      · rcases List.mem_cons.mp hc with hcb | hc
        · exact hfirst hcb
        · exact hlater List.mem_cons_self hc
      · exact hlater (List.mem_cons_of_mem _ hpart) hc

theorem mem_filterMap_component {parts : List String} {value : String}
    (h : Component.normal value ∈ parts.filterMap component) :
    value ∈ parts ∧ value ≠ "" ∧ value ≠ "." ∧ value ≠ ".." := by
  obtain ⟨part, hpart, hvalue⟩ := List.mem_filterMap.mp h
  unfold component at hvalue
  split at hvalue
  · cases hvalue
  rename_i hdot
  split at hvalue
  · cases hvalue
  rename_i hparent
  cases hvalue
  rw [not_or] at hdot
  exact ⟨hpart, hdot.1, hdot.2, hparent⟩

/-- A normal component is a part of the text that is neither empty nor a dot. -/
theorem mem_components {text value : String} (h : Component.normal value ∈ components text) :
    value ∈ (splitSlash text.toList).map String.ofList ∧ value ≠ "" ∧ value ≠ "." ∧
      value ≠ ".." := by
  unfold components at h
  simp only at h
  split at h
  · rcases List.mem_cons.mp h with hroot | h
    · cases hroot
    · exact mem_filterMap_component h
  split at h
  · rcases List.mem_cons.mp h with hdot | h
    · cases hdot
    · obtain ⟨hmem, hrest⟩ := mem_filterMap_component h
      exact ⟨List.mem_of_mem_tail hmem, hrest⟩
  · exact mem_filterMap_component h

/-! ## The validator -/

def maxRelativePathBytes : Nat := 4096
def maxComponentBytes : Nat := 255

/-- The loop of `validate_relative_path`. -/
def validateComponents : List Component → List String → Result (List String)
  | [], output => .ok output
  | .curDir :: rest, output => validateComponents rest output
  | .normal value :: rest, output =>
    if value.isEmpty ∨ len value > maxComponentBytes then
      .error (workspaceError "project_path_component_invalid")
    else if startsWith value workspaceTempPrefix then
      .error (workspaceError "project_path_reserved_internal_name")
    else validateComponents rest (output ++ [value])
  | .parentDir :: _, _ => .error (workspaceError "project_path_parent_forbidden")
  | .rootDir :: _, _ => .error (workspaceError "project_path_must_be_relative")

/-- `validate_relative_path`. -/
def validateRelativePath (relative : String) : Result (List String) :=
  if isAbsolute relative then .error (workspaceError "project_path_must_be_relative")
  else if len relative > maxRelativePathBytes then
    .error (workspaceError "project_path_too_long")
  else if hasControl relative || relative.toList.contains '\\' then
    .error (workspaceError "project_path_contains_forbidden_character")
  else validateComponents (components relative) []

example : validateRelativePath "./src//main.rs" = .ok ["src", "main.rs"] := by decide

/-- A name the workspace takes for a file or a directory. -/
structure OrdinaryName (name : String) : Prop where
  nonempty : name ≠ ""
  not_dot : name ≠ "."
  not_parent : name ≠ ".."
  short : len name ≤ maxComponentBytes
  chars : ∀ c, c ∈ name.toList → c ≠ '/' ∧ c ≠ '\\' ∧ isControl c = false
  not_temp : startsWith name workspaceTempPrefix = false

theorem validateComponents_mem {comps : List Component} {output names : List String}
    (h : validateComponents comps output = .ok names) {name : String} (hname : name ∈ names) :
    name ∈ output ∨ Component.normal name ∈ comps ∧ len name ≤ maxComponentBytes ∧
      startsWith name workspaceTempPrefix = false := by
  induction comps generalizing output with
  | nil =>
    cases h
    exact .inl hname
  | cons comp comps ih =>
    have hlater : ∀ {out : List String}, validateComponents comps out = .ok names →
        name ∈ out ∨ Component.normal name ∈ comp :: comps ∧ len name ≤ maxComponentBytes ∧
          startsWith name workspaceTempPrefix = false := by
      intro out hout
      rcases ih hout with hmem | ⟨hmem, hrest⟩
      · exact .inl hmem
      · exact .inr ⟨List.mem_cons_of_mem _ hmem, hrest⟩
    cases comp with
    | rootDir => cases h
    | parentDir => cases h
    | curDir => exact hlater h
    | normal value =>
      rw [validateComponents] at h
      split at h
      · cases h
      rename_i hshort
      split at h
      · cases h
      rename_i htemp
      rcases hlater h with hmem | hmem
      · rcases List.mem_append.mp hmem with hmem | hmem
        · exact .inl hmem
        · obtain rfl := List.mem_singleton.mp hmem
          rw [not_or, Nat.not_lt] at hshort
          exact .inr ⟨List.mem_cons_self, hshort.2, Bool.eq_false_iff.mpr htemp⟩
      · exact .inr hmem

/-- **What is accepted is ordinary.** -/
theorem validateRelativePath_ordinary {relative : String} {names : List String}
    (h : validateRelativePath relative = .ok names) {name : String} (hname : name ∈ names) :
    OrdinaryName name := by
  unfold validateRelativePath at h
  split at h
  · cases h
  split at h
  · cases h
  split at h
  · cases h
  rename_i hchars
  rw [Bool.or_eq_true, not_or] at hchars
  rcases validateComponents_mem h hname with hnil | ⟨hmem, hshort, htemp⟩
  · exact absurd hnil List.not_mem_nil
  obtain ⟨hpart, hempty, hdot, hparent⟩ := mem_components hmem
  obtain ⟨part, hsplit, rfl⟩ := List.mem_map.mp hpart
  refine ⟨hempty, hdot, hparent, hshort, fun c hc => ?_, htemp⟩
  rw [String.toList_ofList] at hc
  obtain ⟨hin, hslash⟩ := splitSlash_mem hsplit hc
  refine ⟨hslash, ?_, ?_⟩
  · rintro rfl
    exact hchars.2 (List.contains_iff_mem.mpr hin)
  · refine Bool.eq_false_iff.mpr (fun hcontrol => hchars.1 ?_)
    exact List.any_eq_true.mpr ⟨c, hin, hcontrol⟩

/-! ## Ordinary names between slashes -/

theorem splitSlash_eq_splitOn (cs : List Char) : splitSlash cs = cs.splitOn '/' := by
  induction cs with
  | nil => simp [splitSlash]
  | cons c cs ih =>
    rw [splitSlash, List.splitOn_cons_eq_if_modifyHead, ih]
    by_cases hc : c = '/'
    · simp [hc]
    · simp only [hc, if_false, beq_iff_eq]
      cases hsplit : cs.splitOn '/' with
      | nil => exact absurd hsplit (List.splitOn_ne_nil _ _)
      | cons part parts => rfl

/-- Names without a slash in them come back from the text that joins them. -/
theorem splitSlash_join {names : List String} (hne : names ≠ [])
    (h : ∀ name ∈ names, OrdinaryName name) :
    (splitSlash ("/".intercalate names).toList).map String.ofList = names := by
  have hslash : ∀ part ∈ names.map String.toList, '/' ∉ part := by
    intro part hpart hmem
    obtain ⟨name, hname, rfl⟩ := List.mem_map.mp hpart
    exact ((h name hname).chars '/' hmem).1 rfl
  have hparts : names.map String.toList ≠ [] := by
    intro hnil
    exact hne (List.map_eq_nil_iff.mp hnil)
  rw [String.toList_intercalate, splitSlash_eq_splitOn]
  show ((['/'].intercalate (names.map String.toList)).splitOn '/').map String.ofList = names
  rw [List.splitOn_intercalate '/' hslash hparts, List.map_map]
  simp

theorem component_normal {part : String} (hempty : part ≠ "") (hdot : part ≠ ".")
    (hparent : part ≠ "..") : component part = some (.normal part) := by
  rw [component, if_neg (by simp [hempty, hdot]), if_neg hparent]

theorem filterMap_component_ordinary {names : List String}
    (h : ∀ name ∈ names, OrdinaryName name) :
    names.filterMap component = names.map Component.normal := by
  induction names with
  | nil => rfl
  | cons name names ih =>
    have hname := h name List.mem_cons_self
    rw [List.filterMap_cons_some (component_normal hname.nonempty hname.not_dot hname.not_parent),
      ih (fun n hn => h n (List.mem_cons_of_mem _ hn)), List.map_cons]

/-- Ordinary names joined make a relative path. -/
theorem isAbsolute_join {names : List String} (hne : names ≠ [])
    (h : ∀ name ∈ names, OrdinaryName name) : isAbsolute ("/".intercalate names) = false := by
  cases names with
  | nil => exact absurd rfl hne
  | cons name names =>
    have hname := h name List.mem_cons_self
    cases hchars : name.toList with
    | nil => exact absurd (String.toList_eq_nil_iff.mp hchars) hname.nonempty
    | cons c cs =>
      have hc : c ≠ '/' := (hname.chars c (by rw [hchars]; exact List.mem_cons_self)).1
      have hhead : ("/".intercalate (name :: names)).toList.head? = some c := by
        rw [String.toList_intercalate, List.map_cons]
        cases names with
        | nil => simp [hchars]
        | cons next names => simp [List.intercalate, hchars]
      rw [isAbsolute, hhead]
      simp [hc]

/-- The components of ordinary names joined are these names. -/
theorem components_join {names : List String} (hne : names ≠ [])
    (h : ∀ name ∈ names, OrdinaryName name) :
    components ("/".intercalate names) = names.map Component.normal := by
  have hhead : names.head? ≠ some "." := by
    intro hdot
    exact (h "." (List.mem_of_mem_head? hdot)).not_dot rfl
  rw [components]
  simp only [splitSlash_join hne h, isAbsolute_join hne h, hhead, if_false, Bool.false_eq_true]
  exact filterMap_component_ordinary h

theorem validateComponents_ordinary {names : List String}
    (h : ∀ name ∈ names, OrdinaryName name) (output : List String) :
    validateComponents (names.map Component.normal) output = .ok (output ++ names) := by
  induction names generalizing output with
  | nil => simp [validateComponents]
  | cons name names ih =>
    have hname := h name List.mem_cons_self
    have hempty : name.isEmpty = false :=
      Bool.eq_false_iff.mpr (fun hp => hname.nonempty (String.isEmpty_iff.mp hp))
    have hfits : ¬(name.isEmpty = true ∨ len name > maxComponentBytes) := by
      rw [hempty, not_or, Nat.not_lt]
      exact ⟨Bool.false_ne_true, hname.short⟩
    rw [List.map_cons, validateComponents, if_neg hfits, if_neg (by rw [hname.not_temp]; simp),
      ih (fun n hn => h n (List.mem_cons_of_mem _ hn)), List.append_assoc]
    rfl

/-- No character that the validator forbids is in ordinary names joined. -/
theorem allowed_join {names : List String} (h : ∀ name ∈ names, OrdinaryName name) {c : Char}
    (hc : c ∈ ("/".intercalate names).toList) : c ≠ '\\' ∧ isControl c = false := by
  rw [String.toList_intercalate] at hc
  induction names with
  | nil => exact absurd hc List.not_mem_nil
  | cons name names ih =>
    have hname : c ∈ name.toList → c ≠ '\\' ∧ isControl c = false :=
      fun hmem => ((h name List.mem_cons_self).chars c hmem).2
    cases names with
    | nil =>
      rw [List.map_cons, List.map_nil, List.intercalate_singleton] at hc
      exact hname hc
    | cons next names =>
      rw [List.map_cons, List.intercalate_cons_of_ne_nil (by simp), List.mem_append] at hc
      rcases hc with hc | hc
      · rcases List.mem_append.mp hc with hc | hc
        · exact hname hc
        rw [show "/".toList = ['/'] from rfl, List.mem_singleton] at hc
        rw [hc]
        exact ⟨by decide, by decide⟩
      · exact ih (fun n hn => h n (List.mem_cons_of_mem _ hn)) hc

/-- **Ordinary names joined are accepted**, and read as these names. -/
theorem validateRelativePath_join {names : List String} (hne : names ≠ [])
    (h : ∀ name ∈ names, OrdinaryName name)
    (hshort : len ("/".intercalate names) ≤ maxRelativePathBytes) :
    validateRelativePath ("/".intercalate names) = .ok names := by
  have hchars : (hasControl ("/".intercalate names) ||
      ("/".intercalate names).toList.contains '\\') = false := by
    rw [Bool.or_eq_false_iff]
    refine ⟨?_, Bool.eq_false_iff.mpr (fun hmem => ?_)⟩
    · refine List.any_eq_false.mpr (fun c hc => ?_)
      rw [(allowed_join h hc).2]
      exact Bool.false_ne_true
    · exact (allowed_join h (List.contains_iff_mem.mp hmem)).1 rfl
  rw [validateRelativePath, isAbsolute_join hne h, if_neg Bool.false_ne_true,
    if_neg (Nat.not_lt.mpr hshort), hchars, if_neg Bool.false_ne_true, components_join hne h,
    validateComponents_ordinary h]
  rfl

end VibeCoder.Workspace
