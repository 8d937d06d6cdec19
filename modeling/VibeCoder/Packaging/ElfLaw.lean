/-
  Which files `inspect_elf` accepts, and what it says of them.

  1. **Outcomes** — what a sequence of calls needs to end well, and why it does not panic.

  2. **Fields** — a number at a place of the file (`field`).  The reads of the header and of a
     program header inside the file give these (`readProgramHeader_eq`).

  3. **The loop** (`scan_iff`) — one round for each kind of segment (`checkProgramHeader_iff`), then
     induction on the headers, from any state of the variables.

  4. **The file** (`inspectElf_law`) — `Accepted file inspection` is the specification: what stands
     where, with every offset inside the file.
-/
import VibeCoder.Packaging.ElfInspection

namespace VibeCoder.NativeProbe

open Chars Encoding

/-! ## Outcomes -/

section Outcomes

variable {α β : Type}

@[simp] theorem done_bind (a : α) (f : α → Outcome β) : (Outcome.done a >>= f) = f a := rfl

@[simp] theorem refused_bind (f : α → Outcome β) : (Outcome.refused >>= f) = .refused := rfl

@[simp] theorem pure_eq_done (a : α) : (pure a : Outcome α) = .done a := rfl

theorem bind_eq_done {x : Outcome α} {f : α → Outcome β} {b : β} :
    (x >>= f) = .done b ↔ ∃ a, x = .done a ∧ f a = .done b := by
  cases x with
  | panicked =>
    constructor
    · intro h
      cases h
    · rintro ⟨a, h, -⟩
      cases h
  | refused =>
    constructor
    · intro h
      cases h
    · rintro ⟨a, h, -⟩
      cases h
  | done a =>
    rw [done_bind]
    constructor
    · exact fun h => ⟨a, rfl, h⟩
    · rintro ⟨a', h, hf⟩
      cases h
      exact hf

theorem bind_ne_panicked {x : Outcome α} {f : α → Outcome β} (hx : x ≠ .panicked)
    (hf : ∀ a, x = .done a → f a ≠ .panicked) : (x >>= f) ≠ .panicked := by
  cases x with
  | panicked => exact absurd rfl hx
  | refused => exact nofun
  | done a => exact hf a rfl

theorem refuseIf_iff {p : Prop} [Decidable p] {u : Unit} : refuseIf p = .done u ↔ ¬ p := by
  unfold refuseIf
  split
  · rename_i hp
    exact ⟨nofun, fun h => absurd hp h⟩
  · rename_i hp
    exact ⟨fun _ => hp, fun _ => rfl⟩

theorem refuseIf_ne_panicked (p : Prop) [Decidable p] : refuseIf p ≠ .panicked := by
  unfold refuseIf
  split
  · exact nofun
  · exact nofun

theorem orRefuse_iff {value : Option α} {a : α} : orRefuse value = .done a ↔ value = some a := by
  cases value with
  | none => exact ⟨nofun, nofun⟩
  | some b =>
    rw [orRefuse, Outcome.done.injEq, Option.some.injEq]

theorem orRefuse_ne_panicked (value : Option α) : orRefuse value ≠ .panicked := by
  cases value with
  | none => exact nofun
  | some a => exact nofun

theorem readExact_eq {file : FileBytes} {offset count : Nat}
    (h : offset + count ≤ file.bytes.length) :
    file.readExact offset count = .done ((file.bytes.drop offset).take count) := by
  have hfits := file.fits
  rw [FileBytes.readExact, if_pos ⟨by omega, h⟩]

end Outcomes

/-! ## Fields -/

/-- The number of `width` bytes at a place. -/
def field (bytes : List UInt8) (place width : Nat) : Nat :=
  leValue ((bytes.drop place).take width)

theorem byteRange_eq {bytes : List UInt8} {start stop : Nat} (hle : start ≤ stop)
    (h : stop ≤ bytes.length) :
    byteRange bytes start stop = .done ((bytes.drop start).take (stop - start)) := if_pos ⟨hle, h⟩

theorem readU16_eq {bytes : List UInt8} (h : bytes.length = 2) :
    readU16 bytes = .done (leValue bytes) := by
  obtain ⟨a, b, rfl⟩ := List.length_eq_two.mp h
  rfl

theorem readU32_eq {bytes : List UInt8} (h : bytes.length = 4) :
    readU32 bytes = .done (leValue bytes) := by
  match bytes, h with
  | [_, _, _, _], _ => rfl

theorem readU64_eq {bytes : List UInt8} (h : bytes.length = 8) :
    readU64 bytes = .done (leValue bytes) := by
  match bytes, h with
  | [_, _, _, _, _, _, _, _], _ => rfl

/-- A window of a window. -/
theorem window_window (bytes : List UInt8) {place count start width : Nat}
    (h : start + width ≤ count) :
    ((((bytes.drop place).take count).drop start).take width) =
      (bytes.drop (place + start)).take width := by
  rw [List.drop_take, List.take_take, List.drop_drop, Nat.min_eq_left (by omega)]

theorem length_window {bytes : List UInt8} {place count : Nat} (h : place + count ≤ bytes.length) :
    ((bytes.drop place).take count).length = count := by
  rw [List.length_take, List.length_drop]
  omega

section Window

variable {bytes : List UInt8} {place count : Nat}

/-- A field of a window that lies in the file. -/
theorem window_u16 (hin : place + count ≤ bytes.length) {start : Nat} (h : start + 2 ≤ count) :
    (byteRange ((bytes.drop place).take count) start (start + 2) >>= readU16) =
      .done (field bytes (place + start) 2) := by
  rw [byteRange_eq (by omega) (by rw [length_window hin]; exact h), done_bind,
    Nat.add_sub_cancel_left, window_window bytes h, readU16_eq (length_window (by omega))]
  rfl

theorem window_u32 (hin : place + count ≤ bytes.length) {start : Nat} (h : start + 4 ≤ count) :
    (byteRange ((bytes.drop place).take count) start (start + 4) >>= readU32) =
      .done (field bytes (place + start) 4) := by
  rw [byteRange_eq (by omega) (by rw [length_window hin]; exact h), done_bind,
    Nat.add_sub_cancel_left, window_window bytes h, readU32_eq (length_window (by omega))]
  rfl

theorem window_u64 (hin : place + count ≤ bytes.length) {start : Nat} (h : start + 8 ≤ count) :
    (byteRange ((bytes.drop place).take count) start (start + 8) >>= readU64) =
      .done (field bytes (place + start) 8) := by
  rw [byteRange_eq (by omega) (by rw [length_window hin]; exact h), done_bind,
    Nat.add_sub_cancel_left, window_window bytes h, readU64_eq (length_window (by omega))]
  rfl

end Window

/-- The program header at a place. -/
def programHeader (bytes : List UInt8) (place : Nat) : ProgramHeader where
  headerType := field bytes place 4
  fileOffset := field bytes (place + 8) 8
  virtualAddress := field bytes (place + 16) 8
  fileSize := field bytes (place + 32) 8
  memorySize := field bytes (place + 40) 8
  align := field bytes (place + 48) 8

theorem bind_assoc_outcome {α β γ : Type} (x : Outcome α) (f : α → Outcome β) (g : β → Outcome γ) :
    (x >>= f >>= g) = (x >>= fun a => f a >>= g) := by
  cases x with
  | panicked => rfl
  | refused => rfl
  | done a => rfl

/-- **A program header inside the file** is read as it stands there. -/
theorem readProgramHeader_eq {file : FileBytes} {phoff phentsize index : Nat}
    (h : phoff + index * phentsize + 56 ≤ file.bytes.length) :
    readProgramHeader file phoff phentsize index =
      .done (programHeader file.bytes (phoff + index * phentsize)) := by
  have hfits := file.fits
  have hmul : checkedMul index phentsize = some (index * phentsize) := if_pos (by omega)
  have hadd : checkedAdd phoff (index * phentsize) = some (phoff + index * phentsize) :=
    if_pos (by omega)
  have hread := readExact_eq h
  unfold readProgramHeader
  rw [hmul, orRefuse, done_bind, hadd, orRefuse, done_bind, elf64ProgramHeaderBytes, hread,
    done_bind]
  simp only [← bind_assoc_outcome]
  rw [window_u32 h (by decide), done_bind, window_u64 h (by decide), done_bind,
    window_u64 h (by decide), done_bind, window_u64 h (by decide), done_bind,
    window_u64 h (by decide), done_bind, window_u64 h (by decide), done_bind]
  rfl

/-! ## The loop -/

/-- The segment lies inside the file. -/
def Inside (fileLen : Nat) (header : ProgramHeader) : Prop :=
  header.fileOffset + header.fileSize ≤ fileLen

/-- What a `PT_LOAD` segment has to be. -/
def LoadOk (fileLen : Nat) (header : ProgramHeader) : Prop :=
  header.fileSize ≤ header.memorySize ∧ Inside fileLen header

/-- What a `PT_INTERP` segment has to be. -/
def InterpreterOk (fileLen : Nat) (header : ProgramHeader) : Prop :=
  2 ≤ header.fileSize ∧ header.fileSize ≤ 256 ∧ Inside fileLen header

/-- Pages of 16 KiB suit the segment. -/
def Aligned (header : ProgramHeader) : Prop :=
  16384 ≤ header.align ∧ (∃ k, header.align = 2 ^ k) ∧
    header.fileOffset % 16384 = header.virtualAddress % 16384

theorem isPowerOfTwo_iff {n : Nat} : isPowerOfTwo n = true ↔ ∃ k, n = 2 ^ k := by
  rw [isPowerOfTwo, Bool.and_eq_true, bne_iff_ne, beq_iff_eq]
  exact Nat.ne_zero_and_sub_one_eq_zero_iff_isPowerOfTwo

theorem outside_iff {fileLen : Nat} (hfits : fileLen < 2 ^ 63) {header : ProgramHeader} :
    outside header fileLen = true ↔ ¬ Inside fileLen header := by
  unfold outside checkedAdd Inside
  by_cases hadd : header.fileOffset + header.fileSize < 2 ^ 64
  · rw [if_pos hadd]
    show decide (fileLen < _) = true ↔ _
    rw [decide_eq_true_eq]
    omega
  · rw [if_neg hadd]
    exact iff_of_true rfl (by omega)

/-- The alignment test of the loop. -/
theorem not_aligned_iff {header : ProgramHeader} :
    (header.align < requiredPageBytes ∨ (!isPowerOfTwo header.align) = true ∨
      header.fileOffset % requiredPageBytes ≠ header.virtualAddress % requiredPageBytes) ↔
      ¬ Aligned header := by
  rw [Bool.not_eq_true', ← Bool.not_eq_true, isPowerOfTwo_iff, Aligned, requiredPageBytes]
  constructor
  · rintro (h | h | h) ⟨halign, hpower, hcongruent⟩
    · omega
    · exact h hpower
    · exact h hcongruent
  · intro h
    by_cases halign : header.align < 16 * 1024
    · exact .inl halign
    · by_cases hpower : ∃ k, header.align = 2 ^ k
      · exact .inr (.inr fun hcongruent => h ⟨by omega, hpower, hcongruent⟩)
      · exact .inr (.inl hpower)

def isLoad (header : ProgramHeader) : Bool := header.headerType == ptLoad

def isInterpreter (header : ProgramHeader) : Bool := header.headerType == ptInterp

/-- The `PT_INTERP` ranges of a list of headers. -/
def interpreterRanges (headers : List ProgramHeader) : List (Nat × Nat) :=
  (headers.filter isInterpreter).map (fun header => (header.fileOffset, header.fileSize))

open Classical in
/-- **One round**, for each kind of segment. -/
theorem checkProgramHeader_iff {fileLen : Nat} (hfits : fileLen < 2 ^ 63) {scan next : Scan}
    {header : ProgramHeader} :
    checkProgramHeader fileLen scan header = .done next ↔
      (isLoad header = true → LoadOk fileLen header) ∧
      (isInterpreter header = true →
        InterpreterOk fileLen header ∧ scan.interpreterRange = none) ∧
      next = {
        sawLoad := scan.sawLoad || isLoad header
        page16k := scan.page16k && decide (isLoad header = true → Aligned header)
        interpreterRange := if isInterpreter header then some (header.fileOffset, header.fileSize)
          else scan.interpreterRange } := by
  unfold checkProgramHeader
  by_cases hinterp : header.headerType = ptInterp
  · have hkind : isInterpreter header = true := beq_iff_eq.mpr hinterp
    have hload : isLoad header = false := by
      rw [isLoad, hinterp]
      rfl
    rw [if_pos hinterp, bind_eq_done]
    simp only [refuseIf_iff, hkind, hload, Bool.false_eq_true, false_imp_iff, true_and,
      true_imp_iff, Bool.or_false, decide_true, Bool.and_true, if_true, pure_eq_done,
      Outcome.done.injEq]
    have hcheck : (¬ (scan.interpreterRange.isSome = true ∨ header.fileSize < 2 ∨
        header.fileSize > maxInterpreterBytes ∨ outside header fileLen = true)) ↔
        InterpreterOk fileLen header ∧ scan.interpreterRange = none := by
      rw [outside_iff hfits, InterpreterOk, maxInterpreterBytes]
      cases scan.interpreterRange with
      | none =>
        have htwo : 2 ≤ header.fileSize ↔ 1 < header.fileSize := Iff.rfl
        simp [htwo]
      | some range => simp
    rw [hcheck]
    constructor
    · rintro ⟨-, hok, rfl⟩
      exact ⟨hok, rfl⟩
    · rintro ⟨hok, rfl⟩
      exact ⟨(), hok, rfl⟩
  · have hkind : isInterpreter header = false := beq_eq_false_iff_ne.mpr hinterp
    rw [if_neg hinterp]
    by_cases hload : header.headerType = ptLoad
    · have hkind' : isLoad header = true := beq_iff_eq.mpr hload
      rw [if_neg (not_not.mpr hload), bind_eq_done]
      simp only [refuseIf_iff, hkind, hkind', Bool.false_eq_true, false_imp_iff, true_and,
        true_imp_iff, Bool.or_true, if_false]
      have hcheck : (¬ (header.fileSize > header.memorySize ∨ outside header fileLen = true)) ↔
          LoadOk fileLen header := by
        rw [outside_iff hfits, LoadOk]
        by_cases hin : Inside fileLen header
        · simp [hin]
        · simp [hin]
      rw [hcheck]
      by_cases haligned : Aligned header
      · rw [if_neg (fun h => not_aligned_iff.mp h haligned), decide_eq_true haligned, Bool.and_true,
          pure_eq_done, Outcome.done.injEq]
        constructor
        · rintro ⟨-, hok, rfl⟩
          exact ⟨hok, rfl⟩
        · rintro ⟨hok, rfl⟩
          exact ⟨(), hok, rfl⟩
      · rw [if_pos (not_aligned_iff.mpr haligned), decide_eq_false haligned, Bool.and_false,
          pure_eq_done, Outcome.done.injEq]
        constructor
        · rintro ⟨-, hok, rfl⟩
          exact ⟨hok, rfl⟩
        · rintro ⟨hok, rfl⟩
          exact ⟨(), hok, rfl⟩
    · have hkind' : isLoad header = false := beq_eq_false_iff_ne.mpr hload
      rw [if_pos hload, pure_eq_done, Outcome.done.injEq]
      simp only [hkind, hkind', Bool.false_eq_true, false_imp_iff, true_and, Bool.or_false,
        decide_true, Bool.and_true, if_false]
      exact eq_comm

theorem checkProgramHeader_ne_panicked (fileLen : Nat) (scan : Scan) (header : ProgramHeader) :
    checkProgramHeader fileLen scan header ≠ .panicked := by
  unfold checkProgramHeader
  split
  · exact bind_ne_panicked (refuseIf_ne_panicked _) (fun _ _ => nofun)
  · split
    · exact nofun
    · refine bind_ne_panicked (refuseIf_ne_panicked _) (fun _ _ => ?_)
      split
      · exact nofun
      · exact nofun

open Classical in
/-- What the loop leaves in its variables. -/
noncomputable def summary (scan : Scan) (headers : List ProgramHeader) : Scan where
  sawLoad := scan.sawLoad || headers.any isLoad
  page16k := scan.page16k && decide (∀ header ∈ headers, isLoad header = true → Aligned header)
  interpreterRange := (scan.interpreterRange.toList ++ interpreterRanges headers).head?

open Classical in
/-- **The loop**, by induction on the headers. -/
theorem scan_iff {fileLen : Nat} (hfits : fileLen < 2 ^ 63) {scan last : Scan}
    {headers : List ProgramHeader} :
    headers.foldlM (checkProgramHeader fileLen) scan = .done last ↔
      (∀ header ∈ headers, isLoad header = true → LoadOk fileLen header) ∧
      (∀ header ∈ headers, isInterpreter header = true → InterpreterOk fileLen header) ∧
      ((scan.interpreterRange.toList ++ interpreterRanges headers).length ≤ 1 ∨
        interpreterRanges headers = []) ∧
      last = summary scan headers := by
  induction headers generalizing scan with
  | nil =>
    have hsummary : summary scan [] = scan := by
      unfold summary
      cases scan with
      | mk sawLoad page16k range =>
        cases range <;> simp [interpreterRanges]
    rw [hsummary, List.foldlM_nil, pure_eq_done, Outcome.done.injEq, eq_comm]
    simp [interpreterRanges]
  | cons header headers ih =>
    rw [List.foldlM_cons, bind_eq_done]
    simp only [checkProgramHeader_iff hfits, ih, List.forall_mem_cons]
    have hrest : ∀ next : Scan, next = {
        sawLoad := scan.sawLoad || isLoad header
        page16k := scan.page16k && decide (isLoad header = true → Aligned header)
        interpreterRange := if isInterpreter header then some (header.fileOffset, header.fileSize)
          else scan.interpreterRange } →
        (isInterpreter header = true → scan.interpreterRange = none) →
        summary next headers = summary scan (header :: headers) := by
      rintro next rfl hnone
      unfold summary
      refine (Scan.mk.injEq ..).mpr ⟨?_, ?_, ?_⟩
      · rw [List.any_cons, Bool.or_assoc]
      · simp only [List.forall_mem_cons, Bool.decide_and, Bool.and_assoc]
      · by_cases hkind : isInterpreter header = true
        · rw [hnone hkind, if_pos hkind, interpreterRanges, interpreterRanges,
            List.filter_cons_of_pos hkind]
          rfl
        · rw [if_neg hkind, interpreterRanges, interpreterRanges, List.filter_cons_of_neg hkind]
    by_cases hkind : isInterpreter header = true
    · have hranges : interpreterRanges (header :: headers) =
          (header.fileOffset, header.fileSize) :: interpreterRanges headers := by
        rw [interpreterRanges, List.filter_cons_of_pos hkind]
        rfl
      constructor
      · rintro ⟨next, ⟨hload, hinterp, hnext⟩, hloads, hinterps, hcount, hlast⟩
        obtain ⟨hok, hnone⟩ := hinterp hkind
        refine ⟨⟨hload, hloads⟩, ⟨fun _ => hok, hinterps⟩, .inl ?_,
          hlast.trans (hrest next hnext fun _ => hnone)⟩
        rw [hnext, if_pos hkind] at hcount
        rw [hranges, hnone]
        rcases hcount with hcount | hempty
        · exact hcount
        · rw [hempty]
          rfl
      · rintro ⟨⟨hload, hloads⟩, ⟨hok, hinterps⟩, hcount, hlast⟩
        rw [hranges] at hcount
        have hone : (scan.interpreterRange.toList ++
            (header.fileOffset, header.fileSize) :: interpreterRanges headers).length ≤ 1 :=
          hcount.resolve_right (List.cons_ne_nil _ _)
        rw [List.length_append, List.length_cons] at hone
        have hnone : scan.interpreterRange = none := by
          cases hrange : scan.interpreterRange with
          | none => rfl
          | some range =>
            rw [hrange] at hone
            have : (some range).toList.length = 1 := rfl
            omega
        have hempty : interpreterRanges headers = [] := List.length_eq_zero_iff.mp (by omega)
        exact ⟨_, ⟨hload, fun _ => ⟨hok hkind, hnone⟩, rfl⟩, hloads, hinterps, .inr hempty,
          hlast.trans (hrest _ rfl fun _ => hnone).symm⟩
    · have hranges : interpreterRanges (header :: headers) = interpreterRanges headers := by
        rw [interpreterRanges, List.filter_cons_of_neg hkind]
        rfl
      rw [hranges]
      constructor
      · rintro ⟨next, ⟨hload, -, hnext⟩, hloads, hinterps, hcount, hlast⟩
        refine ⟨⟨hload, hloads⟩, ⟨fun h => absurd h hkind, hinterps⟩, ?_,
          hlast.trans (hrest next hnext fun h => absurd h hkind)⟩
        rw [hnext, if_neg hkind] at hcount
        exact hcount
      · rintro ⟨⟨hload, hloads⟩, ⟨-, hinterps⟩, hcount, hlast⟩
        refine ⟨_, ⟨hload, fun h => absurd h hkind, rfl⟩, hloads, hinterps, ?_,
          hlast.trans (hrest _ rfl fun h => absurd h hkind).symm⟩
        rw [if_neg hkind]
        exact hcount

theorem scan_ne_panicked (fileLen : Nat) (scan : Scan) (headers : List ProgramHeader) :
    headers.foldlM (checkProgramHeader fileLen) scan ≠ .panicked := by
  induction headers generalizing scan with
  | nil => exact nofun
  | cons header headers ih =>
    rw [List.foldlM_cons]
    exact bind_ne_panicked (checkProgramHeader_ne_panicked fileLen scan header)
      (fun next _ => ih next)

/-! ## The file -/

/-- The program headers of a file, in the order of the table. -/
def programHeaders (bytes : List UInt8) : List ProgramHeader :=
  (List.range (field bytes 56 2)).map
    (fun index => programHeader bytes (field bytes 32 8 + index * field bytes 54 2))

/-- The table lies inside the file, behind the header. -/
structure TableOk (bytes : List UInt8) : Prop where
  entrySize : 56 ≤ field bytes 54 2
  count : 1 ≤ field bytes 56 2 ∧ field bytes 56 2 ≤ 256
  behind : 64 ≤ field bytes 32 8
  inside : field bytes 32 8 + field bytes 54 2 * field bytes 56 2 ≤ bytes.length

theorem foldlM_congr_outcome {α β : Type} {f g : β → α → Outcome β} {xs : List α} (b : β)
    (h : ∀ b, ∀ a ∈ xs, f b a = g b a) : xs.foldlM f b = xs.foldlM g b := by
  induction xs generalizing b with
  | nil => rfl
  | cons a xs ih =>
    rw [List.foldlM_cons, List.foldlM_cons, h b a List.mem_cons_self]
    congr 1
    funext b'
    exact ih b' (fun b a ha => h b a (List.mem_cons_of_mem _ ha))

/-- **The loop over the table** is the loop over the headers that stand in it. -/
theorem scanProgramHeaders_eq {file : FileBytes} (h : TableOk file.bytes) :
    scanProgramHeaders file (field file.bytes 32 8) (field file.bytes 54 2) (field file.bytes 56 2) =
      (programHeaders file.bytes).foldlM (checkProgramHeader file.bytes.length)
        ⟨false, true, none⟩ := by
  rw [scanProgramHeaders, programHeaders, List.foldlM_map]
  apply foldlM_congr_outcome
  intro scan index hindex
  have hlt := List.mem_range.mp hindex
  have hsize := h.entrySize
  have hinside := h.inside
  have hplace : (index + 1) * field file.bytes 54 2 ≤
      field file.bytes 54 2 * field file.bytes 56 2 := by
    rw [Nat.mul_comm (field file.bytes 54 2)]
    exact Nat.mul_le_mul_right _ hlt
  rw [Nat.succ_mul] at hplace
  rw [readProgramHeader_eq (by omega), done_bind]

/-- `inspect_elf` after the header has been read. -/
def inspectFields (file : FileBytes) (elfClass data : UInt8) : Outcome ElfInspection := do
  refuseIf (file.bytes.take 4 ≠ [0x7f, 69, 76, 70] ∨ elfClass ≠ elfClass64 ∨ data ≠ elfData2Lsb)
  refuseIf (field file.bytes 16 2 ≠ etDyn)
  refuseIf (field file.bytes 54 2 < elf64ProgramHeaderBytes ∨ field file.bytes 56 2 = 0 ∨
    field file.bytes 56 2 > maxProgramHeaders)
  let tableBytes ← orRefuse (checkedMul (field file.bytes 54 2) (field file.bytes 56 2))
  let tableEnd ← orRefuse (checkedAdd (field file.bytes 32 8) tableBytes)
  refuseIf (field file.bytes 32 8 < elfHeaderBytes ∨ tableEnd > file.bytes.length)
  let scan ← scanProgramHeaders file (field file.bytes 32 8) (field file.bytes 54 2)
    (field file.bytes 56 2)
  refuseIf (scan.sawLoad = false)
  let interpreter ← readInterpreter file scan.interpreterRange
  return ⟨field file.bytes 18 2 = emAarch64, scan.page16k, interpreter⟩

/-- **The header** is read as it stands in the file. -/
theorem inspectElf_eq {file : FileBytes} (h : 64 ≤ file.bytes.length) {elfClass data : UInt8}
    (hclass : file.bytes[4]? = some elfClass) (hdata : file.bytes[5]? = some data) :
    inspectElf file = inspectFields file elfClass data := by
  have hin : 0 + 64 ≤ file.bytes.length := by omega
  have hread := readExact_eq hin
  have hrange : ∀ start width, start + width ≤ 64 →
      byteRange ((file.bytes.drop 0).take 64) start (start + width) =
        .done ((file.bytes.drop start).take width) := by
    intro start width hle
    rw [byteRange_eq (by omega) (by rw [length_window hin]; exact hle), Nat.add_sub_cancel_left,
      window_window _ hle, Nat.zero_add]
  have hu16 : ∀ start, start + 2 ≤ 64 →
      readU16 ((file.bytes.drop start).take 2) = .done (field file.bytes start 2) :=
    fun start hle => readU16_eq (length_window (by omega))
  have hu64 : ∀ start, start + 8 ≤ 64 →
      readU64 ((file.bytes.drop start).take 8) = .done (field file.bytes start 8) :=
    fun start hle => readU64_eq (length_window (by omega))
  have hbyte : ∀ {i : Nat} {b : UInt8}, file.bytes[i]? = some b → i < 64 →
      byteAt ((file.bytes.drop 0).take 64) i = .done b := by
    intro i b hb hi
    rw [byteAt, List.getElem?_take_of_lt hi, List.drop_zero, hb]
  unfold inspectElf inspectFields
  rw [elfHeaderBytes, hread, done_bind, hrange 0 4 (by decide), done_bind, hbyte hclass (by decide),
    done_bind, hbyte hdata (by decide), done_bind]
  have htype := hrange 16 2 (by decide)
  have hmachine := hrange 18 2 (by decide)
  have hphoff := hrange 32 8 (by decide)
  have hphentsize := hrange 54 2 (by decide)
  have hphnum := hrange 56 2 (by decide)
  simp only [Nat.reduceAdd] at htype hmachine hphoff hphentsize hphnum
  simp only [htype, hmachine, hphoff, hphentsize, hphnum, done_bind, hu16 16 (by decide),
    hu16 18 (by decide), hu64 32 (by decide), hu16 54 (by decide), hu16 56 (by decide)]
  rfl

/-- Bytes that end in a NUL, and are a text before it. -/
theorem terminated_iff {bytes : List UInt8} {text : List Char} :
    bytes.getLast? = some 0 ∧ decode bytes.dropLast = some text ↔ bytes = encode text ++ [0] := by
  rw [decode_iff]
  constructor
  · rintro ⟨hlast, htext⟩
    rw [htext]
    exact (List.dropLast_append_getLast? 0 hlast).symm
  · rintro rfl
    rw [List.getLast?_concat, List.dropLast_concat]
    exact ⟨rfl, rfl⟩

/-- **The interpreter** is the text in its segment, up to the NUL at the end. -/
theorem readInterpreter_iff {file : FileBytes} {header : ProgramHeader}
    (hok : InterpreterOk file.bytes.length header) {interpreter : Option (List Char)} :
    readInterpreter file (some (header.fileOffset, header.fileSize)) = .done interpreter ↔
      ∃ text, text ≠ [] ∧ interpreter = some text ∧
        (file.bytes.drop header.fileOffset).take header.fileSize = encode text ++ [0] := by
  obtain ⟨-, hsmall, hinside⟩ := hok
  have husize : usizeTryFrom header.fileSize = some header.fileSize := if_pos (by omega)
  show (orRefuse (usizeTryFrom header.fileSize) >>= _) = _ ↔ _
  rw [husize, orRefuse, done_bind, readExact_eq hinside, done_bind]
  simp only [bind_eq_done, refuseIf_iff, orRefuse_iff, not_not, pure_eq_done, Outcome.done.injEq,
    List.isEmpty_iff]
  constructor
  · rintro ⟨-, hlast, text, htext, -, hne, rfl⟩
    exact ⟨text, hne, rfl, terminated_iff.mp ⟨hlast, htext⟩⟩
  · rintro ⟨text, hne, rfl, hbytes⟩
    obtain ⟨hlast, htext⟩ := terminated_iff.mpr hbytes
    exact ⟨(), hlast, text, htext, (), hne, rfl⟩

theorem readInterpreter_ne_panicked (file : FileBytes) (range : Option (Nat × Nat)) :
    readInterpreter file range ≠ .panicked := by
  cases range with
  | none => exact nofun
  | some range =>
    refine bind_ne_panicked (orRefuse_ne_panicked _) (fun count _ => ?_)
    have hread : file.readExact range.1 count ≠ .panicked := by
      unfold FileBytes.readExact
      split
      · exact nofun
      · exact nofun
    refine bind_ne_panicked hread (fun bytes _ => ?_)
    refine bind_ne_panicked (refuseIf_ne_panicked _) (fun _ _ => ?_)
    refine bind_ne_panicked (orRefuse_ne_panicked _) (fun text _ => ?_)
    exact bind_ne_panicked (refuseIf_ne_panicked _) (fun _ _ => nofun)

/-- **What is accepted**, and what is reported of it. -/
structure Accepted (bytes : List UInt8) (inspection : ElfInspection) : Prop where
  /-- ELF, of 64 bits, little-endian. -/
  magic : bytes.take 6 = [0x7f, 69, 76, 70, 2, 1]
  header : 64 ≤ bytes.length
  /-- A shared object. -/
  sharedObject : field bytes 16 2 = 3
  table : TableOk bytes
  load : ∃ header ∈ programHeaders bytes, isLoad header = true
  loads : ∀ header ∈ programHeaders bytes, isLoad header = true → LoadOk bytes.length header
  oneInterpreter : ((programHeaders bytes).filter isInterpreter).length ≤ 1
  interpreters : ∀ header ∈ programHeaders bytes, isInterpreter header = true →
    InterpreterOk bytes.length header
  /-- The interpreter is a text that ends with a NUL. -/
  interpreter : ∀ header ∈ programHeaders bytes, isInterpreter header = true →
    ∃ text, text ≠ [] ∧ inspection.interpreter = some text ∧
      (bytes.drop header.fileOffset).take header.fileSize = encode text ++ [0]
  noInterpreter : (∀ header ∈ programHeaders bytes, isInterpreter header = false) →
    inspection.interpreter = none
  /-- The machine is reported. -/
  arm64 : inspection.arm64 = true ↔ field bytes 18 2 = 183
  page16k : inspection.page16k = true ↔
    ∀ header ∈ programHeaders bytes, isLoad header = true → Aligned header

/-- What `Accepted` says of the interpreter. -/
def InterpreterIs (bytes : List UInt8) (interpreter : Option (List Char)) : Prop :=
  (∀ header ∈ programHeaders bytes, isInterpreter header = true →
    ∃ text, text ≠ [] ∧ interpreter = some text ∧
      (bytes.drop header.fileOffset).take header.fileSize = encode text ++ [0]) ∧
  ((∀ header ∈ programHeaders bytes, isInterpreter header = false) → interpreter = none)

/-- The interpreter of the one `PT_INTERP` header, or none. -/
theorem readRanges_iff {file : FileBytes}
    (hone : ((programHeaders file.bytes).filter isInterpreter).length ≤ 1)
    (hok : ∀ header ∈ programHeaders file.bytes, isInterpreter header = true →
      InterpreterOk file.bytes.length header) {interpreter : Option (List Char)} :
    readInterpreter file (interpreterRanges (programHeaders file.bytes)).head? = .done interpreter ↔
      InterpreterIs file.bytes interpreter := by
  unfold InterpreterIs interpreterRanges
  have hmem : ∀ header, header ∈ (programHeaders file.bytes).filter isInterpreter ↔
      header ∈ programHeaders file.bytes ∧ isInterpreter header = true := fun header =>
    List.mem_filter
  match hfilter : (programHeaders file.bytes).filter isInterpreter, hone with
  | [], _ =>
    rw [hfilter] at hmem
    have hnone : ∀ header ∈ programHeaders file.bytes, ¬ isInterpreter header = true :=
      fun header hin hkind => absurd ((hmem header).mpr ⟨hin, hkind⟩) List.not_mem_nil
    show (Outcome.done none = .done interpreter) ↔ _
    rw [Outcome.done.injEq, eq_comm]
    constructor
    · exact fun h => ⟨fun header hin hkind => absurd hkind (hnone header hin), fun _ => h⟩
    · exact fun h => h.2 fun header hin => Bool.eq_false_iff.mpr (hnone header hin)
  | [first], _ =>
    rw [hfilter] at hmem
    obtain ⟨hin, hkind⟩ := (hmem first).mp (List.mem_singleton_self first)
    refine (readInterpreter_iff (hok first hin hkind)).trans ?_
    constructor
    · intro h
      refine ⟨fun header hin' hkind' => ?_, fun hnone => ?_⟩
      · rw [List.mem_singleton.mp ((hmem header).mpr ⟨hin', hkind'⟩)]
        exact h
      · rw [hnone first hin] at hkind
        cases hkind
    · exact fun h => h.1 first hin hkind
  | _ :: _ :: _, hone => exact absurd hone (by simp)

/-- The first six bytes. -/
theorem magic_iff {bytes : List UInt8} {elfClass data : UInt8} (hclass : bytes[4]? = some elfClass)
    (hdata : bytes[5]? = some data) :
    (¬ (bytes.take 4 ≠ [0x7f, 69, 76, 70] ∨ elfClass ≠ elfClass64 ∨ data ≠ elfData2Lsb)) ↔
      bytes.take 6 = [0x7f, 69, 76, 70, 2, 1] := by
  have hsix : bytes.take 6 = bytes.take 4 ++ [elfClass, data] := by
    rw [List.take_add_one, List.take_add_one, hclass, hdata, List.append_assoc]
    rfl
  rw [not_or, not_or, not_not, not_not, not_not, hsix, elfClass64, elfData2Lsb]
  constructor
  · rintro ⟨hmagic, rfl, rfl⟩
    rw [hmagic]
    rfl
  · intro h
    have hfour : (bytes.take 4).length = 4 := by
      have hlen := congrArg List.length h
      rw [List.length_append] at hlen
      exact Nat.add_right_cancel hlen
    have hparts : bytes.take 4 ++ [elfClass, data] = [0x7f, 69, 76, 70] ++ [2, 1] := h
    obtain ⟨hmagic, hrest⟩ := List.append_inj hparts hfour
    simp only [List.cons.injEq, and_true] at hrest
    exact ⟨hmagic, hrest.1, hrest.2⟩

/-- The checks of the table. -/
theorem table_iff {file : FileBytes} {tableBytes tableEnd : Nat}
    (hmul : checkedMul (field file.bytes 54 2) (field file.bytes 56 2) = some tableBytes)
    (hadd : checkedAdd (field file.bytes 32 8) tableBytes = some tableEnd) :
    (¬ (field file.bytes 54 2 < elf64ProgramHeaderBytes ∨ field file.bytes 56 2 = 0 ∨
      field file.bytes 56 2 > maxProgramHeaders)) ∧
      ¬ (field file.bytes 32 8 < elfHeaderBytes ∨ tableEnd > file.bytes.length) ↔
      TableOk file.bytes := by
  have hbytes : tableBytes = field file.bytes 54 2 * field file.bytes 56 2 := by
    rw [checkedMul] at hmul
    split at hmul
    · exact (Option.some.inj hmul).symm
    · cases hmul
  have hend : tableEnd = field file.bytes 32 8 + tableBytes := by
    rw [checkedAdd] at hadd
    split at hadd
    · exact (Option.some.inj hadd).symm
    · cases hadd
  rw [hend, hbytes, elf64ProgramHeaderBytes, maxProgramHeaders, elfHeaderBytes]
  constructor
  · rintro ⟨hcount, hplace⟩
    exact ⟨by omega, by omega, by omega, by omega⟩
  · rintro ⟨hsize, hcount, hbehind, hinside⟩
    exact ⟨by omega, by omega⟩

theorem inspectFields_iff {file : FileBytes} (hlen : 64 ≤ file.bytes.length) {elfClass data : UInt8}
    (hclass : file.bytes[4]? = some elfClass) (hdata : file.bytes[5]? = some data)
    {inspection : ElfInspection} :
    inspectFields file elfClass data = .done inspection ↔ Accepted file.bytes inspection := by
  have hfits := file.fits
  unfold inspectFields
  simp only [bind_eq_done, refuseIf_iff, orRefuse_iff, pure_eq_done, Outcome.done.injEq]
  constructor
  · rintro ⟨-, hmagic, -, htype, -, hcount, tableBytes, hmul, tableEnd, hadd, -, hplace, scan, hscan,
      -, hload, interpreter, hinterpreter, rfl⟩
    have htable := (table_iff hmul hadd).mp ⟨hcount, hplace⟩
    rw [scanProgramHeaders_eq htable, scan_iff hfits] at hscan
    obtain ⟨hloads, hinterps, hone, rfl⟩ := hscan
    have hranges : ((programHeaders file.bytes).filter isInterpreter).length ≤ 1 := by
      rw [← List.length_map (fun header : ProgramHeader => (header.fileOffset, header.fileSize))]
      rcases hone with hone | hempty
      · exact hone
      · exact (congrArg List.length hempty).le.trans (Nat.zero_le 1)
    obtain ⟨htext, hnone⟩ := (readRanges_iff hranges hinterps).mp hinterpreter
    exact {
      magic := (magic_iff hclass hdata).mp hmagic
      header := hlen
      sharedObject := not_not.mp htype
      table := htable
      load := by simpa [summary] using hload
      loads := hloads
      oneInterpreter := hranges
      interpreters := hinterps
      interpreter := htext
      noInterpreter := hnone
      arm64 := decide_eq_true_iff
      page16k := by simp [summary] }
  · intro h
    obtain ⟨hsize, hcount, hbehind, hinside⟩ := h.table
    have hmul : checkedMul (field file.bytes 54 2) (field file.bytes 56 2) =
        some (field file.bytes 54 2 * field file.bytes 56 2) := if_pos (by omega)
    have hadd : checkedAdd (field file.bytes 32 8)
        (field file.bytes 54 2 * field file.bytes 56 2) =
        some (field file.bytes 32 8 + field file.bytes 54 2 * field file.bytes 56 2) :=
      if_pos (by omega)
    obtain ⟨hcounts, hplace⟩ := (table_iff hmul hadd).mpr h.table
    have hscan : scanProgramHeaders file (field file.bytes 32 8) (field file.bytes 54 2)
        (field file.bytes 56 2) = .done (summary ⟨false, true, none⟩ (programHeaders file.bytes)) := by
      rw [scanProgramHeaders_eq h.table, scan_iff hfits]
      refine ⟨h.loads, h.interpreters, .inl ?_, rfl⟩
      show (interpreterRanges (programHeaders file.bytes)).length ≤ 1
      rw [interpreterRanges, List.length_map]
      exact h.oneInterpreter
    refine ⟨(), (magic_iff hclass hdata).mpr h.magic, (), not_not.mpr h.sharedObject, (), hcounts, _,
      hmul, _, hadd, (), hplace, _, hscan, (), ?_, inspection.interpreter,
      (readRanges_iff h.oneInterpreter h.interpreters).mpr ⟨h.interpreter, h.noInterpreter⟩, ?_⟩
    · simpa [summary] using h.load
    · have harm : decide (field file.bytes 18 2 = emAarch64) = inspection.arm64 := by
        rw [Bool.eq_iff_iff, decide_eq_true_eq, h.arm64, emAarch64]
      have hpage : (summary ⟨false, true, none⟩ (programHeaders file.bytes)).page16k =
          inspection.page16k := by
        rw [Bool.eq_iff_iff, h.page16k]
        simp [summary]
      rw [harm, hpage]

theorem inspectFields_ne_panicked {file : FileBytes} (elfClass data : UInt8) :
    inspectFields file elfClass data ≠ .panicked := by
  unfold inspectFields
  refine bind_ne_panicked (refuseIf_ne_panicked _) (fun _ _ => ?_)
  refine bind_ne_panicked (refuseIf_ne_panicked _) (fun _ _ => ?_)
  refine bind_ne_panicked (refuseIf_ne_panicked _) (fun _ hcount => ?_)
  refine bind_ne_panicked (orRefuse_ne_panicked _) (fun tableBytes hmul => ?_)
  refine bind_ne_panicked (orRefuse_ne_panicked _) (fun tableEnd hadd => ?_)
  refine bind_ne_panicked (refuseIf_ne_panicked _) (fun _ hplace => ?_)
  -- from here on the table is inside the file
  have htable := (table_iff (orRefuse_iff.mp hmul) (orRefuse_iff.mp hadd)).mp
    ⟨refuseIf_iff.mp hcount, refuseIf_iff.mp hplace⟩
  rw [scanProgramHeaders_eq htable]
  refine bind_ne_panicked (scan_ne_panicked _ _ _) (fun scan _ => ?_)
  refine bind_ne_panicked (refuseIf_ne_panicked _) (fun _ _ => ?_)
  exact bind_ne_panicked (readInterpreter_ne_panicked file _) (fun _ _ => nofun)

/-- **The inspection** never panics, and accepts the files of the specification. -/
theorem inspectElf_law (file : FileBytes) :
    inspectElf file ≠ .panicked ∧
      ∀ inspection, inspectElf file = .done inspection ↔ Accepted file.bytes inspection := by
  by_cases hlen : 64 ≤ file.bytes.length
  · have hclass : file.bytes[4]? = some file.bytes[4] := List.getElem?_eq_getElem (by omega)
    have hdata : file.bytes[5]? = some file.bytes[5] := List.getElem?_eq_getElem (by omega)
    rw [inspectElf_eq hlen hclass hdata]
    exact ⟨inspectFields_ne_panicked _ _, fun _ => inspectFields_iff hlen hclass hdata⟩
  · have hshort : inspectElf file = .refused := by
      have hread : file.readExact 0 elfHeaderBytes = .refused := by
        rw [FileBytes.readExact, if_neg]
        rintro ⟨-, hle⟩
        rw [elfHeaderBytes] at hle
        omega
      rw [inspectElf, hread]
      rfl
    rw [hshort]
    exact ⟨nofun, fun inspection => ⟨nofun, fun h => absurd h.header hlen⟩⟩

/-- An ELF header for an x86-64 machine, and one `PT_LOAD` header with an alignment of 64 KiB, at
    the address 16 KiB. -/
def foreignFile : FileBytes where
  bytes := [0x7f, 69, 76, 70, 2, 1] ++ List.replicate 10 0 ++ [3, 0, 62, 0] ++ List.replicate 12 0 ++
    [64, 0, 0, 0, 0, 0, 0, 0] ++ List.replicate 14 0 ++ [56, 0, 1, 0] ++ List.replicate 6 0 ++
    [1, 0, 0, 0] ++ List.replicate 12 0 ++ [0, 64, 0, 0, 0, 0, 0, 0] ++ List.replicate 24 0 ++
    [0, 0, 1, 0, 0, 0, 0, 0]
  fits := by decide

/-- **A file for another machine is accepted**, and has 16 KiB pages although its one segment is not
    aligned to its own alignment. -/
theorem foreign_file_accepted :
    inspectElf foreignFile = .done ⟨false, true, none⟩ ∧
      field foreignFile.bytes 18 2 ≠ emAarch64 ∧
      ¬ ∀ header ∈ programHeaders foreignFile.bytes, isLoad header = true →
        header.fileOffset % header.align = header.virtualAddress % header.align := by
  set_option maxRecDepth 20000 in decide

end VibeCoder.NativeProbe
