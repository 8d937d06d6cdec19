/-
  Structural inspection of a native artifact (`vibecoder-runtime-packaging::native_probe`).

  1. **Outcomes** — a call panics, is refused with `Err(())`, or returns.  An index or a range
     outside of its slice is a panic; a read behind the end of the file, and a checked operation
     that overflows, are refused.

  2. **Program headers** — one round of the loop reads a header at its place in the table and checks
     its segment.

  3. **The file** — `inspect_elf`.
-/
import VibeCoder.Lib.Encoding
import VibeCoder.Lib.Utf8

namespace VibeCoder.NativeProbe

open Encoding

/-! ## Outcomes -/

/-- How a call ends. -/
inductive Outcome (α : Type) where
  | panicked
  | refused
  | done (value : α)
  deriving DecidableEq

instance : Monad Outcome where
  pure := .done
  bind
    | .panicked, _ => .panicked
    | .refused, _ => .refused
    | .done value, next => next value

/-- `if .. { return Err(()) }`. -/
def refuseIf (p : Prop) [Decidable p] : Outcome Unit := if p then .refused else .done ()

/-- `.ok_or(())?`. -/
def orRefuse {α : Type} : Option α → Outcome α
  | none => .refused
  | some value => .done value

def checkedAdd (a b : Nat) : Option Nat := if a + b < 2 ^ 64 then some (a + b) else none

def checkedMul (a b : Nat) : Option Nat := if a * b < 2 ^ 64 then some (a * b) else none

/-- `usize::try_from`, of 64 bits. -/
def usizeTryFrom (a : Nat) : Option Nat := if a < 2 ^ 64 then some a else none

/-- `bytes[index]`. -/
def byteAt (bytes : List UInt8) (index : Nat) : Outcome UInt8 :=
  match bytes[index]? with
  | none => .panicked
  | some byte => .done byte

/-- `&bytes[start..stop]`. -/
def byteRange (bytes : List UInt8) (start stop : Nat) : Outcome (List UInt8) :=
  if start ≤ stop ∧ stop ≤ bytes.length then .done ((bytes.drop start).take (stop - start))
  else .panicked

/-- `read_u16`, with `from_le_bytes`. -/
def readU16 (bytes : List UInt8) : Outcome Nat := do
  return leValue [← byteAt bytes 0, ← byteAt bytes 1]

/-- `read_u32`. -/
def readU32 (bytes : List UInt8) : Outcome Nat := do
  return leValue [← byteAt bytes 0, ← byteAt bytes 1, ← byteAt bytes 2, ← byteAt bytes 3]

/-- `read_u64`. -/
def readU64 (bytes : List UInt8) : Outcome Nat := do
  return leValue [← byteAt bytes 0, ← byteAt bytes 1, ← byteAt bytes 2, ← byteAt bytes 3,
    ← byteAt bytes 4, ← byteAt bytes 5, ← byteAt bytes 6, ← byteAt bytes 7]

/-- The contents of a file.  A file offset is a signed number of 64 bits. -/
structure FileBytes where
  bytes : List UInt8
  fits : bytes.length < 2 ^ 63

/-- `file.seek(SeekFrom::Start(offset))` and `file.read_exact`. -/
def FileBytes.readExact (file : FileBytes) (offset count : Nat) : Outcome (List UInt8) :=
  if offset < 2 ^ 63 ∧ offset + count ≤ file.bytes.length then
    .done ((file.bytes.drop offset).take count)
  else .refused

/-! ## Program headers -/

def elfHeaderBytes : Nat := 64
def elf64ProgramHeaderBytes : Nat := 56
def elfClass64 : UInt8 := 2
def elfData2Lsb : UInt8 := 1
def etDyn : Nat := 3
def emAarch64 : Nat := 183
def ptLoad : Nat := 1
def ptInterp : Nat := 3
def maxInterpreterBytes : Nat := 256
def maxProgramHeaders : Nat := 256
def requiredPageBytes : Nat := 16 * 1024

/-- The fields of a program header that are read. -/
structure ProgramHeader where
  headerType : Nat
  fileOffset : Nat
  virtualAddress : Nat
  fileSize : Nat
  memorySize : Nat
  align : Nat
  deriving DecidableEq, Repr

/-- The variables of the loop. -/
structure Scan where
  sawLoad : Bool
  page16k : Bool
  interpreterRange : Option (Nat × Nat)
  deriving DecidableEq, Repr

/-- The first half of a round: the header at its place in the table. -/
def readProgramHeader (file : FileBytes) (phoff phentsize index : Nat) : Outcome ProgramHeader := do
  let skipped ← orRefuse (checkedMul index phentsize)
  let offset ← orRefuse (checkedAdd phoff skipped)
  let ph ← file.readExact offset elf64ProgramHeaderBytes
  let headerType ← readU32 (← byteRange ph 0 4)
  let fileOffset ← readU64 (← byteRange ph 8 16)
  let virtualAddress ← readU64 (← byteRange ph 16 24)
  let fileSize ← readU64 (← byteRange ph 32 40)
  let memorySize ← readU64 (← byteRange ph 40 48)
  let align ← readU64 (← byteRange ph 48 56)
  return ⟨headerType, fileOffset, virtualAddress, fileSize, memorySize, align⟩

/-- `file_offset.checked_add(file_size).is_none_or(|segment_end| segment_end > file_len)`. -/
def outside (header : ProgramHeader) (fileLen : Nat) : Bool :=
  match checkedAdd header.fileOffset header.fileSize with
  | none => true
  | some segmentEnd => fileLen < segmentEnd

/-- `is_power_of_two`. -/
def isPowerOfTwo (n : Nat) : Bool := n != 0 && n &&& (n - 1) == 0

/-- The second half of a round. -/
def checkProgramHeader (fileLen : Nat) (scan : Scan) (header : ProgramHeader) : Outcome Scan :=
  if header.headerType = ptInterp then do
    refuseIf (scan.interpreterRange.isSome ∨ header.fileSize < 2 ∨
      header.fileSize > maxInterpreterBytes ∨ outside header fileLen)
    return { scan with interpreterRange := some (header.fileOffset, header.fileSize) }
  else if header.headerType ≠ ptLoad then
    return scan
  else do
    refuseIf (header.fileSize > header.memorySize ∨ outside header fileLen)
    if header.align < requiredPageBytes ∨ !isPowerOfTwo header.align ∨
        header.fileOffset % requiredPageBytes ≠ header.virtualAddress % requiredPageBytes then
      return { scan with sawLoad := true, page16k := false }
    else
      return { scan with sawLoad := true }

/-- The loop. -/
def scanProgramHeaders (file : FileBytes) (phoff phentsize phnum : Nat) : Outcome Scan :=
  (List.range phnum).foldlM (fun scan index => do
    checkProgramHeader file.bytes.length scan (← readProgramHeader file phoff phentsize index))
    ⟨false, true, none⟩

/-! ## The file -/

/-- `ElfInspection`. -/
structure ElfInspection where
  arm64 : Bool
  page16k : Bool
  interpreter : Option (List Char)
  deriving DecidableEq, Repr

/-- The match on `interpreter_range`. -/
def readInterpreter (file : FileBytes) : Option (Nat × Nat) → Outcome (Option (List Char))
  | none => return none
  | some (offset, size) => do
    let count ← orRefuse (usizeTryFrom size)
    let bytes ← file.readExact offset count
    refuseIf (bytes.getLast? ≠ some 0)
    let value ← orRefuse (Chars.decode bytes.dropLast)
    refuseIf (value.isEmpty = true)
    return some value

/-- `inspect_elf`. -/
def inspectElf (file : FileBytes) : Outcome ElfInspection := do
  let header ← file.readExact 0 elfHeaderBytes
  let magic ← byteRange header 0 4
  let elfClass ← byteAt header 4
  let data ← byteAt header 5
  refuseIf (magic ≠ [0x7f, 69, 76, 70] ∨ elfClass ≠ elfClass64 ∨ data ≠ elfData2Lsb)
  let elfType ← readU16 (← byteRange header 16 18)
  let machine ← readU16 (← byteRange header 18 20)
  refuseIf (elfType ≠ etDyn)
  let phoff ← readU64 (← byteRange header 32 40)
  let phentsize ← readU16 (← byteRange header 54 56)
  let phnum ← readU16 (← byteRange header 56 58)
  refuseIf (phentsize < elf64ProgramHeaderBytes ∨ phnum = 0 ∨ phnum > maxProgramHeaders)
  let tableBytes ← orRefuse (checkedMul phentsize phnum)
  let tableEnd ← orRefuse (checkedAdd phoff tableBytes)
  refuseIf (phoff < elfHeaderBytes ∨ tableEnd > file.bytes.length)
  let scan ← scanProgramHeaders file phoff phentsize phnum
  refuseIf (scan.sawLoad = false)
  let interpreter ← readInterpreter file scan.interpreterRange
  return ⟨machine = emAarch64, scan.page16k, interpreter⟩

end VibeCoder.NativeProbe
