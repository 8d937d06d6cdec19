/-
  The directory of a store (`vibecoder-persistence-local::unix_store`).

  1. **Entries** — what a name stands for: the status the checks look at, and the bytes.

  2. **Steps** — every call to the system that a save, a load or a listing makes has a name, so that
     a failure is the name of the step that fails.

  3. **Files** — the checks of the status, and the requests on the directory.  The gate makes them
     one at a time, and the directory is private, so that what has been looked at is what is opened.
-/
import VibeCoder.Conversation
import VibeCoder.Lib.Utf8
import VibeCoder.Lib.UuidText

namespace VibeCoder.Persistence

open Chars

def privateFileMode : Nat := 0o600
def maxStateDirectoryEntries : Nat := 8192

/-! ## Entries -/

/-- `libc::stat`, as far as it is looked at. -/
structure Stat where
  regular : Bool
  links : Nat
  /-- `st_uid == geteuid()`. -/
  owned : Bool
  mode : Nat
  deriving DecidableEq, Repr

structure Entry where
  stat : Stat
  bytes : List UInt8
  deriving DecidableEq, Repr

/-- The names in a directory are bytes, in the order in which `readdir` gives them. -/
abbrev Directory := List (List UInt8 × Entry)

/-- What a name stands for. -/
def entryOf (d : Directory) (name : List UInt8) : Option Entry :=
  (d.find? (fun e => e.1 == name)).map Prod.snd

/-- The directory without a name. -/
def without (d : Directory) (name : List UInt8) : Directory := d.filter (fun e => e.1 != name)

/-! ## Steps -/

/-- What a root is opened for. -/
inductive Purpose where
  | load
  | list
  | save
  | remove
  deriving DecidableEq, Repr

/-- A call to the system. -/
inductive Step where
  /-- One of the four directories on the way to the root. -/
  | openDirectory (purpose : Purpose) (depth : Fin 4)
  | statDirectory (purpose : Purpose) (depth : Fin 4)
  | inspect (purpose : Purpose)
  | openRecord
  | statRecord
  | readRecord
  | listDup
  | listOpen
  /-- The entry with this number, or the end. -/
  | listRead (index : Nat)
  | listStat (index : Nat)
  | createTemp
  | statTemp
  /-- So many bytes get written before the failure. -/
  | write (count : Nat)
  | syncFile
  | rename
  | syncRoot
  | unlinkTemp
  | unlinkRecord
  deriving DecidableEq, Repr

/-- The step that fails, if one does. -/
abbrev Fault := Option Step

/-- A step that has no other reason to fail. -/
def attempt (fault : Fault) (step : Step) (code : String) : Result Unit :=
  if fault = some step then .error (persistenceError code) else .ok ()

/-- `open_directory_path_nofollow` and the three calls of `open_directory_at`. -/
def openRoot (fault : Fault) (purpose : Purpose) : Result Unit := do
  attempt fault (.openDirectory purpose 0) "app_private_root_open_failed"
  attempt fault (.statDirectory purpose 0) "app_private_root_invalid"
  attempt fault (.openDirectory purpose 1) "state_directory_open_failed"
  attempt fault (.statDirectory purpose 1) "state_directory_invalid"
  attempt fault (.openDirectory purpose 2) "state_directory_open_failed"
  attempt fault (.statDirectory purpose 2) "state_directory_invalid"
  attempt fault (.openDirectory purpose 3) "state_directory_open_failed"
  attempt fault (.statDirectory purpose 3) "state_directory_invalid"

/-! ## Files -/

/-- `verify_private_regular_stat`. -/
def verifyPrivateRegularStat (stat : Stat) (code : String) : Result Unit :=
  if !stat.regular || stat.links != 1 || !stat.owned || stat.mode &&& 0o077 != 0 ||
      stat.mode &&& 0o400 == 0 then
    .error (persistenceError code)
  else .ok ()

/-- `fstatat_nofollow_optional`. -/
def fstatatOptional (fault : Fault) (purpose : Purpose) (d : Directory) (name : List UInt8) :
    Result (Option Entry) := do
  attempt fault (.inspect purpose) "project_state_stat_failed"
  return entryOf d name

/-- `inspect_existing_state_target`. -/
def inspectExistingStateTarget (fault : Fault) (d : Directory) (name : List UInt8) :
    Result Unit := do
  match ← fstatatOptional fault .save d name with
  | none => return ()
  | some entry => verifyPrivateRegularStat entry.stat "project_state_target_invalid"

/-- `inspect_state_for_read`. -/
def inspectStateForRead (fault : Fault) (purpose : Purpose) (d : Directory) (name : List UInt8) :
    Result (Option Entry) := do
  match ← fstatatOptional fault purpose d name with
  | none => return none
  | some entry =>
    verifyPrivateRegularStat entry.stat "project_state_target_invalid"
    return some entry

/-- The file of `open_exclusive_private_file_at`: the umask takes no bit of the owner. -/
def newEntry : Entry := { stat := ⟨true, 1, true, privateFileMode⟩, bytes := [] }

/-- `open_exclusive_private_file_at`. -/
def openExclusivePrivateFileAt (fault : Fault) (d : Directory) (name : List UInt8) :
    Result Unit × Directory :=
  match attempt fault .createTemp "project_state_temp_create_failed" with
  | .error e => (.error e, d)
  | .ok () =>
    match entryOf d name with
    | some _ => (.error (persistenceError "project_state_temp_create_failed"), d)
    | none => (.ok (), d ++ [(name, newEntry)])

/-- `unlinkat`, the error of which is ignored. -/
def unlinkTemp (fault : Fault) (d : Directory) (name : List UInt8) : Directory :=
  if fault = some .unlinkTemp then d else without d name

/-- The entry gets other bytes. -/
def writeBytes (d : Directory) (name : List UInt8) (bytes : List UInt8) : Directory :=
  d.map (fun e => if e.1 == name then (e.1, { e.2 with bytes := bytes }) else e)

/-- `renameat`: the entry takes the name from whatever had it. -/
def renameTo (d : Directory) (source target : List UInt8) : Directory :=
  match entryOf d source with
  | none => d
  | some entry => without (without d source) target ++ [(target, entry)]

end VibeCoder.Persistence
