/-
  CREDENTIAL FILES (`bondry-credential-store-unix`).

  A credential is a file of its own in one private directory.  It is replaced by writing a file under a random
  name and renaming it over the old one, so what the store does is a sequence of system calls, each of which can
  fail, and the process can stop between any two of them.

  A directory maps names to files and a file has its bytes and metadata beside them, as on the system: a name
  can be unlinked or renamed while its file is open, and the link count is the number of names.  Names are
  case-sensitive.  Descriptors are positioned by the caller, and the calls that the standard library repeats
  when they are interrupted (`read`, `write`, `fsync` of a file) count once.
-/
import Bondry.Contract.Identifier
import Bondry.Lib.BTreeMap
import Bondry.Lib.Encoding
import Bondry.Lib.Program

namespace Bondry.Credential

open Encoding

/-! ## Credentials (`bondry-secrets`, `credential.rs`) -/

def maxCredentialIdBytes : Nat := 255

def maxCredentialBytes : Nat := 64 * 1024

inductive CredentialIdError where
  | empty
  | tooLong
  | invalidCharacter
  deriving DecidableEq, Repr

def isPortable (c : Char) : Bool := c.isAlphanum || c == '.' || c == '_' || c == '-'

def checkCredentialId (value : Text) : Except CredentialIdError Unit :=
  if value = [] then .error .empty
  else if maxCredentialIdBytes < utf8Len value then .error .tooLong
  else if value = ".".toList ∨ value = "..".toList ∨ value.all isPortable = false then .error .invalidCharacter
  else .ok ()

structure CredentialId where
  value : Text
  valid : checkCredentialId value = .ok ()
  deriving DecidableEq

@[ext]
structure CredentialValue where
  bytes : Bytes
  nonempty : bytes ≠ []
  bounded : bytes.length ≤ maxCredentialBytes

instance : DecidableEq CredentialValue := fun a b => decidable_of_iff (a.bytes = b.bytes) CredentialValue.ext_iff.symm

def CredentialValue.new (bytes : Bytes) : Option CredentialValue :=
  if hempty : bytes = [] then none
  else if hlong : maxCredentialBytes < bytes.length then none
  else some ⟨bytes, hempty, not_lt.mp hlong⟩

inductive CredentialStoreError where
  | unavailable
  | accessDenied
  | unsafeStorage
  | invalidMaterial
  | readOnly
  deriving DecidableEq, Repr

/-! ## Files -/

abbrev FileName := Text

/-- An open file, by the number of what it refers to. -/
abbrev Descriptor := Nat

/-- A file: its mode with the type bits, its owner, the names it has in other directories, and its bytes. -/
structure FileNode where
  mode : Nat
  uid : Nat
  elsewhere : Nat
  bytes : Bytes

/-- What `fstat` reports. -/
structure FileStat where
  mode : Nat
  uid : Nat
  nlink : Nat
  size : Nat
  deriving DecidableEq

structure Files where
  directory : FileStat
  entries : BTreeMap FileName Nat
  nodes : Nat → FileNode

def typeBits : Nat := 0o170000
def regularType : Nat := 0o100000
def directoryType : Nat := 0o040000
def linkType : Nat := 0o120000

namespace Files

variable (files : Files)

def links (n : Nat) : Nat := BTreeMap.tally (fun _ m => decide (m = n)) files.entries + (files.nodes n).elsewhere

/-- `fstat`. -/
def status (n : Nat) : FileStat :=
  ⟨(files.nodes n).mode, (files.nodes n).uid, files.links n, (files.nodes n).bytes.length⟩

def IsType (n bits : Nat) : Prop := (files.nodes n).mode &&& typeBits = bits

instance (n bits : Nat) : Decidable (files.IsType n bits) := inferInstanceAs (Decidable (_ = _))

def setNode (n : Nat) (node : FileNode) : Files := { files with nodes := Function.update files.nodes n node }

def create (name : FileName) (n : Nat) (node : FileNode) : Files :=
  { files with entries := files.entries.insert name n, nodes := Function.update files.nodes n node }

def unlink (name : FileName) : Files := { files with entries := files.entries.erase name }

def rename (source target : FileName) (n : Nat) : Files :=
  { files with entries := (files.entries.erase source).insert target n }

end Files

/-- Bytes at a position, over those that were there; a gap reads as zeros. -/
def overwrite (old : Bytes) (position : Nat) (bytes : Bytes) : Bytes :=
  (old ++ List.replicate (position - old.length) 0).take position ++ bytes ++ old.drop (position + bytes.length)

/-! ## System calls -/

inductive Errno where
  | ENOENT
  | EEXIST
  | EACCES
  | EPERM
  | ELOOP
  | ENOTDIR
  | EISDIR
  | other
  deriving DecidableEq, Repr

inductive SystemCall where
  | fstatDirectory
  | openRead (name : FileName)
  | getrandom
  | openCreate (name : FileName)
  | fchmod (file : Descriptor) (mode : Nat)
  | fstat (file : Descriptor)
  | write (file : Descriptor) (position : Nat) (bytes : Bytes)
  | fsync (file : Descriptor)
  | read (file : Descriptor) (position limit : Nat)
  | renameat (source target : FileName)
  | unlinkat (name : FileName)
  | fsyncDirectory
  deriving DecidableEq

abbrev SystemCall.Value : SystemCall → Type
  | fstatDirectory | fstat _ => FileStat
  | openRead _ | openCreate _ => Descriptor
  | getrandom | read .. => Bytes
  | write .. => Nat
  | fchmod .. | fsync _ | renameat .. | unlinkat _ | fsyncDirectory => Unit

abbrev SystemCall.Reply (call : SystemCall) : Type := Except Errno call.Value

/-- The replies of a system whose calls all work, and what they leave. -/
inductive Behaves (files : Files) : (call : SystemCall) → call.Reply → Files → Prop where
  | fstatDirectory : Behaves files .fstatDirectory (.ok files.directory) files
  | openRead {name : FileName} {n : Nat} : files.entries[name]? = some n → ¬ files.IsType n linkType →
      Behaves files (.openRead name) (.ok n) files
  | openMissing {name : FileName} : files.entries[name]? = none →
      Behaves files (.openRead name) (.error .ENOENT) files
  | openLink {name : FileName} {n : Nat} : files.entries[name]? = some n → files.IsType n linkType →
      Behaves files (.openRead name) (.error .ELOOP) files
  | getrandom {bytes : Bytes} : bytes.length = 16 → Behaves files .getrandom (.ok bytes) files
  /-- `O_CREAT | O_EXCL`: a new regular file, empty and without another name, with what permissions the umask
      leaves. -/
  | openCreate {name : FileName} {n : Nat} {mode uid : Nat} : files.entries[name]? = none →
      (∀ other : FileName, files.entries[other]? ≠ some n) → mode &&& typeBits = regularType →
      Behaves files (.openCreate name) (.ok n) (files.create name n ⟨mode, uid, 0, []⟩)
  | openTaken {name : FileName} {n : Nat} : files.entries[name]? = some n →
      Behaves files (.openCreate name) (.error .EEXIST) files
  | fchmod {n mode : Nat} : Behaves files (.fchmod n mode) (.ok ())
      (files.setNode n { files.nodes n with mode := ((files.nodes n).mode &&& typeBits) ||| mode })
  | fstat {n : Nat} : Behaves files (.fstat n) (.ok (files.status n)) files
  /-- A write takes any part of what it is given. -/
  | write {n position : Nat} {bytes : Bytes} {count : Nat} : count ≤ bytes.length →
      Behaves files (.write n position bytes) (.ok count)
        (files.setNode n { files.nodes n with
          bytes := overwrite (files.nodes n).bytes position (bytes.take count) })
  | fsync {n : Nat} : Behaves files (.fsync n) (.ok ()) files
  /-- A read returns any part of what is left, and nothing only at the end. -/
  | read {n position limit count : Nat} : count ≤ limit → (count = 0 → limit = 0) →
      Behaves files (.read n position limit) (.ok (((files.nodes n).bytes.drop position).take count)) files
  | renameat {source target : FileName} {n : Nat} : files.entries[source]? = some n →
      (∀ m, files.entries[target]? = some m → m ≠ n ∧ ¬ files.IsType m directoryType) →
      Behaves files (.renameat source target) (.ok ()) (files.rename source target n)
  /-- Two names of one file: nothing is renamed. -/
  | renameSame {source target : FileName} {n : Nat} : files.entries[source]? = some n →
      files.entries[target]? = some n → Behaves files (.renameat source target) (.ok ()) files
  | renameDirectory {source target : FileName} {n m : Nat} : files.entries[source]? = some n →
      files.entries[target]? = some m → m ≠ n → files.IsType m directoryType →
      Behaves files (.renameat source target) (.error .EISDIR) files
  | renameMissing {source target : FileName} : files.entries[source]? = none →
      Behaves files (.renameat source target) (.error .ENOENT) files
  | unlinkat {name : FileName} {n : Nat} : files.entries[name]? = some n → ¬ files.IsType n directoryType →
      Behaves files (.unlinkat name) (.ok ()) (files.unlink name)
  | unlinkDirectory {name : FileName} {n : Nat} : files.entries[name]? = some n →
      files.IsType n directoryType → Behaves files (.unlinkat name) (.error .EISDIR) files
  | unlinkMissing {name : FileName} : files.entries[name]? = none →
      Behaves files (.unlinkat name) (.error .ENOENT) files
  | fsyncDirectory : Behaves files .fsyncDirectory (.ok ()) files

/-- A missing file is only reported of a name that is not there. -/
def Honest (files : Files) : SystemCall → Errno → Prop
  | .openRead name, .ENOENT => files.entries[name]? = none
  | _, _ => True

/-- The calls that can have worked although they report an error. -/
def SystemCall.FailsLate : SystemCall → Prop
  | .write .. | .renameat .. | .unlinkat _ => True
  | _ => False

/-- The directory, and the calls since a process began, each with whether it took effect. -/
structure Machine where
  files : Files
  log : List (SystemCall × Bool)

/-- The system: a call works or, on a `faulty` one, fails or fails late. -/
inductive Answers (faulty : Prop) : Machine → (call : SystemCall) → call.Reply → Machine → Prop where
  | works {files after : Files} {log : List (SystemCall × Bool)} {call : SystemCall} {reply : call.Reply} :
      Behaves files call reply after →
      Answers faulty ⟨files, log⟩ call reply ⟨after, log ++ [(call, reply.isOk)]⟩
  | fails {files : Files} {log : List (SystemCall × Bool)} {call : SystemCall} {errno : Errno} :
      faulty → Honest files call errno →
      Answers faulty ⟨files, log⟩ call (.error errno) ⟨files, log ++ [(call, false)]⟩
  | failsLate {files after : Files} {log : List (SystemCall × Bool)} {call : SystemCall} {value : call.Value}
      {errno : Errno} : faulty → call.FailsLate → Behaves files call (.ok value) after →
      Answers faulty ⟨files, log⟩ call (.error errno) ⟨after, log ++ [(call, true)]⟩

/-! ## The store -/

abbrev Sys (α : Type) := Program SystemCall SystemCall.Reply CredentialStoreError α

def attempt (call : SystemCall) : Sys (Except Errno call.Value) := .call call .done

def perform (call : SystemCall) (error : Errno → CredentialStoreError) : Sys call.Value :=
  .call call fun
    | .ok value => .done value
    | .error errno => .fail (error errno)

def mapOpenError : Errno → CredentialStoreError
  | .EACCES | .EPERM => .accessDenied
  | .ELOOP | .ENOTDIR | .EISDIR => .unsafeStorage
  | _ => .unavailable

def mapOperationError : Errno → CredentialStoreError
  | .EACCES | .EPERM => .accessDenied
  | _ => .unavailable

/-- `map_io_error`: the kind `PermissionDenied` is that of `EACCES` and `EPERM`. -/
def mapIoError : Errno → CredentialStoreError
  | .EACCES | .EPERM => .accessDenied
  | _ => .unavailable

/-- `DIRECTORY_MODE`, `CREDENTIAL_MODE`, `TEMPORARY_NAME_ATTEMPTS`. -/
def directoryMode : Nat := 0o700
def credentialMode : Nat := 0o600
def temporaryNameAttempts : Nat := 16

def PrivateDirectory (owner : Nat) (status : FileStat) : Prop :=
  status.mode &&& directoryType = directoryType ∧ status.uid = owner ∧ status.mode &&& 0o777 = directoryMode

instance (owner : Nat) (status : FileStat) : Decidable (PrivateDirectory owner status) :=
  inferInstanceAs (Decidable (_ ∧ _ ∧ _))

def PrivateFile (owner : Nat) (status : FileStat) : Prop :=
  status.mode &&& regularType = regularType ∧ status.uid = owner ∧ status.nlink = 1 ∧
    status.mode &&& 0o777 = credentialMode

instance (owner : Nat) (status : FileStat) : Decidable (PrivateFile owner status) :=
  inferInstanceAs (Decidable (_ ∧ _ ∧ _ ∧ _))

structure UnixFileCredentialStore where
  ownerUserId : Nat

namespace UnixFileCredentialStore

variable (store : UnixFileCredentialStore)

def validateDirectory : Sys Unit := do
  let status : FileStat ← perform .fstatDirectory mapOperationError
  if PrivateDirectory store.ownerUserId status then pure () else .fail .unsafeStorage

def validateCredentialMetadata (file : Descriptor) : Sys FileStat := do
  let status : FileStat ← perform (.fstat file) mapOperationError
  if PrivateFile store.ownerUserId status then pure status else .fail .unsafeStorage

def validatedCredentialSize (file : Descriptor) : Sys Nat := do
  let status ← store.validateCredentialMetadata file
  if status.size = 0 ∨ maxCredentialBytes < status.size then .fail .invalidMaterial else pure status.size

def openCredential (id : CredentialId) : Sys (Option Descriptor) := do
  store.validateDirectory
  match ← attempt (.openRead id.value) with
  | .ok file => do
      let _ ← store.validatedCredentialSize file
      pure (some file)
  | .error .ENOENT => pure none
  | .error errno => .fail (mapOpenError errno)

def nameOf (random : Bytes) : FileName :=
  ".bondry-credential-".toList ++ (encodeHex random).map fun digit => Char.ofNat digit.toNat

def temporaryName : Sys FileName := do
  let random : Bytes ← perform .getrandom fun _ => .unavailable
  pure (nameOf random)

/-- What `create_temporary` does with a file it has created. -/
def prepareTemporary (name : FileName) (file : Descriptor) : Sys (FileName × Descriptor) := do
  match ← attempt (.fchmod file credentialMode) with
  | .error errno => do
      let _ ← attempt (.unlinkat name)
      .fail (mapOperationError errno)
  | .ok _ => do
      let _ ← (store.validateCredentialMetadata file).onFailure (attempt (.unlinkat name))
      pure (name, file)

/-- The loop of `create_temporary`, for so many attempts. -/
def createTemporaryIn : Nat → Sys (FileName × Descriptor)
  | 0 => .fail .unavailable
  | attempts + 1 => do
      let name ← temporaryName
      match ← attempt (.openCreate name) with
      | .ok file => store.prepareTemporary name file
      | .error .EEXIST => createTemporaryIn attempts
      | .error errno => .fail (mapOpenError errno)

def createTemporary : Sys (FileName × Descriptor) := store.createTemporaryIn temporaryNameAttempts

/-- `Write::write_all` of `File`. -/
def writeAll (file : Descriptor) (position : Nat) (bytes : Bytes) : Sys Unit :=
  if _hempty : bytes = [] then pure ()
  else do
    let count : Nat ← perform (.write file position bytes) mapIoError
    if _hzero : count = 0 then .fail .unavailable
    else writeAll file (position + count) (bytes.drop count)
termination_by bytes.length
decreasing_by
  have hlength := List.length_pos_iff.mpr _hempty
  rw [List.length_drop]
  omega

/-- `Read::read_to_end` of `Take`: what was read so far, and how much may follow. -/
def readToEnd (file : Descriptor) (bytes : Bytes) (limit : Nat) : Sys Bytes :=
  if _hlimit : limit = 0 then pure bytes
  else do
    let chunk : Bytes ← perform (.read file bytes.length limit) mapIoError
    if _hend : chunk = [] then pure bytes
    else readToEnd file (bytes ++ chunk) (limit - chunk.length)
termination_by limit
decreasing_by
  have hlength := List.length_pos_iff.mpr _hend
  omega

def load (id : CredentialId) : Sys (Option CredentialValue) := do
  match ← store.openCredential id with
  | none => pure none
  | some file => do
      let expectedSize ← store.validatedCredentialSize file
      let bytes ← readToEnd file [] (maxCredentialBytes + 1)
      if bytes.length ≠ expectedSize then .fail .invalidMaterial
      else match CredentialValue.new bytes with
        | some value => pure (some value)
        | none => .fail .invalidMaterial

/-- What `store` does while `TemporaryCredential` is armed. -/
def fillAndRename (id : CredentialId) (value : CredentialValue) (name : FileName) (file : Descriptor) :
    Sys Unit := do
  writeAll file 0 value.bytes
  perform (.fsync file) mapIoError
  perform (.renameat name id.value) mapOperationError

/-- `CredentialStore::store`: the guard unlinks the file on any failure before it is disarmed. -/
def storeCredential (id : CredentialId) (value : CredentialValue) : Sys Unit := do
  let _ ← store.openCredential id
  let (name, file) ← store.createTemporary
  (fillAndRename id value name file).onFailure (attempt (.unlinkat name))
  perform .fsyncDirectory mapOperationError

def delete (id : CredentialId) : Sys Bool := do
  match ← store.openCredential id with
  | none => pure false
  | some _ => do
      perform (.unlinkat id.value) mapOperationError
      perform .fsyncDirectory mapOperationError
      pure true

end UnixFileCredentialStore

end Bondry.Credential
