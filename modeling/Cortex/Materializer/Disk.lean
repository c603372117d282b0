import Cortex.Control.Errors
import Cortex.Library.Crash
import Mathlib.Logic.Function.Basic

/-!
# The files of one materialization

An operation publishes four files: its own manifest, the manifest of its target,
its publish intent and at last the artifact.  Each of them is written under a
pending name, linked to its final name, and then loses the pending one.

A name leads to an inode, which counts its links; two names of one file lead to
the same inode.  The steps are those of the file system, and a file is written
byte by byte, so that a crash may leave any prefix of it.
-/

namespace Cortex.Materializer

open Control Transaction Procedure

abbrev Bytes := List UInt8

/-- The files of an operation. -/
inductive Part
  | operation | target | publish | artifact
  deriving DecidableEq

/-- How messages name a manifest. -/
def Part.label : Part → String
  | operation => "operation"
  | target => "target"
  | publish => "publish intent"
  | artifact => "artifact"

inductive Lock
  | operation | target
  deriving DecidableEq

/-- The names of an operation's files: `<name>.json.new` of a manifest and `<operation>.part` of
the artifact are pending. -/
inductive Name
  | pending (part : Part)
  | final (part : Part)
  | lock (lock : Lock)
  deriving DecidableEq

/-- The directories of the private area, and those above the target. -/
inductive Folder
  | administration | operations | targets | staging | publish | locks
  | parent (depth : ℕ)
  deriving DecidableEq

/-- A file, by the name it was created under and the files that were created before it. -/
structure Inode where
  createdAs : Name
  serial : ℕ
  deriving DecidableEq

structure Disk where
  folders : Folder → Bool
  entry : Name → Option Inode
  bytes : Inode → Bytes
  links : Inode → ℕ
  created : ℕ

inductive MaterializerError
  | materializer (message : String)
  | conflict (message : String)
  | integrity (message : String)
  | unsafeLinkCount (name : Name)
  | exceedsLimit (name : Name)
  | fileExists
  | fileNotFound
  deriving DecidableEq

/-- A call on the disk. -/
abbrev M := Procedure Disk MaterializerError

/-- `_MANIFEST_LIMIT`. -/
def manifestLimit : ℕ := 64 * 1024

/-! ## Steps of the file system -/

/-- `_open_directory` with `create=True`. -/
def openDirectory (folder : Folder) : M Unit := do
  let d ← read
  if d.folders folder then pure ()
  else write fun d => { d with folders := Function.update d.folders folder true }

/-- A new and empty file under a name. -/
def Disk.create (d : Disk) (name : Name) : Disk :=
  { d with
    entry := Function.update d.entry name (some ⟨name, d.created⟩)
    bytes := Function.update d.bytes ⟨name, d.created⟩ []
    links := Function.update d.links ⟨name, d.created⟩ 1
    created := d.created + 1 }

/-- One byte more at the end of a file. -/
def Disk.append (d : Disk) (inode : Inode) (byte : UInt8) : Disk :=
  { d with bytes := Function.update d.bytes inode (d.bytes inode ++ [byte]) }

/-- A second name of a file. -/
def Disk.link (d : Disk) (inode : Inode) (name : Name) : Disk :=
  { d with
    entry := Function.update d.entry name (some inode)
    links := Function.update d.links inode (d.links inode + 1) }

/-- A name less of a file. -/
def Disk.unlink (d : Disk) (inode : Inode) (name : Name) : Disk :=
  { d with
    entry := Function.update d.entry name none
    links := Function.update d.links inode (d.links inode - 1) }

section Entries

variable (d : Disk) (name other : Name) (inode : Inode)

theorem Disk.entry_create (h : other ≠ name) : (d.create name).entry other = d.entry other :=
  Function.update_of_ne h ..

theorem Disk.entry_link (h : other ≠ name) : (d.link inode name).entry other = d.entry other :=
  Function.update_of_ne h ..

theorem Disk.entry_unlink (h : other ≠ name) : (d.unlink inode name).entry other = d.entry other :=
  Function.update_of_ne h ..

end Entries

/-- `os.open` with `O_CREAT | O_EXCL`. -/
def create (name : Name) : M Inode := do
  let d ← read
  if (d.entry name).isSome then raise .fileExists
  else do
    write fun d => d.create name
    pure ⟨name, d.created⟩

/-- `_write_all`. -/
def writeAll (inode : Inode) (value : Bytes) : M Unit :=
  each (fun byte => write fun d => d.append inode byte) value

/-- `os.link`. -/
def link (source target : Name) : M Unit := do
  let d ← read
  let inode ← lift (orRaise (d.entry source) .fileNotFound)
  if (d.entry target).isSome then raise .fileExists
  else write fun d => d.link inode target

/-- `os.unlink`. -/
def unlink (name : Name) : M Unit := do
  let d ← read
  let inode ← lift (orRaise (d.entry name) .fileNotFound)
  write fun d => d.unlink inode name

/-- `_entry_exists`. -/
def Disk.exists (d : Disk) (name : Name) : Bool := (d.entry name).isSome

/-- `_read_regular`. -/
def Disk.readRegular (d : Disk) (name : Name) (limit : ℕ) (requireSingleLink : Bool) :
    Except MaterializerError Bytes := do
  let inode ← orRaise (d.entry name) .fileNotFound
  require (requireSingleLink = true → d.links inode = 1) (.unsafeLinkCount name)
  require ((d.bytes inode).length ≤ limit) (.exceedsLimit name)
  pure (d.bytes inode)

/-- `_read_regular` of the disk as it is. -/
def readRegular (name : Name) (limit : ℕ) (requireSingleLink : Bool) : M Bytes := do
  let d ← read
  lift (d.readRegular name limit requireSingleLink)

end Cortex.Materializer
