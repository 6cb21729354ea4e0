/-
  TftpUpload/Storage/Directory.lean
  =================================
  **A directory as a storage.**

  Files are kept below a root directory.  A name that is empty, absolute, or
  goes up is refused.  If the directory that a file would lie in exists, it is
  located with all links followed, and has to lie below the root.  Nothing is
  said about the file itself: a link in its place is followed.

  Beside what the tree forbids, a disk may have faults of its own: it is full, or
  worn out, or somebody else's.
-/
import TftpUpload.FileSystem.Access
import TftpUpload.Storage.Basic

namespace TftpUpload.Storage

/-- A root directory, as a path from the directory `here`. -/
structure Directory where
  root : String
  here : Location := []
deriving DecidableEq, Repr

namespace Directory

def emptyName : Refusal := .accessViolation "empty filename"

def outside (filename : String) : Refusal :=
  .accessViolation ("'" ++ filename ++ "' is outside the storage root")

/-- The parent of a path, if it can be located, lies below the root. -/
def confine (root filename path : String) (locate : String → Except Fault Location) :
    Except Refusal Unit :=
  match (Path.parent? path).map locate with
  | some (.ok parent) =>
    match locate root with
    | .error fault => .error (.fault fault)
    | .ok top => if top.isPrefixOf parent then .ok () else .error (outside filename)
  | _ => .ok ()

/-- The path under which a file of the given name is kept below a root.  `locate` follows all
links. -/
def resolveVia (root filename : String) (locate : String → Except Fault Location) :
    Except Refusal String :=
  if filename.isEmpty then .error emptyName
  else if Path.isDescending filename then
    let path := Path.join root filename
    match confine root filename path locate with
    | .error refusal => .error refusal
    | .ok () => .ok path
  else .error (outside filename)

def resolve (d : Directory) (filename : String) (fs : FileSystem) : Except Refusal String :=
  resolveVia d.root filename (fs.locate d.here)

def create (d : Directory) (filename : String) (fs : FileSystem) :
    Except Refusal OpenFile × FileSystem :=
  match d.resolve filename fs with
  | .error refusal => (.error refusal, fs)
  | .ok path =>
    match fs.create d.here path with
    | (.ok file, fs') => (.ok file, fs')
    | (.error fault, fs') => (.error (.fault fault), fs')

/-- Removes a file.  It is no fault if there is none. -/
def discard (d : Directory) (filename : String) (fs : FileSystem) :
    Except Refusal Unit × FileSystem :=
  match d.resolve filename fs with
  | .error refusal => (.error refusal, fs)
  | .ok path =>
    match fs.unlink d.here path with
    | (.ok (), fs') => (.ok (), fs')
    | (.error fault, fs') =>
      if fault = .os .noEntry then (.ok (), fs') else (.error (.fault fault), fs')

end Directory

/-- How a disk fails where its tree alone would let an operation succeed.  One that never fails is
the default. -/
structure Faults where
  create : String → FileSystem → Option Errno := fun _ _ => none
  /-- With the number of bytes that are stored all the same. -/
  write : OpenFile → Bytes → FileSystem → Option (Errno × Nat) := fun _ _ _ => none
  flush : OpenFile → FileSystem → Option Errno := fun _ _ => none
  discard : String → FileSystem → Option Errno := fun _ _ => none

namespace Directory

/-- The storage below the root.  A write that does not fail accepts everything. -/
def storage (d : Directory) (faults : Faults := {}) : Storage FileSystem OpenFile where
  create filename fs :=
    match faults.create filename fs, d.create filename fs with
    | some errno, (.ok _, _) => (.error (.fault (.os errno)), fs)
    | _, made => made
  write file bytes fs :=
    match faults.write file bytes fs with
    | some (errno, stored) => (.error (.os errno), (fs.write file (bytes.take stored)).2)
    | none =>
      let (file', fs') := fs.write file bytes
      (.ok (bytes.length, file'), fs')
  flush file fs :=
    match faults.flush file fs with
    | some errno => (.error (.os errno), fs)
    | none => (.ok (), fs)
  discard filename fs :=
    match faults.discard filename fs, d.discard filename fs with
    | some errno, (.ok (), _) =>
      if errno = .noEntry then (.ok (), fs) else (.error (.fault (.os errno)), fs)
    | _, removed => removed

end Directory

end TftpUpload.Storage
