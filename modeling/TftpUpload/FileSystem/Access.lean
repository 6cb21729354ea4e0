/-
  TftpUpload/FileSystem/Access.lean
  =================================
  **Opening, writing, reading and removing files.**

  A file that is opened for writing is emptied, or made if nothing is there; the
  directory it belongs in has to exist, and no slash may follow its name.  A
  write goes to the place where the last one ended, whatever has happened to the
  file since.  Removing takes the entry away, and a link rather than what it
  leads to.
-/
import TftpUpload.FileSystem.Walk

namespace TftpUpload

structure OpenFile where
  id : Nat
  position : Nat
deriving DecidableEq, Repr

namespace FileSystem

/-! ### Writing

A walk that makes a file follows the link under the last name, so the file may be made elsewhere
than the name stands. -/

/-- Opens the file at a spot that a walk has reached. -/
def createAt (fs : FileSystem) : Spot → Except Errno OpenFile × FileSystem
  | .directory _ => (.error .isADirectory, fs)
  | .name _ _ true => (.error .isADirectory, fs)
  | .name parent last false =>
    match fs.node? (parent ++ [last]) with
    | none => (.ok ⟨fs.nextFile, 0⟩, fs.insertFile (parent ++ [last]) [])
    | some (.file id) => (.ok ⟨id, 0⟩, fs.setContent id .empty)
    | some .directory => (.error .isADirectory, fs)
    | some (.link _) => (.error .tooManyLinks, fs)

def create (fs : FileSystem) (here : Location) (path : String) :
    Except Fault OpenFile × FileSystem :=
  match fs.approach .followedUnlessSlashed here path with
  | .error fault => (.error fault, fs)
  | .ok spot =>
    match fs.createAt spot with
    | (.ok file, fs') => (.ok file, fs')
    | (.error errno, fs') => (.error (.os errno), fs')

def write (fs : FileSystem) (file : OpenFile) (bytes : Bytes) : OpenFile × FileSystem :=
  (⟨file.id, file.position + bytes.length⟩,
    fs.setContent file.id ((fs.content file.id).write file.position bytes))

/-! ### Removing

A walk that removes keeps the link, so what is removed stands under the name itself. -/

/-- Removes the entry at a spot that a walk has reached. -/
def unlinkAt (fs : FileSystem) : Spot → Except Errno Unit × FileSystem
  | .directory _ => (.error .isADirectory, fs)
  | .name parent last slashed =>
    match fs.node? (parent ++ [last]) with
    | none => (.error .noEntry, fs)
    | some .directory => (.error .isADirectory, fs)
    | some _ =>
      if slashed then (.error .notADirectory, fs) else (.ok (), fs.without (parent ++ [last]))

def unlink (fs : FileSystem) (here : Location) (path : String) : Except Fault Unit × FileSystem :=
  match fs.approach .kept here path with
  | .error fault => (.error fault, fs)
  | .ok spot =>
    match fs.unlinkAt spot with
    | (.ok (), fs') => (.ok (), fs')
    | (.error errno, fs') => (.error (.os errno), fs')

/-! ### Reading -/

/-- What opening a path for reading gives. -/
inductive Opened where
  | contents (bytes : Bytes)
  /-- A directory can be opened, but not read. -/
  | directory
deriving DecidableEq, Repr

/-- What opening the path of a file for reading gives, wherever the file is. -/
abbrev Opener := String → Except Fault Opened

def openFile (fs : FileSystem) (here : Location) : Opener := fun path =>
  match fs.entry here path with
  | .error fault => .error fault
  | .ok l =>
    match fs.node? l with
    | some (.file id) => .ok (.contents (fs.fileBytes id))
    | _ => .ok .directory

def Opener.read (openFile : Opener) (path : String) : Except Fault Bytes :=
  match openFile path with
  | .error fault => .error fault
  | .ok (.contents bytes) => .ok bytes
  | .ok .directory => .error (.os .isADirectory)

def Opener.findsDirectory (openFile : Opener) (path : String) : Bool :=
  match openFile path with
  | .ok .directory => true
  | _ => false

end FileSystem

end TftpUpload
