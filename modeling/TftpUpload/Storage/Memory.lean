/-
  TftpUpload/Storage/Memory.lean
  ==============================
  **A storage in memory, with faults on request.**

  Files are kept by name.  The faults are those a disk can have: it refuses to
  create a file, it is full, it accepts little at a time, it fails to flush or
  to remove.
-/
import TftpUpload.Content
import TftpUpload.Storage.Basic

namespace TftpUpload.Storage

structure MemoryFile where
  name : String
  content : Content := .empty
deriving DecidableEq, Repr

structure MemoryFaults where
  /-- Nothing may be created; wins over `createError`. -/
  deny : Option String := none
  createError : Option String := none
  capacity : Option Nat := none
  maxWrite : Option Nat := none
  flushError : Option String := none
  /-- Removing fails, after it has been noted. -/
  discardError : Option String := none
deriving DecidableEq, Repr

/-- The files by name, and the names that were to be removed, oldest first. -/
structure Memory where
  files : List MemoryFile := []
  discarded : List String := []
deriving DecidableEq, Repr

namespace Memory

def find? (m : Memory) (name : String) : Option MemoryFile :=
  m.files.find? (·.name == name)

def without (m : Memory) (name : String) : Memory :=
  { m with files := m.files.filter (·.name != name) }

/-- Puts a file in the place of the one of the same name. -/
def put (m : Memory) (f : MemoryFile) : Memory :=
  { m with files := f :: m.files.filter (·.name != f.name) }

def create (faults : MemoryFaults) (name : String) (m : Memory) : Except Refusal String × Memory :=
  match faults.deny, faults.createError with
  | some text, _ => (.error (.accessViolation text), m)
  | none, some text => (.error (.fault (.stated text)), m)
  | none, none => (.ok name, m.put { name })

/-- A file that holds as much as it can. -/
def full : Fault := .stated "No space left on device"

/-- How many bytes a write of `length` bytes to a file of `size` bytes stores.  Nothing is
left of a capacity that is used up. -/
def accepts (faults : MemoryFaults) (size length : Nat) : Except Fault Nat :=
  let offered := min length (faults.maxWrite.getD length)
  match faults.capacity with
  | none => .ok offered
  | some capacity =>
    if capacity ≤ size then .error full else .ok (min offered (capacity - size))

/-- The first `n` bytes, shared with the list they come from when they are all of it. -/
def firstBytes (n : Nat) (bytes : Bytes) : Bytes :=
  if bytes.length ≤ n then bytes else bytes.take n

@[simp]
theorem firstBytes_eq_take (n : Nat) (bytes : Bytes) : firstBytes n bytes = bytes.take n := by
  unfold firstBytes
  split
  · rw [List.take_of_length_le (by assumption)]
  · rfl

def write (faults : MemoryFaults) (name : String) (bytes : Bytes) (m : Memory) :
    Except Fault (Nat × String) × Memory :=
  let f := (m.find? name).getD { name }
  match accepts faults f.content.size bytes.length with
  | .error fault => (.error fault, m)
  | .ok n => (.ok (n, name), m.put { f with content := f.content.append (firstBytes n bytes) })

def flush (faults : MemoryFaults) (_name : String) (m : Memory) : Except Fault Unit × Memory :=
  match faults.flushError with
  | some text => (.error (.stated text), m)
  | none => (.ok (), m)

def discard (faults : MemoryFaults) (name : String) (m : Memory) : Except Refusal Unit × Memory :=
  let noted := { m with discarded := m.discarded ++ [name] }
  match faults.discardError with
  | some text => (.error (.fault (.stated text)), noted)
  | none => (.ok (), noted.without name)

/-- The storage with the given faults.  A handle is the name of its file. -/
def storage (faults : MemoryFaults) : Storage Memory String where
  create := create faults
  write := write faults
  flush := flush faults
  discard := discard faults

end Memory

end TftpUpload.Storage
