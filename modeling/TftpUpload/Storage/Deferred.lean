/-
  TftpUpload/Storage/Deferred.lean
  ================================
  **A storage whose operations are carried out elsewhere.**

  What an operation comes to is taken from a list of answers.  Once the list is
  used up, the operation is kept as the one that has to be carried out next.
  Whoever runs a step over this storage carries it out, adds its answer to the
  list, and runs the step again from where it began.  A step that leaves no
  operation behind has been answered in full: `perform_answered`.
-/
import TftpUpload.Storage.Basic

namespace TftpUpload.Storage

/-- What a storage is asked to do.  An open file goes by a number. -/
inductive Operation where
  | create (filename : String)
  | write (file : Nat) (bytes : Bytes)
  | flush (file : Nat)
  | discard (filename : String)
deriving DecidableEq, Repr

inductive Answer where
  | opened (file : Nat)
  | done
  | refused (refusal : Refusal)
  | failed (fault : Fault)
deriving DecidableEq, Repr

/-- The answers to the operations to come, and the first operation that has none. -/
structure Deferred where
  answers : List Answer
  next : Option Operation := none
deriving DecidableEq, Repr

namespace Deferred

/-- Stands for an answer that is not known. -/
def unanswered : Fault := .stated "not carried out"

/-- Takes the answer to an operation. -/
def perform (d : Deferred) (operation : Operation) : Answer × Deferred :=
  match d.answers with
  | answer :: rest => (answer, { d with answers := rest })
  | [] => (.failed unanswered, { d with next := d.next.or (some operation) })

/-- Where no operation is left behind, the answer was a known one. -/
theorem perform_answered {d : Deferred} {operation : Operation}
    (h : (d.perform operation).2.next = none) : (d.perform operation).1 ∈ d.answers := by
  unfold perform at h ⊢
  split
  · rename_i answer rest heq
    simp [heq]
  · rename_i heq
    simp [heq] at h

def create (filename : String) (d : Deferred) : Except Refusal Nat × Deferred :=
  match d.perform (.create filename) with
  | (.opened file, d') => (.ok file, d')
  | (.refused refusal, d') => (.error refusal, d')
  | (.failed fault, d') => (.error (.fault fault), d')
  | (.done, d') => (.error (.fault unanswered), d')

def outcome : Answer → Except Fault Unit
  | .failed fault => .error fault
  | .refused refusal => .error (.stated refusal.message)
  | _ => .ok ()

def write (file : Nat) (bytes : Bytes) (d : Deferred) : Except Fault (Nat × Nat) × Deferred :=
  let (answer, d') := d.perform (.write file bytes)
  ((outcome answer).map fun _ => (bytes.length, file), d')

def flush (file : Nat) (d : Deferred) : Except Fault Unit × Deferred :=
  let (answer, d') := d.perform (.flush file)
  (outcome answer, d')

def discard (filename : String) (d : Deferred) : Except Refusal Unit × Deferred :=
  match d.perform (.discard filename) with
  | (.refused refusal, d') => (.error refusal, d')
  | (.failed fault, d') => (.error (.fault fault), d')
  | (_, d') => (.ok (), d')

def storage : Storage Deferred Nat := ⟨create, write, flush, discard⟩

end Deferred

end TftpUpload.Storage
