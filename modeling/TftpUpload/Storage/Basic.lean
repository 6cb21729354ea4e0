/-
  TftpUpload/Storage/Basic.lean
  =============================
  **Where received files are written.**

  A storage creates destinations by name, takes writes through the handle of an
  open one, and removes a destination by name.  Every operation may fail, and a
  write may accept fewer bytes than it is given; `writeAll` goes on until all
  are accepted.  The operations act on a state, so what a storage holds at any
  moment is a value.
-/
import TftpUpload.Fault
import TftpUpload.Wire.Message

namespace TftpUpload

open Wire

namespace Storage

inductive Refusal where
  /-- The name leads out of the storage. -/
  | accessViolation (text : String)
  | fault (fault : Fault)
deriving DecidableEq, Repr

namespace Refusal

def message : Refusal → String
  | accessViolation text => "access violation: " ++ text
  | fault f => f.message

def code : Refusal → ErrorCode
  | accessViolation _ => .accessViolation
  | fault _ => .diskFull

end Refusal

end Storage

/-- A storage with states of type `σ` and handles of type `κ`. -/
structure Storage (σ κ : Type) where
  /-- Makes an empty destination, or empties the one there is, and opens it. -/
  create : String → σ → Except Storage.Refusal κ × σ
  /-- Writes at most the given bytes.  Returns how many of them were accepted. -/
  write : κ → Bytes → σ → Except Fault (Nat × κ) × σ
  flush : κ → σ → Except Fault Unit × σ
  discard : String → σ → Except Storage.Refusal Unit × σ

namespace Storage

variable {σ κ : Type}

/-- Writes until everything is accepted, with at most `turns` writes. -/
def writeWithin (st : Storage σ κ) : Nat → κ → Bytes → σ → Except Fault κ × σ
  | 0, k, _, s => (.ok k, s)
  | turns + 1, k, bytes, s =>
    if bytes.isEmpty then (.ok k, s)
    else
      match st.write k bytes s with
      | (.error fault, s') => (.error fault, s')
      | (.ok (n, k'), s') =>
        if n = 0 then (.error .writeZero, s')
        else st.writeWithin turns k' (bytes.drop n) s'

/-- Writes until everything is accepted.  A write that accepts nothing is an error, so there
are no more writes than bytes; without bytes there is none. -/
def writeAll (st : Storage σ κ) (k : κ) (bytes : Bytes) (s : σ) : Except Fault κ × σ :=
  st.writeWithin bytes.length k bytes s

@[simp]
theorem writeAll_nil (st : Storage σ κ) (k : κ) (s : σ) : st.writeAll k [] s = (.ok k, s) := rfl

end Storage

end TftpUpload
