/-
  TftpUpload/Sender/Source.lean
  =============================
  **A source that is read piece by piece.**

  A read may return fewer bytes than there is room for, and a read at or behind
  a damaged offset fails.  `readChunk` reads until a block is full or the source
  says that it has ended, which is what a read of no bytes means.
-/
import TftpUpload.Fault
import TftpUpload.Wire.Message

namespace TftpUpload

open Wire

/-- Contents that are read from front to back. -/
structure Source where
  rest : Bytes
  offset : Nat := 0
  reads : Nat := 0
  /-- The most that the read of a given number returns. -/
  grant : Nat → Nat := fun _ => blockSize
  damage : Option (Nat × Fault) := none

namespace Source

def fault? (s : Source) : Option Fault :=
  match s.damage with
  | some (start, fault) => if start ≤ s.offset then some fault else none
  | none => none

/-- How many bytes a read with room for `space` returns. -/
def readSize (s : Source) (space : Nat) : Nat :=
  (s.rest.take (min space (s.grant s.reads))).length

def skip (s : Source) (n : Nat) : Source :=
  { s with rest := s.rest.drop n, offset := s.offset + n, reads := s.reads + 1 }

/-- Reads until `space` bytes are read or the source ends, with at most `turns` reads. -/
def fillWithin : Nat → Nat → Source → Except Fault (Bytes × Source)
  | 0, _, s => .ok ([], s)
  | turns + 1, space, s =>
    if space = 0 then .ok ([], s)
    else
      match s.fault? with
      | some fault => .error fault
      | none =>
        let n := s.readSize space
        if n = 0 then .ok ([], s.skip 0)
        else
          match fillWithin turns (space - n) (s.skip n) with
          | .ok (more, s') => .ok (s.rest.take n ++ more, s')
          | .error fault => .error fault

/-- Reads into a buffer with room for `space` bytes until it is full or the source ends.
Every read but the last brings a byte, so `space` reads are enough. -/
def fill (space : Nat) (s : Source) : Except Fault (Bytes × Source) := fillWithin space space s

/-- The next block: 512 bytes, or fewer if the source ends. -/
def readChunk (s : Source) : Except Fault (Bytes × Source) := s.fill blockSize

/-- Contents that are read without delay and without fault. -/
def ofBytes (contents : Bytes) : Source := { rest := contents }

/-- The number of the last block of a source of `size` bytes, or 0 when that is not known or
has no room in a word. -/
def blockCountHint (size : Option Nat) : UInt16 :=
  match size with
  | some n => if n / blockSize + 1 < 65536 then UInt16.ofNat (n / blockSize + 1) else 0
  | none => 0

end Source

end TftpUpload
