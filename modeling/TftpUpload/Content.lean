/-
  TftpUpload/Content.lean
  =======================
  **What a file holds.**

  The bytes of a file are kept as the pieces in which they were written, so that
  a write at the end does not copy what is there.  The view of a content is its
  list of bytes; `bytes_append` and `bytes_write` say what writing does to it.
-/
import TftpUpload.Wire.Message

namespace TftpUpload

/-- Bytes as the pieces in which they came. -/
structure Content where
  /-- Newest first. -/
  pieces : List Bytes
  size : Nat
  size_eq : pieces.flatten.length = size
deriving DecidableEq, Repr

namespace Content

def empty : Content := ⟨[], 0, rfl⟩

def ofBytes (bytes : Bytes) : Content := ⟨[bytes], bytes.length, by simp⟩

/-- The bytes, first to last. -/
def bytes (c : Content) : Bytes := c.pieces.reverse.flatten

@[simp]
theorem bytes_empty : empty.bytes = [] := rfl

@[simp]
theorem bytes_ofBytes (bytes : Bytes) : (ofBytes bytes).bytes = bytes := by
  simp [Content.bytes, ofBytes]

theorem length_bytes (c : Content) : c.bytes.length = c.size := by
  rw [← c.size_eq, bytes, (List.reverse_perm c.pieces).flatten.length_eq]

/-! ### Writing -/

def append (c : Content) (piece : Bytes) : Content :=
  ⟨piece :: c.pieces, c.size + piece.length, by simp [c.size_eq, Nat.add_comm]⟩

@[simp]
theorem bytes_append (c : Content) (piece : Bytes) :
    (c.append piece).bytes = c.bytes ++ piece := by
  simp [bytes, append]

/-- What comes of a write at a position.  A gap is filled with zeros. -/
def overwrite (old : Bytes) (position : Nat) (new : Bytes) : Bytes :=
  old.take position ++ List.replicate (position - old.length) 0 ++ new
    ++ old.drop (position + new.length)

theorem overwrite_end (old new : Bytes) : overwrite old old.length new = old ++ new := by
  simp [overwrite]

def write (c : Content) (position : Nat) (new : Bytes) : Content :=
  if position = c.size then c.append new else ofBytes (overwrite c.bytes position new)

theorem bytes_write (c : Content) (position : Nat) (new : Bytes) :
    (c.write position new).bytes = overwrite c.bytes position new := by
  unfold write
  split
  · rename_i h
    rw [bytes_append, h, ← c.length_bytes, overwrite_end]
  · exact bytes_ofBytes _

/-! ### The end of a content -/

/-- Pieces from the newest back until they hold `n` bytes. -/
def newest : Nat → List Bytes → List Bytes
  | _, [] => []
  | n, piece :: older =>
    if n ≤ piece.length then [piece] else piece :: newest (n - piece.length) older

/-- The last `n` bytes, or all if there are fewer. -/
def tail (c : Content) (n : Nat) : Bytes :=
  let kept := (newest n c.pieces).reverse.flatten
  kept.drop (kept.length - n)

end Content

end TftpUpload
