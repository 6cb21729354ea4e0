/-
  TftpUpload/Wire/Encode.lean
  ===========================
  **Writing a message into a buffer.**

  A buffer has a fixed capacity.  Pieces are put one after the other, each as a
  whole or not at all, so the first one that does not fit stops the writing and
  leaves everything from there on as it was.  A text is looked through for zero
  bytes before any of it is put.  `length_put` says that a buffer keeps its
  capacity and `take_put` that what was written before stays written.
-/
import TftpUpload.Wire.Form

namespace TftpUpload.Wire

inductive EncodeError where
  /-- A piece would end at offset `needed`, beyond the buffer's capacity. -/
  | bufferTooSmall (needed capacity : Nat)
  /-- The named text holds a zero byte. -/
  | interiorNul (field : String)
deriving DecidableEq, Repr

def EncodeError.message : EncodeError → String
  | bufferTooSmall needed capacity =>
    "buffer too small: need " ++ toString needed ++ " bytes, have " ++ toString capacity
  | interiorNul field => field ++ " contains an interior NUL byte"

/-- A buffer of which the first `used` bytes are written. -/
structure Writer where
  buffer : Bytes
  used : Nat
deriving DecidableEq, Repr

namespace Writer

def put (w : Writer) (piece : Bytes) : Except EncodeError Writer :=
  let needed := w.used + piece.length
  if needed ≤ w.buffer.length then
    .ok ⟨w.buffer.take w.used ++ piece ++ w.buffer.drop needed, needed⟩
  else
    .error (.bufferTooSmall needed w.buffer.length)

theorem length_put {w w' : Writer} {piece : Bytes} (hused : w.used ≤ w.buffer.length)
    (h : w.put piece = .ok w') : w'.buffer.length = w.buffer.length := by
  simp only [put] at h
  split at h
  · cases h
    simp only [List.length_append, List.length_take, List.length_drop]
    omega
  · cases h

theorem take_put {w w' : Writer} {piece : Bytes} (hused : w.used ≤ w.buffer.length)
    (h : w.put piece = .ok w') : w'.buffer.take w'.used = w.buffer.take w.used ++ piece := by
  simp only [put] at h
  split at h
  · cases h
    rw [List.take_append_of_le_length (by simp only [List.length_append, List.length_take]; omega)]
    apply List.take_of_length_le
    simp only [List.length_append, List.length_take]
    omega
  · cases h

/-- Puts a field.  The writer is also returned when the field does not fit, as far as it got. -/
def putField (w : Writer) : Field → Writer × Except EncodeError Unit
  | .octets bytes =>
    match w.put bytes with
    | .ok w' => (w', .ok ())
    | .error e => (w, .error e)
  | .text name content =>
    let bytes := Text.Utf8.encode content
    if 0 ∈ bytes then (w, .error (.interiorNul name))
    else
      match w.put bytes with
      | .error e => (w, .error e)
      | .ok w' =>
        match w'.put [0] with
        | .ok w'' => (w'', .ok ())
        | .error e => (w', .error e)

/-- Puts fields up to the first that does not fit. -/
def putFields (w : Writer) : List Field → Writer × Except EncodeError Unit
  | [] => (w, .ok ())
  | field :: rest =>
    match w.putField field with
    | (w', .ok ()) => w'.putFields rest
    | (w', .error e) => (w', .error e)

end Writer

/-- Writes a message at the start of a buffer.  Returns the buffer as it then is, and the
length of the packet or the reason why there is none. -/
def encode (m : Message) (buffer : Bytes) : Bytes × Except EncodeError Nat :=
  match Writer.putFields ⟨buffer, 0⟩ m.fields with
  | (w, .ok ()) => (w.buffer, .ok w.used)
  | (w, .error e) => (w.buffer, .error e)

/-- The message as a datagram, written in a buffer that holds any legal packet. -/
def packet (m : Message) : Except EncodeError Bytes :=
  match encode m (List.replicate maxPacketSize 0) with
  | (buffer, .ok length) => .ok (buffer.take length)
  | (_, .error e) => .error e

/-- The message as a datagram, if it can be written. -/
def packet? (m : Message) : Option Bytes :=
  match packet m with
  | .ok datagram => some datagram
  | .error _ => none

end TftpUpload.Wire
