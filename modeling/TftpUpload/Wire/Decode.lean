/-
  TftpUpload/Wire/Decode.lean
  ===========================
  **Reading a datagram.**

  `decode` is total: every list of bytes is a message or is refused with the
  first fault in reading order.  A word that does not fit is *truncated*, so is
  a text without its zero byte; an unknown opcode, a text that is not UTF-8 and
  a payload of more than 512 bytes make a *bad message*.  What follows a
  complete request, acknowledgement or error is not looked at.
-/
import TftpUpload.Wire.Form

namespace TftpUpload.Wire

inductive DecodeError where
  /-- A field holds what it must not hold. -/
  | badMessage (complaint : String)
  /-- The datagram ends inside the named field. -/
  | truncated (field : String)
deriving DecidableEq, Repr

def DecodeError.message : DecodeError → String
  | badMessage complaint => "bad message: " ++ complaint
  | truncated field => "truncated " ++ field

/-! ### Zero bytes

A text is cut at its first zero byte.  The offset of this byte, and what is on both sides of it, are
two views of the same search. -/

/-- The first position at or after `start` that holds a zero byte. -/
def findZero (bytes : Bytes) (start : Nat) : Option Nat :=
  ((bytes.drop start).findIdx? (· == 0)).map (start + ·)

/-- What precedes the first zero byte and what follows it. -/
def cutAtZero? : Bytes → Option (Bytes × Bytes)
  | [] => none
  | b :: rest =>
    if b = 0 then some ([], rest)
    else (cutAtZero? rest).map fun (before, after) => (b :: before, after)

theorem cutAtZero?_append (before after : Bytes) (h : 0 ∉ before) :
    cutAtZero? (before ++ 0 :: after) = some (before, after) := by
  induction before with
  | nil => simp [cutAtZero?]
  | cons b before ih =>
    have hb : b ≠ 0 := by
      intro hb
      exact h (by simp [hb])
    have hrest : 0 ∉ before := fun hz => h (List.mem_cons_of_mem _ hz)
    simp [cutAtZero?, hb, ih hrest]

theorem eq_append_of_cutAtZero? {bytes before after : Bytes}
    (h : cutAtZero? bytes = some (before, after)) :
    bytes = before ++ 0 :: after ∧ 0 ∉ before := by
  induction bytes generalizing before with
  | nil => cases h
  | cons b rest ih =>
    simp only [cutAtZero?] at h
    split at h
    · cases h
      simp_all
    · obtain ⟨⟨before', after'⟩, hcut, heq⟩ := Option.map_eq_some_iff.1 h
      cases heq
      obtain ⟨hbytes, hzero⟩ := ih hcut
      refine ⟨by simp [hbytes], ?_⟩
      simp only [List.mem_cons, not_or]
      exact ⟨fun hb => absurd hb.symm (by assumption), hzero⟩

/-! ### Fields

A reader takes a field from the front and hands on the rest, or says which field is missing. -/

/-- Reads a word.  `field` names it in a complaint. -/
def readWord (field : String) : Bytes → Except DecodeError (UInt16 × Bytes)
  | high :: low :: rest => .ok (wordOf high low, rest)
  | _ => .error (.truncated field)

/-- Reads a text up to its zero byte. -/
def readText (field : String) (bytes : Bytes) : Except DecodeError (String × Bytes) :=
  match cutAtZero? bytes with
  | none => .error (.truncated field)
  | some (content, rest) =>
    match Text.Utf8.decode? content with
    | some text => .ok (text, rest)
    | none => .error (.badMessage (field ++ " is not valid UTF-8"))

def readRequestTexts (bytes : Bytes) : Except DecodeError (String × String) := do
  let (filename, rest) ← readText "filename" bytes
  let (mode, _) ← readText "mode" rest
  return (filename, mode)

/-! ### Messages -/

def unknownOpcode (w : UInt16) : DecodeError :=
  .badMessage ("unknown opcode " ++ toString w.toNat)

def oversizedPayload (length : Nat) : DecodeError :=
  .badMessage ("data payload of " ++ toString length ++ " bytes exceeds " ++ toString blockSize)

def decodeBody (op : Opcode) (body : Bytes) : Except DecodeError Message :=
  match op with
  | .readRequest => do
    let (filename, mode) ← readRequestTexts body
    return .readRequest filename mode
  | .writeRequest => do
    let (filename, mode) ← readRequestTexts body
    return .writeRequest filename mode
  | .data => do
    let (block, payload) ← readWord "block number" body
    if payload.length ≤ blockSize then
      return .data block payload
    else
      throw (oversizedPayload payload.length)
  | .ack => do
    let (block, _) ← readWord "block number" body
    return .ack block
  | .error => do
    let (code, rest) ← readWord "error code" body
    let (text, _) ← readText "error message" rest
    return .error ((ErrorCode.ofWord? code).getD .notDefined) text

def decode : Bytes → Except DecodeError Message
  | high :: low :: body =>
    match Opcode.ofWord? (wordOf high low) with
    | some op => decodeBody op body
    | none => .error (unknownOpcode (wordOf high low))
  | _ => .error (.badMessage "header too short")

end TftpUpload.Wire
