/-
  TftpUpload/Transfer/Failure.lean
  ================================
  **The ways a transfer ends badly.**

  A failure has a text for people, a code for records, and at most one ERROR
  packet that tells the peer.  Nothing is told to a peer that reported the
  failure itself, that cannot be reached, or that stopped answering.
-/
import TftpUpload.Fault
import TftpUpload.Wire.Decode
import TftpUpload.Wire.Encode

namespace TftpUpload.Transfer

open Wire

inductive Failure where
  | transport (fault : Fault)
  /-- The source could not be read, or the destination not be removed. -/
  | storage (fault : Fault)
  | decode (error : DecodeError)
  | encode (error : EncodeError)
  /-- A well-formed packet came that is not allowed at this point. -/
  | protocol (complaint : String)
  | remote (code : ErrorCode) (text : String)
  | rejected (code : ErrorCode) (text : String)
  | timeout (attempts : Nat)
  | cancelled
  /-- The task that ran the transfer broke off. -/
  | panicked (text : String)
deriving DecidableEq, Repr

namespace Failure

def message : Failure → String
  | transport fault => "transport error: " ++ fault.message
  | storage fault => "storage error: " ++ fault.message
  | decode e => "malformed packet: " ++ e.message
  | encode e => "cannot encode packet: " ++ e.message
  | protocol complaint => "protocol violation: " ++ complaint
  | remote code text => "peer reported " ++ code.label ++ ": " ++ text
  | rejected code text => "refused with " ++ code.label ++ ": " ++ text
  | timeout attempts => "no response after " ++ toString attempts ++ " attempts"
  | cancelled => "transfer cancelled"
  | panicked text => "transfer task panicked: " ++ text

/-- The error code that describes the failure best. -/
def code : Failure → ErrorCode
  | decode _ => .illegalOperation
  | protocol _ => .illegalOperation
  | remote code _ => code
  | rejected code _ => code
  | transport _ => .notDefined
  | storage _ => .notDefined
  | encode _ => .notDefined
  | timeout _ => .notDefined
  | cancelled => .notDefined
  | panicked _ => .notDefined

/-- The ERROR that tells the peer before the transfer is torn down. -/
def reply : Failure → Option Message
  | decode e => some (.error .illegalOperation e.message)
  | protocol complaint => some (.error .illegalOperation complaint)
  | rejected code text => some (.error code text)
  | storage fault => some (.error .notDefined fault.message)
  | cancelled => some (.error .notDefined "transfer cancelled")
  | transport _ => none
  | encode _ => none
  | remote .. => none
  | timeout _ => none
  | panicked _ => none

/-- The datagram that tells the peer, if there is something to tell and it can be written. -/
def farewell (f : Failure) : Option Bytes := f.reply.bind packet?

/-- Whatever the peer is told, it is told as an ERROR. -/
theorem opcode_of_reply {f : Failure} {m : Message} (h : f.reply = some m) :
    m.opcode = .error := by
  cases f <;> simp only [reply] at h <;> cases h <;> rfl

end Failure

end TftpUpload.Transfer
