/-
  TftpUpload/Sender/Basic.lean
  ============================
  **The sending side: which packet is out, and what answers it.**

  A sender has one packet out at a time.  It sends the request until block 0 is
  acknowledged, then block after block, each until its own number is
  acknowledged; an acknowledgement of another number makes it send its packet
  again, as silence does.  One packet is sent at most `ceiling` times.  The
  transfer is done when a block that is not full is acknowledged, so a source
  that fills its last block is followed by an empty one.  Block numbers are
  words and start again at 0 after 65535.
-/
import TftpUpload.Transfer.Basic

namespace TftpUpload

open Wire Transfer

namespace Sender

inductive Phase where
  | start
  | awaitHandshake
  /-- The block may be read and sent. -/
  | ready (block : UInt16)
  | awaitAck (block : UInt16)
  | done
  | failed
deriving DecidableEq, Repr

def Phase.label : Phase → String
  | start => "Start"
  | awaitHandshake => "AwaitHandshakeAck"
  | ready block => "SendBlock(" ++ toString block.toNat ++ ")"
  | awaitAck block => "AwaitAck(" ++ toString block.toNat ++ ")"
  | done => "Done"
  | failed => "Failed"

inductive Step where
  | readBlock
  | resend (m : Message)
  | wait
  | done
  | giveUp (attempts : Nat)
deriving DecidableEq, Repr

end Sender

/-- A packet that is not allowed in the named state. -/
def Transfer.Failure.unexpected (m : Message) (state : String) : Failure :=
  .protocol ("unexpected " ++ m.opcode.name ++ " in state " ++ state)

structure Sender where
  phase : Sender.Phase
  nextBlock : UInt16
  lastSent : Option Message
  /-- How often the last packet has been sent. -/
  attempts : Nat
  ceiling : Nat
  blocks : Nat
  /-- Bytes sent, each block counted once. -/
  bytes : Nat
deriving DecidableEq, Repr

namespace Sender

/-- A sender that may send each packet `maxRetries` times, and at least once. -/
def new (maxRetries : Nat) : Sender where
  phase := .start
  nextBlock := 1
  lastSent := none
  attempts := 0
  ceiling := max maxRetries 1
  blocks := 0
  bytes := 0

/-- The packet that goes out now for the first time. -/
def remember (s : Sender) (m : Message) : Sender :=
  let sent := { s with lastSent := some m, attempts := 1 }
  match m with
  | .data _ payload => { sent with bytes := s.bytes + payload.length }
  | _ => sent

def request (s : Sender) (filename mode : String) : Sender × Message :=
  let m := .writeRequest filename mode
  ({ s.remember m with phase := .awaitHandshake }, m)

/-- Puts the next piece of the source, of at most 512 bytes, in a packet. -/
def block (s : Sender) (payload : Bytes) : Sender × Message :=
  let m := .data s.nextBlock payload
  ({ s.remember m with phase := .awaitAck s.nextBlock }, m)

def advance (s : Sender) (n : UInt16) : Sender :=
  { s with nextBlock := n, phase := .ready n }

/-- Sends the packet again, unless it has been sent often enough. -/
def retransmit (s : Sender) : Sender × Step :=
  match s.lastSent with
  | none => (s, .wait)
  | some m =>
    if s.ceiling ≤ s.attempts then ({ s with phase := .failed }, .giveUp s.attempts)
    else ({ s with attempts := s.attempts + 1 }, .resend m)

/-- The packet that is out ends the transfer. -/
def lastIsTerminal (s : Sender) : Bool :=
  match s.lastSent with
  | some m => m.isTerminal
  | none => false

/-- An acknowledgement of block `n` came while block `expected` is out. -/
def acknowledged (s : Sender) (expected n : UInt16) : Sender × Step :=
  if n = expected then
    let counted := { s with blocks := s.blocks + 1 }
    if s.lastIsTerminal then ({ counted with phase := .done }, .done)
    else (counted.advance (expected + 1), .readBlock)
  else
    s.retransmit

def receive (s : Sender) (m : Message) : Sender × Except Failure Step :=
  match s.phase, m with
  | _, .error code text => ({ s with phase := .failed }, .error (.remote code text))
  | .awaitHandshake, .ack n =>
    if n = 0 then (s.advance 1, .ok .readBlock) else (s, .ok .wait)
  | .awaitAck expected, .ack n =>
    let (s', step) := s.acknowledged expected n
    (s', .ok step)
  | phase, m => ({ s with phase := .failed }, .error (.unexpected m phase.label))

/-- The peer was silent for a full interval. -/
def silence (s : Sender) : Sender × Step :=
  match s.phase with
  | .awaitHandshake => s.retransmit
  | .awaitAck _ => s.retransmit
  | _ => (s, .wait)

end Sender

end TftpUpload
