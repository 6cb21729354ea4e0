/-
  TftpUpload/Receiver/Session.lean
  ================================
  **The receiving side: which block comes next, and what is acknowledged.**

  A session is fed the packets of one peer.  The request creates the
  destination; then block after block is written and acknowledged.  With `last`
  the block acknowledged most recently:

    * DATA `last` is a repetition: acknowledged again, not written;
    * DATA `last + 1` is written and acknowledged, and if it is not full it
      completes the transfer once the destination is flushed;
    * any other block number is a violation;
    * a repeated request while `last` is 0 is answered by ACK 0 again;
    * an ERROR ends the session.

  A failure closes the destination.  A session that is complete stays complete,
  and repeats its last acknowledgement as often as the last block comes again.
-/
import TftpUpload.Sender.Basic
import TftpUpload.Storage.Basic

namespace TftpUpload

open Wire Transfer

namespace Session

inductive Phase where
  | new
  | opening
  | receiving (last : UInt16)
  | complete (last : UInt16)
  | failed
deriving DecidableEq, Repr

def Phase.label : Phase → String
  | new => "New"
  | opening => "Open"
  | receiving last => "Receiving \x7b last: " ++ toString last.toNat ++ " \x7d"
  | complete last => "Complete \x7b last: " ++ toString last.toNat ++ " \x7d"
  | failed => "Failed"

inductive Step where
  | reply (m : Message)
  /-- The last acknowledgement: everything is written and flushed. -/
  | complete (m : Message)
deriving DecidableEq, Repr

end Session

/-- One inbound transfer, with a destination of type `κ`. -/
structure Session (κ : Type) where
  phase : Session.Phase := .new
  /-- The destination, while it is open. -/
  destination : Option κ := none
  /-- The name of the destination, once it has been created. -/
  filename : Option String := none
  /-- The block acknowledged most recently. -/
  lastAcked : UInt16 := 0
  blocks : Nat := 0
  bytes : Nat := 0
deriving DecidableEq, Repr

namespace Session

variable {σ κ : Type}

def writeFailed (fault : Fault) : Failure := .rejected .diskFull fault.message

def unexpectedBlock (expected got : UInt16) : Failure :=
  .protocol ("expected block " ++ toString expected.toNat ++ ", got " ++ toString got.toNat)

def accept (st : Storage σ κ) (s : Session κ) (filename : String) (store : σ) :
    Session κ × Except Failure Step × σ :=
  match st.create filename store with
  | (.error refusal, store') =>
    ({ s with phase := .opening }, .error (.rejected refusal.code refusal.message), store')
  | (.ok k, store') =>
    ({ s with phase := .receiving 0, destination := some k, filename := some filename },
      .ok (.reply (.ack 0)), store')

def counted (s : Session κ) (k : κ) (block : UInt16) (payload : Bytes) : Session κ :=
  { s with
    destination := some k
    lastAcked := block
    blocks := s.blocks + 1
    bytes := s.bytes + payload.length }

def write (st : Storage σ κ) (s : Session κ) (block : UInt16) (payload : Bytes) (store : σ) :
    Session κ × Except Failure Step × σ :=
  match s.destination with
  | none => (s, .error (.protocol "destination is closed"), store)
  | some k =>
    match st.writeAll k payload store with
    | (.error fault, store') => (s, .error (writeFailed fault), store')
    | (.ok k', store') =>
      let written := s.counted k' block payload
      if payload.length < blockSize then
        match st.flush k' store' with
        | (.error fault, store'') => (written, .error (writeFailed fault), store'')
        | (.ok (), store'') =>
          ({ written with phase := .complete block, destination := none },
            .ok (.complete (.ack block)), store'')
      else
        ({ written with phase := .receiving block }, .ok (.reply (.ack block)), store')

/-- What a packet does, apart from the end of a session that fails. -/
def advance (st : Storage σ κ) (s : Session κ) (m : Message) (store : σ) :
    Session κ × Except Failure Step × σ :=
  match s.phase, m with
  | _, .error code text => (s, .error (.remote code text), store)
  | .new, .writeRequest filename _ => s.accept st filename store
  | .receiving last, .writeRequest _ _ =>
    if last = 0 then (s, .ok (.reply (.ack 0)), store)
    else (s, .error (.unexpected m s.phase.label), store)
  | .receiving last, .data block payload =>
    if block = last then (s, .ok (.reply (.ack last)), store)
    else if block = last + 1 then s.write st block payload store
    else (s, .error (unexpectedBlock (last + 1) block), store)
  | .complete last, .data block _ =>
    if block = last then (s, .ok (.reply (.ack last)), store)
    else (s, .error (.unexpected m s.phase.label), store)
  | _, _ => (s, .error (.unexpected m s.phase.label), store)

/-- A session that is not complete has failed, and its destination is closed. -/
def fail (s : Session κ) : Session κ :=
  match s.phase with
  | .complete _ => s
  | _ => { s with phase := .failed, destination := none }

def step (st : Storage σ κ) (s : Session κ) (m : Message) (store : σ) :
    Session κ × Except Failure Step × σ :=
  match s.advance st m store with
  | (s', .ok answer, store') => (s', .ok answer, store')
  | (s', .error failure, store') => (s'.fail, .error failure, store')

/-- What is sent again after silence. -/
def repetition (s : Session κ) : Message := .ack s.lastAcked

def summary (s : Session κ) : Summary := ⟨s.filename.getD "", s.blocks, s.bytes⟩

end Session

end TftpUpload
