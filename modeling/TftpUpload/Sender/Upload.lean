/-
  TftpUpload/Sender/Upload.lean
  =============================
  **Sending one file.**

  An upload drives a `Sender` over an endpoint: it sends the request, waits, and
  reads a block of its source whenever the sender asks for one.  A failure ends
  it; before that the peer is told, if there is something to tell.  A packet
  that cannot be sent ends the upload too, and then the peer is not told.
-/
import TftpUpload.Sender.Basic
import TftpUpload.Sender.Source

namespace TftpUpload

open Wire Transfer

/-- An upload that has sent its request. -/
structure Upload where
  sender : Sender
  source : Source
  filename : String
  /-- The number of the last block, as far as it is known. -/
  hint : UInt16

namespace Upload

inductive Status where
  | waiting (u : Upload)
  /-- Sends a packet, and reports it once it is sent. -/
  | sending (packet : Bytes) (report : Option Progress) (u : Upload)
  /-- Tells the peer why the upload ends. -/
  | parting (packet : Bytes) (failure : Failure)
  | ended (result : Except Failure Summary)

def fail (failure : Failure) : Status :=
  match failure.farewell with
  | some packet => .parting packet failure
  | none => .ended (.error failure)

def transmit (u : Upload) (m : Message) (report : Option Progress) : Status :=
  match packet m with
  | .ok datagram => .sending datagram report u
  | .error e => fail (.encode e)

/-- The upload at its beginning.  `size` is the announced length of the source. -/
def start (filename : String) (source : Source) (size : Option Nat) (settings : Settings) :
    Status :=
  let (sender, m) := (Sender.new settings.maxRetries).request filename settings.mode
  transmit ⟨sender, source, filename, Source.blockCountHint size⟩ m none

def sendBlock (u : Upload) : Status :=
  match u.source.readChunk with
  | .error fault => fail (.storage fault)
  | .ok (chunk, source) =>
    let number := u.sender.nextBlock
    let hint := if chunk.length < blockSize then number else u.hint
    let (sender, m) := u.sender.block chunk
    transmit { u with sender, source, hint } m (some ⟨number, hint⟩)

def summary (u : Upload) : Summary := ⟨u.filename, u.sender.blocks, u.sender.bytes⟩

def follow (u : Upload) : Sender.Step → Status
  | .readBlock => u.sendBlock
  | .resend m => u.transmit m none
  | .wait => .waiting u
  | .done => .ended (.ok u.summary)
  | .giveUp attempts => fail (.timeout attempts)

def arrive (u : Upload) (a : Arrival) : Status :=
  match a.read with
  | .message m =>
    match u.sender.receive m with
    | (sender, .ok step) => { u with sender }.follow step
    | (_, .error failure) => fail failure
  | .silence =>
    let (sender, step) := u.sender.silence
    { u with sender }.follow step
  | .failure failure => fail failure

namespace Status

def demand : Status → Demand
  | waiting _ => .arrival
  | sending packet _ _ => .send packet
  | parting packet _ => .send packet
  | ended result => .nothing result

def arrive : Status → Arrival → Status × Option Progress
  | waiting u, a => (u.arrive a, none)
  | status, _ => (status, none)

def settle : Status → Verdict → Status × Option Progress
  | sending _ report u, .ok () => (waiting u, report)
  | sending _ _ _, .error fault => (fail (.transport fault), none)
  | parting _ failure, _ => (ended (.error failure), none)
  | status, _ => (status, none)

end Status

def machine : Machine Status := ⟨Status.demand, Status.arrive, Status.settle⟩

end Upload

end TftpUpload
