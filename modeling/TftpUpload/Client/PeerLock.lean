/-
  TftpUpload/Client/PeerLock.lean
  ===============================
  **Whom a client talks to.**

  A request goes to the server's well-known address, and the server answers from
  an address of its own choice.  The first datagram from the server's IP address
  decides: its source is the peer from then on.  Whatever comes from elsewhere,
  before or after, is answered with an ERROR and not looked at.
-/
import TftpUpload.Net.Address
import TftpUpload.Wire.Encode

namespace TftpUpload.Client

open Wire Net

/-- The server, and the peer once it is known. -/
structure PeerLock where
  server : Address
  peer : Option Address := none
deriving DecidableEq, Repr

namespace PeerLock

/-- What becomes of a datagram that has arrived. -/
inductive Handling where
  | delivered (bytes : Bytes)
  /-- The target is told that nobody knows it. -/
  | refused (target : Address) (packet : Option Bytes)
deriving DecidableEq, Repr

def target (l : PeerLock) : Address := l.peer.getD l.server

def refusal (source : Address) : Handling :=
  .refused source (packet? (.plainError .unknownTransferId))

def receive (l : PeerLock) (source : Address) (bytes : Bytes) : PeerLock × Handling :=
  match l.peer with
  | some peer => if peer = source then (l, .delivered bytes) else (l, refusal source)
  | none =>
    if source.ip = l.server.ip then ({ l with peer := some source }, .delivered bytes)
    else (l, refusal source)

theorem receive_peer {l : PeerLock} {peer : Address} (h : l.peer = some peer) (source : Address)
    (bytes : Bytes) : (l.receive source bytes).1 = l := by
  unfold receive
  rw [h]
  dsimp only
  split <;> rfl

end PeerLock

end TftpUpload.Client
