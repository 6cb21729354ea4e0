/-
  TftpUpload/Client/Socket.lean
  =============================
  **A client's endpoint.**

  Datagrams that arrive wait until they are taken, one after the other.  To
  receive is to take them until one comes from whom the client talks to; the
  others are refused on the way.  All that happens is written down.
-/
import TftpUpload.Client.PeerLock

namespace TftpUpload.Client

open Wire Net

structure Datagram where
  source : Address
  bytes : Bytes
deriving DecidableEq, Repr

namespace Socket

/-- What happens at an endpoint. -/
inductive Deed where
  | arrived (d : Datagram)
  | sent (target : Address) (packet : Bytes)
  /-- A datagram is taken, into a buffer of the given size. -/
  | took (room : Nat) (d : Datagram) (handling : PeerLock.Handling)
deriving DecidableEq, Repr

/-- What is done with an endpoint, and what happens to it. -/
inductive Call where
  | arrives (d : Datagram)
  | send (packet : Bytes)
  /-- Receives into a buffer of the given size. -/
  | recv (room : Nat)
deriving DecidableEq, Repr

end Socket

/-- An endpoint, with what has arrived and not been taken, and all that has happened so far. -/
structure Socket where
  lock : PeerLock
  queue : List Datagram := []
  deeds : List Socket.Deed := []
deriving DecidableEq, Repr

namespace Socket

/-- Takes datagrams until one is handed on.  If none is left, this goes on as soon as one arrives;
as nothing is remembered but the peer, going on is the same as receiving anew. -/
def recvFrom (room : Nat) (lock : PeerLock) (deeds : List Deed) : List Datagram → Socket
  | [] => ⟨lock, [], deeds⟩
  | d :: rest =>
    match lock.receive d.source (d.bytes.take room) with
    | (lock', .delivered bytes) => ⟨lock', rest, deeds ++ [.took room d (.delivered bytes)]⟩
    | (lock', .refused target reply) =>
      recvFrom room lock' (deeds ++ [.took room d (.refused target reply)]) rest

def perform (s : Socket) : Call → Socket
  | .arrives d => { s with queue := s.queue ++ [d], deeds := s.deeds ++ [.arrived d] }
  | .send packet => { s with deeds := s.deeds ++ [.sent s.lock.target packet] }
  | .recv room => recvFrom room s.lock s.deeds s.queue

end Socket

end TftpUpload.Client
