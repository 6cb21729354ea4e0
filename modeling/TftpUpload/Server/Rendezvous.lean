/-
  TftpUpload/Server/Rendezvous.lean
  =================================
  **Where write requests arrive.**

  The rendezvous starts a transfer for a write request of a peer that has none.
  Until that transfer has ended, whatever else its peer sends there is dropped
  unread.  Other datagrams are answered with an ERROR, except that an ERROR is
  never answered.
-/
import TftpUpload.Server.Registry
import TftpUpload.Transfer.Basic

namespace TftpUpload.Server

open Wire Transfer Net

inductive Event where
  | started (peer : Address) (filename : String)
  | completed (peer : Address) (summary : Summary)
  | failed (peer : Address) (filename : String) (code : ErrorCode) (text : String)
deriving DecidableEq, Repr

structure Active where
  filename : String
  /-- Datagrams of its peer that came to the rendezvous. -/
  strays : Nat := 0
deriving DecidableEq, Repr

/-- The transfers that run, by their peers. -/
structure Rendezvous where
  registry : Registry Active := {}
deriving DecidableEq, Repr

namespace Rendezvous

inductive Reaction where
  /-- The peer has a transfer already. -/
  | dropped
  /-- An ERROR is not answered. -/
  | ignored
  | refused (packet : Option Bytes)
  /-- A transfer starts with the given request. -/
  | accepted (request : Bytes) (filename : String)
deriving DecidableEq, Repr

def refuse (text : String) : Reaction := .refused (packet? (.error .illegalOperation text))

/-- What the datagram of a peer without a transfer leads to. -/
def reaction (datagram : Bytes) : Reaction :=
  match decode datagram with
  | .ok (.writeRequest filename _) => .accepted datagram filename
  | .ok (.readRequest _ _) => refuse "read requests are not supported"
  | .ok (.error _ _) => .ignored
  | .ok other => refuse ("unexpected " ++ other.opcode.name)
  | .error e => refuse e.message

/-- Takes a datagram from a source.  Only what the receive buffer keeps of it counts. -/
def receive (r : Rendezvous) (source : Address) (bytes : Bytes) : Rendezvous × Reaction :=
  match r.registry.find? source with
  | some _ =>
    (⟨r.registry.modify source fun active => { active with strays := active.strays + 1 }⟩, .dropped)
  | none =>
    match reaction (bytes.take receiveLimit) with
    | .accepted request filename =>
      match r.registry.create source { filename } with
      | .ok registry => (⟨registry⟩, .accepted request filename)
      | .error _ => (r, .dropped)
    | other => (r, other)

def outcome (peer : Address) (active : Active) : Except Failure Summary → Event
  | .ok summary => .completed peer summary
  | .error failure => .failed peer active.filename failure.code failure.message

def finish (r : Rendezvous) (peer : Address) (result : Except Failure Summary) :
    Rendezvous × Option Event :=
  match r.registry.find? peer with
  | none => (r, none)
  | some active => (⟨r.registry.remove peer⟩, some (outcome peer active result))

end Rendezvous

end TftpUpload.Server
