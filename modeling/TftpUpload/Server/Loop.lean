/-
  TftpUpload/Server/Loop.lean
  ===========================
  **The loop of a server.**

  A server takes datagrams until it is told to stop.  From then on it leaves them
  unread and waits for its workers, and its loop is over when the last of them
  has been collected.  If the rendezvous cannot be read any more, the loop is over
  at once.
-/
import TftpUpload.Server.Service

namespace TftpUpload.Server

open Wire Transfer Net

inductive Phase where
  | serving
  /-- It has been told to stop and waits for its workers. -/
  | draining
  | ended (result : Except Fault Unit)

structure Loop (σ κ : Type) where
  service : Service σ κ
  phase : Phase := .serving

inductive Signal where
  | stimulus (stimulus : Stimulus)
  | shutdown
  /-- The rendezvous cannot be read any more. -/
  | broken (fault : Fault)

namespace Loop

variable {σ κ : Type}

/-- Nobody is waited for when no worker is left. -/
def settle (l : Loop σ κ) : Loop σ κ :=
  match l.phase with
  | .draining => if l.service.workers.isEmpty then { l with phase := .ended (.ok ()) } else l
  | _ => l

def step (st : Storage σ κ) (settings : Transfer.Settings) (l : Loop σ κ) :
    Signal → Loop σ κ × Response
  | .stimulus stimulus =>
    match l.phase, stimulus with
    | .ended _, _ => (l, {})
    | .draining, .datagram .. => (l, {})
    | _, _ =>
      let (service, response) := l.service.step st settings stimulus
      ({ l with service }.settle, response)
  | .shutdown =>
    match l.phase with
    | .serving => ({ l with phase := .draining }.settle, {})
    | _ => (l, {})
  | .broken fault =>
    match l.phase with
    | .serving => ({ l with phase := .ended (.error fault) }, {})
    | _ => (l, {})

end Loop

end TftpUpload.Server
