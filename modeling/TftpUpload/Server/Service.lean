/-
  TftpUpload/Server/Service.lean
  ==============================
  **The server: a rendezvous and its workers.**

  Every accepted request gets a worker, which receives the file over an endpoint
  of its own.  The service is driven from outside: by datagrams at the
  rendezvous, by what the workers' endpoints bring and say, and by the
  collection of a worker that has ended.  All workers share one storage.
-/
import TftpUpload.Receiver.Reception
import TftpUpload.Server.Rendezvous

namespace TftpUpload.Server

open Wire Transfer Net

/-- The port of a server, unless it is told otherwise. -/
def defaultPort : UInt16 := 6969

/-- Where a server listens, where it keeps files, and how its transfers behave. -/
structure Settings where
  bind : Address := ⟨.unspecified6, defaultPort, 0⟩
  root : String := "."
  v6only : Bool := false
  transfer : Transfer.Settings := {}
deriving DecidableEq, Repr

/-- The rendezvous, the workers by their peers, and the storage. -/
structure Service (σ κ : Type) where
  rendezvous : Rendezvous := {}
  workers : List (Address × Reception.Status κ) := []
  store : σ

inductive Stimulus where
  /-- A datagram at the rendezvous.  `endpoint` says whether a worker for it would get one. -/
  | datagram (source : Address) (bytes : Bytes) (endpoint : Except Fault Unit)
  /-- What the wait of a worker has brought. -/
  | arrival (peer : Address) (a : Arrival)
  /-- What the endpoint of a worker says to its packet. -/
  | verdict (peer : Address) (v : Verdict)
  /-- A worker that has ended is collected. -/
  | collect (peer : Address)

/-- A packet that the rendezvous sends. -/
structure Reply where
  target : Address
  packet : Bytes
deriving DecidableEq, Repr

structure Response where
  reply : Option Reply := none
  event : Option Event := none
  progress : Option Progress := none
deriving DecidableEq, Repr

namespace Service

variable {σ κ : Type}

/-- Puts a worker in the place of the one of its peer. -/
def setWorker (s : Service σ κ) (peer : Address) (state : Reception.State σ κ) : Service σ κ :=
  { s with
    workers := s.workers.map fun (p, status) => if p = peer then (p, state.1) else (p, status)
    store := state.2 }

/-- The worker of a request.  Without an endpoint it has failed before it begins. -/
def newWorker (st : Storage σ κ) (settings : Transfer.Settings) (request : Bytes) (store : σ) :
    Except Fault Unit → Reception.State σ κ
  | .ok () => Reception.start st true request settings store
  | .error fault => (.ended (.error (.transport fault)), store)

def onDatagram (st : Storage σ κ) (settings : Transfer.Settings) (s : Service σ κ)
    (source : Address) (bytes : Bytes) (endpoint : Except Fault Unit) : Service σ κ × Response :=
  match s.rendezvous.receive source bytes with
  | (rendezvous, .accepted request filename) =>
    let (status, store) := newWorker st settings request s.store endpoint
    (⟨rendezvous, (source, status) :: s.workers, store⟩,
      { event := some (.started source filename) })
  | (rendezvous, .refused packet) =>
    ({ s with rendezvous }, { reply := packet.map fun packet => ⟨source, packet⟩ })
  | (rendezvous, _) => ({ s with rendezvous }, {})

/-- A worker that has ended leaves, and its result is told. -/
def collect (s : Service σ κ) (peer : Address) : Service σ κ × Response :=
  match s.workers.lookup peer with
  | some (.ended result) =>
    let (rendezvous, event) := s.rendezvous.finish peer result
    ({ s with rendezvous, workers := s.workers.filter (·.1 != peer) }, { event })
  | _ => (s, {})

def step (st : Storage σ κ) (settings : Transfer.Settings) (s : Service σ κ) :
    Stimulus → Service σ κ × Response
  | .datagram source bytes endpoint => s.onDatagram st settings source bytes endpoint
  | .arrival peer a =>
    match s.workers.lookup peer with
    | none => (s, {})
    | some status =>
      let (state, progress) := Reception.Status.arrive st (status, s.store) a
      (s.setWorker peer state, { progress })
  | .verdict peer v =>
    match s.workers.lookup peer with
    | none => (s, {})
    | some status =>
      let (state, progress) := Reception.Status.settle st (status, s.store) v
      (s.setWorker peer state, { progress })
  | .collect peer => s.collect peer

end Service

end TftpUpload.Server
