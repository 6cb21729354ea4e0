/-
  TftpUpload/Client/UploadAll.lean
  ================================
  **Uploading from a host where nobody answers.**

  Each job opens what it uploads, then an endpoint of the server's address
  family, and sends its request to the server.  What the host does with the
  request decides the rest: a refused one ends the upload, and an accepted one
  is repeated until the settings forbid it.
-/
import TftpUpload.Client.PeerLock
import TftpUpload.Client.Supervisor
import TftpUpload.Net.Host
import TftpUpload.Sender.Upload

namespace TftpUpload.Client

open Net Transfer

structure Settings where
  server : Address := ⟨.loopback6, 6969, 0⟩
  v6only : Bool := false
  transfer : Transfer.Settings := {}
deriving DecidableEq, Repr

/-- An endpoint that sends through a host and receives nothing. -/
def unanswered (host : Host) (v6only : Bool) : Endpoint PeerLock where
  wait _ lock := (.silence, lock)
  send packet lock := (host.send v6only lock.target packet.length, lock)

/-- How many demands an upload makes when nobody answers: its request, repeated, and waits. -/
def unansweredDemands (settings : Transfer.Settings) : Nat := 2 * (settings.maxRetries + 2)

/-- Runs one job to its end.  Returns its progress and its result. -/
def runJob (host : Host) (w : Workplace) (settings : Settings) (job : Job) :
    List Progress × Except Failure Summary :=
  match w.openOrigin job.origin with
  | .error fault => ([], .error (.storage fault))
  | .ok (source, size) =>
    match host.openEndpoint settings.v6only settings.server.unspecified with
    | .error fault => ([], .error (.transport fault))
    | .ok () =>
      let start := Upload.start job.remoteName source size settings.transfer
      let (_, _, log, result) := Upload.machine.run (unanswered host settings.v6only)
        settings.transfer.timeout (unansweredDemands settings.transfer) start
        { server := settings.server } {}
      (log.progress.toList, result.getD (.error .cancelled))

def leave (board : Board) (worker : Nat) (done : List Progress × Except Failure Summary) : Board :=
  (done.1.foldl (fun b p => b.report worker p) board).finish worker done.2

/-- Collects what the workers of all jobs leave, one after the other. -/
def collect (jobs : List Job) (done : List (List Progress × Except Failure Summary)) : Supervisor :=
  let board := done.zipIdx.foldl (fun board (d, worker) => leave board worker d) {}
  { Supervisor.start jobs with board }.finished

def uploadAll (host : Host) (w : Workplace) (settings : Settings) (jobs : List Job) : Supervisor :=
  collect jobs (jobs.map (runJob host w settings))

end TftpUpload.Client
