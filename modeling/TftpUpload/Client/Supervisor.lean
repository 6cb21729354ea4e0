/-
  TftpUpload/Client/Supervisor.lean
  =================================
  **Many uploads at a time.**

  Every upload has a worker, known by the upload's position.  A supervisor
  announces all of them, then takes what they leave for it: progress reports,
  in the order in which they were made, and results, in any order.  A report
  that lies there is taken before a result.  It keeps one outcome per upload,
  in the order of the uploads.
-/
import TftpUpload.Client.Job
import TftpUpload.Transfer.Basic

namespace TftpUpload.Client

open Transfer

inductive Event where
  | started (worker : Nat) (filename : String)
  | progress (worker : Nat) (report : Progress)
  | finished (worker : Nat) (result : Except String Summary)

structure Outcome where
  worker : Nat
  filename : String
  result : Except Failure Summary

def Outcome.isSuccess (o : Outcome) : Bool :=
  match o.result with
  | .ok _ => true
  | .error _ => false

/-- What the workers have left for the supervisor. -/
structure Board where
  /-- Oldest first. -/
  reports : List (Nat × Progress) := []
  results : List (Nat × Except Failure Summary) := []

namespace Board

def report (b : Board) (worker : Nat) (p : Progress) : Board :=
  { b with reports := b.reports ++ [(worker, p)] }

def finish (b : Board) (worker : Nat) (result : Except Failure Summary) : Board :=
  { b with results := b.results ++ [(worker, result)] }

end Board

/-- The supervisor: its board, its outcomes, and what it has told its observer. -/
structure Supervisor where
  board : Board := {}
  outcomes : List Outcome := []
  /-- Oldest first. -/
  told : List Event := []

namespace Supervisor

def tell (s : Supervisor) (e : Event) : Supervisor := { s with told := s.told ++ [e] }

/-- Announces the next upload.  Until its result is collected, it counts as cancelled. -/
def announce (s : Supervisor) (job : Job) : Supervisor :=
  let outcome : Outcome := ⟨s.outcomes.length, job.remoteName, .error .cancelled⟩
  { s with outcomes := s.outcomes ++ [outcome] }.tell (.started outcome.worker job.remoteName)

def start (jobs : List Job) : Supervisor := jobs.foldl announce {}

def settle (s : Supervisor) (worker : Nat) (result : Except Failure Summary) : Supervisor :=
  { s with outcomes := s.outcomes.modify worker fun o => { o with result } }

/-- Takes the oldest report. -/
def takeReport? (s : Supervisor) : Option Supervisor :=
  match s.board.reports with
  | [] => none
  | (worker, p) :: rest =>
    some ({ s with board := { s.board with reports := rest } }.tell (.progress worker p))

/-- Takes the result at the given position of those there are. -/
def takeResult? (s : Supervisor) (position : Nat) : Option Supervisor :=
  match s.board.results[position]? with
  | none => none
  | some (worker, result) =>
    some (({ s with board := { s.board with results := s.board.results.eraseIdx position } }.settle
      worker result).tell (.finished worker (result.mapError Failure.message)))

/-- Takes the oldest report, or else the oldest result. -/
def poll (s : Supervisor) : Supervisor := (s.takeReport?.or (s.takeResult? 0)).getD s

def drain : Nat → Supervisor → Supervisor
  | 0, s => s
  | n + 1, s => drain n s.poll

def finished (s : Supervisor) : Supervisor :=
  s.drain (s.board.reports.length + s.board.results.length)

end Supervisor

end TftpUpload.Client
