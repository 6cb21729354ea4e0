/-
  TftpUpload/Transfer/Basic.lean
  ==============================
  **What both sides of a transfer share.**

  Settings, progress reports and summaries, and the interface between a side of
  a transfer and its endpoint.  A side is a *machine*: it demands an arrival, or
  that a packet be sent, and it is told what came of the demand.  So one machine
  runs over a script, over a lossy link or over a network, and a statement about
  all its runs is a statement about all answers to its demands.
-/
import TftpUpload.Transfer.Failure

namespace TftpUpload.Transfer

open Wire

/-! ### Settings -/

def defaultTimeoutSeconds : Nat := 5

def defaultRetries : Nat := 8

/-- The mode named in write requests.  Nobody looks at it. -/
def defaultMode : String := "netascii"

/-- How a side behaves when its peer is silent. -/
structure Settings where
  /-- Milliseconds of silence before something is sent again. -/
  timeout : Nat := defaultTimeoutSeconds * 1000
  /-- How often one packet is sent before the transfer is given up. -/
  maxRetries : Nat := defaultRetries
  mode : String := defaultMode
deriving DecidableEq, Repr

/-! ### Reports -/

/-- One block more has been transferred. -/
structure Progress where
  block : UInt16
  /-- The number of the last block, or 0 while it is not known. -/
  hint : UInt16
deriving DecidableEq, Repr

/-- What a completed transfer carried. -/
structure Summary where
  filename : String
  /-- Blocks, an empty last one included. -/
  blocks : Nat
  bytes : Nat
deriving DecidableEq, Repr

/-! ### Endpoints

A side of a transfer is a machine that says what it needs next, so it can be joined to any endpoint,
be it a socket, a script or one end of a simulated link. -/

/-- The receive buffer holds one byte more than any legal packet, so that a packet which is
too long still shows as such. -/
def receiveLimit : Nat := maxPacketSize + 1

/-- What a wait on the endpoint ends with. -/
inductive Arrival where
  | datagram (bytes : Bytes)
  | silence
  | broken (fault : Fault)
  | stopped
deriving DecidableEq, Repr

inductive Incoming where
  | message (m : Message)
  | silence
  | failure (f : Failure)
deriving DecidableEq, Repr

/-- Only what the receive buffer keeps of a datagram is read. -/
def Arrival.read : Arrival → Incoming
  | datagram bytes =>
    match decode (bytes.take receiveLimit) with
    | .ok m => .message m
    | .error e => .failure (.decode e)
  | silence => .silence
  | broken fault => .failure (.transport fault)
  | stopped => .failure .cancelled

/-- What an endpoint says to a packet that it is given to send. -/
abbrev Verdict := Except Fault Unit

inductive Demand where
  | arrival
  | send (packet : Bytes)
  | nothing (result : Except Failure Summary)

/-- A side of a transfer, with states of type `σ`. -/
structure Machine (σ : Type) where
  demand : σ → Demand
  arrive : σ → Arrival → σ × Option Progress
  settle : σ → Verdict → σ × Option Progress

/-- An endpoint, with states of type `τ`. -/
structure Endpoint (τ : Type) where
  /-- Waits for at most the given number of milliseconds. -/
  wait : Nat → τ → Arrival × τ
  send : Bytes → τ → Verdict × τ

structure Log where
  /-- The packets given to the endpoint, refused ones included. -/
  sent : Array Bytes := #[]
  progress : Array Progress := #[]
deriving DecidableEq, Repr

def Log.note (log : Log) (report : Option Progress) : Log :=
  match report with
  | some p => { log with progress := log.progress.push p }
  | none => log

/-- Answers demands for at most `fuel` steps.  The result is `none` when that was too few. -/
def Machine.run {σ τ : Type} (m : Machine σ) (e : Endpoint τ) (timeout : Nat) :
    Nat → σ → τ → Log → σ × τ × Log × Option (Except Failure Summary)
  | 0, s, t, log => (s, t, log, none)
  | fuel + 1, s, t, log =>
    match m.demand s with
    | .nothing result => (s, t, log, some result)
    | .arrival =>
      let (a, t') := e.wait timeout t
      let (s', report) := m.arrive s a
      m.run e timeout fuel s' t' (log.note report)
    | .send packet =>
      let (v, t') := e.send packet t
      let (s', report) := m.settle s v
      m.run e timeout fuel s' t' ({ log with sent := log.sent.push packet }.note report)

end TftpUpload.Transfer
