/-
  TftpUpload/Simulation/Script.lean
  =================================
  **An endpoint that plays a script.**

  A script says what the waits on an endpoint bring, item after item, and which
  sends fail.  Time is virtual: it passes only while a wait lasts, so a datagram
  that is due in `n` milliseconds is due `n - t` milliseconds after a wait of
  `t`.  A signalled shutdown is seen before a datagram, and a datagram that is
  due just when the wait ends is still received.
-/
import TftpUpload.Transfer.Basic

namespace TftpUpload.Simulation

open Transfer

inductive Item where
  | datagram (bytes : Bytes)
  /-- Arrives this many milliseconds after a wait first met it. -/
  | delayed (milliseconds : Nat) (bytes : Bytes)
  | broken (fault : Fault)
  | silence
  /-- Shutdown is signalled while the wait lasts. -/
  | stop
  /-- Whoever could signal shutdown is gone. -/
  | abandon
deriving DecidableEq, Repr

structure Script where
  items : List Item
  stopped : Bool := false
  abandoned : Bool := false
  sends : Nat := 0
  /-- The sends that fail, by their number from 0. -/
  failing : List (Nat × Fault) := []
deriving DecidableEq, Repr

namespace Script

def wait (timeout : Nat) (s : Script) : Arrival × Script :=
  if s.stopped then (.stopped, s)
  else
    match s.items with
    | [] => (.silence, s)
    | .datagram bytes :: rest => (.datagram bytes, { s with items := rest })
    | .delayed milliseconds bytes :: rest =>
      if milliseconds ≤ timeout then (.datagram bytes, { s with items := rest })
      else (.silence, { s with items := .delayed (milliseconds - timeout) bytes :: rest })
    | .broken fault :: rest => (.broken fault, { s with items := rest })
    | .silence :: rest => (.silence, { s with items := rest })
    | .stop :: rest =>
      if s.abandoned then (.silence, { s with items := rest })
      else (.stopped, { s with items := rest, stopped := true })
    | .abandon :: rest => (.silence, { s with items := rest, abandoned := true })

def send (_packet : Bytes) (s : Script) : Verdict × Script :=
  let verdict :=
    match s.failing.lookup s.sends with
    | some fault => .error fault
    | none => .ok ()
  (verdict, { s with sends := s.sends + 1 })

def endpoint : Endpoint Script := ⟨wait, send⟩

/-- How many demands a machine can make of a script, if it gives up after `maxRetries` silent
waits in a row: between two items there are no more of them, and a wait is followed by at
most one packet. -/
def demands (s : Script) (maxRetries : Nat) : Nat :=
  2 * (s.items.length + 1) * (maxRetries + 2) + 4

def play {σ : Type} (s : Script) (m : Machine σ) (settings : Settings) (start : σ) (log : Log) :
    σ × Script × Log × Option (Except Failure Summary) :=
  m.run endpoint settings.timeout (s.demands settings.maxRetries) start s log

end Script

end TftpUpload.Simulation
