/-
  TftpUpload/Simulation/Link.lean
  ===============================
  **An upload and its reception over a lossy link.**

  Two directions join an upload to the reception that it opens.  Each direction
  counts the datagrams it is given, and loses, holds back or doubles those that
  a plan names.  Carrying takes no time.  While anything can be delivered or
  sent, time stands still; otherwise it jumps to the timeout that is due first.
  The reception starts with the first datagram that arrives.
-/
import TftpUpload.Receiver.Reception
import TftpUpload.Sender.Upload

namespace TftpUpload.Simulation

open Wire Transfer

/-! ### Directions

A direction is the network of one side.  Its plan is fixed in advance, so a run over it can be
repeated. -/

/-- The datagrams of one side that do not simply arrive, by their numbers from 0.  A lost one
is not held back, and one that is held back is not doubled. -/
structure Disturbance where
  lose : List Nat := []
  delay : List Nat := []
  double : List Nat := []
deriving DecidableEq, Repr

structure Direction where
  plan : Disturbance := {}
  count : Nat := 0
  held : Option Bytes := none
  /-- What has arrived and has not been taken yet. -/
  queue : List Bytes := []
deriving DecidableEq, Repr

/-- Carries a datagram.  One that is held back arrives right after the next that does arrive. -/
def Direction.carry (d : Direction) (datagram : Bytes) : Direction :=
  let next := { d with count := d.count + 1 }
  if d.plan.lose.contains d.count then next
  else if d.plan.delay.contains d.count then { next with held := some datagram }
  else
    let copies := if d.plan.double.contains d.count then [datagram, datagram] else [datagram]
    { next with queue := d.queue ++ copies ++ d.held.toList, held := none }

/-! ### The two sides

Each side has a clock of its own, and a timeout that is counted from its last wait. -/

/-- The receiving side, which is idle until it is called. -/
inductive Callee (σ κ : Type) where
  | idle (store : σ)
  | active (state : Reception.State σ κ)

/-- A link with what is at its ends. -/
structure Link (σ κ : Type) where
  caller : Upload.Status
  callee : Callee σ κ
  /-- From the upload to the reception. -/
  out : Direction
  back : Direction
  callerLog : Log := {}
  calleeLog : Log := {}
  /-- Milliseconds until the upload's wait ends. -/
  callerLeft : Nat
  calleeLeft : Nat

namespace Link

variable {σ κ : Type}

structure Ends (σ κ : Type) where
  storage : Storage σ κ
  caller : Settings
  callee : Settings

def start (ends : Ends σ κ) (upload : Upload.Status) (store : σ) (out back : Disturbance) :
    Link σ κ where
  caller := upload
  callee := .idle store
  out := { plan := out }
  back := { plan := back }
  callerLeft := ends.caller.timeout
  calleeLeft := ends.callee.timeout

def callerArrive (ends : Ends σ κ) (l : Link σ κ) (a : Arrival) : Link σ κ :=
  let (caller, report) := l.caller.arrive a
  { l with caller, callerLog := l.callerLog.note report, callerLeft := ends.caller.timeout }

def calleeArrive (ends : Ends σ κ) (l : Link σ κ) (state : Reception.State σ κ) (a : Arrival) :
    Link σ κ :=
  let (state', report) := Reception.Status.arrive ends.storage state a
  { l with
    callee := .active state'
    calleeLog := l.calleeLog.note report
    calleeLeft := ends.callee.timeout }

/-- What the upload can do without waiting. -/
def callerMove? (ends : Ends σ κ) (l : Link σ κ) : Option (Link σ κ) :=
  match l.caller.demand with
  | .nothing _ => none
  | .send packet =>
    let (caller, report) := l.caller.settle (.ok ())
    let log := { l.callerLog with sent := l.callerLog.sent.push packet }
    some { l with caller, callerLog := log.note report, out := l.out.carry packet }
  | .arrival =>
    match l.back.queue with
    | [] => none
    | datagram :: rest =>
      some (callerArrive ends { l with back := { l.back with queue := rest } } (.datagram datagram))

/-- What the reception can do without waiting. -/
def calleeMove? (ends : Ends σ κ) (l : Link σ κ) : Option (Link σ κ) :=
  match l.callee with
  | .idle store =>
    match l.out.queue with
    | [] => none
    | datagram :: rest =>
      some { l with
        callee := .active (Reception.start ends.storage true datagram ends.callee store)
        out := { l.out with queue := rest } }
  | .active state =>
    match state.1.demand with
    | .nothing _ => none
    | .send packet =>
      let (state', report) := Reception.Status.settle ends.storage state (.ok ())
      let log := { l.calleeLog with sent := l.calleeLog.sent.push packet }
      some { l with
        callee := .active state'
        calleeLog := log.note report
        back := l.back.carry packet }
    | .arrival =>
      match l.out.queue with
      | [] => none
      | datagram :: rest =>
        some (calleeArrive ends { l with out := { l.out with queue := rest } } state
          (.datagram datagram))

/-- The reception, if it waits for a datagram and has a timeout running. -/
def calleeWaiting? (l : Link σ κ) : Option (Reception.State σ κ) :=
  match l.callee with
  | .idle _ => none
  | .active state =>
    match state.1.demand with
    | .arrival => some state
    | _ => none

def callerWaits (l : Link σ κ) : Bool :=
  match l.caller.demand with
  | .arrival => true
  | _ => false

/-- The timeout that is due first passes. -/
def timeout? (ends : Ends σ κ) (l : Link σ κ) : Option (Link σ κ) :=
  match l.callerWaits, l.calleeWaiting? with
  | false, none => none
  | true, none => some (l.callerArrive ends .silence)
  | false, some state => some (l.calleeArrive ends state .silence)
  | true, some state =>
    if l.callerLeft ≤ l.calleeLeft then
      some { l.callerArrive ends .silence with calleeLeft := l.calleeLeft - l.callerLeft }
    else
      some { l.calleeArrive ends state .silence with callerLeft := l.callerLeft - l.calleeLeft }

def step? (ends : Ends σ κ) (l : Link σ κ) : Option (Link σ κ) :=
  match l.callerMove? ends with
  | some l' => some l'
  | none =>
    match l.calleeMove? ends with
    | some l' => some l'
    | none => l.timeout? ends

/-- The link after at most `fuel` steps. -/
def run (ends : Ends σ κ) : Nat → Link σ κ → Link σ κ
  | 0, l => l
  | fuel + 1, l =>
    match l.step? ends with
    | some l' => run ends fuel l'
    | none => l

/-- A bound on the steps for a source of `length` bytes.  The upload sends each of its packets
as often as its settings allow, the reception answers each copy of them that arrives and each
silent interval between two, and no datagram arrives more than twice. -/
def stepBound (ends : Ends σ κ) (length : Nat) : Nat :=
  let out := (length / blockSize + 2) * max ends.caller.maxRetries 1 + 2
  let back := (2 * out + 1) * (ends.callee.maxRetries + 2) + 2
  8 * (out + back)

def callerResult (l : Link σ κ) : Option (Except Failure Summary) :=
  match l.caller with
  | .ended result => some result
  | _ => none

def calleeResult (l : Link σ κ) : Option (Except Failure Summary) :=
  match l.callee with
  | .active (.ended result, _) => some result
  | _ => none

def store (l : Link σ κ) : σ :=
  match l.callee with
  | .idle store => store
  | .active state => state.2

end Link

end TftpUpload.Simulation
