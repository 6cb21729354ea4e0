/-
  TftpUpload/Main.lean
  ====================
  **Both programs on a real machine.**

  The first argument names the program, the others are its own.  What is done
  here is only what the rest of the library asks for: packets are sent and
  awaited, files are opened, written and removed, and output is printed.  A
  transfer has a thread of its own, which answers the demands of its machine one
  after the other; an interrupt stops every wait.  Sockets here take no scope,
  and accept IPv4 on IPv6 addresses.
-/
import Std.Async.Select
import Std.Async.Signal
import Std.Async.Timer
import Std.Async.UDP
import Std.Sync.CancellationToken
import Std.Sync.Channel
import TftpUpload.CommandLine.Serve
import TftpUpload.CommandLine.Upload
import TftpUpload.Storage.Deferred
import TftpUpload.Storage.Directory

namespace TftpUpload.Live

open Std.Async
open Client CommandLine Net Server Storage Transfer

/-! ### Faults -/

def errorNumber? : IO.Error → Option UInt32
  | .alreadyExists _ n _ => some n
  | .otherError n _ => some n
  | .resourceBusy n _ => some n
  | .resourceVanished n _ => some n
  | .unsupportedOperation n _ => some n
  | .hardwareFault n _ => some n
  | .unsatisfiedConstraints n _ => some n
  | .illegalOperation n _ => some n
  | .protocolError n _ => some n
  | .timeExpired n _ => some n
  | .interrupted _ n _ => some n
  | .noFileOrDirectory _ n _ => some n
  | .invalidArgument _ n _ => some n
  | .permissionDenied _ n _ => some n
  | .resourceExhausted _ n _ => some n
  | .inappropriateType _ n _ => some n
  | .noSuchThing _ n _ => some n
  | .unexpectedEof => none
  | .userError _ => none

/-- An error number may come negated, as a word. -/
def faultOf (e : IO.Error) : Fault :=
  match errorNumber? e with
  | some n => .os ⟨n.toInt32⟩
  | none => .stated (toString e)

/-- What an action comes to, its failure as a fault. -/
def attempt {α : Type} (action : IO α) : IO (Except Fault α) := do
  try
    return .ok (← action)
  catch e =>
    return .error (faultOf e)

/-! ### Files -/

def openFile (path : String) : IO (Except Fault FileSystem.Opened) := do
  match ← attempt (IO.FS.readBinFile path) with
  | .ok bytes => return .ok (.contents bytes.data.toList)
  | .error fault =>
    return if fault = .os .isADirectory then .ok .directory else .error fault

/-- What opening each of the given paths gives. -/
def openFiles (paths : List String) : IO FileSystem.Opener := do
  let opened ← paths.mapM fun path => return (path, ← openFile path)
  return fun path => (opened.lookup path).getD (.error (.os .noEntry))

/-- A directory to store files in, and the files that are open in it. -/
structure Disk where
  root : String
  files : IO.Ref (Array IO.FS.Handle)

namespace Disk

def locate (path : String) : IO (Except Fault Location) :=
  attempt do return Path.names (← IO.FS.realPath path).toString

def resolve (disk : Disk) (filename : String) : IO (Except Refusal String) := do
  let root ← locate disk.root
  let parent ← locate ((Path.parent? (Path.join disk.root filename)).getD disk.root)
  return Storage.Directory.resolveVia disk.root filename fun path =>
    if path = disk.root then root else parent

def carryOut (disk : Disk) : Operation → IO Answer
  | .create filename => do
    match ← disk.resolve filename with
    | .error refusal => return .refused refusal
    | .ok path =>
      let file ← IO.FS.Handle.mk path .write
      let files ← disk.files.get
      disk.files.set (files.push file)
      return .opened files.size
  | .write file bytes => do
    for handle in (← disk.files.get)[file]? do
      handle.write ⟨bytes.toArray⟩
    return .done
  | .flush file => do
    for handle in (← disk.files.get)[file]? do
      handle.flush
    return .done
  | .discard filename => do
    match ← disk.resolve filename with
    | .error refusal => return .refused refusal
    | .ok path =>
      match ← attempt (IO.FS.removeFile path) with
      | .ok () => return .done
      | .error fault => return if fault = .os .noEntry then .done else .failed fault

/-- Runs a step to its end, carrying out what it asks for. -/
partial def run {α : Type} (disk : Disk) (step : Deferred → α × Deferred) (answers : List Answer) :
    IO α := do
  let (result, deferred) := step { answers }
  match deferred.next with
  | none => return result
  | some operation =>
    let answer ← try disk.carryOut operation catch e => pure (.failed (faultOf e))
    disk.run step (answers ++ [answer])

end Disk

/-! ### Endpoints -/

def socketAddress (a : Address) : Std.Net.SocketAddress :=
  match a.ip with
  | .v4 octets => .v4 ⟨⟨octets⟩, a.port⟩
  | .v6 groups => .v6 ⟨⟨groups⟩, a.port⟩

def addressOf : Std.Net.SocketAddress → Address
  | .v4 a => ⟨.v4 a.addr.octets, a.port, 0⟩
  | .v6 a => ⟨.v6 a.addr.segments, a.port, 0⟩

def openSocket (a : Address) : IO UDP.Socket := do
  let socket ← UDP.Socket.mk
  socket.bind (socketAddress a)
  return socket

def sendTo (socket : UDP.Socket) (target : Address) (packet : Bytes) : IO Verdict :=
  attempt (socket.send ⟨packet.toArray⟩ (some (socketAddress target))).block

abbrev Delivery := Except Arrival (Address × Bytes)

def datagramLimit : UInt64 := 65535

/-- Waits for a datagram until a moment of the clock, or until the programs are to stop. -/
def await (socket : UDP.Socket) (stop : Std.CancellationToken) (deadline : Nat) : IO Delivery := do
  if ← stop.isCancelled then
    return .error .stopped
  let left := deadline - (← IO.monoMsNow)
  let delivery : Async Delivery := do
    Selectable.one #[
      .case stop.selector fun _ => return .error .stopped,
      .case (socket.recvSelector datagramLimit) fun (bytes, source) =>
        match source with
        | some source => return .ok (addressOf source, bytes.data.toList)
        | none => return .error .silence,
      .case (← Selector.sleep (Std.Time.Millisecond.Offset.ofNat left)) fun _ =>
        return .error .silence]
  try
    delivery.block
  catch e =>
    return .error (.broken (faultOf e))

/-- Waits for a datagram that is taken.  `take` sees each datagram with its source, and hands on
what a transfer is to have of it. -/
partial def awaitTaken (socket : UDP.Socket) (stop : Std.CancellationToken)
    (take : Address → Bytes → IO (Option Bytes)) (deadline : Nat) : IO Arrival := do
  match ← await socket stop deadline with
  | .error arrival => return arrival
  | .ok (source, bytes) =>
    match ← take source bytes with
    | some taken => return .datagram taken
    | none => awaitTaken socket stop take deadline

/-- Waits for a datagram that is taken, for as long as the settings say. -/
def awaitWithin (settings : Transfer.Settings) (socket : UDP.Socket) (stop : Std.CancellationToken)
    (take : Address → Bytes → IO (Option Bytes)) : IO Arrival := do
  awaitTaken socket stop take ((← IO.monoMsNow) + settings.timeout)

/-- Answers the demands of a machine until it has ended. -/
partial def drive {σ : Type} (demand : σ → Demand) (arrive : σ → Arrival → IO σ)
    (settle : σ → Verdict → IO σ) (wait : IO Arrival) (send : Bytes → IO Verdict) (s : σ) :
    IO (Except Failure Summary) := do
  match demand s with
  | .nothing result => return result
  | .arrival => drive demand arrive settle wait send (← arrive s (← wait))
  | .send packet => drive demand arrive settle wait send (← settle s (← send packet))

/-- Is cancelled when the user interrupts the program. -/
def untilInterrupt : IO Std.CancellationToken := do
  let stop ← Std.CancellationToken.new
  let waiter ← Signal.Waiter.mk .sigint false
  let _ ← IO.mapTask (fun _ => stop.cancel) (← waiter.wait)
  return stop

/-! ### Uploading -/

/-- Takes what the peer sends.  Others are told that nobody knows them. -/
def takeOfPeer (socket : UDP.Socket) (lock : IO.Ref PeerLock) (source : Address) (bytes : Bytes) :
    IO (Option Bytes) := do
  let (known, handling) := (← lock.get).receive source bytes
  lock.set known
  match handling with
  | .delivered bytes => return some bytes
  | .refused target reply =>
    for packet in reply do
      let _ ← sendTo socket target packet
    return none

def runJob (w : Workplace) (settings : Client.Settings) (stop : Std.CancellationToken) (job : Job) :
    IO (Except Failure Summary) := do
  match w.openOrigin job.origin with
  | .error fault => return .error (.storage fault)
  | .ok (source, size) =>
    match ← attempt (openSocket settings.server.unspecified) with
    | .error fault => return .error (.transport fault)
    | .ok socket =>
      let lock ← IO.mkRef ({ server := settings.server } : PeerLock)
      drive Upload.machine.demand
        (fun s a => return (Upload.machine.arrive s a).1)
        (fun s v => return (Upload.machine.settle s v).1)
        (awaitWithin settings.transfer socket stop (takeOfPeer socket lock))
        (fun packet => do sendTo socket (← lock.get).target packet)
        (Upload.start job.remoteName source size settings.transfer)

def runJobs (w : Workplace) (settings : Client.Settings) (jobs : List Job) : IO (List Outcome) := do
  let stop ← untilInterrupt
  let tasks ← jobs.mapM fun job => IO.asTask (runJob w settings stop job) .dedicated
  let done ← tasks.mapM fun task => do
    match ← IO.wait task with
    | .ok result => return ([], result)
    | .error e => return ([], .error (.panicked (toString e)))
  return (collect jobs done).outcomes

/-! ### Serving -/

def runRequest (settings : Server.Settings) (stop : Std.CancellationToken) (peer : Address)
    (request : Bytes) : IO (Except Failure Summary) := do
  match ← attempt (openSocket { settings.bind with port := 0 }) with
  | .error fault => return .error (.transport fault)
  | .ok socket =>
    let disk : Disk := ⟨settings.root, ← IO.mkRef #[]⟩
    let start ← disk.run (Reception.start Deferred.storage true request settings.transfer) []
    drive Reception.Status.demand
      (fun s a => disk.run (fun d => (Reception.Status.arrive Deferred.storage (s, d) a).1) [])
      (fun s v => disk.run (fun d => (Reception.Status.settle Deferred.storage (s, d) v).1) [])
      (awaitWithin settings.transfer socket stop fun source bytes =>
        return if source = peer then some bytes else none)
      (sendTo socket peer)
      start

/-- Transfers that have ended, with the addresses of their peers. -/
abbrev Results := Std.CloseableChannel (Address × Except Failure Summary)

/-- Takes the result of a transfer off the register and prints it. -/
def conclude (r : Rendezvous) (peer : Address) (result : Except Failure Summary) :
    IO Rendezvous := do
  let (rest, event) := r.finish peer result
  for e in event do
    IO.print (Serve.eventLine e)
    (← IO.getStdout).flush
  return rest

/-- What the rendezvous does with a datagram. -/
def welcome (settings : Server.Settings) (socket : UDP.Socket) (stop : Std.CancellationToken)
    (results : Results) (r : Rendezvous) (peer : Address) (bytes : Bytes) : IO Rendezvous := do
  let (known, reaction) := r.receive peer bytes
  match reaction with
  | .accepted request _ =>
    let work : IO Unit := do
      let result ← try runRequest settings stop peer request
        catch e => pure (.error (.panicked (toString e)))
      let _ ← results.send (peer, result)
    let _ ← IO.asTask work .dedicated
  | .refused reply =>
    for packet in reply do
      let _ ← sendTo socket peer packet
  | _ => pure ()
  return known

/-- Serves until the programs are to stop, and then until the last transfer has ended. -/
partial def serve (settings : Server.Settings) (socket : UDP.Socket) (stop : Std.CancellationToken)
    (results : Results) (r : Rendezvous) : IO Unit := do
  let stopping ← stop.isCancelled
  if stopping && r.registry.isEmpty then
    return
  let ended : Selectable (IO Rendezvous) := .case results.recvSelector fun
    | some (peer, result) => return conclude r peer result
    | none => return pure r
  let arrived : Selectable (IO Rendezvous) := .case (socket.recvSelector datagramLimit) fun
    | (bytes, some source) =>
      return welcome settings socket stop results r (addressOf source) bytes.data.toList
    | (_, none) => return pure r
  let stopped : Selectable (IO Rendezvous) := .case stop.selector fun _ => return pure r
  let next ← (Selectable.one (if stopping then #[ended] else #[ended, arrived, stopped])).block
  serve settings socket stop results (← next)

/-! ### Programs -/

def printOutput (output : Output) : IO UInt32 := do
  IO.print output.stdout
  IO.eprint output.stderr
  return UInt32.ofNat output.status

/-- Interfaces that are named on the command line, with their indices. -/
def interfacesNamed (given : Given) : IO (List (String × UInt32)) := do
  match given.value? "interface" with
  | none => return []
  | some name =>
    let file := "/sys/class/net/" ++ Host.interfaceName name ++ "/ifindex"
    match ← attempt (IO.FS.readFile file) with
    | .ok text => return [(Host.interfaceName name, UInt32.ofNat (text.trimAscii.toNat?.getD 0))]
    | .error _ => return []

/-- What a program is given, or what it says instead. -/
def readGiven (g : Grammar) (cli : List String) : IO (Except Output Given) := do
  let homes : Config.Homes := ⟨← IO.getEnv "XDG_CONFIG_HOME", ← IO.getEnv "HOME"⟩
  let files ← openFiles (Config.path? homes g.program).toList
  return g.given files homes cli

def upload (cli : List String) : IO UInt32 := do
  match ← readGiven Upload.grammar cli with
  | .error output => printOutput output
  | .ok given =>
    match Upload.settings { Host.isolated with interfaces := ← interfacesNamed given } given with
    | .error complaint => printOutput (.complain complaint)
    | .ok settings =>
      let jobs := Upload.jobs given
      let files ← openFiles (given.arguments.drop 1)
      let standardInput ←
        if jobs.any (·.origin == .standardInput) then (← IO.getStdin).readBinToEnd else pure .empty
      let w : Workplace := { files, standardInput := standardInput.data.toList }
      printOutput (Upload.report (← runJobs w settings jobs))

def serveUploads (cli : List String) : IO UInt32 := do
  match ← readGiven Serve.grammar cli with
  | .error output => printOutput output
  | .ok given =>
    let files ← openFiles [(given.value? "root").getD Serve.defaultRoot]
    match Serve.settings .isolated { files } given with
    | .error complaint => printOutput (.complain complaint)
    | .ok settings =>
      match ← attempt (openSocket settings.bind) with
      | .error fault => printOutput (.complain (Serve.bindFailed fault))
      | .ok socket =>
        serve settings socket (← untilInterrupt) (← Std.CloseableChannel.new) {}
        return 0

end TftpUpload.Live

open TftpUpload

def main : List String → IO UInt32
  | program :: cli =>
    if program = CommandLine.Upload.grammar.program then Live.upload cli
    else if program = CommandLine.Serve.grammar.program then Live.serveUploads cli
    else do
      IO.eprintln ("Unknown program: " ++ program)
      return 1
  | [] => do
    IO.eprintln "Which program?"
    return 1
