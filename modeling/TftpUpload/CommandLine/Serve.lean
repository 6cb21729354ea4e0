/-
  TftpUpload/CommandLine/Serve.lean
  =================================
  **The program that receives files.**

  It keeps what is uploaded to it in a directory, which has to exist, and writes
  a line about each upload that completes.  It runs until it is interrupted.
-/
import TftpUpload.CommandLine.Program
import TftpUpload.Net.HostPort
import TftpUpload.Server.Service

namespace TftpUpload.CommandLine.Serve

open Net

def grammar : Grammar where
  program := "dropd"
  description := "Drop box server - stores files uploaded with drop"
  options :=
    [{ long := "root", short := some 'r', kind := .text,
        help := "directory uploads are stored in" },
      v6onlyOption, timeoutOption,
      retriesOption "silent intervals before a transfer is abandoned", verboseOption]
  arguments := [{ name := "bind", arity := .optional, help := "address to listen on" }]
  examples :=
    [("Receive into /srv/inbox on the default port:", "dropd --root /srv/inbox"),
      ("IPv4 only, port 69 (requires privileges):", "dropd 0.0.0.0:69")]
  note := "Defaults are read from $XDG_CONFIG_HOME/dropd.conf, " ++
    "one long option name and value per line."

def defaultRoot : String := "."

def defaultBind : String := "[::]:6969"

def settings (host : Host) (w : Client.Workplace) (given : Given) :
    Except Complaint Server.Settings := do
  let transfer := transferSettings given
  checkTransfer transfer
  let root := (given.value? "root").getD defaultRoot
  if w.files.findsDirectory root = false then
    throw { text := "Root directory '" ++ root ++ "' does not exist" }
  let name := given.arguments.headD defaultBind
  let (hostName, port) ← (splitHostPort name Server.defaultPort).mapError HostPortError.complaint
  let bind ← (host.resolve hostName port true).mapError fun fault =>
    ⟨"Failed to resolve bind address '" ++ name ++ "'", [fault.message]⟩
  return { bind, root, v6only := given.has "v6only", transfer }

/-- The endpoint at which requests arrive cannot be opened. -/
def bindFailed (fault : Fault) : Complaint := ⟨"Failed to bind server socket", [fault.message]⟩

/-- The server that the program becomes if it can open its endpoint, or what it says instead. -/
def start (s : Surroundings) (cli : List String) : Except Output Server.Settings := do
  let given ← grammar.given s.workplace.files s.homes cli
  let settings ← (settings s.host s.workplace given).mapError Output.complain
  ((s.host.openEndpoint settings.v6only settings.bind).mapError bindFailed).mapError
    Output.complain
  return settings

def eventLine : Server.Event → String
  | .completed peer summary =>
    summary.filename ++ " from " ++ peer.text ++ " (" ++ toString summary.bytes ++ " bytes)\n"
  | _ => ""

/-- What the program leaves behind when it is interrupted after the given events. -/
def interrupted (events : List Server.Event) : Output :=
  { stdout := String.join (events.map eventLine) }

end TftpUpload.CommandLine.Serve
