/-
  TftpUpload/CommandLine/Upload.lean
  ==================================
  **The program that uploads files.**

  It takes a server and any number of files, uploads all of them at a time, and
  writes a line about each in the order in which they were given.  It succeeds
  if all of them do.
-/
import TftpUpload.Client.UploadAll
import TftpUpload.CommandLine.Program
import TftpUpload.Net.HostPort
import TftpUpload.Server.Service
import TftpUpload.Text.ByteCount

namespace TftpUpload.CommandLine.Upload

open Client Net Transfer

def grammar : Grammar where
  program := "drop"
  description := "Upload files to a drop box server"
  options :=
    [{ long := "port", short := some 'p', kind := .number portLimit, help := "server port" },
      { long := "interface", short := some 'i', kind := .text,
        help := "network interface for link-local IPv6 servers" },
      v6onlyOption, timeoutOption, retriesOption "transmissions of one packet before giving up",
      verboseOption]
  arguments :=
    [{ name := "host", arity := .one, help := "server host name or address" },
      { name := "files", arity := .many, help := "files to upload, '-' for standard input" }]
  examples :=
    [("Upload two files:", "drop 10.0.1.50 boot.img notes.txt"),
      ("Upload standard input as 'stdin' over a link-local address:",
        "tar c dir | drop -i eth0 fe80::1 -")]
  note := "Defaults are read from $XDG_CONFIG_HOME/drop.conf, " ++
    "one long option name and value per line."

/-- The server that a program is to talk to. -/
def serverAddress (host : Host) (given : Given) (name : String) : Except Complaint Address := do
  let port := UInt16.ofNat (given.number "port" portLimit Server.defaultPort.toNat)
  let (hostName, port) ← (splitHostPort name port).mapError HostPortError.complaint
  let server ← (host.resolve hostName port false).mapError fun fault =>
    ⟨"Failed to resolve '" ++ name ++ "'", [fault.message]⟩
  match given.value? "interface" with
  | some interface => host.withScope server interface
  | none => return server

def settings (host : Host) (given : Given) : Except Complaint Client.Settings := do
  let files := given.arguments.drop 1
  if files.isEmpty then
    throw { text := "No files to upload" }
  let transfer := transferSettings given
  checkTransfer transfer
  if 1 < files.count Config.standardInput then
    throw { text := "Standard input can only be uploaded once" }
  let server ← serverAddress host given (given.arguments.headD "")
  return { server, v6only := given.has "v6only", transfer }

def outcomeLine (o : Outcome) : String :=
  o.filename ++
    match o.result with
    | .ok summary =>
      ": sent " ++ Text.ByteCount.text summary.bytes ++ " in " ++ toString summary.blocks
        ++ " blocks\n"
    | .error failure => ": failed: " ++ failure.message ++ "\n"

def jobs (given : Given) : List Job := (given.arguments.drop 1).map Job.ofArgument

def report (outcomes : List Outcome) : Output where
  status := if outcomes.all Outcome.isSuccess then 0 else 1
  stdout := String.join (outcomes.map outcomeLine)

def run (s : Surroundings) (cli : List String) : Output :=
  match grammar.given s.workplace.files s.homes cli with
  | .error output => output
  | .ok given =>
    match settings s.host given with
    | .error c => .complain c
    | .ok settings =>
      report (uploadAll s.host s.workplace settings (jobs given)).outcomes

end TftpUpload.CommandLine.Upload
