/-
  TftpUpload/CommandLine/Program.lean
  ===================================
  **What all programs do first.**

  A program reads its configuration, puts the command line behind it, and reads
  the arguments that result.  It may end there: with its help, with a complaint
  about its usage, or because the configuration cannot be read.
-/
import TftpUpload.Client.Job
import TftpUpload.CommandLine.Grammar
import TftpUpload.Config.Arguments
import TftpUpload.Config.Location
import TftpUpload.Net.Host
import TftpUpload.Transfer.Basic

namespace TftpUpload.CommandLine

open Client Net

structure Surroundings where
  host : Host
  workplace : Workplace
  homes : Config.Homes

structure Output where
  status : Nat := 0
  stdout : String := ""
  stderr : String := ""
deriving DecidableEq, Repr

namespace Output

def help (g : Grammar) : Output := { stdout := g.helpText ++ "\n" }

def usage (g : Grammar) (e : UsageError) : Output where
  status := 1
  stderr := e.message ++ "\nRun " ++ g.program ++ " --help for more information.\n"

def complain (c : Complaint) : Output := { status := 1, stderr := c.render ++ "\n" }

end Output

/-- The configuration of a program.  It is empty if nobody says where to look for it. -/
def configuration (files : FileSystem.Opener) (homes : Config.Homes) (program : String) :
    Except Complaint (List Config.Entry) :=
  match Config.path? homes program with
  | none => .ok []
  | some path => Config.read files path

/-- One-letter options with the long names that they stand for. -/
def Grammar.aliases (g : Grammar) : Config.Aliases :=
  g.options.filterMap fun o => o.short.map (·, o.long)

/-- What a program is given, or what it says instead of starting. -/
def Grammar.given (g : Grammar) (files : FileSystem.Opener) (homes : Config.Homes)
    (cli : List String) : Except Output Given :=
  match configuration files homes g.program with
  | .error c => .error (.complain c)
  | .ok file =>
    match g.read (Config.mergeArguments file cli g.aliases) with
    | .error e => .error (.usage g e)
    | .ok given => if given.help then .error (.help g) else .ok given

/-! ### What programs share -/

def numberLimit : Nat := 18446744073709551615

def v6onlyOption : OptionSpec :=
  { long := "v6only", kind := .switch, help := "do not accept IPv4 on IPv6 sockets" }

def timeoutOption : OptionSpec :=
  { long := "timeout", kind := .number numberLimit
    help := "seconds to wait before retransmitting" }

def retriesOption (help : String) : OptionSpec :=
  { long := "retries", kind := .number numberLimit, help }

def verboseOption : OptionSpec :=
  { long := "verbose", short := some 'v', kind := .switch, help := "enable debug logging" }

/-- How transfers behave that are given a number of seconds and of retries. -/
def transferSettings (given : Given) : Transfer.Settings where
  timeout := given.number "timeout" numberLimit Transfer.defaultTimeoutSeconds * 1000
  maxRetries := given.number "retries" numberLimit Transfer.defaultRetries

/-- Neither may be zero. -/
def checkTransfer (settings : Transfer.Settings) : Except Complaint Unit :=
  if settings.timeout = 0 then .error { text := "Timeout must be at least one second" }
  else if settings.maxRetries = 0 then .error { text := "Retries must be at least one" }
  else .ok ()

end TftpUpload.CommandLine
