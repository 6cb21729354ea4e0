/-
  TftpUpload/Client/Job.lean
  ==========================
  **What a user wants uploaded.**

  A file is uploaded under the last name of its path; a path that ends without
  one is itself the name.  A lone dash means standard input.
-/
import TftpUpload.Config.Arguments
import TftpUpload.FileSystem.Access
import TftpUpload.Sender.Source

namespace TftpUpload.Client

/-- Where the contents of an upload come from. -/
inductive Origin where
  | path (path : String)
  | standardInput
deriving DecidableEq, Repr

structure Job where
  /-- The name under which the server keeps it. -/
  remoteName : String
  origin : Origin
deriving DecidableEq, Repr

namespace Job

def standardInputName : String := "stdin"

def ofPath (path : String) : Job := ⟨(Path.fileName? path).getD path, .path path⟩

def standardInput : Job := ⟨standardInputName, .standardInput⟩

def ofArgument (argument : String) : Job :=
  if argument = Config.standardInput then standardInput else ofPath argument

end Job

/-- Where a program runs: the files that it can open, and what is on its standard input. -/
structure Workplace where
  files : FileSystem.Opener
  standardInput : Bytes := []

/-- Opens what is to be uploaded.  Returns it with its size, as far as that is known. -/
def Workplace.openOrigin (w : Workplace) : Origin → Except Fault (Source × Option Nat)
  | .standardInput => .ok (Source.ofBytes w.standardInput, none)
  | .path path =>
    match w.files path with
    | .error fault => .error fault
    | .ok (.contents bytes) => .ok (Source.ofBytes bytes, some bytes.length)
    | .ok .directory => .ok ({ rest := [], damage := some (0, .os .isADirectory) }, none)

end TftpUpload.Client
