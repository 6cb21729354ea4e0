/-
  TftpUpload/Config/Location.lean
  ===============================
  **Where configurations are kept.**

  A program's configuration lies in the directory for configurations, which the
  environment names; else it is the directory `.config` in the user's home.  A
  configuration that does not exist is empty.
-/
import TftpUpload.Complaint
import TftpUpload.Config.Entry
import TftpUpload.FileSystem.Access

namespace TftpUpload.Config

/-- The variables of the environment that say where configurations are. -/
structure Homes where
  /-- The directory for configurations.  An empty one does not count. -/
  configHome : Option String
  home : Option String
deriving DecidableEq, Repr

def Homes.directory? (h : Homes) : Option String :=
  match h.configHome.filter (!·.isEmpty) with
  | some directory => some directory
  | none => h.home.map (Path.join · ".config")

def path? (h : Homes) (program : String) : Option String :=
  h.directory?.map (Path.join · (program ++ ".conf"))

/-- Why a file cannot be read as a text, or the text. -/
def readText (files : FileSystem.Opener) (path : String) : Except Fault String :=
  match files.read path with
  | .error fault => .error fault
  | .ok bytes =>
    match Text.Utf8.decode? bytes with
    | some text => .ok text
    | none => .error .notText

def read (files : FileSystem.Opener) (path : String) : Except Complaint (List Entry) :=
  match readText files path with
  | .ok contents => .ok (parse contents)
  | .error fault =>
    if fault = .os .noEntry then .ok []
    else .error ⟨"Failed to read " ++ path, [fault.message]⟩

end TftpUpload.Config
