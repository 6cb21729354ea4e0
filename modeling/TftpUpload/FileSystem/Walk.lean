/-
  TftpUpload/FileSystem/Walk.lean
  ===============================
  **Following a path.**

  A walk goes from directory to directory and follows the links it meets, at
  most forty.  It ends at the last name of the path, which need not exist, or at
  a directory if the path ends with `.` or `..`.  Whether a link under the last
  name is followed depends on what the walk is for.  A name that is too long,
  that is missing, or that is looked for in something other than a directory,
  ends the walk.

  To *locate* a path is to find out where an entry is, all links followed.  That
  is done name by name (`locate`), and has limits of its own.
-/
import TftpUpload.Fault
import TftpUpload.FileSystem.Basic
import TftpUpload.FileSystem.Path

namespace TftpUpload.FileSystem

inductive Spot where
  /-- At a name in a directory.  `slashed` says that a slash followed the name. -/
  | name (parent : Location) (last : String) (slashed : Bool)
  | directory (l : Location)
deriving DecidableEq, Repr

def linkLimit : Nat := 40

def nameLimit : Nat := 255

def pathLimit : Nat := 4095

/-- What becomes of a link under the last name of a path. -/
inductive LastLink where
  | kept
  | followed
  /-- It is followed, unless a slash stands behind it. -/
  | followedUnlessSlashed
deriving DecidableEq, Repr

def LastLink.isKept (slashed : Bool) : LastLink → Bool
  | kept => true
  | followed => false
  | followedUnlessSlashed => slashed

/-- A walk along `names` from the directory `here`.  `enter` goes on where a link leads. -/
def walkVia (fs : FileSystem) (last : LastLink)
    (enter : Location → List String → Except Errno Spot) :
    Location → List String → Except Errno Spot
  | here, [] => if fs.isDirectory here then .ok (.directory here) else .error .notADirectory
  | here, name :: rest =>
    if fs.isDirectory here then
      if name = "" ∨ name = "." then walkVia fs last enter here rest
      else if name = ".." then walkVia fs last enter here.dropLast rest
      else if nameLimit < name.utf8ByteSize then .error .nameTooLong
      else
        let isLast := rest.all (·.isEmpty)
        let slashed := !rest.isEmpty
        match fs.node? (here ++ [name]) with
        | none => if isLast then .ok (.name here name slashed) else .error .noEntry
        | some (.link target) =>
          if isLast && last.isKept slashed then .ok (.name here name slashed)
          else enter (if Path.isAbsolute target then [] else here) (Path.names target ++ rest)
        | some _ =>
          if isLast then .ok (.name here name slashed)
          else walkVia fs last enter (here ++ [name]) rest
    else .error .notADirectory

/-- A walk that may follow `links` links. -/
def walk (fs : FileSystem) (last : LastLink) : Nat → Location → List String → Except Errno Spot
  | 0 => walkVia fs last fun _ _ => .error .tooManyLinks
  | links + 1 => walkVia fs last (walk fs last links)

/-- A path can be handed to the system if it has no zero byte and is not empty. -/
def checkPath (path : String) : Except Fault Unit :=
  if path.toList.contains '\x00' then .error .zeroByte
  else if path.isEmpty then .error (.os .noEntry)
  else .ok ()

/-- Where a path of any length leads from the directory `here`. -/
def follow (fs : FileSystem) (last : LastLink) (here : Location) (path : String) :
    Except Errno Spot :=
  fs.walk last linkLimit (if Path.isAbsolute path then [] else here) (Path.names path)

/-- Where a path leads from the directory `here`.  The system takes no path that is too long. -/
def approach (fs : FileSystem) (last : LastLink) (here : Location) (path : String) :
    Except Fault Spot :=
  match checkPath path with
  | .error fault => .error fault
  | .ok () =>
    if pathLimit < path.utf8ByteSize then .error (.os .nameTooLong)
    else (fs.follow last here path).mapError .os

/-- The entry at a spot.  Only a directory may have a slash behind its name. -/
def entryAt (fs : FileSystem) : Spot → Except Errno Location
  | .directory l => .ok l
  | .name parent last slashed =>
    match fs.node? (parent ++ [last]) with
    | none => .error .noEntry
    | some node =>
      if slashed ∧ node ≠ .directory then .error .notADirectory
      else .ok (parent ++ [last])

/-- The entry that a path leads to, all links followed. -/
def entry (fs : FileSystem) (here : Location) (path : String) : Except Fault Location :=
  match fs.approach .followed here path with
  | .error fault => .error fault
  | .ok spot => (fs.entryAt spot).mapError .os

/-! ### Locating

A path is located name by name, with all links followed.  The path as it is given may be of any
length, but each entry on the way is looked up by the path that leads to it from the top, and this
one must not be too long, wherever the walk goes from there.  An entry that has to be a directory is
looked up with a slash behind its name. -/

/-- The path that an entry is looked up by, from the top down. -/
def entryPath (l : Location) (slashed : Bool) : String :=
  "/" ++ Path.ofPieces l ++ if slashed then "/" else ""

def liesTooDeep (l : Location) (slashed : Bool) : Bool :=
  pathLimit < (entryPath l slashed).utf8ByteSize

/-- A name in front of these has to be that of a directory: a slash or a dot ends the path, or `..`
comes next. -/
def asksDirectory (rest : List String) : Bool :=
  !rest.isEmpty && (rest.dropWhile fun name => name = "" ∨ name = ".").head?.all (· = "..")

def lookUp (fs : FileSystem) (here : Location) (name : String) (asDirectory : Bool) :
    Except Errno Node :=
  if liesTooDeep (here ++ [name]) false then .error .nameTooLong
  else if fs.isDirectory here then
    if nameLimit < name.utf8ByteSize then .error .nameTooLong
    else
      match fs.node? (here ++ [name]) with
      | some (.link target) => .ok (.link target)
      | some .directory =>
        if liesTooDeep (here ++ [name]) asDirectory then .error .nameTooLong else .ok .directory
      | some (.file id) =>
        if asDirectory then
          .error (if liesTooDeep (here ++ [name]) true then .nameTooLong else .notADirectory)
        else .ok (.file id)
      | none =>
        .error (if liesTooDeep (here ++ [name]) asDirectory then .nameTooLong else .noEntry)
  else .error .notADirectory

def traceVia (fs : FileSystem) (enter : Location → List String → Except Errno Location) :
    Location → List String → Except Errno Location
  | here, [] => .ok here
  | here, name :: rest =>
    if name = "" ∨ name = "." then traceVia fs enter here rest
    else if name = ".." then
      if fs.isDirectory here.dropLast then traceVia fs enter here.dropLast rest
      else .error .notADirectory
    else
      match fs.lookUp here name (asksDirectory rest) with
      | .error errno => .error errno
      | .ok (.link target) =>
        enter (if Path.isAbsolute target then [] else here) (Path.names target ++ rest)
      | .ok _ => traceVia fs enter (here ++ [name]) rest

def trace (fs : FileSystem) : Nat → Location → List String → Except Errno Location
  | 0 => traceVia fs fun _ _ => .error .tooManyLinks
  | links + 1 => traceVia fs (trace fs links)

/-- The entry that a path leads to, as a location. -/
def locate (fs : FileSystem) (here : Location) (path : String) : Except Fault Location :=
  match checkPath path with
  | .error fault => .error fault
  | .ok () =>
    let start := if Path.isAbsolute path then [] else here
    if fs.isDirectory start then (fs.trace linkLimit start (Path.names path)).mapError .os
    else .error (.os .noEntry)

end TftpUpload.FileSystem
