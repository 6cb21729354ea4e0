/-
  TftpUpload/FileSystem/Path.lean
  ===============================
  **Paths as texts.**

  A path is a text whose pieces are divided by slashes.  Empty pieces count for
  nothing, and a piece `.` only counts where a path begins with it.  Nothing is
  looked up here: `..` stays a piece.
-/

namespace TftpUpload.Path

/-- The pieces between slashes, empty ones included.  There is always one. -/
def pieces (path : String) : List String := (path.toList.splitOn '/').map String.ofList

def isAbsolute (path : String) : Bool := path.toList.head? == some '/'

def ofPieces (ps : List String) : String := "/".intercalate ps

/-- `next` as seen from `base`.  An absolute path stands for itself. -/
def join (base next : String) : String :=
  if isAbsolute next || base.isEmpty then next
  else if base.toList.getLast? == some '/' then base ++ next
  else base ++ "/" ++ next

/-- Pieces, last one first, without those at the end that count for nothing.  The first piece
of a path stays. -/
def trimEnd : List String → List String
  | last :: before :: rest =>
    if last = "" ∨ last = "." then trimEnd (before :: rest) else last :: before :: rest
  | ps => ps

/-- The path without its last piece, if it has a piece that can be taken away. -/
def parent? (path : String) : Option String :=
  match trimEnd (pieces path).reverse with
  | [] => none
  | [only] => if only = "" then none else some ""
  | _ :: before =>
    match trimEnd before with
    | [""] => some "/"
    | ps => some (ofPieces ps.reverse)

def fileName? (path : String) : Option String :=
  match trimEnd (pieces path).reverse with
  | [] => none
  | last :: _ => if last = "" ∨ last = "." ∨ last = ".." then none else some last

/-- A path that starts out from where one is and never goes up. -/
def isDescending (path : String) : Bool :=
  !isAbsolute path && !(pieces path).contains ".."

/-- The names that a walk along the path meets.  An empty name at the end stands for a slash
there: what comes before it has to be a directory. -/
def names (path : String) : List String :=
  let ps := pieces path
  let slashed := ps.getLast? == some ""
  ps.filter (· != "") ++ if slashed then [""] else []

end TftpUpload.Path
