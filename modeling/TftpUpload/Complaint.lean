/-
  TftpUpload/Complaint.lean
  =========================
  **What a program says when it cannot go on.**

  A complaint is a sentence, and below it what caused it, outermost first.
-/

namespace TftpUpload

/-- A failure as it is told to the user. -/
structure Complaint where
  text : String
  causes : List String := []
deriving DecidableEq, Repr

namespace Complaint

/-- A single cause is indented; several are numbered. -/
def causeLines : List String → List String
  | [only] => ["    " ++ only]
  | causes => causes.zipIdx.map fun (cause, n) =>
    let number := toString n
    "".pushn ' ' (5 - number.length) ++ number ++ ": " ++ cause

def render (c : Complaint) : String :=
  if c.causes.isEmpty then "Error: " ++ c.text
  else "Error: " ++ c.text ++ "\n\nCaused by:\n" ++ "\n".intercalate (causeLines c.causes)

end Complaint

end TftpUpload
