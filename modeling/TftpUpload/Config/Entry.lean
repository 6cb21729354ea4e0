/-
  TftpUpload/Config/Entry.lean
  ============================
  **Configuration files.**

  A configuration names options, one a line: a key, and behind blanks its value
  if it has one.  Dashes in front of a key are not part of it.  A value in
  matching quotes is what stands between them, whatever that is; an empty value
  is none.  Blank lines and lines that begin with `#` say nothing.
-/
import TftpUpload.Text.Blank

namespace TftpUpload.Config

open Text

structure Entry where
  key : String
  value : Option String
deriving DecidableEq, Repr

/-- What stands between two quotes, if a text begins and ends with one. -/
def between? (quote : Char) : List Char → Option (List Char)
  | c :: rest => if c = quote ∧ rest.getLast? = some quote then some rest.dropLast else none
  | [] => none

def unquote (value : List Char) : List Char :=
  match between? '"' value with
  | some inner => inner
  | none => (between? '\'' value).getD value

/-- The option that a line names.  The line has no blanks at its ends and is not empty. -/
def entryOfLine (line : List Char) : Entry :=
  let key := line.takeWhile (!isBlank ·)
  let value :=
    match line.dropWhile (!isBlank ·) with
    | [] => []
    | _ :: rest => unquote (trim rest)
  { key := String.ofList (key.dropWhile (· == '-'))
    value := if value.isEmpty then none else some (String.ofList value) }

/-- The option of a line as it stands in the file, if there is one. -/
def entry? (line : List Char) : Option Entry :=
  match trim line with
  | [] => none
  | '#' :: _ => none
  | kept => some (entryOfLine kept)

def parse (contents : String) : List Entry := (lines contents.toList).filterMap entry?

end TftpUpload.Config
