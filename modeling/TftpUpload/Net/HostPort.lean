/-
  TftpUpload/Net/HostPort.lean
  ============================
  **Host and port as users write them.**

  A host may be followed by a colon and a port.  A text with more than one colon
  is an IPv6 address and has no port; in brackets it may have one.  Without a
  port the default is taken.
-/
import TftpUpload.Complaint
import TftpUpload.Text.Number

namespace TftpUpload.Net

open Text

def portLimit : Nat := 65535

inductive HostPortError where
  | missingBracket (input : String)
  /-- Something other than a port follows the bracket. -/
  | unexpected (after input : String)
  | invalidPort (port input : String) (reason : NumberError)
deriving DecidableEq, Repr

def HostPortError.complaint : HostPortError → Complaint
  | missingBracket input => { text := "Missing ']' in address '" ++ input ++ "'" }
  | unexpected after input =>
    { text := "Unexpected '" ++ after ++ "' after address in '" ++ input ++ "'" }
  | invalidPort port input reason =>
    { text := "Invalid port '" ++ port ++ "' in '" ++ input ++ "'", causes := [reason.message] }

/-- What precedes the first `c` and what follows it. -/
def cutAt? (c : Char) : List Char → Option (List Char × List Char)
  | [] => none
  | x :: rest =>
    if x = c then some ([], rest)
    else (cutAt? c rest).map fun (before, after) => (x :: before, after)

def splitTexts (input : List Char) : Except HostPortError (List Char × Option (List Char)) :=
  match input with
  | '[' :: rest =>
    match cutAt? ']' rest with
    | none => .error (.missingBracket (String.ofList input))
    | some (host, []) => .ok (host, none)
    | some (host, ':' :: port) => .ok (host, some port)
    | some (_, after) => .error (.unexpected (String.ofList after) (String.ofList input))
  | _ =>
    if input.count ':' = 1 then
      match cutAt? ':' input with
      | some (host, port) => .ok (host, some port)
      | none => .ok (input, none)
    else .ok (input, none)

/-- The port that a text spells, or the default if there is none. -/
def readPortText (input : List Char) (default : UInt16) :
    Option (List Char) → Except HostPortError UInt16
  | none => .ok default
  | some port =>
    match readNatural portLimit port with
    | .ok n => .ok (UInt16.ofNat n)
    | .error reason => .error (.invalidPort (String.ofList port) (String.ofList input) reason)

def splitHostPort (input : String) (default : UInt16) : Except HostPortError (String × UInt16) :=
  match splitTexts input.toList with
  | .error e => .error e
  | .ok (host, port?) =>
    match readPortText input.toList default port? with
    | .error e => .error e
    | .ok port => .ok (String.ofList host, port)

end TftpUpload.Net
