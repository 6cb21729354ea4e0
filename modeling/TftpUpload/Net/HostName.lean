/-
  TftpUpload/Net/HostName.lean
  ============================
  **Names of hosts that are addresses, and names that no host has.**

  An IPv4 address may also be written with fewer than four numbers, of which the
  last fills what is left, and a number also in octal, behind a zero, or in
  hexadecimal, behind `0x`.  An IPv6 address may be followed by a percent sign
  and its interface.  Any other name of a host consists of labels with dots
  between them.
-/
import TftpUpload.Net.Kind

namespace TftpUpload.Net.HostName

open Text

/-! ### Numbers with dots -/

def basedDigits : List Char → Nat × List Char
  | '0' :: x :: d :: rest =>
    if (x = 'x' ∨ x = 'X') ∧ (digitValue? 16 d).isSome then (16, d :: rest)
    else (8, '0' :: x :: d :: rest)
  | '0' :: rest => (8, '0' :: rest)
  | text => (10, text)

def numberLimit : Nat := 4294967295

def readNumber : Reader Nat := fun text =>
  let (base, text) := basedDigits text
  Net.readNumber base numberLimit none true text

/-- At most `room` numbers with dots between them. -/
def readNumbers : Nat → Reader (List Nat)
  | 0 => fun _ => none
  | room + 1 => fun text => do
    let (n, rest) ← readNumber text
    match rest with
    | '.' :: rest =>
      let (more, rest) ← readNumbers room rest
      return (n :: more, rest)
    | _ => return ([n], rest)

/-- The number that is spelled by numbers for at most `room` octets.  Each but the last fills one
octet, and the last all that are left. -/
def combine : Nat → List Nat → Option Nat
  | room, [last] => if last < 256 ^ room then some last else none
  | room + 1, octet :: rest =>
    if octet < 256 then (combine room rest).map (octet * 256 ^ room + ·) else none
  | _, _ => none

def ip4OfNat (n : Nat) : IpAddress :=
  .v4 #v[UInt8.ofNat (n / 16777216), UInt8.ofNat (n / 65536 % 256), UInt8.ofNat (n / 256 % 256),
    UInt8.ofNat (n % 256)]

def ip4? (name : List Char) : Option IpAddress :=
  ((whole (readNumbers 4) name).bind (combine 4)).map ip4OfNat

/-! ### Interfaces -/

/-- An IPv6 address, and what follows the percent sign behind it. -/
def scoped? (name : List Char) : Option (IpAddress × List Char) :=
  match name.dropWhile (· != '%') with
  | '%' :: scope =>
    (whole readIp6 (name.takeWhile (· != '%'))).map fun groups => (.v6 groups, scope)
  | _ => none

def indexOfNumber? (scope : List Char) : Option UInt32 :=
  (whole (Net.readNumber 10 4294967295 none true) scope).map UInt32.ofNat

/-! ### Labels -/

def labelLimit : Nat := 63

/-- The most bytes of all labels, with one more byte for each. -/
def labelsLimit : Nat := 254

def isLabelChar (c : Char) : Bool := c.isAlphanum || c = '-' || c = '_'

def isLabel (label : List Char) : Bool :=
  !label.isEmpty && label.length ≤ labelLimit && label.all isLabelChar

/-- The labels of a name.  A dot may end it, and a lone dot is the name without labels. -/
def labels (name : List Char) : List (List Char) :=
  if name = ['.'] then []
  else
    match (name.splitOn '.').reverse with
    | [] :: before => before.reverse
    | _ => name.splitOn '.'

def isPossible (name : List Char) : Bool :=
  name.head? != some '-' && (labels name).all isLabel &&
    (labels name).flatten.length + (labels name).length ≤ labelsLimit

end TftpUpload.Net.HostName
