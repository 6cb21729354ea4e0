/-
  TftpUpload/Net/Address.lean
  ===========================
  **Addresses of endpoints.**

  An endpoint is known by its IP address and its port; for an IPv6 address that
  is only valid on one link, the scope says on which.  Two addresses are the
  same endpoint only if all of this agrees.  The text of an IPv6 address
  contracts its longest run of zero groups, the first of several, unless the
  run is a single group.
-/
import TftpUpload.Text.Number

namespace TftpUpload.Net

open Text

/-! ### Addresses -/

inductive IpAddress where
  | v4 (octets : Vector UInt8 4)
  | v6 (groups : Vector UInt16 8)
deriving DecidableEq, Repr

structure Address where
  ip : IpAddress
  port : UInt16
  /-- The index of the interface, or 0 when there is no need for one. -/
  scope : UInt32 := 0
deriving DecidableEq, Repr

namespace IpAddress

def unspecified4 : IpAddress := v4 #v[0, 0, 0, 0]

def unspecified6 : IpAddress := v6 #v[0, 0, 0, 0, 0, 0, 0, 0]

def loopback6 : IpAddress := v6 #v[0, 0, 0, 0, 0, 0, 0, 1]

def isV6 : IpAddress → Bool
  | v4 _ => false
  | v6 _ => true

/-- The address that stands for every address of the same family. -/
def unspecified : IpAddress → IpAddress
  | v4 _ => unspecified4
  | v6 _ => unspecified6

end IpAddress

/-- The address from which an endpoint of the same family starts out: any, with any port. -/
def Address.unspecified (a : Address) : Address := ⟨a.ip.unspecified, 0, 0⟩

/-! ### Writing -/

structure ZeroRun where
  start : Nat
  length : Nat
deriving DecidableEq, Repr

/-- The longest run of zeros, the first of several.  `at` is the position of the first group,
`current` the run that ends there and `best` the longest before. -/
def longestZeroRun : Nat → ZeroRun → ZeroRun → List UInt16 → ZeroRun
  | _, _, best, [] => best
  | position, current, best, group :: rest =>
    if group = 0 then
      let run : ZeroRun :=
        ⟨if current.length = 0 then position else current.start, current.length + 1⟩
      longestZeroRun (position + 1) run (if best.length < run.length then run else best) rest
    else
      longestZeroRun (position + 1) ⟨0, 0⟩ best rest

def groupsText (groups : List UInt16) : String :=
  ":".intercalate (groups.map fun g => String.ofList (digits 16 g.toNat))

def octetsText (octets : List Nat) : String :=
  ".".intercalate (octets.map toString)

def ip6Text : List UInt16 → String
  | [0, 0, 0, 0, 0, 0xffff, g, h] =>
    "::ffff:" ++ octetsText [g.toNat / 256, g.toNat % 256, h.toNat / 256, h.toNat % 256]
  | groups =>
    let run := longestZeroRun 0 ⟨0, 0⟩ ⟨0, 0⟩ groups
    if 1 < run.length then
      groupsText (groups.take run.start) ++ "::" ++
        groupsText (groups.drop (run.start + run.length))
    else
      groupsText groups

def IpAddress.text : IpAddress → String
  | v4 octets => octetsText (octets.toList.map UInt8.toNat)
  | v6 groups => ip6Text groups.toList

def Address.text (a : Address) : String :=
  let port := ":" ++ toString a.port.toNat
  match a.ip with
  | .v4 _ => a.ip.text ++ port
  | .v6 _ =>
    if a.scope = 0 then "[" ++ a.ip.text ++ "]" ++ port
    else "[" ++ a.ip.text ++ "%" ++ toString a.scope.toNat ++ "]" ++ port

/-! ### Reading

A reader takes what it can use from the front of a text and returns the rest.  A reader that
fails has taken nothing. -/

abbrev Reader (α : Type) := List Char → Option (α × List Char)

def readChar (expected : Char) : Reader Unit
  | c :: rest => if c = expected then some ((), rest) else none
  | [] => none

def leadingDigits (base : Nat) : List Char → List Nat × List Char
  | c :: rest =>
    match digitValue? base c with
    | some d =>
      let (more, rest') := leadingDigits base rest
      (d :: more, rest')
    | none => ([], c :: rest)
  | [] => ([], [])

/-- A number of at most `limit`, in at most `width` digits if there is a width.  Leading zeros
count as digits, and may be forbidden.  A value that is too large does not grow any more. -/
def readNumber (base limit : Nat) (width : Option Nat) (leadingZeros : Bool) : Reader Nat :=
  fun text =>
    let (ds, rest) := leadingDigits base text
    let value := ds.foldl (fun value d => if limit < value then value else value * base + d) 0
    let fits := match width with
      | some w => ds.length ≤ w
      | none => true
    let padded := ds.head? == some 0 && 1 < ds.length
    if ds.isEmpty || limit < value || !fits || (padded && !leadingZeros) then none
    else some (value, rest)

def readOctet : Reader UInt8 := fun text => do
  let (n, rest) ← readNumber 10 255 (some 3) false text
  return (UInt8.ofNat n, rest)

def readIp4 : Reader (Vector UInt8 4) := fun text => do
  let (a, text) ← readOctet text
  let (_, text) ← readChar '.' text
  let (b, text) ← readOctet text
  let (_, text) ← readChar '.' text
  let (c, text) ← readOctet text
  let (_, text) ← readChar '.' text
  let (d, text) ← readOctet text
  return (#v[a, b, c, d], text)

/-- The two groups that an IPv4 address fills at the end of an IPv6 address. -/
def groupsOfIp4 (octets : Vector UInt8 4) : List UInt16 :=
  [UInt16.ofNat (octets[0].toNat * 256 + octets[1].toNat),
    UInt16.ofNat (octets[2].toNat * 256 + octets[3].toNat)]

/-- The colon before a group that is not the first. -/
def readColon (first : Bool) : Reader Unit := fun text =>
  if first then some ((), text) else readChar ':' text

/-- Up to `room` groups, and whether an IPv4 address ended them. -/
def readGroups : Nat → Bool → List Char → (List UInt16 × Bool) × List Char
  | 0, _, text => (([], false), text)
  | room + 1, first, text =>
    let embedded? : Option (Vector UInt8 4 × List Char) :=
      if room = 0 then none
      else (readColon first text).bind fun (_, text) => readIp4 text
    match embedded? with
    | some (octets, rest) => ((groupsOfIp4 octets, true), rest)
    | none =>
      match (readColon first text).bind fun (_, text) => readNumber 16 65535 (some 4) true text with
      | none => (([], false), text)
      | some (g, rest) =>
        let ((more, embedded), rest') := readGroups room false rest
        ((UInt16.ofNat g :: more, embedded), rest')

def groupVector? (groups : List UInt16) : Option (Vector UInt16 8) :=
  if h : groups.length = 8 then some ⟨groups.toArray, by simpa using h⟩ else none

def readIp6 : Reader (Vector UInt16 8) := fun text => do
  let ((front, embedded), rest) := readGroups 8 true text
  if front.length = 8 then
    let groups ← groupVector? front
    return (groups, rest)
  else if embedded then
    none
  else
    let (_, rest) ← readChar ':' rest
    let (_, rest) ← readChar ':' rest
    let ((back, _), rest) := readGroups (7 - front.length) true rest
    let groups ← groupVector? (front ++ List.replicate (8 - front.length - back.length) 0 ++ back)
    return (groups, rest)

def readPort : Reader UInt16 := fun text => do
  let (_, text) ← readChar ':' text
  let (n, text) ← readNumber 10 65535 none true text
  return (UInt16.ofNat n, text)

def readScope : List Char → Option (UInt32 × List Char)
  | '%' :: text => do
    let (n, text) ← readNumber 10 4294967295 none true text
    return (UInt32.ofNat n, text)
  | text => some (0, text)

def readAddress4 : Reader Address := fun text => do
  let (octets, text) ← readIp4 text
  let (port, text) ← readPort text
  return (⟨.v4 octets, port, 0⟩, text)

def readAddress6 : Reader Address := fun text => do
  let (_, text) ← readChar '[' text
  let (groups, text) ← readIp6 text
  let (scope, text) ← readScope text
  let (_, text) ← readChar ']' text
  let (port, text) ← readPort text
  return (⟨.v6 groups, port, scope⟩, text)

/-- What a reader reads if it reads the whole text. -/
def whole {α : Type} (reader : Reader α) (text : List Char) : Option α :=
  match reader text with
  | some (value, []) => some value
  | _ => none

def IpAddress.ofText? (text : String) : Option IpAddress :=
  match whole readIp4 text.toList with
  | some octets => some (.v4 octets)
  | none => (whole readIp6 text.toList).map .v6

def Address.ofText? (text : String) : Option Address :=
  match whole readAddress4 text.toList with
  | some a => some a
  | none => whole readAddress6 text.toList

end TftpUpload.Net
