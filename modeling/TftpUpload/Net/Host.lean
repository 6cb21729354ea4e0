/-
  TftpUpload/Net/Host.lean
  ========================
  **The machine that endpoints live on.**

  A host has interfaces with names, addresses of its own, and routes.  What an
  endpoint may be bound to, and whether a datagram leaves it, follows from them
  and from the kind of the address; the order in which reasons to refuse count
  is part of the rule.  On the isolated host no interface is up.  No IPv6
  address is its own, any IPv4 address passes for one, and of all datagrams only
  those for the unspecified IPv4 address are accepted; they get nowhere.
-/
import TftpUpload.Complaint
import TftpUpload.Fault
import TftpUpload.Net.HostName

namespace TftpUpload.Net

/-- What a machine offers to its endpoints. -/
structure Host where
  /-- Interfaces by name, with their indices. -/
  interfaces : List (String × UInt32)
  /-- The address of one host is this host's own. -/
  owns : IpAddress → Bool
  /-- What happens to a datagram for an address. -/
  route : IpAddress → Except Fault Unit

namespace Host

def isolated : Host where
  interfaces := [("lo", 1)]
  owns ip := !ip.isV6
  route ip :=
    if ip = .unspecified4 then .ok ()
    else if ip.isV6 then .error (.os .addressNotAvailable)
    else .error (.os .networkUnreachable)

/-! ### Binding -/

/-- Ports below this one are reserved.  Port 0 stands for any that is free. -/
def firstFreePort : Nat := 1024

def isReserved (port : UInt16) : Bool := port != 0 && port.toNat < firstFreePort

def checkScope (h : Host) (a : Address) : Except Fault Unit :=
  if !a.ip.needsInterface then .ok ()
  else if a.scope = 0 then .error (.os .invalidArgument)
  else if h.interfaces.any (·.2 == a.scope) then .ok ()
  else .error (.os .noSuchDevice)

def checkOwn (h : Host) (ip : IpAddress) : Except Fault Unit :=
  if h.owns ip then .ok () else .error (.os .addressNotAvailable)

def checkPort (port : UInt16) : Except Fault Unit :=
  if isReserved port then .error (.os .permissionDenied) else .ok ()

/-- An IPv6 endpoint can be opened at an IPv6 address that stands for itself. -/
def checkIp6 (h : Host) (a : Address) : Except Fault Unit := do
  if a.ip = .unspecified6 then
    return
  h.checkScope a
  if !a.ip.isGroup then
    h.checkOwn a.ip

/-- Opens an endpoint.  With `v6only`, an IPv6 endpoint has nothing to do with IPv4. -/
def openEndpoint (h : Host) (v6only : Bool) (a : Address) : Except Fault Unit := do
  if a.ip.isV6 then
    checkPort a.port
    match a.ip.mapped? with
    | none => h.checkIp6 a
    | some ip => if v6only then .error (.os .invalidArgument) else h.checkOwn ip
  else
    h.checkOwn a.ip
    checkPort a.port

/-! ### Sending -/

/-- The most bytes of a datagram over IPv4, with what goes before them. -/
def datagramLimit : Nat := 65535

def send4 (h : Host) (ip : IpAddress) (port : UInt16) (length : Nat) : Except Fault Unit :=
  if datagramLimit < length then .error (.os .messageTooLong)
  else if port = 0 then .error (.os .invalidArgument)
  else h.route ip

def send (h : Host) (v6only : Bool) (a : Address) (length : Nat) : Except Fault Unit :=
  if a.ip.isV6 then
    match a.ip.mapped? with
    | some ip =>
      if v6only then .error (.os .networkUnreachable) else h.send4 ip a.port length
    | none => if a.port = 0 then .error (.os .invalidArgument) else h.route a.ip
  else h.send4 a.ip a.port length

/-! ### Interfaces -/

inductive InterfaceError where
  | noSuchDevice
  | invalidName
deriving DecidableEq, Repr

def InterfaceError.message : InterfaceError → String
  | noSuchDevice => "ENODEV: No such device"
  | invalidName => "EINVAL: Invalid argument"

def interfaceNameLimit : Nat := 15

/-- The name of an interface without the alias that may follow it behind a colon. -/
def interfaceName (name : String) : String := String.ofList (name.toList.takeWhile (· != ':'))

def interfaceIndex (h : Host) (name : String) : Except InterfaceError UInt32 :=
  if name.toList.contains '\x00' then .error .invalidName
  else if interfaceNameLimit < name.utf8ByteSize then .error .noSuchDevice
  else
    match h.interfaces.lookup (interfaceName name) with
    | some index => .ok index
    | none => .error .noSuchDevice

/-- Puts an IPv6 address without a scope on the named interface. -/
def withScope (h : Host) (a : Address) (name : String) : Except Complaint Address :=
  match h.interfaceIndex name with
  | .error e => .error ⟨"Network interface '" ++ name ++ "' not found", [e.message]⟩
  | .ok index => .ok (if a.ip.isV6 && a.scope == 0 then { a with scope := index } else a)

/-! ### Names -/

def unknownName : Fault :=
  .stated "failed to lookup address information: Name or service not known"

/-- There is nobody to ask for the name. -/
def unansweredName : Fault :=
  .stated "failed to lookup address information: Temporary failure in name resolution"

/-- The index of the interface that follows an address.  An address that needs one may name it. -/
def scopeIndex? (h : Host) (ip : IpAddress) (scope : List Char) : Option UInt32 :=
  match ip.needsInterface, h.interfaceIndex (String.ofList scope) with
  | true, .ok index => some index
  | _, _ => HostName.indexOfNumber? scope

def lookUp (h : Host) (name : String) : Except Fault (IpAddress × UInt32) :=
  match IpAddress.ofText? name, HostName.ip4? name.toList, HostName.scoped? name.toList with
  | some ip, _, _ => .ok (ip, 0)
  | none, some ip, _ => .ok (ip, 0)
  | none, none, some (ip, scope) =>
    match h.scopeIndex? ip scope with
    | some index => .ok (ip, index)
    | none => .error unknownName
  | none, none, none =>
    .error (if HostName.isPossible name.toList then unansweredName else unknownName)

/-- The address of a host given by name.  An empty name is the host itself: every address of
it to bind to, the loopback address to talk to. -/
def resolve (h : Host) (host : String) (port : UInt16) (passive : Bool) : Except Fault Address :=
  if host.isEmpty then
    .ok ⟨if passive then .unspecified6 else .loopback6, port, 0⟩
  else if host.toList.contains '\x00' then .error .zeroByte
  else (h.lookUp host).map fun (ip, scope) => ⟨ip, port, scope⟩

end Host

end TftpUpload.Net
