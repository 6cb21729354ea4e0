/-
  TftpUpload/Net/Kind.lean
  ========================
  **Kinds of IP addresses.**

  Some IPv6 addresses stand for an IPv4 address, some for a group of hosts, and
  some mean another endpoint on every link: those need an interface.
-/
import TftpUpload.Net.Address

namespace TftpUpload.Net.IpAddress

def leading : IpAddress → Option (Nat × Nat)
  | v4 _ => none
  | v6 groups => groups.toList.head?.map fun g => (g.toNat / 256, g.toNat % 256)

/-- The IPv4 address that an IPv6 address stands for. -/
def mapped? : IpAddress → Option IpAddress
  | v4 _ => none
  | v6 groups =>
    match groups.toList with
    | [0, 0, 0, 0, 0, 0xffff, g, h] =>
      some (v4 #v[UInt8.ofNat (g.toNat / 256), UInt8.ofNat (g.toNat % 256),
        UInt8.ofNat (h.toNat / 256), UInt8.ofNat (h.toNat % 256)])
    | _ => none

/-- How far a group of hosts reaches, if the address is one of a group of IPv6 hosts. -/
def groupReach? (ip : IpAddress) : Option Nat :=
  match ip.leading with
  | some (0xff, low) => some (low % 16)
  | _ => none

def isGroup (ip : IpAddress) : Bool := ip.groupReach?.isSome

def interfaceReach : Nat := 1

def linkReach : Nat := 2

def isLinkLocal (ip : IpAddress) : Bool :=
  match ip.leading with
  | some (0xfe, low) => 0x80 ≤ low && low < 0xc0
  | _ => false

/-- An address that says nothing without an interface. -/
def needsInterface (ip : IpAddress) : Bool :=
  ip.isLinkLocal || ip.groupReach? == some interfaceReach || ip.groupReach? == some linkReach

end TftpUpload.Net.IpAddress
