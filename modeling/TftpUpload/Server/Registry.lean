/-
  TftpUpload/Server/Registry.lean
  ===============================
  **Transfers by the addresses of their peers.**

  A peer has at most one transfer.  A second one is refused; looking up,
  changing and removing act on the transfer of the given peer alone, which is
  what the lemmas about `find?` say.
-/
import TftpUpload.Net.Address

namespace TftpUpload.Server

open Net

/-- Values by address, no two under one address. -/
structure Registry (α : Type) where
  sessions : List (Address × α) := []
deriving DecidableEq, Repr

/-- The peer has a transfer already. -/
structure AlreadyExists where
  peer : Address
deriving DecidableEq, Repr

def AlreadyExists.message (e : AlreadyExists) : String :=
  "a session for " ++ e.peer.text ++ " already exists"

namespace Registry

variable {α : Type}

def find? (r : Registry α) (peer : Address) : Option α := r.sessions.lookup peer

def create (r : Registry α) (peer : Address) (value : α) : Except AlreadyExists (Registry α) :=
  match r.find? peer with
  | some _ => .error ⟨peer⟩
  | none => .ok ⟨(peer, value) :: r.sessions⟩

def modify (r : Registry α) (peer : Address) (f : α → α) : Registry α :=
  ⟨r.sessions.map fun (p, value) => if p = peer then (p, f value) else (p, value)⟩

def remove (r : Registry α) (peer : Address) : Registry α :=
  ⟨r.sessions.filter (·.1 != peer)⟩

def isEmpty (r : Registry α) : Bool := r.sessions.isEmpty

def peers (r : Registry α) : List Address := r.sessions.map (·.1)

theorem find?_create {r r' : Registry α} {peer : Address} {value : α}
    (h : r.create peer value = .ok r') (q : Address) :
    r'.find? q = if q = peer then some value else r.find? q := by
  unfold create at h
  split at h
  · cases h
  · cases h
    by_cases hq : q = peer
    · simp [find?, hq]
    · simp [find?, hq, List.lookup_cons, beq_eq_false_iff_ne.2 hq]

theorem find?_remove (r : Registry α) (peer q : Address) :
    (r.remove peer).find? q = if q = peer then none else r.find? q := by
  obtain ⟨sessions⟩ := r
  simp only [find?, remove]
  induction sessions with
  | nil => simp
  | cons e rest ih =>
    obtain ⟨p, value⟩ := e
    by_cases hp : p = peer
    · by_cases hq : q = peer
      · simpa [hp, hq] using ih
      · have hne : (q == p) = false := beq_eq_false_iff_ne.2 (hp ▸ hq)
        simpa [hp, hq, List.lookup_cons, hp ▸ hne] using ih
    · by_cases hqp : q = p
      · simp [hqp, hp]
      · have hne : (q == p) = false := beq_eq_false_iff_ne.2 hqp
        simpa [hp, List.lookup_cons, hne] using ih

end Registry

end TftpUpload.Server
