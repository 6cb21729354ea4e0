/-
  TftpUpload/Proofs/Exchange/Medium.lean
  ======================================
  **What may happen to datagrams on their way.**

  A medium never makes up or alters a datagram; beyond that it is free.  Two
  are looked at: `bag` delivers what it was given in any order and as often as
  it likes, and `fifo` keeps the order, but may lose a datagram, or deliver it
  several times in a row.  `Tracks` is what a proof has to know about a medium:
  if the datagrams are numbered in the order in which they were given to it, the
  numbers of those that can still come out lie in a window.  Over `fifo` the low
  end of the window follows what has come out; over `bag` it stays at 0.
-/
import TftpUpload.Transfer.Basic

namespace TftpUpload.Exchange

open Wire Transfer

/-- A way from one side to the other, with contents of type `γ`. -/
structure Medium (γ : Type) where
  empty : γ
  carry : Bytes → γ → γ
  /-- A datagram can come out; the number counts it if it is one copy more than were put in. -/
  Yields : γ → Bytes → Nat → γ → Prop
  Loses : γ → γ → Prop

variable {γ : Type}

/-! ### Two media

A bag forgets nothing, so it need not be asked what it still holds.  A channel forgets a datagram
when the next one has come out. -/

def bag : Medium (List Bytes) where
  empty := []
  carry datagram pool := datagram :: pool
  Yields pool datagram extra pool' := datagram ∈ pool ∧ extra = 0 ∧ pool' = pool
  Loses pool pool' := pool'.Sublist pool

/-- Datagrams under way in their order, and the one that came out last. -/
structure Channel where
  queue : List Bytes := []
  last : Option Bytes := none

namespace Channel

/-- The next datagram comes out, or the last one once more. -/
inductive Yields : Channel → Bytes → Nat → Channel → Prop where
  | next {datagram : Bytes} {rest : List Bytes} {last : Option Bytes} :
    Yields ⟨datagram :: rest, last⟩ datagram 0 ⟨rest, some datagram⟩
  | again {datagram : Bytes} {queue : List Bytes} :
    Yields ⟨queue, some datagram⟩ datagram 1 ⟨queue, some datagram⟩

/-- Any datagram under way can get lost. -/
inductive Loses : Channel → Channel → Prop where
  | lose {front rest : List Bytes} {datagram : Bytes} {last : Option Bytes} :
    Loses ⟨front ++ datagram :: rest, last⟩ ⟨front ++ rest, last⟩

def pending (c : Channel) : List Bytes := c.last.toList ++ c.queue

end Channel

def fifo : Medium Channel where
  empty := {}
  carry datagram c := { c with queue := c.queue ++ [datagram] }
  Yields := Channel.Yields
  Loses := Channel.Loses

/-! ### Waiting on a medium -/

/-- What a wait on a medium can end with, and how many anomalies that is: a silent interval is one,
and so is a copy that was not put in. -/
inductive Medium.Brings (medium : Medium γ) (c : γ) : Arrival → Nat → γ → Prop where
  | datagram {bytes : Bytes} {extra : Nat} {c' : γ} (yields : medium.Yields c bytes extra c') :
    Brings medium c (.datagram bytes) extra c'
  | silence : Brings medium c .silence 1 c
  | broken (fault : Fault) : Brings medium c (.broken fault) 0 c
  | stopped : Brings medium c .stopped 0 c

/-- What the medium holds after a packet was to be sent: a call that fails puts nothing in. -/
def Medium.given (medium : Medium γ) (v : Verdict) (datagram : Bytes) (c : γ) : γ :=
  match v with
  | .ok () => medium.carry datagram c
  | .error _ => c

/-! ### Keeping track -/

/-- A way to keep track of the datagrams in a medium.  `Holds tag low high c` says that whatever can
come out of `c` is tagged with a number from `low` to `high`; once number `j` has come out, no
number below `floor j` does. -/
structure Tracks (medium : Medium γ) where
  floor : Nat → Nat
  Holds : (Nat → Bytes → Prop) → Nat → Nat → γ → Prop
  floor_le (j : Nat) : floor j ≤ j
  empty (tag : Nat → Bytes → Prop) (low high : Nat) : Holds tag low high medium.empty
  weaken {tag tag' : Nat → Bytes → Prop} {low low' high high' : Nat} {c : γ}
    (h : Holds tag low high c) (hlow : low' ≤ low) (hhigh : high ≤ high')
    (htag : ∀ j d, j ≤ high → tag j d → tag' j d) : Holds tag' low' high' c
  carry {tag : Nat → Bytes → Prop} {low high : Nat} {c : γ} {d : Bytes}
    (h : Holds tag low high c) (hle : low ≤ high) (hd : tag high d) :
    Holds tag low high (medium.carry d c)
  lose {tag : Nat → Bytes → Prop} {low high : Nat} {c c' : γ} (h : Holds tag low high c)
    (hc : medium.Loses c c') : Holds tag low high c'
  yield {tag : Nat → Bytes → Prop} {low high extra : Nat} {c c' : γ} {d : Bytes}
    (h : Holds tag low high c) (hc : medium.Yields c d extra c') :
    ∃ j, low ≤ j ∧ j ≤ high ∧ tag j d ∧ ∀ i, floor i ≤ j → Holds tag (floor i) high c'

/-- In a bag every datagram keeps its number, and may come out for ever. -/
def bagTracks : Tracks bag where
  floor _ := 0
  Holds tag low high pool := ∀ d ∈ pool, ∃ j, low ≤ j ∧ j ≤ high ∧ tag j d
  floor_le := Nat.zero_le
  empty _ _ _ := by simp [bag]
  weaken h hlow hhigh htag d hd := by
    obtain ⟨j, hj, hj', htagged⟩ := h d hd
    exact ⟨j, Nat.le_trans hlow hj, Nat.le_trans hj' hhigh, htag j d hj' htagged⟩
  carry h hle hd d' hd' := by
    rcases List.mem_cons.1 hd' with rfl | hmem
    · exact ⟨_, hle, Nat.le_refl _, hd⟩
    · exact h d' hmem
  lose h hc d hd := h d (hc.subset hd)
  yield h hc := by
    obtain ⟨hmem, -, rfl⟩ := hc
    obtain ⟨j, hlow, hhigh, htagged⟩ := h _ hmem
    refine ⟨j, hlow, hhigh, htagged, ?_⟩
    intro _ _ d hd
    obtain ⟨i, -, hi, htagged'⟩ := h d hd
    exact ⟨i, Nat.zero_le i, hi, htagged'⟩

/-- The datagrams are tagged with numbers that do not fall. -/
def Rising (tag : Nat → Bytes → Prop) (high : Nat) : Nat → List Bytes → Prop
  | _, [] => True
  | low, d :: rest => ∃ j, low ≤ j ∧ j ≤ high ∧ tag j d ∧ Rising tag high j rest

theorem Rising.weaken {tag tag' : Nat → Bytes → Prop} {low low' high high' : Nat}
    {ds : List Bytes} (h : Rising tag high low ds) (hlow : low' ≤ low) (hhigh : high ≤ high')
    (htag : ∀ j d, j ≤ high → tag j d → tag' j d) : Rising tag' high' low' ds := by
  induction ds generalizing low low' with
  | nil => trivial
  | cons d rest ih =>
    obtain ⟨j, hj, hj', htagged, hrest⟩ := h
    exact ⟨j, Nat.le_trans hlow hj, Nat.le_trans hj' hhigh, htag j d hj' htagged,
      ih hrest (Nat.le_refl j)⟩

theorem Rising.lower {tag : Nat → Bytes → Prop} {low low' high : Nat} {ds : List Bytes}
    (h : Rising tag high low ds) (hlow : low' ≤ low) : Rising tag high low' ds :=
  h.weaken hlow (Nat.le_refl high) fun _ _ _ htagged => htagged

theorem Rising.sublist {tag : Nat → Bytes → Prop} {low high : Nat} {ds ds' : List Bytes}
    (h : Rising tag high low ds) (hsub : ds'.Sublist ds) : Rising tag high low ds' := by
  induction hsub generalizing low with
  | slnil => trivial
  | cons d _ ih =>
    obtain ⟨j, hj, -, -, hrest⟩ := h
    exact ih (hrest.lower hj)
  | cons_cons d _ ih =>
    obtain ⟨j, hj, hj', htagged, hrest⟩ := h
    exact ⟨j, hj, hj', htagged, ih hrest⟩

theorem Rising.concat {tag : Nat → Bytes → Prop} {low high : Nat} {ds : List Bytes} {d : Bytes}
    (h : Rising tag high low ds) (hle : low ≤ high) (hd : tag high d) :
    Rising tag high low (ds ++ [d]) := by
  induction ds generalizing low with
  | nil => exact ⟨high, hle, Nat.le_refl high, hd, trivial⟩
  | cons d' rest ih =>
    obtain ⟨j, hj, hj', htagged, hrest⟩ := h
    exact ⟨j, hj, hj', htagged, ih hrest hj'⟩

/-- In a channel the numbers of what can still come out do not fall. -/
def fifoTracks : Tracks fifo where
  floor j := j
  Holds tag low high c := Rising tag high low c.pending
  floor_le := Nat.le_refl
  empty _ _ _ := trivial
  weaken h := h.weaken
  carry {_ low high c d} h hle hd := by
    have hpending : (fifo.carry d c).pending = c.pending ++ [d] := (List.append_assoc ..).symm
    rw [hpending]
    exact h.concat hle hd
  lose h hc := by
    cases hc with
    | lose =>
      refine h.sublist (List.Sublist.append (List.Sublist.refl _) ?_)
      exact List.Sublist.append (List.Sublist.refl _) (List.sublist_cons_self ..)
  yield h hc := by
    cases hc with
    | next =>
      obtain ⟨j, hlow, hhigh, htagged, hrest⟩ := h.sublist (List.sublist_append_right ..)
      exact ⟨j, hlow, hhigh, htagged, fun i hi => ⟨j, hi, hhigh, htagged, hrest⟩⟩
    | again =>
      obtain ⟨j, hlow, hhigh, htagged, hrest⟩ := h
      exact ⟨j, hlow, hhigh, htagged, fun i hi => ⟨j, hi, hhigh, htagged, hrest⟩⟩

end TftpUpload.Exchange
