/-
  TftpUpload/Proofs/Transfer/Order.lean
  =====================================
  **Blocks in their order.**

  The blocks of a transfer are full but for the last one.  Their numbers are
  words, so a number tells two blocks apart only if they are less than 65536
  apart (`number_inj`).  Of the packets that come, the ones in order are those
  that carry the number that is due, up to the first block that is not full
  (`inOrder`).
-/
import TftpUpload.Transfer.Basic

namespace TftpUpload

def Wire.Message.number? : Wire.Message → Option UInt16
  | .writeRequest _ _ => some 0
  | .data n _ => some n
  | .ack n => some n
  | _ => none

namespace Transfer

open Wire

/-! ### Block numbers -/

/-- The number of the `n`th block on the wire; the request counts as block 0. -/
def number (n : Nat) : UInt16 := UInt16.ofNat n

theorem number_succ (n : Nat) : number n + 1 = number (n + 1) := (UInt16.ofNat_add n 1).symm

/-- Numbers differ as long as the blocks are less than 65536 apart. -/
theorem number_inj (low : Nat) {i j : Nat} (hi : low ≤ i) (hj : low ≤ j) (hi' : i < low + 65536)
    (hj' : j < low + 65536) (h : number i = number j) : i = j := by
  have hmod := congrArg UInt16.toNat h
  simp only [number, UInt16.toNat_ofNat'] at hmod
  omega

theorem number_ne_succ (n : Nat) : number n ≠ number (n + 1) := fun h => by
  have := number_inj n (Nat.le_refl _) (by omega) (by omega) (by omega) h
  omega

/-! ### Full and finished

Whether blocks are finished is seen by their last one.  A block that is not full is followed by
none. -/

def Full (blocks : List Bytes) : Prop := ∀ b ∈ blocks, b.length = blockSize

/-- Every block but the last is full, and the last is not. -/
def Finished (blocks : List Bytes) : Prop :=
  ∃ init last, blocks = init ++ [last] ∧ Full init ∧ last.length < blockSize

/-- The blocks of a transfer that may or may not be over. -/
def Orderly (blocks : List Bytes) : Prop := Full blocks ∨ Finished blocks

theorem full_nil : Full [] := by simp [Full]

theorem Full.concat {blocks : List Bytes} {b : Bytes} (h : Full blocks)
    (hb : b.length = blockSize) : Full (blocks ++ [b]) := by
  intro c hc
  rcases List.mem_append.1 hc with hc | hc
  · exact h c hc
  · rwa [List.mem_singleton.1 hc]

theorem Full.orderly_concat {blocks : List Bytes} {b : Bytes} (h : Full blocks)
    (hb : b.length ≤ blockSize) : Orderly (blocks ++ [b]) := by
  rcases Nat.lt_or_eq_of_le hb with hlt | heq
  · exact .inr ⟨blocks, b, rfl, h, hlt⟩
  · exact .inl (h.concat heq)

theorem Full.take {blocks : List Bytes} (h : Full blocks) (k : Nat) : Full (blocks.take k) :=
  fun b hb => h b (List.mem_of_mem_take hb)

theorem Finished.not_full {blocks : List Bytes} (h : Finished blocks) : ¬ Full blocks := by
  rintro hfull
  obtain ⟨init, last, rfl, -, hlast⟩ := h
  have := hfull last (by simp)
  omega

/-- A finished beginning is all there is. -/
theorem Orderly.take_eq {blocks : List Bytes} (h : Orderly blocks) {k : Nat}
    (hk : Finished (blocks.take k)) : blocks.take k = blocks := by
  rcases h with hfull | ⟨init, last, rfl, hinit, -⟩
  · exact absurd (hfull.take k) hk.not_full
  · by_cases hle : k ≤ init.length
    · rw [List.take_append_of_le_length hle] at hk
      exact absurd (hinit.take k) hk.not_full
    · apply List.take_of_length_le
      rw [List.length_append, List.length_singleton]
      omega

theorem Orderly.full_take {blocks : List Bytes} (h : Orderly blocks) {k : Nat}
    (hk : k < blocks.length) : Full (blocks.take k) := by
  rcases h with hfull | ⟨init, last, rfl, hinit, -⟩
  · exact hfull.take k
  · rw [List.length_append, List.length_singleton] at hk
    rw [List.take_append_of_le_length (Nat.le_of_lt_succ hk)]
    exact hinit.take k

theorem length_flatten_of_full {blocks : List Bytes} (h : Full blocks) :
    blocks.flatten.length = blocks.length * blockSize := by
  induction blocks with
  | nil => simp
  | cons b rest ih =>
    have hb : b.length = blockSize := h b (by simp)
    have hrest : Full rest := fun c hc => h c (by simp [hc])
    rw [List.flatten_cons, List.length_append, hb, ih hrest, List.length_cons, Nat.add_mul,
      Nat.one_mul, Nat.add_comm]

/-- A finished transfer has one block more than fill its bytes. -/
theorem Finished.length_eq {blocks : List Bytes} (h : Finished blocks) :
    blocks.length = blocks.flatten.length / blockSize + 1 := by
  obtain ⟨init, last, rfl, hinit, hlast⟩ := h
  rw [List.flatten_append, List.length_append, List.length_append, length_flatten_of_full hinit]
  simp only [blockSize, List.length_singleton, List.flatten_singleton] at hlast ⊢
  omega

/-! ### Blocks that come in order -/

/-- The blocks with a packet more: one of data that is due is put behind them. -/
def extend (blocks : List Bytes) : Message → List Bytes
  | .data n payload =>
    if blocks.all (·.length == blockSize) && n == number (blocks.length + 1) then
      blocks ++ [payload]
    else blocks
  | _ => blocks

/-- The blocks that packets bring in order. -/
def inOrder (messages : List Message) : List Bytes := messages.foldl extend []

theorem inOrder_concat (messages : List Message) (m : Message) :
    inOrder (messages ++ [m]) = extend (inOrder messages) m := by
  simp [inOrder]

theorem Full.extend_next {blocks : List Bytes} (h : Full blocks) (payload : Bytes) :
    extend blocks (.data (number (blocks.length + 1)) payload) = blocks ++ [payload] := by
  have hall : blocks.all (·.length == blockSize) := by simpa [Full] using h
  simp [extend, hall]

theorem extend_of_ne {blocks : List Bytes} {m : Message}
    (h : ∀ payload, m ≠ .data (number (blocks.length + 1)) payload) : extend blocks m = blocks := by
  cases m with
  | data n payload =>
    have hn : n ≠ number (blocks.length + 1) := fun hn => h payload (by rw [hn])
    simp [extend, hn]
  | _ => rfl

theorem prefix_extend (blocks : List Bytes) (m : Message) : blocks <+: extend blocks m := by
  unfold extend
  split
  · split
    · exact List.prefix_append _ _
    · exact List.prefix_rfl
  · exact List.prefix_rfl

theorem Finished.extend_eq {blocks : List Bytes} (h : Finished blocks) (m : Message) :
    extend blocks m = blocks := by
  have hall : blocks.all (·.length == blockSize) = false := by
    rw [Bool.eq_false_iff]
    intro hall
    exact h.not_full (by simpa [Full] using hall)
  cases m with
  | data n payload => simp [extend, hall]
  | _ => rfl

/-- The blocks with whatever a wait has brought. -/
def heard (blocks : List Bytes) (a : Arrival) : List Bytes :=
  match a.read with
  | .message m => extend blocks m
  | _ => blocks

theorem Finished.heard_eq {blocks : List Bytes} (h : Finished blocks) (a : Arrival) :
    heard blocks a = blocks := by
  unfold heard
  split
  · exact h.extend_eq _
  · rfl

/-! ### Broken rules -/

def Failure.isViolation : Failure → Bool
  | .protocol _ => true
  | .decode _ => true
  | _ => false

theorem not_violation_of_read {a : Arrival} {failure : Failure} (h : a.read = .failure failure)
    (hdatagram : ∀ bytes, a ≠ .datagram bytes) : failure.isViolation = false := by
  cases a with
  | datagram bytes => exact absurd rfl (hdatagram bytes)
  | silence => cases h
  | broken fault =>
    cases h
    rfl
  | stopped =>
    cases h
    rfl

theorem read_failure {a : Arrival} {failure : Failure} (h : a.read = .failure failure) :
    (∃ e, failure = .decode e) ∨ (∃ fault, failure = .transport fault) ∨ failure = .cancelled := by
  cases a with
  | datagram bytes =>
    unfold Arrival.read at h
    dsimp only at h
    split at h
    · cases h
    · cases h
      exact .inl ⟨_, rfl⟩
  | silence => cases h
  | broken fault =>
    cases h
    exact .inr (.inl ⟨fault, rfl⟩)
  | stopped =>
    cases h
    exact .inr (.inr rfl)

end Transfer

end TftpUpload
