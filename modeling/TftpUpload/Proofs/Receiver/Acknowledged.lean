/-
  TftpUpload/Proofs/Receiver/Acknowledged.lean
  ============================================
  **What is acknowledged is stored.**

  An acknowledgement leaves a reception for a block that was written, for one
  that has come again, for a repeated request, after silence, and while the
  reception lingers; its number is taken from the packet, from the phase of the
  session or from what was acknowledged before.  Whichever it is, at that moment
  the storage has accepted the payloads of all the blocks that it speaks of, in
  their order and each once, and has been flushed if the last of them ended the
  transfer (`acknowledged_is_stored`).  What a reception says when it fails is
  no acknowledgement (`Stands.of_ack`).
-/
import TftpUpload.Proofs.Receiver.AllOrNothing

namespace TftpUpload

open Wire Transfer Storage

namespace Reception

variable {σ κ : Type} {violated : Prop} {name : String} {blocks : List Bytes}

/-! ### What an acknowledgement vouches for

The number of an acknowledgement is a word and says little by itself.  What it vouches for is taken
from the packets: the blocks that have come in order. -/

/-- The calls have stored `blocks` under `name`, and nothing else: the destination was created once,
everything written to it is the blocks in their order, and a flush follows once the last of them
has ended the transfer. -/
structure Secured (name : String) (blocks : List Bytes) (calls : List Call) : Prop where
  shape : ∃ writes, (∀ c ∈ writes, c.isWrite) ∧ stored writes = blocks.flatten ∧
    ((Full blocks ∧ calls = .create name true :: writes) ∨
      (Finished blocks ∧ calls = .create name true :: (writes ++ [.flush true])))

theorem Written.secured {calls : List Call} (h : Written name blocks calls) (full : Full blocks) :
    Secured name blocks calls := by
  obtain ⟨writes, hcalls, honly, hstored⟩ := h
  exact ⟨writes, honly, hstored, .inl ⟨full, hcalls⟩⟩

theorem Filed.secured {calls : List Call} (h : Filed name blocks calls)
    (finished : Finished blocks) : Secured name blocks calls := by
  obtain ⟨writes, hcalls, honly, hstored⟩ := h
  exact ⟨writes, honly, hstored, .inr ⟨finished, hcalls⟩⟩

/-- A reception that is about to send an acknowledgement goes on with the session that has written
the blocks, and sends the number of the last of them. -/
theorem Stands.of_ack {status : Status κ} {store : σ} {calls : List Call} {datagram : Bytes}
    {b : UInt16} (h : Stands violated name blocks (status, store, calls))
    (demand : status.demand = .send datagram) (ack : decode datagram = .ok (.ack b)) :
    b = number blocks.length ∧ Secured name blocks calls ∧
      ∃ s, status.session? = some s ∧ s.Holds name blocks := by
  have number_of_carries : packet (.ack (number blocks.length)) = .ok datagram →
      b = number blocks.length := by
    intro hcarries
    rw [decode_packet hcarries] at ack
    cases ack
    rfl
  cases h with
  | replying carries session written =>
    cases demand
    exact ⟨number_of_carries carries, written.secured session.full, _, rfl, session.toHolds⟩
  | completing carries session filed =>
    cases demand
    exact ⟨number_of_carries carries, filed.secured session.finished, _, rfl, session.toHolds⟩
  | repeating carries session filed =>
    cases demand
    exact ⟨number_of_carries carries, filed.secured session.finished, _, rfl, session.toHolds⟩
  | parting farewell lawful touched =>
    cases demand
    obtain ⟨code, text, herror⟩ := isError_of_farewell farewell
    rw [decode_packet herror] at ack
    cases ack
  | waiting | lingering | succeeded | failed => cases demand

theorem Refused.not_ack {state : State (σ × List Call) κ} {datagram : Bytes} {b : UInt16}
    (h : Refused violated state) (demand : state.1.demand = .send datagram) :
    decode datagram ≠ .ok (.ack b) := by
  intro ack
  cases h with
  | parting farewell lawful rejected =>
    cases demand
    obtain ⟨code, text, herror⟩ := isError_of_farewell farewell
    rw [decode_packet herror] at ack
    cases ack
  | ended lawful rejected => cases demand

/-! ### Every acknowledgement

A reception is looked at when it is about to send, so all the calls that are spoken of came
before. -/

/-- Whenever a reception sends an acknowledgement, its number is that of the blocks written so far,
which are those that have come in order, and the storage has accepted all of them.  This holds
whatever arrives, however the storage fails, and whichever packets cannot be sent. -/
theorem acknowledged_is_stored (st : Storage σ κ) (connected : Bool) (request : Bytes)
    (settings : Settings) (initial : σ) {inputs : List Input} {status : Status κ} {store : σ}
    {calls : List Call} {log : Log} {datagram : Bytes} {b : UInt16}
    (h : (machine st.recorded).History
      (start st.recorded connected request settings (initial, [])) inputs (status, store, calls)
      log)
    (demand : status.demand = .send datagram) (ack : decode datagram = .ok (.ack b)) :
    ∃ name mode s, decode request = .ok (.writeRequest name mode) ∧ status.session? = some s ∧
      s.blocks = (blocksIn inputs).length ∧ b.toNat = s.blocks % 65536 ∧
      Secured name (blocksIn inputs) calls := by
  rcases history_stands st connected request settings initial h with
    ⟨name, mode, hrequest, hstands⟩ | hrefused
  · obtain ⟨rfl, secured, s, hsession, holds⟩ := hstands.of_ack demand ack
    refine ⟨name, mode, s, hrequest, hsession, holds.count, ?_, secured⟩
    rw [holds.count, number, UInt16.toNat_ofNat']
  · exact absurd ack (hrefused.not_ack demand)

set_option maxRecDepth 20000 in
/-- The last block is acknowledged when it has been written and flushed. -/
theorem last_block_is_stored :
    ((machine (Memory.storage {}).recorded).History
        (start (Memory.storage {}).recorded true [0, 2, 97, 0, 111, 0] {} ({}, []))
        [.verdict (.ok ()), .arrival (.datagram [0, 3, 0, 1, 7])]
        (.completing [0, 4, 0, 1] ⟨.complete 1, none, some "a", 1, 1, 1⟩,
          (Memory.put {} ⟨"a", Content.empty.append [7]⟩),
          [.create "a" true, .write [7], .flush true])
        ⟨#[[0, 4, 0, 0]], #[]⟩ ∧
      decode [0, 4, 0, 1] = .ok (.ack 1)) ∧
    Secured "a" [[7]] [.create "a" true, .write [7], .flush true] := by
  have h : (machine (Memory.storage {}).recorded).History
      (start (Memory.storage {}).recorded true [0, 2, 97, 0, 111, 0] {} ({}, []))
      [.verdict (.ok ()), .arrival (.datagram [0, 3, 0, 1, 7])]
      (.completing [0, 4, 0, 1] ⟨.complete 1, none, some "a", 1, 1, 1⟩,
        (Memory.put {} ⟨"a", Content.empty.append [7]⟩),
        [.create "a" true, .write [7], .flush true])
      ⟨#[[0, 4, 0, 0]], #[]⟩ :=
    .arrival (.datagram [0, 3, 0, 1, 7]) (.verdict (.ok ()) .start rfl) rfl
  obtain ⟨name, mode, s, hrequest, -, -, -, secured⟩ :=
    acknowledged_is_stored _ _ _ _ _ h rfl (b := 1) rfl
  cases hrequest
  exact ⟨⟨h, rfl⟩, secured⟩

end Reception

end TftpUpload
