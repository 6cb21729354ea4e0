/-
  TftpUpload/Proofs/Exchange/Agreement.lean
  =========================================
  **Both sides agree on the file, whatever the network does to the packets.**

  The network may lose packets, deliver them in any order, any number of times
  and after any time.  Blocks are told apart by words, so this takes a source of
  at most 65535 blocks: with one more, the acknowledgement of the request could
  be taken for that of a block.  For a source that may be longer see
  `TftpUpload.Proofs.Exchange.Ordered`.
-/
import TftpUpload.Proofs.Exchange.Outcome

namespace TftpUpload.Exchange

open Wire Transfer Storage Simulation

variable {σ κ : Type}

/-- On any network that makes up nothing and alters nothing: the storage holds a beginning of the
source at any moment, a session is complete only with all of the source, and an upload that
reports success has a reception that keeps the file and reports the same.  `y` is any later state
of the run. -/
theorem agreement (setup : Setup σ κ) (short : ∀ k, 0 < setup.source.grant k)
    (bound : setup.source.rest.length / blockSize + 1 ≤ 65535)
    {x y : Exchange σ κ (List Bytes)} (hx : Reaches bag setup.ends (start bag setup) x)
    (hy : Reaches bag setup.ends x y) :
    (∀ earlier, earlier <+: x.calls → stored earlier <+: setup.source.rest) ∧
    (x.Complete → stored x.calls = setup.source.rest ∧ ¬ y.ReadFailed) ∧
    (x.ReadFailed → ¬ y.Complete) ∧
    (∀ summary, x.callerResult = some (.ok summary) →
      summary = ⟨setup.filename, setup.source.rest.length / blockSize + 1,
        setup.source.rest.length⟩ ∧ Kept summary y) := by
  have narrow : Narrow True bagTracks setup := narrow_bag bound
  obtain ⟨blocks, n, h⟩ := joined_of_reaches narrow hx
  refine ⟨fun earlier hearlier => h.stored_isPrefix hearlier, ?_, ?_, ?_⟩
  · intro hcomplete
    exact ⟨h.stored_eq short hcomplete, h.not_readFailed narrow hy hcomplete⟩
  · exact h.not_complete narrow hy
  · intro summary hended
    exact h.kept narrow short hy hended

set_option maxRecDepth 20000 in
/-- A file of one byte can be sent. -/
theorem one_byte_is_agreed_on :
    ∃ x, Reaches bag oneByte.ends (start bag oneByte) x ∧
      x.callerResult = some (.ok ⟨"a", 1, 1⟩) ∧ Kept ⟨"a", 1, 1⟩ x := by
  have hrequest := (Relation.ReflTransGen.refl (r := Step bag oneByte.ends)
    (a := start bag oneByte)).tail (.callerSends (.ok ()) rfl)
  have hopen := hrequest.tail (.calleeOpens rfl ⟨List.mem_cons_self, rfl, rfl⟩)
  have hready := hopen.tail (.calleeSends (.ok ()) rfl rfl)
  have hblock := hready.tail (.callerMeets rfl (.datagram ⟨List.mem_cons_self, rfl, rfl⟩))
  have hsent := hblock.tail (.callerSends (.ok ()) rfl)
  have hwritten := hsent.tail (.calleeMeets rfl rfl (.datagram ⟨List.mem_cons_self, rfl, rfl⟩))
  have hacked := hwritten.tail (.calleeSends (.ok ()) rfl rfl)
  have hrun := hacked.tail (.callerMeets rfl (.datagram ⟨List.mem_cons_self, rfl, rfl⟩))
  refine ⟨_, hrun, rfl, ?_⟩
  exact ((agreement oneByte (fun _ => Nat.zero_lt_succ 511) (by decide) hrun .refl).2.2.2 _ rfl).2

end TftpUpload.Exchange
