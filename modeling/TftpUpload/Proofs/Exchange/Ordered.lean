/-
  TftpUpload/Proofs/Exchange/Ordered.lean
  =======================================
  **A link that keeps the order carries files of any length.**

  Block numbers start again at 0 after 65535.  On a link that keeps the order
  that does no harm, however long the source is: at any time only packets with
  two neighbouring numbers can still come out on either way, and a word tells
  two neighbours apart.  So no side ever takes a packet of the other for a
  violation, and what is agreed on is the same as with few blocks.
-/
import TftpUpload.Proofs.Exchange.Outcome

namespace TftpUpload.Exchange

open Wire Transfer Storage Simulation

variable {σ κ : Type}

/-- Over channels that may lose packets or deliver them several times in a row, and for a source
of any length: neither side fails by a violation, a session has stored 512 bytes of the source for
each of its blocks, a complete one all of it, and an upload that reports success has a reception
that keeps the file and reports the same.  `y` is any later state of the run. -/
theorem ordered_agreement (setup : Setup σ κ) (short : ∀ k, 0 < setup.source.grant k)
    {x y : Exchange σ κ Channel} (hx : Reaches fifo setup.ends (start fifo setup) x)
    (hy : Reaches fifo setup.ends x y) :
    (∀ failure, x.callerResult = some (.error failure) ∨ x.calleeResult = some (.error failure) →
      failure.isViolation = false) ∧
    (∀ session, x.session? = some session →
      session.blocks ≤ setup.source.rest.length / blockSize + 1 ∧
        stored x.calls = setup.source.rest.take (session.blocks * blockSize)) ∧
    (x.Complete → stored x.calls = setup.source.rest) ∧
    (∀ summary, x.callerResult = some (.ok summary) →
      summary = ⟨setup.filename, setup.source.rest.length / blockSize + 1,
        setup.source.rest.length⟩ ∧ Kept summary y) := by
  have narrow := narrow_fifo setup
  obtain ⟨blocks, n, h⟩ := joined_of_reaches narrow hx
  refine ⟨?_, ?_, ?_, ?_⟩
  · rintro failure (hcaller | hcallee)
    · exact h.caller_lawful hcaller
    · exact Bool.eq_false_iff.2 fun hviolation => h.callee_lawful hcallee hviolation
  · intro session hsession
    exact h.stored_take short hsession
  · exact h.stored_eq short
  · intro summary hended
    exact h.kept narrow short hy hended

set_option maxRecDepth 20000 in
/-- A file of one byte can be sent although its request is delivered twice. -/
theorem one_byte_is_stored_in_order :
    ∃ x, Reaches fifo oneByte.ends (start fifo oneByte) x ∧
      x.callerResult = some (.ok ⟨"a", 1, 1⟩) ∧ x.Complete ∧ stored x.calls = [7] := by
  have hrequest := (Relation.ReflTransGen.refl (r := Step fifo oneByte.ends)
    (a := start fifo oneByte)).tail (.callerSends (.ok ()) rfl)
  have hopen := hrequest.tail (.calleeOpens rfl .next)
  have hready := hopen.tail (.calleeSends (.ok ()) rfl rfl)
  have hagain := hready.tail (.calleeMeets rfl rfl (.datagram .again))
  have hagain' := hagain.tail (.calleeSends (.ok ()) rfl rfl)
  have hblock := hagain'.tail (.callerMeets rfl (.datagram .next))
  have hsent := hblock.tail (.callerSends (.ok ()) rfl)
  have hwritten := hsent.tail (.calleeMeets rfl rfl (.datagram .next))
  have hacked := hwritten.tail (.calleeSends (.ok ()) rfl rfl)
  -- The second acknowledgement of the request makes the upload send its block again.
  have hstale := hacked.tail (.callerMeets rfl (.datagram .next))
  have hresent := hstale.tail (.callerSends (.ok ()) rfl)
  have hrun := hresent.tail (.callerMeets rfl (.datagram .next))
  refine ⟨_, hrun, rfl, ⟨_, _, rfl, rfl⟩, ?_⟩
  exact (ordered_agreement oneByte (fun _ => Nat.zero_lt_succ 511) hrun .refl).2.2.1
    ⟨_, _, rfl, rfl⟩

end TftpUpload.Exchange
