/-
  TftpUpload/Proofs/Timeouts.lean
  ===============================
  **A timeout tells the truth.**

  The two sides of a transfer count differently.  An upload counts how often its
  packet has been sent, and begins with 1; a reception counts the silent intervals
  since the last packet, and begins with 0.  Yet both give up at the same limit,
  which is the number of retries in their settings but at least 1, and the number
  that they report is that limit (`timeouts_are_honest`).  No hypothesis about the
  endpoint is needed: a packet that cannot be sent ends a side with another
  failure.
-/
import TftpUpload.Proofs.Receiver.Silence
import TftpUpload.Proofs.Sender.Silence

namespace TftpUpload

open Wire Transfer Storage

/-- If a side of a transfer gives up, then after as many attempts as its settings allow, and that is
what it says.  The last that an upload has sent is its request or one block, so often exactly; the
last that a reception has sent is the acknowledgement of the block it acknowledged last, so often at
least, and so many of its waits have just been silent.  Neither side goes on after so many silent
intervals in a row. -/
theorem timeouts_are_honest (settings : Settings) (inputs : List Input) (log : Log) :
    (∀ (filename : String) (source : Source) (size : Option Nat) (status : Upload.Status),
      Upload.machine.History (Upload.start filename source size settings) inputs status log →
      (∀ n, status = .ended (.error (.timeout n)) → n = max settings.maxRetries 1 ∧
        ∃ m datagram, packet m = .ok datagram ∧
          (m = .writeRequest filename settings.mode ∨ ∃ block payload, m = .data block payload) ∧
          EndsIn log.sent.toList n datagram) ∧
      (List.replicate (max settings.maxRetries 1) .silence <:+ waits inputs →
        ∃ result, status = .ended result)) ∧
    ∀ (σ κ : Type) (st : Storage σ κ) (connected : Bool) (request : Bytes) (initial : σ)
      (status : Reception.Status κ) (store : σ),
      (Reception.machine st).History (Reception.start st connected request settings initial) inputs
        (status, store) log →
      (∀ n, status = .ended (.error (.timeout n)) → n = max settings.maxRetries 1 ∧
        Reception.GaveUp st (Reception.start st connected request settings initial) n inputs log) ∧
      (List.replicate (max settings.maxRetries 1) .silence <:+ waits inputs →
        ∃ result, status = .ended result) := by
  constructor
  · intro filename source size status h
    have hendures := Upload.history_endures filename source size settings h
    refine ⟨?_, hendures.ended_of_silence⟩
    rintro n rfl
    cases hendures with
    | ended honest =>
      obtain ⟨rfl, blocks, datagram, carries, copies⟩ := honest n rfl
      obtain ⟨m, hpacket, hm⟩ := carries.request_or_block
      exact ⟨rfl, m, datagram, hpacket, hm, copies⟩
  · intro σ κ st connected request initial status store h
    have hendures := Reception.history_endures st connected request settings initial h
    refine ⟨?_, hendures.ended_of_silence⟩
    rintro n rfl
    exact Reception.gaveUp_of_timeout st connected request settings initial h

set_option maxRecDepth 20000 in
/-- Two silent intervals end both sides if they may send a packet twice, and neither ends before. -/
theorem both_give_up_after_two_attempts :
    (Upload.machine.History (Upload.start "a" (Source.ofBytes []) none { maxRetries := 2 })
        [.verdict (.ok ()), .arrival .silence, .verdict (.ok ()), .arrival .silence]
        (.ended (.error (.timeout 2)))
        ⟨#[(Message.writeRequest "a" "netascii").form, (Message.writeRequest "a" "netascii").form],
          #[]⟩ ∧
      2 = max 2 1) ∧
    ((Reception.machine (Memory.storage {})).History
        (Reception.start (Memory.storage {}) true [0, 2, 97, 0, 111, 0] { maxRetries := 2 } {})
        [.verdict (.ok ()), .arrival .silence, .verdict (.ok ()), .arrival .silence]
        (.ended (.error (.timeout 2)), ⟨[], ["a"]⟩) ⟨#[[0, 4, 0, 0], [0, 4, 0, 0]], #[]⟩ ∧
      Reception.GaveUp (Memory.storage {})
        (Reception.start (Memory.storage {}) true [0, 2, 97, 0, 111, 0] { maxRetries := 2 } {}) 2
        [.verdict (.ok ()), .arrival .silence, .verdict (.ok ()), .arrival .silence]
        ⟨#[[0, 4, 0, 0], [0, 4, 0, 0]], #[]⟩) := by
  have hupload : Upload.machine.History
      (Upload.start "a" (Source.ofBytes []) none { maxRetries := 2 })
      [.verdict (.ok ()), .arrival .silence, .verdict (.ok ()), .arrival .silence]
      (.ended (.error (.timeout 2)))
      ⟨#[(Message.writeRequest "a" "netascii").form, (Message.writeRequest "a" "netascii").form],
        #[]⟩ :=
    .arrival .silence (.verdict (.ok ()) (.arrival .silence (.verdict (.ok ()) .start rfl) rfl) rfl)
      rfl
  have hreception : (Reception.machine (Memory.storage {})).History
      (Reception.start (Memory.storage {}) true [0, 2, 97, 0, 111, 0] { maxRetries := 2 } {})
      [.verdict (.ok ()), .arrival .silence, .verdict (.ok ()), .arrival .silence]
      (.ended (.error (.timeout 2)), ⟨[], ["a"]⟩) ⟨#[[0, 4, 0, 0], [0, 4, 0, 0]], #[]⟩ :=
    .arrival .silence (.verdict (.ok ()) (.arrival .silence (.verdict (.ok ()) .start rfl) rfl) rfl)
      rfl
  exact ⟨⟨hupload, (((timeouts_are_honest _ _ _).1 _ _ _ _ hupload).1 2 rfl).1⟩,
    hreception, (((timeouts_are_honest _ _ _).2 _ _ _ _ _ _ _ _ hreception).1 2 rfl).2⟩

end TftpUpload
