/-
  TftpUpload/Proofs/Sender/Upload.lean
  ====================================
  **Where an upload stands, and what it makes of an arrival.**

  An upload that has sent its request and some blocks waits for the
  acknowledgement of the last of these packets (`Awaits`).  `arrive_reacts`
  lists all that an arrival can lead to: the next block, the same packet again,
  or one of the ends.  Later proofs use this list and do not look into the
  sender again.
-/
import TftpUpload.Proofs.Sender.Source
import TftpUpload.Proofs.Wire.RoundTrip
import TftpUpload.Sender.Upload

namespace TftpUpload

open Wire Transfer

namespace Upload

variable {filename : String} {source : Source} {settings : Settings} {blocks : List Bytes}
  {u : Upload}

/-! ### The packets of an upload -/

/-- The packets in their order: the request, and then the blocks. -/
def packetAt (filename : String) (settings : Settings) (blocks : List Bytes) : Nat → Option Message
  | 0 => some (.writeRequest filename settings.mode)
  | i + 1 => blocks[i]?.map (.data (number (i + 1)))

def Carries (filename : String) (settings : Settings) (blocks : List Bytes) (i : Nat)
    (datagram : Bytes) : Prop :=
  ∃ m, packetAt filename settings blocks i = some m ∧ packet m = .ok datagram

theorem packetAt_append (blocks more : List Bytes) {i : Nat} (h : i ≤ blocks.length) :
    packetAt filename settings (blocks ++ more) i = packetAt filename settings blocks i := by
  cases i with
  | zero => rfl
  | succ i => simp only [packetAt, List.getElem?_append_left (Nat.lt_of_succ_le h)]

theorem packetAt_concat (blocks : List Bytes) (chunk : Bytes) :
    packetAt filename settings (blocks ++ [chunk]) (blocks.length + 1) =
      some (.data (number (blocks.length + 1)) chunk) := by
  simp [packetAt]

theorem number?_packetAt {m : Message} {i : Nat}
    (h : packetAt filename settings blocks i = some m) : m.number? = some (number i) := by
  cases i with
  | zero =>
    cases h
    rfl
  | succ i =>
    obtain ⟨payload, -, rfl⟩ := Option.map_eq_some_iff.1 h
    rfl

theorem isTerminal_iff (orderly : Orderly blocks) {m : Message}
    (h : packetAt filename settings blocks blocks.length = some m) :
    m.isTerminal = true ↔ Finished blocks := by
  rcases blocks.eq_nil_or_concat with rfl | ⟨init, last, rfl⟩
  · cases h
    exact iff_of_false (by simp [Message.isTerminal]) fun hfinished => hfinished.not_full full_nil
  · rw [List.concat_eq_append, List.length_append, List.length_singleton, packetAt_concat] at h
    cases h
    rw [List.concat_eq_append] at orderly
    simp only [Message.isTerminal, decide_eq_true_eq, List.concat_eq_append]
    constructor
    · intro hlast
      exact orderly.resolve_left fun hfull => Nat.ne_of_lt hlast (hfull last (by simp))
    · rintro ⟨init', last', heq, -, hlast⟩
      cases (List.append_inj' heq rfl).2
      exact hlast

/-! ### Waiting for an acknowledgement -/

def phaseAt : Nat → Sender.Phase
  | 0 => .awaitHandshake
  | i + 1 => .awaitAck (number (i + 1))

def out (u : Upload) : Nat :=
  match u.sender.phase with
  | .awaitHandshake => 0
  | _ => u.sender.blocks + 1

/-- The upload has sent the request and `blocks`, and all but the last of these packets have been
acknowledged. -/
structure Awaits (filename : String) (source : Source) (settings : Settings) (blocks : List Bytes)
    (u : Upload) : Prop where
  named : u.filename = filename
  reads : source.Reads blocks u.source
  orderly : Orderly blocks
  phase : u.sender.phase = phaseAt blocks.length
  lastSent : u.sender.lastSent = packetAt filename settings blocks blocks.length
  sendable : ∃ datagram, Carries filename settings blocks blocks.length datagram
  ceiling : u.sender.ceiling = max settings.maxRetries 1
  acknowledged : u.sender.blocks = blocks.length - 1
  bytes : u.sender.bytes = blocks.flatten.length
  attempted : 1 ≤ u.sender.attempts

theorem Awaits.out_eq (h : u.Awaits filename source settings blocks) : u.out = blocks.length := by
  unfold out
  rw [h.phase, h.acknowledged]
  cases blocks.length <;> rfl

structure Wants (filename : String) (source : Source) (settings : Settings) (blocks : List Bytes)
    (u : Upload) : Prop where
  named : u.filename = filename
  reads : source.Reads blocks u.source
  full : Full blocks
  nextBlock : u.sender.nextBlock = number (blocks.length + 1)
  ceiling : u.sender.ceiling = max settings.maxRetries 1
  acknowledged : u.sender.blocks = blocks.length
  bytes : u.sender.bytes = blocks.flatten.length

theorem transmit_ok {m : Message} {datagram : Bytes} (h : packet m = .ok datagram)
    (report : Option Progress) : u.transmit m report = .sending datagram report u := by
  unfold transmit
  rw [h]

theorem transmit_error {m : Message} {e : EncodeError} (h : packet m = .error e)
    (report : Option Progress) : u.transmit m report = fail (.encode e) := by
  unfold transmit
  rw [h]

theorem sendBlock_of_wants (h : u.Wants filename source settings blocks) :
    (∃ fault, u.sendBlock = fail (.storage fault)) ∨
    ∃ chunk u' datagram report, u.sendBlock = .sending datagram report u' ∧
      Carries filename settings (blocks ++ [chunk]) (blocks.length + 1) datagram ∧
      u'.Awaits filename source settings (blocks ++ [chunk]) ∧ u'.sender.attempts = 1 := by
  unfold sendBlock
  cases hread : u.source.readChunk with
  | error fault => exact .inl ⟨fault, rfl⟩
  | ok result =>
    obtain ⟨chunk, rest⟩ := result
    obtain ⟨-, hchunk, -⟩ := Source.readChunk_ok hread
    obtain ⟨datagram, hdatagram⟩ := packet_data (number (blocks.length + 1)) hchunk
    have hcarries : Carries filename settings (blocks ++ [chunk]) (blocks.length + 1) datagram :=
      ⟨_, packetAt_concat blocks chunk, hdatagram⟩
    have hlength : (blocks ++ [chunk]).length = blocks.length + 1 := by simp
    simp only [Sender.block, h.nextBlock, transmit_ok hdatagram]
    refine .inr ⟨chunk, _, datagram, _, rfl, hcarries, ?_, rfl⟩
    exact {
      named := h.named
      reads := h.reads.more hread
      orderly := h.full.orderly_concat hchunk
      phase := by rw [hlength]; rfl
      lastSent := by rw [hlength, packetAt_concat]; rfl
      sendable := ⟨datagram, hlength ▸ hcarries⟩
      ceiling := h.ceiling
      acknowledged := by simp [Sender.remember, h.acknowledged]
      bytes := by simp [Sender.remember, h.bytes]
      attempted := Nat.le_refl 1 }

/-! ### Reactions

An arrival is looked at by the phase of the sender, the request or a block being out, and by what it
brings. -/

/-- The arrival makes the sender send its packet again: silence, or the acknowledgement of another
packet than the one that is out. -/
def Recalls (blocks : List Bytes) (a : Arrival) : Prop :=
  a.read = .silence ∨ ∃ n, a.read = .message (.ack n) ∧ n ≠ number blocks.length

/-- What an upload that waits makes of an arrival. -/
inductive Reacts (filename : String) (source : Source) (settings : Settings) (blocks : List Bytes)
    (u : Upload) (a : Arrival) : Status → Prop where
  /-- Acknowledgements of blocks are ignored as long as none has been sent. -/
  | ignored {n : UInt16} (stale : a.read = .message (.ack n)) (other : n ≠ number blocks.length) :
    Reacts filename source settings blocks u a (.waiting u)
  | advanced {chunk datagram : Bytes} {report : Option Progress} {u' : Upload}
      (acked : a.read = .message (.ack (number blocks.length))) (full : Full blocks)
      (carries : Carries filename settings (blocks ++ [chunk]) (blocks.length + 1) datagram)
      (next : u'.Awaits filename source settings (blocks ++ [chunk]))
      (first : u'.sender.attempts = 1) :
    Reacts filename source settings blocks u a (.sending datagram report u')
  | unread {fault : Fault} (acked : a.read = .message (.ack (number blocks.length)))
      (full : Full blocks) :
    Reacts filename source settings blocks u a (fail (.storage fault))
  | done (acked : a.read = .message (.ack (number blocks.length))) (finished : Finished blocks) :
    Reacts filename source settings blocks u a
      (.ended (.ok ⟨filename, blocks.length, blocks.flatten.length⟩))
  | resent {datagram : Bytes} {u' : Upload} (recalls : Recalls blocks a)
      (carries : Carries filename settings blocks blocks.length datagram)
      (again : u'.Awaits filename source settings blocks)
      (counted : u'.sender.attempts = u.sender.attempts + 1) :
    Reacts filename source settings blocks u a (.sending datagram none u')
  | gaveUp (recalls : Recalls blocks a)
      (spent : max settings.maxRetries 1 ≤ u.sender.attempts) :
    Reacts filename source settings blocks u a (fail (.timeout u.sender.attempts))
  | remote {code : ErrorCode} {text : String} (error : a.read = .message (.error code text)) :
    Reacts filename source settings blocks u a (fail (.remote code text))
  /-- The peer sends what an upload has no use for. -/
  | unexpected {m : Message} {state : String} (message : a.read = .message m)
      (ack : ∀ n, m ≠ .ack n) (error : ∀ code text, m ≠ .error code text) :
    Reacts filename source settings blocks u a (fail (.unexpected m state))
  /-- The wait itself fails, or brings what is no packet. -/
  | broken {failure : Failure} (failed : a.read = .failure failure) :
    Reacts filename source settings blocks u a (fail failure)

variable {a : Arrival}

theorem follow_retransmit (h : u.Awaits filename source settings blocks)
    (recalls : Recalls blocks a) :
    Reacts filename source settings blocks u a
      ({ u with sender := u.sender.retransmit.1 }.follow u.sender.retransmit.2) := by
  obtain ⟨datagram, m, hm, hdatagram⟩ := h.sendable
  have hlast : u.sender.lastSent = some m := h.lastSent.trans hm
  unfold Sender.retransmit
  rw [hlast]
  simp only
  split
  · rename_i hspent
    exact .gaveUp recalls (h.ceiling ▸ hspent)
  · simp only [follow, transmit_ok hdatagram]
    refine .resent recalls ⟨m, hm, hdatagram⟩ ?_ rfl
    exact { h with lastSent := hm.symm, attempted := Nat.le_add_left 1 _ }

theorem follow_readBlock {sender : Sender} (acked : a.read = .message (.ack (number blocks.length)))
    (h : ({ u with sender } : Upload).Wants filename source settings blocks) :
    Reacts filename source settings blocks u a
      (({ u with sender } : Upload).follow .readBlock) := by
  simp only [follow]
  rcases sendBlock_of_wants h with ⟨fault, hfault⟩ | ⟨chunk, u', datagram, report, hsent, hcarries,
    hnext, hfirst⟩
  · rw [hfault]
    exact .unread acked h.full
  · rw [hsent]
    exact .advanced acked h.full hcarries hnext hfirst

theorem arrive_handshake (h : u.Awaits filename source settings []) {n : UInt16}
    (hread : a.read = .message (.ack n)) :
    Reacts filename source settings [] u a (u.arrive a) := by
  have hphase : u.sender.phase = .awaitHandshake := h.phase
  unfold arrive
  rw [hread]
  simp only [Sender.receive, hphase]
  by_cases hn : n = 0
  · subst hn
    refine follow_readBlock hread ?_
    exact {
      named := h.named
      reads := h.reads
      full := full_nil
      nextBlock := rfl
      ceiling := h.ceiling
      acknowledged := h.acknowledged
      bytes := h.bytes }
  · simp only [if_neg hn, follow]
    exact .ignored hread hn

theorem arrive_acknowledged (h : u.Awaits filename source settings blocks) (hne : blocks ≠ [])
    {n : UInt16} (hread : a.read = .message (.ack n)) :
    Reacts filename source settings blocks u a (u.arrive a) := by
  have hpos : blocks.length - 1 + 1 = blocks.length :=
    Nat.sub_add_cancel (List.length_pos_iff.2 hne)
  have hphase : u.sender.phase = .awaitAck (number blocks.length) := by
    rw [h.phase, ← hpos]
    rfl
  obtain ⟨datagram, m, hm, hdatagram⟩ := h.sendable
  have hlast : u.sender.lastIsTerminal = m.isTerminal := by
    unfold Sender.lastIsTerminal
    rw [h.lastSent, hm]
  unfold arrive
  rw [hread]
  simp only [Sender.receive, hphase, Sender.acknowledged]
  by_cases hn : n = number blocks.length
  · subst hn
    rw [if_pos rfl, hlast]
    split
    · rename_i hterminal
      simp only [follow, summary, h.named, h.acknowledged, hpos, h.bytes]
      exact .done hread ((isTerminal_iff h.orderly hm).1 hterminal)
    · rename_i hterminal
      refine follow_readBlock hread ?_
      exact {
        named := h.named
        reads := h.reads
        full := h.orderly.resolve_right fun hfinished =>
          hterminal ((isTerminal_iff h.orderly hm).2 hfinished)
        nextBlock := number_succ _
        ceiling := h.ceiling
        acknowledged := by simp only [Sender.advance, h.acknowledged, hpos]
        bytes := h.bytes }
  · rw [if_neg hn]
    exact follow_retransmit h (.inr ⟨n, hread, hn⟩)

/-- All that an arrival can lead to. -/
theorem arrive_reacts (h : u.Awaits filename source settings blocks) (a : Arrival) :
    Reacts filename source settings blocks u a (u.arrive a) := by
  cases hread : a.read with
  | message m =>
    by_cases hack : ∃ n, m = .ack n
    · obtain ⟨n, rfl⟩ := hack
      by_cases hnil : blocks = []
      · subst hnil
        exact arrive_handshake h hread
      · exact arrive_acknowledged h hnil hread
    · by_cases herror : ∃ code text, m = .error code text
      · obtain ⟨code, text, rfl⟩ := herror
        unfold arrive
        rw [hread]
        simp only [Sender.receive]
        exact .remote hread
      · have hreceive : u.sender.receive m =
            ({ u.sender with phase := .failed }, .error (.unexpected m u.sender.phase.label)) := by
          unfold Sender.receive
          split
          · exact absurd ⟨_, _, rfl⟩ herror
          · exact absurd ⟨_, rfl⟩ hack
          · exact absurd ⟨_, rfl⟩ hack
          · rfl
        unfold arrive
        rw [hread]
        simp only [hreceive]
        exact .unexpected hread (fun n hm => hack ⟨n, hm⟩)
          (fun code text hm => herror ⟨code, text, hm⟩)
  | silence =>
    have hsilence : u.sender.silence = u.sender.retransmit := by
      unfold Sender.silence
      rw [h.phase]
      cases blocks.length <;> rfl
    unfold arrive
    rw [hread]
    simp only [hsilence]
    exact follow_retransmit h (.inl hread)
  | failure failure =>
    unfold arrive
    rw [hread]
    exact .broken hread

/-! ### Standings

Along a history an upload waits, sends, or has ended.  In each case it is known which blocks it has
sent, and in the first two where it goes on. -/

/-- An upload that has sent `blocks`.  It fails at a read of its source only before it has sent
the last of its blocks. -/
inductive Stands (filename : String) (source : Source) (settings : Settings)
    (blocks : List Bytes) : Status → Prop where
  | waiting {u : Upload} (awaits : u.Awaits filename source settings blocks) :
    Stands filename source settings blocks (.waiting u)
  | sending {datagram : Bytes} {report : Option Progress} {u : Upload}
      (carries : Carries filename settings blocks blocks.length datagram)
      (awaits : u.Awaits filename source settings blocks) :
    Stands filename source settings blocks (.sending datagram report u)
  | parting {datagram : Bytes} {failure : Failure} (farewell : failure.farewell = some datagram)
      (lawful : failure.isViolation = false)
      (unread : ∀ fault, failure = .storage fault → Full blocks) :
    Stands filename source settings blocks (.parting datagram failure)
  | failed {failure : Failure} (lawful : failure.isViolation = false)
      (unread : ∀ fault, failure = .storage fault → Full blocks) :
    Stands filename source settings blocks (.ended (.error failure))
  | done (finished : Finished blocks) :
    Stands filename source settings blocks
      (.ended (.ok ⟨filename, blocks.length, blocks.flatten.length⟩))

theorem fail_stands {failure : Failure} (lawful : failure.isViolation = false)
    (unread : ∀ fault, failure = .storage fault → Full blocks) :
    Stands filename source settings blocks (fail failure) := by
  unfold fail
  split
  · rename_i datagram hfarewell
    exact .parting hfarewell lawful unread
  · exact .failed lawful unread

theorem fail_ne_ok (failure : Failure) (summary : Summary) :
    fail failure ≠ .ended (.ok summary) := by
  unfold fail
  split <;> nofun

theorem eq_of_fail (failure : Failure) {failure' : Failure}
    (h : fail failure = .ended (.error failure')) :
    failure = failure' := by
  unfold fail at h
  split at h
  · cases h
  · cases h
    rfl

/-- What an arrival leads to, for an upload that hears nothing but acknowledgements and errors. -/
theorem Reacts.outcome {status : Status} (h : Reacts filename source settings blocks u a status)
    (awaits : u.Awaits filename source settings blocks)
    (message : ∀ m, a.read = .message m →
      (∃ n, m = .ack n) ∨ ∃ code text, m = .error code text)
    (lawful : ∀ failure, a.read = .failure failure → failure.isViolation = false) :
    (a.read = .message (.ack (number blocks.length)) ∧ Full blocks ∧
      ∃ chunk datagram report u', status = .sending datagram report u' ∧
        Carries filename settings (blocks ++ [chunk]) (blocks ++ [chunk]).length datagram ∧
        u'.Awaits filename source settings (blocks ++ [chunk])) ∨
    (a.read = .message (.ack (number blocks.length)) ∧ Finished blocks ∧
      status = .ended (.ok ⟨filename, blocks.length, blocks.flatten.length⟩)) ∨
    (Stands filename source settings blocks status ∧ ∀ summary, status ≠ .ended (.ok summary)) := by
  cases h with
  | ignored stale other => exact .inr (.inr ⟨.waiting awaits, nofun⟩)
  | @advanced chunk datagram report u' acked full carries next first =>
    refine .inl ⟨acked, full, chunk, datagram, report, u', rfl, ?_, next⟩
    rwa [List.length_append, List.length_singleton]
  | unread acked full =>
    exact .inr (.inr ⟨fail_stands rfl fun _ _ => full, fail_ne_ok _⟩)
  | done acked finished => exact .inr (.inl ⟨acked, finished, rfl⟩)
  | resent recalls carries again counted => exact .inr (.inr ⟨.sending carries again, nofun⟩)
  | gaveUp recalls spent => exact .inr (.inr ⟨fail_stands rfl nofun, fail_ne_ok _⟩)
  | remote error => exact .inr (.inr ⟨fail_stands rfl nofun, fail_ne_ok _⟩)
  | @unexpected m state hread ack error =>
    rcases message m hread with ⟨n, hm⟩ | ⟨code, text, hm⟩
    · exact absurd hm (ack n)
    · exact absurd hm (error code text)
  | @broken failure failed =>
    refine .inr (.inr ⟨fail_stands (lawful failure failed) ?_, fail_ne_ok _⟩)
    rintro fault rfl
    rcases read_failure failed with ⟨e, h⟩ | ⟨fault', h⟩ | h <;> cases h

theorem settle_stands {status : Status} (h : Stands filename source settings blocks status)
    (v : Verdict) : Stands filename source settings blocks (status.settle v).1 := by
  cases h with
  | waiting awaits => exact .waiting awaits
  | sending carries awaits =>
    cases v with
    | ok _ => exact .waiting awaits
    | error fault =>
      have hfail : Stands filename source settings blocks (fail (.transport fault)) :=
        fail_stands rfl nofun
      exact hfail
  | parting farewell lawful unread => exact .failed lawful unread
  | failed lawful unread => exact .failed lawful unread
  | done finished => exact .done finished

theorem Stands.carries {status : Status} {datagram : Bytes}
    (h : Stands filename source settings blocks status)
    (demand : status.demand = .send datagram) :
    Carries filename settings blocks blocks.length datagram ∨ IsError datagram := by
  cases h with
  | sending carries awaits =>
    cases demand
    exact .inl carries
  | parting farewell lawful unread =>
    cases demand
    exact .inr (isError_of_farewell farewell)
  | waiting awaits => cases demand
  | failed lawful unread => cases demand
  | done finished => cases demand

theorem settle_ne_ok {status : Status} {datagram : Bytes} (demand : status.demand = .send datagram)
    (v : Verdict) (summary : Summary) : (status.settle v).1 ≠ .ended (.ok summary) := by
  cases status with
  | sending packet report u =>
    cases v with
    | ok _ => nofun
    | error fault => exact fail_ne_ok (.transport fault) summary
  | parting packet failure => nofun
  | waiting u => cases demand
  | ended result => cases demand

theorem start_cases (filename : String) (source : Source) (size : Option Nat)
    (settings : Settings) :
    (∃ datagram u, start filename source size settings = .sending datagram none u ∧
      Carries filename settings [] 0 datagram ∧ u.Awaits filename source settings [] ∧
      u.sender.attempts = 1) ∨
    ∃ e, start filename source size settings = fail (.encode e) := by
  unfold start
  dsimp only [Sender.request]
  cases hpacket : packet (.writeRequest filename settings.mode) with
  | ok datagram =>
    rw [transmit_ok hpacket]
    refine .inl ⟨datagram, _, rfl, ⟨_, rfl, hpacket⟩, ?_, rfl⟩
    exact {
      named := rfl
      reads := .none
      orderly := .inl full_nil
      phase := rfl
      lastSent := rfl
      sendable := ⟨datagram, _, rfl, hpacket⟩
      ceiling := rfl
      acknowledged := rfl
      bytes := rfl
      attempted := Nat.le_refl 1 }
  | error e =>
    rw [transmit_error hpacket]
    exact .inr ⟨e, rfl⟩

theorem start_stands (filename : String) (source : Source) (size : Option Nat)
    (settings : Settings) :
    Stands filename source settings [] (start filename source size settings) := by
  rcases start_cases filename source size settings with
    ⟨datagram, u, hstart, carries, awaits, -⟩ | ⟨e, hstart⟩
  · rw [hstart]
    exact .sending carries awaits
  · rw [hstart]
    exact fail_stands rfl nofun

theorem start_ne_ok (filename : String) (source : Source) (size : Option Nat) (settings : Settings)
    (summary : Summary) : start filename source size settings ≠ .ended (.ok summary) := by
  intro hended
  have hstands := start_stands filename source size settings
  rw [hended] at hstands
  cases hstands with
  | done finished => exact finished.not_full full_nil

end Upload

end TftpUpload
