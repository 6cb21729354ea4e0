/-
  TftpUpload/Proofs/Sender/Farewell.lean
  ======================================
  **What an upload has told its peer.**

  Whatever arrives, an upload waits on, sends a packet that is no ERROR, or ends
  (`arrive_goesOn`).  So the only ERROR it ever sends is the one that tells its
  failure (`history_tells`).  Each of its failures can be told, except that a
  source may state a fault in words that fit no packet (`Speaks`).
-/
import TftpUpload.Proofs.Transfer.Farewell
import TftpUpload.Sender.Upload

namespace TftpUpload

open Wire Transfer Text

namespace Sender

variable {s s' : Sender} {m : Message} {step : Step}

def Repeats (s : Sender) (step : Step) : Prop := ∀ m, step = .resend m → s.lastSent = some m

theorem retransmit_repeats (s : Sender) :
    s.retransmit.1.lastSent = s.lastSent ∧ s.Repeats s.retransmit.2 := by
  unfold retransmit
  cases hlast : s.lastSent with
  | none => exact ⟨hlast, nofun⟩
  | some m =>
    dsimp only
    split
    · exact ⟨rfl, nofun⟩
    · refine ⟨rfl, ?_⟩
      rintro m' ⟨⟩
      exact hlast

theorem acknowledged_repeats (s : Sender) (expected n : UInt16) :
    (s.acknowledged expected n).1.lastSent = s.lastSent ∧
      s.Repeats (s.acknowledged expected n).2 := by
  unfold acknowledged
  split
  · dsimp only
    split <;> exact ⟨rfl, nofun⟩
  · exact s.retransmit_repeats

theorem receive_repeats (h : s.receive m = (s', .ok step)) :
    s'.lastSent = s.lastSent ∧ s.Repeats step := by
  unfold receive at h
  split at h
  · cases h
  · split at h <;> cases h <;> exact ⟨rfl, nofun⟩
  · rename_i expected n _
    have hrepeats := s.acknowledged_repeats expected n
    cases h
    exact hrepeats
  · cases h

theorem silence_repeats (s : Sender) :
    s.silence.1.lastSent = s.lastSent ∧ s.Repeats s.silence.2 := by
  unfold silence
  split
  · exact s.retransmit_repeats
  · exact s.retransmit_repeats
  · exact ⟨rfl, nofun⟩

theorem tellable_of_receive {failure : Failure} (h : s.receive m = (s', .error failure)) :
    failure.Tellable := by
  unfold receive at h
  split at h
  · cases h
    exact Failure.tellable_of_silent _ rfl
  · split at h <;> cases h
  · cases h
  · cases h
    exact Failure.tellable_unexpected _ (Failure.plain_senderLabel _)

end Sender

namespace Upload

/-- A failure of an upload can be told, unless the source has stated its reason. -/
def Speaks (failure : Failure) : Prop :=
  failure.TellableUnless fun failure => ∃ fault, failure = .storage fault

def Asks (u : Upload) : Prop := ∀ m, u.sender.lastSent = some m → m.opcode ≠ .error

/-- What an upload goes on with. -/
inductive GoesOn : Status → Prop where
  | waits {u : Upload} (asks : u.Asks) : GoesOn (.waiting u)
  | sends {m : Message} {datagram : Bytes} {u : Upload} {report : Option Progress}
      (carries : packet m = .ok datagram) (lawful : m.opcode ≠ .error) (asks : u.Asks) :
    GoesOn (.sending datagram report u)
  | fails {failure : Failure} (speaks : Speaks failure) : GoesOn (fail failure)
  | done (summary : Summary) : GoesOn (.ended (.ok summary))

variable {u : Upload}

theorem transmit_goesOn {m : Message} (lawful : m.opcode ≠ .error) (asks : u.Asks)
    (report : Option Progress) : GoesOn (u.transmit m report) := by
  unfold transmit
  split
  · rename_i datagram hpacket
    exact .sends hpacket lawful asks
  · rename_i e _
    exact .fails (.inl (Failure.tellable_of_silent (.encode e) rfl))

theorem sendBlock_goesOn (u : Upload) : GoesOn u.sendBlock := by
  unfold sendBlock
  split
  · rename_i fault _
    exact .fails (.inr ⟨fault, rfl⟩)
  · refine transmit_goesOn ?_ ?_ _
    · nofun
    · rintro m ⟨⟩
      nofun

theorem follow_goesOn {step : Sender.Step} (asks : u.Asks)
    (repeats : u.sender.Repeats step) : GoesOn (u.follow step) := by
  cases step with
  | readBlock => exact u.sendBlock_goesOn
  | resend m => exact transmit_goesOn (asks m (repeats m rfl)) asks none
  | wait => exact .waits asks
  | done => exact .done _
  | giveUp attempts =>
    exact .fails (.inl (Failure.tellable_of_silent (.timeout attempts) rfl))

/-- All that an arrival can lead to, whatever the upload has sent before. -/
theorem arrive_goesOn (asks : u.Asks) (a : Arrival) : GoesOn (u.arrive a) := by
  unfold arrive
  split
  · split
    · rename_i sender step hreceive
      obtain ⟨hlast, hrepeats⟩ := Sender.receive_repeats hreceive
      refine follow_goesOn (fun m hm => asks m (hlast ▸ hm)) fun m hm => ?_
      exact hlast.trans (hrepeats m hm)
    · rename_i failure hreceive
      exact .fails (.inl (Sender.tellable_of_receive hreceive))
  · obtain ⟨hlast, hrepeats⟩ := u.sender.silence_repeats
    refine follow_goesOn (fun m hm => asks m (hlast ▸ hm)) fun m hm => ?_
    exact hlast.trans (hrepeats m hm)
  · rename_i failure hread
    exact .fails (.inl (Failure.tellable_of_read hread))

theorem start_goesOn (filename : String) (source : Source) (size : Option Nat)
    (settings : Settings) : GoesOn (start filename source size settings) := by
  unfold start
  refine transmit_goesOn ?_ ?_ none
  · nofun
  · rintro m ⟨⟩
    nofun

/-! ### Over a history

As long as an upload goes on it has sent no ERROR, and it goes on until it fails or ends. -/

/-- What an upload has sent by the time it has come to a status. -/
inductive Tells : Status → Array Bytes → Prop where
  | waiting {u : Upload} {sent : Array Bytes} (asks : u.Asks) (quiet : Quiet sent.toList) :
    Tells (.waiting u) sent
  | sending {m : Message} {datagram : Bytes} {u : Upload} {report : Option Progress}
      {sent : Array Bytes} (carries : packet m = .ok datagram) (lawful : m.opcode ≠ .error)
      (asks : u.Asks) (quiet : Quiet sent.toList) :
    Tells (.sending datagram report u) sent
  | parting {datagram : Bytes} {failure : Failure} {sent : Array Bytes}
      (farewell : failure.farewell = some datagram) (speaks : Speaks failure)
      (quiet : Quiet sent.toList) :
    Tells (.parting datagram failure) sent
  | ended {result : Except Failure Summary} {sent : Array Bytes} (told : Told result sent)
      (speaks : ∀ failure, result = .error failure → Speaks failure) :
    Tells (.ended result) sent

theorem fail_tells {failure : Failure} {sent : Array Bytes} (speaks : Speaks failure)
    (quiet : Quiet sent.toList) : Tells (fail failure) sent := by
  unfold fail
  split
  · rename_i datagram hfarewell
    exact .parting hfarewell speaks quiet
  · rename_i hfarewell
    refine .ended (quiet.told hfarewell) ?_
    rintro failure' ⟨⟩
    exact speaks

theorem GoesOn.tells {status : Status} {sent : Array Bytes} (h : GoesOn status)
    (quiet : Quiet sent.toList) : Tells status sent := by
  cases h with
  | waits asks => exact .waiting asks quiet
  | sends carries lawful asks => exact .sending carries lawful asks quiet
  | fails speaks => exact fail_tells speaks quiet
  | done summary => exact .ended (quiet.told rfl) nofun

theorem settle_tells {status : Status} {sent : Array Bytes} {datagram : Bytes}
    (h : Tells status sent) (demand : status.demand = .send datagram) (v : Verdict) :
    Tells (status.settle v).1 (sent.push datagram) := by
  cases h with
  | sending carries lawful asks quiet =>
    cases demand
    cases v with
    | ok _ => exact .waiting asks (quiet.push carries lawful)
    | error fault =>
      exact fail_tells (.inl (Failure.tellable_of_silent (.transport fault) rfl))
        (quiet.push carries lawful)
  | parting farewell speaks quiet =>
    cases demand
    refine .ended (quiet.told_push farewell) ?_
    rintro failure' ⟨⟩
    exact speaks
  | waiting => cases demand
  | ended => cases demand

/-- Wherever an upload has come, it has sent no ERROR but the one that tells its failure. -/
theorem history_tells (filename : String) (source : Source) (size : Option Nat)
    (settings : Settings) {inputs : List Input} {status : Status} {log : Log}
    (h : machine.History (start filename source size settings) inputs status log) :
    Tells status log.sent := by
  induction h with
  | start => exact (start_goesOn filename source size settings).tells quiet_nil
  | @arrival inputs status log a before demand ih =>
    rw [Log.sent_note]
    cases ih with
    | waiting asks quiet => exact (arrive_goesOn asks a).tells quiet
    | sending | parting | ended => cases demand
  | verdict v before demand ih =>
    rw [Log.sent_note]
    exact settle_tells ih demand v

end Upload

end TftpUpload
