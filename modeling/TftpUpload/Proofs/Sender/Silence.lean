/-
  TftpUpload/Proofs/Sender/Silence.lean
  =====================================
  **An upload gives up when it has sent one packet as often as it may.**

  The sender counts how often its packet has been sent, the first time included,
  and an acknowledgement of another packet makes it send its packet again just as
  silence does.  `Endures` ties this count to what an endpoint sees: it is the
  number of copies that the log ends in, and it is greater than the number of
  silent intervals that have passed since anything else came.  The side condition
  for the first is that a packet is never followed by one that looks the same; it
  holds because the numbers of two successive packets differ, also where the
  counter starts again at 0.
-/
import TftpUpload.Proofs.Sender.Patience
import TftpUpload.Proofs.Transfer.Silence

namespace TftpUpload

open Wire Transfer

namespace Upload

variable {filename : String} {source : Source} {settings : Settings} {blocks blocks' : List Bytes}
  {u : Upload} {datagram datagram' : Bytes} {i : Nat} {ends : List Arrival} {sent : List Bytes}

/-! ### Copies of a packet -/

theorem Carries.unique (h : Carries filename settings blocks i datagram)
    (h' : Carries filename settings blocks i datagram') : datagram = datagram' := by
  obtain ⟨m, hm, hpacket⟩ := h
  obtain ⟨m', hm', hpacket'⟩ := h'
  rw [hm] at hm'
  cases hm'
  exact Except.ok.inj (hpacket.symm.trans hpacket')

/-- A packet is followed by another one. -/
theorem Carries.ne_next (h : Carries filename settings blocks i datagram)
    (h' : Carries filename settings blocks' (i + 1) datagram') : datagram ≠ datagram' := by
  rintro rfl
  obtain ⟨m, hm, hpacket⟩ := h
  obtain ⟨m', hm', hpacket'⟩ := h'
  have hsame : m = m' := Except.ok.inj ((decode_packet hpacket).symm.trans (decode_packet hpacket'))
  subst hsame
  exact number_ne_succ i (Option.some.inj ((number?_packetAt hm).symm.trans (number?_packetAt hm')))

/-- What an upload sends before its farewell is its request or one of its blocks. -/
theorem Carries.request_or_block (h : Carries filename settings blocks i datagram) :
    ∃ m, packet m = .ok datagram ∧
      (m = .writeRequest filename settings.mode ∨ ∃ n payload, m = .data n payload) := by
  obtain ⟨m, hm, hpacket⟩ := h
  refine ⟨m, hpacket, ?_⟩
  cases i with
  | zero =>
    cases hm
    exact .inl rfl
  | succ i =>
    obtain ⟨payload, -, rfl⟩ := Option.map_eq_some_iff.1 hm
    exact .inr ⟨_, _, rfl⟩

/-! ### Enduring silence -/

/-- The packet that is out has been sent as often as is allowed, and nothing has been sent since. -/
def SentInVain (filename : String) (settings : Settings) (sent : List Bytes) : Prop :=
  ∃ blocks datagram, Carries filename settings blocks blocks.length datagram ∧
    EndsIn sent (max settings.maxRetries 1) datagram

/-- An upload whose waits have had the given ends, and what it has sent. -/
inductive Endures (filename : String) (source : Source) (settings : Settings)
    (ends : List Arrival) : Status → List Bytes → Prop where
  | waiting {blocks : List Bytes} {u : Upload} {datagram : Bytes} {sent : List Bytes} {n : Nat}
      (attends : u.Attends filename source settings blocks)
      (carries : Carries filename settings blocks blocks.length datagram)
      (copies : EndsIn sent u.sender.attempts datagram)
      (silent : EndsIn ends n .silence) (fewer : n < u.sender.attempts) :
    Endures filename source settings ends (.waiting u) sent
  | sending {blocks : List Bytes} {u : Upload} {datagram : Bytes} {report : Option Progress}
      {sent : List Bytes} {n : Nat} (attends : u.Attends filename source settings blocks)
      (carries : Carries filename settings blocks blocks.length datagram)
      (copies : EndsIn (sent ++ [datagram]) u.sender.attempts datagram)
      (silent : EndsIn ends n .silence) (fewer : n < u.sender.attempts) :
    Endures filename source settings ends (.sending datagram report u) sent
  | parting {datagram : Bytes} {failure : Failure} {sent : List Bytes}
      (farewell : failure.farewell = some datagram) (heard : EndsIn ends 0 .silence) :
    Endures filename source settings ends (.parting datagram failure) sent
  | ended {result : Except Failure Summary} {sent : List Bytes}
      (honest : ∀ n, result = .error (.timeout n) →
        n = max settings.maxRetries 1 ∧ SentInVain filename settings sent) :
    Endures filename source settings ends (.ended result) sent

theorem fail_endures {failure : Failure} (other : ∀ n, failure ≠ .timeout n)
    (heard : EndsIn ends 0 .silence) :
    Endures filename source settings ends (fail failure) sent := by
  unfold fail
  split
  · rename_i datagram hfarewell
    exact .parting hfarewell heard
  · refine .ended ?_
    rintro n ⟨⟩
    exact absurd rfl (other n)

theorem arrive_endures {n : Nat} (attends : u.Attends filename source settings blocks)
    (carries : Carries filename settings blocks blocks.length datagram)
    (copies : EndsIn sent u.sender.attempts datagram) (silent : EndsIn ends n .silence)
    (fewer : n < u.sender.attempts) (a : Arrival) :
    Endures filename source settings (ends ++ [a]) (u.arrive a) sent := by
  generalize hstatus : u.arrive a = status
  have hreacts : Reacts filename source settings blocks u a status :=
    hstatus ▸ arrive_reacts attends.toAwaits a
  cases hreacts with
  | ignored stale other =>
    exact .waiting attends carries copies (endsIn_of_read ends stale nofun) attends.attempted
  | @advanced chunk datagram' report u' acked full carries' next first =>
    have hlength : (blocks ++ [chunk]).length = blocks.length + 1 := by simp
    have hlast : sent.getLast? ≠ some datagram' := by
      obtain ⟨k, hk⟩ := Nat.exists_eq_add_of_le' attends.attempted
      rw [getLast?_of_suffix (hk ▸ copies.suffix)]
      exact fun hsame => carries.ne_next carries' (Option.some.inj hsame)
    refine .sending (next.attends (arrive_patient attends.patient hstatus)) (hlength ▸ carries') ?_
      (endsIn_of_read ends acked nofun) (by rw [first]; exact Nat.zero_lt_one)
    rw [first]
    exact endsIn_first hlast
  | @resent datagram' u' recalls carries' again counted =>
    obtain rfl := carries.unique carries'
    obtain ⟨k, hk, hsilent⟩ := silent.next a
    refine .sending (again.attends (arrive_patient attends.patient hstatus)) carries ?_ hsilent ?_
    · rw [counted]
      exact copies.more
    · rw [counted]
      omega
  | gaveUp recalls spent =>
    have hspent : u.sender.attempts = max settings.maxRetries 1 :=
      Nat.le_antisymm attends.within spent
    refine .ended ?_
    rintro _ ⟨⟩
    exact ⟨hspent, blocks, datagram, carries, hspent ▸ copies⟩
  | unread acked full => exact fail_endures nofun (endsIn_of_read ends acked nofun)
  | done acked finished => exact .ended nofun
  | remote error => exact fail_endures nofun (endsIn_of_read ends error nofun)
  | unexpected message ack error => exact fail_endures nofun (endsIn_of_read ends message nofun)
  | @broken failure failed =>
    refine fail_endures ?_ (endsIn_of_read ends failed nofun)
    rintro n rfl
    rcases read_failure failed with ⟨e, h⟩ | ⟨fault, h⟩ | h <;> cases h

theorem settle_endures {status : Status} (h : Endures filename source settings ends status sent)
    (demand : status.demand = .send datagram) (v : Verdict) :
    Endures filename source settings ends (status.settle v).1 (sent ++ [datagram]) := by
  cases h with
  | sending attends carries copies silent fewer =>
    cases demand
    cases v with
    | ok _ => exact .waiting attends carries copies silent fewer
    | error fault => exact .ended nofun
  | parting farewell heard =>
    refine .ended ?_
    rintro n ⟨⟩
    cases farewell
  | waiting | ended => cases demand

theorem start_endures (filename : String) (source : Source) (size : Option Nat)
    (settings : Settings) :
    Endures filename source settings [] (start filename source size settings) [] := by
  rcases start_cases filename source size settings with
    ⟨datagram, u, hstart, carries, awaits, first⟩ | ⟨e, hstart⟩
  · have hpositive : 0 < u.sender.attempts := awaits.attempted
    rw [hstart]
    refine .sending ⟨awaits, ?_⟩ carries ?_ (endsIn_nil _) hpositive
    · rw [first]
      exact Nat.le_max_right _ _
    · rw [first]
      exact endsIn_first nofun
  · rw [hstart]
    exact fail_endures nofun (endsIn_nil _)

theorem history_endures (filename : String) (source : Source) (size : Option Nat)
    (settings : Settings) {inputs : List Input} {status : Status} {log : Log}
    (h : machine.History (start filename source size settings) inputs status log) :
    Endures filename source settings (waits inputs) status log.sent.toList := by
  induction h with
  | start => exact start_endures filename source size settings
  | arrival a before demand ih =>
    rw [waits_arrival, Log.sent_note]
    cases ih with
    | waiting attends carries copies silent fewer =>
      exact arrive_endures attends carries copies silent fewer a
    | sending | parting | ended => cases demand
  | @verdict inputs status log datagram v before demand ih =>
    rw [waits_verdict, Log.sent_note, Array.toList_push]
    exact settle_endures ih demand v

/-- As many silent intervals in a row as a packet may be sent end an upload. -/
theorem Endures.ended_of_silence {status : Status}
    (h : Endures filename source settings ends status sent)
    (silence : List.replicate (max settings.maxRetries 1) .silence <:+ ends) :
    ∃ result, status = .ended result := by
  have hpositive : 1 ≤ max settings.maxRetries 1 := Nat.le_max_right _ _
  cases h with
  | waiting attends carries copies silent fewer =>
    have hle := silent.le silence
    have hwithin := attends.within
    omega
  | sending attends carries copies silent fewer =>
    have hle := silent.le silence
    have hwithin := attends.within
    omega
  | parting farewell heard =>
    have hle := heard.le silence
    omega
  | ended honest => exact ⟨_, rfl⟩

end Upload

end TftpUpload
