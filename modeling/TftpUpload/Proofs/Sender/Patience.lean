/-
  TftpUpload/Proofs/Sender/Patience.lean
  ======================================
  **How long an upload can be kept waiting.**

  Whatever ends a wait, an upload goes on to its next packet, sends the same one
  again, or ends (`arrive_proceeds`), and it sends no packet more often than its
  settings allow.  So a wait is paid for by an attempt, and there are no more of
  them than attempts at all packets together (`waits_are_bounded`).

  One kind of arrival costs nothing.  An acknowledgement of a block that comes
  before the request is acknowledged is ignored, and the interval of silence
  begins anew; a peer that goes on sending such acknowledgements holds the upload
  for as long as it likes (`requested_waits`).  The bound therefore counts them
  apart (`early`).
-/
import TftpUpload.Proofs.Sender.Upload
import TftpUpload.Proofs.Transfer.History

namespace TftpUpload

open Wire Transfer

def Transfer.Input.isArrival : Input → Bool
  | arrival _ => true
  | verdict _ => false

/-! ### Attempts

A sender begins with one attempt, and compares their number with the ceiling before it sends its
packet again. -/

namespace Sender

variable {s s' : Sender}

structure Patient (s : Sender) : Prop where
  within : s.attempts ≤ s.ceiling
  positive : 1 ≤ s.ceiling

theorem Patient.retransmit (h : s.Patient) : s.retransmit.1.Patient := by
  unfold Sender.retransmit
  split
  · exact h
  · split
    · exact ⟨h.within, h.positive⟩
    · rename_i hfew
      exact ⟨Nat.lt_of_not_le hfew, h.positive⟩

theorem Patient.acknowledged (h : s.Patient) (expected n : UInt16) :
    (s.acknowledged expected n).1.Patient := by
  unfold Sender.acknowledged
  split
  · dsimp only
    split <;> exact ⟨h.within, h.positive⟩
  · exact h.retransmit

theorem Patient.receive (h : s.Patient) {m : Message} {step : Step}
    (hreceive : s.receive m = (s', .ok step)) : s'.Patient := by
  unfold Sender.receive at hreceive
  split at hreceive
  · cases hreceive
  · split at hreceive <;> cases hreceive
    · exact ⟨h.within, h.positive⟩
    · exact h
  · rename_i expected n _
    have hacknowledged := h.acknowledged expected n
    cases hreceive
    exact hacknowledged
  · cases hreceive

theorem Patient.silence (h : s.Patient) : s.silence.1.Patient := by
  unfold Sender.silence
  split
  · exact h.retransmit
  · exact h.retransmit
  · exact h

theorem Patient.block (h : s.Patient) (payload : Bytes) : (s.block payload).1.Patient :=
  ⟨h.positive, h.positive⟩

end Sender

namespace Upload

variable {filename : String} {source : Source} {settings : Settings} {blocks : List Bytes}
  {u u' : Upload} {a : Arrival}

theorem fail_ne_sending (failure : Failure) {datagram : Bytes} {report : Option Progress} :
    fail failure ≠ .sending datagram report u := by
  unfold fail
  split <;> nofun

theorem fail_ne_waiting (failure : Failure) : fail failure ≠ .waiting u := by
  unfold fail
  split <;> nofun

/-- An upload that sends a message has not changed. -/
theorem eq_of_transmit {m : Message} {report report' : Option Progress} {datagram : Bytes}
    (h : u.transmit m report = .sending datagram report' u') : u' = u := by
  unfold transmit at h
  split at h
  · cases h
    rfl
  · exact absurd h (fail_ne_sending _)

theorem sendBlock_patient (h : u.sender.Patient) {datagram : Bytes} {report : Option Progress}
    (hsend : u.sendBlock = .sending datagram report u') : u'.sender.Patient := by
  unfold sendBlock at hsend
  split at hsend
  · exact absurd hsend (fail_ne_sending _)
  · rename_i chunk rest _
    rw [eq_of_transmit hsend]
    exact h.block chunk

theorem follow_patient (h : u.sender.Patient) {step : Sender.Step} {datagram : Bytes}
    {report : Option Progress} (hstep : u.follow step = .sending datagram report u') :
    u'.sender.Patient := by
  cases step with
  | readBlock => exact sendBlock_patient h hstep
  | resend m =>
    have htransmit : u.transmit m none = .sending datagram report u' := hstep
    rwa [eq_of_transmit htransmit]
  | wait => cases hstep
  | done => cases hstep
  | giveUp attempts => exact absurd hstep (fail_ne_sending (.timeout attempts))

/-- Whatever arrives, no packet is sent more often than is allowed. -/
theorem arrive_patient (h : u.sender.Patient) {datagram : Bytes} {report : Option Progress}
    (harrive : u.arrive a = .sending datagram report u') : u'.sender.Patient := by
  unfold arrive at harrive
  split at harrive
  · split at harrive
    · rename_i sender step hreceive
      exact follow_patient (u := { u with sender }) (h.receive hreceive) harrive
    · exact absurd harrive (fail_ne_sending _)
  · exact follow_patient (u := { u with sender := u.sender.silence.1 }) h.silence harrive
  · exact absurd harrive (fail_ne_sending _)

/-! ### What a wait leads to -/

/-- Where blocks have been sent, the acknowledgement of another packet is not ignored. -/
theorem arrive_stale (h : u.Awaits filename source settings blocks) (hne : blocks ≠ [])
    {n : UInt16} (hread : a.read = .message (.ack n)) (hn : n ≠ number blocks.length) :
    u.arrive a ≠ .waiting u' := by
  obtain ⟨datagram, m, hm, hdatagram⟩ := h.sendable
  have hlast : u.sender.lastSent = some m := h.lastSent.trans hm
  have hphase : u.sender.phase = .awaitAck (number blocks.length) := by
    rw [h.phase, ← Nat.sub_add_cancel (List.length_pos_iff.2 hne)]
    rfl
  unfold arrive
  rw [hread]
  simp only [Sender.receive, hphase, Sender.acknowledged, if_neg hn, Sender.retransmit, hlast]
  split
  · exact fail_ne_waiting (.timeout _)
  · rw [follow, transmit_ok hdatagram]
    intro hwaiting
    cases hwaiting

/-- The upload waits for the acknowledgement of the last packet, and has not sent it more often
than is allowed. -/
structure Attends (filename : String) (source : Source) (settings : Settings)
    (blocks : List Bytes) (u : Upload) : Prop
    extends Awaits filename source settings blocks u where
  within : u.sender.attempts ≤ max settings.maxRetries 1

theorem Attends.patient (h : u.Attends filename source settings blocks) : u.sender.Patient where
  within := h.ceiling ▸ h.within
  positive := by
    rw [h.ceiling]
    exact Nat.le_max_right _ _

theorem Awaits.attends (h : u.Awaits filename source settings blocks)
    (patient : u.sender.Patient) : u.Attends filename source settings blocks :=
  ⟨h, h.ceiling ▸ patient.within⟩

/-- What becomes of an upload that waits: it goes on to the next block, sends its packet again, or
ends, unless it ignores the arrival. -/
inductive Proceeds (filename : String) (source : Source) (settings : Settings)
    (blocks : List Bytes) (u : Upload) (a : Arrival) : Status → Prop where
  /-- A block is acknowledged before the request is. -/
  | ignored {n : UInt16} (handshake : blocks = []) (read : a.read = .message (.ack n))
      (other : n ≠ 0) : Proceeds filename source settings blocks u a (.waiting u)
  | advanced {chunk datagram : Bytes} {report : Option Progress} {u' : Upload}
      (acked : a.read = .message (.ack (number blocks.length)))
      (carries : Carries filename settings (blocks ++ [chunk]) (blocks.length + 1) datagram)
      (next : u'.Attends filename source settings (blocks ++ [chunk]))
      (first : u'.sender.attempts = 1) :
    Proceeds filename source settings blocks u a (.sending datagram report u')
  | resent {datagram : Bytes} {u' : Upload} (recalls : Recalls blocks a)
      (carries : Carries filename settings blocks blocks.length datagram)
      (again : u'.Attends filename source settings blocks)
      (counted : u'.sender.attempts = u.sender.attempts + 1) :
    Proceeds filename source settings blocks u a (.sending datagram none u')
  | done (finished : Finished blocks) :
    Proceeds filename source settings blocks u a
      (.ended (.ok ⟨filename, blocks.length, blocks.flatten.length⟩))
  | failed (failure : Failure) : Proceeds filename source settings blocks u a (fail failure)

theorem arrive_proceeds (h : u.Attends filename source settings blocks) (a : Arrival) :
    Proceeds filename source settings blocks u a (u.arrive a) := by
  generalize hstatus : u.arrive a = status
  have hreacts : Reacts filename source settings blocks u a status :=
    hstatus ▸ arrive_reacts h.toAwaits a
  cases hreacts with
  | @ignored n stale other =>
    by_cases hnil : blocks = []
    · subst hnil
      exact .ignored rfl stale other
    · exact absurd hstatus (arrive_stale h.toAwaits hnil stale other)
  | advanced acked full carries next first =>
    exact .advanced acked carries (next.attends (arrive_patient h.patient hstatus)) first
  | unread acked full => exact .failed _
  | done acked finished => exact .done finished
  | resent recalls carries again counted =>
    exact .resent recalls carries (again.attends (arrive_patient h.patient hstatus)) counted
  | gaveUp recalls spent => exact .failed _
  | remote error => exact .failed _
  | unexpected message ack error => exact .failed _
  | broken failed => exact .failed _

/-! ### Counting waits

The bound is on what the environment does, so it is counted on the inputs. -/

def arrivals (inputs : List Input) : Nat := inputs.countP Input.isArrival

/-- The number of acknowledgements of blocks that have come before that of the request. -/
def early : List Input → Nat
  | [] => 0
  | input :: rest =>
    match input.message? with
    | some (.ack n) => if n = 0 then 0 else early rest + 1
    | _ => early rest

def Opened (inputs : List Input) : Prop := ∃ input ∈ inputs, input.message? = some (.ack 0)

@[simp]
theorem arrivals_arrival (inputs : List Input) (a : Arrival) :
    arrivals (inputs ++ [.arrival a]) = arrivals inputs + 1 := by
  simp [arrivals, Input.isArrival]

@[simp]
theorem arrivals_verdict (inputs : List Input) (v : Verdict) :
    arrivals (inputs ++ [.verdict v]) = arrivals inputs := by
  simp [arrivals, Input.isArrival]

theorem early_le_append (inputs more : List Input) : early inputs ≤ early (inputs ++ more) := by
  induction inputs with
  | nil => exact Nat.zero_le _
  | cons input rest ih =>
    simp only [List.cons_append, early]
    split
    · split
      · exact Nat.le_refl 0
      · exact Nat.succ_le_succ ih
    · exact ih

theorem early_concat {inputs : List Input} {a : Arrival} {n : UInt16} (h : ¬ Opened inputs)
    (hread : a.read = .message (.ack n)) (hn : n ≠ 0) :
    early (inputs ++ [.arrival a]) = early inputs + 1 := by
  induction inputs with
  | nil => simp [early, Input.message?, hread, hn]
  | cons input rest ih =>
    have hrest : ¬ Opened rest := fun ⟨i, hi, hm⟩ => h ⟨i, List.mem_cons_of_mem _ hi, hm⟩
    simp only [List.cons_append, early]
    split
    · rename_i n' hmessage
      have hn' : n' ≠ 0 := by
        rintro rfl
        exact h ⟨input, List.mem_cons_self, hmessage⟩
      rw [if_neg hn', if_neg hn', ih hrest]
    · exact ih hrest

theorem not_opened_arrival {inputs : List Input} {a : Arrival} (h : ¬ Opened inputs)
    (ha : a.read ≠ .message (.ack 0)) : ¬ Opened (inputs ++ [.arrival a]) := by
  rintro ⟨input, hmem, hmessage⟩
  rcases List.mem_append.1 hmem with hmem | hmem
  · exact h ⟨input, hmem, hmessage⟩
  · rw [List.mem_singleton.1 hmem] at hmessage
    simp only [Input.message?] at hmessage
    split at hmessage
    · cases hmessage
      exact ha (by assumption)
    · cases hmessage

theorem not_opened_verdict {inputs : List Input} (h : ¬ Opened inputs) (v : Verdict) :
    ¬ Opened (inputs ++ [.verdict v]) := by
  rintro ⟨input, hmem, hmessage⟩
  rcases List.mem_append.1 hmem with hmem | hmem
  · exact h ⟨input, hmem, hmessage⟩
  · rw [List.mem_singleton.1 hmem] at hmessage
    cases hmessage

/-! ### Waits are paid for by attempts -/

/-- The waits so far have been paid for by the attempts at the packets before the one that is out,
and by all but one of the attempts at this one. -/
structure Paid (settings : Settings) (blocks : List Bytes) (attempts : Nat) (inputs : List Input) :
    Prop where
  unopened : blocks = [] → ¬ Opened inputs
  count : arrivals inputs + 1 ≤
    early inputs + blocks.length * max settings.maxRetries 1 + attempts

/-- The most waits that there can be for a source of `size` bytes. -/
def waitLimit (settings : Settings) (size : Nat) : Nat :=
  (size / blockSize + 1 + 1) * max settings.maxRetries 1

/-- How an upload that has come to a status has been paying for its waits. -/
inductive Pays (filename : String) (source : Source) (settings : Settings) (inputs : List Input) :
    Status → Prop where
  | waiting {blocks : List Bytes} {u : Upload}
      (attends : u.Attends filename source settings blocks)
      (paid : Paid settings blocks u.sender.attempts inputs) :
    Pays filename source settings inputs (.waiting u)
  | sending {blocks : List Bytes} {datagram : Bytes} {report : Option Progress} {u : Upload}
      (attends : u.Attends filename source settings blocks)
      (paid : Paid settings blocks u.sender.attempts inputs) :
    Pays filename source settings inputs (.sending datagram report u)
  | parting {datagram : Bytes} {failure : Failure}
      (count : arrivals inputs ≤ early inputs + waitLimit settings source.rest.length) :
    Pays filename source settings inputs (.parting datagram failure)
  | ended {result : Except Failure Summary}
      (count : arrivals inputs ≤ early inputs + waitLimit settings source.rest.length) :
    Pays filename source settings inputs (.ended result)

variable {inputs : List Input}

/-- An upload that may wait once more has not reached the limit. -/
theorem Paid.lt_limit (h : Paid settings blocks u.sender.attempts inputs)
    (attends : u.Attends filename source settings blocks) :
    arrivals inputs + 1 ≤ early inputs + waitLimit settings source.rest.length := by
  have hcount := h.count
  have hwithin := attends.within
  have hblocks : (blocks.length + 1) * max settings.maxRetries 1 ≤
      waitLimit settings source.rest.length :=
    Nat.mul_le_mul_right _ (Nat.succ_le_succ (attends.reads.length_le attends.orderly))
  rw [Nat.add_mul, Nat.one_mul] at hblocks
  omega

theorem fail_pays {failure : Failure}
    (count : arrivals inputs ≤ early inputs + waitLimit settings source.rest.length) :
    Pays filename source settings inputs (fail failure) := by
  unfold fail
  split
  · exact .parting count
  · exact .ended count

theorem Pays.count {status : Status} (h : Pays filename source settings inputs status) :
    arrivals inputs ≤ early inputs + waitLimit settings source.rest.length := by
  cases h with
  | waiting attends paid => exact Nat.le_of_succ_le (paid.lt_limit attends)
  | sending attends paid => exact Nat.le_of_succ_le (paid.lt_limit attends)
  | parting count => exact count
  | ended count => exact count

theorem start_pays (filename : String) (source : Source) (size : Option Nat)
    (settings : Settings) :
    Pays filename source settings [] (start filename source size settings) := by
  rcases start_cases filename source size settings with
    ⟨datagram, u, hstart, carries, awaits, first⟩ | ⟨e, hstart⟩
  · rw [hstart]
    refine .sending ⟨awaits, ?_⟩ ⟨?_, ?_⟩
    · rw [first]
      exact Nat.le_max_right _ _
    · rintro - ⟨input, hmem, -⟩
      cases hmem
    · simp [arrivals, first]
  · rw [hstart]
    exact fail_pays (Nat.zero_le _)

/-- Each wait costs an attempt, unless it brings an acknowledgement that is too early. -/
theorem arrive_pays (attends : u.Attends filename source settings blocks)
    (paid : Paid settings blocks u.sender.attempts inputs) (a : Arrival) :
    Pays filename source settings (inputs ++ [.arrival a]) (u.arrive a) := by
  have hcount := paid.count
  have hearly := early_le_append inputs [.arrival a]
  have hover : arrivals (inputs ++ [.arrival a]) ≤
      early (inputs ++ [.arrival a]) + waitLimit settings source.rest.length := by
    have hlimit := paid.lt_limit attends
    rw [arrivals_arrival]
    omega
  generalize hstatus : u.arrive a = status
  have hproceeds : Proceeds filename source settings blocks u a status :=
    hstatus ▸ arrive_proceeds attends a
  cases hproceeds with
  | @ignored n handshake read other =>
    have hunopened := paid.unopened handshake
    refine .waiting attends ⟨fun _ => not_opened_arrival hunopened ?_, ?_⟩
    · rw [read]
      simpa using other
    · rw [arrivals_arrival, early_concat hunopened read other]
      omega
  | @advanced chunk datagram report u' acked carries next first =>
    have hwithin := attends.within
    refine .sending next ⟨by simp, ?_⟩
    rw [arrivals_arrival, first, List.length_append, List.length_singleton, Nat.add_mul,
      Nat.one_mul]
    omega
  | resent recalls carries again counted =>
    refine .sending again ⟨fun hnil => not_opened_arrival (paid.unopened hnil) ?_, ?_⟩
    · subst hnil
      intro hread
      rcases recalls with hsilence | ⟨n, hack, hn⟩
      · rw [hsilence] at hread
        cases hread
      · rw [hack] at hread
        cases hread
        exact hn rfl
    · rw [arrivals_arrival, counted]
      omega
  | done finished => exact .ended hover
  | failed failure => exact fail_pays hover

theorem settle_pays {status : Status} (h : Pays filename source settings inputs status)
    (v : Verdict) : Pays filename source settings (inputs ++ [.verdict v]) (status.settle v).1 := by
  have hover : arrivals (inputs ++ [.verdict v]) ≤
      early (inputs ++ [.verdict v]) + waitLimit settings source.rest.length := by
    have hcount := h.count
    have hearly := early_le_append inputs [.verdict v]
    rw [arrivals_verdict]
    omega
  have hpaid : ∀ {blocks attempts}, Paid settings blocks attempts inputs →
      Paid settings blocks attempts (inputs ++ [.verdict v]) := by
    intro blocks attempts paid
    have hcount := paid.count
    have hearly := early_le_append inputs [.verdict v]
    refine ⟨fun hnil => not_opened_verdict (paid.unopened hnil) v, ?_⟩
    rw [arrivals_verdict]
    omega
  cases h with
  | waiting attends paid => exact .waiting attends (hpaid paid)
  | sending attends paid =>
    cases v with
    | ok _ => exact .waiting attends (hpaid paid)
    | error fault =>
      have hfail : Pays filename source settings (inputs ++ [.verdict (.error fault)])
          (fail (.transport fault)) := fail_pays hover
      exact hfail
  | parting count => exact .ended hover
  | ended count => exact .ended hover

theorem history_pays (filename : String) (source : Source) (size : Option Nat)
    (settings : Settings) {status : Status} {log : Log}
    (h : machine.History (start filename source size settings) inputs status log) :
    Pays filename source settings inputs status := by
  induction h with
  | start => exact start_pays filename source size settings
  | arrival a before demand ih =>
    cases ih with
    | waiting attends paid => exact arrive_pays attends paid a
    | sending | parting | ended => cases demand
  | verdict v before demand ih => exact settle_pays ih v

/-! ### Packets between waits

What is sent is followed by a wait, or by nothing, so the bound on waits is one on packets. -/

/-- A packet that has been sent is not followed by another before the next wait. -/
theorem settle_quiet {status : Status} {datagram : Bytes} (demand : status.demand = .send datagram)
    (v : Verdict) : (status.settle v).1.demand.packet? = none := by
  cases status with
  | waiting u => cases demand
  | sending packet report u =>
    cases v with
    | ok _ => rfl
    | error fault => rfl
  | parting packet failure => rfl
  | ended result => cases demand

/-- There is one packet at most for each wait, and the request. -/
theorem length_le_arrivals (start : Status) {inputs : List Input} {status : Status} {log : Log}
    (h : machine.History start inputs status log) :
    inputs.length + status.demand.packet?.toList.length ≤ 2 * arrivals inputs + 1 := by
  have hone : ∀ packet : Option Bytes, packet.toList.length ≤ 1 := by
    intro packet
    cases packet <;> simp
  induction h with
  | start =>
    have hpacket : start.demand.packet?.toList.length ≤ 1 := hone _
    rw [arrivals, List.length_nil, List.countP_nil]
    omega
  | @arrival inputs status log a before demand ih =>
    have hpacket := hone (machine.arrive status a).1.demand.packet?
    have hdemand : status.demand = .arrival := demand
    rw [hdemand] at ih
    rw [arrivals_arrival, List.length_append, List.length_singleton]
    simp only [packet?_arrival, Option.toList_none, List.length_nil] at ih
    omega
  | @verdict inputs status log datagram v before demand ih =>
    have hdemand : status.demand = .send datagram := demand
    have hquiet : (machine.settle status v).1.demand.packet? = none := settle_quiet hdemand v
    rw [hdemand] at ih
    rw [arrivals_verdict, List.length_append, List.length_singleton, hquiet]
    simpa using ih

/-! ### The bound -/

/-- Waits that are not spent on acknowledgements that come too early are bounded, and so is all
else that happens to an upload.  With `n` blocks in the source, there are at most `n + 1` times as
many of them as one packet may be sent. -/
theorem waits_are_bounded (filename : String) (source : Source) (size : Option Nat)
    (settings : Settings) {inputs : List Input} {status : Status} {log : Log}
    (h : machine.History (start filename source size settings) inputs status log) :
    arrivals inputs ≤ early inputs +
        ((source.rest.length / blockSize + 1) + 1) * max settings.maxRetries 1 ∧
      inputs.length ≤ 2 * arrivals inputs + 1 :=
  ⟨(history_pays filename source size settings h).count,
    Nat.le_trans (Nat.le_add_right _ _) (length_le_arrivals _ h)⟩

set_option maxRecDepth 20000 in
/-- An upload that may send its request once gives up at the first silence. -/
theorem silence_ends_an_upload :
    machine.History (start "a" (Source.ofBytes []) none { maxRetries := 1 })
        [.verdict (.ok ()), .arrival (.datagram [0, 4, 0, 1]), .arrival .silence]
        (.ended (.error (.timeout 1))) ⟨#[(Message.writeRequest "a" "netascii").form], #[]⟩ ∧
      (2 : Nat) ≤ early [.verdict (.ok ()), .arrival (.datagram [0, 4, 0, 1]), .arrival .silence] +
        ((0 / blockSize + 1) + 1) * max 1 1 := by
  have h : machine.History (start "a" (Source.ofBytes []) none { maxRetries := 1 })
      [.verdict (.ok ()), .arrival (.datagram [0, 4, 0, 1]), .arrival .silence]
      (.ended (.error (.timeout 1))) ⟨#[(Message.writeRequest "a" "netascii").form], #[]⟩ :=
    .arrival .silence (.arrival (.datagram [0, 4, 0, 1]) (.verdict (.ok ()) .start rfl) rfl) rfl
  exact ⟨h, (waits_are_bounded _ _ _ _ h).1⟩

/-! ### Acknowledgements that come too early

The bound would be false without what is counted apart, and however large. -/

def requested : Upload where
  sender := ((Sender.new 1).request "a" "netascii").1
  source := .ofBytes []
  filename := "a"
  hint := 0

set_option maxRecDepth 20000 in
theorem requested_history :
    machine.History (start "a" (Source.ofBytes []) none { maxRetries := 1 }) [.verdict (.ok ())]
      (.waiting requested) ⟨#[(Message.writeRequest "a" "netascii").form], #[]⟩ :=
  .verdict (.ok ()) .start rfl

theorem requested_ignores : requested.arrive (.datagram [0, 4, 0, 1]) = .waiting requested := rfl

/-- A peer that acknowledges blocks which have not been sent keeps an upload waiting for as long as
it likes, however small the file is and however seldom a packet may be sent. -/
theorem requested_waits (n : Nat) :
    machine.History (start "a" (Source.ofBytes []) none { maxRetries := 1 })
      (.verdict (.ok ()) :: List.replicate n (.arrival (.datagram [0, 4, 0, 1])))
      (.waiting requested) ⟨#[(Message.writeRequest "a" "netascii").form], #[]⟩ := by
  induction n with
  | zero => exact requested_history
  | succ n ih =>
    have hnext : machine.arrive (.waiting requested) (.datagram [0, 4, 0, 1]) =
        (.waiting requested, none) := by
      have hignores := requested_ignores
      simp only [machine, Status.arrive, hignores]
    have hwait := ih.arrival (.datagram [0, 4, 0, 1]) rfl
    rw [hnext] at hwait
    rw [List.replicate_succ']
    exact hwait

/-- With one block and one attempt at each packet, two waits would have to be enough; here are
three, and the upload still waits. -/
theorem early_acknowledgements_hold_an_upload :
    machine.History (start "a" (Source.ofBytes []) none { maxRetries := 1 })
        [.verdict (.ok ()), .arrival (.datagram [0, 4, 0, 1]), .arrival (.datagram [0, 4, 0, 1]),
          .arrival (.datagram [0, 4, 0, 1])]
        (.waiting requested) ⟨#[(Message.writeRequest "a" "netascii").form], #[]⟩ ∧
      ((0 / blockSize + 1) + 1) * max 1 1 <
        arrivals [.verdict (.ok ()), .arrival (.datagram [0, 4, 0, 1]),
          .arrival (.datagram [0, 4, 0, 1]), .arrival (.datagram [0, 4, 0, 1])] :=
  ⟨requested_waits 3, by decide⟩

end Upload

end TftpUpload
