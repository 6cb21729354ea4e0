/-
  TftpUpload/Proofs/Encoding.lean
  ===============================
  **Only a request may turn out not to fit in a packet.**

  Both sides write what they send into a packet of fixed size.  The name and the
  mode of a request are somebody else's choice; whether they fit is decided by
  their bytes alone (`packet_request_iff`).  If they do not, an upload ends
  before it has sent anything or looked at its source.  Everything else is of
  the sides' own making: a block is cut to size when it is read, what is sent
  again has been sent before, and acknowledgements are short.  So nothing else is
  ever left out because it cannot be written, not even the acknowledgement that
  is repeated at the end, where a failure would go unnoticed
  (`only_requests_are_unwritable`).
-/
import TftpUpload.Proofs.Receiver.Silence
import TftpUpload.Proofs.Sender.Silence
import TftpUpload.Storage.Memory

namespace TftpUpload

open Wire Transfer Text Storage

/-! ### Requests

The form of a request has four bytes besides its texts. -/

/-- The name and the mode can be written, and fit in a packet with an opcode and two zero bytes. -/
def Wire.Writable (filename mode : String) : Prop :=
  '\x00' ∉ filename.toList ∧ '\x00' ∉ mode.toList ∧
    filename.utf8ByteSize + mode.utf8ByteSize + 4 ≤ maxPacketSize

instance (filename mode : String) : Decidable (Writable filename mode) :=
  inferInstanceAs (Decidable (_ ∧ _ ∧ _))

namespace Wire

theorem length_form_writeRequest (filename mode : String) :
    (Message.writeRequest filename mode).form.length =
      filename.utf8ByteSize + mode.utf8ByteSize + 4 := by
  rw [form_writeRequest]
  simp only [List.length_append, List.length_cons, List.length_nil, length_wordBytes,
    Utf8.length_encode]
  omega

theorem packet_request_iff {filename mode : String} :
    (∃ datagram, packet (.writeRequest filename mode) = .ok datagram) ↔
      Writable filename mode := by
  unfold Writable
  rw [← Utf8.zero_mem_encode, ← Utf8.zero_mem_encode, ← length_form_writeRequest]
  constructor
  · rintro ⟨datagram, hpacket⟩
    obtain ⟨-, hlength, hclean⟩ := packet_ok hpacket
    exact ⟨hclean (.text "filename" filename) (by simp [Message.fields]),
      hclean (.text "mode" mode) (by simp [Message.fields]), hlength⟩
  · rintro ⟨hfilename, hmode, hlength⟩
    apply packet_of_clean
    · simp only [Message.fields, List.forall_mem_cons, Field.Clean]
      exact ⟨trivial, hfilename, hmode, List.forall_mem_nil _⟩
    · exact hlength

end Wire

/-! ### Uploads

What an upload sends is either the packet that it sends anew, which has been written before, or
composed of what it has just read or been told. -/

namespace Upload

variable {filename : String} {source : Source} {settings : Settings} {blocks : List Bytes}
  {u : Upload} {a : Arrival} {m : Message}

/-- What the sender's step gives an upload to send. -/
def written? (u : Upload) : Sender.Step → Option Message
  | .readBlock =>
    match u.source.readChunk with
    | .ok (chunk, _) => some (.data u.sender.nextBlock chunk)
    | .error _ => none
  | .resend m => some m
  | _ => none

/-- What an arrival gives an upload to send. -/
def composed? (u : Upload) (a : Arrival) : Option Message :=
  match a.read with
  | .message m =>
    match u.sender.receive m with
    | (sender, .ok step) => ({ u with sender } : Upload).written? step
    | (_, .error _) => none
  | .silence => ({ u with sender := u.sender.silence.1 } : Upload).written? u.sender.silence.2
  | .failure _ => none

theorem follow_of_written? {step : Sender.Step} (h : u.written? step = some m) :
    ∃ (u' : Upload) (report : Option Progress), u.follow step = u'.transmit m report := by
  cases step with
  | readBlock =>
    unfold written? at h
    dsimp only at h
    unfold follow sendBlock
    split at h
    · rename_i chunk rest hread
      cases h
      rw [hread]
      exact ⟨_, _, rfl⟩
    · cases h
  | resend m' =>
    cases h
    exact ⟨u, none, rfl⟩
  | wait | done | giveUp => cases h

theorem arrive_of_composed? (h : u.composed? a = some m) :
    ∃ (u' : Upload) (report : Option Progress), u.arrive a = u'.transmit m report := by
  unfold composed? at h
  unfold arrive
  cases hread : a.read with
  | message received =>
    rw [hread] at h
    dsimp only at h ⊢
    rcases hreceive : u.sender.receive received with ⟨sender, failure | step⟩
    · rw [hreceive] at h
      cases h
    · rw [hreceive] at h
      exact follow_of_written? h
  | silence =>
    rw [hread] at h
    exact follow_of_written? h
  | failure failure =>
    rw [hread] at h
    cases h

/-- No arrival makes an upload fail for want of a packet. -/
theorem arrive_ne_encode (h : u.Awaits filename source settings blocks) (a : Arrival)
    (e : EncodeError) : u.arrive a ≠ .ended (.error (.encode e)) := by
  intro hended
  have hreacts := arrive_reacts h a
  rw [hended] at hreacts
  generalize hstatus : (Status.ended (.error (.encode e))) = status at hreacts
  cases hreacts with
  | ignored | advanced | done | resent => cases hstatus
  | unread | gaveUp | remote | unexpected => cases eq_of_fail _ hstatus.symm
  | broken failed =>
    cases eq_of_fail _ hstatus.symm
    rcases read_failure failed with ⟨e', h⟩ | ⟨fault, h⟩ | h <;> cases h

theorem arrive_of_composed (h : u.Awaits filename source settings blocks)
    (composed : u.composed? a = some m) :
    ∃ datagram report u', packet m = .ok datagram ∧ datagram.length ≤ maxPacketSize ∧
      u.arrive a = .sending datagram report u' := by
  obtain ⟨u', report, harrive⟩ := arrive_of_composed? composed
  cases hpacket : packet m with
  | ok datagram =>
    obtain ⟨rfl, hlength, -⟩ := packet_ok hpacket
    exact ⟨_, report, u', rfl, hlength, harrive.trans (transmit_ok hpacket report)⟩
  | error e => exact absurd (harrive.trans (transmit_error hpacket report)) (arrive_ne_encode h a e)

theorem settle_ne_encode {status : Status} {ends : List Arrival} {sent : List Bytes}
    {datagram : Bytes} (h : Endures filename source settings ends status sent)
    (demand : status.demand = .send datagram) (v : Verdict) (e : EncodeError) :
    (status.settle v).1 ≠ .ended (.error (.encode e)) := by
  intro hended
  cases h with
  | sending attends carries copies silent fewer =>
    cases v with
    | ok _ => cases hended
    | error fault => cases eq_of_fail (.transport fault) hended
  | parting farewell heard =>
    cases hended
    cases farewell
  | waiting | ended => cases demand

theorem start_of_writable (writable : Writable filename settings.mode) (source : Source)
    (size : Option Nat) :
    ∃ datagram u, start filename source size settings = .sending datagram none u := by
  obtain ⟨datagram, hpacket⟩ := packet_request_iff.2 writable
  unfold start
  dsimp only [Sender.request]
  rw [transmit_ok hpacket]
  exact ⟨datagram, _, rfl⟩

/-- An upload whose request does not fit ends at once, whatever its source is. -/
theorem start_of_unwritable (unwritable : ¬ Writable filename settings.mode) :
    ∃ e, ∀ source size,
      start filename source size settings = .ended (.error (.encode e)) := by
  cases hpacket : packet (.writeRequest filename settings.mode) with
  | ok datagram => exact absurd (packet_request_iff.1 ⟨datagram, hpacket⟩) unwritable
  | error e =>
    refine ⟨e, fun source size => ?_⟩
    unfold start
    dsimp only [Sender.request]
    rw [transmit_error hpacket]
    rfl

/-- Once the request has been written, an upload does not fail for want of a packet. -/
theorem history_ne_encode (writable : Writable filename settings.mode) {size : Option Nat}
    {inputs : List Input} {status : Status} {log : Log}
    (h : machine.History (start filename source size settings) inputs status log)
    (e : EncodeError) : status ≠ .ended (.error (.encode e)) := by
  cases h with
  | start =>
    obtain ⟨datagram, u, hstart⟩ := start_of_writable writable source size
    rw [hstart]
    nofun
  | arrival a before demand =>
    have hbefore := history_endures filename source size settings before
    cases hbefore with
    | waiting attends => exact arrive_ne_encode attends.toAwaits a e
    | sending | parting | ended => cases demand
  | verdict v before demand =>
    exact settle_ne_encode (history_endures filename source size settings before) demand v e

theorem history_of_unwritable (unwritable : ¬ Writable filename settings.mode) {size : Option Nat}
    {inputs : List Input} {status : Status} {log : Log}
    (h : machine.History (start filename source size settings) inputs status log) :
    ∃ e, status = .ended (.error (.encode e)) ∧ inputs = [] ∧ log = {} ∧
      ∀ source' size', start filename source' size' settings = status := by
  obtain ⟨e, hstart⟩ := start_of_unwritable unwritable
  rw [hstart source size] at h
  obtain ⟨rfl, rfl, rfl⟩ := h.of_nothing rfl
  exact ⟨e, rfl, rfl, rfl, hstart⟩

end Upload

/-! ### Receptions

A failure to write would show among the reasons why a reception fails, so they are listed, and it is
not one of them. -/

namespace Session

variable {σ κ : Type} {st : Storage σ κ} {s s' : Session κ} {m : Message} {store store' : σ}

def answer? (st : Storage σ κ) (s : Session κ) (m : Message) (store : σ) : Option Message :=
  match s.step st m store with
  | (_, .ok answer, _) => some answer.message
  | (_, .error _, _) => none

end Session

namespace Reception

variable {σ κ : Type} {st : Storage σ κ} {s : Session κ} {m : Message} {store : σ}

def Reason : Failure → Prop
  | .storage _ => False
  | .encode _ => False
  | .panicked _ => False
  | _ => True

def Status.failure? : Status κ → Option Failure
  | .parting _ failure _ => some failure
  | .ended (.error failure) => some failure
  | _ => none

/-- If the reception fails, it has a reason. -/
def Reasoned (status : Status κ) : Prop :=
  ∀ failure, status.failure? = some failure → Reason failure

theorem reason_of_session {failure : Failure} (h : Session.Reason failure) : Reason failure := by
  cases failure with
  | protocol | remote | rejected => trivial
  | transport | storage | decode | encode | timeout | cancelled | panicked => cases h

theorem reason_of_transport (fault : Fault) : Reason (.transport fault) := trivial

theorem reason_of_read {a : Arrival} {failure : Failure} (h : a.read = .failure failure) :
    Reason failure := by
  rcases read_failure h with ⟨e, rfl⟩ | ⟨fault, rfl⟩ | rfl <;> trivial

theorem reasoned_of_none {status : Status κ} (h : status.failure? = none) : Reasoned status := by
  intro failure hfailure
  rw [h] at hfailure
  cases hfailure

theorem abandon_reasoned {failure : Failure} (reason : Reason failure) (st : Storage σ κ)
    (created : Option String) (store : σ) :
    Reasoned (abandon st failure created store).1 := by
  rw [abandon_ended]
  rintro failure' ⟨⟩
  exact reason

theorem fail_reasoned {failure : Failure} (reason : Reason failure) (st : Storage σ κ)
    (s : Session κ) (store : σ) : Reasoned (fail st failure s store).1 := by
  unfold fail
  split
  · rintro failure' ⟨⟩
    exact reason
  · exact abandon_reasoned reason st _ store

/-! #### Answers -/

theorem answer_writes {answer : Session.Step} {block : UInt16} (h : answer.message = .ack block)
    (st : Storage σ κ) (maxRetries : Nat) (s : Session κ) (store : σ) :
    ∃ datagram, packet answer.message = .ok datagram ∧
      (Reception.answer st maxRetries s answer store).1.reply? = some datagram ∧
      Reasoned (Reception.answer st maxRetries s answer store).1 := by
  obtain ⟨datagram, hdatagram⟩ := packet_ack block
  rw [← h] at hdatagram
  refine ⟨datagram, hdatagram, ?_⟩
  cases answer with
  | reply m =>
    have hpacket : packet m = .ok datagram := hdatagram
    rw [answer_reply st maxRetries s hpacket]
    exact ⟨rfl, reasoned_of_none rfl⟩
  | complete m =>
    have hpacket : packet m = .ok datagram := hdatagram
    rw [answer_complete st maxRetries s hpacket]
    exact ⟨rfl, reasoned_of_none rfl⟩

theorem feed_reasoned (st : Storage σ κ) (maxRetries : Nat) (s : Session κ) (m : Message)
    (store : σ) : Reasoned (feed st maxRetries s m store).1.1 := by
  unfold feed
  split
  · rename_i failure store' hstep
    exact fail_reasoned (reason_of_session (Session.step_reason hstep)) st _ store'
  · rename_i s' answer store' hstep
    obtain ⟨block, hblock⟩ := Session.ack_of_step hstep
    obtain ⟨-, -, -, hreasoned⟩ := answer_writes hblock st maxRetries s' store'
    exact hreasoned

theorem silence_reasoned (st : Storage σ κ) (r : Reception κ) (store : σ) :
    Reasoned (silence st r store).1 := by
  obtain ⟨datagram, hdatagram⟩ := packet_ack r.session.lastAcked
  have reason : Reason (.timeout (r.silent + 1)) := trivial
  unfold silence
  dsimp only
  split
  · exact fail_reasoned reason st _ store
  · rw [Session.repetition, hdatagram]
    exact reasoned_of_none rfl

theorem linger_reasoned (st : Storage σ κ) (s : Session κ) (summary : Summary) (a : Arrival)
    (store : σ) : Reasoned (linger st s summary a store).1 := by
  apply reasoned_of_none
  unfold linger
  split
  · split
    · split <;> rfl
    · rfl
  · rfl

theorem arrive_reasoned {state : State σ κ} (h : Reasoned state.1) (a : Arrival) :
    Reasoned (Status.arrive st state a).1.1 := by
  obtain ⟨status, store⟩ := state
  cases status with
  | waiting r =>
    simp only [Status.arrive, arrive]
    split
    · exact feed_reasoned st _ _ _ store
    · exact silence_reasoned st r store
    · rename_i hread
      exact fail_reasoned (reason_of_read hread) st _ store
  | lingering session summary => exact linger_reasoned st session summary a store
  | replying | completing | repeating | parting | ended => exact h

theorem settle_reasoned {state : State σ κ} (h : Reasoned state.1) (v : Verdict) :
    Reasoned (Status.settle st state v).1.1 := by
  obtain ⟨status, store⟩ := state
  cases status with
  | replying packet r =>
    cases v with
    | ok _ => exact reasoned_of_none rfl
    | error fault => exact fail_reasoned (reason_of_transport fault) st _ store
  | completing packet session =>
    cases v with
    | ok _ => exact reasoned_of_none rfl
    | error fault => exact fail_reasoned (reason_of_transport fault) st _ store
  | repeating packet session summary => cases v <;> exact reasoned_of_none rfl
  | parting packet failure created => exact abandon_reasoned (h failure rfl) st created store
  | waiting | lingering | ended => exact h

theorem start_reasoned (st : Storage σ κ) (connected : Bool) (request : Bytes) (settings : Settings)
    (store : σ) : Reasoned (start st connected request settings store).1 := by
  unfold start
  split
  · split
    · exact feed_reasoned st _ _ _ store
    · rename_i e hdecode
      have reason : Reason (.decode e) := trivial
      exact fail_reasoned reason st _ store
  · rintro failure ⟨⟩
    trivial

/-- Wherever a reception comes, it has no other reason to fail. -/
theorem history_reasoned (st : Storage σ κ) (connected : Bool) (request : Bytes)
    (settings : Settings) (initial : σ) {inputs : List Input} {state : State σ κ} {log : Log}
    (h : (machine st).History (start st connected request settings initial) inputs state log) :
    Reasoned state.1 := by
  induction h with
  | start => exact start_reasoned st connected request settings initial
  | arrival a before demand ih => exact arrive_reasoned ih a
  | verdict v before demand ih => exact settle_reasoned ih v

/-! #### What is sent -/

/-- What an arrival gives a reception to send. -/
def composed? (st : Storage σ κ) : State σ κ → Arrival → Option Message
  | (.waiting r, store), a =>
    match a.read with
    | .message m => r.session.answer? st m store
    | .silence => if r.maxRetries ≤ r.silent + 1 then none else some r.session.repetition
    | .failure _ => none
  | (.lingering session _, store), a =>
    match a.read with
    | .message m =>
      match session.step st m store with
      | (_, .ok (.reply answer), _) => some answer
      | _ => none
    | _ => none
  | _, _ => none

/-- The message is an acknowledgement that can be written, and is about to be sent. -/
def Sends (m : Message) (status : Status κ) : Prop :=
  ∃ block datagram, m = .ack block ∧ packet m = .ok datagram ∧ datagram.length ≤ maxPacketSize ∧
    status.reply? = some datagram

theorem sends_of_packet {block : UInt16} {datagram : Bytes} {status : Status κ}
    (hpacket : packet (.ack block) = .ok datagram) (hreply : status.reply? = some datagram) :
    Sends (.ack block) status := by
  obtain ⟨rfl, hlength, -⟩ := packet_ok hpacket
  exact ⟨block, _, rfl, hpacket, hlength, hreply⟩

theorem feed_sends {answer : Message} (h : s.answer? st m store = some answer) (maxRetries : Nat) :
    Sends answer (feed st maxRetries s m store).1.1 := by
  unfold Session.answer? at h
  unfold feed
  split at h
  · rename_i s' answer store' hstep
    cases h
    obtain ⟨block, hblock⟩ := Session.ack_of_step hstep
    obtain ⟨datagram, hpacket, hreply, -⟩ := answer_writes hblock st maxRetries s' store'
    rw [hstep]
    rw [hblock] at hpacket ⊢
    exact sends_of_packet hpacket hreply
  · cases h

theorem arrive_sends {state : State σ κ} {a : Arrival} (h : composed? st state a = some m) :
    Sends m (Status.arrive st state a).1.1 := by
  obtain ⟨status, store⟩ := state
  cases status with
  | waiting r =>
    simp only [composed?] at h
    simp only [Status.arrive, arrive]
    cases hread : a.read with
    | message received =>
      rw [hread] at h
      exact feed_sends h r.maxRetries
    | silence =>
      obtain ⟨datagram, hpacket⟩ := packet_ack r.session.lastAcked
      rw [hread] at h
      dsimp only at h
      split at h
      · cases h
      · rename_i hfew
        cases h
        dsimp only
        rw [silence, if_neg hfew, Session.repetition, hpacket]
        exact sends_of_packet hpacket rfl
    | failure failure =>
      rw [hread] at h
      cases h
  | lingering session summary =>
    simp only [composed?] at h
    simp only [Status.arrive, linger]
    cases hread : a.read with
    | silence | failure =>
      rw [hread] at h
      cases h
    | message received =>
      rw [hread] at h
      dsimp only at h ⊢
      rcases hstep : session.step st received store with ⟨s', failure | reply | reply, store'⟩
      · rw [hstep] at h
        cases h
      · rw [hstep] at h
        obtain rfl : reply = m := Option.some.inj h
        obtain ⟨block, hblock⟩ := Session.ack_of_step hstep
        have hack : reply = .ack block := hblock
        subst hack
        obtain ⟨datagram, hpacket⟩ := packet_ack block
        simp only [hpacket]
        exact sends_of_packet hpacket rfl
      · rw [hstep] at h
        cases h
  | replying | completing | repeating | parting | ended => cases h

theorem start_sends {request : Bytes} {answer : Message} (hdecode : decode request = .ok m)
    (h : ({} : Session κ).answer? st m store = some answer) (settings : Settings) :
    Sends answer (start st true request settings store).1 := by
  unfold start
  rw [if_pos rfl, hdecode]
  exact feed_sends h settings.maxRetries

end Reception

/-! ### Both sides

What a reception repeats when it is done is not among the reasons, since a failure there ends
nothing.  It is looked at on its own. -/

/-- An upload fails for want of a packet exactly if its request does not fit.  Then it has ended
before anything could happen, whatever its source is, and has sent nothing.  What else an arrival
gives an upload to send can be written and goes out.  A reception never fails for want of a packet;
whatever an arrival gives it to send, and what the request does, is an acknowledgement, can be
written, and goes out. -/
theorem only_requests_are_unwritable {σ κ : Type} (st : Storage σ κ) (filename : String)
    (source : Source) (size : Option Nat) (settings : Settings) :
    (∀ inputs status log,
      Upload.machine.History (Upload.start filename source size settings) inputs status log →
        ((∃ e, status = .ended (.error (.encode e))) ↔ ¬ Writable filename settings.mode) ∧
        (¬ Writable filename settings.mode → inputs = [] ∧ log = {} ∧
          ∀ source' size', Upload.start filename source' size' settings = status) ∧
        ∀ u a m, status = .waiting u → u.composed? a = some m →
          ∃ datagram report u', packet m = .ok datagram ∧ datagram.length ≤ maxPacketSize ∧
            u.arrive a = .sending datagram report u') ∧
    (∀ connected request initial inputs state log,
      (Reception.machine st).History (Reception.start st connected request settings initial) inputs
          state log →
        (∀ e, state.1 ≠ .ended (.error (.encode e))) ∧
        ∀ a m, Reception.composed? st state a = some m →
          Reception.Sends m (Reception.Status.arrive st state a).1.1) ∧
    ∀ request m answer initial, decode request = .ok m →
      ({} : Session κ).answer? st m initial = some answer →
        Reception.Sends answer (Reception.start st true request settings initial).1 := by
  refine ⟨fun inputs status log h => ⟨⟨?_, ?_⟩, ?_, ?_⟩, ?_, ?_⟩
  · rintro ⟨e, hended⟩ writable
    exact Upload.history_ne_encode writable h e hended
  · intro unwritable
    obtain ⟨e, hended, -⟩ := Upload.history_of_unwritable unwritable h
    exact ⟨e, hended⟩
  · intro unwritable
    obtain ⟨e, -, hnothing⟩ := Upload.history_of_unwritable unwritable h
    exact hnothing
  · intro u a m hwaiting hcomposed
    have hendures := Upload.history_endures filename source size settings h
    subst hwaiting
    cases hendures with
    | waiting attends => exact Upload.arrive_of_composed attends.toAwaits hcomposed
  · intro connected request initial inputs state log h
    constructor
    · intro e hended
      exact Reception.history_reasoned st connected request settings initial h (.encode e)
        (by rw [hended]; rfl)
    · intro a m hcomposed
      exact Reception.arrive_sends hcomposed
  · intro request m answer initial hdecode hanswer
    exact Reception.start_sends hdecode hanswer settings

def digits (n : Nat) : String := String.ofList (List.replicate n '7')

theorem writable_digits_iff {n : Nat} : Writable (digits n) "octet" ↔ n ≤ 507 := by
  have hdigit : ∀ c ∈ List.replicate n '7', c.isDigit = true := by
    intro c hc
    rw [List.eq_of_mem_replicate hc]
    decide
  have hsize : (digits n).utf8ByteSize = n := by
    rw [← Utf8.length_encode, digits, encode_digits hdigit, List.length_map,
      List.length_replicate]
  have hzero : '\x00' ∉ (digits n).toList := by
    rw [digits, String.toList_ofList]
    exact fun hmem => absurd (List.eq_of_mem_replicate hmem) (by decide)
  have hmode : '\x00' ∉ "octet".toList ∧ "octet".utf8ByteSize = 5 := by decide
  unfold Writable
  rw [hsize, hmode.2]
  simp only [hzero, hmode.1, not_false_eq_true, true_and, maxPacketSize, headerSize, blockSize]
  omega

/-- A name of 507 bytes fits beside a mode of five, and one byte more does not. -/
theorem name_is_too_long_by_one_byte :
    Writable (digits 507) "octet" ∧
      ∃ e, Upload.start (digits 508) (Source.ofBytes [1]) none { mode := "octet" } =
        .ended (.error (.encode e)) := by
  have hlong : ¬ Writable (digits 508) "octet" := by
    rw [writable_digits_iff]
    decide
  have hencode := only_requests_are_unwritable (Storage.Memory.storage {}) (digits 508)
    (Source.ofBytes [1]) none { mode := "octet" }
  exact ⟨writable_digits_iff.2 (by decide), (hencode.1 _ _ _ .start).1.2 hlong⟩

end TftpUpload
