/-
  TftpUpload/Proofs/Unanswered.lean
  =================================
  **Who leaves an ERROR unanswered.**

  A server, an upload and a reception that read an ERROR send nothing in return,
  whatever state they are in: the first ignores it, the other two end at once
  (`errors_are_not_answered`).  A client's endpoint hands on what its peer sends
  and refuses everybody else before it looks at the datagram, so it answers the
  ERROR of a stranger with one of its own, and two strangers may go on like that
  without end.  Nor is an ERROR recognized that the receive buffer cuts off
  inside its text; it is answered as a malformed packet
  (`two_errors_are_answered`).
-/
import TftpUpload.Client.PeerLock
import TftpUpload.Proofs.Sender.Upload
import TftpUpload.Proofs.Transfer.Farewell
import TftpUpload.Server.Service
import TftpUpload.Storage.Memory

namespace TftpUpload

open Wire Transfer Net Text

variable {bytes : Bytes} {code : ErrorCode} {text : String}

theorem decode_of_read {m : Message} (h : (Arrival.datagram bytes).read = .message m) :
    decode (bytes.take receiveLimit) = .ok m := by
  simp only [Arrival.read] at h
  split at h
  · rename_i m' hdecode
    cases h
    exact hdecode
  · cases h

/-! ### Machines that have ended

An upload and a reception end when they read an ERROR, and what has ended sends no more. -/

/-- A machine that demands nothing sends nothing any more. -/
theorem Transfer.Machine.History.sent_of_nothing {σ : Type} {m : Machine σ} {s s' : σ}
    {result : Except Failure Summary} {inputs : List Input} {log : Log}
    (demand : m.demand s = .nothing result) (h : m.History s inputs s' log) :
    s' = s ∧ log.sent = #[] := by
  obtain ⟨-, rfl, rfl⟩ := h.of_nothing demand
  exact ⟨rfl, rfl⟩

namespace Upload

/-- An ERROR ends an upload. -/
theorem arrive_of_error (h : (Arrival.datagram bytes).read = .message (.error code text))
    (u : Upload) : u.arrive (.datagram bytes) = .ended (.error (.remote code text)) := by
  unfold arrive
  rw [h]
  simp only [Sender.receive]
  rfl

end Upload

namespace Reception

variable {σ κ : Type} (st : Storage σ κ)

theorem step_of_error (s : Session κ) (store : σ) :
    s.step st (.error code text) store = (s.fail, .error (.remote code text), store) := by
  simp only [Session.step, Session.advance]

theorem feed_of_error (maxRetries : Nat) (s : Session κ) (code : ErrorCode) (text : String)
    (store : σ) :
    ∃ store', (feed st maxRetries s (.error code text) store).1 =
      (.ended (.error (.remote code text)), store') := by
  simp only [feed, step_of_error, fail, Failure.farewell, Failure.reply, Option.bind_none, abandon]
  split <;> exact ⟨_, rfl⟩

/-- An ERROR ends a reception, also one that lingers. -/
theorem arrive_of_error (h : (Arrival.datagram bytes).read = .message (.error code text))
    {state : State σ κ} (demand : state.1.demand = .arrival) :
    ∃ result store', (Status.arrive st state (.datagram bytes)).1 = (.ended result, store') := by
  obtain ⟨status, store⟩ := state
  cases status with
  | waiting r =>
    obtain ⟨store', hfeed⟩ := feed_of_error st r.maxRetries r.session code text store
    simp only [Status.arrive, arrive, h]
    exact ⟨_, _, hfeed⟩
  | lingering session summary =>
    simp only [Status.arrive, linger, h, step_of_error]
    exact ⟨_, _, rfl⟩
  | replying | completing | repeating | parting | ended => cases demand

/-- An ERROR opens no transfer. -/
theorem start_of_error (h : (Arrival.datagram bytes).read = .message (.error code text))
    (connected : Bool) (settings : Settings) (store : σ) :
    ∃ result store', start st connected (bytes.take receiveLimit) settings store =
      (.ended result, store') := by
  unfold start
  split
  · rw [decode_of_read h]
    obtain ⟨store', hfeed⟩ := feed_of_error st settings.maxRetries {} code text store
    exact ⟨_, _, hfeed⟩
  · exact ⟨_, _, rfl⟩

end Reception

namespace Server

/-- The server ignores an ERROR: nothing is sent, nothing starts. -/
theorem Service.step_of_error {σ κ : Type} (st : Storage σ κ) (settings : Transfer.Settings)
    (h : (Arrival.datagram bytes).read = .message (.error code text)) (s : Service σ κ)
    (source : Address) (endpoint : Except Fault Unit) :
    (s.step st settings (.datagram source bytes endpoint)).2 = {} ∧
      (s.step st settings (.datagram source bytes endpoint)).1.workers = s.workers ∧
      (s.step st settings (.datagram source bytes endpoint)).1.store = s.store := by
  have hreaction : Rendezvous.reaction (bytes.take receiveLimit) = .ignored := by
    unfold Rendezvous.reaction
    rw [decode_of_read h]
  simp only [step, onDatagram, Rendezvous.receive]
  cases s.rendezvous.registry.find? source with
  | some active => exact ⟨rfl, rfl, rfl⟩
  | none =>
    rw [hreaction]
    exact ⟨rfl, rfl, rfl⟩

end Server

namespace Client.PeerLock

/-- The client's endpoint takes datagrams from the source: from its peer, or from the server's IP
address as long as it has none. -/
def Accepts (l : PeerLock) (source : Address) : Prop :=
  l.peer = some source ∨ l.peer = none ∧ source.ip = l.server.ip

theorem receive_of_accepts {l : PeerLock} {source : Address} (h : l.Accepts source)
    (bytes : Bytes) : (l.receive source bytes).2 = .delivered bytes := by
  unfold receive
  rcases h with hpeer | ⟨hpeer, hip⟩
  · rw [hpeer]
    simp only [if_pos]
  · rw [hpeer]
    simp only [if_pos hip]

/-- A stranger is refused, whatever it sends. -/
theorem receive_of_stranger {l : PeerLock} {source : Address} (h : ¬ l.Accepts source)
    (bytes : Bytes) : l.receive source bytes = (l, refusal source) := by
  unfold receive
  unfold Accepts at h
  cases hpeer : l.peer with
  | some peer =>
    have hne : peer ≠ source := fun heq => h (.inl (by rw [hpeer, heq]))
    simp only [if_neg hne]
  | none =>
    have hip : source.ip ≠ l.server.ip := fun heq => h (.inr ⟨hpeer, heq⟩)
    simp only [if_neg hip]

end Client.PeerLock

open Client Server

/-- An ERROR is not answered by the server, by an upload, or by a reception, in whatever state
they are and now or later; and a client's endpoint sends nothing for it if it comes from a source
that it takes datagrams from. -/
theorem errors_are_not_answered {bytes : Bytes} {code : ErrorCode} {text : String}
    (h : (Arrival.datagram bytes).read = .message (.error code text)) :
    (∀ {σ κ : Type} (st : Storage σ κ) (settings : Transfer.Settings) (s : Service σ κ)
      (source : Address) (endpoint : Except Fault Unit),
      (s.step st settings (.datagram source bytes endpoint)).2 = {} ∧
        (s.step st settings (.datagram source bytes endpoint)).1.workers = s.workers ∧
        (s.step st settings (.datagram source bytes endpoint)).1.store = s.store) ∧
    (∀ (status status' : Upload.Status) (inputs : List Input) (log : Log),
      status.demand = .arrival →
      Upload.machine.History (status.arrive (.datagram bytes)).1 inputs status' log →
      log.sent = #[]) ∧
    (∀ {σ κ : Type} (st : Storage σ κ) (state state' : Reception.State σ κ) (inputs : List Input)
      (log : Log), state.1.demand = .arrival →
      (Reception.machine st).History (Reception.Status.arrive st state (.datagram bytes)).1 inputs
        state' log →
      log.sent = #[]) ∧
    (∀ {σ κ : Type} (st : Storage σ κ) (connected : Bool) (settings : Transfer.Settings) (store : σ)
      (state' : Reception.State σ κ) (inputs : List Input) (log : Log),
      (Reception.machine st).History
        (Reception.start st connected (bytes.take receiveLimit) settings store) inputs state' log →
      log.sent = #[]) ∧
    ∀ (l : PeerLock) (source : Address), l.Accepts source →
      (l.receive source bytes).2 = .delivered bytes := by
  refine ⟨?_, ?_, ?_, ?_, ?_⟩
  · intro σ κ st settings s source endpoint
    exact s.step_of_error st settings h source endpoint
  · intro status status' inputs log demand history
    cases status with
    | waiting u =>
      simp only [Upload.Status.arrive, u.arrive_of_error h] at history
      exact (history.sent_of_nothing rfl).2
    | sending | parting | ended => cases demand
  · intro σ κ st state state' inputs log demand history
    obtain ⟨result, store', hended⟩ := Reception.arrive_of_error st h demand
    rw [hended] at history
    exact (history.sent_of_nothing rfl).2
  · intro σ κ st connected settings store state' inputs log history
    obtain ⟨result, store', hended⟩ := Reception.start_of_error st h connected settings store
    rw [hended] at history
    exact (history.sent_of_nothing rfl).2
  · intro l source haccepts
    exact PeerLock.receive_of_accepts haccepts bytes

/-- A server that knows nobody does not answer an ERROR that says that a disk is full. -/
theorem full_disk_is_not_answered :
    (Arrival.datagram [0, 5, 0, 3, 0]).read = .message (.error .diskFull "") ∧
      (Service.step (Storage.Memory.storage {}) {} ⟨{}, [], {}⟩
        (.datagram ⟨.loopback6, 5000, 0⟩ [0, 5, 0, 3, 0] (.ok ()))).2 = {} := by
  have hread : (Arrival.datagram [0, 5, 0, 3, 0]).read = .message (.error .diskFull "") := by decide
  exact ⟨hread, ((errors_are_not_answered hread).1 _ _ _ _ _).1⟩

/-! ### The ERROR of a stranger

The refusal is itself an ERROR from somebody whom the stranger has not asked, so a stranger that is
such an endpoint too refuses it in turn. -/

/-- What a client's endpoint tells a stranger. -/
def refusalDatagram : Bytes := (Message.plainError .unknownTransferId).form

theorem packet_refusal : packet (.plainError .unknownTransferId) = .ok refusalDatagram :=
  packet_error (by decide)

theorem refusal_eq (source : Address) :
    PeerLock.refusal source = .refused source (some refusalDatagram) := by
  unfold PeerLock.refusal packet?
  rw [packet_refusal]

/-- A stranger to whom a refusal is sent, and who takes its sender for a stranger too, sends it
back: nothing ends this but a loss. -/
theorem strangers_bounce {l : PeerLock} {source : Address} (h : ¬ l.Accepts source) :
    ReadsError refusalDatagram ∧
      l.receive source refusalDatagram = (l, .refused source (some refusalDatagram)) := by
  refine ⟨⟨_, _, decode_packet packet_refusal⟩, ?_⟩
  rw [PeerLock.receive_of_stranger h, refusal_eq]

/-! ### An ERROR that is cut off

A text of more bytes than the buffer has left loses its zero byte there, and an ERROR without it is
malformed. -/

theorem cutAtZero?_of_nonzero {bytes : Bytes} (h : 0 ∉ bytes) : cutAtZero? bytes = none := by
  induction bytes with
  | nil => rfl
  | cons b rest ih =>
    rw [List.mem_cons, not_or] at h
    simp only [cutAtZero?, if_neg (Ne.symm h.1), ih h.2, Option.map_none]

/-- The receive buffer keeps all of the head of a packet. -/
theorem take_receiveLimit {opcode word : Bytes} (hopcode : opcode.length = 2)
    (hword : word.length = 2) (rest : Bytes) :
    (opcode ++ (word ++ rest)).take receiveLimit =
      opcode ++ (word ++ rest.take (blockSize + 1)) := by
  have hlimit : receiveLimit - 2 - 2 = blockSize + 1 := by decide
  have htwo : 2 ≤ receiveLimit ∧ 2 ≤ receiveLimit - 2 := by decide
  rw [List.take_append, List.take_append, hopcode, hword, hlimit,
    List.take_of_length_le (hopcode.trans_le htwo.1),
    List.take_of_length_le (hword.trans_le htwo.2)]

/-- What the receive buffer keeps of an ERROR with a long text is no ERROR. -/
theorem read_of_long_error (code : ErrorCode) {text : String} (nonzero : 0 ∉ Utf8.encode text)
    (long : blockSize < text.utf8ByteSize) :
    (Arrival.datagram (Message.error code text).form).read =
      .failure (.decode (.truncated "error message")) := by
  have hform : (Message.error code text).form.take receiveLimit =
      wordBytes Opcode.error.word ++ (wordBytes code.word ++
        (Utf8.encode text).take (blockSize + 1)) := by
    rw [← Utf8.length_encode] at long
    simp only [Message.form, Message.fields, Message.opcode, List.map_cons, List.map_nil,
      List.flatten_cons, List.flatten_nil, Field.form, List.append_nil]
    rw [take_receiveLimit rfl rfl, List.take_append_of_le_length long]
  have hcut : cutAtZero? ((Utf8.encode text).take (blockSize + 1)) = none :=
    cutAtZero?_of_nonzero fun h => nonzero (List.mem_of_mem_take h)
  simp only [Arrival.read, hform, decode_opcode, decodeBody, readWord_wordBytes, bind, Except.bind,
    readText, hcut]

def longError : Message := .error .diskFull (String.ofList (List.replicate (blockSize + 1) 'x'))

theorem nonzero_longError :
    0 ∉ Utf8.encode (String.ofList (List.replicate (blockSize + 1) 'x')) := by
  have hx : String.utf8EncodeChar 'x' = [120] := by decide
  rw [Utf8.encode_ofList, List.flatMap_replicate, hx]
  simp

def longErrorAnswer : Bytes := (Message.error .illegalOperation "truncated error message").form

theorem packet_longErrorAnswer :
    packet (.error .illegalOperation "truncated error message") = .ok longErrorAnswer :=
  packet_error (by decide)

/-- An upload takes a long ERROR for a malformed packet, and says so. -/
theorem arrive_of_longError (u : Upload) :
    u.arrive (.datagram longError.form) =
      .parting longErrorAnswer (.decode (.truncated "error message")) := by
  have hlong : blockSize < (String.ofList (List.replicate (blockSize + 1) 'x')).utf8ByteSize := by
    have hx : String.utf8EncodeChar 'x' = [120] := by decide
    rw [← Utf8.length_encode, Utf8.encode_ofList, List.flatMap_replicate, hx]
    simp
  have hfarewell : (Failure.decode (.truncated "error message")).farewell = some longErrorAnswer :=
    farewell_of_packet rfl packet_longErrorAnswer
  unfold Upload.arrive longError
  rw [read_of_long_error .diskFull nonzero_longError hlong]
  simp only [Upload.fail, hfarewell]

theorem upload_answers_longError (filename : String) (source : Source) (size : Option Nat)
    (settings : Transfer.Settings) {request : Bytes}
    (h : packet (.writeRequest filename settings.mode) = .ok request) :
    Upload.machine.History (Upload.start filename source size settings)
      [.verdict (.ok ()), .arrival (.datagram longError.form), .verdict (.ok ())]
      (.ended (.error (.decode (.truncated "error message"))))
      ⟨#[request, longErrorAnswer], #[]⟩ := by
  unfold Upload.start
  dsimp only [Sender.request]
  rw [Upload.transmit_ok h]
  generalize (⟨_, source, filename, Source.blockCountHint size⟩ : Upload) = u
  have hstart : Upload.machine.History (.sending request none u) [] (.sending request none u) {} :=
    .start
  have hwaiting : Upload.machine.History (.sending request none u) [.verdict (.ok ())] (.waiting u)
      ⟨#[request], #[]⟩ := hstart.verdict (.ok ()) rfl
  have harrival := hwaiting.arrival (.datagram longError.form) rfl
  have hparting : (Upload.machine.arrive (.waiting u) (.datagram longError.form)).1 =
      .parting longErrorAnswer (.decode (.truncated "error message")) := by
    simp only [Upload.machine, Upload.Status.arrive, arrive_of_longError]
  rw [hparting] at harrival
  exact harrival.verdict (.ok ()) rfl

def localClient : PeerLock := ⟨⟨.loopback6, defaultPort, 0⟩, some ⟨.loopback6, 5000, 0⟩⟩

/-- A client's endpoint answers the ERROR of a stranger, and an upload that of its peer if the
text is too long. -/
theorem two_errors_are_answered :
    (ReadsError refusalDatagram ∧
      localClient.receive ⟨.loopback6, 6000, 0⟩ refusalDatagram =
        (localClient, .refused ⟨.loopback6, 6000, 0⟩ (some refusalDatagram))) ∧
    (ReadsError longError.form ∧ ReadsError longErrorAnswer ∧
      Upload.machine.History (Upload.start "a" (Source.ofBytes []) none { mode := "o" })
        [.verdict (.ok ()), .arrival (.datagram longError.form), .verdict (.ok ())]
        (.ended (.error (.decode (.truncated "error message"))))
        ⟨#[[0, 2, 97, 0, 111, 0], longErrorAnswer], #[]⟩) := by
  have hstranger : ¬ localClient.Accepts ⟨.loopback6, 6000, 0⟩ := by
    unfold PeerLock.Accepts
    decide
  have hclean : ∀ field ∈ longError.fields, field.Clean := by
    simp only [longError, Message.fields, List.forall_mem_cons, Field.Clean]
    exact ⟨trivial, trivial, nonzero_longError, List.forall_mem_nil _⟩
  have hrequest : ∀ field ∈ (Message.writeRequest "a" "o").fields, field.Clean := by
    simp only [Message.fields, List.forall_mem_cons, Field.Clean]
    exact ⟨trivial, by decide, by decide, List.forall_mem_nil _⟩
  have hfits : longError.Fits := by rintro _ _ ⟨⟩
  exact ⟨strangers_bounce hstranger, ⟨_, _, decode_form hclean hfits⟩,
    ⟨_, _, decode_packet packet_longErrorAnswer⟩,
    upload_answers_longError "a" (Source.ofBytes []) none { mode := "o" }
      (packet_eq_form hrequest (by decide))⟩

end TftpUpload
