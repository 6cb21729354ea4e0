/-
  TftpUpload/Proofs/Transfer/Farewell.lean
  ========================================
  **What a failure tells the peer, and whether it can be told.**

  An ERROR has a packet exactly if its text has no zero byte and takes at most
  511 bytes (`packet_error_iff`).  The complaints about datagrams and about
  packets out of turn are short (`plain_decode`, `tellable_unexpected`), so a
  failure they make can always be told (`Tellable`).  `Told` says what a side
  that has ended has told its peer: its failure, with the last datagram it sent
  and with no other.
-/
import TftpUpload.Proofs.Text.Plain
import TftpUpload.Proofs.Transfer.History
import TftpUpload.Proofs.Wire.Canonical
import TftpUpload.Receiver.Session

namespace TftpUpload

open Wire Transfer Text

namespace Wire

/-! ### Packets of errors

An ERROR is written like any other message.  What can go wrong is its text alone: a zero byte in it,
or its length. -/

/-- A message that has a packet is sent in its wire form. -/
theorem packet_eq_form {m : Message} (hclean : ∀ field ∈ m.fields, field.Clean)
    (hlen : m.form.length ≤ maxPacketSize) : packet m = .ok m.form := by
  obtain ⟨datagram, hpacket⟩ := packet_of_clean hclean hlen
  rw [hpacket, (packet_ok hpacket).1]

/-- The longest text of an ERROR: a packet also holds an opcode, a code and the zero byte that
closes the text. -/
def errorTextLimit : Nat := maxPacketSize - (headerSize + 1)

theorem length_form_error (code : ErrorCode) (text : String) :
    (Message.error code text).form.length = headerSize + (text.utf8ByteSize + 1) := by
  simp only [Message.form, Message.fields, List.map_cons, List.map_nil, List.flatten_cons,
    List.flatten_nil, Field.form, List.length_append, List.length_nil, List.length_singleton,
    length_wordBytes, Utf8.length_encode, headerSize]
  omega

theorem packet_error_iff {code : ErrorCode} {text : String} :
    (∃ datagram, packet (.error code text) = .ok datagram) ↔ Plain errorTextLimit text := by
  constructor
  · rintro ⟨datagram, hpacket⟩
    obtain ⟨-, hlen, hclean⟩ := packet_ok hpacket
    rw [length_form_error] at hlen
    refine ⟨hclean (.text "error message" text) (by simp [Message.fields]), ?_⟩
    simp only [errorTextLimit]
    omega
  · intro hplain
    have hsize := hplain.size
    simp only [errorTextLimit, maxPacketSize, headerSize, blockSize] at hsize
    apply packet_of_clean
    · simpa [Message.fields, Field.Clean] using hplain.nonzero
    · rw [length_form_error]
      simp only [maxPacketSize, headerSize, blockSize]
      omega

theorem packet_error {code : ErrorCode} {text : String} (h : Plain errorTextLimit text) :
    packet (.error code text) = .ok (Message.error code text).form := by
  obtain ⟨datagram, hpacket⟩ := packet_error_iff.2 h
  rw [hpacket, (packet_ok hpacket).1]

def ReadsError (datagram : Bytes) : Prop := ∃ code text, decode datagram = .ok (.error code text)

theorem not_readsError_of_packet {m : Message} {datagram : Bytes}
    (h : packet m = .ok datagram) (hop : m.opcode ≠ .error) : ¬ ReadsError datagram := by
  rintro ⟨code, text, hdecode⟩
  rw [decode_packet h] at hdecode
  cases hdecode
  exact hop rfl

/-! ### Complaints about datagrams

The complaints about a datagram name a field of it, and quote no more of its contents than a
number. -/

theorem plain_truncated {field : String} (h : Plain 20 field) :
    Plain 40 (DecodeError.truncated field).message :=
  ((by decide : Plain 10 "truncated ").append h).mono (by omega)

theorem plain_badMessage {complaint : String} (h : Plain 60 complaint) :
    Plain 80 (DecodeError.badMessage complaint).message :=
  ((by decide : Plain 13 "bad message: ").append h).mono (by omega)

theorem plain_readWord {field : String} {bytes : Bytes} {e : DecodeError} (hfield : Plain 20 field)
    (h : readWord field bytes = .error e) : Plain 80 e.message := by
  unfold readWord at h
  split at h
  · cases h
  · cases h
    exact (plain_truncated hfield).mono (by omega)

theorem plain_readText {field : String} {bytes : Bytes} {e : DecodeError} (hfield : Plain 20 field)
    (h : readText field bytes = .error e) : Plain 80 e.message := by
  unfold readText at h
  split at h
  · cases h
    exact (plain_truncated hfield).mono (by omega)
  · split at h
    · cases h
    · cases h
      exact plain_badMessage ((hfield.append (by decide : Plain 19 " is not valid UTF-8")).mono
        (by omega))

theorem error_of_bind {α β : Type} {x : Except DecodeError α} {f : α → Except DecodeError β}
    {e : DecodeError} (h : x >>= f = .error e) :
    x = .error e ∨ ∃ a, x = .ok a ∧ f a = .error e := by
  cases x with
  | error e' =>
    cases h
    exact .inl rfl
  | ok a => exact .inr ⟨a, rfl, h⟩

theorem plain_readRequestTexts {bytes : Bytes} {e : DecodeError}
    (h : readRequestTexts bytes = .error e) : Plain 80 e.message := by
  rcases error_of_bind h with hname | ⟨⟨filename, rest⟩, -, h⟩
  · exact plain_readText (by decide) hname
  · rcases error_of_bind h with hmode | ⟨mode, -, h⟩
    · exact plain_readText (by decide) hmode
    · cases h

theorem plain_oversizedPayload {length : Nat} (h : length < 10 ^ 4) :
    Plain 80 (oversizedPayload length).message :=
  plain_badMessage (((((by decide : Plain 16 "data payload of ").append
    (plain_toString (by omega) h)).append (by decide : Plain 15 " bytes exceeds ")).append
    (by decide : Plain 3 (toString blockSize))).mono (by omega))

theorem plain_decodeBody {op : Opcode} {body : Bytes} {e : DecodeError}
    (hlength : body.length ≤ receiveLimit) (h : decodeBody op body = .error e) :
    Plain 80 e.message := by
  cases op with
  | readRequest | writeRequest =>
    rcases error_of_bind h with htexts | ⟨texts, -, h⟩
    · exact plain_readRequestTexts htexts
    · cases h
  | data =>
    rcases error_of_bind h with hword | ⟨⟨block, payload⟩, hword, h⟩
    · exact plain_readWord (by decide) hword
    · dsimp only at h
      split at h
      · cases h
      · cases h
        apply plain_oversizedPayload
        unfold readWord at hword
        split at hword <;> cases hword
        simp only [List.length_cons, receiveLimit, maxPacketSize, headerSize, blockSize] at hlength
        omega
  | ack =>
    rcases error_of_bind h with hword | ⟨word, -, h⟩
    · exact plain_readWord (by decide) hword
    · cases h
  | error =>
    rcases error_of_bind h with hword | ⟨⟨code, rest⟩, -, h⟩
    · exact plain_readWord (by decide) hword
    · rcases error_of_bind h with htext | ⟨text, -, h⟩
      · exact plain_readText (by decide) htext
      · cases h

/-- The complaint about a datagram that the receive buffer holds is short. -/
theorem plain_decode {datagram : Bytes} {e : DecodeError} (hlength : datagram.length ≤ receiveLimit)
    (h : decode datagram = .error e) : Plain 80 e.message := by
  unfold decode at h
  split at h
  · rename_i high low body
    split at h
    · rename_i op hop
      exact plain_decodeBody (by simp only [List.length_cons] at hlength; omega) h
    · cases h
      exact plain_badMessage (((by decide : Plain 15 "unknown opcode ").append
        (plain_word _)).mono (by omega))
  · cases h
    exact plain_badMessage (by decide)

/-! ### Names in requests -/

def Message.Named (m : Message) : Prop :=
  ∀ name mode, m = .writeRequest name mode → 0 ∉ Utf8.encode name

theorem named_of_decode {datagram : Bytes} {m : Message} (h : decode datagram = .ok m) :
    m.Named := by
  rintro name mode rfl
  exact (spells_of_decode h).clean (.text "filename" name) (by simp [Message.fields])

theorem named_of_read {a : Arrival} {m : Message} (h : a.read = .message m) : m.Named := by
  cases a with
  | datagram bytes =>
    simp only [Arrival.read] at h
    split at h
    · rename_i hdecode
      cases h
      exact named_of_decode hdecode
    · cases h
  | silence => cases h
  | broken fault => cases h
  | stopped => cases h

end Wire

/-! ### Failures that can be told -/

namespace Transfer

/-- If there is something to tell the peer, there is a packet that tells it. -/
def Failure.Tellable (failure : Failure) : Prop :=
  ∀ m, failure.reply = some m → ∃ datagram, packet m = .ok datagram

namespace Failure

variable {failure : Failure}

theorem tellable_of_silent (failure : Failure) (h : failure.reply = none) : failure.Tellable := by
  intro m hreply
  rw [h] at hreply
  cases hreply

theorem tellable_of_text {code : ErrorCode} {text : String}
    (h : failure.reply = some (.error code text)) (plain : Plain errorTextLimit text) :
    failure.Tellable := by
  intro m hreply
  rw [h] at hreply
  cases hreply
  exact packet_error_iff.2 plain

/-- The failure can be told, or it is one of those left unsaid. -/
def TellableUnless (unsaid : Failure → Prop) (failure : Failure) : Prop :=
  failure.Tellable ∨ unsaid failure

theorem tellable_cancelled : cancelled.Tellable := tellable_of_text rfl (by decide)

theorem tellable_decode {datagram : Bytes} {e : DecodeError}
    (hlength : datagram.length ≤ receiveLimit) (h : Wire.decode datagram = .error e) :
    (decode e).Tellable :=
  tellable_of_text rfl ((plain_decode hlength h).mono (by decide))

/-- Whatever a wait fails with can be told. -/
theorem tellable_of_read {a : Arrival} (h : a.read = .failure failure) : failure.Tellable := by
  cases a with
  | datagram bytes =>
    simp only [Arrival.read] at h
    split at h
    · cases h
    · rename_i e hdecode
      cases h
      exact tellable_decode (List.length_take_le _ _) hdecode
  | silence => cases h
  | broken fault =>
    cases h
    exact tellable_of_silent _ rfl
  | stopped =>
    cases h
    exact tellable_cancelled

theorem plain_name (op : Opcode) : Plain 5 op.name := by
  cases op <;> decide

/-- A packet out of turn can be complained about, in every state that has a short name. -/
theorem tellable_unexpected (m : Message) {state : String} (h : Plain 100 state) :
    (Failure.unexpected m state).Tellable :=
  tellable_of_text rfl (((((by decide : Plain 11 "unexpected ").append (plain_name _)).append
    (by decide : Plain 10 " in state ")).append h).mono (by decide))

theorem plain_senderLabel (phase : Sender.Phase) : Plain 100 phase.label := by
  cases phase with
  | ready block =>
    exact (((by decide : Plain 10 "SendBlock(").append (plain_word block)).append
      (by decide : Plain 1 ")")).mono (by omega)
  | awaitAck block =>
    exact (((by decide : Plain 9 "AwaitAck(").append (plain_word block)).append
      (by decide : Plain 1 ")")).mono (by omega)
  | start | awaitHandshake | done | failed => decide

theorem plain_sessionLabel (phase : Session.Phase) : Plain 100 phase.label := by
  cases phase with
  | receiving last =>
    exact (((by decide : Plain 18 "Receiving \x7b last: ").append (plain_word last)).append
      (by decide : Plain 2 " \x7d")).mono (by omega)
  | complete last =>
    exact (((by decide : Plain 17 "Complete \x7b last: ").append (plain_word last)).append
      (by decide : Plain 2 " \x7d")).mono (by omega)
  | new | opening | failed => decide

theorem tellable_unexpectedBlock (expected got : UInt16) :
    (Session.unexpectedBlock expected got).Tellable :=
  tellable_of_text rfl (((((by decide : Plain 15 "expected block ").append
    (plain_word expected)).append (by decide : Plain 6 ", got ")).append (plain_word got)).mono
    (by decide))

end Failure

/-! ### What has been told

An ERROR is sent when a side fails and at no other time, so what has been sent is looked at up to
the last datagram and for the last datagram apart. -/

def Quiet (sent : List Bytes) : Prop := ∀ datagram ∈ sent, ¬ ReadsError datagram

/-- The datagram with which a side tells its peer how it has ended. -/
def lastWord : Except Failure Summary → Option Bytes
  | .ok _ => none
  | .error failure => failure.farewell

/-- A side that has ended has told its peer of its failure, last of all and with no other ERROR. -/
def Told (result : Except Failure Summary) (sent : Array Bytes) : Prop :=
  ∃ before, sent.toList = before ++ (lastWord result).toList ∧ Quiet before

theorem quiet_nil : Quiet [] := nofun

theorem Quiet.push {sent : Array Bytes} {m : Message} {datagram : Bytes} (h : Quiet sent.toList)
    (hpacket : packet m = .ok datagram) (hop : m.opcode ≠ .error) :
    Quiet (sent.push datagram).toList := by
  intro d hd
  rw [Array.toList_push] at hd
  rcases List.mem_append.1 hd with hd | hd
  · exact h d hd
  · rw [List.mem_singleton.1 hd]
    exact not_readsError_of_packet hpacket hop

theorem Quiet.told {sent : Array Bytes} {result : Except Failure Summary} (h : Quiet sent.toList)
    (hlast : lastWord result = none) : Told result sent :=
  ⟨sent.toList, by simp [hlast], h⟩

theorem Quiet.told_push {sent : Array Bytes} {failure : Failure} {datagram : Bytes}
    (h : Quiet sent.toList) (hfarewell : failure.farewell = some datagram) :
    Told (.error failure) (sent.push datagram) :=
  ⟨sent.toList, by simp [lastWord, hfarewell], h⟩

theorem farewell_of_packet {failure : Failure} {m : Message} {datagram : Bytes}
    (hreply : failure.reply = some m) (hpacket : packet m = .ok datagram) :
    failure.farewell = some datagram := by
  unfold Failure.farewell packet?
  rw [hreply, Option.bind_some, hpacket]

/-- A side that has ended with a failure that has something to tell has told it, with the last
datagram it sent and no other ERROR; otherwise it has sent no ERROR.  What is left unsaid counts
as nothing to tell. -/
structure TellsUnless (unsaid : Failure → Prop) (result : Except Failure Summary)
    (sent : Array Bytes) : Prop where
  told : ∀ failure m, result = .error failure → failure.reply = some m → ¬ unsaid failure →
    ∃ (before : Array Bytes) (datagram : Bytes), packet m = .ok datagram ∧
      sent = before.push datagram ∧ Quiet before.toList
  quiet : (∀ failure, result = .error failure → failure.reply = none ∨ unsaid failure) →
    Quiet sent.toList

theorem Told.tellsUnless {unsaid : Failure → Prop} {result : Except Failure Summary}
    {sent : Array Bytes} (h : Told result sent)
    (speaks : ∀ failure, result = .error failure → failure.TellableUnless unsaid)
    (mute : ∀ failure, unsaid failure → failure.farewell = none) :
    TellsUnless unsaid result sent := by
  obtain ⟨before, hsent, hquiet⟩ := h
  constructor
  · rintro failure m rfl hreply hunsaid
    have htellable : failure.Tellable := (speaks failure rfl).resolve_right hunsaid
    obtain ⟨datagram, hpacket⟩ := htellable m hreply
    refine ⟨before.toArray, datagram, hpacket, ?_, by simpa using hquiet⟩
    rw [lastWord, farewell_of_packet hreply hpacket] at hsent
    exact Array.toList_inj.1 (by simpa using hsent)
  · intro hnothing
    have hlast : lastWord result = none := by
      cases result with
      | ok summary => rfl
      | error failure =>
        rcases hnothing failure rfl with hreply | hunsaid
        · simp [lastWord, Failure.farewell, hreply]
        · exact mute failure hunsaid
    rw [hsent, hlast]
    simpa using hquiet

end Transfer

end TftpUpload
