/-
  TftpUpload/Proofs/Wire/RoundTrip.lean
  =====================================
  **A packet that is sent is the packet that is read.**

  Writing fields puts their forms one after the other (`putFields_ok`), so an
  encoded message is its wire form (`encode_ok`), and reading a wire form gives
  the message back (`decode_form`).  A packet is never longer than the receive
  buffer, so the buffer loses nothing of it (`read_packet`).  Nothing but a zero
  byte in a text or a lack of room keeps a message from being written
  (`encode_of_clean`).
-/
import TftpUpload.Transfer.Basic

namespace TftpUpload.Wire

open Transfer

/-! ### Writing

A writer that has put some fields is compared with the writer it came of: what it holds is the same
up to the old offset, and their forms behind it.  Such steps compose, so it is enough to look at a
single field. -/

def Field.Clean : Field → Prop
  | .octets _ => True
  | .text _ content => 0 ∉ Text.Utf8.encode content

namespace Writer

theorem put_ok {w w' : Writer} {piece : Bytes} (h : w.put piece = .ok w') :
    w'.used = w.used + piece.length ∧ w.used + piece.length ≤ w.buffer.length := by
  simp only [put] at h
  split at h
  · rename_i hfits
    cases h
    exact ⟨rfl, hfits⟩
  · cases h

structure Extends (w w' : Writer) (form : Bytes) : Prop where
  capacity : w'.buffer.length = w.buffer.length
  used : w'.used = w.used + form.length
  fits : w'.used ≤ w'.buffer.length
  written : w'.buffer.take w'.used = w.buffer.take w.used ++ form

theorem Extends.refl {w : Writer} (hused : w.used ≤ w.buffer.length) : w.Extends w [] :=
  ⟨rfl, rfl, hused, by simp⟩

theorem Extends.trans {w w' w'' : Writer} {form form' : Bytes} (h : w.Extends w' form)
    (h' : w'.Extends w'' form') : w.Extends w'' (form ++ form') where
  capacity := h'.capacity.trans h.capacity
  used := by rw [h'.used, h.used, List.length_append, Nat.add_assoc]
  fits := h'.fits
  written := by rw [h'.written, h.written, List.append_assoc]

theorem extends_of_put {w w' : Writer} {piece : Bytes} (hused : w.used ≤ w.buffer.length)
    (h : w.put piece = .ok w') : w.Extends w' piece := by
  obtain ⟨hlen, hfits⟩ := put_ok h
  have hcap := length_put hused h
  exact ⟨hcap, hlen, by omega, take_put hused h⟩

theorem putField_ok {w w' : Writer} {field : Field} (hused : w.used ≤ w.buffer.length)
    (h : w.putField field = (w', .ok ())) : w.Extends w' field.form ∧ field.Clean := by
  cases field with
  | octets bytes =>
    simp only [putField] at h
    split at h
    · rename_i w₁ hput
      cases h
      exact ⟨extends_of_put hused hput, trivial⟩
    · cases h
  | text name content =>
    simp only [putField] at h
    split at h
    · cases h
    · rename_i hzero
      split at h
      · cases h
      · rename_i w₁ hput
        split at h
        · rename_i w₂ hput'
          cases h
          have hext := extends_of_put hused hput
          exact ⟨hext.trans (extends_of_put hext.fits hput'), hzero⟩
        · cases h

theorem putFields_ok {w w' : Writer} {fields : List Field} (hused : w.used ≤ w.buffer.length)
    (h : w.putFields fields = (w', .ok ())) :
    w.Extends w' (fields.map Field.form).flatten ∧ ∀ field ∈ fields, field.Clean := by
  induction fields generalizing w with
  | nil =>
    cases h
    exact ⟨Extends.refl hused, by simp⟩
  | cons field rest ih =>
    simp only [putFields] at h
    split at h
    · rename_i w₁ hfield
      obtain ⟨hext, hclean⟩ := putField_ok hused hfield
      obtain ⟨hrest, hcleans⟩ := ih hext.fits h
      refine ⟨hext.trans hrest, ?_⟩
      intro f hf
      rcases List.mem_cons.1 hf with rfl | hf
      · exact hclean
      · exact hcleans f hf
    · cases h

end Writer

/-- An encoded message is its wire form, at the front of the buffer. -/
theorem encode_ok {m : Message} {buffer buffer' : Bytes} {length : Nat}
    (h : encode m buffer = (buffer', .ok length)) :
    buffer'.length = buffer.length ∧ length ≤ buffer.length ∧ buffer'.take length = m.form ∧
      ∀ field ∈ m.fields, field.Clean := by
  unfold encode at h
  split at h
  · rename_i w hput
    cases h
    obtain ⟨hext, hclean⟩ := Writer.putFields_ok (Nat.zero_le _) hput
    have hfits := hext.fits
    rw [hext.capacity] at hfits
    exact ⟨hext.capacity, hfits, by simpa [Message.form] using hext.written, hclean⟩
  · cases h

theorem packet_ok {m : Message} {datagram : Bytes} (h : packet m = .ok datagram) :
    datagram = m.form ∧ m.form.length ≤ maxPacketSize ∧ ∀ field ∈ m.fields, field.Clean := by
  unfold packet at h
  split at h
  · rename_i buffer length hencode
    cases h
    obtain ⟨hlen, hle, hform, hclean⟩ := encode_ok hencode
    refine ⟨hform, ?_, hclean⟩
    rw [← hform, List.length_take]
    simp only [List.length_replicate] at hle
    omega
  · cases h

/-! ### Reading

A form is read field by field, each of which leaves the form of what follows it. -/

@[simp]
theorem readWord_wordBytes (field : String) (w : UInt16) (rest : Bytes) :
    readWord field (wordBytes w ++ rest) = .ok (w, rest) := by
  simp only [wordBytes, List.cons_append, List.nil_append, readWord, wordOf_wordBytes]

theorem readText_form {field content : String} (rest : Bytes)
    (hclean : 0 ∉ Text.Utf8.encode content) :
    readText field (Text.Utf8.encode content ++ 0 :: rest) = .ok (content, rest) := by
  simp only [readText, cutAtZero?_append _ _ hclean, Text.Utf8.decode?_encode]

theorem readRequestTexts_form {filename mode : String}
    (hfilename : 0 ∉ Text.Utf8.encode filename) (hmode : 0 ∉ Text.Utf8.encode mode) :
    readRequestTexts (Text.Utf8.encode filename ++ 0 :: (Text.Utf8.encode mode ++ [0])) =
      .ok (filename, mode) := by
  simp only [readRequestTexts, readText_form _ hfilename, bind, Except.bind]
  simp only [readText_form _ hmode, pure, Except.pure]

theorem decode_opcode (op : Opcode) (body : Bytes) :
    decode (wordBytes op.word ++ body) = decodeBody op body := by
  simp only [wordBytes, List.cons_append, List.nil_append, decode, wordOf_wordBytes,
    Opcode.ofWord?_word]

/-- The message carries no more than a full block. -/
def Message.Fits (m : Message) : Prop := ∀ block payload, m = .data block payload →
  payload.length ≤ blockSize

/-- Reading a wire form gives the message back. -/
theorem decode_form {m : Message} (hclean : ∀ field ∈ m.fields, field.Clean) (hfits : m.Fits) :
    decode m.form = .ok m := by
  cases m with
  | readRequest filename mode =>
    simp only [Message.fields, List.forall_mem_cons, Field.Clean] at hclean
    obtain ⟨-, hfilename, hmode, -⟩ := hclean
    simp only [Message.form, Message.fields, List.map_cons, List.map_nil, List.flatten_cons,
      List.flatten_nil, Field.form, Message.opcode, decode_opcode, decodeBody, List.append_assoc,
      List.append_nil, List.cons_append, List.nil_append,
      readRequestTexts_form hfilename hmode, bind, Except.bind, pure, Except.pure]
  | writeRequest filename mode =>
    simp only [Message.fields, List.forall_mem_cons, Field.Clean] at hclean
    obtain ⟨-, hfilename, hmode, -⟩ := hclean
    simp only [Message.form, Message.fields, List.map_cons, List.map_nil, List.flatten_cons,
      List.flatten_nil, Field.form, Message.opcode, decode_opcode, decodeBody, List.append_assoc,
      List.append_nil, List.cons_append, List.nil_append,
      readRequestTexts_form hfilename hmode, bind, Except.bind, pure, Except.pure]
  | data block payload =>
    have hpayload : payload.length ≤ blockSize := hfits block payload rfl
    rw [Message.form_data, List.append_assoc]
    simp only [show (3 : UInt16) = Opcode.data.word from rfl, decode_opcode, decodeBody,
      readWord_wordBytes, bind, Except.bind, pure, Except.pure, if_pos hpayload]
  | ack block =>
    rw [Message.form_ack, ← List.append_nil (wordBytes block)]
    simp only [show (4 : UInt16) = Opcode.ack.word from rfl, decode_opcode, decodeBody,
      readWord_wordBytes, bind, Except.bind, pure, Except.pure]
  | error code text =>
    simp only [Message.fields, List.forall_mem_cons, Field.Clean] at hclean
    obtain ⟨-, -, htext, -⟩ := hclean
    simp only [Message.form, Message.fields, List.map_cons, List.map_nil, List.flatten_cons,
      List.flatten_nil, Field.form, Message.opcode, decode_opcode, decodeBody, List.append_nil,
      readWord_wordBytes, bind, Except.bind, pure, Except.pure, readText_form _ htext,
      ErrorCode.ofWord?_word, Option.getD_some]

theorem fits_of_packet {m : Message} {datagram : Bytes} (h : packet m = .ok datagram) :
    m.Fits := by
  rintro block payload rfl
  obtain ⟨-, hlen, -⟩ := packet_ok h
  simp only [Message.form_data, List.length_append, length_wordBytes, maxPacketSize,
    headerSize] at hlen
  omega

theorem decode_packet {m : Message} {datagram : Bytes} (h : packet m = .ok datagram) :
    decode datagram = .ok m := by
  obtain ⟨rfl, -, hclean⟩ := packet_ok h
  exact decode_form hclean (fits_of_packet h)

/-- The receive buffer holds the whole of a packet. -/
theorem read_packet {m : Message} {datagram : Bytes} (h : packet m = .ok datagram) :
    (Arrival.datagram datagram).read = .message m := by
  obtain ⟨hform, hlen, -⟩ := packet_ok h
  have hbuffer : datagram.length ≤ receiveLimit := by
    rw [hform]
    simp only [receiveLimit]
    omega
  simp only [Arrival.read, List.take_of_length_le hbuffer, decode_packet h]

/-! ### Packets that can be written

Of the two ways in which writing fails one is ruled out by the content of the texts, and the other
by the length of the form. -/

namespace Writer

theorem put_of_fits {w : Writer} {piece : Bytes} (hfits : w.used + piece.length ≤ w.buffer.length) :
    ∃ w', w.put piece = .ok w' :=
  ⟨_, if_pos hfits⟩

theorem putField_of_clean {w : Writer} {field : Field} (hclean : field.Clean)
    (hfits : w.used + field.form.length ≤ w.buffer.length) :
    ∃ w', w.putField field = (w', .ok ()) := by
  cases field with
  | octets bytes =>
    obtain ⟨w', hput⟩ := put_of_fits (w := w) (show w.used + bytes.length ≤ _ from hfits)
    exact ⟨w', by simp only [putField, hput]⟩
  | text name content =>
    simp only [Field.form, List.length_append, List.length_singleton] at hfits
    obtain ⟨w₁, hput⟩ := put_of_fits (show w.used + (Text.Utf8.encode content).length ≤ _ by omega)
    obtain ⟨hused, -⟩ := put_ok hput
    have hroom : w₁.used + [(0 : UInt8)].length ≤ w₁.buffer.length := by
      rw [length_put (by omega) hput, hused, List.length_singleton]
      omega
    obtain ⟨w₂, hput'⟩ := put_of_fits hroom
    have hzero : 0 ∉ Text.Utf8.encode content := hclean
    exact ⟨w₂, by simp only [putField, if_neg hzero, hput, hput']⟩

theorem putFields_of_clean {w : Writer} {fields : List Field}
    (hclean : ∀ field ∈ fields, field.Clean)
    (hfits : w.used + (fields.map Field.form).flatten.length ≤ w.buffer.length) :
    ∃ w', w.putFields fields = (w', .ok ()) := by
  induction fields generalizing w with
  | nil => exact ⟨w, rfl⟩
  | cons field rest ih =>
    simp only [List.map_cons, List.flatten_cons, List.length_append] at hfits
    obtain ⟨w₁, hfield⟩ := putField_of_clean (hclean field (by simp)) (w := w) (by omega)
    obtain ⟨hext, -⟩ := putField_ok (by omega) hfield
    have hroom : w₁.used + (rest.map Field.form).flatten.length ≤ w₁.buffer.length := by
      rw [hext.capacity, hext.used]
      omega
    obtain ⟨w₂, hrest⟩ := ih (fun f hf => hclean f (by simp [hf])) hroom
    exact ⟨w₂, by simp only [putFields, hfield, hrest]⟩

end Writer

/-- A message can be written into any buffer that holds its form, if its texts are clean. -/
theorem encode_of_clean {m : Message} (hclean : ∀ field ∈ m.fields, field.Clean) {buffer : Bytes}
    (hroom : m.form.length ≤ buffer.length) :
    ∃ buffer', encode m buffer = (buffer', .ok m.form.length) := by
  have hfits : (⟨buffer, 0⟩ : Writer).used + (m.fields.map Field.form).flatten.length ≤
      (⟨buffer, 0⟩ : Writer).buffer.length := by
    simpa only [Nat.zero_add, Message.form] using hroom
  obtain ⟨w, hput⟩ := Writer.putFields_of_clean hclean hfits
  obtain ⟨hext, -⟩ := Writer.putFields_ok (Nat.zero_le _) hput
  have hused : w.used = m.form.length := by rw [hext.used, Nat.zero_add, Message.form]
  refine ⟨w.buffer, ?_⟩
  unfold encode
  rw [hput, ← hused]

/-- A message has a packet if its texts are clean and its form is no longer than any packet. -/
theorem packet_of_clean {m : Message} (hclean : ∀ field ∈ m.fields, field.Clean)
    (hlen : m.form.length ≤ maxPacketSize) : ∃ datagram, packet m = .ok datagram := by
  have hroom : m.form.length ≤ (List.replicate maxPacketSize (0 : UInt8)).length := by
    rwa [List.length_replicate]
  obtain ⟨buffer', hencode⟩ := encode_of_clean hclean hroom
  refine ⟨buffer'.take m.form.length, ?_⟩
  unfold packet
  rw [hencode]

theorem packet_ack (block : UInt16) : ∃ datagram, packet (.ack block) = .ok datagram := by
  apply packet_of_clean
  · simp [Message.fields, Field.Clean]
  · rw [Message.form_ack]
    simp [maxPacketSize, headerSize, blockSize]

theorem packet_data (block : UInt16) {payload : Bytes} (h : payload.length ≤ blockSize) :
    ∃ datagram, packet (.data block payload) = .ok datagram := by
  apply packet_of_clean
  · simp [Message.fields, Field.Clean]
  · rw [Message.form_data]
    simp only [List.length_append, length_wordBytes, maxPacketSize, headerSize]
    omega

/-! ### Farewells -/

def IsError (datagram : Bytes) : Prop := ∃ code text, packet (.error code text) = .ok datagram

theorem isError_of_farewell {failure : Failure} {datagram : Bytes}
    (h : failure.farewell = some datagram) : IsError datagram := by
  obtain ⟨m, hreply, hpacket⟩ := Option.bind_eq_some_iff.1 h
  have hop := Failure.opcode_of_reply hreply
  unfold packet? at hpacket
  split at hpacket
  · rename_i d hd
    cases hpacket
    cases m with
    | error code text => exact ⟨code, text, hd⟩
    | _ => cases hop
  · cases hpacket

end TftpUpload.Wire
