/-
  TftpUpload/Proofs/Wire/Canonical.lean
  =====================================
  **A message has one wire form, and a datagram that is read begins with it.**

  What a buffer holds after a message is written into it is read as that message
  (`written_is_read`).  Conversely a datagram that is read begins with the form
  of its message (`spells_of_decode`).  Reading forgets three things only: what
  follows a complete request, acknowledgement or error, and the number of an
  error code that is none of the eight (`withKnownCode`).  So writing what was
  read gives the datagram back up to these, and the form of a message tells
  which datagrams are read as it (`read_is_written`).
-/
import TftpUpload.Proofs.Wire.RoundTrip

namespace TftpUpload.Wire

open Text Transfer

/-! ### Writing, then reading -/

/-- A message that carries no more than a full block is read back from any buffer that it has
been written into, and it can be written where there is room, unless a text holds a zero byte. -/
theorem written_is_read (m : Message) (fits : m.Fits) (buffer : Bytes) :
    (∀ buffer' n, encode m buffer = (buffer', .ok n) →
        buffer'.length = buffer.length ∧ n ≤ buffer.length ∧ decode (buffer'.take n) = .ok m) ∧
      ((∀ field ∈ m.fields, field.Clean) → m.form.length ≤ buffer.length →
        ∃ buffer' n, encode m buffer = (buffer', .ok n)) := by
  refine ⟨fun buffer' n h => ?_, fun clean room => ?_⟩
  · obtain ⟨hcapacity, hlength, hform, hclean⟩ := encode_ok h
    refine ⟨hcapacity, hlength, ?_⟩
    rw [hform]
    exact decode_form hclean fits
  · obtain ⟨buffer', h⟩ := encode_of_clean clean room
    exact ⟨buffer', _, h⟩

/-- A text that is not ASCII is read back, whatever the buffer held before. -/
theorem accent_is_read : (Message.error .diskFull "é!").Fits ∧
    encode (.error .diskFull "é!") [9, 9, 9, 9, 9, 9, 9, 9, 9, 9] =
      ([0, 5, 0, 3, 195, 169, 33, 0, 9, 9], .ok 8) ∧
    8 ≤ [9, 9, 9, 9, 9, 9, 9, 9, 9, 9].length ∧
    decode [0, 5, 0, 3, 195, 169, 33, 0] = .ok (.error .diskFull "é!") := by
  have hfits : (Message.error .diskFull "é!").Fits := nofun
  have hwritten : encode (.error .diskFull "é!") [9, 9, 9, 9, 9, 9, 9, 9, 9, 9] =
      ([0, 5, 0, 3, 195, 169, 33, 0, 9, 9], .ok 8) := rfl
  obtain ⟨-, hlength, hread⟩ := (written_is_read _ hfits _).1 _ _ hwritten
  exact ⟨hfits, hwritten, hlength, hread⟩

/-! ### Codes that nobody knows -/

def withKnownCode : Bytes → Bytes
  | high :: low :: codeHigh :: codeLow :: rest =>
    if wordOf high low = Opcode.error.word ∧ 7 < (wordOf codeHigh codeLow).toNat then
      high :: low :: 0 :: 0 :: rest
    else high :: low :: codeHigh :: codeLow :: rest
  | short => short

theorem length_withKnownCode (d : Bytes) : (withKnownCode d).length = d.length := by
  unfold withKnownCode
  split
  · split <;> rfl
  · rfl

theorem word_of_unknown {w : UInt16} (h : 7 < w.toNat) :
    ((ErrorCode.ofWord? w).getD .notDefined).word = 0 := by
  rw [ErrorCode.ofWord?_eq_none_iff.2 h]
  rfl

theorem word_of_known {w : UInt16} (h : ¬ 7 < w.toNat) :
    ((ErrorCode.ofWord? w).getD .notDefined).word = w := by
  cases hcode : ErrorCode.ofWord? w with
  | some code => rw [Option.getD_some, ErrorCode.word_of_ofWord? hcode]
  | none => exact absurd (ErrorCode.ofWord?_eq_none_iff.1 hcode) h

/-- The code is put to the one that is read. -/
theorem withKnownCode_error (code : UInt16) (rest : Bytes) :
    withKnownCode (wordBytes Opcode.error.word ++ (wordBytes code ++ rest)) =
      wordBytes Opcode.error.word ++
        (wordBytes ((ErrorCode.ofWord? code).getD .notDefined).word ++ rest) := by
  by_cases h : 7 < code.toNat
  · rw [word_of_unknown h]
    simp only [wordBytes, List.cons_append, List.nil_append, withKnownCode, wordOf_wordBytes, h,
      and_self, if_true]
    rfl
  · rw [word_of_known h]
    simp only [wordBytes, List.cons_append, List.nil_append, withKnownCode, wordOf_wordBytes, h,
      and_false, if_false]

theorem withKnownCode_of_ne {op : Opcode} (h : op ≠ .error) (body : Bytes) :
    withKnownCode (wordBytes op.word ++ body) = wordBytes op.word ++ body := by
  have hword : op.word ≠ Opcode.error.word := by
    cases op <;> first | decide | exact absurd rfl h
  rcases body with _ | ⟨b, _ | ⟨b', rest⟩⟩
  · rfl
  · rfl
  · simp only [wordBytes, List.cons_append, List.nil_append, withKnownCode, wordOf_wordBytes, hword,
      false_and, if_false]

/-! ### What is read begins with a form

Each reader is inverted: if it has read something, what it was given is the form of that and then
the rest.  Nothing is assumed of the datagram but that it was read. -/

theorem form_readRequest (filename mode : String) : (Message.readRequest filename mode).form =
    wordBytes Opcode.readRequest.word ++
      (Utf8.encode filename ++ 0 :: (Utf8.encode mode ++ [0])) := by
  simp [Message.form, Message.fields, Field.form, Message.opcode]

theorem form_writeRequest (filename mode : String) : (Message.writeRequest filename mode).form =
    wordBytes Opcode.writeRequest.word ++
      (Utf8.encode filename ++ 0 :: (Utf8.encode mode ++ [0])) := by
  simp [Message.form, Message.fields, Field.form, Message.opcode]

theorem form_error (code : ErrorCode) (text : String) : (Message.error code text).form =
    wordBytes Opcode.error.word ++ (wordBytes code.word ++ (Utf8.encode text ++ [0])) := by
  simp [Message.form, Message.fields, Field.form, Message.opcode]

theorem ok_of_bind {α β : Type} {x : Except DecodeError α} {f : α → Except DecodeError β} {b : β}
    (h : x >>= f = .ok b) : ∃ a, x = .ok a ∧ f a = .ok b := by
  cases x with
  | error e => cases h
  | ok a => exact ⟨a, rfl, h⟩

theorem eq_of_readWord {field : String} {bytes rest : Bytes} {w : UInt16}
    (h : readWord field bytes = .ok (w, rest)) : bytes = wordBytes w ++ rest := by
  unfold readWord at h
  split at h
  · cases h
    rw [wordBytes_wordOf]
    rfl
  · cases h

theorem eq_of_readText {field text : String} {bytes rest : Bytes}
    (h : readText field bytes = .ok (text, rest)) :
    bytes = Utf8.encode text ++ 0 :: rest ∧ 0 ∉ Utf8.encode text := by
  unfold readText at h
  split at h
  · cases h
  · rename_i content after hcut
    split at h
    · rename_i text' hdecode
      cases h
      rw [← Utf8.eq_encode_of_decode? hdecode]
      exact eq_append_of_cutAtZero? hcut
    · cases h

theorem eq_of_readRequestTexts {filename mode : String} {bytes : Bytes}
    (h : readRequestTexts bytes = .ok (filename, mode)) :
    (0 ∉ Utf8.encode filename ∧ 0 ∉ Utf8.encode mode) ∧
      ∃ rest, bytes = Utf8.encode filename ++ 0 :: (Utf8.encode mode ++ 0 :: rest) := by
  obtain ⟨⟨filename', rest⟩, hread, h⟩ := ok_of_bind h
  obtain ⟨⟨mode', rest'⟩, hread', h⟩ := ok_of_bind h
  cases h
  obtain ⟨rfl, hfilename⟩ := eq_of_readText hread
  obtain ⟨rfl, hmode⟩ := eq_of_readText hread'
  exact ⟨⟨hfilename, hmode⟩, rest', rfl⟩

theorem eq_of_decode {d : Bytes} {m : Message} (h : decode d = .ok m) :
    ∃ op body, d = wordBytes op.word ++ body ∧ decodeBody op body = .ok m := by
  unfold decode at h
  split at h
  · rename_i high low body
    split at h
    · rename_i op hop
      refine ⟨op, body, ?_, h⟩
      rw [Opcode.word_of_ofWord? hop, wordBytes_wordOf]
      rfl
    · cases h
  · cases h

/-- The datagram begins with the form of the message, up to a code that nobody knows, and a
payload is all that is left of it. -/
structure Spells (d : Bytes) (m : Message) : Prop where
  clean : ∀ field ∈ m.fields, field.Clean
  fits : m.Fits
  form : ∃ rest, withKnownCode d = m.form ++ rest ∧ (m.opcode = .data → rest = [])

/-- What follows the form of a message without payload is not read. -/
theorem spells_of_form {d : Bytes} {m : Message} (rest : Bytes)
    (clean : ∀ field ∈ m.fields, field.Clean) (other : m.opcode ≠ .data)
    (form : withKnownCode d = m.form ++ rest) : Spells d m where
  clean := clean
  fits _ _ hm := absurd (congrArg Message.opcode hm) other
  form := ⟨rest, form, fun hdata => absurd hdata other⟩

/-- What is read is spelled out. -/
theorem spells_of_decode {d : Bytes} {m : Message} (h : decode d = .ok m) : Spells d m := by
  obtain ⟨op, body, rfl, h⟩ := eq_of_decode h
  cases op with
  | readRequest =>
    obtain ⟨⟨filename, mode⟩, htexts, h⟩ := ok_of_bind h
    cases h
    obtain ⟨⟨hfilename, hmode⟩, rest, rfl⟩ := eq_of_readRequestTexts htexts
    refine spells_of_form rest ?_ (by simp [Message.opcode]) ?_
    · simp [Message.fields, Field.Clean, hfilename, hmode]
    · rw [withKnownCode_of_ne (by decide), form_readRequest]
      simp
  | writeRequest =>
    obtain ⟨⟨filename, mode⟩, htexts, h⟩ := ok_of_bind h
    cases h
    obtain ⟨⟨hfilename, hmode⟩, rest, rfl⟩ := eq_of_readRequestTexts htexts
    refine spells_of_form rest ?_ (by simp [Message.opcode]) ?_
    · simp [Message.fields, Field.Clean, hfilename, hmode]
    · rw [withKnownCode_of_ne (by decide), form_writeRequest]
      simp
  | data =>
    obtain ⟨⟨block, payload⟩, hword, h⟩ := ok_of_bind h
    dsimp only at h
    split at h
    · rename_i hfits
      cases h
      obtain rfl := eq_of_readWord hword
      refine ⟨by simp [Message.fields, Field.Clean], ?_, [], ?_, fun _ => rfl⟩
      · rintro block' payload' ⟨⟩
        exact hfits
      · rw [withKnownCode_of_ne (by decide), Message.form_data, List.append_nil, List.append_assoc]
        rfl
    · cases h
  | ack =>
    obtain ⟨⟨block, rest⟩, hword, h⟩ := ok_of_bind h
    cases h
    obtain rfl := eq_of_readWord hword
    refine spells_of_form rest ?_ (by simp [Message.opcode]) ?_
    · simp [Message.fields, Field.Clean]
    · rw [withKnownCode_of_ne (by decide), Message.form_ack, List.append_assoc]
      rfl
  | error =>
    obtain ⟨⟨code, body⟩, hword, h⟩ := ok_of_bind h
    obtain ⟨⟨text, rest⟩, hread, h⟩ := ok_of_bind h
    cases h
    obtain rfl := eq_of_readWord hword
    obtain ⟨rfl, htext⟩ := eq_of_readText hread
    refine spells_of_form rest ?_ (by simp [Message.opcode]) ?_
    · simp [Message.fields, Field.Clean, htext]
    · rw [withKnownCode_error, form_error]
      simp

/-- What is read carries no more than a full block. -/
theorem fits_of_decode {d : Bytes} {m : Message} (h : decode d = .ok m) : m.Fits :=
  (spells_of_decode h).fits

theorem fits_of_read {a : Arrival} {m : Message} (h : a.read = .message m) : m.Fits := by
  cases a with
  | datagram bytes =>
    simp only [Arrival.read] at h
    split at h
    · rename_i heq
      cases h
      exact fits_of_decode heq
    · cases h
  | silence => cases h
  | broken fault => cases h
  | stopped => cases h

/-! ### Reading, then writing

A message is determined by its form, since its form is read as the message. -/

/-- No two messages that are read have one form. -/
theorem eq_of_form_eq {d d' : Bytes} {m m' : Message} (h : Spells d m) (h' : Spells d' m')
    (form : m.form = m'.form) : m = m' := by
  have hread : decode m.form = .ok m := decode_form h.clean h.fits
  rw [form, decode_form h'.clean h'.fits] at hread
  cases hread
  rfl

/-- A message that was read can be written wherever there is room for its datagram.  This gives
the datagram back as far as it was read, with zero for a code that nobody knows, and it is read as
the same message.  Of two messages that were read, the written forms coincide exactly if the
messages do. -/
theorem read_is_written {d : Bytes} {m : Message} (h : decode d = .ok m) :
    (∀ buffer : Bytes, d.length ≤ buffer.length →
      ∃ buffer' n, encode m buffer = (buffer', .ok n) ∧ n ≤ d.length ∧
        buffer'.take n = (withKnownCode d).take n ∧ (m.opcode = .data → n = d.length) ∧
        decode (buffer'.take n) = .ok m) ∧
      ∀ d' m', decode d' = .ok m' → ∀ buffer written n buffer' written' n',
        encode m buffer = (written, .ok n) → encode m' buffer' = (written', .ok n') →
        (m = m' ↔ written.take n = written'.take n') := by
  have hspells : Spells d m := spells_of_decode h
  refine ⟨fun buffer room => ?_, ?_⟩
  · obtain ⟨clean, fits, rest, hd, hwhole⟩ := hspells
    have hlength : d.length = m.form.length + rest.length := by
      rw [← length_withKnownCode, hd, List.length_append]
    have hroom : m.form.length ≤ buffer.length := by omega
    obtain ⟨buffer', hencode⟩ := encode_of_clean clean hroom
    obtain ⟨-, -, hform, -⟩ := encode_ok hencode
    refine ⟨buffer', m.form.length, hencode, by omega, ?_, fun hdata => ?_, ?_⟩
    · rw [hform, hd, List.take_left]
    · rw [hlength, hwhole hdata, List.length_nil, Nat.add_zero]
    · rw [hform]
      exact decode_form clean fits
  · intro d' m' h' buffer written n buffer' written' n' hencode hencode'
    rw [(encode_ok hencode).2.2.1, (encode_ok hencode').2.2.1]
    exact ⟨fun heq => by rw [heq], eq_of_form_eq hspells (spells_of_decode h')⟩

/-- Of an ERROR with an unknown code and bytes behind it, the code and the bytes are lost. -/
theorem unknown_code_is_written_as_zero :
    decode [0, 5, 0, 99, 110, 0, 1, 2] = .ok (.error .notDefined "n") ∧
      (∃ buffer' n, encode (.error .notDefined "n") [9, 9, 9, 9, 9, 9, 9, 9] = (buffer', .ok n) ∧
        n ≤ 8 ∧ buffer'.take n = [0, 5, 0, 0, 110, 0, 1, 2].take n ∧
        decode (buffer'.take n) = .ok (.error .notDefined "n")) := by
  have hread : decode [0, 5, 0, 99, 110, 0, 1, 2] = .ok (.error .notDefined "n") := rfl
  obtain ⟨buffer', n, hencode, hlength, hbytes, -, hagain⟩ :=
    (read_is_written hread).1 [9, 9, 9, 9, 9, 9, 9, 9] (by decide)
  exact ⟨hread, buffer', n, hencode, hlength, hbytes, hagain⟩

end TftpUpload.Wire
