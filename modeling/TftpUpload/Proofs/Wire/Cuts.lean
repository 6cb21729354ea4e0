/-
  TftpUpload/Proofs/Wire/Cuts.lean
  ================================
  **What is left of a datagram that is cut.**

  A datagram is read as a message if it spells it (`decode_of_spells`), and only
  then.  Bytes behind a complete request, acknowledgement or error change nothing
  (`decode_append`), so a cut that keeps the form of the message keeps the
  message, and a cut inside the form leaves nothing that can be read: if it did,
  the whole would be read as the same and would be no longer.

  A payload is another matter, as nothing says how long it is.  Of a DATA packet
  that is cut behind its header a shorter one is left (`cut_is_refused`).  The
  receive buffer has one byte to spare for this reason: what it cuts off a
  datagram leaves a payload that is still too long, and it is refused as the
  whole would be (`buffer_keeps_meaning`).
-/
import TftpUpload.Proofs.Transfer.Farewell
import TftpUpload.Proofs.Wire.Grammar
import TftpUpload.Receiver.Reception

namespace TftpUpload.Wire

open Text Transfer

variable {d c more rest bytes body : Bytes} {m m' : Message}

/-! ### Bytes behind a message

Readers that have succeeded do so with more bytes behind, and leave these bytes with the rest.  Of
the payload alone this is not true, so DATA is left out. -/

theorem readWord_append {field : String} {w : UInt16} (h : readWord field bytes = .ok (w, rest))
    (more : Bytes) : readWord field (bytes ++ more) = .ok (w, rest ++ more) := by
  rw [eq_of_readWord h, List.append_assoc, readWord_wordBytes]

theorem readText_append {field text : String} (h : readText field bytes = .ok (text, rest))
    (more : Bytes) : readText field (bytes ++ more) = .ok (text, rest ++ more) := by
  obtain ⟨rfl, hclean⟩ := eq_of_readText h
  rw [List.append_assoc, List.cons_append, readText_form _ hclean]

theorem readRequestTexts_append {texts : String × String} (h : readRequestTexts bytes = .ok texts)
    (more : Bytes) : readRequestTexts (bytes ++ more) = .ok texts := by
  obtain ⟨⟨filename, rest⟩, hread, h⟩ := ok_of_bind h
  obtain ⟨⟨mode, rest'⟩, hread', h⟩ := ok_of_bind h
  cases h
  simp only [readRequestTexts, readText_append hread, readText_append hread', bind, Except.bind,
    pure, Except.pure]

theorem opcode_of_decodeBody {op : Opcode} (h : decodeBody op body = .ok m) : m.opcode = op := by
  cases op with
  | readRequest | writeRequest | ack =>
    obtain ⟨_, -, h⟩ := ok_of_bind h
    cases h
    rfl
  | data =>
    obtain ⟨_, -, h⟩ := ok_of_bind h
    dsimp only at h
    split at h
    · cases h
      rfl
    · cases h
  | error =>
    obtain ⟨_, -, h⟩ := ok_of_bind h
    obtain ⟨_, -, h⟩ := ok_of_bind h
    cases h
    rfl

/-- All but a payload ends where it ends. -/
theorem decodeBody_append {op : Opcode} (other : op ≠ .data) (h : decodeBody op body = .ok m)
    (more : Bytes) : decodeBody op (body ++ more) = .ok m := by
  cases op with
  | readRequest | writeRequest =>
    obtain ⟨texts, htexts, h⟩ := ok_of_bind h
    cases h
    simp only [decodeBody, readRequestTexts_append htexts, bind, Except.bind, pure, Except.pure]
  | data => exact absurd rfl other
  | ack =>
    obtain ⟨⟨block, rest⟩, hword, h⟩ := ok_of_bind h
    cases h
    simp only [decodeBody, readWord_append hword, bind, Except.bind, pure, Except.pure]
  | error =>
    obtain ⟨⟨code, rest⟩, hword, h⟩ := ok_of_bind h
    obtain ⟨⟨text, rest'⟩, htext, h⟩ := ok_of_bind h
    cases h
    simp only [decodeBody, readWord_append hword, readText_append htext, bind, Except.bind, pure,
      Except.pure]

theorem decode_append (h : decode d = .ok m) (other : m.opcode ≠ .data) (more : Bytes) :
    decode (d ++ more) = .ok m := by
  obtain ⟨op, body, rfl, hbody⟩ := eq_of_decode h
  have hop : m.opcode = op := opcode_of_decodeBody hbody
  rw [List.append_assoc, decode_opcode]
  exact decodeBody_append (hop ▸ other) hbody more

/-! ### Datagrams that are read -/

theorem headerSize_le_length_form (m : Message) : headerSize ≤ m.form.length := by
  cases m <;>
    simp only [form_readRequest, form_writeRequest, Message.form_data, Message.form_ack, form_error,
      List.length_append, List.length_cons, length_wordBytes, headerSize] <;>
    omega

theorem withKnownCode_take {n : Nat} (long : headerSize ≤ n) (d : Bytes) :
    withKnownCode (d.take n) = (withKnownCode d).take n := by
  obtain ⟨k, rfl⟩ : ∃ k, n = k + 4 := Nat.exists_eq_add_of_le' long
  rcases d with _ | ⟨high, _ | ⟨low, _ | ⟨codeHigh, _ | ⟨codeLow, rest⟩⟩⟩⟩
  case cons.cons.cons.cons =>
    simp only [List.take_succ_cons, withKnownCode]
    split <;> rfl
  all_goals rfl

/-- A code that nobody knows is read as zero is. -/
theorem decode_withKnownCode (d : Bytes) : decode (withKnownCode d) = decode d := by
  unfold withKnownCode
  split
  · rename_i high low codeHigh codeLow rest
    split
    · rename_i h
      obtain ⟨hop, hcode⟩ := h
      have hzero : ErrorCode.ofWord? (wordOf 0 0) = some .notDefined := rfl
      have hnone : ErrorCode.ofWord? (wordOf codeHigh codeLow) = none :=
        ErrorCode.ofWord?_eq_none_iff.2 hcode
      simp only [decode, hop, Opcode.ofWord?_word, decodeBody, readWord, bind, Except.bind, hzero,
        hnone, Option.getD_some, Option.getD_none]
    · rfl
  · rfl

theorem Spells.length_le (h : Spells d m) : m.form.length ≤ d.length := by
  obtain ⟨-, -, rest, hform, -⟩ := h
  rw [← length_withKnownCode d, hform, List.length_append]
  exact Nat.le_add_right _ _

theorem decode_of_spells (h : Spells d m) : decode d = .ok m := by
  obtain ⟨clean, fits, rest, hform, hwhole⟩ := h
  have hread : decode m.form = .ok m := decode_form clean fits
  rw [← decode_withKnownCode, hform]
  by_cases hdata : m.opcode = .data
  · rw [hwhole hdata, List.append_nil, hread]
  · exact decode_append hread hdata rest

/-! ### Cuts behind a message -/

theorem length_form_le_of_data (fits : m.Fits) (data : m.opcode = .data) :
    m.form.length ≤ maxPacketSize := by
  cases m with
  | data block payload =>
    have hpayload : payload.length ≤ blockSize := fits block payload rfl
    simp only [Message.form_data, List.length_append, length_wordBytes, maxPacketSize, headerSize]
    omega
  | _ => cases data

/-- A cut that leaves more bytes than any packet has leaves no message that was not there. -/
theorem decode_of_decode_take {limit : Nat} (spare : maxPacketSize < limit)
    (h : decode (d.take limit) = .ok m) : decode d = .ok m := by
  by_cases hlong : limit < d.length
  · have hspells := spells_of_decode h
    have hother : m.opcode ≠ .data := by
      -- a payload would be all that is left, and too long by the spare byte
      intro hdata
      obtain ⟨-, fits, rest, hform, hwhole⟩ := hspells
      have hlength : (d.take limit).length = m.form.length := by
        rw [← length_withKnownCode, hform, hwhole hdata, List.append_nil]
      have := length_form_le_of_data fits hdata
      rw [List.length_take] at hlength
      omega
    have hwhole := decode_append h hother (d.drop limit)
    rwa [List.take_append_drop] at hwhole
  · rwa [List.take_of_length_le (Nat.le_of_not_lt hlong)] at h

/-- A cut that leaves room for the form of a message leaves the message. -/
theorem decode_take_of_decode {limit : Nat} (room : m.form.length ≤ limit)
    (h : decode d = .ok m) : decode (d.take limit) = .ok m := by
  obtain ⟨clean, fits, rest, hform, hwhole⟩ := spells_of_decode h
  apply decode_of_spells
  refine ⟨clean, fits, rest.take (limit - m.form.length), ?_, fun hdata => ?_⟩
  · have hheader : headerSize ≤ limit := Nat.le_trans (headerSize_le_length_form m) room
    rw [withKnownCode_take hheader, hform, List.take_append, List.take_of_length_le room]
  · rw [hwhole hdata, List.take_nil]

/-- DATA that is longer than any packet is refused. -/
theorem decode_of_long (data : WordAt d 0 3) (long : maxPacketSize < d.length) :
    decode d = .error (oversizedPayload (d.length - headerSize)) := by
  rw [oversizedPayload_eq]
  exact decode_of_grammar (.dataLong data long)

theorem WordAt.take {i n limit : Nat} (h : WordAt d i n) (within : i + 2 ≤ limit) :
    WordAt (d.take limit) i n := by
  obtain ⟨high, low, hhigh, hlow, hn⟩ := h
  refine ⟨high, low, ?_, ?_, hn⟩
  · rwa [List.getElem?_take_of_lt (by omega)]
  · rwa [List.getElem?_take_of_lt (by omega)]

/-- A malformed datagram ends a reception: the peer is told, and the storage is left alone. -/
theorem arrive_of_malformed {e : DecodeError} (h : decode (d.take receiveLimit) = .error e)
    {σ κ : Type} (st : Storage σ κ) (r : Reception κ) (store : σ) :
    ∃ farewell, r.arrive st (.datagram d) store =
      ((.parting farewell (.decode e) r.session.filename, store), none) := by
  have hread : (Arrival.datagram d).read = .failure (.decode e) := by
    simp only [Arrival.read, h]
  obtain ⟨farewell, hpacket⟩ := Failure.tellable_of_read hread _ rfl
  refine ⟨farewell, ?_⟩
  have hfarewell : (Failure.decode e).farewell = some farewell := farewell_of_packet rfl hpacket
  simp only [Reception.arrive, hread, Reception.fail, hfarewell]

/-- The receive buffer makes no other message of a datagram.  What it keeps is read as a message
only if the whole is read as the same, and it keeps every message whose form it has room for.  DATA
that is longer than any packet stays too long for one: it ends a reception, with the storage as it
was. -/
theorem buffer_keeps_meaning (d : Bytes) :
    (∀ m, decode (d.take receiveLimit) = .ok m → decode d = .ok m) ∧
      (∀ m, decode d = .ok m → m.form.length ≤ receiveLimit →
        decode (d.take receiveLimit) = .ok m) ∧
      (WordAt d 0 3 → maxPacketSize < d.length →
        decode d = .error (oversizedPayload (d.length - headerSize)) ∧
        decode (d.take receiveLimit) = .error (oversizedPayload (blockSize + 1)) ∧
        ∀ {σ κ : Type} (st : Storage σ κ) (r : Reception κ) (store : σ),
          ∃ farewell, r.arrive st (.datagram d) store =
            ((.parting farewell (.decode (oversizedPayload (blockSize + 1))) r.session.filename,
              store), none)) := by
  refine ⟨fun m h => decode_of_decode_take (Nat.lt_succ_self _) h,
    fun m h room => decode_take_of_decode room h, fun data long => ?_⟩
  have hlength : (d.take receiveLimit).length = receiveLimit := by
    rw [List.length_take]
    simp only [receiveLimit]
    omega
  have hcut : decode (d.take receiveLimit) = .error (oversizedPayload (blockSize + 1)) := by
    have hrest : blockSize + 1 = (d.take receiveLimit).length - headerSize := by
      rw [hlength]
      rfl
    have hdata : WordAt (d.take receiveLimit) 0 3 := by
      apply data.take
      simp only [receiveLimit, maxPacketSize, headerSize]
      omega
    rw [hrest]
    apply decode_of_long hdata
    rw [hlength]
    exact Nat.lt_succ_self _
  exact ⟨decode_of_long data long, hcut, fun st r store => arrive_of_malformed hcut st r store⟩

/-- Options behind a request are cut off and nobody misses them; a payload of 600 bytes is cut to
513, which is one too many. -/
theorem spare_byte_shows :
    (decode (([0, 2, 97, 0, 111, 0] ++ (List.replicate 600 1 : Bytes)).take receiveLimit) =
        .ok (.writeRequest "a" "o") ∧
      decode ([0, 2, 97, 0, 111, 0] ++ (List.replicate 600 1 : Bytes)) =
        .ok (.writeRequest "a" "o")) ∧
    (WordAt ([0, 3, 0, 1] ++ (List.replicate 600 7 : Bytes)) 0 3 ∧
      decode (([0, 3, 0, 1] ++ (List.replicate 600 7 : Bytes)).take receiveLimit) =
        .error (oversizedPayload 513)) := by
  have hcut : decode (([0, 2, 97, 0, 111, 0] ++ (List.replicate 600 1 : Bytes)).take receiveLimit) =
      .ok (.writeRequest "a" "o") := rfl
  have hdata : WordAt ([0, 3, 0, 1] ++ (List.replicate 600 7 : Bytes)) 0 3 := ⟨0, 3, rfl, rfl, rfl⟩
  have hlong : maxPacketSize < ([0, 3, 0, 1] ++ (List.replicate 600 7 : Bytes)).length := by
    rw [List.length_append, List.length_replicate]
    decide
  refine ⟨⟨hcut, (buffer_keeps_meaning _).1 _ hcut⟩, hdata, ?_⟩
  exact ((buffer_keeps_meaning _).2.2 hdata hlong).2.1

/-! ### Cuts inside a message

The opcode is the first thing to go.  As soon as it is there, what remains would be read as a
message of the same kind, whose form is a prefix of the old one, and two such messages are the
same. -/

/-- The wire form of the message is `w`: this is what a buffer holds of it when it is written. -/
def Message.SentAs (m : Message) (w : Bytes) : Prop :=
  ∃ buffer buffer' n, encode m buffer = (buffer', .ok n) ∧ buffer'.take n = w

theorem sentAs_iff {w : Bytes} : m.SentAs w ↔ (∀ field ∈ m.fields, field.Clean) ∧ w = m.form := by
  constructor
  · rintro ⟨buffer, buffer', n, h, rfl⟩
    obtain ⟨-, -, hform, hclean⟩ := encode_ok h
    exact ⟨hclean, hform⟩
  · rintro ⟨hclean, rfl⟩
    obtain ⟨buffer', h⟩ := encode_of_clean hclean (Nat.le_refl m.form.length)
    exact ⟨m.form, buffer', _, h, (encode_ok h).2.2.1⟩

theorem wordBytes_inj {w w' : UInt16} (h : wordBytes w = wordBytes w') : w = w' := by
  have hread : readWord "" (wordBytes w ++ []) = readWord "" (wordBytes w' ++ []) := by rw [h]
  rw [readWord_wordBytes, readWord_wordBytes] at hread
  cases hread
  rfl

theorem Opcode.word_inj {op op' : Opcode} (h : op.word = op'.word) : op = op' := by
  have hread : ofWord? op.word = ofWord? op'.word := by rw [h]
  simpa using hread

theorem form_eq_opcode_append (m : Message) : ∃ rest, m.form = wordBytes m.opcode.word ++ rest :=
  ⟨_, rfl⟩

/-- Whatever is read of a cut form has the opcode of the whole. -/
theorem opcode_of_take {k : Nat} (h : decode (m.form.take k) = .ok m') : m'.opcode = m.opcode := by
  obtain ⟨op, body, hcut, hbody⟩ := eq_of_decode h
  obtain ⟨rest, hform⟩ := form_eq_opcode_append m
  have hwhole : wordBytes op.word ++ (body ++ m.form.drop k) = wordBytes m.opcode.word ++ rest := by
    rw [← List.append_assoc, ← hcut, List.take_append_drop, hform]
  rw [opcode_of_decodeBody hbody]
  exact Opcode.word_inj (wordBytes_inj (List.append_inj_left hwhole rfl))

/-- Nothing is read of a form that is cut, unless a payload is left. -/
theorem decode_cut (clean : ∀ field ∈ m.fields, field.Clean) (fits : m.Fits) {k : Nat}
    (cut : k < m.form.length) (other : m.opcode = .data → k < headerSize) :
    ∃ e, decode (m.form.take k) = .error e := by
  have hlength : (m.form.take k).length = k := by
    rw [List.length_take]
    omega
  cases h : decode (m.form.take k) with
  | error e => exact ⟨e, rfl⟩
  | ok m' =>
    exfalso
    have hleft := (spells_of_decode h).length_le
    rw [hlength] at hleft
    by_cases hdata : m.opcode = .data
    · have := headerSize_le_length_form m'
      have := other hdata
      omega
    · -- the rest of the form would change nothing, so what is left would be the whole
      have hother : m'.opcode ≠ .data := by rwa [opcode_of_take h]
      have hwhole := decode_append h hother (m.form.drop k)
      rw [List.take_append_drop, decode_form clean fits] at hwhole
      cases hwhole
      omega

theorem decode_cut_data {block : UInt16} {payload : Bytes} (fits : payload.length ≤ blockSize)
    {k : Nat} (header : headerSize ≤ k) :
    decode ((Message.data block payload).form.take k) =
      .ok (.data block (payload.take (k - headerSize))) := by
  have hheader : (wordBytes 3 ++ wordBytes block).length = headerSize := rfl
  have hform : (Message.data block payload).form.take k =
      (Message.data block (payload.take (k - headerSize))).form := by
    rw [Message.form_data, Message.form_data, List.take_append, hheader,
      List.take_of_length_le (hheader ▸ header)]
  rw [hform]
  apply decode_form
  · simp [Message.fields, Field.Clean]
  · rintro _ _ ⟨⟩
    rw [List.length_take]
    omega

/-- Of a message that is cut anywhere nothing is read, except that of DATA which keeps its header
the same block is read with as much of its payload as is left.  So among the forms of all requests,
acknowledgements and ERRORs none begins with another. -/
theorem cut_is_refused {m : Message} {w : Bytes} (sent : m.SentAs w) (fits : m.Fits) :
    (∀ k < w.length, (m.opcode = .data → k < headerSize) → ∃ e, decode (w.take k) = .error e) ∧
      (∀ block payload, m = .data block payload → ∀ k < w.length, headerSize ≤ k →
        decode (w.take k) = .ok (.data block (payload.take (k - headerSize)))) ∧
      (m.opcode ≠ .data → ∀ (m' : Message) (w' : Bytes), m'.SentAs w' → m'.opcode ≠ .data →
        w <+: w' → w = w') := by
  obtain ⟨clean, rfl⟩ := sentAs_iff.1 sent
  refine ⟨fun k cut other => decode_cut clean fits cut other, ?_, ?_⟩
  · rintro block payload rfl k - header
    exact decode_cut_data (fits block payload rfl) header
  · intro hdata m' w' sent' hdata' hbegins
    obtain ⟨clean', rfl⟩ := sentAs_iff.1 sent'
    by_contra hne
    have hcut : m.form.length < m'.form.length := by
      rcases Nat.lt_or_eq_of_le hbegins.length_le with hlt | heq
      · exact hlt
      · exact absurd (hbegins.eq_of_length heq) hne
    have hfits' : m'.Fits := fun _ _ hm' => absurd (congrArg Message.opcode hm') hdata'
    obtain ⟨e, herror⟩ := decode_cut clean' hfits' hcut fun h => absurd h hdata'
    rw [← List.prefix_iff_eq_take.1 hbegins, decode_form clean fits] at herror
    cases herror

/-- A request is cut inside a letter and before its last zero byte, and DATA inside its payload. -/
theorem cut_inside_a_letter :
    (Message.writeRequest "é" "o").SentAs [0, 2, 195, 169, 0, 111, 0] ∧
      (∃ e, decode [0, 2, 195] = .error e) ∧ (∃ e, decode [0, 2, 195, 169, 0, 111] = .error e) ∧
      (Message.data 1 [7, 8]).SentAs [0, 3, 0, 1, 7, 8] ∧
      decode [0, 3, 0, 1, 7] = .ok (.data 1 [7]) := by
  have hrequest : (Message.writeRequest "é" "o").SentAs [0, 2, 195, 169, 0, 111, 0] :=
    ⟨[9, 9, 9, 9, 9, 9, 9, 9], _, 7, rfl, rfl⟩
  have hdata : (Message.data 1 [7, 8]).SentAs [0, 3, 0, 1, 7, 8] :=
    ⟨[9, 9, 9, 9, 9, 9, 9, 9], _, 6, rfl, rfl⟩
  have hfits : (Message.data 1 [7, 8]).Fits := by
    rintro _ _ ⟨⟩
    decide
  obtain ⟨hrefused, -, -⟩ := cut_is_refused hrequest nofun
  obtain ⟨-, hshorter, -⟩ := cut_is_refused hdata hfits
  exact ⟨hrequest, hrefused 3 (by decide) nofun, hrefused 6 (by decide) nofun, hdata,
    hshorter 1 [7, 8] rfl 5 (by decide) (by decide)⟩

end TftpUpload.Wire
