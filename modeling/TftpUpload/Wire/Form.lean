/-
  TftpUpload/Wire/Form.lean
  =========================
  **The wire form of a message.**

  A packet is the concatenation of its fields: the opcode first, then words in
  big-endian order, texts closed by a zero byte, and for DATA whatever payload
  follows.  Nothing says how long a payload is; it is what is left of the
  datagram.  `word_wordBytes` reads back a word that was written.
-/
import TftpUpload.Wire.Message

namespace TftpUpload.Wire

/-! ### Words -/

/-- The two bytes of a word, the more significant one first. -/
def wordBytes (w : UInt16) : Bytes :=
  [UInt8.ofNat (w.toNat / 256), UInt8.ofNat (w.toNat % 256)]

/-- The word that two bytes spell. -/
def wordOf (high low : UInt8) : UInt16 :=
  UInt16.ofNat (high.toNat * 256 + low.toNat)

theorem wordOf_toNat (high low : UInt8) :
    (wordOf high low).toNat = high.toNat * 256 + low.toNat := by
  have hh := high.toNat_lt
  have hl := low.toNat_lt
  simp only [wordOf, UInt16.toNat_ofNat']
  omega

@[simp]
theorem length_wordBytes (w : UInt16) : (wordBytes w).length = 2 := rfl

theorem wordOf_wordBytes (w : UInt16) :
    wordOf (UInt8.ofNat (w.toNat / 256)) (UInt8.ofNat (w.toNat % 256)) = w := by
  have hw := w.toNat_lt
  apply UInt16.toNat_inj.1
  rw [wordOf_toNat]
  simp only [UInt8.toNat_ofNat']
  omega

theorem wordBytes_wordOf (high low : UInt8) : wordBytes (wordOf high low) = [high, low] := by
  have hh := high.toNat_lt
  have hl := low.toNat_lt
  have hhigh : UInt8.ofNat ((high.toNat * 256 + low.toNat) / 256) = high := by
    apply UInt8.toNat_inj.1
    simp only [UInt8.toNat_ofNat']
    omega
  have hlow : UInt8.ofNat ((high.toNat * 256 + low.toNat) % 256) = low := by
    apply UInt8.toNat_inj.1
    simp only [UInt8.toNat_ofNat']
    omega
  simp only [wordBytes, wordOf_toNat, hhigh, hlow]

/-! ### Fields -/

/-- One field of a packet.  A text is named, so that a complaint can say which one is at fault. -/
inductive Field where
  | octets (bytes : Bytes)
  | text (name : String) (content : String)
deriving DecidableEq, Repr

/-- The bytes of a field.  A text ends with a zero byte. -/
def Field.form : Field → Bytes
  | octets bytes => bytes
  | text _ content => Text.Utf8.encode content ++ [0]

namespace Message

/-- The fields of a message in the order in which they travel. -/
def fields (m : Message) : List Field :=
  .octets (wordBytes m.opcode.word) ::
    match m with
    | readRequest filename mode => [.text "filename" filename, .text "mode" mode]
    | writeRequest filename mode => [.text "filename" filename, .text "mode" mode]
    | data block payload => [.octets (wordBytes block), .octets payload]
    | ack block => [.octets (wordBytes block)]
    | error code text => [.octets (wordBytes code.word), .text "error message" text]

def form (m : Message) : Bytes := (m.fields.map Field.form).flatten

theorem form_data (block : UInt16) (payload : Bytes) :
    (data block payload).form = wordBytes 3 ++ wordBytes block ++ payload := by
  simp [form, fields, Field.form, opcode, Opcode.word]

theorem form_ack (block : UInt16) : (ack block).form = wordBytes 4 ++ wordBytes block := by
  simp [form, fields, Field.form, opcode, Opcode.word]

end Message

end TftpUpload.Wire
