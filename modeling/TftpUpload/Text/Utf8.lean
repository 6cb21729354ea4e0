/-
  TftpUpload/Text/Utf8.lean
  =========================
  **Texts as bytes.**

  Names, modes and error texts travel as UTF-8.  A text and its bytes determine
  each other: `decode?_encode` reads back what `encode` writes, and
  `eq_encode_of_decode?` says that nothing else is read.
-/

namespace TftpUpload

/-- A sequence of octets: a datagram, a block of a file, the contents of a file. -/
abbrev Bytes := List UInt8

namespace Text.Utf8

def encode (text : String) : Bytes := text.toByteArray.data.toList

/-- The text whose UTF-8 form is `bytes`, if there is one. -/
def decode? (bytes : Bytes) : Option String := String.fromUTF8? ⟨bytes.toArray⟩

@[simp]
theorem decode?_encode (text : String) : decode? (encode text) = some text := by
  unfold decode? encode String.fromUTF8?
  simp only [Array.toArray_toList]
  rw [dif_pos text.isValidUTF8]
  rfl

theorem eq_encode_of_decode? {bytes : Bytes} {text : String} (h : decode? bytes = some text) :
    bytes = encode text := by
  unfold decode? String.fromUTF8? at h
  split at h
  · cases h
    simp [encode, String.fromUTF8]
  · cases h

/-- The number of bytes a text takes on the wire. -/
theorem length_encode (text : String) : (encode text).length = text.utf8ByteSize := by
  simp only [encode, Array.length_toList]
  rfl

end Text.Utf8

end TftpUpload
