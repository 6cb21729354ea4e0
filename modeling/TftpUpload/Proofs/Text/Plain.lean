/-
  TftpUpload/Proofs/Text/Plain.lean
  =================================
  **Texts that can be sent.**

  A text goes into a packet if it has no zero byte and is not too long.  A zero
  byte is always a character of its own (`Utf8.zero_mem_encode`).  Texts are put
  together from fixed pieces, numbers and pieces of somebody's choice, so the
  bound for a whole text is the sum of the bounds for its pieces
  (`Plain.append`).  A number has as many digits as its size allows
  (`plain_toString`).
-/
import Mathlib.Data.Nat.Digits.Defs
import TftpUpload.Text.Utf8

namespace TftpUpload.Text

open Utf8

theorem Utf8.encode_append (s t : String) : encode (s ++ t) = encode s ++ encode t := by
  simp [encode]

theorem Utf8.encode_ofList (cs : List Char) :
    encode (String.ofList cs) = cs.flatMap String.utf8EncodeChar := by
  simp [encode, List.utf8Encode]

/-! ### Zero bytes

The bytes of a character are all greater than zero, unless it is the zero character. -/

theorem zero_ne_ofNat {n : Nat} (h : n % 256 ≠ 0) : (0 : UInt8) ≠ UInt8.ofNat n := by
  intro hzero
  have hvalue : 0 = n % 256 := by simpa using congrArg UInt8.toNat hzero
  exact h hvalue.symm

/-- Only the zero character brings a zero byte. -/
theorem zero_mem_utf8EncodeChar {c : Char} : 0 ∈ String.utf8EncodeChar c ↔ c = '\x00' := by
  constructor
  · intro hmem
    have hzero : c.val.toNat = 0 := by
      by_contra hpositive
      unfold String.utf8EncodeChar at hmem
      dsimp only at hmem
      generalize c.val.toNat = v at hmem hpositive
      revert hmem
      split
      · simp only [List.mem_singleton]
        exact zero_ne_ofNat (by omega)
      · -- each byte of a longer form has its highest bit set
        split
        · simp only [List.mem_cons, List.not_mem_nil, or_false, imp_false, not_or]
          exact ⟨zero_ne_ofNat (by omega), zero_ne_ofNat (by omega)⟩
        · split <;> simp only [List.mem_cons, List.not_mem_nil, or_false, imp_false, not_or]
          · exact ⟨zero_ne_ofNat (by omega), zero_ne_ofNat (by omega), zero_ne_ofNat (by omega)⟩
          · exact ⟨zero_ne_ofNat (by omega), zero_ne_ofNat (by omega), zero_ne_ofNat (by omega),
              zero_ne_ofNat (by omega)⟩
    exact Char.ext (UInt32.toNat_inj.1 hzero)
  · rintro rfl
    decide

theorem Utf8.zero_mem_encode {text : String} : 0 ∈ encode text ↔ '\x00' ∈ text.toList := by
  have htext : encode text = text.toList.flatMap String.utf8EncodeChar := by
    rw [← encode_ofList, String.ofList_toList]
  rw [htext, List.mem_flatMap]
  constructor
  · rintro ⟨c, hc, hmem⟩
    rwa [← zero_mem_utf8EncodeChar.1 hmem]
  · intro hc
    exact ⟨_, hc, zero_mem_utf8EncodeChar.2 rfl⟩

/-! ### Plain texts -/

structure Plain (n : Nat) (text : String) : Prop where
  nonzero : 0 ∉ encode text
  size : text.utf8ByteSize ≤ n

variable {n k : Nat} {s t : String}

instance : Decidable (Plain n s) :=
  decidable_of_iff (0 ∉ encode s ∧ s.utf8ByteSize ≤ n)
    ⟨fun h => ⟨h.1, h.2⟩, fun h => ⟨h.nonzero, h.size⟩⟩

theorem Plain.mono (h : Plain n s) (hle : n ≤ k) : Plain k s :=
  ⟨h.nonzero, h.size.trans hle⟩

theorem Plain.append (hs : Plain n s) (ht : Plain k t) : Plain (n + k) (s ++ t) where
  nonzero := by
    rw [encode_append, List.mem_append, not_or]
    exact ⟨hs.nonzero, ht.nonzero⟩
  size := by
    rw [String.utf8ByteSize_append]
    exact Nat.add_le_add hs.size ht.size

/-- A digit takes one byte. -/
theorem utf8EncodeChar_of_isDigit {c : Char} (h : c.isDigit = true) :
    String.utf8EncodeChar c = [UInt8.ofNat c.toNat] ∧ (0 : UInt8) ≠ UInt8.ofNat c.toNat := by
  simp only [Char.isDigit, ge_iff_le, Bool.and_eq_true, decide_eq_true_eq, UInt32.le_iff_toNat_le]
    at h
  have hlow : 48 ≤ c.toNat := h.1
  have hhigh : c.toNat ≤ 57 := h.2
  exact ⟨if_pos (show c.toNat ≤ 127 by omega), zero_ne_ofNat (by omega)⟩

theorem encode_digits {cs : List Char} (h : ∀ c ∈ cs, c.isDigit = true) :
    encode (String.ofList cs) = cs.map fun c => UInt8.ofNat c.toNat := by
  rw [encode_ofList, List.map_eq_flatMap, List.flatMap_def, List.flatMap_def,
    List.map_congr_left fun c hc => (utf8EncodeChar_of_isDigit (h c hc)).1]

/-- A number below a power of ten takes no more bytes than the exponent says. -/
theorem plain_toString {k number : Nat} (hk : 0 < k) (h : number < 10 ^ k) :
    Plain k (toString number) := by
  have hdigits : ∀ c ∈ Nat.toDigits 10 number, c.isDigit = true :=
    fun c hc => Nat.isDigit_of_mem_toDigits (by omega) (by omega) hc
  have hencode : encode (toString number) = _ := encode_digits hdigits
  constructor
  · rw [hencode]
    intro hzero
    obtain ⟨c, hc, hvalue⟩ := List.mem_map.1 hzero
    exact (utf8EncodeChar_of_isDigit (hdigits c hc)).2 hvalue.symm
  · rw [← length_encode, hencode, List.length_map]
    exact (Nat.length_toDigits_le_iff (by omega) hk).2 h

/-- A signed number may have a sign in front of it. -/
theorem plain_toString_int {k : Nat} (number : Int) (hk : 0 < k) (h : number.natAbs < 10 ^ k) :
    Plain (1 + k) (toString number) := by
  cases number with
  | ofNat n => exact (plain_toString hk h).mono (by omega)
  | negSucc n => exact (by decide : Plain 1 "-").append (plain_toString hk h)

theorem plain_word (w : UInt16) : Plain 5 (toString w.toNat) :=
  plain_toString (by omega) (Nat.lt_trans w.toNat_lt (by omega))

end TftpUpload.Text
