/-
  TftpUpload/Proofs/Wire/Grammar.lean
  ===================================
  **The wire grammar, and the verdict on every datagram.**

  `Grammar` says what a datagram is, by the offsets of its bytes: which message,
  or which fault.  It knows nothing of how a datagram is read.  Of several faults
  the first in the order of the fields counts, as every rule about a field asks
  that the fields before it be sound.  `decode_eq_iff` says that `decode` comes to
  a verdict exactly if the grammar does; so the grammar leaves no datagram out
  and gives none two verdicts.  `verdict_is_grammar` adds that no slice which is
  taken on the way reaches beyond the datagram.
-/
import TftpUpload.Proofs.Wire.Slices

namespace TftpUpload.Wire

open Text

/-! ### Fields by their offsets

An offset may lie beyond the datagram, where it has no bytes.  A field is then missing, as it is
when it begins inside and does not end there. -/

def WordAt (d : Bytes) (i n : Nat) : Prop :=
  ∃ high low, d[i]? = some high ∧ d[i + 1]? = some low ∧ n = high.toNat * 256 + low.toNat

structure ZeroAt (d : Bytes) (i j : Nat) : Prop where
  le : i ≤ j
  zero : d[j]? = some 0
  first : ∀ k, i ≤ k → k < j → d[k]? ≠ some 0

/-- What the text field from offset `i` on comes to: the text with the offset behind its zero byte,
or the fault of the field. -/
inductive TextAt (field : String) (d : Bytes) (i : Nat) :
    Except DecodeError (String × Nat) → Prop where
  | unterminated (none : ∀ k, i ≤ k → d[k]? ≠ some 0) :
    TextAt field d i (.error (.truncated field))
  | foreign {j : Nat} (ends : ZeroAt d i j) (nothing : ∀ text, Utf8.encode text ≠ d.extract i j) :
    TextAt field d i (.error (.badMessage (field ++ " is not valid UTF-8")))
  | spelled {j : Nat} {text : String} (ends : ZeroAt d i j)
      (bytes : Utf8.encode text = d.extract i j) :
    TextAt field d i (.ok (text, j + 1))

/-! ### Datagrams -/

inductive Requests : Nat → (String → String → Message) → Prop where
  | read : Requests 1 .readRequest
  | write : Requests 2 .writeRequest

/-- The code that a number stands for; there are no more than eight. -/
inductive Denotes : Nat → ErrorCode → Prop where
  | known (code : ErrorCode) : Denotes code.word.toNat code
  | unknown {n : Nat} (large : 7 < n) : Denotes n .notDefined

/-- The verdict on a datagram. -/
inductive Grammar (d : Bytes) : Except DecodeError Message → Prop where
  | headless (short : d.length < 2) : Grammar d (.error (.badMessage "header too short"))
  | unknown {n : Nat} (opcode : WordAt d 0 n) (range : n < 1 ∨ 5 < n) :
    Grammar d (.error (.badMessage ("unknown opcode " ++ toString n)))
  | nameless {n : Nat} {request : String → String → Message} {e : DecodeError}
      (kind : Requests n request) (opcode : WordAt d 0 n)
      (first : TextAt "filename" d 2 (.error e)) : Grammar d (.error e)
  | modeless {n i : Nat} {request : String → String → Message} {filename : String}
      {e : DecodeError} (kind : Requests n request) (opcode : WordAt d 0 n)
      (first : TextAt "filename" d 2 (.ok (filename, i))) (second : TextAt "mode" d i (.error e)) :
    Grammar d (.error e)
  | request {n i j : Nat} {request : String → String → Message} {filename mode : String}
      (kind : Requests n request) (opcode : WordAt d 0 n)
      (first : TextAt "filename" d 2 (.ok (filename, i)))
      (second : TextAt "mode" d i (.ok (mode, j))) : Grammar d (.ok (request filename mode))
  | dataShort (opcode : WordAt d 0 3) (short : d.length < 4) :
    Grammar d (.error (.truncated "block number"))
  | dataLong (opcode : WordAt d 0 3) (long : 516 < d.length) :
    Grammar d (.error (.badMessage
      ("data payload of " ++ toString (d.length - 4) ++ " bytes exceeds 512")))
  | data {block : UInt16} (opcode : WordAt d 0 3) (number : WordAt d 2 block.toNat)
      (fits : d.length ≤ 516) : Grammar d (.ok (.data block (d.drop 4)))
  | ackShort (opcode : WordAt d 0 4) (short : d.length < 4) :
    Grammar d (.error (.truncated "block number"))
  | ack {block : UInt16} (opcode : WordAt d 0 4) (number : WordAt d 2 block.toNat) :
    Grammar d (.ok (.ack block))
  | errorShort (opcode : WordAt d 0 5) (short : d.length < 4) :
    Grammar d (.error (.truncated "error code"))
  | errorTextless {n : Nat} {e : DecodeError} (opcode : WordAt d 0 5) (number : WordAt d 2 n)
      (message : TextAt "error message" d 4 (.error e)) : Grammar d (.error e)
  | error {n i : Nat} {code : ErrorCode} {text : String} (opcode : WordAt d 0 5)
      (number : WordAt d 2 n) (meaning : Denotes n code)
      (message : TextAt "error message" d 4 (.ok (text, i))) : Grammar d (.ok (.error code text))

/-! ### Fields are read as the grammar says

A word is at an offset if two bytes are left there, and a text ends at the first zero byte from
there on. -/

section

variable {d : Bytes} {i j n : Nat} {field : String}

theorem WordAt.bound (h : WordAt d i n) : i + 2 ≤ d.length := by
  obtain ⟨high, low, -, hlow, -⟩ := h
  have := (List.getElem?_eq_some_iff.1 hlow).1
  omega

theorem wordAt_of_bound (h : i + 2 ≤ d.length) : ∃ w : UInt16, WordAt d i w.toNat :=
  ⟨wordOf d[i] d[i + 1], d[i], d[i + 1], List.getElem?_eq_getElem _, List.getElem?_eq_getElem _,
    wordOf_toNat _ _⟩

theorem WordAt.eq_toNat (h : WordAt d i n) : ∃ w : UInt16, n = w.toNat := by
  obtain ⟨high, low, -, -, rfl⟩ := h
  exact ⟨wordOf high low, (wordOf_toNat high low).symm⟩

theorem word_of_wordAt {w : UInt16} (h : WordAt d i w.toNat) (field : String) :
    (Reading.word field d i).1 = .ok (w, i + 2) := by
  obtain ⟨high, low, hhigh, hlow, hw⟩ := h
  have hdrop : d.drop i = high :: low :: d.drop (i + 2) := by
    rw [List.drop_eq_getElem?_toList_append, List.drop_eq_getElem?_toList_append, hhigh, hlow]
    rfl
  have hextract : d.extract i (i + 2) = [high, low] := by
    simp [List.extract_eq_take_drop, hdrop]
  have hword : wordOf high low = w := UInt16.toNat_inj.1 (by rw [wordOf_toNat, hw])
  simp only [Reading.word, hextract, hword]

theorem word_of_short (h : d.length < i + 2) (field : String) :
    (Reading.word field d i).1 = .error (.truncated field) := by
  have hlength : (d.extract i (i + 2)).length < 2 := by
    simp only [List.extract_eq_take_drop, List.length_take, List.length_drop]
    omega
  unfold Reading.word
  split
  · rename_i heq
    simp [heq] at hlength
  · rfl

theorem ZeroAt.unique {k : Nat} (hj : ZeroAt d i j) (hk : ZeroAt d i k) : j = k := by
  rcases Nat.lt_trichotomy j k with hlt | heq | hgt
  · exact absurd hj.zero (hk.first j hj.le hlt)
  · exact heq
  · exact absurd hk.zero (hj.first k hk.le hgt)

theorem zeroAt_of_findZero (h : findZero d i = some j) : ZeroAt d i j := by
  obtain ⟨k, hk, rfl⟩ := Option.map_eq_some_iff.1 h
  obtain ⟨hlt, hzero, hbefore⟩ := List.findIdx?_eq_some_iff_getElem.1 hk
  simp only [List.getElem_drop, beq_iff_eq] at hzero hbefore
  rw [List.length_drop] at hlt
  refine ⟨Nat.le_add_right i k, ?_, ?_⟩
  · rw [List.getElem?_eq_getElem (by omega), hzero]
  · intro m hm hlt' hzero'
    obtain ⟨l, rfl⟩ := Nat.exists_eq_add_of_le hm
    have hl : l < k := by omega
    rw [List.getElem?_eq_getElem (by omega), Option.some_inj] at hzero'
    exact hbefore l hl hzero'

theorem findZero_eq_none_iff : findZero d i = none ↔ ∀ k, i ≤ k → d[k]? ≠ some 0 := by
  simp only [findZero, Option.map_eq_none_iff, List.findIdx?_eq_none_iff, beq_eq_false_iff_ne]
  constructor
  · intro h k hk hzero
    refine h 0 (List.mem_of_getElem? (i := k - i) ?_) rfl
    rw [List.getElem?_drop, Nat.add_sub_cancel' hk, hzero]
  · rintro h b hb rfl
    obtain ⟨k, hk⟩ := List.mem_iff_getElem?.1 hb
    rw [List.getElem?_drop] at hk
    exact h (i + k) (Nat.le_add_right i k) hk

theorem findZero_eq_some_iff : findZero d i = some j ↔ ZeroAt d i j := by
  constructor
  · exact zeroAt_of_findZero
  · intro h
    cases hfind : findZero d i with
    | none => exact absurd h.zero (findZero_eq_none_iff.1 hfind j h.le)
    | some k => rw [(zeroAt_of_findZero hfind).unique h]

/-- A text is read by offsets exactly as the grammar has it. -/
theorem textAt_iff {result : Except DecodeError (String × Nat)} :
    TextAt field d i result ↔ (Reading.text field d i).1 = result := by
  constructor
  · intro h
    cases h with
    | unterminated none => simp only [Reading.text, findZero_eq_none_iff.2 none]
    | foreign ends nothing =>
      have hdecode : ∀ text, Utf8.decode? (d.extract i _) ≠ some text := fun text htext =>
        nothing text (Utf8.eq_encode_of_decode? htext).symm
      simp only [Reading.text, findZero_eq_some_iff.2 ends,
        Option.eq_none_iff_forall_ne_some.2 hdecode]
    | spelled ends bytes =>
      simp only [Reading.text, findZero_eq_some_iff.2 ends, ← bytes, Utf8.decode?_encode]
  · rintro rfl
    cases hzero : findZero d i with
    | none =>
      simp only [Reading.text, hzero]
      exact .unterminated (findZero_eq_none_iff.1 hzero)
    | some j =>
      have hends : ZeroAt d i j := findZero_eq_some_iff.1 hzero
      cases hdecode : Utf8.decode? (d.extract i j) with
      | none =>
        simp only [Reading.text, hzero, hdecode]
        refine .foreign hends fun text htext => ?_
        rw [← htext, Utf8.decode?_encode] at hdecode
        cases hdecode
      | some text =>
        simp only [Reading.text, hzero, hdecode]
        exact .spelled hends (Utf8.eq_encode_of_decode? hdecode).symm

/-! ### Datagrams are read as the grammar says -/

theorem fst_opcode (d : Bytes) : (Reading.opcode d 0).1 =
    match (Reading.word "opcode" d 0).1 with
    | .error _ => .error (.badMessage "header too short")
    | .ok (w, j) =>
      match Opcode.ofWord? w with
      | some op => .ok (op, j)
      | none => .error (unknownOpcode w) := by
  unfold Reading.opcode
  rcases Reading.word "opcode" d 0 with ⟨e | ⟨w, j⟩, taken⟩
  · rfl
  · cases hop : Opcode.ofWord? w <;> simp only [hop]

theorem decode_of_fault {e : DecodeError} (h : (Reading.opcode d 0).1 = .error e) :
    decode d = .error e := by
  rw [Reading.decode_eq_message, Reading.message, Reading.fst_bind, h]
  rfl

/-- An opcode decides how the rest is read. -/
theorem decode_of_opcode (op : Opcode) (h : WordAt d 0 op.word.toNat) :
    decode d = (Reading.body d op 2).1.map Prod.fst := by
  have hopcode : (Reading.opcode d 0).1 = .ok (op, 2) := by
    simp only [fst_opcode, word_of_wordAt h, Opcode.ofWord?_word]
  rw [Reading.decode_eq_message, Reading.message, Reading.fst_bind, hopcode]
  rfl

theorem decode_request {request : String → String → Message} (kind : Requests n request)
    (h : WordAt d 0 n) : decode d = (do
      let (filename, i) ← (Reading.text "filename" d 2).1
      let (mode, _) ← (Reading.text "mode" d i).1
      return request filename mode) := by
  have hbody : decode d = ((Reading.requestTexts d >>= fun texts =>
      pure (request texts.1 texts.2)) 2).1.map Prod.fst := by
    cases kind with
    | read => exact decode_of_opcode .readRequest h
    | write => exact decode_of_opcode .writeRequest h
  rw [hbody]
  simp only [Reading.requestTexts, Reading.fst_bind]
  rcases (Reading.text "filename" d 2).1 with e | ⟨filename, i⟩
  · rfl
  · simp only [Except.bind, bind]
    rcases Reading.text "mode" d i with ⟨e | ⟨mode, j⟩, taken⟩ <;> rfl

theorem decode_data (h : WordAt d 0 3) : decode d = (do
    let (block, i) ← (Reading.word "block number" d 2).1
    if d.length - i ≤ blockSize then return .data block (d.drop i)
    else throw (oversizedPayload (d.length - i))) := by
  rw [decode_of_opcode .data h]
  simp only [Reading.body, Reading.fst_bind]
  rcases (Reading.word "block number" d 2).1 with e | ⟨block, i⟩
  · rfl
  · simp only [bind, Except.bind, Reading.remainder_eq, List.length_drop]
    split <;> rfl

theorem decode_ack (h : WordAt d 0 4) : decode d = (do
    let (block, _) ← (Reading.word "block number" d 2).1
    return .ack block) := by
  rw [decode_of_opcode .ack h]
  simp only [Reading.body, Reading.fst_bind]
  rcases (Reading.word "block number" d 2).1 with e | ⟨block, i⟩ <;> rfl

theorem decode_error (h : WordAt d 0 5) : decode d = (do
    let (code, i) ← (Reading.word "error code" d 2).1
    let (text, _) ← (Reading.text "error message" d i).1
    return .error ((ErrorCode.ofWord? code).getD .notDefined) text) := by
  rw [decode_of_opcode .error h]
  simp only [Reading.body, Reading.fst_bind]
  rcases (Reading.word "error code" d 2).1 with e | ⟨code, i⟩
  · rfl
  · simp only [Except.bind, bind]
    rcases Reading.text "error message" d i with ⟨e | ⟨text, j⟩, taken⟩ <;> rfl

/-! ### Verdicts

That the grammar leaves no datagram out is shown along the fields, from the opcode on: each of them
is sound or has a fault, and a fault is already a verdict. -/

theorem oversizedPayload_eq (length : Nat) : oversizedPayload length =
    .badMessage ("data payload of " ++ toString length ++ " bytes exceeds 512") := by
  have hend : " bytes exceeds " ++ toString blockSize = " bytes exceeds 512" := by decide
  rw [oversizedPayload, String.append_assoc, hend]

theorem getD_of_denotes {w : UInt16} {code : ErrorCode} (h : Denotes w.toNat code) :
    (ErrorCode.ofWord? w).getD .notDefined = code := by
  generalize hn : w.toNat = n at h
  cases h with
  | known code =>
    rw [UInt16.toNat_inj.1 hn, ErrorCode.ofWord?_word, Option.getD_some]
  | unknown large =>
    rw [ErrorCode.ofWord?_eq_none_iff.2 (hn ▸ large), Option.getD_none]

theorem denotes_getD (w : UInt16) : Denotes w.toNat ((ErrorCode.ofWord? w).getD .notDefined) := by
  cases hcode : ErrorCode.ofWord? w with
  | none => exact .unknown (ErrorCode.ofWord?_eq_none_iff.1 hcode)
  | some code =>
    rw [← ErrorCode.word_of_ofWord? hcode]
    exact .known code

/-- The verdict of the grammar is that of `decode`. -/
theorem decode_of_grammar {result : Except DecodeError Message} (h : Grammar d result) :
    decode d = result := by
  cases h with
  | headless short =>
    apply decode_of_fault
    rw [fst_opcode, word_of_short short]
  | unknown opcode range =>
    obtain ⟨w, rfl⟩ := opcode.eq_toNat
    apply decode_of_fault
    simp only [fst_opcode, word_of_wordAt opcode, Opcode.ofWord?_eq_none_iff.2 range]
    rfl
  | nameless kind opcode first =>
    rw [decode_request kind opcode, textAt_iff.1 first]
    rfl
  | modeless kind opcode first second =>
    rw [decode_request kind opcode, textAt_iff.1 first]
    simp only [bind, Except.bind, textAt_iff.1 second]
  | request kind opcode first second =>
    rw [decode_request kind opcode, textAt_iff.1 first]
    simp only [bind, Except.bind, textAt_iff.1 second]
    rfl
  | dataShort opcode short =>
    rw [decode_data opcode, word_of_short short]
    rfl
  | dataLong opcode long =>
    obtain ⟨w, hw⟩ := wordAt_of_bound (show 2 + 2 ≤ d.length by omega)
    rw [decode_data opcode, word_of_wordAt hw]
    simp only [bind, Except.bind]
    rw [if_neg (by simp only [blockSize]; omega), oversizedPayload_eq]
    rfl
  | data opcode number fits =>
    rw [decode_data opcode, word_of_wordAt number]
    simp only [bind, Except.bind]
    rw [if_pos (by simp only [blockSize]; omega)]
    rfl
  | ackShort opcode short =>
    rw [decode_ack opcode, word_of_short short]
    rfl
  | ack opcode number =>
    rw [decode_ack opcode, word_of_wordAt number]
    rfl
  | errorShort opcode short =>
    rw [decode_error opcode, word_of_short short]
    rfl
  | errorTextless opcode number message =>
    obtain ⟨w, rfl⟩ := number.eq_toNat
    rw [decode_error opcode, word_of_wordAt number]
    simp only [bind, Except.bind, textAt_iff.1 message]
  | error opcode number meaning message =>
    obtain ⟨w, rfl⟩ := number.eq_toNat
    rw [decode_error opcode, word_of_wordAt number]
    simp only [bind, Except.bind, textAt_iff.1 message, getD_of_denotes meaning]
    rfl

theorem exists_request {request : String → String → Message} (kind : Requests n request)
    (opcode : WordAt d 0 n) : ∃ result, Grammar d result := by
  cases hfirst : (Reading.text "filename" d 2).1 with
  | error e => exact ⟨_, .nameless kind opcode (textAt_iff.2 hfirst)⟩
  | ok read =>
    obtain ⟨filename, i⟩ := read
    cases hsecond : (Reading.text "mode" d i).1 with
    | error e => exact ⟨_, .modeless kind opcode (textAt_iff.2 hfirst) (textAt_iff.2 hsecond)⟩
    | ok read =>
      obtain ⟨mode, j⟩ := read
      exact ⟨_, .request kind opcode (textAt_iff.2 hfirst) (textAt_iff.2 hsecond)⟩

theorem exists_data (opcode : WordAt d 0 3) : ∃ result, Grammar d result := by
  by_cases hshort : d.length < 4
  · exact ⟨_, .dataShort opcode hshort⟩
  · obtain ⟨block, number⟩ := wordAt_of_bound (show 2 + 2 ≤ d.length by omega)
    by_cases hlong : 516 < d.length
    · exact ⟨_, .dataLong opcode hlong⟩
    · exact ⟨_, .data opcode number (by omega)⟩

theorem exists_error (opcode : WordAt d 0 5) : ∃ result, Grammar d result := by
  by_cases hshort : d.length < 4
  · exact ⟨_, .errorShort opcode hshort⟩
  · obtain ⟨w, number⟩ := wordAt_of_bound (show 2 + 2 ≤ d.length by omega)
    cases hmessage : (Reading.text "error message" d 4).1 with
    | error e => exact ⟨_, .errorTextless opcode number (textAt_iff.2 hmessage)⟩
    | ok read =>
      obtain ⟨text, i⟩ := read
      exact ⟨_, .error opcode number (denotes_getD w) (textAt_iff.2 hmessage)⟩

theorem exists_ack (opcode : WordAt d 0 4) : ∃ result, Grammar d result := by
  by_cases hshort : d.length < 4
  · exact ⟨_, .ackShort opcode hshort⟩
  · obtain ⟨block, number⟩ := wordAt_of_bound (show 2 + 2 ≤ d.length by omega)
    exact ⟨_, .ack opcode number⟩

/-- There is a verdict on every datagram. -/
theorem exists_grammar (d : Bytes) : ∃ result, Grammar d result := by
  by_cases hshort : d.length < 2
  · exact ⟨_, .headless hshort⟩
  · obtain ⟨w, opcode⟩ := wordAt_of_bound (d := d) (i := 0) (by omega)
    cases hop : Opcode.ofWord? w with
    | none => exact ⟨_, .unknown opcode (Opcode.ofWord?_eq_none_iff.1 hop)⟩
    | some op =>
      rw [← Opcode.word_of_ofWord? hop] at opcode
      cases op with
      | readRequest => exact exists_request .read opcode
      | writeRequest => exact exists_request .write opcode
      | data => exact exists_data opcode
      | ack => exact exists_ack opcode
      | error => exact exists_error opcode

theorem decode_eq_iff {result : Except DecodeError Message} :
    decode d = result ↔ Grammar d result := by
  constructor
  · rintro rfl
    obtain ⟨result, h⟩ := exists_grammar d
    rwa [decode_of_grammar h]
  · exact decode_of_grammar

end

/-- Every datagram is read as the message, or refused for the fault, that the grammar has for it.
Reading by offsets comes to the same, and takes no slice that reaches beyond the datagram. -/
theorem verdict_is_grammar (d : Bytes) :
    (∀ result, decode d = result ↔ Grammar d result) ∧
      decode d = (Reading.message d 0).1.map Prod.fst ∧ ∀ s ∈ Reading.taken d, s.Inside d :=
  ⟨fun _ => decode_eq_iff, Reading.decode_eq_message d, fun _ hs => Reading.inside_of_mem_taken hs⟩

/-- A name that is not UTF-8 is refused, although the mode after it has no end. -/
theorem first_fault_decides :
    Grammar [0, 2, 255, 0, 111] (.error (.badMessage "filename is not valid UTF-8")) ∧
      ⟨2, 3⟩ ∈ Reading.taken [0, 2, 255, 0, 111] ∧ Slice.Inside ⟨2, 3⟩ [0, 2, 255, 0, 111] := by
  obtain ⟨hverdict, -, hinside⟩ := verdict_is_grammar [0, 2, 255, 0, 111]
  have htaken : ⟨2, 3⟩ ∈ Reading.taken [0, 2, 255, 0, 111] := by decide
  exact ⟨(hverdict _).1 rfl, htaken, hinside _ htaken⟩

end TftpUpload.Wire
