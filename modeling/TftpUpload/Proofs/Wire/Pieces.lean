/-
  TftpUpload/Proofs/Wire/Pieces.lean
  ==================================
  **Writing stops at the first piece at fault, and touches nothing behind it.**

  A message is put into a buffer piece by piece: its opcode, its words, the
  content of each text and the zero byte behind it, the payload.  A piece is at
  fault if it is the content of a text and holds a zero byte, or else if it ends
  beyond the buffer; a text is looked through before there is asked for room, so
  of the two the zero byte wins.  Wherever writing ends, the buffer is the
  pieces that fitted and behind them what it was before (`Writer.holding`).

  `encode_outcome` says that either all pieces are written, or those before one
  at fault; `Stops.unique` that there is only one such piece.  So what `encode`
  returns is read off the message and the capacity alone (`encode_is_exact`).
-/
import TftpUpload.Proofs.Wire.RoundTrip

namespace TftpUpload.Wire

open Text

/-! ### Pieces

That a text and its zero byte are two pieces is seen when only the second does not fit: the buffer
then holds the text. -/

structure Piece where
  bytes : Bytes
  /-- The name of the text of which the bytes are the content. -/
  text? : Option String := none
deriving DecidableEq, Repr

def Piece.Clean (p : Piece) : Prop := ∀ name, p.text? = some name → 0 ∉ p.bytes

def Field.pieces : Field → List Piece
  | octets bytes => [{ bytes }]
  | text name content => [{ bytes := Utf8.encode content, text? := some name }, { bytes := [0] }]

def Message.pieces (m : Message) : List Piece := m.fields.flatMap Field.pieces

def spelled (pieces : List Piece) : Bytes := pieces.flatMap Piece.bytes

@[simp]
theorem spelled_append (pieces more : List Piece) :
    spelled (pieces ++ more) = spelled pieces ++ spelled more := List.flatMap_append

@[simp]
theorem spelled_cons (p : Piece) (pieces : List Piece) :
    spelled (p :: pieces) = p.bytes ++ spelled pieces := rfl

@[simp]
theorem spelled_nil : spelled [] = [] := rfl

theorem spelled_fieldPieces (field : Field) : spelled field.pieces = field.form := by
  cases field <;> simp [Field.pieces, Field.form]

theorem spelled_flatMap (fields : List Field) :
    spelled (fields.flatMap Field.pieces) = (fields.map Field.form).flatten := by
  induction fields with
  | nil => rfl
  | cons field rest ih => simp [spelled_fieldPieces, ih]

/-- The form of a message is what its pieces spell. -/
theorem spelled_pieces (m : Message) : spelled m.pieces = m.form := spelled_flatMap m.fields

/-- Bytes that are no content of a text may be anything. -/
theorem clean_of_octets (bytes : Bytes) : Piece.Clean { bytes } := by
  intro name hname
  cases hname

theorem clean_fieldPieces_iff {field : Field} : (∀ p ∈ field.pieces, p.Clean) ↔ field.Clean := by
  cases field <;> simp [Field.pieces, Piece.Clean, Field.Clean]

theorem clean_flatMap_iff {fields : List Field} :
    (∀ p ∈ fields.flatMap Field.pieces, p.Clean) ↔ ∀ field ∈ fields, field.Clean := by
  constructor
  · intro h field hfield
    apply clean_fieldPieces_iff.1
    intro p hp
    exact h p (List.mem_flatMap.2 ⟨field, hfield, hp⟩)
  · intro h p hp
    obtain ⟨field, hfield, hpiece⟩ := List.mem_flatMap.1 hp
    exact clean_fieldPieces_iff.2 (h field hfield) p hpiece

/-- The content of a text begins a field. -/
theorem split_of_text {fields : List Field} {fitted rest : List Piece} {p : Piece} {name : String}
    (split : fields.flatMap Field.pieces = fitted ++ p :: rest) (text : p.text? = some name) :
    ∃ before content after, fields = before ++ .text name content :: after ∧
      fitted = before.flatMap Field.pieces ∧ p.bytes = Utf8.encode content := by
  induction fields generalizing fitted with
  | nil => simp at split
  | cons field fields ih =>
    rw [List.flatMap_cons] at split
    cases field with
    | octets bytes =>
      cases fitted with
      | nil =>
        cases split
        cases text
      | cons q fitted =>
        obtain ⟨rfl, hrest⟩ := List.cons.inj split
        obtain ⟨before, content, after, rfl, rfl, hbytes⟩ := ih hrest
        exact ⟨.octets bytes :: before, content, after, rfl, rfl, hbytes⟩
    | text title content =>
      rcases fitted with _ | ⟨q, _ | ⟨q', fitted⟩⟩
      · cases split
        cases text
        exact ⟨[], content, fields, rfl, rfl, rfl⟩
      · -- the zero byte behind a text is no text
        cases split
        cases text
      · obtain ⟨rfl, hrest⟩ := List.cons.inj split
        obtain ⟨rfl, hrest'⟩ := List.cons.inj hrest
        obtain ⟨before, content', after, rfl, rfl, hbytes⟩ := ih hrest'
        exact ⟨.text title content :: before, content', after, rfl, rfl, hbytes⟩

/-! ### Faults

A piece at fault is never written, so none of those that fitted can be at fault as well.  This is
why there is only one place to stop at. -/

/-- What is wrong with a piece that is to be put at an offset. -/
inductive Piece.Fault (capacity offset : Nat) (p : Piece) : EncodeError → Prop where
  | interiorNul {name : String} (content : p.text? = some name) (zero : 0 ∈ p.bytes) :
    Fault capacity offset p (.interiorNul name)
  | overflow (clean : p.Clean) (beyond : capacity < offset + p.bytes.length) :
    Fault capacity offset p (.bufferTooSmall (offset + p.bytes.length) capacity)

/-- Of the pieces, `fitted` are written, and the one behind them is at fault. -/
structure Stops (capacity : Nat) (pieces fitted : List Piece) (e : EncodeError) : Prop where
  clean : ∀ p ∈ fitted, p.Clean
  room : (spelled fitted).length ≤ capacity
  fault : ∃ p rest, pieces = fitted ++ p :: rest ∧ p.Fault capacity (spelled fitted).length e

section

variable {capacity : Nat} {pieces fitted fitted' : List Piece} {e e' : EncodeError}

theorem Stops.append (h : Stops capacity pieces fitted e) (more : List Piece) :
    Stops capacity (pieces ++ more) fitted e := by
  obtain ⟨clean, room, p, rest, rfl, fault⟩ := h
  exact ⟨clean, room, p, rest ++ more, by simp, fault⟩

theorem Piece.Fault.unique {p : Piece} {offset : Nat} (h : p.Fault capacity offset e)
    (h' : p.Fault capacity offset e') : e = e' := by
  cases h with
  | interiorNul content zero =>
    cases h' with
    | interiorNul content' _ =>
      rw [content] at content'
      cases content'
      rfl
    | overflow clean _ => exact absurd zero (clean _ content)
  | overflow clean _ =>
    cases h' with
    | interiorNul content zero => exact absurd zero (clean _ content)
    | overflow _ _ => rfl

/-- A piece at fault is not among pieces that are written. -/
theorem Piece.Fault.not_written {p : Piece} {rest : List Piece}
    (h : p.Fault capacity (spelled fitted).length e)
    (clean : ∀ q ∈ fitted ++ p :: rest, q.Clean)
    (room : (spelled (fitted ++ p :: rest)).length ≤ capacity) : False := by
  cases h with
  | interiorNul content zero => exact clean p (by simp) _ content zero
  | overflow _ beyond =>
    simp only [spelled_append, spelled_cons, List.length_append] at room
    omega

/-- Pieces that can all be written have none at fault. -/
theorem Stops.not_written (h : Stops capacity pieces fitted e) (clean : ∀ p ∈ pieces, p.Clean)
    (room : (spelled pieces).length ≤ capacity) : False := by
  obtain ⟨-, -, p, rest, rfl, fault⟩ := h
  exact fault.not_written clean room

/-- Only one piece is the first at fault. -/
theorem Stops.unique (h : Stops capacity pieces fitted e) (h' : Stops capacity pieces fitted' e') :
    fitted = fitted' ∧ e = e' := by
  obtain ⟨clean, room, p, rest, rfl, fault⟩ := h
  obtain ⟨clean', room', p', rest', heq, fault'⟩ := h'
  rcases List.append_eq_append_iff.1 heq with ⟨between, rfl, hrest⟩ | ⟨between, rfl, hrest⟩
  · cases between with
    | nil =>
      rw [List.append_nil] at fault' ⊢
      cases hrest
      exact ⟨rfl, fault.unique fault'⟩
    | cons q between =>
      -- the piece at fault would be among those that are written
      cases hrest
      exact (fault.not_written clean' room').elim
  · cases between with
    | nil =>
      rw [List.append_nil] at fault ⊢
      cases hrest
      exact ⟨rfl, fault.unique fault'⟩
    | cons q between =>
      cases hrest
      exact (fault'.not_written clean room).elim

end

/-! ### Writing piece by piece -/

namespace Writer

variable {buffer : Bytes} {done : List Piece}

def holding (buffer written : Bytes) : Writer :=
  ⟨written ++ buffer.drop written.length, written.length⟩

theorem length_holding {written : Bytes} (room : written.length ≤ buffer.length) :
    (holding buffer written).buffer.length = buffer.length := by
  simp only [holding, List.length_append, List.length_drop]
  omega

theorem put_holding {written piece : Bytes} (room : (written ++ piece).length ≤ buffer.length) :
    (holding buffer written).put piece = .ok (holding buffer (written ++ piece)) := by
  have hroom := room
  rw [List.length_append] at hroom
  have hwritten : written.length ≤ buffer.length := by omega
  have hbehind : (written ++ buffer.drop written.length).drop (written.length + piece.length) =
      buffer.drop (written.length + piece.length) := by
    rw [← List.drop_drop, List.drop_left, List.drop_drop]
  unfold put
  rw [length_holding hwritten]
  simp only [holding, if_pos hroom, List.take_left, hbehind, List.length_append]

theorem put_holding_error {written piece : Bytes} (room : written.length ≤ buffer.length)
    (beyond : buffer.length < written.length + piece.length) :
    (holding buffer written).put piece =
      .error (.bufferTooSmall (written.length + piece.length) buffer.length) := by
  unfold put
  rw [length_holding room]
  exact if_neg (Nat.not_le.2 beyond)

/-- Behind pieces that are written, one that may be written either fits or is at fault. -/
theorem put_cases (room : (spelled done).length ≤ buffer.length) {p : Piece} (clean : p.Clean) :
    ((spelled (done ++ [p])).length ≤ buffer.length ∧
        (holding buffer (spelled done)).put p.bytes =
          .ok (holding buffer (spelled (done ++ [p])))) ∨
      ∃ e, (holding buffer (spelled done)).put p.bytes = .error e ∧
        p.Fault buffer.length (spelled done).length e := by
  have hspelled : spelled (done ++ [p]) = spelled done ++ p.bytes := by simp
  by_cases hroom : (spelled (done ++ [p])).length ≤ buffer.length
  · left
    refine ⟨hroom, ?_⟩
    rw [hspelled] at hroom ⊢
    exact put_holding hroom
  · right
    have hbeyond : buffer.length < (spelled done).length + p.bytes.length := by
      simpa [hspelled] using hroom
    exact ⟨_, put_holding_error room hbeyond, .overflow clean hbeyond⟩

inductive Outcome (buffer : Bytes) (pieces : List Piece) :
    Writer × Except EncodeError Unit → Prop where
  | whole (clean : ∀ p ∈ pieces, p.Clean) (room : (spelled pieces).length ≤ buffer.length) :
    Outcome buffer pieces (holding buffer (spelled pieces), .ok ())
  | stopped {fitted : List Piece} {e : EncodeError}
      (stops : Stops buffer.length pieces fitted e) :
    Outcome buffer pieces (holding buffer (spelled fitted), .error e)

theorem Outcome.of_fault {p : Piece} {rest : List Piece} {e : EncodeError}
    (clean : ∀ q ∈ done, q.Clean) (room : (spelled done).length ≤ buffer.length)
    (fault : p.Fault buffer.length (spelled done).length e) :
    Outcome buffer (done ++ p :: rest) (holding buffer (spelled done), .error e) :=
  .stopped ⟨clean, room, p, rest, rfl, fault⟩

theorem clean_concat {p : Piece} (clean : ∀ q ∈ done, q.Clean) (hp : p.Clean) :
    ∀ q ∈ done ++ [p], q.Clean := by
  intro q hq
  rcases List.mem_append.1 hq with hq | hq
  · exact clean q hq
  · rwa [List.mem_singleton.1 hq]

/-- A field is put behind pieces that are written. -/
theorem putField_outcome (clean : ∀ q ∈ done, q.Clean)
    (room : (spelled done).length ≤ buffer.length) (field : Field) :
    Outcome buffer (done ++ field.pieces) ((holding buffer (spelled done)).putField field) := by
  cases field with
  | octets bytes =>
    have hclean := clean_of_octets bytes
    rcases put_cases room hclean with ⟨hroom, hput⟩ | ⟨e, hput, hfault⟩
    · simp only [putField, hput]
      exact .whole (clean_concat clean hclean) hroom
    · simp only [putField, hput]
      exact .of_fault clean room hfault
  | text name content =>
    by_cases hzero : 0 ∈ Utf8.encode content
    · simp only [putField, if_pos hzero]
      exact .of_fault clean room (.interiorNul rfl hzero)
    · have hcontent : Piece.Clean { bytes := Utf8.encode content, text? := some name } :=
        fun _ _ => hzero
      have hend := clean_of_octets [0]
      rcases put_cases room hcontent with ⟨hroom, hput⟩ | ⟨e, hput, hfault⟩
      · -- the content fits, so the zero byte behind it decides
        have hdone := clean_concat clean hcontent
        rw [Field.pieces, ← List.singleton_append, ← List.append_assoc]
        rcases put_cases hroom hend with ⟨hroom', hput'⟩ | ⟨e, hput', hfault⟩
        · simp only [putField, if_neg hzero, hput, hput']
          exact .whole (clean_concat hdone hend) hroom'
        · simp only [putField, if_neg hzero, hput, hput']
          exact .of_fault hdone hroom hfault
      · simp only [putField, if_neg hzero, hput]
        exact .of_fault clean room hfault

/-- Fields are put behind pieces that are written. -/
theorem putFields_outcome (clean : ∀ q ∈ done, q.Clean)
    (room : (spelled done).length ≤ buffer.length) (fields : List Field) :
    Outcome buffer (done ++ fields.flatMap Field.pieces)
      ((holding buffer (spelled done)).putFields fields) := by
  induction fields generalizing done with
  | nil =>
    rw [List.flatMap_nil, List.append_nil]
    exact .whole clean room
  | cons field rest ih =>
    rw [List.flatMap_cons, ← List.append_assoc]
    have hfield := putField_outcome clean room field
    unfold putFields
    revert hfield
    generalize (holding buffer (spelled done)).putField field = result
    intro hfield
    cases hfield with
    | whole clean' room' => exact ih clean' room'
    | stopped stops => exact .stopped (stops.append _)

end Writer

/-! ### Encoding

It remains to look at how the pieces of a message make up its form, and at what is in the buffer
when it does not fit. -/

/-- All that encoding a message can come to. -/
theorem encode_outcome (m : Message) (buffer : Bytes) :
    ((∀ field ∈ m.fields, field.Clean) ∧ m.form.length ≤ buffer.length ∧
        encode m buffer = (m.form ++ buffer.drop m.form.length, .ok m.form.length)) ∨
      ∃ fitted e, Stops buffer.length m.pieces fitted e ∧
        encode m buffer = (spelled fitted ++ buffer.drop (spelled fitted).length, .error e) := by
  have hclean : ∀ p ∈ ([] : List Piece), p.Clean := nofun
  have houtcome : Writer.Outcome buffer m.pieces (Writer.putFields ⟨buffer, 0⟩ m.fields) :=
    Writer.putFields_outcome hclean (Nat.zero_le _) m.fields
  unfold encode
  revert houtcome
  generalize Writer.putFields ⟨buffer, 0⟩ m.fields = result
  intro houtcome
  cases houtcome with
  | whole clean room =>
    rw [spelled_pieces] at room ⊢
    exact .inl ⟨clean_flatMap_iff.1 clean, room, rfl⟩
  | stopped stops => exact .inr ⟨_, _, stops, rfl⟩

/-- The error that encoding ends with is that of the first piece at fault. -/
theorem encode_eq_error_iff {m : Message} {buffer : Bytes} {e : EncodeError} :
    (encode m buffer).2 = .error e ↔ ∃ fitted, Stops buffer.length m.pieces fitted e := by
  rcases encode_outcome m buffer with ⟨clean, room, hencode⟩ | ⟨fitted, e', stops, hencode⟩
  · rw [hencode]
    constructor
    · intro h
      cases h
    · rintro ⟨fitted, stops⟩
      rw [← spelled_pieces] at room
      exact (stops.not_written (clean_flatMap_iff.2 clean) room).elim
  · rw [hencode]
    constructor
    · intro h
      cases h
      exact ⟨fitted, stops⟩
    · rintro ⟨fitted', stops'⟩
      rw [(stops.unique stops').2]

/-- A text with a zero byte is named exactly if it is the first and all before it fits. -/
theorem encode_eq_interiorNul_iff {m : Message} {buffer : Bytes} {name : String} :
    (encode m buffer).2 = .error (.interiorNul name) ↔
      ∃ before content after, m.fields = before ++ .text name content :: after ∧
        (∀ field ∈ before, field.Clean) ∧ 0 ∈ Utf8.encode content ∧
          (before.map Field.form).flatten.length ≤ buffer.length := by
  rw [encode_eq_error_iff]
  constructor
  · rintro ⟨fitted, clean, room, p, rest, hpieces, fault⟩
    cases fault with
    | interiorNul content zero =>
      obtain ⟨before, content, after, hfields, rfl, hbytes⟩ := split_of_text hpieces content
      rw [spelled_flatMap] at room
      exact ⟨before, content, after, hfields, clean_flatMap_iff.1 clean, hbytes ▸ zero, room⟩
  · rintro ⟨before, content, after, hfields, clean, zero, room⟩
    rw [← spelled_flatMap] at room
    refine ⟨before.flatMap Field.pieces, clean_flatMap_iff.2 clean, room,
      { bytes := Utf8.encode content, text? := some name },
      { bytes := [0] } :: after.flatMap Field.pieces, ?_, .interiorNul rfl zero⟩
    rw [Message.pieces, hfields, List.flatMap_append, List.flatMap_cons]
    rfl

/-- Encoding succeeds exactly if no text holds a zero byte and there is room for the form of the
message.  This is then written, and what is behind it stays.  Otherwise the buffer is the pieces
that fitted before the first one at fault, and behind them what it was.  A lack of room is told by
the capacity and the offset at which that piece would have ended, a zero byte by the name of the
first text that holds one, if all before it fits. -/
theorem encode_is_exact (m : Message) (buffer : Bytes) :
    ((∃ n, (encode m buffer).2 = .ok n) ↔
        (∀ field ∈ m.fields, field.Clean) ∧ m.form.length ≤ buffer.length) ∧
      (∀ n, (encode m buffer).2 = .ok n →
        n = m.form.length ∧ (encode m buffer).1 = m.form ++ buffer.drop n) ∧
      (∀ needed capacity, (encode m buffer).2 = .error (.bufferTooSmall needed capacity) →
        capacity = buffer.length ∧ capacity < needed ∧ needed ≤ m.form.length ∧
          ∃ fitted p rest, m.pieces = fitted ++ p :: rest ∧ (spelled fitted).length ≤ capacity ∧
            needed = (spelled (fitted ++ [p])).length) ∧
      (∀ name, (encode m buffer).2 = .error (.interiorNul name) ↔
        ∃ before content after, m.fields = before ++ .text name content :: after ∧
          (∀ field ∈ before, field.Clean) ∧ 0 ∈ Utf8.encode content ∧
            (before.map Field.form).flatten.length ≤ buffer.length) ∧
      (∀ e, (encode m buffer).2 = .error e →
        ∃ fitted p rest, m.pieces = fitted ++ p :: rest ∧
          p.Fault buffer.length (spelled fitted).length e ∧
            (encode m buffer).1 = spelled fitted ++ buffer.drop (spelled fitted).length) := by
  refine ⟨?_, ?_, ?_, fun name => encode_eq_interiorNul_iff, ?_⟩
  · constructor
    · rintro ⟨n, h⟩
      rcases encode_outcome m buffer with ⟨clean, room, -⟩ | ⟨fitted, e, -, hencode⟩
      · exact ⟨clean, room⟩
      · rw [hencode] at h
        cases h
    · rintro ⟨clean, room⟩
      obtain ⟨buffer', hencode⟩ := encode_of_clean clean room
      exact ⟨m.form.length, by rw [hencode]⟩
  · intro n h
    rcases encode_outcome m buffer with ⟨-, -, hencode⟩ | ⟨fitted, e, -, hencode⟩
    · rw [hencode] at h ⊢
      cases h
      exact ⟨rfl, rfl⟩
    · rw [hencode] at h
      cases h
  · intro needed capacity h
    obtain ⟨fitted, clean, room, p, rest, hpieces, fault⟩ := encode_eq_error_iff.1 h
    cases fault with
    | overflow _ beyond =>
      have hform : m.form.length = (spelled fitted).length + p.bytes.length +
          (spelled rest).length := by
        rw [← spelled_pieces, hpieces]
        simp [Nat.add_assoc]
      exact ⟨rfl, beyond, by omega, fitted, p, rest, hpieces, room, by simp⟩
  · intro e h
    rcases encode_outcome m buffer with ⟨-, -, hencode⟩ | ⟨fitted, e', stops, hencode⟩
    · rw [hencode] at h
      cases h
    · rw [hencode] at h ⊢
      cases h
      obtain ⟨-, -, p, rest, hpieces, fault⟩ := stops
      exact ⟨fitted, p, rest, hpieces, fault, rfl⟩

/-- A mode that does not fit is told by its own end, not by that of the message; the name before it
stays in the buffer. -/
theorem mode_does_not_fit :
    encode (.writeRequest "ab" "octet") [9, 9, 9, 9, 9, 9] =
        ([0, 2, 97, 98, 0, 9], .error (.bufferTooSmall 10 6)) ∧
      10 ≤ (Message.writeRequest "ab" "octet").form.length ∧
      ∃ fitted p rest, (Message.writeRequest "ab" "octet").pieces = fitted ++ p :: rest ∧
        (spelled fitted).length ≤ 6 ∧ 10 = (spelled (fitted ++ [p])).length := by
  have hencode : encode (.writeRequest "ab" "octet") [9, 9, 9, 9, 9, 9] =
      ([0, 2, 97, 98, 0, 9], .error (.bufferTooSmall 10 6)) := rfl
  obtain ⟨-, -, hlack, -⟩ := encode_is_exact (.writeRequest "ab" "octet") [9, 9, 9, 9, 9, 9]
  obtain ⟨-, -, hsize, hpieces⟩ := hlack 10 6 (by rw [hencode])
  exact ⟨hencode, hsize, hpieces⟩

end TftpUpload.Wire
