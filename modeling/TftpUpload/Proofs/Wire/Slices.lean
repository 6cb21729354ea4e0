/-
  TftpUpload/Proofs/Wire/Slices.lean
  ==================================
  **A datagram is read by slices, and every slice lies inside it.**

  `decode` goes through a datagram from piece to rest.  Here the same reading is
  done by offsets: a `Reading` starts at an offset and takes slices of the
  datagram, two bytes for a word, everything up to the next zero byte for a
  text, and what is left for a payload.  It notes each slice it takes and does
  not ask whether it lies inside, but for a word, which is taken only where
  there are two bytes.  `decode_eq_message` says that both ways of reading come
  to the same, so what is known of offsets is known of `decode`, and
  `inside_of_mem_taken` that no slice reaches beyond the datagram.
-/
import TftpUpload.Wire.Decode

namespace TftpUpload.Wire

open Text

/-! ### Slices

The fields are named as they are in `decode`, so that the faults of both are the same and not only
of the same kind. -/

structure Slice where
  start : Nat
  stop : Nat
deriving DecidableEq, Repr

structure Slice.Inside (s : Slice) (d : Bytes) : Prop where
  ordered : s.start ≤ s.stop
  bounded : s.stop ≤ d.length

/-- What is read from an offset on, with the offset behind it, or the first fault; and the slices
that have been taken. -/
def Reading (α : Type) : Type := Nat → Except DecodeError (α × Nat) × List Slice

namespace Reading

variable {α β : Type}

instance : Monad Reading where
  pure a i := (.ok (a, i), [])
  bind x f i :=
    match x i with
    | (.error e, taken) => (.error e, taken)
    | (.ok (a, j), taken) => ((f a j).1, taken ++ (f a j).2)

def fail (e : DecodeError) : Reading α := fun _ => (.error e, [])

def word (field : String) (d : Bytes) : Reading UInt16 := fun i =>
  match d.extract i (i + 2) with
  | [high, low] => (.ok (wordOf high low, i + 2), [⟨i, i + 2⟩])
  | _ => (.error (.truncated field), [])

def text (field : String) (d : Bytes) : Reading String := fun i =>
  match findZero d i with
  | none => (.error (.truncated field), [⟨i, d.length⟩])
  | some j =>
    match Utf8.decode? (d.extract i j) with
    | some content => (.ok (content, j + 1), [⟨i, d.length⟩, ⟨i, j⟩])
    | none => (.error (.badMessage (field ++ " is not valid UTF-8")), [⟨i, d.length⟩, ⟨i, j⟩])

def remainder (d : Bytes) : Reading Bytes := fun i =>
  (.ok (d.extract i d.length, d.length), [⟨i, d.length⟩])

def requestTexts (d : Bytes) : Reading (String × String) := do
  let filename ← text "filename" d
  let mode ← text "mode" d
  return (filename, mode)

def body (d : Bytes) : Opcode → Reading Message
  | .readRequest => do
    let (filename, mode) ← requestTexts d
    return .readRequest filename mode
  | .writeRequest => do
    let (filename, mode) ← requestTexts d
    return .writeRequest filename mode
  | .data => do
    let block ← word "block number" d
    let payload ← remainder d
    if payload.length ≤ blockSize then
      return .data block payload
    else
      fail (oversizedPayload payload.length)
  | .ack => do
    let block ← word "block number" d
    return .ack block
  | .error => do
    let code ← word "error code" d
    let content ← text "error message" d
    return .error ((ErrorCode.ofWord? code).getD .notDefined) content

def opcode (d : Bytes) : Reading Opcode := fun i =>
  match word "opcode" d i with
  | (.error _, taken) => (.error (.badMessage "header too short"), taken)
  | (.ok (w, j), taken) =>
    match Opcode.ofWord? w with
    | some op => (.ok (op, j), taken)
    | none => (.error (unknownOpcode w), taken)

def message (d : Bytes) : Reading Message := opcode d >>= body d

/-- The slices that are taken of a datagram when it is read as a message. -/
def taken (d : Bytes) : List Slice := (message d 0).2

theorem fst_bind (x : Reading α) (f : α → Reading β) (i : Nat) :
    ((x >>= f) i).1 = (x i).1 >>= fun p => (f p.1 p.2).1 := by
  simp only [bind]
  split <;> simp_all [Except.bind]

/-! ### Zero bytes by their offsets -/

theorem cutAtZero?_eq (bytes : Bytes) : cutAtZero? bytes =
    (bytes.findIdx? (· == 0)).map fun k => (bytes.take k, bytes.drop (k + 1)) := by
  induction bytes with
  | nil => rfl
  | cons b rest ih =>
    by_cases hb : b = 0
    · simp [cutAtZero?, List.findIdx?_cons, hb]
    · simp [cutAtZero?, List.findIdx?_cons, hb, ih, Function.comp_def]

theorem findZero_le {d : Bytes} {i j : Nat} (h : findZero d i = some j) :
    i ≤ j ∧ j < d.length := by
  obtain ⟨k, hk, rfl⟩ := Option.map_eq_some_iff.1 h
  have hlt := (List.findIdx?_eq_some_iff_getElem.1 hk).1
  rw [List.length_drop] at hlt
  omega

/-- A cut at the first zero byte is a cut at its offset. -/
theorem cutAtZero?_drop (d : Bytes) (i : Nat) : cutAtZero? (d.drop i) =
    (findZero d i).map fun j => (d.extract i j, d.drop (j + 1)) := by
  rw [cutAtZero?_eq, findZero, Option.map_map]
  congr 1
  funext k
  simp [List.extract_eq_take_drop, Nat.add_assoc]

/-! ### Both ways of reading

The two agree on each field, and agreement passes along a bind.  So nothing is compared twice but
the order of the fields. -/

/-- A reading by offsets has come to `result`, up to how this shows what was read (`view`), and
has stayed inside the datagram. -/
structure Agrees (d : Bytes) (view : α → Nat → β)
    (run : Except DecodeError (α × Nat) × List Slice) (result : Except DecodeError β) : Prop where
  result : result = run.1.map fun p => view p.1 p.2
  inside : ∀ s ∈ run.2, s.Inside d
  within : ∀ a j, run.1 = .ok (a, j) → j ≤ d.length

def withRest (d : Bytes) (a : α) (i : Nat) : α × Bytes := (a, d.drop i)

variable {d : Bytes} {i : Nat}

theorem agrees_pure (a : α) (h : i ≤ d.length) :
    Agrees d (fun a _ => a) ((pure a : Reading α) i) (pure a) := by
  refine ⟨rfl, by simp [pure], ?_⟩
  rintro _ _ ⟨⟩
  exact h

theorem agrees_fail (e : DecodeError) :
    Agrees d (fun a _ => a) ((fail e : Reading α) i) (.error e) :=
  ⟨rfl, by simp [fail], nofun⟩

theorem Agrees.bind {γ δ : Type} {view : α → Nat → γ} {view' : β → Nat → δ} {x : Reading α}
    {f : α → Reading β} {result : Except DecodeError γ} {next : γ → Except DecodeError δ}
    (h : Agrees d view (x i) result)
    (hnext : ∀ a j, j ≤ d.length → Agrees d view' (f a j) (next (view a j))) :
    Agrees d view' ((x >>= f) i) (result >>= next) := by
  obtain ⟨hresult, hinside, hwithin⟩ := h
  rw [hresult]
  simp only [Bind.bind]
  rcases hx : x i with ⟨e | ⟨a, j⟩, taken⟩
  · rw [hx] at hinside
    exact ⟨rfl, hinside, nofun⟩
  · rw [hx] at hinside
    have hlater := hnext a j (hwithin a j (by rw [hx]))
    refine ⟨hlater.result, ?_, hlater.within⟩
    intro s hs
    rcases List.mem_append.1 hs with hs | hs
    · exact hinside s hs
    · exact hlater.inside s hs

theorem word_agrees (field : String) (h : i ≤ d.length) :
    Agrees d (withRest d) (word field d i) (readWord field (d.drop i)) := by
  have hextract : d.extract i (i + 2) = (d.drop i).take 2 := by
    simp [List.extract_eq_take_drop]
  unfold word
  rw [hextract]
  rcases hdrop : d.drop i with _ | ⟨high, _ | ⟨low, rest⟩⟩
  · exact ⟨rfl, by simp, nofun⟩
  · exact ⟨rfl, by simp, nofun⟩
  · have hlength : (d.drop i).length = rest.length + 2 := by simp [hdrop]
    rw [List.length_drop] at hlength
    have hrest : d.drop (i + 2) = rest := by
      rw [← List.drop_drop, hdrop]
      rfl
    refine ⟨?_, ?_, ?_⟩
    · simp [readWord, withRest, Except.map, hrest]
    · intro s hs
      rw [List.mem_singleton.1 hs]
      have hbound : i + 2 ≤ d.length := by omega
      exact ⟨Nat.le_add_right i 2, hbound⟩
    · rintro _ _ ⟨⟩
      omega

theorem text_agrees (field : String) (h : i ≤ d.length) :
    Agrees d (withRest d) (text field d i) (readText field (d.drop i)) := by
  have hall : Slice.Inside ⟨i, d.length⟩ d := ⟨h, Nat.le_refl _⟩
  unfold readText text
  rw [cutAtZero?_drop]
  cases hzero : findZero d i with
  | none =>
    refine ⟨rfl, by simpa using hall, ?_⟩
    rintro _ _ ⟨⟩
  | some j =>
    obtain ⟨hle, hlt⟩ := findZero_le hzero
    have hboth : ∀ s ∈ [(⟨i, d.length⟩ : Slice), ⟨i, j⟩], s.Inside d := by
      simp only [List.forall_mem_cons, List.not_mem_nil, false_imp_iff, implies_true, and_true]
      exact ⟨hall, hle, Nat.le_of_lt hlt⟩
    simp only [Option.map_some]
    cases Utf8.decode? (d.extract i j) with
    | none =>
      refine ⟨rfl, hboth, ?_⟩
      rintro _ _ ⟨⟩
    | some content =>
      refine ⟨rfl, hboth, ?_⟩
      rintro _ _ ⟨⟩
      exact hlt

theorem requestTexts_agrees (h : i ≤ d.length) :
    Agrees d (fun a _ => a) (requestTexts d i) (readRequestTexts (d.drop i)) := by
  refine (text_agrees "filename" h).bind fun filename j hj => ?_
  refine (text_agrees "mode" hj).bind fun mode k hk => ?_
  exact agrees_pure (filename, mode) hk

theorem remainder_eq (d : Bytes) (i : Nat) :
    remainder d i = (.ok (d.drop i, d.length), [⟨i, d.length⟩]) := by
  simp [remainder, List.extract_eq_take_drop, ← List.length_drop]

theorem payload_agrees (block : UInt16) (h : i ≤ d.length) :
    Agrees d (fun a _ => a)
      ((remainder d >>= fun payload =>
        if payload.length ≤ blockSize then pure (Message.data block payload)
        else fail (oversizedPayload payload.length)) i)
      (if (d.drop i).length ≤ blockSize then .ok (.data block (d.drop i))
        else .error (oversizedPayload (d.drop i).length)) := by
  have hrest : Agrees d (fun a _ => a) (remainder d i) (.ok (d.drop i)) := by
    rw [remainder_eq]
    refine ⟨rfl, ?_, ?_⟩
    · intro s hs
      rw [List.mem_singleton.1 hs]
      exact ⟨h, Nat.le_refl _⟩
    · rintro _ _ ⟨⟩
      exact Nat.le_refl _
  have hcheck : ∀ payload : Bytes, ∀ j, j ≤ d.length → Agrees d (fun a _ => a)
      ((if payload.length ≤ blockSize then pure (Message.data block payload)
        else fail (oversizedPayload payload.length) : Reading Message) j)
      (if payload.length ≤ blockSize then .ok (Message.data block payload)
        else .error (oversizedPayload payload.length)) := by
    intro payload j hj
    split
    · exact agrees_pure (Message.data block payload) hj
    · exact agrees_fail (oversizedPayload payload.length)
  exact hrest.bind hcheck

theorem body_agrees (op : Opcode) (h : i ≤ d.length) :
    Agrees d (fun a _ => a) (body d op i) (decodeBody op (d.drop i)) := by
  cases op with
  | readRequest =>
    refine (requestTexts_agrees h).bind fun texts j hj => ?_
    exact agrees_pure (Message.readRequest texts.1 texts.2) hj
  | writeRequest =>
    refine (requestTexts_agrees h).bind fun texts j hj => ?_
    exact agrees_pure (Message.writeRequest texts.1 texts.2) hj
  | data =>
    refine (word_agrees "block number" h).bind fun block j hj => ?_
    exact payload_agrees block hj
  | ack =>
    refine (word_agrees "block number" h).bind fun block j hj => ?_
    exact agrees_pure (Message.ack block) hj
  | error =>
    refine (word_agrees "error code" h).bind fun code j hj => ?_
    refine (text_agrees "error message" hj).bind fun content k hk => ?_
    exact agrees_pure (Message.error ((ErrorCode.ofWord? code).getD .notDefined) content) hk

def readOpcode : Bytes → Except DecodeError (Opcode × Bytes)
  | high :: low :: rest =>
    match Opcode.ofWord? (wordOf high low) with
    | some op => .ok (op, rest)
    | none => .error (unknownOpcode (wordOf high low))
  | _ => .error (.badMessage "header too short")

theorem decode_eq_bind (d : Bytes) :
    decode d = readOpcode d >>= fun p => decodeBody p.1 p.2 := by
  rcases d with _ | ⟨high, _ | ⟨low, rest⟩⟩
  · rfl
  · rfl
  · simp only [decode, readOpcode]
    cases Opcode.ofWord? (wordOf high low) <;> rfl

theorem opcode_agrees (d : Bytes) : Agrees d (withRest d) (opcode d 0) (readOpcode d) := by
  rcases d with _ | ⟨high, _ | ⟨low, rest⟩⟩
  · exact ⟨rfl, by simp [opcode, word], nofun⟩
  · exact ⟨rfl, by simp [opcode, word], nofun⟩
  · have hinside : ∀ s ∈ [(⟨0, 2⟩ : Slice)], s.Inside (high :: low :: rest) := by
      intro s hs
      rw [List.mem_singleton.1 hs]
      exact ⟨Nat.zero_le _, by simp⟩
    have hword : word "opcode" (high :: low :: rest) 0 =
        (.ok (wordOf high low, 2), [⟨0, 2⟩]) := by
      simp [word, List.extract_eq_take_drop]
    simp only [opcode, readOpcode, hword]
    cases Opcode.ofWord? (wordOf high low) with
    | none => exact ⟨rfl, hinside, nofun⟩
    | some op =>
      refine ⟨rfl, hinside, ?_⟩
      rintro _ _ ⟨⟩
      simp

/-- What is read by offsets is what `decode` reads. -/
theorem message_agrees (d : Bytes) : Agrees d (fun m _ => m) (message d 0) (decode d) := by
  rw [decode_eq_bind]
  exact (opcode_agrees d).bind fun op j hj => body_agrees op hj

theorem decode_eq_message (d : Bytes) : decode d = (message d 0).1.map Prod.fst :=
  (message_agrees d).result

theorem inside_of_mem_taken {d : Bytes} {s : Slice} (h : s ∈ taken d) : s.Inside d :=
  (message_agrees d).inside s h

end Reading

end TftpUpload.Wire
