/-
  TftpUpload/Proofs/Receiver/Requests.lean
  ========================================
  **Requests that come to a session that has been opened.**

  A request that comes again before the first block asks for the acknowledgement
  of the request once more; later it is a violation.  A session tells the one
  case from the other by the number of the last block, and that is a word: after
  65536 blocks it is 0 again.  So a session that waits for more refuses a request
  exactly if the number of its blocks is no multiple of 65536 (`step_request`).

  For the first 65535 blocks this is what is wanted.  The next block brings the
  session to where it takes any request for a repeated one
  (`request_is_acknowledged_after_a_lap`), though it has long been told that its
  first acknowledgement arrived.
-/
import TftpUpload.Proofs.Receiver.Answers

namespace TftpUpload

open Wire Transfer Storage

namespace Session

variable {σ κ : Type} {s : Session κ}

/-! ### An upload of full blocks

The upload is of any length, so the session is found by induction and not by running it. -/

def fullUpload (n : Nat) : List Message :=
  .writeRequest "a" "octet" ::
    (List.range n).map fun i => .data (number (i + 1)) (List.replicate blockSize 7)

theorem fullUpload_succ (n : Nat) : fullUpload (n + 1) =
    fullUpload n ++ [.data (number (n + 1)) (List.replicate blockSize 7)] := by
  simp [fullUpload, List.range_succ]

/-- Memory without faults takes all that is written, and at once. -/
theorem writeAll_memory (name : String) {payload : Bytes} (nonempty : payload ≠ [])
    (memory : Memory) : ∃ memory',
      (Memory.storage {}).writeAll name payload memory = (.ok name, memory') := by
  obtain ⟨b, rest, rfl⟩ := List.exists_cons_of_ne_nil nonempty
  obtain ⟨memory', hwrite⟩ : ∃ memory', (Memory.storage {}).write name (b :: rest) memory =
      (.ok (rest.length + 1, name), memory') := by
    simp [Memory.storage, Memory.write, Memory.accepts]
  have hdone : (Memory.storage {}).writeWithin rest.length name [] memory' =
      (.ok name, memory') := by
    cases rest <;> rfl
  refine ⟨memory', ?_⟩
  simp only [writeAll, List.length_cons, writeWithin, List.isEmpty_cons, hwrite]
  simpa using hdone

structure Filled (n : Nat) (s : Session String) : Prop where
  phase : s.phase = .receiving (number n)
  destination : s.destination = some "a"
  blocks : s.blocks = n

theorem Filled.step {n : Nat} {s : Session String} (h : s.Filled n) (memory : Memory) :
    (s.step (Memory.storage {}) (.data (number (n + 1)) (List.replicate blockSize 7))
      memory).1.Filled (n + 1) := by
  have hnonempty : List.replicate blockSize (7 : UInt8) ≠ [] := by decide
  obtain ⟨memory', hwritten⟩ := writeAll_memory "a" hnonempty memory
  have hfull : ¬ (List.replicate blockSize (7 : UInt8)).length < blockSize := by simp
  have hadvance : s.advance (Memory.storage {})
      (.data (number (n + 1)) (List.replicate blockSize 7)) memory =
      ({ s.counted "a" (number (n + 1)) (List.replicate blockSize 7) with
          phase := .receiving (number (n + 1)) },
        .ok (.reply (.ack (number (n + 1)))), memory') := by
    simp only [advance, h.phase, number_succ, if_neg (number_ne_succ n).symm, if_true]
    simp only [← number_succ, write, h.destination, hwritten, if_neg hfull]
  rw [step_of_ok hadvance]
  exact ⟨rfl, rfl, by simp [counted, h.blocks]⟩

def afterFull (n : Nat) : Session String × List (Except Failure Step) × Memory :=
  follow (Memory.storage {}) {} (fullUpload n) {}

theorem filled_afterFull (n : Nat) : (afterFull n).1.Filled n := by
  induction n with
  | zero => exact ⟨rfl, rfl, rfl⟩
  | succ n ih =>
    rw [afterFull, fullUpload_succ, follow_append]
    exact ih.step _

theorem reached_afterFull (n : Nat) : Reached (afterFull n).1 := Reached.new.follow _ _ _

theorem blocks_afterFull (n : Nat) : (afterFull n).1.blocks = n := (filled_afterFull n).blocks

theorem phase_afterFull (n : Nat) : (afterFull n).1.phase = .receiving (number n) :=
  (filled_afterFull n).phase

/-! ### A request -/

/-- The session waits for a block, and the number of its last block is 0, as if that were the
request. -/
def AtZero (s : Session κ) : Prop := (∃ last, s.phase = .receiving last) ∧ s.blocks % 65536 = 0

theorem number_eq_zero_iff {n : Nat} : number n = 0 ↔ n % 65536 = 0 := by
  rw [number, ← UInt16.toNat_inj, UInt16.toNat_ofNat']
  rfl

theorem Reached.last_eq_zero_iff (reached : Reached s) {last : UInt16}
    (receiving : s.phase = .receiving last) : last = 0 ↔ s.blocks % 65536 = 0 := by
  rw [reached.settled.receiving last receiving, reached.lastAcked_eq, number_eq_zero_iff]

/-- A session that has been opened acknowledges a request again if the number of its last block is
0, and otherwise refuses it.  Neither way does it ask its storage for anything. -/
theorem step_request (reached : Reached s) (opened : s.phase ≠ .new) (st : Storage σ κ)
    (name mode : String) (store : σ) :
    (s.AtZero → s.step st (.writeRequest name mode) store = (s, .ok (.reply (.ack 0)), store)) ∧
      (¬ s.AtZero → s.step st (.writeRequest name mode) store =
        (s.fail, .error (.unexpected (.writeRequest name mode) s.phase.label), store)) := by
  constructor
  · rintro ⟨⟨last, receiving⟩, hblocks⟩
    have hzero : last = 0 := (reached.last_eq_zero_iff receiving).2 hblocks
    apply step_of_ok
    simp only [advance, receiving, hzero, if_true]
  · intro hother
    apply step_of_error
    cases hphase : s.phase with
    | new => exact absurd hphase opened
    | receiving last =>
      have hne : last ≠ 0 := fun hzero =>
        hother ⟨⟨last, hphase⟩, (reached.last_eq_zero_iff hphase).1 hzero⟩
      simp only [advance, hphase, if_neg hne]
    | opening | complete last | failed => simp only [advance, hphase]

theorem phase_fail_of_receiving {last : UInt16} (receiving : s.phase = .receiving last) :
    s.fail.phase = .failed := by
  simp only [fail, receiving]

/-- Once a block has been written, a request is a violation, and a session that waited for more has
failed with it; but not if as many blocks have been written as bring the number of the last one
back to 0.  A session that has been opened answers a request in no other case, and then with the
acknowledgement of block 0. -/
theorem request_is_refused_within_a_lap (reached : Reached s) (st : Storage σ κ)
    (name mode : String) (store : σ) :
    (0 < s.blocks → ¬ s.AtZero →
      ∃ failure, s.step st (.writeRequest name mode) store = (s.fail, .error failure, store) ∧
        failure.isViolation ∧ failure.code = .illegalOperation ∧
        ∀ last, s.phase = .receiving last → s.fail.phase = .failed) ∧
    (s.phase ≠ .new → ∀ s' answer store',
      s.step st (.writeRequest name mode) store = (s', .ok answer, store') →
      s.AtZero ∧ s' = s ∧ answer = .reply (.ack 0) ∧ store' = store) := by
  constructor
  · intro hblocks hother
    have hopened : s.phase ≠ .new := fun hnew =>
      absurd (reached.settled.new hnew) (Nat.pos_iff_ne_zero.1 hblocks)
    exact ⟨_, (step_request reached hopened st name mode store).2 hother, rfl, rfl,
      fun _ => phase_fail_of_receiving⟩
  · intro hopened s' answer store' hstep
    obtain ⟨hagain, hrefused⟩ := step_request reached hopened st name mode store
    by_cases hzero : s.AtZero
    · rw [hagain hzero] at hstep
      cases hstep
      exact ⟨hzero, rfl, rfl, rfl⟩
    · rw [hrefused hzero] at hstep
      cases hstep

/-- One block short of a lap a request is refused. -/
theorem request_is_refused_before_a_lap :
    Reached (afterFull 65535).1 ∧ 0 < (afterFull 65535).1.blocks ∧ ¬ (afterFull 65535).1.AtZero ∧
      ∃ failure, (afterFull 65535).1.step (Memory.storage {}) (.writeRequest "a" "octet") {} =
        ((afterFull 65535).1.fail, .error failure, {}) ∧ failure.isViolation := by
  have hpositive : 0 < (afterFull 65535).1.blocks := by
    rw [blocks_afterFull]
    decide
  have hother : ¬ (afterFull 65535).1.AtZero := by
    rintro ⟨-, hzero⟩
    rw [blocks_afterFull] at hzero
    exact absurd hzero (by decide)
  obtain ⟨failure, hrefused, hviolation, -⟩ :=
    (request_is_refused_within_a_lap (reached_afterFull 65535) (Memory.storage {}) "a" "octet"
      {}).1 hpositive hother
  exact ⟨reached_afterFull 65535, hpositive, hother, failure, hrefused, hviolation⟩

/-- After a lap of blocks a request is acknowledged as if no block had been written. -/
theorem request_is_acknowledged_after_a_lap :
    Reached (afterFull 65536).1 ∧ (afterFull 65536).1.blocks = 65536 ∧
      (afterFull 65536).1.phase = .receiving 0 ∧
      (afterFull 65536).1.step (Memory.storage {}) (.writeRequest "a" "octet") {} =
        ((afterFull 65536).1, .ok (.reply (.ack 0)), {}) := by
  have hphase : (afterFull 65536).1.phase = .receiving 0 := phase_afterFull 65536
  have hopened : (afterFull 65536).1.phase ≠ .new := by
    rw [hphase]
    nofun
  have hzero : (afterFull 65536).1.AtZero := ⟨⟨0, hphase⟩, by rw [blocks_afterFull]⟩
  exact ⟨reached_afterFull 65536, blocks_afterFull 65536, hphase,
    (step_request (reached_afterFull 65536) hopened _ _ _ _).1 hzero⟩

end Session

end TftpUpload
