/-
  TftpUpload/Proofs/Receiver/Session.lean
  =======================================
  **What one packet does to a session.**

  A session is described by the blocks that it has written: `Receives` while
  more are to come, `Completed` after the last.  `step_receiving`, `step_new`
  and `step_completed` say, for each packet, all that it can lead to: the state
  that follows, the answer, and the calls of the storage.  Later proofs use
  these and do not look into the session again.
-/
import TftpUpload.Proofs.Storage.Recorded
import TftpUpload.Proofs.Transfer.Order
import TftpUpload.Proofs.Wire.Canonical
import TftpUpload.Receiver.Session

namespace TftpUpload

open Wire Transfer Storage

namespace Session

variable {σ κ : Type} {name : String} {blocks : List Bytes} {s : Session κ}

/-! ### Sessions by their blocks -/

structure Holds (name : String) (blocks : List Bytes) (s : Session κ) : Prop where
  filename : s.filename = some name
  lastAcked : s.lastAcked = number blocks.length
  count : s.blocks = blocks.length
  size : s.bytes = blocks.flatten.length

structure Receives (name : String) (blocks : List Bytes) (s : Session κ) : Prop
    extends Holds name blocks s where
  phase : s.phase = .receiving (number blocks.length)
  destination : s.destination.isSome
  full : Full blocks

structure Completed (name : String) (blocks : List Bytes) (s : Session κ) : Prop
    extends Holds name blocks s where
  phase : s.phase = .complete (number blocks.length)
  finished : Finished blocks

theorem Holds.summary_eq (h : s.Holds name blocks) :
    s.summary = ⟨name, blocks.length, blocks.flatten.length⟩ := by
  simp only [summary, h.filename, Option.getD_some, h.count, h.size]

theorem Holds.repetition_eq (h : s.Holds name blocks) :
    s.repetition = .ack (number blocks.length) := by
  simp only [repetition, h.lastAcked]

@[simp]
theorem filename_fail (s : Session κ) : s.fail.filename = s.filename := by
  unfold fail
  split <;> rfl

/-! ### Packets by what they ask for

A packet is put into its class without the session's phase.  Only the blocks that have been written
count. -/

/-- The packet asks for the acknowledgement of the last of `blocks` once more. -/
def Repeats (blocks : List Bytes) : Message → Prop
  | .writeRequest _ _ => number blocks.length = 0
  | .data n _ => n = number blocks.length
  | _ => False

/-- The packet is a repetition, the block that is due, or an ERROR. -/
def Expected (blocks : List Bytes) (m : Message) : Prop :=
  Repeats blocks m ∨ (∃ payload, m = .data (number (blocks.length + 1)) payload) ∨
    ∃ code text, m = .error code text

/-! ### Steps

Each case lists the calls that are made in it, in their order, as they cannot be told from the state
that follows. -/

theorem step_of_ok {st : Storage σ κ} {m : Message} {store store' : σ} {s' : Session κ}
    {answer : Step} (h : s.advance st m store = (s', .ok answer, store')) :
    s.step st m store = (s', .ok answer, store') := by
  simp only [step, h]

theorem step_of_error {st : Storage σ κ} {m : Message} {store store' : σ} {s' : Session κ}
    {failure : Failure} (h : s.advance st m store = (s', .error failure, store')) :
    s.step st m store = (s'.fail, .error failure, store') := by
  simp only [step, h]

/-- What a packet does to a session that has written `blocks` and waits for more.  `calls` are
the calls that the storage has had before. -/
inductive Takes (name : String) (blocks : List Bytes) (s : Session κ) (m : Message)
    (calls : List Call) : Session κ → Except Failure Step → List Call → Prop where
  /-- A repetition is acknowledged again. -/
  | again (repeats : Repeats blocks m) :
    Takes name blocks s m calls s (.ok (.reply (.ack (number blocks.length)))) calls
  /-- The block that is due is written. -/
  | wrote {payload : Bytes} {s' : Session κ} {writes : List Call}
      (due : m = .data (number (blocks.length + 1)) payload)
      (only : ∀ c ∈ writes, c.isWrite) (whole : stored writes = payload)
      (next : s'.Receives name (blocks ++ [payload])) :
    Takes name blocks s m calls s' (.ok (.reply (.ack (number (blocks.length + 1)))))
      (calls ++ writes)
  /-- The last block is written and flushed. -/
  | finished {payload : Bytes} {s' : Session κ} {writes : List Call}
      (due : m = .data (number (blocks.length + 1)) payload)
      (only : ∀ c ∈ writes, c.isWrite) (whole : stored writes = payload)
      (next : s'.Completed name (blocks ++ [payload])) :
    Takes name blocks s m calls s' (.ok (.complete (.ack (number (blocks.length + 1)))))
      (calls ++ writes ++ [.flush true])
  /-- The storage fails with the block that is due. -/
  | lost {payload : Bytes} {s' : Session κ} {uses : List Call} {fault : Fault}
      (due : m = .data (number (blocks.length + 1)) payload)
      (only : ∀ c ∈ uses, c.isUse) (within : stored uses <+: payload)
      (filename : s'.filename = some name) :
    Takes name blocks s m calls s' (.error (writeFailed fault)) (calls ++ uses)
  /-- Anything else ends the session; it is a violation unless the peer reports an error. -/
  | refused {s' : Session κ} {failure : Failure}
      (notDue : ∀ payload, m ≠ .data (number (blocks.length + 1)) payload)
      (violation : failure.isViolation → ¬ Expected blocks m)
      (filename : s'.filename = some name) :
    Takes name blocks s m calls s' (.error failure) calls

theorem Receives.counted (h : s.Receives name blocks) (k : κ) (payload : Bytes) :
    (s.counted k (number (blocks.length + 1)) payload).Holds name (blocks ++ [payload]) where
  filename := h.filename
  lastAcked := by simp [Session.counted]
  count := by simp [Session.counted, h.count]
  size := by simp [Session.counted, h.size]

/-- All that writing a block comes to when the destination is open.  `result` is what became of
the payload, and `writes` are the calls that this took. -/
inductive Written (s : Session κ) (block : UInt16) (payload : Bytes) (writes : List Call) :
    Except Fault κ → Session κ → Except Failure Step → List Call → Prop where
  | torn (fault : Fault) :
    Written s block payload writes (.error fault) s (.error (writeFailed fault)) writes
  | more (k : κ) (full : blockSize ≤ payload.length) :
    Written s block payload writes (.ok k)
      { s.counted k block payload with phase := .receiving block } (.ok (.reply (.ack block)))
      writes
  | last (k : κ) (short : payload.length < blockSize) :
    Written s block payload writes (.ok k)
      { s.counted k block payload with phase := .complete block, destination := none }
      (.ok (.complete (.ack block))) (writes ++ [.flush true])
  /-- The block counts as written, though the session fails. -/
  | unflushed (k : κ) (short : payload.length < blockSize) (fault : Fault) :
    Written s block payload writes (.ok k) (s.counted k block payload)
      (.error (writeFailed fault)) (writes ++ [.flush false])

theorem write_written (st : Storage σ κ) {k : κ} (opened : s.destination = some k) (block : UInt16)
    (payload : Bytes) (store : σ) (calls : List Call) :
    ∃ s' answer store' writes added,
      s.write st.recorded block payload (store, calls) = (s', answer, store', calls ++ added) ∧
      WritesOf payload (st.recorded.writeAll k payload (store, calls)).1 writes ∧
      Written s block payload writes (st.recorded.writeAll k payload (store, calls)).1 s' answer
        added := by
  obtain ⟨writes, hcalls, hwrites⟩ := recorded_writeAll st k payload store calls
  revert hcalls hwrites
  generalize hall : st.recorded.writeAll k payload (store, calls) = all
  obtain ⟨result, store₁, calls₁⟩ := all
  rintro (rfl : calls₁ = calls ++ writes) hwrites
  cases result with
  | error fault =>
    refine ⟨_, _, store₁, writes, writes, ?_, hwrites, .torn fault⟩
    simp only [write, opened, hall]
  | ok k' =>
    by_cases hshort : payload.length < blockSize
    · -- the last block: it counts before it is flushed
      cases hflush : (st.flush k' store₁).1 with
      | error fault =>
        refine ⟨_, _, (st.flush k' store₁).2, writes, _, ?_, hwrites, .unflushed k' hshort fault⟩
        simp only [write, opened, hall, if_pos hshort, recorded_flush, hflush, ← List.append_assoc]
        rfl
      | ok _ =>
        refine ⟨_, _, (st.flush k' store₁).2, writes, _, ?_, hwrites, .last k' hshort⟩
        simp only [write, opened, hall, if_pos hshort, recorded_flush, hflush, ← List.append_assoc]
        rfl
    · refine ⟨_, _, store₁, writes, writes, ?_, hwrites, .more k' (Nat.le_of_not_lt hshort)⟩
      simp only [write, opened, hall, if_neg hshort]

theorem write_due (st : Storage σ κ) (h : s.Receives name blocks) {payload : Bytes}
    (hfits : payload.length ≤ blockSize) (store : σ) (calls : List Call) :
    ∃ s' answer store' calls',
      s.step st.recorded (.data (number (blocks.length + 1)) payload) (store, calls) =
        (s', answer, store', calls') ∧
      Takes name blocks s (.data (number (blocks.length + 1)) payload) calls s' answer calls' := by
  obtain ⟨k, hk⟩ := Option.isSome_iff_exists.1 h.destination
  have hadvance : s.advance st.recorded (.data (number (blocks.length + 1)) payload) (store, calls)
      = s.write st.recorded (number (blocks.length + 1)) payload (store, calls) := by
    simp only [advance, h.phase, number_succ, if_neg (number_ne_succ blocks.length).symm, if_true]
  obtain ⟨s', answer, store', writes, added, hwrite, hwrites, hwritten⟩ :=
    write_written st hk (number (blocks.length + 1)) payload store calls
  rw [hwrite] at hadvance
  revert hwrites hwritten
  generalize (st.recorded.writeAll k payload (store, calls)).1 = result
  intro hwrites hwritten
  have huses : ∀ c ∈ writes, c.isUse := fun c hc => Call.isUse_of_isWrite (hwrites.only c hc)
  cases hwritten with
  | torn fault =>
    exact ⟨_, _, _, _, step_of_error hadvance,
      .lost rfl huses hwrites.within (by simpa using h.filename)⟩
  | more k' hfull =>
    have hholds := h.counted k' payload
    refine ⟨_, _, _, _, step_of_ok hadvance, .wrote rfl hwrites.only (hwrites.whole rfl) ?_⟩
    exact
      { filename := hholds.filename
        lastAcked := hholds.lastAcked
        count := hholds.count
        size := hholds.size
        phase := by simp
        destination := rfl
        full := h.full.concat (Nat.le_antisymm hfits hfull) }
  | last k' hshort =>
    have hholds := h.counted k' payload
    rw [← List.append_assoc] at hadvance
    refine ⟨_, _, _, _, step_of_ok hadvance, .finished rfl hwrites.only (hwrites.whole rfl) ?_⟩
    exact
      { filename := hholds.filename
        lastAcked := hholds.lastAcked
        count := hholds.count
        size := hholds.size
        phase := by simp
        finished := ⟨blocks, payload, rfl, h.full, hshort⟩ }
  | unflushed k' hshort fault =>
    refine ⟨_, _, _, _, step_of_error hadvance,
      .lost rfl ?_ ?_ (by simpa using (h.counted k' payload).filename)⟩
    · intro c hc
      rcases List.mem_append.1 hc with hc | hc
      · exact huses c hc
      · rw [List.mem_singleton.1 hc]
        rfl
    · simp [Call.accepted, hwrites.whole rfl]

/-- All that a packet can do to a session that waits for more blocks. -/
theorem step_receiving (st : Storage σ κ) (h : s.Receives name blocks) {m : Message}
    (hfits : m.Fits) (store : σ) (calls : List Call) :
    ∃ s' answer store' calls',
      s.step st.recorded m (store, calls) = (s', answer, store', calls') ∧
      Takes name blocks s m calls s' answer calls' := by
  by_cases hdue : ∃ payload, m = .data (number (blocks.length + 1)) payload
  · obtain ⟨payload, rfl⟩ := hdue
    exact write_due st h (hfits _ _ rfl) store calls
  · have hnot : ∀ payload, m ≠ .data (number (blocks.length + 1)) payload :=
      fun payload hm => hdue ⟨payload, hm⟩
    by_cases hrepeats : Repeats blocks m
    · refine ⟨s, _, store, calls, step_of_ok ?_, .again hrepeats⟩
      cases m with
      | writeRequest filename mode =>
        have hzero : number blocks.length = 0 := hrepeats
        simp only [advance, h.phase, hzero, if_true]
      | data n payload =>
        have hn : n = number blocks.length := hrepeats
        simp only [advance, h.phase, hn, if_true]
      | readRequest _ _ => exact hrepeats.elim
      | ack _ => exact hrepeats.elim
      | error _ _ => exact hrepeats.elim
    · by_cases herror : ∃ code text, m = .error code text
      · obtain ⟨code, text, rfl⟩ := herror
        refine ⟨s.fail, .error (.remote code text), store, calls, step_of_error ?_,
          .refused hnot ?_ ?_⟩
        · simp only [advance]
        · intro hviolation
          cases hviolation
        · simpa using h.filename
      · have hunexpected : ¬ Expected blocks m := by
          rintro (hm | hm | hm)
          · exact hrepeats hm
          · exact hdue hm
          · exact herror hm
        -- whatever is left breaks the rules
        have hadvance : ∃ failure, s.advance st.recorded m (store, calls) =
            (s, .error failure, store, calls) := by
          cases m with
          | writeRequest filename mode =>
            have hzero : number blocks.length ≠ 0 := hrepeats
            exact ⟨.unexpected (.writeRequest filename mode) s.phase.label, by
              simp only [advance, h.phase, if_neg hzero]⟩
          | data n payload =>
            have hn : n ≠ number blocks.length := hrepeats
            have hn' : n ≠ number (blocks.length + 1) := fun hn' => hnot payload (by rw [hn'])
            exact ⟨unexpectedBlock (number (blocks.length + 1)) n, by
              simp only [advance, h.phase, number_succ, if_neg hn, if_neg hn']⟩
          | readRequest filename mode =>
            exact ⟨.unexpected (.readRequest filename mode) s.phase.label, by
              simp only [advance, h.phase]⟩
          | ack n =>
            exact ⟨.unexpected (.ack n) s.phase.label, by simp only [advance, h.phase]⟩
          | error code text => exact absurd ⟨code, text, rfl⟩ herror
        obtain ⟨failure, hfailure⟩ := hadvance
        exact ⟨s.fail, .error failure, store, calls, step_of_error hfailure,
          .refused hnot (fun _ => hunexpected) (by simpa using h.filename)⟩

/-- All that opening a destination comes to. -/
inductive Accepted (s : Session κ) (filename : String) :
    Session κ → Except Failure Step → List Call → Prop where
  | created (k : κ) :
    Accepted s filename
      { s with phase := .receiving 0, destination := some k, filename := some filename }
      (.ok (.reply (.ack 0))) [.create filename true]
  | uncreated (refusal : Refusal) :
    Accepted s filename { s with phase := .opening }
      (.error (.rejected refusal.code refusal.message)) [.create filename false]

theorem accept_accepted (st : Storage σ κ) (s : Session κ) (filename : String) (store : σ)
    (calls : List Call) :
    ∃ s' answer store' added,
      s.accept st.recorded filename (store, calls) = (s', answer, store', calls ++ added) ∧
      Accepted s filename s' answer added := by
  cases hcreate : (st.create filename store).1 with
  | error refusal =>
    refine ⟨_, _, (st.create filename store).2, _, ?_, .uncreated refusal⟩
    simp only [accept, recorded_create, hcreate]
    rfl
  | ok k =>
    refine ⟨_, _, (st.create filename store).2, _, ?_, .created k⟩
    simp only [accept, recorded_create, hcreate]
    rfl

/-- What the opening packet does. -/
inductive Opens (m : Message) (calls : List Call) :
    Session κ → Except Failure Step → List Call → Prop where
  | created {name mode : String} {s' : Session κ} (request : m = .writeRequest name mode)
      (next : s'.Receives name []) :
    Opens m calls s' (.ok (.reply (.ack 0))) (calls ++ [.create name true])
  | uncreated {name mode : String} {s' : Session κ} {failure : Failure}
      (request : m = .writeRequest name mode) (lawful : failure.isViolation = false)
      (filename : s'.filename = none) :
    Opens m calls s' (.error failure) (calls ++ [.create name false])
  | refused {s' : Session κ} {failure : Failure}
      (violation : failure.isViolation → ¬ ∃ code text, m = .error code text)
      (request : ∀ name mode, m ≠ .writeRequest name mode) (filename : s'.filename = none) :
    Opens m calls s' (.error failure) calls

theorem step_new (st : Storage σ κ) (m : Message) (store : σ) (calls : List Call) :
    ∃ s' answer store' calls',
      Session.step st.recorded ({} : Session κ) m (store, calls) = (s', answer, store', calls') ∧
      Opens m calls s' answer calls' := by
  cases m with
  | writeRequest filename mode =>
    have hadvance : advance st.recorded ({} : Session κ) (.writeRequest filename mode)
        (store, calls) = accept st.recorded {} filename (store, calls) := rfl
    obtain ⟨s', answer, store', added, haccept, haccepted⟩ :=
      accept_accepted st {} filename store calls
    rw [haccept] at hadvance
    cases haccepted with
    | uncreated refusal => exact ⟨_, _, _, _, step_of_error hadvance, .uncreated rfl rfl rfl⟩
    | created k =>
      refine ⟨_, _, _, _, step_of_ok hadvance, .created rfl ?_⟩
      exact
        { filename := rfl
          lastAcked := rfl
          count := rfl
          size := rfl
          phase := rfl
          destination := rfl
          full := full_nil }
  | error code text =>
    exact ⟨_, _, _, _, rfl, .refused nofun nofun rfl⟩
  | readRequest _ _ => exact ⟨_, _, _, _, rfl, .refused (fun _ => nofun) nofun rfl⟩
  | data _ _ => exact ⟨_, _, _, _, rfl, .refused (fun _ => nofun) nofun rfl⟩
  | ack _ => exact ⟨_, _, _, _, rfl, .refused (fun _ => nofun) nofun rfl⟩

/-- A complete session repeats its last acknowledgement for the block that it is the acknowledgement
of, and refuses all else.  Nothing happens to it. -/
theorem step_of_complete (st : Storage σ κ) {last : UInt16} (complete : s.phase = .complete last)
    (m : Message) (store : σ) :
    ((∃ payload, m = .data last payload) ∧
        s.step st m store = (s, .ok (.reply (.ack last)), store)) ∨
      ((∀ payload, m ≠ .data last payload) ∧
        ∃ failure, s.step st m store = (s, .error failure, store)) := by
  have hfail : s.fail = s := by simp only [fail, complete]
  have hrefused : ∀ failure, s.advance st m store = (s, .error failure, store) →
      ∃ failure, s.step st m store = (s, .error failure, store) := by
    intro failure hadvance
    exact ⟨failure, by rw [step_of_error hadvance, hfail]⟩
  have hunexpected : s.advance st m store = (s, .error (.unexpected m s.phase.label), store) →
      ∃ failure, s.step st m store = (s, .error failure, store) := hrefused _
  cases m with
  | data n payload =>
    by_cases hn : n = last
    · refine .inl ⟨⟨payload, by rw [hn]⟩, step_of_ok ?_⟩
      simp only [advance, complete, hn, if_true]
    · refine .inr ⟨?_, hunexpected (by simp only [advance, complete, if_neg hn])⟩
      rintro _ ⟨⟩
      exact hn rfl
  | error code text => exact .inr ⟨nofun, hrefused (.remote code text) (by simp only [advance])⟩
  | readRequest _ _ => exact .inr ⟨nofun, hunexpected (by simp only [advance, complete])⟩
  | writeRequest _ _ => exact .inr ⟨nofun, hunexpected (by simp only [advance, complete])⟩
  | ack _ => exact .inr ⟨nofun, hunexpected (by simp only [advance, complete])⟩

theorem step_completed (st : Storage σ κ) (h : s.Completed name blocks) (m : Message) (store : σ) :
    ((∃ payload, m = .data (number blocks.length) payload) ∧
        s.step st m store = (s, .ok (.reply (.ack (number blocks.length))), store)) ∨
      ∃ failure, s.step st m store = (s, .error failure, store) :=
  (step_of_complete st h.phase m store).imp_right And.right

end Session

end TftpUpload
