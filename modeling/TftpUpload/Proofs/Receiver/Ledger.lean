/-
  TftpUpload/Proofs/Receiver/Ledger.lean
  ======================================
  **A session agrees with what its storage has been given.**

  Beside a session a ledger is kept: the calls that the storage has had, and the
  payloads that the session gave it to write, by whether all of the payload was
  taken.  The packets may come in any order.  The storage may be another one at
  every packet, and in any state, so it fails as it likes and whatever it holds
  may change from packet to packet.

  `step_does` lists all that a packet can do to a session in any phase, and
  `Agrees` is what holds after any packets whatsoever: the counters, the number
  acknowledged last and what the storage holds tell the same blocks.  It speaks of
  a session that has failed as well.  A block whose flush fails is written and
  counts, and a block that is torn does not count; since the session has failed
  then, there is one of these at most, and what is left of it comes last.
-/
import TftpUpload.Proofs.Receiver.Session
import TftpUpload.Storage.Memory

namespace TftpUpload

open Wire Transfer Storage

namespace Session

variable {σ κ : Type}

/-! ### Ledgers

A ledger is written by an observer who sees the calls and the packets, and it is not looked at by
the session. -/

structure Ledger where
  calls : List Call := []
  /-- The payloads whose write succeeded, first to last. -/
  written : List Bytes := []
  /-- The payloads whose write failed. -/
  torn : List Bytes := []

/-- The ledger with the calls up to now, and a payload with whether its write succeeded. -/
def Ledger.note (l : Ledger) (calls : List Call) : Option (Bytes × Bool) → Ledger
  | none => { l with calls }
  | some (payload, true) => { l with calls, written := l.written ++ [payload] }
  | some (payload, false) => { l with calls, torn := l.torn ++ [payload] }

def due? (s : Session κ) : Message → Option (κ × Bytes)
  | .data block payload =>
    match s.phase, s.destination with
    | .receiving last, some k => if block = last + 1 then some (k, payload) else none
    | _, _ => none
  | _ => none

/-- The payload that the packet brings to be written, with whether the write succeeds. -/
def written? (st : Storage σ κ) (s : Session κ) (m : Message) (store : σ) : Option (Bytes × Bool) :=
  (s.due? m).map fun (k, payload) => (payload, (st.writeAll k payload store).1.isOk)

/-- A session after some packets, with its ledger. -/
inductive History : Session κ → Ledger → Prop where
  | new : History {} {}
  | step {s : Session κ} {l : Ledger} (before : History s l) {σ : Type} (st : Storage σ κ)
      (store : σ) (m : Message) (fits : m.Fits) :
    History (s.step st.recorded m (store, l.calls)).1
      (l.note (s.step st.recorded m (store, l.calls)).2.2.2
        (s.written? st.recorded m (store, l.calls)))

/-! ### What a packet does

A packet opens a session, brings the block that is due, makes the session fail, or changes
nothing. -/

variable {s s' : Session κ} {m : Message} {l : Ledger}

/-- The phase and the destination after a payload has been written. -/
inductive Next (block : UInt16) (payload : Bytes) : Phase → Option κ → Prop where
  | more (k : κ) (full : blockSize ≤ payload.length) :
    Next block payload (.receiving block) (some k)
  | last (short : payload.length < blockSize) : Next block payload (.complete block) none
  | unflushed (short : payload.length < blockSize) : Next block payload .failed none

/-- All that a packet can do to a session: the session that follows, the payload that was
written, and the calls of the storage. -/
inductive Does (s : Session κ) (m : Message) :
    Session κ → Option (Bytes × Bool) → List Call → Prop where
  | stays : Does s m s none []
  | fails : Does s m s.fail none []
  | opens {name mode : String} (new : s.phase = .new) (request : m = .writeRequest name mode)
      (k : κ) :
    Does s m { s with phase := .receiving 0, destination := some k, filename := some name } none
      [.create name true]
  | unopened {name mode : String} (new : s.phase = .new) (request : m = .writeRequest name mode) :
    Does s m s.fail none [.create name false]
  | writes {last : UInt16} {payload : Bytes} {k : κ} {phase : Phase} {destination : Option κ}
      {uses : List Call} (receiving : s.phase = .receiving last)
      (due : m = .data (last + 1) payload) (only : ∀ c ∈ uses, c.isUse)
      (whole : stored uses = payload) (next : Next (last + 1) payload phase destination) :
    Does s m { s.counted k (last + 1) payload with phase, destination } (some (payload, true)) uses
  | tears {last : UInt16} {payload : Bytes} {writes : List Call}
      (receiving : s.phase = .receiving last) (due : m = .data (last + 1) payload)
      (only : ∀ c ∈ writes, c.isWrite) (within : stored writes <+: payload)
      (proper : stored writes ≠ payload) :
    Does s m s.fail (some (payload, false)) writes

theorem due?_eq_some_iff {k : κ} {payload : Bytes} : s.due? m = some (k, payload) ↔
    ∃ last, s.phase = .receiving last ∧ s.destination = some k ∧ m = .data (last + 1) payload := by
  constructor
  · intro h
    cases m with
    | data block bytes =>
      unfold due? at h
      dsimp only at h
      split at h
      · rename_i last k' hphase hdestination
        obtain ⟨hblock, hpair⟩ := Option.ite_none_right_eq_some.1 h
        cases hpair
        exact ⟨last, hphase, hdestination, by rw [hblock]⟩
      · cases h
    | _ => cases h
  · rintro ⟨last, hphase, hdestination, rfl⟩
    simp only [due?, hphase, hdestination, if_true]

/-- A packet that brings nothing to write or to open leaves the session and the storage alone. -/
theorem advance_idle (st : Storage σ κ) (idle : s.due? m = none)
    (opened : s.phase = .new → ∀ name mode, m ≠ .writeRequest name mode) (store : σ) :
    ∃ answer, s.advance st m store = (s, answer, store) := by
  unfold advance
  split
  · exact ⟨_, rfl⟩
  · rename_i name mode hnew
    exact absurd rfl (opened hnew name mode)
  · split <;> exact ⟨_, rfl⟩
  · rename_i last block payload hphase
    split
    · exact ⟨_, rfl⟩
    · split
      · rename_i hblock
        subst hblock
        -- only a closed destination keeps the block that is due from being written
        have hclosed : s.destination = none := by
          cases hdestination : s.destination with
          | none => rfl
          | some k =>
            rw [due?_eq_some_iff.2 ⟨last, hphase, hdestination, rfl⟩] at idle
            cases idle
        exact ⟨.error (.protocol "destination is closed"), by simp only [write, hclosed]⟩
      · exact ⟨_, rfl⟩
  · split <;> exact ⟨_, rfl⟩
  · exact ⟨_, rfl⟩

theorem open_does (st : Storage σ κ) (new : s.phase = .new) (name mode : String) (store : σ)
    (calls : List Call) :
    ∃ added, (s.step st.recorded (.writeRequest name mode) (store, calls)).2.2.2 = calls ++ added ∧
      Does s (.writeRequest name mode)
        (s.step st.recorded (.writeRequest name mode) (store, calls)).1 none added := by
  have hadvance : s.advance st.recorded (.writeRequest name mode) (store, calls) =
      s.accept st.recorded name (store, calls) := by
    simp only [advance, new]
  obtain ⟨s', answer, store', added, haccept, haccepted⟩ := accept_accepted st s name store calls
  rw [haccept] at hadvance
  cases haccepted with
  | created k =>
    rw [step_of_ok hadvance]
    exact ⟨_, rfl, .opens new rfl k⟩
  | uncreated refusal =>
    rw [step_of_error hadvance]
    have hfail : ({ s with phase := .opening } : Session κ).fail = s.fail := by
      simp only [fail, new]
    rw [hfail]
    exact ⟨_, rfl, .unopened new rfl⟩

theorem write_does (st : Storage σ κ) {last : UInt16} {k : κ}
    (receiving : s.phase = .receiving last) (opened : s.destination = some k) (payload : Bytes)
    (store : σ) (calls : List Call) :
    ∃ added, (s.step st.recorded (.data (last + 1) payload) (store, calls)).2.2.2 = calls ++ added ∧
      Does s (.data (last + 1) payload)
        (s.step st.recorded (.data (last + 1) payload) (store, calls)).1
        (some (payload, (st.recorded.writeAll k payload (store, calls)).1.isOk)) added := by
  have hne : last + 1 ≠ last := by simp
  have hadvance : s.advance st.recorded (.data (last + 1) payload) (store, calls) =
      s.write st.recorded (last + 1) payload (store, calls) := by
    simp only [advance, receiving, if_neg hne, if_true]
  obtain ⟨s', answer, store', writes, added, hwrite, hwrites, hwritten⟩ :=
    write_written st opened (last + 1) payload store calls
  rw [hwrite] at hadvance
  revert hwrites hwritten
  generalize (st.recorded.writeAll k payload (store, calls)).1 = result
  intro hwrites hwritten
  have huses : ∀ c ∈ writes, c.isUse := fun c hc => Call.isUse_of_isWrite (hwrites.only c hc)
  have hflushed : ∀ done, ∀ c ∈ writes ++ [.flush done], c.isUse := by
    intro done c hc
    rcases List.mem_append.1 hc with hc | hc
    · exact huses c hc
    · rw [List.mem_singleton.1 hc]
      rfl
  cases hwritten with
  | torn fault =>
    rw [step_of_error hadvance]
    exact ⟨_, rfl, .tears receiving rfl hwrites.only hwrites.within (hwrites.torn rfl)⟩
  | more k' full =>
    rw [step_of_ok hadvance]
    exact ⟨_, rfl, .writes receiving rfl huses (hwrites.whole rfl) (.more k' full)⟩
  | last k' short =>
    rw [step_of_ok hadvance]
    refine ⟨_, rfl, .writes receiving rfl (hflushed true) ?_ (.last short)⟩
    simp [Call.accepted, hwrites.whole rfl]
  | unflushed k' short fault =>
    rw [step_of_error hadvance]
    have hfail : (s.counted k' (last + 1) payload).fail =
        { s.counted k' (last + 1) payload with phase := .failed, destination := none } := by
      simp only [fail, counted, receiving]
    dsimp only
    rw [hfail]
    refine ⟨_, rfl, .writes receiving rfl (hflushed false) ?_ (.unflushed short)⟩
    simp [Call.accepted, hwrites.whole rfl]

/-- Whatever the packet and the phase, a step is one of those that are listed. -/
theorem step_does (st : Storage σ κ) (s : Session κ) (m : Message) (store : σ) (calls : List Call) :
    ∃ added, (s.step st.recorded m (store, calls)).2.2.2 = calls ++ added ∧
      Does s m (s.step st.recorded m (store, calls)).1 (s.written? st.recorded m (store, calls))
        added := by
  cases hdue : s.due? m with
  | some due =>
    obtain ⟨k, payload⟩ := due
    obtain ⟨last, receiving, opened, rfl⟩ := due?_eq_some_iff.1 hdue
    rw [written?, hdue]
    exact write_does st receiving opened payload store calls
  | none =>
    rw [written?, hdue]
    by_cases hopens : s.phase = .new ∧ ∃ name mode, m = .writeRequest name mode
    · obtain ⟨new, name, mode, rfl⟩ := hopens
      exact open_does st new name mode store calls
    · obtain ⟨answer, hadvance⟩ := advance_idle st.recorded hdue
        (fun new name mode request => hopens ⟨new, name, mode, request⟩) (store, calls)
      cases answer with
      | ok answer =>
        rw [step_of_ok hadvance]
        exact ⟨[], (List.append_nil _).symm, .stays⟩
      | error failure =>
        rw [step_of_error hadvance]
        exact ⟨[], (List.append_nil _).symm, .fails⟩

/-! ### Agreement -/

/-- What a storage holds behind the payloads that were written, if these payloads were torn. -/
inductive Remnant : List Bytes → Bytes → Prop where
  | none : Remnant [] []
  | torn {payload part : Bytes} (within : part <+: payload) (proper : part ≠ payload) :
    Remnant [payload] part

structure Counts (s : Session κ) (l : Ledger) : Prop where
  blocks : s.blocks = l.written.length
  bytes : s.bytes = l.written.flatten.length
  lastAcked : s.lastAcked = number l.written.length
  filename : ∀ name, s.filename = some name ↔ .create name true ∈ l.calls

structure Agrees (s : Session κ) (l : Ledger) : Prop extends Counts s l where
  notOpening : s.phase ≠ .opening
  new : s.phase = .new → l.written = [] ∧ s.filename = none
  receiving : ∀ last, s.phase = .receiving last → last = s.lastAcked ∧ Full l.written
  complete : ∀ last, s.phase = .complete last → last = s.lastAcked ∧ Finished l.written
  destination : s.destination.isSome ↔ ∃ last, s.phase = .receiving last
  /-- Unless the session has failed, the storage holds what was written and nothing else. -/
  whole : s.phase ≠ .failed → l.torn = [] ∧ stored l.calls = l.written.flatten
  failed : s.phase = .failed →
    ∃ part, Remnant l.torn part ∧ stored l.calls = l.written.flatten ++ part

theorem agrees_new : Agrees ({} : Session κ) {} where
  blocks := rfl
  bytes := rfl
  lastAcked := rfl
  filename _ := ⟨nofun, nofun⟩
  notOpening := nofun
  new _ := ⟨rfl, rfl⟩
  receiving := nofun
  complete := nofun
  destination := ⟨nofun, nofun⟩
  whole _ := ⟨rfl, rfl⟩
  failed := nofun

/-- Of a session that has failed, no more is asked than its counters and what is stored. -/
theorem Counts.agrees_failed (h : Counts s l) {part : Bytes} (remnant : Remnant l.torn part)
    (holds : stored l.calls = l.written.flatten ++ part) :
    Agrees ({ s with phase := .failed, destination := none } : Session κ) l where
  blocks := h.blocks
  bytes := h.bytes
  lastAcked := h.lastAcked
  filename := h.filename
  notOpening := nofun
  new := nofun
  receiving := nofun
  complete := nofun
  destination := ⟨nofun, nofun⟩
  whole going := absurd rfl going
  failed _ := ⟨part, remnant, holds⟩

variable {added : List Call} {last : UInt16} {payload : Bytes}

/-- Calls that create nothing and store nothing change nothing. -/
theorem Agrees.note_none (h : Agrees s l) (nothing : stored added = [])
    (noCreate : ∀ name, .create name true ∉ added) :
    Agrees s (l.note (l.calls ++ added) none) where
  blocks := h.blocks
  bytes := h.bytes
  lastAcked := h.lastAcked
  filename name := by
    rw [h.filename]
    simp [Ledger.note, noCreate]
  notOpening := h.notOpening
  new := h.new
  receiving := h.receiving
  complete := h.complete
  destination := h.destination
  whole going := by
    rw [Ledger.note, stored_append, nothing, List.append_nil]
    exact h.whole going
  failed failed := by
    rw [Ledger.note, stored_append, nothing, List.append_nil]
    exact h.failed failed

/-- A session that fails keeps its counters, and its storage keeps what it holds. -/
theorem Agrees.fail (h : Agrees s l) : Agrees s.fail l := by
  unfold Session.fail
  split
  · exact h
  · by_cases hfailed : s.phase = .failed
    · obtain ⟨part, hremnant, hholds⟩ := h.failed hfailed
      exact h.toCounts.agrees_failed hremnant hholds
    · obtain ⟨htorn, hstored⟩ := h.whole hfailed
      have hremnant : Remnant l.torn [] := by
        rw [htorn]
        exact .none
      exact h.toCounts.agrees_failed hremnant (by rw [hstored, List.append_nil])

theorem Agrees.opens (h : Agrees s l) (new : s.phase = .new) (name : String) (k : κ) :
    Agrees { s with phase := .receiving 0, destination := some k, filename := some name }
      (l.note (l.calls ++ [.create name true]) none) := by
  obtain ⟨hwritten, hfilename⟩ := h.new new
  have hlast : s.lastAcked = 0 := by
    rw [h.lastAcked, hwritten]
    rfl
  -- nothing has been created before, for else the session would have a name
  have hfirst : ∀ other, .create other true ∉ l.calls := by
    intro other hother
    have := (h.filename other).2 hother
    rw [hfilename] at this
    cases this
  have hfull : Full l.written := hwritten ▸ full_nil
  have hgoing : s.phase ≠ .failed := by simp [new]
  have hwhole := h.whole hgoing
  exact
    { blocks := h.blocks
      bytes := h.bytes
      lastAcked := h.lastAcked
      filename := fun other => by simp [Ledger.note, hfirst, eq_comm]
      notOpening := by simp
      new := by simp
      receiving := by
        rintro _ ⟨⟩
        exact ⟨hlast.symm, hfull⟩
      complete := by simp
      destination := by simp
      whole := fun _ => by simpa [Ledger.note, Call.accepted] using hwhole
      failed := by simp }

/-- A block that is written is counted. -/
theorem Counts.note_written (h : Counts s l) (only : ∀ c ∈ added, c.isUse)
    (hlast : last = s.lastAcked) (k : κ) (payload : Bytes) :
    Counts (s.counted k (last + 1) payload) (l.note (l.calls ++ added) (some (payload, true))) where
  blocks := by simp [counted, Ledger.note, h.blocks]
  bytes := by simp [counted, Ledger.note, h.bytes]
  lastAcked := by simp [counted, Ledger.note, hlast, h.lastAcked, number_succ]
  filename name := by
    have hnoCreate : .create name true ∉ added := by
      intro hname
      cases only _ hname
    simpa [counted, Ledger.note, hnoCreate] using h.filename name

/-- The block that is due counts once it is written, whatever becomes of the session. -/
theorem Agrees.writes (h : Agrees s l) {k : κ} {phase : Phase} {destination : Option κ}
    (receiving : s.phase = .receiving last) (fits : payload.length ≤ blockSize)
    (only : ∀ c ∈ added, c.isUse) (whole : stored added = payload)
    (next : Next (last + 1) payload phase destination) :
    Agrees { s.counted k (last + 1) payload with phase, destination }
      (l.note (l.calls ++ added) (some (payload, true))) := by
  obtain ⟨hlast, hfull⟩ := h.receiving last receiving
  obtain ⟨htorn, hstored⟩ := h.whole (by simp [receiving])
  have hcounts := h.toCounts.note_written only hlast k payload
  have hwhole : stored (l.calls ++ added) = (l.written ++ [payload]).flatten := by
    rw [stored_append, hstored, whole, List.flatten_append, List.flatten_singleton]
  cases next with
  | more k' full =>
    exact
      { blocks := hcounts.blocks
        bytes := hcounts.bytes
        lastAcked := hcounts.lastAcked
        filename := hcounts.filename
        notOpening := by simp
        new := by simp
        receiving := by
          rintro _ ⟨⟩
          exact ⟨rfl, hfull.concat (Nat.le_antisymm fits full)⟩
        complete := by simp
        destination := by simp
        whole := fun _ => ⟨htorn, hwhole⟩
        failed := by simp }
  | last short =>
    exact
      { blocks := hcounts.blocks
        bytes := hcounts.bytes
        lastAcked := hcounts.lastAcked
        filename := hcounts.filename
        notOpening := by simp
        new := by simp
        receiving := by simp
        complete := by
          rintro _ ⟨⟩
          exact ⟨rfl, l.written, payload, rfl, hfull, short⟩
        destination := by simp
        whole := fun _ => ⟨htorn, hwhole⟩
        failed := by simp }
  | unflushed short =>
    have hremnant : Remnant l.torn [] := by
      rw [htorn]
      exact .none
    exact hcounts.agrees_failed hremnant (by rw [List.append_nil]; exact hwhole)

/-- A block that is torn does not count, and what was stored of it comes last. -/
theorem Agrees.tears (h : Agrees s l) (receiving : s.phase = .receiving last)
    (only : ∀ c ∈ added, c.isWrite) (within : stored added <+: payload)
    (proper : stored added ≠ payload) :
    Agrees s.fail (l.note (l.calls ++ added) (some (payload, false))) := by
  obtain ⟨htorn, hstored⟩ := h.whole (by simp [receiving])
  have hfail : s.fail = { s with phase := .failed, destination := none } := by
    simp only [Session.fail, receiving]
  have hcounts : Counts s (l.note (l.calls ++ added) (some (payload, false))) := by
    refine ⟨h.blocks, h.bytes, h.lastAcked, ?_⟩
    intro name
    have hnoCreate : .create name true ∉ added := by
      intro hname
      cases only _ hname
    simpa [Ledger.note, hnoCreate] using h.filename name
  have hremnant : Remnant (l.torn ++ [payload]) (stored added) := by
    rw [htorn]
    exact .torn within proper
  rw [hfail]
  exact hcounts.agrees_failed hremnant (by rw [Ledger.note, stored_append, hstored])

/-- A step keeps the agreement. -/
theorem Does.agrees {attempt : Option (Bytes × Bool)} (does : Does s m s' attempt added)
    (h : Agrees s l) (fits : m.Fits) : Agrees s' (l.note (l.calls ++ added) attempt) := by
  cases does with
  | stays => exact h.note_none rfl (by simp)
  | fails => exact h.fail.note_none rfl (by simp)
  | opens new request k => exact h.opens new _ k
  | unopened new request => exact h.fail.note_none rfl (by simp)
  | writes receiving due only whole next => exact h.writes receiving (fits _ _ due) only whole next
  | tears receiving due only within proper => exact h.tears receiving only within proper

/-- After any packets whatsoever, and whatever its storages have made of what they were asked, a
session agrees with its ledger. -/
theorem agrees_with_ledger (h : History s l) : Agrees s l := by
  induction h with
  | new => exact agrees_new
  | step before st store m fits ih =>
    obtain ⟨added, hcalls, hdoes⟩ := step_does st _ m store _
    rw [hcalls]
    exact hdoes.agrees ih fits

/-- A disk with room for one byte more than the first block tears the second: one block counts, and
a byte of the second is left behind it. -/
theorem second_block_is_torn : ∃ (s : Session String) (l : Ledger), History s l ∧ Agrees s l ∧
    s.phase = .failed ∧ s.blocks = 1 ∧ l.written = [List.replicate 512 7] ∧ l.torn = [[1, 2]] ∧
    stored l.calls = List.replicate 512 7 ++ [1] := by
  have hfull : (Message.data 1 (List.replicate 512 7)).Fits := by
    rintro _ _ ⟨⟩
    exact Nat.le_of_eq List.length_replicate
  have hshort : (Message.data 2 [1, 2]).Fits := by
    rintro _ _ ⟨⟩
    decide
  have hopened := History.new.step (Memory.storage { capacity := some 513 }) {}
    (.writeRequest "a" "octet") nofun
  have hfirst := hopened.step (Memory.storage { capacity := some 513 })
    { files := [{ name := "a" }] } _ hfull
  have hsecond := hfirst.step (Memory.storage { capacity := some 513 })
    { files := [{ name := "a", content := .ofBytes (List.replicate 512 7) }] } _ hshort
  exact ⟨_, _, hsecond, agrees_with_ledger hsecond, by decide +kernel, by decide +kernel,
    by decide +kernel, by decide +kernel, by decide +kernel⟩

end Session

end TftpUpload
