/-
  TftpUpload/Proofs/Receiver/Filed.lean
  =====================================
  **A reception into a directory, with its file undisturbed.**

  Others may change the directory between two steps of a reception.  As long as
  nobody else writes to the file that it has made, this file holds the blocks
  that have come in order, until the reception ends well or fails
  (`react_files`); and one that has failed does not end well any more
  (`react_failed`).
-/
import TftpUpload.Proofs.Receiver.AllOrNothing
import TftpUpload.Proofs.Receiver.Confined

namespace TftpUpload

open Wire Transfer Storage FileSystem

variable {σ κ : Type} {name : String} {file : Nat} {blocks : List Bytes} {fs fs' : FileSystem}

/-! ### Sessions

A packet that is not the block that is due leaves the session with the same blocks, or makes it
fail. -/

namespace Session

/-- A packet that does not bring the block that is due is acknowledged again, or is the end. -/
theorem step_not_due (st : Storage σ κ) {s : Session κ} (h : s.Receives name blocks) {m : Message}
    (notDue : ∀ payload, m ≠ .data (number (blocks.length + 1)) payload) (store : σ) :
    (∃ block, s.step st m store = (s, .ok (.reply (.ack block)), store)) ∨
      ∃ failure, s.step st m store = (s.fail, .error failure, store) := by
  have hends : (∃ failure, s.advance st m store = (s, .error failure, store)) →
      ∃ failure, s.step st m store = (s.fail, .error failure, store) :=
    fun ⟨failure, hadvance⟩ => ⟨failure, step_of_error hadvance⟩
  cases m with
  | writeRequest filename mode =>
    by_cases hzero : number blocks.length = 0
    · exact .inl ⟨0, step_of_ok (by simp only [advance, h.phase, hzero, if_true])⟩
    · refine .inr (hends ?_)
      simp only [advance, h.phase, if_neg hzero]
      exact ⟨_, rfl⟩
  | data n payload =>
    by_cases hn : n = number blocks.length
    · exact .inl ⟨n, step_of_ok (by simp only [advance, h.phase, hn, if_true])⟩
    · have hnext : n ≠ number (blocks.length + 1) := fun hnext => notDue payload (by rw [hnext])
      refine .inr (hends ?_)
      simp only [advance, h.phase, number_succ, if_neg hn, if_neg hnext]
      exact ⟨_, rfl⟩
  | readRequest _ _ | ack _ | error _ _ =>
    refine .inr (hends ?_)
    simp only [advance, h.phase]
    exact ⟨_, rfl⟩

variable {s : Session OpenFile}

structure Fills (name : String) (file : Nat) (blocks : List Bytes) (s : Session OpenFile) : Prop
    extends Receives name blocks s where
  handle : s.destination = some ⟨file, blocks.flatten.length⟩

/-- The block that is due is written at the end of the file. -/
theorem Fills.step_due (d : Directory) (h : s.Fills name file blocks) {payload : Bytes}
    (hfits : payload.length ≤ blockSize)
    (holds : fs.fileBytes file = blocks.flatten) :
    ∃ s' answer fs',
      s.step d.storage (.data (number (blocks.length + 1)) payload) fs = (s', .ok answer, fs') ∧
      (fs' = fs ∨ ∃ c, fs' = fs.setContent file c) ∧
      fs'.fileBytes file = (blocks ++ [payload]).flatten ∧
      ((answer = .reply (.ack (number (blocks.length + 1))) ∧
          s'.Fills name file (blocks ++ [payload])) ∨
        (answer = .complete (.ack (number (blocks.length + 1))) ∧
          s'.Completed name (blocks ++ [payload]))) := by
  obtain ⟨fs', hchange, hbytes, hwrite⟩ :=
    write_cases d h.handle (number (blocks.length + 1)) payload fs
  have hflatten : (blocks ++ [payload]).flatten = blocks.flatten ++ payload := by simp
  have hholds : fs'.fileBytes file = (blocks ++ [payload]).flatten := by
    rw [hflatten, ← holds]
    exact hbytes (by rw [holds])
  have hcounted := h.toReceives.counted (⟨file, blocks.flatten.length + payload.length⟩ : OpenFile)
    payload
  have hadvance : s.advance d.storage (.data (number (blocks.length + 1)) payload) fs =
      s.write d.storage (number (blocks.length + 1)) payload fs := by
    simp only [advance, h.phase, number_succ, if_neg (number_ne_succ blocks.length).symm, if_true]
  rcases hwrite with ⟨hshort, hwrite⟩ | ⟨hfull, hwrite⟩
  · refine ⟨_, _, fs', step_of_ok (hadvance.trans hwrite), hchange, hholds, .inr ⟨rfl, ?_⟩⟩
    exact
      { filename := hcounted.filename
        lastAcked := hcounted.lastAcked
        count := hcounted.count
        size := hcounted.size
        phase := by simp
        finished := ⟨blocks, payload, rfl, h.full, hshort⟩ }
  · refine ⟨_, _, fs', step_of_ok (hadvance.trans hwrite), hchange, hholds, .inl ⟨rfl, ?_⟩⟩
    exact
      { filename := hcounted.filename
        lastAcked := hcounted.lastAcked
        count := hcounted.count
        size := hcounted.size
        phase := by simp
        destination := rfl
        full := h.full.concat (by omega)
        handle := by rw [hflatten, List.length_append]; rfl }

theorem made_fills (name : String) {k : OpenFile} (hzero : k.position = 0) :
    (made name k).Fills name k.id [] where
  filename := rfl
  lastAcked := rfl
  count := rfl
  size := rfl
  phase := rfl
  destination := rfl
  full := full_nil
  handle := by
    obtain ⟨id, position⟩ := k
    obtain rfl : position = 0 := hzero
    rfl

end Session

/-! ### Receptions

What the directory holds is looked at before and after a step; between two steps it may change in
any way that leaves this one file alone. -/

namespace Reception

/-- A reception that has not failed.  The blocks that have come in order are in its file. -/
inductive Files (name : String) (file : Nat) (blocks : List Bytes) : Status OpenFile → Prop where
  | waiting {r : Reception OpenFile} (session : r.session.Fills name file blocks) :
    Files name file blocks (.waiting r)
  | replying {packet : Bytes} {r : Reception OpenFile}
      (session : r.session.Fills name file blocks) :
    Files name file blocks (.replying packet r)
  | completing {packet : Bytes} {s : Session OpenFile} (session : s.Completed name blocks) :
    Files name file blocks (.completing packet s)
  | lingering {s : Session OpenFile} (session : s.Completed name blocks) :
    Files name file blocks (.lingering s ⟨name, blocks.length, blocks.flatten.length⟩)
  | repeating {packet : Bytes} {s : Session OpenFile} (session : s.Completed name blocks) :
    Files name file blocks (.repeating packet s ⟨name, blocks.length, blocks.flatten.length⟩)
  | ended (finished : Finished blocks) :
    Files name file blocks (.ended (.ok ⟨name, blocks.length, blocks.flatten.length⟩))

inductive Failed : Status κ → Prop where
  | parting (packet : Bytes) (failure : Failure) (created : Option String) :
    Failed (.parting packet failure created)
  | ended (failure : Failure) : Failed (.ended (.error failure))

theorem abandon_failed (st : Storage σ κ) (failure : Failure) (created : Option String)
    (store : σ) : Failed (abandon st failure created store).1 := by
  rw [abandon_ended]
  exact .ended failure

theorem fail_failed (st : Storage σ κ) (failure : Failure) (s : Session κ) (store : σ) :
    Failed (fail st failure s store).1 := by
  unfold fail
  split
  · exact .parting _ _ _
  · exact abandon_failed st _ _ _

/-- A reception that has failed does not recover. -/
theorem react_failed (st : Storage σ κ) {status : Status κ} (h : Failed status) (store : σ)
    (input : Input) : Failed (react st (status, store) input).1.1 := by
  cases h with
  | parting packet failure created =>
    cases input with
    | arrival a => exact .parting packet failure created
    | verdict v => exact abandon_failed st failure created store
  | ended failure => cases input <;> exact .ended failure

def FilesOrFailed (name : String) (file : Nat) (blocks : List Bytes) (fs : FileSystem)
    (state : State FileSystem OpenFile) : Prop :=
  (Files name file blocks state.1 ∧ (state.2 = fs ∨ ∃ c, state.2 = fs.setContent file c) ∧
    state.2.fileBytes file = blocks.flatten) ∨ Failed state.1

theorem feed_files (d : Directory) {s : Session OpenFile} (h : s.Fills name file blocks)
    (holds : fs.fileBytes file = blocks.flatten) (maxRetries : Nat) {m : Message}
    (hfits : m.Fits) :
    FilesOrFailed name file (extend blocks m) fs (feed d.storage maxRetries s m fs).1 := by
  by_cases hdue : ∃ payload, m = .data (number (blocks.length + 1)) payload
  · obtain ⟨payload, rfl⟩ := hdue
    obtain ⟨s', answer, fs', hstep, hchange, hholds, ⟨rfl, hnext⟩ | ⟨rfl, hnext⟩⟩ :=
      h.step_due d (hfits _ _ rfl) holds
    all_goals
      obtain ⟨datagram, hdatagram⟩ := packet_ack (number (blocks.length + 1))
      rw [h.full.extend_next]
      simp only [feed, hstep]
    · rw [answer_reply _ _ _ hdatagram]
      exact .inl ⟨.replying hnext, hchange, hholds⟩
    · rw [answer_complete _ _ _ hdatagram]
      exact .inl ⟨.completing hnext, hchange, hholds⟩
  · have notDue : ∀ payload, m ≠ .data (number (blocks.length + 1)) payload :=
      fun payload hm => hdue ⟨payload, hm⟩
    rw [extend_of_ne notDue]
    rcases Session.step_not_due d.storage h.toReceives notDue fs with
      ⟨block, hstep⟩ | ⟨failure, hstep⟩
    · obtain ⟨datagram, hdatagram⟩ := packet_ack block
      simp only [feed, hstep]
      rw [answer_reply _ _ _ hdatagram]
      exact .inl ⟨.replying h, .inl rfl, holds⟩
    · simp only [feed, hstep]
      exact .inr (fail_failed _ _ _ _)

theorem silence_files (d : Directory) (r : Reception OpenFile)
    (h : r.session.Fills name file blocks) (holds : fs.fileBytes file = blocks.flatten) :
    FilesOrFailed name file blocks fs (silence d.storage r fs) := by
  unfold silence
  dsimp only
  split
  · exact .inr (fail_failed _ _ _ _)
  · split
    · exact .inl ⟨.replying h, .inl rfl, holds⟩
    · exact .inr (fail_failed _ _ _ _)

theorem linger_files (d : Directory) {s : Session OpenFile} (h : s.Completed name blocks)
    (holds : fs.fileBytes file = blocks.flatten) (a : Arrival) :
    FilesOrFailed name file blocks fs
      (linger d.storage s ⟨name, blocks.length, blocks.flatten.length⟩ a fs) := by
  have hends : FilesOrFailed name file blocks fs
      (.ended (.ok ⟨name, blocks.length, blocks.flatten.length⟩), fs) :=
    .inl ⟨.ended h.finished, .inl rfl, holds⟩
  unfold linger
  split
  · rename_i m _
    rcases Session.step_completed d.storage h m fs with ⟨-, hstep⟩ | ⟨failure, hstep⟩
    · obtain ⟨datagram, hdatagram⟩ := packet_ack (number blocks.length)
      simp only [hstep, hdatagram]
      exact .inl ⟨.repeating h, .inl rfl, holds⟩
    · simp only [hstep]
      exact hends
  · exact hends

def Status.taken (status : Status κ) (input : Input) : List Input :=
  match status.demand, input with
  | .arrival, .arrival _ => [input]
  | .send _, .verdict _ => [input]
  | _, _ => []

theorem arrive_files (d : Directory) {status : Status OpenFile}
    (h : Files name file blocks status) (holds : fs.fileBytes file = blocks.flatten)
    (demand : status.demand = .arrival) (a : Arrival) :
    FilesOrFailed name file (heard blocks a) fs (Status.arrive d.storage (status, fs) a).1 := by
  cases h with
  | @waiting r session =>
    simp only [Status.arrive, arrive]
    cases hread : a.read with
    | message m =>
      simp only [heard, hread]
      exact feed_files d session holds _ (fits_of_read hread)
    | silence =>
      simp only [heard, hread]
      exact silence_files d r session holds
    | failure failure =>
      simp only [heard, hread]
      exact .inr (fail_failed _ _ _ _)
  | lingering session =>
    rw [session.finished.heard_eq a]
    simp only [Status.arrive]
    exact linger_files d session holds a
  | replying | completing | repeating | ended => cases demand

theorem settle_files (d : Directory) {status : Status OpenFile}
    (h : Files name file blocks status) (holds : fs.fileBytes file = blocks.flatten)
    (v : Verdict) :
    FilesOrFailed name file blocks fs (Status.settle d.storage (status, fs) v).1 := by
  cases h with
  | waiting session => exact .inl ⟨.waiting session, .inl rfl, holds⟩
  | replying session =>
    cases v with
    | ok _ => exact .inl ⟨.waiting session, .inl rfl, holds⟩
    | error fault => exact .inr (fail_failed _ (.transport fault) _ _)
  | @completing _ s session =>
    cases v with
    | ok _ =>
      simp only [Status.settle, session.summary_eq]
      exact .inl ⟨.lingering session, .inl rfl, holds⟩
    | error fault => exact .inr (fail_failed _ (.transport fault) s _)
  | lingering session => exact .inl ⟨.lingering session, .inl rfl, holds⟩
  | repeating session =>
    cases v with
    | ok _ => exact .inl ⟨.lingering session, .inl rfl, holds⟩
    | error fault => exact .inl ⟨.ended session.finished, .inl rfl, holds⟩
  | ended finished => exact .inl ⟨.ended finished, .inl rfl, holds⟩

theorem arrive_of_demand_ne (st : Storage σ κ) {status : Status κ} (h : status.demand ≠ .arrival)
    (store : σ) (a : Arrival) : (Status.arrive st (status, store) a).1 = (status, store) := by
  cases status with
  | waiting | lingering => exact absurd rfl h
  | replying | completing | repeating | parting | ended => rfl

/-- Whatever a reception is told, its file holds the blocks that have come in order, unless it
has failed. -/
theorem react_files (d : Directory) {inputs : List Input} {status : Status OpenFile}
    (h : Files name file (blocksIn inputs) status)
    (holds : fs.fileBytes file = (blocksIn inputs).flatten) (input : Input) :
    FilesOrFailed name file (blocksIn (inputs ++ status.taken input)) fs
      (react d.storage (status, fs) input).1 := by
  cases input with
  | arrival a =>
    simp only [react, Status.taken]
    split
    · rename_i hdemand _
      rw [blocksIn_arrival]
      exact arrive_files d h holds hdemand a
    · cases ‹Input.arrival a = Input.verdict _›
    · rename_i hdemand _
      rw [List.append_nil, arrive_of_demand_ne _ fun h => hdemand _ h rfl]
      exact .inl ⟨h, .inl rfl, holds⟩
  | verdict v =>
    have hblocks : blocksIn (inputs ++ status.taken (.verdict v)) = blocksIn inputs := by
      unfold Status.taken
      split
      · cases ‹Input.verdict v = Input.arrival _›
      · exact blocksIn_verdict inputs v
      · rw [List.append_nil]
    rw [hblocks]
    exact settle_files d h holds v

end Reception

end TftpUpload
