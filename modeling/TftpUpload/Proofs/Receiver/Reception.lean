/-
  TftpUpload/Proofs/Receiver/Reception.lean
  =========================================
  **Where a reception stands, and what it has done to its storage.**

  `Stands` ties every status of a reception to the blocks that have come in
  order and to the calls its storage has had: one destination created, the
  blocks written to it, a flush after the last, and a discard exactly when the
  reception has failed.  `Refused` is a reception that never had a destination.
  Whatever arrives and whatever the endpoint says, a reception goes from one
  such standing to another (`arrive_stands`, `settle_stands`).  An
  acknowledgement that is sent is that of the last block in order, and of the
  packet that it answers (`Answers`).
-/
import TftpUpload.Proofs.Receiver.Session
import TftpUpload.Receiver.Reception

namespace TftpUpload

open Wire Transfer Storage

namespace Reception

variable {σ κ : Type} {violated : Prop} {name : String} {blocks : List Bytes}

/-! ### What a storage has been asked to do

Writes may be torn, so the bytes that a destination has been given need not end with a block. -/

structure Written (name : String) (blocks : List Bytes) (calls : List Call) : Prop where
  shape : ∃ writes, calls = .create name true :: writes ∧ (∀ c ∈ writes, c.isWrite) ∧
    stored writes = blocks.flatten

structure Filed (name : String) (blocks : List Bytes) (calls : List Call) : Prop where
  shape : ∃ writes, calls = .create name true :: (writes ++ [.flush true]) ∧
    (∀ c ∈ writes, c.isWrite) ∧ stored writes = blocks.flatten

structure Touched (name : String) (blocks : List Bytes) (calls : List Call) : Prop where
  shape : ∃ uses, calls = .create name true :: uses ∧ (∀ c ∈ uses, c.isUse) ∧
    stored uses <+: blocks.flatten

theorem Written.touched {calls : List Call} (h : Written name blocks calls) :
    Touched name blocks calls := by
  obtain ⟨writes, hcalls, honly, hstored⟩ := h
  exact ⟨writes, hcalls, fun c hc => Call.isUse_of_isWrite (honly c hc), hstored ▸ List.prefix_rfl⟩

theorem Filed.touched {calls : List Call} (h : Filed name blocks calls) :
    Touched name blocks calls := by
  obtain ⟨writes, hcalls, honly, hstored⟩ := h
  refine ⟨_, hcalls, ?_, ?_⟩
  · intro c hc
    rcases List.mem_append.1 hc with hc | hc
    · exact Call.isUse_of_isWrite (honly c hc)
    · rw [List.mem_singleton.1 hc]
      rfl
  · simp [Call.accepted, hstored]

def Rejected (calls : List Call) : Prop := calls = [] ∨ ∃ filename, calls = [.create filename false]

theorem Rejected.stored_eq {calls : List Call} (h : Rejected calls) : stored calls = [] := by
  rcases h with rfl | ⟨filename, rfl⟩ <;> rfl

/-! ### Standings

The blocks are those of the packets that have come.  A standing says for each status which calls
they have led to, and later proofs know no more of a reception. -/

def Status.reply? : Status κ → Option Bytes
  | replying packet _ => some packet
  | completing packet _ => some packet
  | repeating packet _ _ => some packet
  | _ => none

def Status.session? : Status κ → Option (Session κ)
  | waiting r => some r.session
  | replying _ r => some r.session
  | completing _ session => some session
  | lingering session _ => some session
  | repeating _ session _ => some session
  | _ => none

/-- A reception into `name` for which `blocks` have come in order.  Where it has failed, the last
of them may be the one with which it failed, and a violation was its reason only if `violated`
holds. -/
inductive Stands (violated : Prop) (name : String) (blocks : List Bytes) :
    State (σ × List Call) κ → Prop where
  | waiting {r : Reception κ} {store : σ} {calls : List Call}
      (session : r.session.Receives name blocks) (written : Written name blocks calls) :
    Stands violated name blocks (.waiting r, store, calls)
  | replying {datagram : Bytes} {r : Reception κ} {store : σ} {calls : List Call}
      (carries : packet (.ack (number blocks.length)) = .ok datagram)
      (session : r.session.Receives name blocks) (written : Written name blocks calls) :
    Stands violated name blocks (.replying datagram r, store, calls)
  | completing {datagram : Bytes} {s : Session κ} {store : σ} {calls : List Call}
      (carries : packet (.ack (number blocks.length)) = .ok datagram)
      (session : s.Completed name blocks) (filed : Filed name blocks calls) :
    Stands violated name blocks (.completing datagram s, store, calls)
  | lingering {s : Session κ} {store : σ} {calls : List Call}
      (session : s.Completed name blocks) (filed : Filed name blocks calls) :
    Stands violated name blocks
      (.lingering s ⟨name, blocks.length, blocks.flatten.length⟩, store, calls)
  | repeating {datagram : Bytes} {s : Session κ} {store : σ} {calls : List Call}
      (carries : packet (.ack (number blocks.length)) = .ok datagram)
      (session : s.Completed name blocks) (filed : Filed name blocks calls) :
    Stands violated name blocks
      (.repeating datagram s ⟨name, blocks.length, blocks.flatten.length⟩, store, calls)
  | succeeded {store : σ} {calls : List Call} (finished : Finished blocks)
      (filed : Filed name blocks calls) :
    Stands violated name blocks
      (.ended (.ok ⟨name, blocks.length, blocks.flatten.length⟩), store, calls)
  | parting {datagram : Bytes} {failure : Failure} {store : σ} {calls : List Call}
      (farewell : failure.farewell = some datagram) (lawful : failure.isViolation → violated)
      (touched : Touched name blocks calls) :
    Stands violated name blocks (.parting datagram failure (some name), store, calls)
  | failed {failure : Failure} {store : σ} {calls : List Call}
      (lawful : failure.isViolation → violated) (touched : Touched name blocks calls) :
    Stands violated name blocks (.ended (.error failure), store, calls ++ [.discard name])

/-- Whatever has come, the destination was created and used; where the reception has failed, it was
then removed. -/
theorem Stands.touched {status : Status κ} {store : σ} {calls : List Call}
    (h : Stands violated name blocks (status, store, calls)) :
    ∃ before, Touched name blocks before ∧ (calls = before ∨
      calls = before ++ [.discard name] ∧ ∃ failure, status = .ended (.error failure)) := by
  cases h with
  | waiting _ written => exact ⟨_, written.touched, .inl rfl⟩
  | replying _ _ written => exact ⟨_, written.touched, .inl rfl⟩
  | completing _ _ filed => exact ⟨_, filed.touched, .inl rfl⟩
  | lingering _ filed => exact ⟨_, filed.touched, .inl rfl⟩
  | repeating _ _ filed => exact ⟨_, filed.touched, .inl rfl⟩
  | succeeded _ filed => exact ⟨_, filed.touched, .inl rfl⟩
  | parting _ _ touched => exact ⟨_, touched, .inl rfl⟩
  | failed _ touched => exact ⟨_, touched, .inr ⟨rfl, _, rfl⟩⟩

/-! ### What a standing says about the file -/

section File

variable {status : Status κ} {store : σ} {calls : List Call}

/-- The destination is there. -/
theorem Stands.created (h : Stands violated name blocks (status, store, calls)) :
    .create name true ∈ calls := by
  obtain ⟨before, ⟨uses, rfl, -, -⟩, rfl | ⟨rfl, -⟩⟩ := h.touched <;> simp

theorem Written.stored_eq (h : Written name blocks calls) : stored calls = blocks.flatten := by
  obtain ⟨writes, rfl, -, hstored⟩ := h
  simpa [Call.accepted] using hstored

theorem Filed.stored_eq (h : Filed name blocks calls) : stored calls = blocks.flatten := by
  obtain ⟨writes, rfl, -, hstored⟩ := h
  simp [Call.accepted, hstored]

theorem Touched.stored_isPrefix (h : Touched name blocks calls) :
    stored calls <+: blocks.flatten := by
  obtain ⟨uses, rfl, -, hstored⟩ := h
  simpa [Call.accepted] using hstored

theorem Stands.stored_isPrefix (h : Stands violated name blocks (status, store, calls)) :
    stored calls <+: blocks.flatten := by
  obtain ⟨before, htouched, rfl | ⟨rfl, -⟩⟩ := h.touched
  · exact htouched.stored_isPrefix
  · rw [stored_append]
    simpa [Call.accepted] using htouched.stored_isPrefix

theorem Stands.session (h : Stands violated name blocks (status, store, calls)) {s : Session κ}
    (hs : status.session? = some s) :
    (s.Receives name blocks ∨ s.Completed name blocks) ∧ stored calls = blocks.flatten := by
  cases h with
  | waiting session written =>
    cases hs
    exact ⟨.inl session, written.stored_eq⟩
  | replying carries session written =>
    cases hs
    exact ⟨.inl session, written.stored_eq⟩
  | completing carries session filed =>
    cases hs
    exact ⟨.inr session, filed.stored_eq⟩
  | lingering session filed =>
    cases hs
    exact ⟨.inr session, filed.stored_eq⟩
  | repeating carries session filed =>
    cases hs
    exact ⟨.inr session, filed.stored_eq⟩
  | succeeded finished filed => cases hs
  | parting farewell lawful touched => cases hs
  | failed lawful touched => cases hs

end File

/-! ### Refusals -/

/-- A reception that has failed before it had a destination. -/
inductive Refused (violated : Prop) : State (σ × List Call) κ → Prop where
  | parting {datagram : Bytes} {failure : Failure} {store : σ} {calls : List Call}
      (farewell : failure.farewell = some datagram) (lawful : failure.isViolation → violated)
      (rejected : Rejected calls) :
    Refused violated (.parting datagram failure none, store, calls)
  | ended {failure : Failure} {store : σ} {calls : List Call}
      (lawful : failure.isViolation → violated) (rejected : Rejected calls) :
    Refused violated (.ended (.error failure), store, calls)

/-! ### Failing

A failure drops the session, and tells the storage to remove what has been created. -/

theorem abandon_stands (st : Storage σ κ) {failure : Failure} {calls : List Call} (store : σ)
    (lawful : failure.isViolation → violated) (touched : Touched name blocks calls) :
    Stands violated name blocks (abandon st.recorded failure (some name) (store, calls)) := by
  simp only [abandon, recorded_discard]
  exact .failed lawful touched

theorem fail_stands (st : Storage σ κ) {failure : Failure} {s : Session κ} {calls : List Call}
    (store : σ) (lawful : failure.isViolation → violated) (filename : s.filename = some name)
    (touched : Touched name blocks calls) :
    Stands violated name blocks (fail st.recorded failure s (store, calls)) := by
  unfold fail
  split
  · rename_i datagram hfarewell
    rw [filename]
    exact .parting hfarewell lawful touched
  · rw [filename]
    exact abandon_stands st store lawful touched

theorem fail_refused (st : Storage σ κ) {failure : Failure} {s : Session κ} {calls : List Call}
    (store : σ) (lawful : failure.isViolation → violated) (filename : s.filename = none)
    (rejected : Rejected calls) :
    Refused violated (fail st.recorded failure s (store, calls)) := by
  unfold fail
  split
  · rename_i datagram hfarewell
    rw [filename]
    exact .parting hfarewell lawful rejected
  · rw [filename]
    exact .ended lawful rejected

theorem reply?_fail (st : Storage σ κ) (failure : Failure) (s : Session κ) (store : σ) :
    (fail st failure s store).1.reply? = none := by
  unfold fail
  split
  · rfl
  · rw [abandon_ended]
    rfl

/-! ### Arrivals

What a session makes of a packet has been said by cases (`feed_feeds`).  Here each of them is looked
at with the blocks and the calls. -/

/-- An acknowledgement that is sent after an arrival follows silence, or is that of the packet
that has arrived. -/
def Answers (a : Arrival) (blocks : List Bytes) (status : Status κ) : Prop :=
  ∀ datagram, status.reply? = some datagram →
    a.read = .silence ∨ ∃ m, a.read = .message m ∧ m.number? = some (number blocks.length)

theorem answers_of_none {a : Arrival} {status : Status κ} (h : status.reply? = none) :
    Answers a blocks status := by
  intro datagram hreply
  rw [h] at hreply
  cases hreply

theorem lawful_writeFailed (fault : Fault) :
    (Session.writeFailed fault).isViolation → violated := nofun

theorem answer_reply (st : Storage σ κ) (maxRetries : Nat) (s : Session κ) {m : Message}
    {datagram : Bytes} (h : packet m = .ok datagram) (store : σ) :
    answer st maxRetries s (.reply m) store = (.replying datagram ⟨s, 0, maxRetries⟩, store) := by
  unfold answer
  simp only
  rw [h]

theorem answer_complete (st : Storage σ κ) (maxRetries : Nat) (s : Session κ) {m : Message}
    {datagram : Bytes} (h : packet m = .ok datagram) (store : σ) :
    answer st maxRetries s (.complete m) store = (.completing datagram s, store) := by
  unfold answer
  simp only
  rw [h]

theorem feed_stands (st : Storage σ κ) {s : Session κ} (maxRetries : Nat)
    (session : s.Receives name blocks) {m : Message} (hfits : m.Fits) (store : σ)
    {calls : List Call} (written : Written name blocks calls)
    (lawful : violated ∨ Session.Expected blocks m) :
    Stands violated name (extend blocks m)
        (feed st.recorded maxRetries s m (store, calls)).1 ∧
      (∀ datagram, (feed st.recorded maxRetries s m (store, calls)).1.1.reply? = some datagram →
        m.number? = some (number (extend blocks m).length)) := by
  obtain ⟨writes, hcalls, honly, hstored⟩ := written.shape
  obtain ⟨s', answer, store', calls', hstep, htakes⟩ :=
    Session.step_receiving st session hfits store calls
  simp only [feed, hstep]
  cases htakes with
  | again repeats =>
    have hextend : extend blocks m = blocks := extend_of_ne fun payload hm => by
      subst hm
      exact number_ne_succ blocks.length repeats.symm
    obtain ⟨datagram, hdatagram⟩ := packet_ack (number blocks.length)
    simp only [answer_reply _ _ _ hdatagram, hextend]
    refine ⟨.replying hdatagram session written, ?_⟩
    intro _ _
    cases m with
    | writeRequest filename mode =>
      have hzero : number blocks.length = 0 := repeats
      rw [hzero]
      rfl
    | data n payload =>
      have hn : n = number blocks.length := repeats
      rw [hn]
      rfl
    | readRequest _ _ => exact repeats.elim
    | ack _ => exact repeats.elim
    | error _ _ => exact repeats.elim
  | @wrote payload _ more due only whole next =>
    subst due
    rw [session.full.extend_next]
    obtain ⟨datagram, hdatagram⟩ := packet_ack (number (blocks.length + 1))
    simp only [answer_reply _ _ _ hdatagram]
    have hlength : (blocks ++ [payload]).length = blocks.length + 1 := by simp
    refine ⟨.replying (hlength ▸ hdatagram) next ⟨writes ++ more, ?_, ?_, ?_⟩, ?_⟩
    · rw [hcalls, List.cons_append]
    · simpa using fun c hc => hc.elim (honly c) (only c)
    · simp [hstored, whole]
    · simp [Message.number?]
  | @finished payload _ more due only whole next =>
    subst due
    rw [session.full.extend_next]
    obtain ⟨datagram, hdatagram⟩ := packet_ack (number (blocks.length + 1))
    simp only [answer_complete _ _ _ hdatagram]
    have hlength : (blocks ++ [payload]).length = blocks.length + 1 := by simp
    refine ⟨.completing (hlength ▸ hdatagram) next ⟨writes ++ more, ?_, ?_, ?_⟩, ?_⟩
    · rw [hcalls, List.append_assoc, List.cons_append, List.append_assoc]
    · simpa using fun c hc => hc.elim (honly c) (only c)
    · simp [hstored, whole]
    · simp [Message.number?]
  | @lost payload _ uses fault due only within filename =>
    subst due
    rw [session.full.extend_next]
    have touched : Touched name (blocks ++ [payload]) (calls ++ uses) := by
      refine ⟨writes ++ uses, ?_, ?_, ?_⟩
      · rw [hcalls, List.cons_append]
      · intro c hc
        rcases List.mem_append.1 hc with hc | hc
        · exact Call.isUse_of_isWrite (honly c hc)
        · exact only c hc
      · rw [stored_append, hstored, List.flatten_append, List.flatten_singleton]
        exact (List.prefix_append_right_inj _).2 within
    simp only
    refine ⟨fail_stands st store' (lawful_writeFailed fault) filename touched, ?_⟩
    rw [reply?_fail]
    exact nofun
  | refused notDue violation filename =>
    rw [extend_of_ne notDue]
    refine ⟨fail_stands st store' ?_ filename written.touched, ?_⟩
    · intro hviolation
      exact lawful.resolve_right (violation hviolation)
    · rw [reply?_fail]
      exact nofun

theorem silence_stands (st : Storage σ κ) {r : Reception κ} {store : σ} {calls : List Call}
    (session : r.session.Receives name blocks) (written : Written name blocks calls) :
    Stands violated name blocks (silence st.recorded r (store, calls)) := by
  unfold silence
  simp only
  split
  · exact fail_stands st store nofun session.filename written.touched
  · obtain ⟨datagram, hdatagram⟩ := packet_ack (number blocks.length)
    rw [session.repetition_eq, hdatagram]
    exact .replying hdatagram session written

/-- Once a reception is done, an arrival leaves its file alone: either the last acknowledgement
is sent again, or the reception ends well. -/
theorem linger_stands (st : Storage σ κ) {s : Session κ} {store : σ} {calls : List Call}
    (session : s.Completed name blocks) (filed : Filed name blocks calls) (a : Arrival) :
    Stands violated name blocks (linger st.recorded s
        ⟨name, blocks.length, blocks.flatten.length⟩ a (store, calls)) ∧
      Answers a blocks (linger st.recorded s
        ⟨name, blocks.length, blocks.flatten.length⟩ a (store, calls)).1 := by
  have hends : Stands violated name blocks ((Status.ended (.ok
      ⟨name, blocks.length, blocks.flatten.length⟩) : Status κ), store, calls) :=
    .succeeded session.finished filed
  unfold linger
  split
  · rename_i m hread
    rcases Session.step_completed st.recorded session m (store, calls) with
      ⟨⟨payload, hm⟩, hstep⟩ | ⟨failure, hstep⟩
    · obtain ⟨datagram, hdatagram⟩ := packet_ack (number blocks.length)
      simp only [hstep, hdatagram]
      refine ⟨.repeating hdatagram session filed, fun _ _ => .inr ⟨m, hread, ?_⟩⟩
      rw [hm]
      rfl
    · simp only [hstep]
      exact ⟨hends, answers_of_none rfl⟩
  · exact ⟨hends, answers_of_none rfl⟩

/-- Whatever arrives, the reception stands where the blocks with the arrival put it. -/
theorem arrive_stands (st : Storage σ κ) {state : State (σ × List Call) κ}
    (h : Stands violated name blocks state) (demand : state.1.demand = .arrival) {a : Arrival}
    (expected : ∀ m, a.read = .message m → violated ∨ Session.Expected blocks m)
    (lawful : ∀ failure, a.read = .failure failure → failure.isViolation → violated) :
    Stands violated name (heard blocks a) (Status.arrive st.recorded state a).1 ∧
      Answers a (heard blocks a) (Status.arrive st.recorded state a).1.1 := by
  cases h with
  | @waiting r store calls session written =>
    simp only [Status.arrive, arrive]
    cases hread : a.read with
    | message m =>
      obtain ⟨hstands, hnumber⟩ := feed_stands st r.maxRetries session (fits_of_read hread)
        store written (expected m hread)
      simp only [heard, hread]
      exact ⟨hstands, fun datagram hreply => .inr ⟨m, hread, hnumber datagram hreply⟩⟩
    | silence =>
      simp only [heard, hread]
      exact ⟨silence_stands st session written, fun _ _ => .inl hread⟩
    | failure failure =>
      simp only [heard, hread]
      exact ⟨fail_stands st store (lawful failure hread) session.filename written.touched,
        answers_of_none (reply?_fail _ _ _ _)⟩
  | lingering session filed =>
    rw [session.finished.heard_eq a]
    exact linger_stands st session filed a
  | replying => cases demand
  | completing => cases demand
  | repeating => cases demand
  | succeeded => cases demand
  | parting => cases demand
  | failed => cases demand

/-! ### Verdicts

A failed reception removes its file after its ERROR has been given to the endpoint, whatever the
verdict on it. -/

theorem lawful_transport (fault : Fault) :
    (Failure.transport fault).isViolation → violated := nofun

theorem settle_stands (st : Storage σ κ) {state : State (σ × List Call) κ}
    (h : Stands violated name blocks state) (v : Verdict) :
    Stands violated name blocks (Status.settle st.recorded state v).1 := by
  cases h with
  | waiting session written => exact .waiting session written
  | replying carries session written =>
    cases v with
    | ok _ => exact .waiting session written
    | error fault =>
      exact fail_stands st _ (lawful_transport fault) session.filename written.touched
  | completing carries session filed =>
    cases v with
    | ok _ =>
      simp only [Status.settle, session.summary_eq]
      exact .lingering session filed
    | error fault =>
      exact fail_stands st _ (lawful_transport fault) session.filename filed.touched
  | lingering session filed => exact .lingering session filed
  | repeating carries session filed =>
    cases v with
    | ok _ => exact .lingering session filed
    | error fault => exact .succeeded session.finished filed
  | succeeded finished filed => exact .succeeded finished filed
  | parting farewell lawful touched => exact abandon_stands st _ lawful touched
  | failed lawful touched => exact .failed lawful touched

theorem settle_refused (st : Storage σ κ) {state : State (σ × List Call) κ}
    (h : Refused violated state) (v : Verdict) :
    Refused violated (Status.settle st.recorded state v).1 := by
  cases h with
  | parting farewell lawful rejected => exact .ended lawful rejected
  | ended lawful rejected => exact .ended lawful rejected

theorem Refused.demand_ne {state : State (σ × List Call) κ} (h : Refused violated state) :
    state.1.demand ≠ .arrival := by
  cases h <;> nofun

/-! ### The opening -/

/-- A request opens a reception that has no blocks yet; where no destination is created, it is
refused. -/
theorem start_stands (st : Storage σ κ) (request : Bytes) (settings : Settings) (store : σ)
    (lawful : ∀ e, decode request = .error e → violated)
    (expected : ∀ m, decode request = .ok m → violated ∨ (∃ filename mode,
      m = .writeRequest filename mode) ∨ ∃ code text, m = .error code text) :
    ((∃ filename mode, decode request = .ok (.writeRequest filename mode) ∧
        Stands violated filename [] (start st.recorded true request settings (store, []))) ∨
      Refused violated (start st.recorded true request settings (store, []))) ∧
    (∀ datagram, (start st.recorded true request settings (store, [])).1.reply? = some datagram →
      ∃ m, decode request = .ok m ∧ m.number? = some 0) := by
  unfold start
  rw [if_pos rfl]
  cases hdecode : decode request with
  | error e =>
    refine ⟨.inr (fail_refused st store (fun _ => lawful e hdecode) rfl (.inl rfl)), ?_⟩
    rw [reply?_fail]
    exact nofun
  | ok m =>
    obtain ⟨s', answer, store', calls', hstep, hopens⟩ := Session.step_new st m store []
    simp only [feed, hstep]
    cases hopens with
    | @created filename mode _ request next =>
      obtain ⟨datagram, hdatagram⟩ := packet_ack 0
      simp only [answer_reply _ _ _ hdatagram]
      subst request
      refine ⟨.inl ⟨filename, mode, rfl, .replying hdatagram next ⟨[], rfl, by simp, rfl⟩⟩, ?_⟩
      exact fun _ _ => ⟨_, rfl, rfl⟩
    | uncreated request lawful filename =>
      refine ⟨.inr (fail_refused st store' (by simp [lawful]) filename (.inr ⟨_, rfl⟩)), ?_⟩
      rw [reply?_fail]
      exact nofun
    | refused violation request filename =>
      refine ⟨.inr (fail_refused st store' ?_ filename (.inl rfl)), ?_⟩
      · intro hviolation
        rcases expected m hdecode with h | ⟨filename, mode, h⟩ | h
        · exact h
        · exact absurd h (request filename mode)
        · exact absurd h (violation hviolation)
      · rw [reply?_fail]
        exact nofun

end Reception

end TftpUpload
