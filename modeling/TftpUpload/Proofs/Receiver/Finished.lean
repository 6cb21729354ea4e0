/-
  TftpUpload/Proofs/Receiver/Finished.lean
  ========================================
  **What has ended stays as it ended.**

  A session goes on being fed after its end: the last block may come again while
  a reception lingers, and so may anything else.  A complete session answers its
  last block with the same acknowledgement as often as it comes, refuses all
  else, and stays complete in spite of what it refuses (`follow_complete`).  A
  session that has failed refuses everything (`follow_failed`); there the side
  condition is that its destination is closed, which holds because every failure
  closes it (`Reached.closed`).

  For a reception this means that nothing can harm it once its last
  acknowledgement has been sent.  `Dallies` says where it may then be, and what
  it has sent since: that acknowledgement, and once more for each time that the
  last block has come again.  The first other event ends it, and its result is
  the summary of the session that was complete.
-/
import Mathlib.Data.List.Forall2
import Mathlib.Data.List.Induction
import TftpUpload.Proofs.Receiver.AllOrNothing
import TftpUpload.Proofs.Receiver.Repetitions

namespace TftpUpload

open Wire Transfer Storage

/-! ### Sessions that have ended

A session ends in two ways, and in both it keeps its phase for good. -/

namespace Session

variable {σ κ : Type} {s s' : Session κ} {m : Message} {last : UInt16}

/-- What a complete session answers to a packet. -/
inductive Echoes (last : UInt16) : Message → Except Failure Step → Prop where
  | again (payload : Bytes) : Echoes last (.data last payload) (.ok (.reply (.ack last)))
  | refused {m : Message} (failure : Failure) (other : ∀ payload, m ≠ .data last payload) :
    Echoes last m (.error failure)

theorem step_echoes (st : Storage σ κ) (complete : s.phase = .complete last) (m : Message)
    (store : σ) : ∃ answer, s.step st m store = (s, answer, store) ∧ Echoes last m answer := by
  rcases step_of_complete st complete m store with
    ⟨⟨payload, rfl⟩, hstep⟩ | ⟨hother, failure, hstep⟩
  · exact ⟨_, hstep, .again payload⟩
  · exact ⟨_, hstep, .refused failure hother⟩

theorem follow_complete (st : Storage σ κ) (complete : s.phase = .complete last)
    (messages : List Message) (store : σ) :
    ∃ answers, s.follow st messages store = (s, answers, store) ∧
      List.Forall₂ (Echoes last) messages answers := by
  induction messages with
  | nil => exact ⟨[], rfl, .nil⟩
  | cons m messages ih =>
    obtain ⟨answer, hstep, hechoes⟩ := step_echoes st complete m store
    obtain ⟨answers, hfollow, hall⟩ := ih
    exact ⟨answer :: answers, by rw [follow_cons hstep, hfollow], .cons hechoes hall⟩

/-- A failure closes the destination. -/
theorem closed_of_fail (h : s.fail.phase = .failed) : s.fail.destination = none := by
  unfold fail at h ⊢
  split
  · rename_i last complete
    simp only [complete] at h
    cases h
  · rfl

theorem Does.closed {attempt : Option (Bytes × Bool)} {added : List Call}
    (does : Does s m s' attempt added) (h : s.phase = .failed → s.destination = none)
    (failed : s'.phase = .failed) : s'.destination = none := by
  cases does with
  | stays => exact h failed
  | fails => exact closed_of_fail failed
  | opens new request k => cases failed
  | unopened new request => exact closed_of_fail failed
  | tears receiving due only within proper => exact closed_of_fail failed
  | writes receiving due only whole next =>
    cases next with
    | more k full => cases failed
    | last short => cases failed
    | unflushed short => rfl

theorem Reached.closed (reached : Reached s) : s.phase = .failed → s.destination = none := by
  induction reached with
  | new => exact fun _ => rfl
  | @step s before σ st store m ih =>
    obtain ⟨added, -, hdoes⟩ := step_does st s m store []
    rw [step_recorded] at hdoes
    exact hdoes.closed ih

theorem step_of_failed (st : Storage σ κ) (failed : s.phase = .failed)
    (closed : s.destination = none) (m : Message) (store : σ) :
    ∃ failure, s.step st m store = (s, .error failure, store) := by
  have hfail : s.fail = s := by
    obtain ⟨phase, destination, filename, lastAcked, blocks, bytes⟩ := s
    subst failed closed
    rfl
  obtain ⟨failure, hadvance⟩ : ∃ failure, s.advance st m store = (s, .error failure, store) := by
    cases hm : m with
    | error code text => exact ⟨.remote code text, by simp only [advance]⟩
    | readRequest | writeRequest | data | ack =>
      exact ⟨.unexpected m s.phase.label, by simp only [advance, failed, hm]⟩
  exact ⟨failure, by rw [step_of_error hadvance, hfail]⟩

theorem follow_failed (st : Storage σ κ) (failed : s.phase = .failed)
    (closed : s.destination = none) (messages : List Message) (store : σ) :
    ∃ failures : List Failure, s.follow st messages store = (s, failures.map .error, store) ∧
      failures.length = messages.length := by
  induction messages with
  | nil => exact ⟨[], rfl, rfl⟩
  | cons m messages ih =>
    obtain ⟨failure, hstep⟩ := step_of_failed st failed closed m store
    obtain ⟨failures, hfollow, hlength⟩ := ih
    exact ⟨failure :: failures, by rw [follow_cons hstep, hfollow, List.map_cons],
      by simp [hlength]⟩

end Session

/-! ### Receptions that are done

A reception that lingers is given its last packet again and waits anew, or is over. -/

def Transfer.Input.again (last : UInt16) : Input → Bool
  | .arrival a =>
    match a.read with
    | .message (.data n _) => n == last
    | _ => false
  | .verdict _ => false

theorem Transfer.Input.again_iff {last : UInt16} {input : Input} : input.again last ↔
    ∃ a payload, input = .arrival a ∧ a.read = .message (.data last payload) := by
  constructor
  · intro h
    cases input with
    | verdict v => cases h
    | arrival a =>
      unfold again at h
      dsimp only at h
      split at h
      · rename_i n payload hread
        rw [beq_iff_eq] at h
        exact ⟨a, payload, rfl, by rw [hread, h]⟩
      · cases h
  · rintro ⟨a, payload, rfl, hread⟩
    simp [again, hread]

/-- The input keeps a reception lingering: the last block comes once more, or the acknowledgement
has been sent. -/
def Transfer.Input.Harmless (last : UInt16) (input : Input) : Prop :=
  input.again last ∨ input = .verdict (.ok ())

namespace Reception

variable {σ κ : Type} {st : Storage σ κ} {s : Session κ} {store : σ} {last : UInt16}
  {datagram : Bytes} {sent : List Bytes}

/-- Where a reception may be after `inputs` have come since it was done, and what it has sent.
`datagram` is the last acknowledgement, and `sent` is what had been sent when it was done. -/
inductive Dallies (last : UInt16) (datagram : Bytes) (s : Session κ) (store : σ)
    (sent : List Bytes) : List Input → State σ κ → Log → Prop where
  | lingering {inputs : List Input} {log : Log} (harmless : ∀ input ∈ inputs, input.Harmless last)
      (echoes : log.sent.toList =
        sent ++ List.replicate (inputs.countP (Input.again last)) datagram) :
    Dallies last datagram s store sent inputs (.lingering s s.summary, store) log
  | repeating {inputs : List Input} {log : Log} (harmless : ∀ input ∈ inputs, input.Harmless last)
      (echoes : log.sent.toList ++ [datagram] =
        sent ++ List.replicate (inputs.countP (Input.again last)) datagram) :
    Dallies last datagram s store sent inputs (.repeating datagram s s.summary, store) log
  | ended {inputs : List Input} {input : Input} {log : Log}
      (harmless : ∀ input ∈ inputs, input.Harmless last) (other : ¬ input.Harmless last)
      (echoes : log.sent.toList =
        sent ++ List.replicate ((inputs ++ [input]).countP (Input.again last)) datagram) :
    Dallies last datagram s store sent (inputs ++ [input]) (.ended (.ok s.summary), store) log

/-- Only the last block is answered by a reception that lingers, and all else ends it well. -/
theorem linger_of_complete (complete : s.phase = .complete last)
    (carries : packet (.ack last) = .ok datagram) (st : Storage σ κ) (summary : Summary)
    (a : Arrival) (store : σ) :
    ((Input.arrival a).again last ∧
        linger st s summary a store = (.repeating datagram s summary, store)) ∨
      (¬ (Input.arrival a).again last ∧
        linger st s summary a store = (.ended (.ok summary), store)) := by
  cases hread : a.read with
  | silence | failure => exact .inr (by simp [Input.again, linger, hread])
  | message m =>
    rcases Session.step_of_complete st complete m store with
      ⟨⟨payload, rfl⟩, hstep⟩ | ⟨hother, failure, hstep⟩
    · exact .inl ⟨Input.again_iff.2 ⟨a, payload, rfl, hread⟩, by
        simp only [linger, hread, hstep, carries]⟩
    · refine .inr ⟨fun hagain => ?_, by simp only [linger, hread, hstep]⟩
      obtain ⟨_, payload, ⟨⟩, hread'⟩ := Input.again_iff.1 hagain
      rw [hread] at hread'
      cases hread'
      exact hother payload rfl

theorem countP_append_singleton {p : Input → Bool} (inputs : List Input) (input : Input) :
    (inputs ++ [input]).countP p = inputs.countP p + if p input then 1 else 0 := by
  rw [List.countP_append, List.countP_singleton]

theorem harmless_append {inputs : List Input} {input : Input}
    (before : ∀ input ∈ inputs, input.Harmless last) (h : input.Harmless last) :
    ∀ other ∈ inputs ++ [input], other.Harmless last := by
  intro other hother
  rcases List.mem_append.1 hother with hmem | hmem
  · exact before other hmem
  · rw [List.mem_singleton.1 hmem]
    exact h

/-- Whatever comes next, a reception that is done goes on dallying. -/
theorem Dallies.moves (complete : s.phase = .complete last)
    (carries : packet (.ack last) = .ok datagram) {inputs : List Input} {input : Input}
    {state state' : State σ κ} {log log' : Log}
    (h : Dallies last datagram s store sent inputs state log)
    (move : (machine st).Moves state log input state' log') :
    Dallies last datagram s store sent (inputs ++ [input]) state' log' := by
  cases h with
  | lingering harmless echoes =>
    cases move with
    | verdict v demand => cases demand
    | arrival a demand =>
      rcases linger_of_complete complete carries st s.summary a store with
        ⟨hagain, hlinger⟩ | ⟨hother, hlinger⟩
      · simp only [machine, Status.arrive, hlinger, Log.note]
        refine .repeating (harmless_append harmless (.inl hagain)) ?_
        rw [countP_append_singleton, if_pos hagain, echoes, List.append_assoc,
          ← List.replicate_succ']
      · simp only [machine, Status.arrive, hlinger, Log.note]
        refine .ended harmless ?_ ?_
        · rintro (hagain | hverdict)
          · exact hother hagain
          · cases hverdict
        · rw [countP_append_singleton, if_neg hother, echoes, Nat.add_zero]
  | repeating harmless echoes =>
    cases move with
    | arrival a demand => cases demand
    | verdict v demand =>
      cases demand
      have hcount : (inputs ++ [Input.verdict v]).countP (Input.again last) =
          inputs.countP (Input.again last) := by
        rw [countP_append_singleton]
        rfl
      cases v with
      | ok _ =>
        refine .lingering (harmless_append harmless (.inr rfl)) ?_
        rw [hcount, ← echoes]
        simp [machine, Status.settle, Log.note]
      | error fault =>
        refine .ended harmless ?_ ?_
        · rintro (hagain | hverdict)
          · cases hagain
          · cases hverdict
        · rw [hcount, ← echoes]
          simp [machine, Status.settle, Log.note]
  | ended => cases move <;> rename_i demand <;> cases demand

/-- A reception whose last acknowledgement has been sent dallies, whatever comes then. -/
theorem history_dallies {start : State σ κ} {before more : List Input} {state : State σ κ}
    {log₀ log : Log} (complete : s.phase = .complete last)
    (carries : packet (.ack last) = .ok datagram)
    (h₀ : (machine st).History start before (.completing datagram s, store) log₀)
    (h : (machine st).History start (before ++ .verdict (.ok ()) :: more) state log) :
    Dallies last datagram s store (log₀.sent.toList ++ [datagram]) more state log := by
  revert h
  -- from the first verdict on, input by input
  induction more using List.reverseRecOn generalizing state log with
  | nil =>
    intro h
    obtain ⟨s₁, log₁, hbefore, hmove⟩ := h.last
    obtain ⟨rfl, rfl⟩ := h₀.unique hbefore
    cases hmove with
    | verdict v demand =>
      cases demand
      refine .lingering nofun ?_
      simp [machine, Status.settle, Log.note]
  | append_singleton more input ih =>
    intro h
    rw [← List.cons_append, ← List.append_assoc] at h
    obtain ⟨s₁, log₁, hbefore, hmove⟩ := h.last
    exact (ih hbefore).moves complete carries hmove

/-- What has become of a reception after `more` has come since its last acknowledgement was sent. -/
structure Undisturbed (last : UInt16) (datagram : Bytes) (s : Session κ) (store : σ)
    (sent : List Bytes) (more : List Input) (state : State σ κ) (log : Log) : Prop where
  /-- Its session was complete, and what it sent was the acknowledgement of the last block. -/
  complete : s.phase = .complete last
  carries : packet (.ack last) = .ok datagram
  /-- Its storage has not been touched. -/
  stored : state.2 = store
  /-- It lingers, or it has ended well. -/
  well : state.1 = .lingering s s.summary ∨ state.1 = .repeating datagram s s.summary ∨
    state.1 = .ended (.ok s.summary)
  /-- All that it has sent since, or is about to send, is the last acknowledgement, once for each
  time that the last block has come again. -/
  echoes : log.sent.toList ++ state.1.demand.packet?.toList =
    sent ++ List.replicate (more.countP (Input.again last)) datagram
  /-- The first input that does not keep it lingering has ended it. -/
  ends : ∀ earlier input later, more = earlier ++ input :: later → ¬ input.Harmless last →
    later = [] ∧ state.1 = .ended (.ok s.summary)

theorem Dallies.undisturbed (complete : s.phase = .complete last)
    (carries : packet (.ack last) = .ok datagram) {more : List Input} {state : State σ κ}
    {log : Log} (h : Dallies last datagram s store sent more state log) :
    Undisturbed last datagram s store sent more state log := by
  have of_harmless : (∀ input ∈ more, input.Harmless last) →
      ∀ earlier input later, more = earlier ++ input :: later → ¬ input.Harmless last → False := by
    rintro harmless earlier input later rfl other
    exact other (harmless input (by simp))
  cases h with
  | lingering harmless echoes =>
    exact ⟨complete, carries, rfl, .inl rfl, by simpa [Status.demand] using echoes,
      fun _ _ _ hmore other => (of_harmless harmless _ _ _ hmore other).elim⟩
  | repeating harmless echoes =>
    exact ⟨complete, carries, rfl, .inr (.inl rfl), by simpa [Status.demand] using echoes,
      fun _ _ _ hmore other => (of_harmless harmless _ _ _ hmore other).elim⟩
  | @ended inputs i log harmless other echoes =>
    refine ⟨complete, carries, rfl, .inr (.inr rfl), by simpa [Status.demand] using echoes, ?_⟩
    intro earlier input later hmore hinput
    refine ⟨?_, rfl⟩
    -- were there a later input, this one would be among those that did no harm
    rcases List.eq_nil_or_concat later with hnil | ⟨later', x, rfl⟩
    · exact hnil
    · rw [List.concat_eq_append, ← List.cons_append, ← List.append_assoc] at hmore
      obtain ⟨rfl, -⟩ := List.append_singleton_inj.1 hmore
      exact absurd (harmless input (by simp)) hinput

/-- Whatever a complete session is fed, it stays as it is, its storage is not asked for anything,
and only its last block is answered; a session that has failed answers nothing, and stays as it is
too.  Hence a reception whose last acknowledgement has been sent is undisturbed by whatever comes
then. -/
theorem finished_stays_finished (st : Storage σ κ) :
    (∀ (s : Session κ) (last : UInt16) (messages : List Message) (store : σ) (calls : List Call),
      s.phase = .complete last →
      ∃ answers, s.follow st.recorded messages (store, calls) = (s, answers, store, calls) ∧
        List.Forall₂ (Session.Echoes last) messages answers) ∧
    (∀ (s : Session κ) (messages : List Message) (store : σ) (calls : List Call),
      Session.Reached s → s.phase = .failed →
      ∃ failures : List Failure, s.follow st.recorded messages (store, calls) =
          (s, failures.map .error, store, calls) ∧
        failures.length = messages.length) ∧
    ∀ (connected : Bool) (request : Bytes) (settings : Settings) (initial : σ)
      (before more : List Input) (datagram : Bytes) (s : Session κ) (store : σ × List Call)
      (state : State (σ × List Call) κ) (log₀ log : Log),
      (machine st.recorded).History
        (start st.recorded connected request settings (initial, [])) before
        (.completing datagram s, store) log₀ →
      (machine st.recorded).History
        (start st.recorded connected request settings (initial, []))
        (before ++ .verdict (.ok ()) :: more) state log →
      ∃ last,
        Undisturbed last datagram s store (log₀.sent.toList ++ [datagram]) more state log := by
  refine ⟨?_, ?_, ?_⟩
  · intro s last messages store calls complete
    exact Session.follow_complete st.recorded complete messages (store, calls)
  · intro s messages store calls reached failed
    exact Session.follow_failed st.recorded failed (reached.closed failed) messages (store, calls)
  · intro connected request settings initial before more datagram s store state log₀ log h₀ h
    rcases history_stands st connected request settings initial h₀ with
      ⟨name, mode, hrequest, hstands⟩ | hrefused
    · cases hstands with
      | completing carries session filed =>
        exact ⟨_, (history_dallies session.phase carries h₀ h).undisturbed session.phase carries⟩
    · cases hrefused

def oneByteDone : Session String := ⟨.complete 1, none, some "a", 1, 1, 1⟩

def misled : Session String := (Session.step (Memory.storage {}) {} (.ack 0) {}).1

set_option maxRecDepth 20000 in
/-- The last block comes again, with another payload, and then the reception is cancelled. -/
theorem late_packets_do_no_harm :
    (oneByteDone.phase = .complete 1 ∧
      ∃ answers, oneByteDone.follow (Memory.storage {}).recorded
          [.data 1 [9], .writeRequest "b" "octet"] ({}, []) = (oneByteDone, answers, {}, []) ∧
        List.Forall₂ (Session.Echoes 1) [.data 1 [9], .writeRequest "b" "octet"] answers) ∧
    (Session.Reached misled ∧ misled.phase = .failed ∧
      ∃ failures : List Failure, misled.follow (Memory.storage {}).recorded
          [.writeRequest "a" "octet"] ({}, []) = (misled, failures.map .error, {}, []) ∧
        failures.length = 1) ∧
    ∃ last, Undisturbed last [0, 4, 0, 1] oneByteDone
      (Memory.put {} ⟨"a", Content.empty.append [7]⟩,
        [Call.create "a" true, .write [7], .flush true])
      [[0, 4, 0, 0], [0, 4, 0, 1]]
      [.arrival (.datagram [0, 3, 0, 1, 9]), .verdict (.ok ()), .arrival .stopped]
      (.ended (.ok ⟨"a", 1, 1⟩), Memory.put {} ⟨"a", Content.empty.append [7]⟩,
        [.create "a" true, .write [7], .flush true])
      ⟨#[[0, 4, 0, 0], [0, 4, 0, 1], [0, 4, 0, 1]], #[⟨1, 1⟩]⟩ := by
  have hreached : Session.Reached misled := Session.Reached.new.step (Memory.storage {}) {} (.ack 0)
  have hdone : (machine (Memory.storage {}).recorded).History
      (start (Memory.storage {}).recorded true [0, 2, 97, 0, 111, 0] {} ({}, []))
      [.verdict (.ok ()), .arrival (.datagram [0, 3, 0, 1, 7])]
      (.completing [0, 4, 0, 1] oneByteDone,
        (Memory.put {} ⟨"a", Content.empty.append [7]⟩),
        [.create "a" true, .write [7], .flush true])
      ⟨#[[0, 4, 0, 0]], #[]⟩ :=
    .arrival (.datagram [0, 3, 0, 1, 7]) (.verdict (.ok ()) .start rfl) rfl
  have hall := (((hdone.verdict (.ok ()) rfl).arrival (.datagram [0, 3, 0, 1, 9]) rfl).verdict
    (.ok ()) rfl).arrival .stopped rfl
  obtain ⟨hcomplete, hfailed, hundisturbed⟩ := finished_stays_finished (Memory.storage {})
  exact ⟨⟨rfl, hcomplete oneByteDone 1 _ {} [] rfl⟩,
    ⟨hreached, rfl, hfailed misled _ {} [] hreached rfl⟩,
    hundisturbed _ _ _ _ _ _ _ _ _ _ _ _ hdone hall⟩

end Reception

end TftpUpload
