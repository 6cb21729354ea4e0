/-
  TftpUpload/Proofs/Receiver/Answers.lean
  =======================================
  **What a session answers, and what a reception makes of the answer.**

  A session counts its blocks and keeps the number that it acknowledged last.  It
  keeps them apart, and they tell the same (`Reached.lastAcked_eq`).  Whatever a
  session answers, it answers with the number that it has acknowledged last once
  it has taken the packet (`step_answer`).  It has few reasons to fail
  (`step_reason`), and of itself it never does so for want of patience
  (`step_ne_timeout`).

  So there are three things that feeding a packet to a session can come to
  (`feed_feeds`): an acknowledgement, the last acknowledgement, or a failure.
  Later proofs about receptions use this list.
-/
import TftpUpload.Proofs.Receiver.Farewell
import TftpUpload.Proofs.Receiver.Reception
import TftpUpload.Proofs.Receiver.Repetitions

namespace TftpUpload

open Wire Transfer Storage

namespace Session

variable {σ κ : Type} {s s' : Session κ} {m : Message} {st : Storage σ κ} {store store' : σ}

/-! ### The number acknowledged last

The counter of blocks is a number and what is acknowledged a word.  The two go together as long as a
session takes packets. -/

@[simp]
theorem lastAcked_fail (s : Session κ) : s.fail.lastAcked = s.lastAcked := by
  unfold fail
  split <;> rfl

@[simp]
theorem blocks_fail (s : Session κ) : s.fail.blocks = s.blocks := by
  unfold fail
  split <;> rfl

theorem Does.numbered {attempt : Option (Bytes × Bool)} {added : List Call}
    (does : Does s m s' attempt added) (settled : s.Settled)
    (h : s.lastAcked = number s.blocks) : s'.lastAcked = number s'.blocks := by
  cases does with
  | stays => exact h
  | fails => simpa using h
  | opens new request k => exact h
  | unopened new request => simpa using h
  | tears receiving due only within proper => simpa using h
  | @writes last payload k phase destination uses receiving due only whole next =>
    have hlast : last = number s.blocks := (settled.receiving last receiving).trans h
    change last + 1 = number (s.blocks + 1)
    rw [hlast, number_succ]

/-- The number acknowledged last is that of the blocks written, of which there may be more than a
word can count. -/
theorem Reached.lastAcked_eq (h : Reached s) : s.lastAcked = number s.blocks := by
  induction h with
  | new => rfl
  | @step s before σ st store m ih =>
    obtain ⟨added, -, hdoes⟩ := step_does st s m store []
    rw [step_recorded] at hdoes
    exact hdoes.numbered before.settled ih

/-! ### Answers -/

theorem write_lastAcked {block : UInt16} {payload : Bytes} {answer : Step}
    (h : s.write st block payload store = (s', .ok answer, store')) : s'.lastAcked = block := by
  unfold write at h
  split at h
  · cases h
  · split at h
    · cases h
    · dsimp only at h
      split at h
      · split at h <;> cases h
        rfl
      · cases h
        rfl

/-- A session answers a packet with the number that it has acknowledged last, be it that of a block
that it has just written or one that it acknowledges again. -/
theorem advance_answer (settled : s.Settled) {answer : Step}
    (h : s.advance st m store = (s', .ok answer, store')) : answer.message = .ack s'.lastAcked := by
  unfold advance at h
  split at h
  · cases h
  · rename_i hphase
    have hzero : s.lastAcked = 0 := settled.untouched (settled.new hphase)
    unfold accept at h
    split at h <;> cases h
    simp only [Step.message, hzero]
  · rename_i last _ _ hphase
    have hlast : last = s.lastAcked := settled.receiving last hphase
    split at h <;> cases h
    rename_i hzero
    rw [Step.message, ← hlast, hzero]
  · rename_i last block payload hphase
    have hlast : last = s.lastAcked := settled.receiving last hphase
    split at h
    · cases h
      rw [Step.message, hlast]
    · split at h
      · rw [write_answers h, write_lastAcked h]
      · cases h
  · rename_i last block payload hphase
    have hlast : last = s.lastAcked := (settled.complete last hphase).1
    split at h <;> cases h
    rw [Step.message, hlast]
  · cases h

theorem step_answer (settled : s.Settled) {answer : Step}
    (h : s.step st m store = (s', .ok answer, store')) : answer.message = .ack s'.lastAcked := by
  unfold step at h
  split at h
  · rename_i hadvance
    cases h
    exact advance_answer settled hadvance
  · cases h

/-! ### Failures

What a session fails with is the packet's fault, the peer's or the storage's.  Patience is none of
its concern. -/

def Reason : Failure → Prop
  | .protocol _ => True
  | .remote _ _ => True
  | .rejected _ _ => True
  | _ => False

theorem write_reason {block : UInt16} {payload : Bytes} {failure : Failure}
    (h : s.write st block payload store = (s', .error failure, store')) : Reason failure := by
  unfold write at h
  split at h
  · cases h
    trivial
  · split at h
    · cases h
      trivial
    · dsimp only at h
      split at h
      · split at h <;> cases h
        trivial
      · cases h

theorem step_reason {failure : Failure}
    (h : s.step st m store = (s', .error failure, store')) : Reason failure := by
  unfold step at h
  split at h
  · cases h
  · rename_i hadvance
    cases h
    unfold advance at hadvance
    split at hadvance
    · cases hadvance
      trivial
    · unfold accept at hadvance
      split at hadvance <;> cases hadvance
      trivial
    · split at hadvance <;> cases hadvance
      trivial
    · split at hadvance
      · cases hadvance
      · split at hadvance
        · exact write_reason hadvance
        · cases hadvance
          trivial
    · split at hadvance <;> cases hadvance
      trivial
    · cases hadvance
      trivial

/-- A session does not wait, so it does not give up waiting. -/
theorem step_ne_timeout {failure : Failure}
    (h : s.step st m store = (s', .error failure, store')) (attempts : Nat) :
    failure ≠ .timeout attempts := by
  rintro rfl
  exact step_reason h

end Session

namespace Reception

variable {σ κ : Type} {st : Storage σ κ} {store : σ} {s : Session κ} {m : Message}
  {maxRetries : Nat}

/-- All that feeding a packet to a session comes to, with the report that it makes. -/
inductive Feeds (st : Storage σ κ) (maxRetries : Nat) (s : Session κ) (m : Message) (store : σ) :
    State σ κ → Option Progress → Prop where
  /-- The packet is acknowledged.  If a block has been written, that is reported. -/
  | replied {s' : Session κ} {store' : σ} {datagram : Bytes}
      (stepped : s.step st m store = (s', .ok (.reply (.ack s'.lastAcked)), store'))
      (carries : packet (.ack s'.lastAcked) = .ok datagram) :
    Feeds st maxRetries s m store (.replying datagram ⟨s', 0, maxRetries⟩, store')
      (if s'.blocks = s.blocks then none else some ⟨s'.lastAcked, 0⟩)
  /-- The last block has been written, and is reported when it has been acknowledged. -/
  | completed {s' : Session κ} {store' : σ} {datagram : Bytes}
      (stepped : s.step st m store = (s', .ok (.complete (.ack s'.lastAcked)), store'))
      (carries : packet (.ack s'.lastAcked) = .ok datagram) :
    Feeds st maxRetries s m store (.completing datagram s', store') none
  | failed {s' : Session κ} {store' : σ} {failure : Failure}
      (stepped : s.step st m store = (s', .error failure, store')) :
    Feeds st maxRetries s m store (fail st failure s' store') none

theorem feed_feeds (settled : s.Settled) (st : Storage σ κ) (maxRetries : Nat) (m : Message)
    (store : σ) : Feeds st maxRetries s m store (feed st maxRetries s m store).1
      (feed st maxRetries s m store).2 := by
  rcases hstep : s.step st m store with ⟨s', answer | answer, store'⟩
  · simp only [feed, hstep]
    exact .failed hstep
  · obtain ⟨datagram, hdatagram⟩ := packet_ack s'.lastAcked
    have hanswer := Session.step_answer settled hstep
    simp only [feed, hstep]
    cases answer with
    | reply m' =>
      have hm : m' = .ack s'.lastAcked := hanswer
      subst hm
      simp only [answer_reply _ _ _ hdatagram]
      exact .replied hstep hdatagram
    | complete m' =>
      have hm : m' = .ack s'.lastAcked := hanswer
      subst hm
      simp only [answer_complete _ _ _ hdatagram]
      exact .completed hstep hdatagram

end Reception

end TftpUpload
