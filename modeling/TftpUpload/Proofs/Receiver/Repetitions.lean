/-
  TftpUpload/Proofs/Receiver/Repetitions.lean
  ===========================================
  **A session does not notice repetitions.**

  A network may deliver a packet more than once, and anyone may send a packet
  that looks as if it did.  To a session the block that it acknowledged last is
  such a repetition, whatever payload it carries now, and so is a request as
  long as no block has been written.  A repetition is answered by the last
  acknowledgement, and that is all (`step_of_repetition`).

  What makes this more than a look at one branch is that the phase, the counter
  of blocks and the number acknowledged last are kept apart, and the tests for a
  repetition read the phase.  `Settled` says that they tell the same, and holds
  of every session that packets can lead to.  Hence the repetitions can be struck
  out of any sequence of packets (`repetitions_are_invisible`).
-/
import TftpUpload.Proofs.Receiver.Ledger
import TftpUpload.Proofs.Receiver.Mirror

namespace TftpUpload

open Wire Transfer Storage

namespace Session

variable {σ κ : Type}

/-! ### Repetitions

Whether a packet is a repetition depends on the session that it comes to, as block numbers start
again. -/

def Phase.going : Phase → Bool
  | .receiving _ => true
  | .complete _ => true
  | _ => false

theorem Phase.going_iff {phase : Phase} :
    phase.going ↔ ∃ last, phase = .receiving last ∨ phase = .complete last := by
  cases phase <;> simp [going]

/-- The packet asks for nothing but the last acknowledgement once more. -/
def Repetition (s : Session κ) : Message → Prop
  | .data n _ => s.phase.going ∧ n = s.lastAcked
  | .writeRequest _ _ => s.phase.going ∧ s.blocks = 0
  | _ => False

instance (s : Session κ) : ∀ m, Decidable (s.Repetition m)
  | .data n _ => inferInstanceAs (Decidable (s.phase.going ∧ n = s.lastAcked))
  | .writeRequest _ _ => inferInstanceAs (Decidable (s.phase.going ∧ s.blocks = 0))
  | .readRequest _ _ => .isFalse id
  | .ack _ => .isFalse id
  | .error _ _ => .isFalse id

/-! ### Sessions that packets lead to

The storage is another one for each packet, so nothing about a storage can be used. -/

/-- A session after some packets, each of them with any storage in any state. -/
inductive Reached : Session κ → Prop where
  | new : Reached {}
  | step {s : Session κ} (before : Reached s) {σ : Type} (st : Storage σ κ) (store : σ)
      (m : Message) : Reached (s.step st m store).1

structure Settled (s : Session κ) : Prop where
  new : s.phase = .new → s.blocks = 0
  receiving : ∀ last, s.phase = .receiving last → last = s.lastAcked
  complete : ∀ last, s.phase = .complete last → last = s.lastAcked ∧ s.blocks ≠ 0
  untouched : s.blocks = 0 → s.lastAcked = 0

variable {s s' : Session κ} {m : Message}

theorem Settled.fail (h : s.Settled) : s.fail.Settled := by
  unfold Session.fail
  split
  · exact h
  · exact
      { new := nofun
        receiving := nofun
        complete := nofun
        untouched := h.untouched }

theorem Next.ne_new {block : UInt16} {payload : Bytes} {phase : Phase} {destination : Option κ}
    (next : Next block payload phase destination) : phase ≠ .new := by
  cases next <;> nofun

/-- If the phase after a payload names a block, it is the one that has been written. -/
theorem Next.eq_of_names {block last : UInt16} {payload : Bytes} {phase : Phase}
    {destination : Option κ} (next : Next block payload phase destination)
    (h : phase = .receiving last ∨ phase = .complete last) : last = block := by
  rcases h with rfl | rfl
  · cases next
    rfl
  · cases next
    rfl

/-- Whatever a packet does, it leaves the session settled. -/
theorem Does.settled {attempt : Option (Bytes × Bool)} {added : List Call}
    (does : Does s m s' attempt added) (h : s.Settled) : s'.Settled := by
  cases does with
  | stays => exact h
  | fails => exact h.fail
  | unopened new request => exact h.fail
  | tears receiving due only within proper => exact h.fail
  | opens new request k =>
    have hzero : s.lastAcked = 0 := h.untouched (h.new new)
    exact
      { new := nofun
        receiving := by
          rintro _ ⟨⟩
          exact hzero.symm
        complete := nofun
        untouched := h.untouched }
  | writes receiving due only whole next =>
    -- the block counts, so whatever asks for a session without blocks asks for nothing
    have hcounted : s.blocks + 1 ≠ 0 := Nat.succ_ne_zero s.blocks
    exact
      { new := fun hnew => absurd hnew next.ne_new
        receiving := fun _ hphase => next.eq_of_names (.inl hphase)
        complete := fun _ hphase => ⟨next.eq_of_names (.inr hphase), hcounted⟩
        untouched := fun hzero => absurd hzero hcounted }

/-- A session does not notice that the calls of its storage are recorded. -/
theorem step_recorded (st : Storage σ κ) (s : Session κ) (m : Message) (store : σ)
    (calls : List Call) :
    (s.step st.recorded m (store, calls)).1 = (s.step st m store).1 := by
  have howns : s.Owns (fun _ => "") fun _ => True := ⟨fun _ _ => trivial, fun _ _ => trivial⟩
  have hmirror := (step_asks howns m fun _ _ _ _ => trivial).mirrors (recorded_mirrors st)
    (store, calls)
  exact congrArg (fun r => r.1.1) hmirror

theorem Settled.step (h : s.Settled) (st : Storage σ κ) (m : Message) (store : σ) :
    (s.step st m store).1.Settled := by
  obtain ⟨added, -, hdoes⟩ := step_does st s m store []
  rw [step_recorded] at hdoes
  exact hdoes.settled h

theorem Reached.settled (h : Reached s) : s.Settled := by
  induction h with
  | new =>
    exact
      { new := fun _ => rfl
        receiving := nofun
        complete := nofun
        untouched := fun _ => rfl }
  | step before st store m ih => exact ih.step st m store

/-- A repetition is answered by the last acknowledgement.  The session and its storage stay as
they are. -/
theorem step_of_repetition (h : s.Settled) (repetition : s.Repetition m) (st : Storage σ κ)
    (store : σ) : s.step st m store = (s, .ok (.reply (.ack s.lastAcked)), store) := by
  apply step_of_ok
  cases m with
  | data n payload =>
    obtain ⟨hgoing, rfl⟩ := repetition
    obtain ⟨last, hphase | hphase⟩ := Phase.going_iff.1 hgoing
    · have hlast := h.receiving last hphase
      simp only [advance, hphase, hlast, if_true]
    · have hlast := (h.complete last hphase).1
      simp only [advance, hphase, hlast, if_true]
  | writeRequest filename mode =>
    obtain ⟨hgoing, hblocks⟩ := repetition
    obtain ⟨last, hphase | hphase⟩ := Phase.going_iff.1 hgoing
    · have hlast := h.receiving last hphase
      have hzero := h.untouched hblocks
      simp only [advance, hphase, hlast, hzero, if_true]
    · exact absurd hblocks (h.complete last hphase).2
  | readRequest _ _ => exact repetition.elim
  | ack _ => exact repetition.elim
  | error _ _ => exact repetition.elim

/-! ### Sequences of packets

What was inserted is marked, so that it can be struck out together with its answers. -/

/-- Feeds packets to a session, one after another.  The answers come in the order of the
packets. -/
def follow (st : Storage σ κ) :
    Session κ → List Message → σ → Session κ × List (Except Failure Step) × σ
  | s, [], store => (s, [], store)
  | s, m :: messages, store =>
    match s.step st m store with
    | (s', answer, store') =>
      match follow st s' messages store' with
      | (s'', answers, store'') => (s'', answer :: answers, store'')

structure Fed where
  message : Message
  inserted : Bool
deriving DecidableEq, Repr

def own (packets : List Fed) : List Message :=
  (packets.filter fun p => !p.inserted).map Fed.message

def ownAnswers : List Fed → List (Except Failure Step) → List (Except Failure Step)
  | p :: packets, answer :: answers =>
    if p.inserted then ownAnswers packets answers else answer :: ownAnswers packets answers
  | _, _ => []

def before (st : Storage σ κ) (s : Session κ) (packets : List Fed) (store : σ) (i : Nat) :
    Session κ :=
  (s.follow st ((packets.take i).map Fed.message) store).1

/-- What has been inserted are repetitions, each at the point where it comes. -/
def InsertsRepetitions (st : Storage σ κ) (s : Session κ) (packets : List Fed) (store : σ) :
    Prop :=
  ∀ i, (h : i < packets.length) → packets[i].inserted →
    (s.before st packets store i).Repetition packets[i].message

instance (st : Storage σ κ) (s : Session κ) (packets : List Fed) (store : σ) :
    Decidable (s.InsertsRepetitions st packets store) :=
  inferInstanceAs (Decidable (∀ i, (h : i < packets.length) → packets[i].inserted →
    (s.before st packets store i).Repetition packets[i].message))

variable {st : Storage σ κ} {store store' : σ} {answer : Except Failure Step} {p : Fed}
  {packets : List Fed}

theorem follow_cons (h : s.step st m store = (s', answer, store')) (messages : List Message) :
    s.follow st (m :: messages) store =
      ((s'.follow st messages store').1, answer :: (s'.follow st messages store').2.1,
        (s'.follow st messages store').2.2) := by
  simp only [follow, h]

theorem follow_append (st : Storage σ κ) (s : Session κ) (messages more : List Message)
    (store : σ) : s.follow st (messages ++ more) store =
      let r := s.follow st messages store
      let r' := r.1.follow st more r.2.2
      (r'.1, r.2.1 ++ r'.2.1, r'.2.2) := by
  induction messages generalizing s store with
  | nil => rfl
  | cons m messages ih =>
    rcases hstep : s.step st m store with ⟨s', answer, store'⟩
    rw [List.cons_append, follow_cons hstep, follow_cons hstep, ih]
    rfl

theorem Reached.follow (h : Reached s) (st : Storage σ κ) (messages : List Message) (store : σ) :
    Reached (s.follow st messages store).1 := by
  induction messages generalizing s store with
  | nil => exact h
  | cons m messages ih =>
    rcases hstep : s.step st m store with ⟨s', answer, store'⟩
    have hnext : Reached s' := by
      have hreached := h.step st store m
      rwa [hstep] at hreached
    rw [follow_cons hstep]
    exact ih hnext store'

theorem before_succ (h : s.step st p.message store = (s', answer, store')) (i : Nat) :
    s.before st (p :: packets) store (i + 1) = s'.before st packets store' i := by
  simp only [before, List.take_succ_cons, List.map_cons, follow_cons h]

theorem own_inserted (h : p.inserted = true) : own (p :: packets) = own packets := by
  simp [own, h]

theorem own_cons (h : p.inserted = false) : own (p :: packets) = p.message :: own packets := by
  simp [own, h]

theorem Settled.next (h : s.Settled) (hstep : s.step st m store = (s', answer, store')) :
    s'.Settled := by
  have hsettled := h.step st m store
  rw [hstep] at hsettled
  exact hsettled

/-- A repetition has led nowhere. -/
theorem Settled.again (h : s.Settled) (repetition : s.Repetition m)
    (hstep : s.step st m store = (s', answer, store')) :
    s' = s ∧ answer = .ok (.reply (.ack s.lastAcked)) ∧ store' = store := by
  rw [step_of_repetition h repetition] at hstep
  cases hstep
  exact ⟨rfl, rfl, rfl⟩

/-- Of the packets after the first no more is asked than before. -/
theorem InsertsRepetitions.tail (repetitions : s.InsertsRepetitions st (p :: packets) store)
    (h : s.step st p.message store = (s', answer, store')) :
    s'.InsertsRepetitions st packets store' := by
  intro i hi hinserted
  have hnext := repetitions (i + 1) (Nat.succ_lt_succ hi) hinserted
  rw [before_succ h] at hnext
  exact hnext

/-- Striking out the repetitions leaves where the session ends, what the storage becomes, and the
answers to all other packets. -/
theorem follow_own (h : s.Settled) (repetitions : s.InsertsRepetitions st packets store) :
    s.follow st (own packets) store =
      ((s.follow st (packets.map Fed.message) store).1,
        ownAnswers packets (s.follow st (packets.map Fed.message) store).2.1,
        (s.follow st (packets.map Fed.message) store).2.2) := by
  induction packets generalizing s store with
  | nil => rfl
  | cons p packets ih =>
    rcases hstep : s.step st p.message store with ⟨s', answer, store'⟩
    have hrest := ih (h.next hstep) (repetitions.tail hstep)
    rw [List.map_cons, follow_cons hstep]
    by_cases hinserted : p.inserted = true
    · -- what is left goes on from where the packet came
      have hrepetition := repetitions 0 (Nat.zero_lt_succ _) hinserted
      obtain ⟨rfl, rfl, rfl⟩ := h.again hrepetition hstep
      rw [own_inserted hinserted, hrest]
      simp only [ownAnswers, hinserted, if_true]
    · have hown : p.inserted = false := Bool.eq_false_iff.2 hinserted
      rw [own_cons hown, follow_cons hstep, hrest]
      simp only [ownAnswers, if_neg hinserted]

/-- Every repetition that has been inserted is answered by the number acknowledged last. -/
theorem answer_of_inserted (h : s.Settled) (repetitions : s.InsertsRepetitions st packets store)
    (i : Nat) (hi : i < packets.length) (inserted : packets[i].inserted) :
    (s.follow st (packets.map Fed.message) store).2.1[i]? =
      some (.ok (.reply (.ack (s.before st packets store i).lastAcked))) := by
  induction packets generalizing s store i with
  | nil => cases hi
  | cons p packets ih =>
    rcases hstep : s.step st p.message store with ⟨s', answer, store'⟩
    rw [List.map_cons, follow_cons hstep]
    cases i with
    | zero =>
      obtain ⟨rfl, rfl, rfl⟩ := h.again (repetitions 0 hi inserted) hstep
      rfl
    | succ i =>
      rw [before_succ hstep]
      apply ih (h.next hstep) (repetitions.tail hstep)
      exact inserted

/-- Whatever the storage does, repetitions change neither where the session ends, and with it the
counters, the name and the summary, nor what the storage becomes, nor the answers to the other
packets.  Each of them is answered by the number acknowledged last. -/
theorem repetitions_are_invisible (reached : Reached s) (st : Storage σ κ) (store : σ)
    (packets : List Fed) (repetitions : s.InsertsRepetitions st packets store) :
    let all := s.follow st (packets.map Fed.message) store
    s.follow st (own packets) store = (all.1, ownAnswers packets all.2.1, all.2.2) ∧
      ∀ i, (h : i < packets.length) → packets[i].inserted →
        all.2.1[i]? = some (.ok (.reply (.ack (s.before st packets store i).lastAcked))) := by
  have hsettled := reached.settled
  constructor
  · exact follow_own hsettled repetitions
  · intro i hi inserted
    exact answer_of_inserted hsettled repetitions i hi inserted

def resent : List Fed :=
  [⟨.writeRequest "a" "octet", false⟩, ⟨.writeRequest "b" "mail", true⟩,
    ⟨.data 1 (List.replicate 512 7), false⟩, ⟨.data 1 [9], true⟩,
    ⟨.data 2 [1, 2], false⟩, ⟨.data 2 [], true⟩]

theorem resent_upload_is_the_same :
    let all := ({} : Session String).follow (Memory.storage {}) (resent.map Fed.message) {}
    Session.follow (Memory.storage {}) {} (own resent) {} =
        (all.1, ownAnswers resent all.2.1, all.2.2) ∧
      all.1.summary = ⟨"a", 2, 514⟩ ∧
      (all.2.2.files.map fun file => (file.name, file.content.bytes)) =
        [("a", List.replicate 512 7 ++ [1, 2])] ∧
      all.2.1[5]? = some (.ok (.reply (.ack 2))) := by
  have hinvisible := repetitions_are_invisible (.new : Reached ({} : Session String))
    (Memory.storage {}) {} resent (by decide +kernel)
  have hlast : (Session.before (Memory.storage {}) {} resent {} 5).lastAcked = 2 := by
    decide +kernel
  have hanswer := hinvisible.2 5 (by decide) rfl
  rw [hlast] at hanswer
  exact ⟨hinvisible.1, by decide +kernel, by decide +kernel, hanswer⟩

end Session

end TftpUpload
