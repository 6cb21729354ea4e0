/-
  TftpUpload/Proofs/Sender/Operations.lean
  ========================================
  **A sender that is used in any order keeps its accounts.**

  Nothing forces who uses a sender to open it first, to give it a block only when
  it wants one, or to stop when it has failed.  `operate_does` lists all that an
  operation can do in any state, and `Accounts` is what a sender knows after any
  operations whatsoever: the packet it remembers is the one that was handed out
  last, its attempts count how often that was, and they stay within the ceiling
  (`accounts_of_history`).

  Numbers are another matter.  A sender numbers blocks from 1 on only if it is
  opened once and first, and is given blocks only when it wants them
  (`Disciplined`): the acknowledgement of a second request would start the
  numbers again, and a block that is not wanted would take the number of the one
  before.  So `numbers_of_history` asks for this, and `accounts_are_kept` puts
  both together.
-/
import TftpUpload.Proofs.Transfer.Order
import TftpUpload.Sender.Basic

namespace TftpUpload

open Wire Transfer

namespace Sender

/-! ### Operations

What a sender is asked and what it returns are data here, so that all orders of operations can be
spoken of. -/

inductive Operation where
  | request (filename mode : String)
  | block (payload : Bytes)
  | receive (m : Message)
  | silence
deriving DecidableEq, Repr

inductive Answer where
  | packet (m : Message)
  | step (result : Except Failure Step)

def operate (s : Sender) : Operation → Sender × Answer
  | .request filename mode => ((s.request filename mode).1, .packet (s.request filename mode).2)
  | .block payload => ((s.block payload).1, .packet (s.block payload).2)
  | .receive m => ((s.receive m).1, .step (s.receive m).2)
  | .silence => (s.silence.1, .step (.ok s.silence.2))

namespace Operation

def isRequest : Operation → Bool
  | request .. => true
  | _ => false

def payload? : Operation → Option Bytes
  | block payload => some payload
  | _ => none

def isNews : Operation → Bool
  | receive _ => true
  | silence => true
  | _ => false

/-- The operation acknowledges the block that is out, if the sender is in the given phase. -/
def acknowledges (phase : Phase) : Operation → Bool
  | receive (.ack n) => phase = .awaitAck n
  | _ => false

end Operation

/-! ### What an operation does -/

variable {s s' : Sender} {o : Operation} {answer : Answer}

/-- All that an operation can do to a sender. -/
inductive Does (s : Sender) : Operation → Sender → Answer → Prop where
  | opens (filename mode : String) :
    Does s (.request filename mode)
      { s with lastSent := some (.writeRequest filename mode), attempts := 1,
               phase := .awaitHandshake }
      (.packet (.writeRequest filename mode))
  | sends (payload : Bytes) :
    Does s (.block payload)
      { s with lastSent := some (.data s.nextBlock payload), attempts := 1,
               bytes := s.bytes + payload.length, phase := .awaitAck s.nextBlock }
      (.packet (.data s.nextBlock payload))
  | resends {o : Operation} {m : Message} (news : o.isNews)
      (other : o.acknowledges s.phase = false) (last : s.lastSent = some m)
      (few : s.attempts < s.ceiling) :
    Does s o { s with attempts := s.attempts + 1 } (.step (.ok (.resend m)))
  | givesUp {o : Operation} {m : Message} (news : o.isNews)
      (other : o.acknowledges s.phase = false) (last : s.lastSent = some m)
      (spent : s.ceiling ≤ s.attempts) :
    Does s o { s with phase := .failed } (.step (.ok (.giveUp s.attempts)))
  | waits {o : Operation} (news : o.isNews) (other : o.acknowledges s.phase = false) :
    Does s o s (.step (.ok .wait))
  | starts (phase : s.phase = .awaitHandshake) :
    Does s (.receive (.ack 0)) (s.advance 1) (.step (.ok .readBlock))
  | advances {n : UInt16} (phase : s.phase = .awaitAck n) :
    Does s (.receive (.ack n)) (({ s with blocks := s.blocks + 1 } : Sender).advance (n + 1))
      (.step (.ok .readBlock))
  | finishes {n : UInt16} (phase : s.phase = .awaitAck n) :
    Does s (.receive (.ack n)) { s with blocks := s.blocks + 1, phase := .done } (.step (.ok .done))
  | fails {m : Message} {failure : Failure}
      (other : (Operation.receive m).acknowledges s.phase = false) :
    Does s (.receive m) { s with phase := .failed } (.step (.error failure))

theorem retransmit_does (news : o.isNews) (other : o.acknowledges s.phase = false) :
    Does s o s.retransmit.1 (.step (.ok s.retransmit.2)) := by
  unfold retransmit
  split
  · exact .waits news other
  · rename_i m last
    split
    · rename_i spent
      exact .givesUp news other last spent
    · rename_i few
      exact .resends news other last (Nat.lt_of_not_le few)

theorem acknowledged_does {expected : UInt16} (phase : s.phase = .awaitAck expected) (n : UInt16) :
    Does s (.receive (.ack n)) (s.acknowledged expected n).1
      (.step (.ok (s.acknowledged expected n).2)) := by
  unfold acknowledged
  by_cases hn : n = expected
  · subst hn
    rw [if_pos rfl]
    dsimp only
    split
    · exact .finishes phase
    · exact .advances phase
  · rw [if_neg hn]
    refine retransmit_does rfl ?_
    simp [Operation.acknowledges, phase, Ne.symm hn]

theorem receive_does (s : Sender) (message : Message) :
    Does s (.receive message) (s.receive message).1 (.step (s.receive message).2) := by
  unfold receive
  split
  · exact .fails rfl
  · rename_i n phase
    split
    · rename_i hn
      subst hn
      exact .starts phase
    · exact .waits rfl (by simp [Operation.acknowledges, phase])
  · rename_i expected n phase
    exact acknowledged_does phase n
  · rename_i received _ _ _ _ notAck
    refine .fails ?_
    cases received with
    | ack n =>
      have hphase : s.phase ≠ .awaitAck n := fun h => notAck n n h rfl
      simpa [Operation.acknowledges] using hphase
    | _ => rfl

theorem silence_does (s : Sender) : Does s .silence s.silence.1 (.step (.ok s.silence.2)) := by
  unfold silence
  split
  · exact retransmit_does rfl rfl
  · exact retransmit_does rfl rfl
  · exact .waits rfl rfl

theorem operate_does (s : Sender) (o : Operation) :
    Does s o (s.operate o).1 (s.operate o).2 := by
  cases o with
  | request filename mode => exact .opens filename mode
  | block payload => exact .sends payload
  | receive m => exact receive_does s m
  | silence => exact silence_does s

/-! ### Histories

A log says of each operation in which phase it found the sender, since it depends on this whether an
acknowledgement counts. -/

structure Entry where
  phase : Phase
  operation : Operation
  answer : Answer

namespace Entry

def packet? (e : Entry) : Option Message :=
  match e.answer with
  | .packet m => some m
  | .step _ => none

def resent? (e : Entry) : Option Message :=
  match e.answer with
  | .step (.ok (.resend m)) => some m
  | _ => none

def acknowledges (e : Entry) : Bool := e.operation.acknowledges e.phase

end Entry

/-- The operations on a new sender, the latest first, and the state in which they leave it. -/
inductive History (maxRetries : Nat) : List Entry → Sender → Prop where
  | start : History maxRetries [] (new maxRetries)
  | next {log : List Entry} {s : Sender} (before : History maxRetries log s) (o : Operation) :
    History maxRetries (⟨s.phase, o, (s.operate o).2⟩ :: log) (s.operate o).1

/-- The packet that was handed out for the first time most recently. -/
def given? (log : List Entry) : Option Message := log.findSome? Entry.packet?

def handedOut (log : List Entry) : Nat :=
  1 + (log.takeWhile fun e => e.packet?.isNone).countP fun e => e.resent?.isSome

def acknowledgements (log : List Entry) : Nat := log.countP Entry.acknowledges

section

variable {e : Entry} {log : List Entry} {m : Message}

theorem given?_of_packet (h : e.packet? = some m) : given? (e :: log) = some m := by
  simp [given?, h]

theorem given?_of_step (h : e.packet? = none) : given? (e :: log) = given? log := by
  simp [given?, h]

theorem handedOut_of_packet (h : e.packet? = some m) : handedOut (e :: log) = 1 := by
  simp [handedOut, h]

theorem handedOut_of_resent (h : e.packet? = none) (hm : e.resent? = some m) :
    handedOut (e :: log) = handedOut log + 1 := by
  simp [handedOut, h, hm, Nat.add_comm]

theorem handedOut_of_step (h : e.packet? = none) (hm : e.resent? = none) :
    handedOut (e :: log) = handedOut log := by
  simp [handedOut, h, hm]

end

/-! ### Accounts

Nothing is asked here of the order of the operations. -/

structure InStep (s : Sender) : Prop where
  handshake : s.phase = .awaitHandshake →
    ∃ filename mode, s.lastSent = some (.writeRequest filename mode)
  ready : ∀ n, s.phase = .ready n → s.nextBlock = n
  awaitAck : ∀ n, s.phase = .awaitAck n →
    s.nextBlock = n ∧ ∃ payload, s.lastSent = some (.data n payload)

/-- What a sender knows after the given operations. -/
structure Accounts (maxRetries : Nat) (log : List Entry) (s : Sender) : Prop where
  inStep : s.InStep
  ceiling : s.ceiling = max maxRetries 1
  lastSent : s.lastSent = given? log
  attempts : s.lastSent.isSome → s.attempts = handedOut log
  positive : s.lastSent.isSome → 1 ≤ s.attempts
  within : s.lastSent.isSome → s.attempts ≤ max maxRetries 1
  blocks : s.blocks = acknowledgements log

variable {maxRetries : Nat} {log : List Entry}

theorem accounts_new (maxRetries : Nat) : Accounts maxRetries [] (new maxRetries) where
  inStep := ⟨nofun, nofun, nofun⟩
  ceiling := rfl
  lastSent := rfl
  attempts := nofun
  positive := nofun
  within := nofun
  blocks := rfl

theorem Accounts.blocks_of_other (h : Accounts maxRetries log s) {e : Entry}
    (other : e.acknowledges = false) : s.blocks = acknowledgements (e :: log) := by
  simp [acknowledgements, other, h.blocks]

theorem Accounts.blocks_of_acknowledged (h : Accounts maxRetries log s) {e : Entry}
    (acknowledged : e.acknowledges = true) : s.blocks + 1 = acknowledgements (e :: log) := by
  simp [acknowledgements, acknowledged, h.blocks]

/-- What hands out no packet keeps the account of the packet that is out. -/
theorem Accounts.keep (h : Accounts maxRetries log s) {e : Entry} (noPacket : e.packet? = none)
    (noCopy : e.resent? = none) (inStep : s'.InStep) (ceiling : s'.ceiling = s.ceiling)
    (lastSent : s'.lastSent = s.lastSent) (attempts : s'.attempts = s.attempts)
    (blocks : s'.blocks = acknowledgements (e :: log)) : Accounts maxRetries (e :: log) s' where
  inStep := inStep
  ceiling := ceiling.trans h.ceiling
  lastSent := by rw [lastSent, h.lastSent, given?_of_step noPacket]
  attempts := by rw [lastSent, attempts, handedOut_of_step noPacket noCopy]; exact h.attempts
  positive := by rw [lastSent, attempts]; exact h.positive
  within := by rw [lastSent, attempts]; exact h.within
  blocks := blocks

/-- A packet that goes out for the first time opens a new account. -/
theorem Accounts.give (h : Accounts maxRetries log s) {e : Entry} {m : Message}
    (packet : e.packet? = some m) (other : e.acknowledges = false) (inStep : s'.InStep)
    (ceiling : s'.ceiling = s.ceiling) (lastSent : s'.lastSent = some m)
    (attempts : s'.attempts = 1) (blocks : s'.blocks = s.blocks) :
    Accounts maxRetries (e :: log) s' where
  inStep := inStep
  ceiling := ceiling.trans h.ceiling
  lastSent := by rw [lastSent, given?_of_packet packet]
  attempts _ := by rw [attempts, handedOut_of_packet packet]
  positive _ := Nat.le_of_eq attempts.symm
  within _ := by rw [attempts]; exact Nat.le_max_right _ _
  blocks := blocks.trans (h.blocks_of_other other)

theorem inStep_of_over (h : s.phase = .done ∨ s.phase = .failed) : s.InStep := by
  refine ⟨?_, ?_, ?_⟩ <;> rcases h with h | h <;> simp [h]

theorem inStep_advance (s : Sender) (n : UInt16) : (s.advance n).InStep := by
  refine ⟨nofun, ?_, nofun⟩
  rintro _ ⟨⟩
  rfl

/-- An operation adds to the accounts what it does. -/
theorem Does.accounts (h : Accounts maxRetries log s) (does : Does s o s' answer) :
    Accounts maxRetries (⟨s.phase, o, answer⟩ :: log) s' := by
  cases does with
  | opens filename mode =>
    refine h.give rfl rfl ⟨?_, nofun, nofun⟩ rfl rfl rfl rfl
    intro _
    exact ⟨filename, mode, rfl⟩
  | sends payload =>
    refine h.give rfl rfl ⟨nofun, nofun, ?_⟩ rfl rfl rfl rfl
    rintro _ ⟨⟩
    exact ⟨rfl, payload, rfl⟩
  | resends news other last few =>
    have hsome : s.lastSent.isSome := by rw [last]; rfl
    exact {
      inStep := ⟨h.inStep.handshake, h.inStep.ready, h.inStep.awaitAck⟩
      ceiling := h.ceiling
      lastSent := by rw [given?_of_step rfl]; exact h.lastSent
      attempts := fun _ => by rw [handedOut_of_resent rfl rfl, ← h.attempts hsome]
      positive := fun _ => Nat.le_add_left 1 _
      within := fun _ => by rw [← h.ceiling]; exact few
      blocks := h.blocks_of_other other }
  | givesUp news other last spent =>
    exact h.keep rfl rfl (inStep_of_over (.inr rfl)) rfl rfl rfl (h.blocks_of_other other)
  | waits news other => exact h.keep rfl rfl h.inStep rfl rfl rfl (h.blocks_of_other other)
  | starts phase =>
    refine h.keep rfl rfl (inStep_advance s 1) rfl rfl rfl (h.blocks_of_other ?_)
    simp [Entry.acknowledges, Operation.acknowledges, phase]
  | advances phase =>
    refine h.keep rfl rfl (inStep_advance _ _) rfl rfl rfl (h.blocks_of_acknowledged ?_)
    simp [Entry.acknowledges, Operation.acknowledges, phase]
  | finishes phase =>
    refine h.keep rfl rfl (inStep_of_over (.inl rfl)) rfl rfl rfl (h.blocks_of_acknowledged ?_)
    simp [Entry.acknowledges, Operation.acknowledges, phase]
  | fails other =>
    exact h.keep rfl rfl (inStep_of_over (.inr rfl)) rfl rfl rfl (h.blocks_of_other other)

/-- After any operations whatsoever a sender has its accounts in order. -/
theorem accounts_of_history (h : History maxRetries log s) : Accounts maxRetries log s := by
  induction h with
  | start => exact accounts_new maxRetries
  | next before o ih => exact (operate_does _ o).accounts ih

/-! ### Numbers

Whether a sender wants a block is seen by the phase that the operation finds, so discipline is read
off the log. -/

/-- A sender is opened once, before anything else, and given a block only when it wants one. -/
inductive Disciplined : List Entry → Prop where
  | opened {e : Entry} (request : e.operation.isRequest) : Disciplined [e]
  | next {e : Entry} {log : List Entry} (before : Disciplined log)
      (once : e.operation.isRequest = false)
      (wanted : e.operation.payload?.isSome → ∃ n, e.phase = .ready n) : Disciplined (e :: log)

def payloads (log : List Entry) : List Bytes := (log.filterMap (·.operation.payload?)).reverse

def blockPackets (log : List Entry) : List Message :=
  (log.filterMap fun e => e.operation.payload?.bind fun _ => e.packet?).reverse

/-- The phase of a disciplined sender that was given `k` blocks, of which `blocks` have been
acknowledged. -/
inductive Reckons (k : Nat) : Phase → Nat → Prop where
  | awaitHandshake (none : k = 0) : Reckons k .awaitHandshake 0
  | ready : Reckons k (.ready (number (k + 1))) k
  | awaitAck {blocks : Nat} (out : blocks + 1 = k) : Reckons k (.awaitAck (number k)) blocks
  | done : Reckons k .done k
  | failed {blocks : Nat} (rest : blocks = k ∨ blocks + 1 = k) : Reckons k .failed blocks

section

variable {k blocks : Nat} {n : UInt16}

theorem Reckons.of_handshake (h : Reckons k .awaitHandshake blocks) : k = 0 ∧ blocks = 0 := by
  cases h with
  | awaitHandshake none => exact ⟨none, rfl⟩

theorem Reckons.of_ready (h : Reckons k (.ready n) blocks) : n = number (k + 1) ∧ blocks = k := by
  cases h with
  | ready => exact ⟨rfl, rfl⟩

theorem Reckons.of_awaitAck (h : Reckons k (.awaitAck n) blocks) :
    n = number k ∧ blocks + 1 = k := by
  cases h with
  | awaitAck out => exact ⟨rfl, out⟩

theorem Reckons.rest {phase : Phase} (h : Reckons k phase blocks) :
    blocks = k ∨ blocks + 1 = k := by
  cases h with
  | awaitHandshake none => exact .inl none.symm
  | ready => exact .inl rfl
  | awaitAck out => exact .inr out
  | done => exact .inl rfl
  | failed rest => exact rest

end

structure Numbers (log : List Entry) (s : Sender) : Prop where
  numbered : blockPackets log =
    (payloads log).mapIdx fun k payload => .data (number (k + 1)) payload
  reckons : Reckons (payloads log).length s.phase s.blocks

/-- What is no block leaves the numbers as they are. -/
theorem Numbers.keep (h : Numbers log s) {e : Entry} (noBlock : e.operation.payload? = none)
    (reckons : Reckons (payloads log).length s'.phase s'.blocks) : Numbers (e :: log) s' := by
  have hpayloads : payloads (e :: log) = payloads log := by simp [payloads, noBlock]
  have hpackets : blockPackets (e :: log) = blockPackets log := by simp [blockPackets, noBlock]
  exact ⟨by rw [hpackets, hpayloads, h.numbered], by rwa [hpayloads]⟩

theorem payload?_of_news {o : Operation} (h : o.isNews) : o.payload? = none := by
  cases o with
  | request filename mode => rfl
  | block payload => cases h
  | receive m => rfl
  | silence => rfl

/-- A sender that is used with discipline goes on with its numbers. -/
theorem Does.numbers (h : Numbers log s) (inStep : s.InStep) (does : Does s o s' answer)
    (once : o.isRequest = false) (wanted : o.payload?.isSome → ∃ n, s.phase = .ready n) :
    Numbers (⟨s.phase, o, answer⟩ :: log) s' := by
  have hreckons := h.reckons
  cases does with
  | opens filename mode => cases once
  | sends payload =>
    obtain ⟨n, hphase⟩ := wanted rfl
    rw [hphase] at hreckons
    obtain ⟨hn, hblocks⟩ := hreckons.of_ready
    have hnext : s.nextBlock = number ((payloads log).length + 1) :=
      (inStep.ready n hphase).trans hn
    have hpayloads : ∀ e : Entry, e.operation = .block payload →
        payloads (e :: log) = payloads log ++ [payload] := by
      intro e he
      simp [payloads, he, Operation.payload?]
    refine ⟨?_, ?_⟩
    · rw [hpayloads _ rfl, List.mapIdx_concat, ← h.numbered, ← hnext]
      simp [blockPackets, Operation.payload?, Entry.packet?]
    · rw [hpayloads _ rfl, List.length_append, List.length_singleton]
      dsimp only
      rw [hnext]
      exact .awaitAck (by rw [hblocks])
  | resends news other last few => exact h.keep (payload?_of_news news) hreckons
  | givesUp news other last spent =>
    exact h.keep (payload?_of_news news) (.failed hreckons.rest)
  | waits news other => exact h.keep (payload?_of_news news) hreckons
  | starts phase =>
    rw [phase] at hreckons
    obtain ⟨hnone, hblocks⟩ := hreckons.of_handshake
    refine h.keep rfl ?_
    simp only [advance, hblocks, hnone]
    exact .ready
  | advances phase =>
    rw [phase] at hreckons
    obtain ⟨hn, hblocks⟩ := hreckons.of_awaitAck
    refine h.keep rfl ?_
    simp only [advance, hblocks, hn, number_succ]
    exact .ready
  | finishes phase =>
    rw [phase] at hreckons
    obtain ⟨-, hblocks⟩ := hreckons.of_awaitAck
    refine h.keep rfl ?_
    simp only [hblocks]
    exact .done
  | fails other => exact h.keep rfl (.failed hreckons.rest)

/-- The blocks of a sender that is used with discipline are numbered in their order. -/
theorem numbers_of_history (h : History maxRetries log s) (disciplined : Disciplined log) :
    Numbers log s := by
  induction h with
  | start => cases disciplined
  | @next log s before o ih =>
    have hdoes := operate_does s o
    cases disciplined with
    | opened request =>
      cases before
      cases o with
      | request filename mode => exact ⟨rfl, .awaitHandshake rfl⟩
      | _ => cases request
    | next earlier once wanted =>
      exact hdoes.numbers (ih earlier) (accounts_of_history before).inStep once wanted

/-! ### What is kept -/

/-- What is known of a sender after the given operations, and of what it will do next. -/
structure Kept (maxRetries : Nat) (log : List Entry) (s : Sender) : Prop where
  accounts : Accounts maxRetries log s
  /-- Only the packet that was handed out last is handed out again, and nothing else changes. -/
  resends : ∀ o m, (s.operate o).2 = .step (.ok (.resend m)) →
    given? log = some m ∧ (s.operate o).1 = { s with attempts := s.attempts + 1 }
  /-- A sender gives up after as many attempts as are allowed. -/
  givesUp : ∀ o n, (s.operate o).2 = .step (.ok (.giveUp n)) →
    n = max maxRetries 1 ∧ (s.operate o).1.phase = .failed
  failed : s.phase = .failed → ∀ o, o.isNews → (s.operate o).1.phase = .failed
  numbers : Disciplined log → Numbers log s

theorem Does.of_resend {m : Message} (h : Does s o s' (.step (.ok (.resend m)))) :
    s.lastSent = some m ∧ s' = { s with attempts := s.attempts + 1 } := by
  cases h with
  | resends news other last few => exact ⟨last, rfl⟩

theorem Does.of_giveUp {n : Nat} (h : Does s o s' (.step (.ok (.giveUp n)))) :
    s.lastSent.isSome ∧ n = s.attempts ∧ s.ceiling ≤ s.attempts ∧ s'.phase = .failed := by
  cases h with
  | givesUp news other last spent => exact ⟨by rw [last]; rfl, rfl, spent, rfl⟩

theorem Does.stays_failed (h : Does s o s' answer) (failed : s.phase = .failed) (news : o.isNews) :
    s'.phase = .failed := by
  cases h with
  | opens filename mode => cases news
  | sends payload => cases news
  | resends news other last few => exact failed
  | givesUp news other last spent => rfl
  | waits news other => exact failed
  | starts phase => rw [failed] at phase; cases phase
  | advances phase => rw [failed] at phase; cases phase
  | finishes phase => rw [failed] at phase; cases phase
  | fails other => rfl

/-- After any operations in any order a sender knows which packet is out and how often it was
handed out, hands out that packet and no other again, and gives up in time. -/
theorem accounts_are_kept (h : History maxRetries log s) : Kept maxRetries log s := by
  have haccounts := accounts_of_history h
  refine ⟨haccounts, ?_, ?_, ?_, numbers_of_history h⟩
  · intro o m hanswer
    have hdoes := operate_does s o
    rw [hanswer] at hdoes
    obtain ⟨hlast, hnext⟩ := hdoes.of_resend
    exact ⟨haccounts.lastSent ▸ hlast, hnext⟩
  · intro o n hanswer
    have hdoes := operate_does s o
    rw [hanswer] at hdoes
    obtain ⟨hsome, rfl, hspent, hphase⟩ := hdoes.of_giveUp
    have hwithin := haccounts.within hsome
    rw [haccounts.ceiling] at hspent
    exact ⟨Nat.le_antisymm hwithin hspent, hphase⟩
  · intro failed o news
    exact (operate_does s o).stays_failed failed news

/-- A sender that may send each packet twice gives up its first block when it is not acknowledged a
second time. -/
theorem gives_up_first_block : ∃ log s, History 2 log s ∧ Disciplined log ∧
    s.phase = .awaitAck 1 ∧ s.attempts = 2 ∧ handedOut log = 2 ∧
    given? log = some (.data 1 [7]) ∧ blockPackets log = [.data 1 [7]] ∧
    (s.operate .silence).2 = .step (.ok (.giveUp 2)) ∧ (s.operate .silence).1.phase = .failed := by
  have hstart : History 2 [] (new 2) := .start
  have hopened := (hstart.next (.request "a" "o")).next (.receive (.ack 0))
  have hsent := (hopened.next (.block [7])).next (.receive (.ack 0))
  obtain ⟨haccounts, -, hgivesUp, -, hnumbers⟩ := accounts_are_kept hsent
  have hdisciplined : Disciplined
      [⟨.awaitAck 1, .receive (.ack 0), .step (.ok (.resend (.data 1 [7])))⟩,
        ⟨.ready 1, .block [7], .packet (.data 1 [7])⟩,
        ⟨.awaitHandshake, .receive (.ack 0), .step (.ok .readBlock)⟩,
        ⟨.start, .request "a" "o", .packet (.writeRequest "a" "o")⟩] :=
    .next (.next (.next (.opened rfl) rfl nofun) rfl fun _ => ⟨1, rfl⟩) rfl nofun
  refine ⟨_, _, hsent, hdisciplined, rfl, rfl, (haccounts.attempts rfl).symm,
    haccounts.lastSent.symm, (hnumbers hdisciplined).numbered, rfl, ?_⟩
  exact (hgivesUp .silence 2 rfl).2

end Sender

end TftpUpload
