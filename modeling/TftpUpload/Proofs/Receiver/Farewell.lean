/-
  TftpUpload/Proofs/Receiver/Farewell.lean
  ========================================
  **What a reception has told its peer.**

  A session answers with acknowledgements only (`step_answers`), and it fails
  with what can be told, or with what its storage gives as a reason
  (`step_speaks`).  So the only ERROR that a reception ever sends is the one
  that tells its failure (`history_tells`).
-/
import TftpUpload.Proofs.Transfer.Farewell
import TftpUpload.Receiver.Reception
import TftpUpload.Storage.Directory

namespace TftpUpload

open Wire Transfer Text Storage

variable {σ κ : Type} {unsaid : Failure → Prop} {st : Storage σ κ}

/-! ### Storages -/

/-- Whatever the storage gives as a reason can be told, except what is left unsaid. -/
structure Storage.Frank (unsaid : Failure → Prop) (st : Storage σ κ) : Prop where
  create : ∀ name store refusal store', 0 ∉ Utf8.encode name →
    st.create name store = (.error refusal, store') →
      Failure.TellableUnless unsaid (.rejected refusal.code refusal.message)
  write : ∀ k bytes store fault store', st.writeAll k bytes store = (.error fault, store') →
    (Session.writeFailed fault).TellableUnless unsaid
  flush : ∀ k store fault store', st.flush k store = (.error fault, store') →
    (Session.writeFailed fault).TellableUnless unsaid

/-! ### Sessions

A packet that a session accepts is answered by an acknowledgement, be it new or repeated. -/

namespace Session

variable {s s' : Session κ} {m : Message} {store store' : σ}

def Step.message : Step → Message
  | .reply m => m
  | .complete m => m

theorem write_answers {block : UInt16} {payload : Bytes} {answer : Step}
    (h : s.write st block payload store = (s', .ok answer, store')) :
    answer.message = .ack block := by
  unfold write at h
  split at h
  · cases h
  · split at h
    · cases h
    · dsimp only at h
      split at h
      · split at h <;> cases h
        rfl
      · cases h
        rfl

theorem advance_answers {answer : Step} (h : s.advance st m store = (s', .ok answer, store')) :
    ∃ block, answer.message = .ack block := by
  unfold advance at h
  split at h
  · cases h
  · unfold accept at h
    split at h <;> cases h
    exact ⟨0, rfl⟩
  · split at h <;> cases h
    exact ⟨0, rfl⟩
  · split at h
    · cases h
      exact ⟨_, rfl⟩
    · split at h
      · exact ⟨_, write_answers h⟩
      · cases h
  · split at h <;> cases h
    exact ⟨_, rfl⟩
  · cases h

/-- A session answers with acknowledgements, in whatever state it is. -/
theorem ack_of_step {answer : Step} (h : s.step st m store = (s', .ok answer, store')) :
    ∃ block, answer.message = .ack block := by
  unfold step at h
  split at h
  · rename_i hadvance
    cases h
    exact advance_answers hadvance
  · cases h

theorem step_answers {answer : Step} (h : s.step st m store = (s', .ok answer, store')) :
    answer.message.opcode ≠ .error := by
  obtain ⟨block, hblock⟩ := ack_of_step h
  rw [hblock]
  nofun

theorem write_speaks (frank : st.Frank unsaid) {block : UInt16} {payload : Bytes}
    {failure : Failure} (h : s.write st block payload store = (s', .error failure, store')) :
    failure.TellableUnless unsaid := by
  unfold write at h
  split at h
  · cases h
    exact .inl (Failure.tellable_of_text rfl (by decide))
  · split at h
    · rename_i hwrite
      cases h
      exact frank.write _ _ _ _ _ hwrite
    · dsimp only at h
      split at h
      · split at h
        · rename_i hflush
          cases h
          exact frank.flush _ _ _ _ hflush
        · cases h
      · cases h

theorem advance_speaks (frank : st.Frank unsaid) (named : m.Named) {failure : Failure}
    (h : s.advance st m store = (s', .error failure, store')) : failure.TellableUnless unsaid := by
  unfold advance at h
  split at h
  · cases h
    exact .inl (Failure.tellable_of_silent _ rfl)
  · unfold accept at h
    split at h
    · rename_i hcreate
      cases h
      exact frank.create _ _ _ _ (named _ _ rfl) hcreate
    · cases h
  · split at h <;> cases h
    exact .inl (Failure.tellable_unexpected _ (Failure.plain_sessionLabel _))
  · split at h
    · cases h
    · split at h
      · exact write_speaks frank h
      · cases h
        exact .inl (Failure.tellable_unexpectedBlock _ _)
  · split at h <;> cases h
    exact .inl (Failure.tellable_unexpected _ (Failure.plain_sessionLabel _))
  · cases h
    exact .inl (Failure.tellable_unexpected _ (Failure.plain_sessionLabel _))

theorem step_speaks (frank : st.Frank unsaid) (named : m.Named) {failure : Failure}
    (h : s.step st m store = (s', .error failure, store')) : failure.TellableUnless unsaid := by
  unfold step at h
  split at h
  · cases h
  · rename_i hadvance
    cases h
    exact advance_speaks frank named hadvance

end Session

/-! ### Receptions

A reception that fails sends its ERROR first and removes its file then, so a failure to remove it is
not told. -/

namespace Reception

/-- What a reception has sent by the time it has come to a status. -/
inductive Tells (unsaid : Failure → Prop) : Status κ → Array Bytes → Prop where
  | waiting {r : Reception κ} {sent : Array Bytes} (quiet : Quiet sent.toList) :
    Tells unsaid (.waiting r) sent
  | replying {m : Message} {datagram : Bytes} {r : Reception κ} {sent : Array Bytes}
      (carries : packet m = .ok datagram) (lawful : m.opcode ≠ .error)
      (quiet : Quiet sent.toList) :
    Tells unsaid (.replying datagram r) sent
  | completing {m : Message} {datagram : Bytes} {s : Session κ} {sent : Array Bytes}
      (carries : packet m = .ok datagram) (lawful : m.opcode ≠ .error)
      (quiet : Quiet sent.toList) :
    Tells unsaid (.completing datagram s) sent
  | lingering {s : Session κ} {summary : Summary} {sent : Array Bytes}
      (quiet : Quiet sent.toList) :
    Tells unsaid (.lingering s summary) sent
  | repeating {m : Message} {datagram : Bytes} {s : Session κ} {summary : Summary}
      {sent : Array Bytes} (carries : packet m = .ok datagram) (lawful : m.opcode ≠ .error)
      (quiet : Quiet sent.toList) :
    Tells unsaid (.repeating datagram s summary) sent
  | parting {datagram : Bytes} {failure : Failure} {created : Option String} {sent : Array Bytes}
      (farewell : failure.farewell = some datagram) (speaks : failure.TellableUnless unsaid)
      (quiet : Quiet sent.toList) :
    Tells unsaid (.parting datagram failure created) sent
  | ended {result : Except Failure Summary} {sent : Array Bytes} (told : Told result sent)
      (speaks : ∀ failure, result = .error failure → failure.TellableUnless unsaid) :
    Tells unsaid (.ended result) sent

variable {sent : Array Bytes}

theorem abandon_tells (st : Storage σ κ) {failure : Failure}
    (speaks : failure.TellableUnless unsaid) (told : Told (.error failure) sent)
    (created : Option String) (store : σ) :
    Tells unsaid (abandon st failure created store).1 sent := by
  rw [abandon_ended]
  refine .ended told ?_
  rintro failure' ⟨⟩
  exact speaks

theorem fail_tells (st : Storage σ κ) {failure : Failure} (speaks : failure.TellableUnless unsaid)
    (quiet : Quiet sent.toList) (s : Session κ) (store : σ) :
    Tells unsaid (fail st failure s store).1 sent := by
  unfold fail
  split
  · rename_i datagram hfarewell
    exact .parting hfarewell speaks quiet
  · rename_i hfarewell
    exact abandon_tells st speaks (quiet.told hfarewell) _ _

theorem tellableUnless_of_silent (failure : Failure) (h : failure.reply = none) :
    failure.TellableUnless unsaid :=
  .inl (Failure.tellable_of_silent failure h)

theorem answer_tells (st : Storage σ κ) {answer : Session.Step}
    (lawful : answer.message.opcode ≠ .error) (quiet : Quiet sent.toList) (maxRetries : Nat)
    (s : Session κ) (store : σ) :
    Tells unsaid (Reception.answer st maxRetries s answer store).1 sent := by
  cases answer with
  | reply m =>
    unfold Reception.answer
    dsimp only
    split
    · rename_i hpacket
      exact .replying hpacket lawful quiet
    · exact fail_tells st (tellableUnless_of_silent _ rfl) quiet _ _
  | complete m =>
    unfold Reception.answer
    dsimp only
    split
    · rename_i hpacket
      exact .completing hpacket lawful quiet
    · exact fail_tells st (tellableUnless_of_silent _ rfl) quiet _ _

theorem feed_tells (frank : st.Frank unsaid) {m : Message} (named : m.Named)
    (quiet : Quiet sent.toList) (maxRetries : Nat) (s : Session κ) (store : σ) :
    Tells unsaid (feed st maxRetries s m store).1.1 sent := by
  unfold feed
  split
  · rename_i hstep
    exact fail_tells st (Session.step_speaks frank named hstep) quiet _ _
  · rename_i s' answer store' hstep
    dsimp only
    exact answer_tells st (Session.step_answers hstep) quiet maxRetries s' store'

theorem silence_tells (st : Storage σ κ) (quiet : Quiet sent.toList) (r : Reception κ) (store : σ) :
    Tells unsaid (silence st r store).1 sent := by
  unfold silence
  dsimp only
  split
  · exact fail_tells st (tellableUnless_of_silent _ rfl) quiet _ _
  · split
    · rename_i hpacket
      exact .replying hpacket nofun quiet
    · exact fail_tells st (tellableUnless_of_silent _ rfl) quiet _ _

theorem linger_tells (st : Storage σ κ) (quiet : Quiet sent.toList) (s : Session κ)
    (summary : Summary) (a : Arrival) (store : σ) :
    Tells unsaid (linger st s summary a store).1 sent := by
  have hended : Tells unsaid (.ended (.ok summary) : Status κ) sent := .ended (quiet.told rfl) nofun
  unfold linger
  split
  · split
    · rename_i m' store' hstep
      split
      · rename_i hpacket
        exact .repeating hpacket (Session.step_answers hstep) quiet
      · exact hended
    · exact hended
  · exact hended

theorem arrive_tells (frank : st.Frank unsaid) {status : Status κ} {store : σ}
    (h : Tells unsaid status sent) (demand : status.demand = .arrival) (a : Arrival) :
    Tells unsaid (Status.arrive st (status, store) a).1.1 sent := by
  cases h with
  | @waiting r _ quiet =>
    simp only [Status.arrive, arrive]
    split
    · rename_i hread
      exact feed_tells frank (named_of_read hread) quiet _ _ _
    · exact silence_tells st quiet r store
    · rename_i hread
      exact fail_tells st (.inl (Failure.tellable_of_read hread)) quiet _ _
  | lingering quiet =>
    simp only [Status.arrive]
    exact linger_tells st quiet _ _ a store
  | replying | completing | repeating | parting | ended => cases demand

theorem settle_tells {status : Status κ} {store : σ} {datagram : Bytes}
    (h : Tells unsaid status sent) (demand : status.demand = .send datagram) (v : Verdict) :
    Tells unsaid (Status.settle st (status, store) v).1.1 (sent.push datagram) := by
  cases h with
  | replying carries lawful quiet =>
    cases demand
    cases v with
    | ok _ => exact .waiting (quiet.push carries lawful)
    | error fault =>
      exact fail_tells st (tellableUnless_of_silent (.transport fault) rfl)
        (quiet.push carries lawful) _ _
  | completing carries lawful quiet =>
    cases demand
    cases v with
    | ok _ => exact .lingering (quiet.push carries lawful)
    | error fault =>
      exact fail_tells st (tellableUnless_of_silent (.transport fault) rfl)
        (quiet.push carries lawful) _ _
  | repeating carries lawful quiet =>
    cases demand
    cases v with
    | ok _ => exact .lingering (quiet.push carries lawful)
    | error fault => exact .ended ((quiet.push carries lawful).told rfl) nofun
  | parting farewell speaks quiet =>
    cases demand
    exact abandon_tells st speaks (quiet.told_push farewell) _ _
  | waiting | lingering | ended => cases demand

theorem start_tells (frank : st.Frank unsaid) (connected : Bool) {request : Bytes}
    (hrequest : request.length ≤ receiveLimit) (settings : Settings) (store : σ) :
    Tells unsaid (start st connected request settings store).1 #[] := by
  unfold start
  split
  · split
    · rename_i hdecode
      exact feed_tells frank (named_of_decode hdecode) quiet_nil _ _ _
    · rename_i e hdecode
      exact fail_tells st (.inl (Failure.tellable_decode hrequest hdecode)) quiet_nil _ _
  · refine .ended (quiet_nil.told rfl) ?_
    rintro failure ⟨⟩
    exact tellableUnless_of_silent _ rfl

/-- Wherever a reception has come, it has sent no ERROR but the one that tells its failure. -/
theorem history_tells (frank : st.Frank unsaid) (connected : Bool) {request : Bytes}
    (hrequest : request.length ≤ receiveLimit) (settings : Settings) (store : σ)
    {inputs : List Input} {state : State σ κ} {log : Log}
    (h : (machine st).History (start st connected request settings store) inputs state log) :
    Tells unsaid state.1 log.sent := by
  induction h with
  | start => exact start_tells frank connected hrequest settings store
  | arrival a before demand ih =>
    rw [Log.sent_note]
    exact arrive_tells frank ih demand a
  | verdict v before demand ih =>
    rw [Log.sent_note]
    exact settle_tells ih demand v

end Reception

end TftpUpload
