/-
  TftpUpload/Proofs/Receiver/Silence.lean
  =======================================
  **A reception gives up when its acknowledgement has been of no use.**

  A reception counts the silent intervals since the last packet, whatever that
  was, and repeats its last acknowledgement after each but the last.  So its
  count starts at 0 where that of an upload starts at 1, and it is compared after
  it has been raised; `Endures` says what comes of it: when `n` intervals have
  been silent, the log ends in that acknowledgement, `n + 1` times at least.  There
  may be more copies, because a packet that comes again is answered by the same
  acknowledgement and begins a new count.

  Only silence makes a reception give up (`moves_timeout`), and its session is
  then the one that was waiting.
-/
import TftpUpload.Proofs.Receiver.Answers
import TftpUpload.Proofs.Transfer.Silence

namespace TftpUpload

open Wire Transfer Storage

namespace Reception

variable {σ κ : Type} {st : Storage σ κ} {store store' : σ} {s : Session κ} {m : Message}
  {settings : Settings} {ends : List Arrival} {sent : List Bytes} {datagram : Bytes}

/-! ### Failing -/

theorem eq_of_fail (failure : Failure) {failure' : Failure}
    (h : (fail st failure s store).1 = .ended (.error failure')) : failure = failure' := by
  unfold fail at h
  split at h
  · cases h
  · rw [abandon_ended] at h
    cases h
    rfl

/-- A failure that the peer is not told of ends a reception at once. -/
theorem fail_ended {failure : Failure} (silent : failure.farewell = none) (st : Storage σ κ)
    (s : Session κ) (store : σ) : (fail st failure s store).1 = .ended (.error failure) := by
  unfold fail
  rw [silent]
  exact abandon_ended st failure _ store

@[simp]
theorem fail_transport (st : Storage σ κ) (fault : Fault) (s : Session κ) (store : σ) :
    (fail st (.transport fault) s store).1 = .ended (.error (.transport fault)) :=
  fail_ended rfl st s store

/-! ### Enduring silence

The count of a reception is compared with the ends of its waits, which a reception does not keep. -/

/-- A reception whose waits have had the given ends, and what it has sent. -/
inductive Endures (settings : Settings) (ends : List Arrival) :
    Status κ → List Bytes → Prop where
  | waiting {r : Reception κ} {datagram : Bytes} {sent : List Bytes} (settled : r.session.Settled)
      (allowed : r.maxRetries = settings.maxRetries)
      (carries : packet (.ack r.session.lastAcked) = .ok datagram)
      (copies : List.replicate (r.silent + 1) datagram <:+ sent)
      (silent : EndsIn ends r.silent .silence) (fewer : r.silent < max settings.maxRetries 1) :
    Endures settings ends (.waiting r) sent
  | replying {r : Reception κ} {datagram : Bytes} {sent : List Bytes} (settled : r.session.Settled)
      (allowed : r.maxRetries = settings.maxRetries)
      (carries : packet (.ack r.session.lastAcked) = .ok datagram)
      (copies : List.replicate (r.silent + 1) datagram <:+ sent ++ [datagram])
      (silent : EndsIn ends r.silent .silence) (fewer : r.silent < max settings.maxRetries 1) :
    Endures settings ends (.replying datagram r) sent
  | completing {datagram : Bytes} {s : Session κ} {sent : List Bytes}
      (heard : EndsIn ends 0 .silence) :
    Endures settings ends (.completing datagram s) sent
  | lingering {s : Session κ} {summary : Summary} {sent : List Bytes}
      (heard : EndsIn ends 0 .silence) :
    Endures settings ends (.lingering s summary) sent
  | repeating {datagram : Bytes} {s : Session κ} {summary : Summary} {sent : List Bytes}
      (heard : EndsIn ends 0 .silence) :
    Endures settings ends (.repeating datagram s summary) sent
  | parting {datagram : Bytes} {failure : Failure} {created : Option String} {sent : List Bytes}
      (farewell : failure.farewell = some datagram) (heard : EndsIn ends 0 .silence) :
    Endures settings ends (.parting datagram failure created) sent
  | ended {result : Except Failure Summary} {sent : List Bytes} :
    Endures settings ends (.ended result) sent

theorem abandon_endures (st : Storage σ κ) (failure : Failure) (created : Option String)
    (store : σ) : Endures settings ends (abandon st failure created store).1 sent := by
  rw [abandon_ended]
  exact .ended

theorem fail_endures (heard : EndsIn ends 0 .silence) (st : Storage σ κ) (failure : Failure)
    (s : Session κ) (store : σ) : Endures settings ends (fail st failure s store).1 sent := by
  unfold fail
  split
  · rename_i hfarewell
    exact .parting hfarewell heard
  · exact abandon_endures st failure _ store

/-- A packet begins a new count. -/
theorem feed_endures (settled : s.Settled) (heard : EndsIn ends 0 .silence) (st : Storage σ κ)
    (m : Message) (store : σ) :
    Endures settings ends (feed st settings.maxRetries s m store).1.1 sent := by
  have hpositive : 0 < max settings.maxRetries 1 := Nat.le_max_right _ _
  have hfeeds := feed_feeds settled st settings.maxRetries m store
  generalize feed st settings.maxRetries s m store = fed at hfeeds ⊢
  obtain ⟨state, report⟩ := fed
  cases hfeeds with
  | replied stepped carries =>
    exact .replying (settled.next stepped) rfl carries (List.suffix_append _ _) heard hpositive
  | completed stepped carries => exact .completing heard
  | failed stepped => exact fail_endures heard st _ _ _

theorem silence_endures {r : Reception κ} (settled : r.session.Settled)
    (allowed : r.maxRetries = settings.maxRetries)
    (carries : packet (.ack r.session.lastAcked) = .ok datagram)
    (copies : List.replicate (r.silent + 1) datagram <:+ sent)
    (silent : EndsIn ends r.silent .silence) (st : Storage σ κ) (store : σ) :
    Endures settings (ends ++ [.silence]) (silence st r store).1 sent := by
  unfold silence
  dsimp only
  split
  · rw [fail_ended rfl]
    exact .ended
  · rename_i hfew
    have hfewer : r.silent + 1 < max settings.maxRetries 1 := by omega
    rw [Session.repetition, carries]
    refine .replying settled allowed carries ?_ silent.more hfewer
    rw [List.replicate_succ']
    exact (List.suffix_append_inj_of_length_eq rfl).2 ⟨copies, rfl⟩

theorem linger_endures (st : Storage σ κ) (s : Session κ) (summary : Summary) (a : Arrival)
    (store : σ) : Endures settings (ends ++ [a]) (linger st s summary a store).1 sent := by
  unfold linger
  split
  · rename_i m hread
    split
    · split
      · exact .repeating (endsIn_of_read ends hread (by simp))
      · exact .ended
    · exact .ended
  · exact .ended

theorem arrive_endures {status : Status κ} (h : Endures settings ends status sent)
    (demand : status.demand = .arrival) (st : Storage σ κ) (a : Arrival) (store : σ) :
    Endures settings (ends ++ [a]) (Status.arrive st (status, store) a).1.1 sent := by
  cases h with
  | @lingering s summary _ heard => exact linger_endures st s summary a store
  | @waiting r datagram _ settled allowed carries copies silent fewer =>
    simp only [Status.arrive, arrive]
    cases hread : a.read with
    | silence =>
      obtain rfl := read_silence_iff.1 hread
      exact silence_endures settled allowed carries copies silent st store
    | message m =>
      rw [allowed]
      exact feed_endures settled (endsIn_of_read ends hread (by simp)) st m store
    | failure failure => exact fail_endures (endsIn_of_read ends hread (by simp)) st failure _ store
  | replying | completing | repeating | parting | ended => cases demand

theorem settle_endures {status : Status κ} (h : Endures settings ends status sent)
    (demand : status.demand = .send datagram) (st : Storage σ κ) (v : Verdict) (store : σ) :
    Endures settings ends (Status.settle st (status, store) v).1.1 (sent ++ [datagram]) := by
  cases h with
  | replying settled allowed carries copies silent fewer =>
    cases demand
    cases v with
    | ok _ => exact .waiting settled allowed carries copies silent fewer
    | error fault =>
      simp only [Status.settle, fail_transport]
      exact .ended
  | completing heard =>
    cases v with
    | ok _ => exact .lingering heard
    | error fault =>
      simp only [Status.settle, fail_transport]
      exact .ended
  | repeating heard =>
    cases v with
    | ok _ => exact .lingering heard
    | error fault => exact .ended
  | parting farewell heard => exact abandon_endures st _ _ store
  | waiting | lingering | ended => cases demand

theorem start_endures (st : Storage σ κ) (connected : Bool) (request : Bytes)
    (settings : Settings) (store : σ) :
    Endures settings [] (start st connected request settings store).1 [] := by
  unfold start
  split
  · split
    · exact feed_endures Session.Reached.new.settled (endsIn_nil _) st _ store
    · exact fail_endures (endsIn_nil _) st _ _ store
  · exact .ended

theorem history_endures (st : Storage σ κ) (connected : Bool) (request : Bytes)
    (settings : Settings) (initial : σ) {inputs : List Input} {state : State σ κ} {log : Log}
    (h : (machine st).History (start st connected request settings initial) inputs state log) :
    Endures settings (waits inputs) state.1 log.sent.toList := by
  induction h with
  | start => exact start_endures st connected request settings initial
  | @arrival inputs state log a before demand ih =>
    rw [waits_arrival, Log.sent_note]
    exact arrive_endures ih demand st a state.2
  | @verdict inputs state log datagram v before demand ih =>
    rw [waits_verdict, Log.sent_note, Array.toList_push]
    exact settle_endures ih demand st v state.2

/-- As many silent intervals in a row as an acknowledgement may be sent end a reception. -/
theorem Endures.ended_of_silence {status : Status κ} (h : Endures settings ends status sent)
    (silence : List.replicate (max settings.maxRetries 1) .silence <:+ ends) :
    ∃ result, status = .ended result := by
  have hpositive : 1 ≤ max settings.maxRetries 1 := Nat.le_max_right _ _
  cases h with
  | waiting settled allowed carries copies silent fewer =>
    have hle := silent.le silence
    omega
  | replying settled allowed carries copies silent fewer =>
    have hle := silent.le silence
    omega
  | completing heard | lingering heard | repeating heard | parting farewell heard =>
    have hle := heard.le silence
    omega
  | ended => exact ⟨_, rfl⟩

/-! ### Giving up

Timeouts are the failures of silence only, so the last wait of a reception that has given up was
silent. -/

theorem feed_ne_timeout (settled : s.Settled) (st : Storage σ κ) (maxRetries : Nat) (m : Message)
    (store : σ) (n : Nat) :
    (feed st maxRetries s m store).1.1 ≠ .ended (.error (.timeout n)) := by
  have hfeeds := feed_feeds settled st maxRetries m store
  generalize feed st maxRetries s m store = fed at hfeeds ⊢
  obtain ⟨state, report⟩ := fed
  cases hfeeds with
  | replied stepped carries => nofun
  | completed stepped carries => nofun
  | failed stepped => exact fun h => Session.step_ne_timeout stepped n (eq_of_fail _ h)

theorem start_ne_timeout (st : Storage σ κ) (connected : Bool) (request : Bytes)
    (settings : Settings) (store : σ) (n : Nat) :
    (start st connected request settings store).1 ≠ .ended (.error (.timeout n)) := by
  unfold start
  split
  · split
    · exact feed_ne_timeout Session.Reached.new.settled st _ _ store n
    · intro h
      cases eq_of_fail _ h
  · nofun

theorem arrive_timeout {r : Reception κ} (settled : r.session.Settled) {a : Arrival} {n : Nat}
    (h : (r.arrive st a store).1.1 = .ended (.error (.timeout n))) :
    a = .silence ∧ n = r.silent + 1 ∧ r.maxRetries ≤ n := by
  unfold arrive at h
  split at h
  · exact absurd h (feed_ne_timeout settled st _ _ store n)
  · rename_i hread
    refine ⟨read_silence_iff.1 hread, ?_⟩
    unfold silence at h
    dsimp only at h
    split at h
    · rename_i hspent
      cases eq_of_fail _ h
      exact ⟨rfl, hspent⟩
    · split at h
      · cases h
      · cases eq_of_fail _ h
  · rename_i failure hread
    cases eq_of_fail _ h
    rcases read_failure hread with ⟨e, h⟩ | ⟨fault, h⟩ | h <;> cases h

theorem linger_ne_timeout (st : Storage σ κ) (s : Session κ) (summary : Summary) (a : Arrival)
    (store : σ) (n : Nat) : (linger st s summary a store).1 ≠ .ended (.error (.timeout n)) := by
  unfold linger
  split
  · split
    · split <;> nofun
    · nofun
  · nofun

/-- A reception gives up when it waits and hears nothing, and in no other way. -/
theorem moves_timeout {status : Status κ} {state : State σ κ} {log log' : Log} {input : Input}
    {n : Nat} (h : Endures settings ends status sent)
    (move : (machine st).Moves (status, store) log input state log')
    (gaveUp : state.1 = .ended (.error (.timeout n))) :
    ∃ r, status = .waiting r ∧ input = .arrival .silence ∧ log'.sent = log.sent ∧
      n = r.silent + 1 ∧ r.maxRetries ≤ n := by
  cases move with
  | arrival a demand =>
    cases h with
    | @waiting r datagram _ settled allowed carries copies silent fewer =>
      obtain ⟨rfl, hn⟩ := arrive_timeout settled gaveUp
      exact ⟨r, rfl, rfl, Log.sent_note _ _, hn⟩
    | @lingering s summary _ heard => exact absurd gaveUp (linger_ne_timeout st s summary a store n)
    | replying | completing | repeating | parting | ended => cases demand
  | verdict v demand =>
    cases h with
    | replying | completing =>
      cases v with
      | ok _ => cases gaveUp
      | error fault => cases eq_of_fail (.transport fault) gaveUp
    | repeating =>
      cases v with
      | ok _ => cases gaveUp
      | error fault => cases gaveUp
    | @parting datagram failure created _ farewell heard =>
      simp only [machine, Status.settle, abandon_ended] at gaveUp
      cases gaveUp
      cases farewell
    | waiting | lingering | ended => cases demand

/-- What a reception that has given up after `n` attempts can show for it. -/
structure GaveUp (st : Storage σ κ) (start : State σ κ) (n : Nat) (inputs : List Input)
    (log : Log) : Prop where
  /-- So many of its waits have ended in silence, one after another. -/
  silent : List.replicate n .silence <:+ waits inputs
  /-- When it gave up it was waiting, and it had sent the acknowledgement of the block that its
  session acknowledged last so many times. -/
  repeated : ∃ earlier r store log' datagram,
    inputs = earlier ++ [.arrival .silence] ∧
    (machine st).History start earlier (.waiting r, store) log' ∧ log'.sent = log.sent ∧
    packet (.ack r.session.lastAcked) = .ok datagram ∧
    List.replicate n datagram <:+ log.sent.toList

theorem gaveUp_of_timeout (st : Storage σ κ) (connected : Bool) (request : Bytes)
    (settings : Settings) (initial : σ) {inputs : List Input} {log : Log} {n : Nat}
    (h : (machine st).History (start st connected request settings initial) inputs
      (.ended (.error (.timeout n)), store) log) :
    n = max settings.maxRetries 1 ∧
      GaveUp st (start st connected request settings initial) n inputs log := by
  rcases List.eq_nil_or_concat inputs with rfl | ⟨earlier, input, rfl⟩
  · exact absurd (congrArg Prod.fst h.of_nil.1.symm)
      (start_ne_timeout st connected request settings initial n)
  · rw [List.concat_eq_append] at h ⊢
    obtain ⟨⟨status, store'⟩, log', hbefore, hmove⟩ := h.last
    have hendures := history_endures st connected request settings initial hbefore
    obtain ⟨r, rfl, rfl, hsent, hn, hspent⟩ := moves_timeout hendures hmove rfl
    cases hendures with
    | waiting settled allowed carries copies silent fewer =>
      have hlimit : n = max settings.maxRetries 1 := by omega
      refine ⟨hlimit, ?_, earlier, r, store', log', _, rfl, hbefore, hsent.symm, carries, ?_⟩
      · rw [waits_arrival, hn]
        exact silent.more.suffix
      · rw [hn, hsent]
        exact copies

end Reception

end TftpUpload
