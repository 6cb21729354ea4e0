/-
  TftpUpload/Proofs/Receiver/Reports.lean
  =======================================
  **What a reception reports, and what it has written.**

  A reception reports a block before it acknowledges it, and the last block after
  it has acknowledged it; only then does it know how many there are.  `Reports`
  says for each status which blocks have been reported.  Where a reception fails,
  these may be fewer than have been written, since the last block is written,
  and counted, before anything is said about it.
-/
import TftpUpload.Proofs.Receiver.Finished

namespace TftpUpload

open Wire Transfer Storage

namespace Reception

variable {σ κ : Type} {name : String} {blocks blocks' : List Bytes} {calls calls' : List Call}
  {reports : List Progress} {store : σ} {violated : Prop}

/-! ### Reports

The hint of a report is zero as long as the end is not known. -/

def underWay (n : Nat) : List Progress := (List.range n).map fun i => ⟨number (i + 1), 0⟩

theorem underWay_succ (n : Nat) : underWay (n + 1) = underWay n ++ [⟨number (n + 1), 0⟩] := by
  rw [underWay, List.range_succ, List.map_append, List.map_singleton]
  rfl

def whole (n : Nat) : List Progress := underWay (n - 1) ++ [⟨number n, number n⟩]

/-- The reports are those of the first blocks, and these have been written. -/
def Partly (blocks : List Bytes) (calls : List Call) (reports : List Progress) : Prop :=
  ∃ m ≤ blocks.length, reports = underWay m ∧ (blocks.take m).flatten <+: stored calls

theorem partly_nothing (blocks : List Bytes) (calls : List Call) : Partly blocks calls [] :=
  ⟨0, Nat.zero_le _, rfl, List.nil_prefix⟩

theorem Partly.mono (h : Partly blocks calls reports) (longer : blocks <+: blocks')
    (more : calls <+: calls') : Partly blocks' calls' reports := by
  obtain ⟨m, hm, hreports, hstored⟩ := h
  obtain ⟨rest, rfl⟩ := longer
  refine ⟨m, ?_, hreports, ?_⟩
  · rw [List.length_append]
    omega
  · rw [List.take_append_of_le_length hm]
    exact hstored.trans (stored_isPrefix more)

theorem Written.partly (h : Written name blocks calls) :
    Partly blocks calls (underWay blocks.length) := by
  obtain ⟨writes, rfl, -, hstored⟩ := h.shape
  refine ⟨blocks.length, Nat.le_refl _, rfl, ?_⟩
  rw [List.take_length]
  simp [Call.accepted, hstored]

theorem Filed.partly (h : Filed name blocks calls) :
    Partly blocks calls (underWay (blocks.length - 1)) := by
  obtain ⟨writes, rfl, -, hstored⟩ := h.shape
  refine ⟨blocks.length - 1, Nat.sub_le _ _, rfl, ?_⟩
  have hsplit : stored (Call.create name true :: (writes ++ [.flush true])) = blocks.flatten := by
    simp [Call.accepted, hstored]
  rw [hsplit]
  exact ⟨(blocks.drop (blocks.length - 1)).flatten, by
    rw [← List.flatten_append, List.take_append_drop]⟩

/-- What a reception for which `blocks` have come in order has reported by the time it has come to a
status. -/
inductive Reports (blocks : List Bytes) (calls : List Call) (reports : List Progress) :
    Status κ → Prop where
  | waiting {r : Reception κ} (all : reports = underWay blocks.length) :
    Reports blocks calls reports (.waiting r)
  | replying {datagram : Bytes} {r : Reception κ} (all : reports = underWay blocks.length) :
    Reports blocks calls reports (.replying datagram r)
  /-- The last block has been written, but not acknowledged. -/
  | completing {datagram : Bytes} {s : Session κ}
      (butLast : reports = underWay (blocks.length - 1)) :
    Reports blocks calls reports (.completing datagram s)
  | lingering {s : Session κ} {summary : Summary} (all : reports = whole blocks.length) :
    Reports blocks calls reports (.lingering s summary)
  | repeating {datagram : Bytes} {s : Session κ} {summary : Summary}
      (all : reports = whole blocks.length) :
    Reports blocks calls reports (.repeating datagram s summary)
  | succeeded {summary : Summary} (all : reports = whole blocks.length) :
    Reports blocks calls reports (.ended (.ok summary))
  | parting {datagram : Bytes} {failure : Failure} {created : Option String}
      (partly : Partly blocks calls reports) :
    Reports blocks calls reports (.parting datagram failure created)
  | failed {failure : Failure} (partly : Partly blocks calls reports) :
    Reports blocks calls reports (.ended (.error failure))

/-! ### Failing -/

theorem abandon_reports (partly : Partly blocks calls reports) (st : Storage σ κ)
    (failure : Failure) (created : Option String) (store : σ) :
    Reports blocks (abandon st.recorded failure created (store, calls)).2.2 reports
      (abandon st.recorded failure created (store, calls)).1 := by
  unfold abandon
  split
  · rw [recorded_discard]
    exact .failed (partly.mono List.prefix_rfl (List.prefix_append _ _))
  · exact .failed partly

theorem fail_reports (partly : Partly blocks calls reports) (st : Storage σ κ) (failure : Failure)
    (s : Session κ) (store : σ) :
    Reports blocks (fail st.recorded failure s (store, calls)).2.2 reports
      (fail st.recorded failure s (store, calls)).1 := by
  unfold fail
  split
  · exact .parting partly
  · exact abandon_reports partly st failure _ store

/-! ### Arrivals -/

theorem feed_reports (st : Storage σ κ) {s : Session κ} (maxRetries : Nat)
    (session : s.Receives name blocks) {m : Message} (hfits : m.Fits) (store : σ)
    (written : Written name blocks calls) :
    Reports (extend blocks m) (feed st.recorded maxRetries s m (store, calls)).1.2.2
      (underWay blocks.length ++ (feed st.recorded maxRetries s m (store, calls)).2.toList)
      (feed st.recorded maxRetries s m (store, calls)).1.1 := by
  obtain ⟨s', answer, store', calls', hstep, htakes⟩ :=
    Session.step_receiving st session hfits store calls
  simp only [feed, hstep]
  cases htakes with
  | again repeats =>
    have hextend : extend blocks m = blocks := extend_of_ne fun payload hm => by
      subst hm
      exact number_ne_succ blocks.length repeats.symm
    obtain ⟨datagram, hdatagram⟩ := packet_ack (number blocks.length)
    simp only [answer_reply _ _ _ hdatagram, hextend, if_true, Option.toList_none, List.append_nil]
    exact .replying rfl
  | @wrote payload _ more due only whole next =>
    subst due
    have hcounted : s'.blocks ≠ s.blocks := by
      rw [next.count, session.count, List.length_append, List.length_singleton]
      exact Nat.succ_ne_self _
    obtain ⟨datagram, hdatagram⟩ := packet_ack (number (blocks.length + 1))
    simp only [answer_reply _ _ _ hdatagram, session.full.extend_next, if_neg hcounted]
    refine .replying ?_
    rw [next.lastAcked, List.length_append, List.length_singleton, underWay_succ]
    rfl
  | @finished payload _ more due only whole next =>
    subst due
    obtain ⟨datagram, hdatagram⟩ := packet_ack (number (blocks.length + 1))
    simp only [answer_complete _ _ _ hdatagram, session.full.extend_next, Option.toList_none,
      List.append_nil]
    refine .completing ?_
    rw [List.length_append, List.length_singleton, Nat.add_sub_cancel]
  | @lost payload _ uses fault due only within filename =>
    have hpartly := written.partly.mono (prefix_extend blocks m) (List.prefix_append calls uses)
    simp only [Option.toList_none, List.append_nil]
    exact fail_reports hpartly st (Session.writeFailed fault) s' store'
  | @refused _ failure notDue violation filename =>
    have hpartly := written.partly.mono (prefix_extend blocks m) List.prefix_rfl
    rw [Option.toList_none, List.append_nil]
    exact fail_reports hpartly st failure s' store'

theorem silence_reports (st : Storage σ κ) {r : Reception κ}
    (session : r.session.Receives name blocks) (written : Written name blocks calls) (store : σ) :
    Reports blocks (silence st.recorded r (store, calls)).2.2 (underWay blocks.length)
      (silence st.recorded r (store, calls)).1 := by
  unfold silence
  dsimp only
  split
  · exact fail_reports written.partly st _ _ store
  · obtain ⟨datagram, hdatagram⟩ := packet_ack (number blocks.length)
    rw [session.repetition_eq, hdatagram]
    exact .replying rfl

theorem arrive_reports (st : Storage σ κ) {status : Status κ}
    (stands : Stands violated name blocks (status, store, calls))
    (h : Reports blocks calls reports status) (demand : status.demand = .arrival) (a : Arrival) :
    Reports (heard blocks a) (Status.arrive st.recorded (status, store, calls) a).1.2.2
      (reports ++ (Status.arrive st.recorded (status, store, calls) a).2.toList)
      (Status.arrive st.recorded (status, store, calls) a).1.1 := by
  cases h with
  | @waiting r all =>
    subst all
    cases stands with
    | waiting session written =>
      simp only [Status.arrive, arrive]
      cases hread : a.read with
      | message m =>
        simp only [heard, hread]
        exact feed_reports st r.maxRetries session (fits_of_read hread) store written
      | silence =>
        simp only [heard, hread, Option.toList_none, List.append_nil]
        exact silence_reports st session written store
      | failure failure =>
        simp only [heard, hread, Option.toList_none, List.append_nil]
        exact fail_reports written.partly st failure _ store
  | @lingering s summary all =>
    cases stands with
    | lingering session filed =>
      obtain ⟨datagram, hdatagram⟩ := packet_ack (number blocks.length)
      rw [session.finished.heard_eq a]
      simp only [Status.arrive, Option.toList_none, List.append_nil]
      rcases linger_of_complete session.phase hdatagram st.recorded
        ⟨name, blocks.length, blocks.flatten.length⟩ a (store, calls) with
        ⟨-, hlinger⟩ | ⟨-, hlinger⟩
      · rw [hlinger]
        exact .repeating all
      · rw [hlinger]
        exact .succeeded all
  | replying | completing | repeating | succeeded | parting | failed => cases demand

/-! ### Verdicts -/

theorem settle_reports (st : Storage σ κ) {status : Status κ}
    (stands : Stands violated name blocks (status, store, calls))
    (h : Reports blocks calls reports status) (v : Verdict) :
    Reports blocks (Status.settle st.recorded (status, store, calls) v).1.2.2
      (reports ++ (Status.settle st.recorded (status, store, calls) v).2.toList)
      (Status.settle st.recorded (status, store, calls) v).1.1 := by
  cases h with
  | replying all =>
    subst all
    cases stands with
    | replying carries session written =>
      cases v with
      | ok _ =>
        refine .waiting ?_
        exact List.append_nil _
      | error fault =>
        simp only [Status.settle, Option.toList_none, List.append_nil]
        exact fail_reports written.partly st _ _ store
  | completing butLast =>
    subst butLast
    cases stands with
    | completing carries session filed =>
      cases v with
      | ok _ =>
        refine .lingering ?_
        rw [whole, ← session.lastAcked]
        rfl
      | error fault =>
        simp only [Status.settle, Option.toList_none, List.append_nil]
        exact fail_reports filed.partly st _ _ store
  | repeating all =>
    cases v with
    | ok _ => exact .lingering ((List.append_nil _).trans all)
    | error fault => exact .succeeded ((List.append_nil _).trans all)
  | parting partly =>
    simp only [Status.settle, Option.toList_none, List.append_nil]
    exact abandon_reports partly st _ _ store
  | waiting all => exact .waiting ((List.append_nil _).trans all)
  | lingering all => exact .lingering ((List.append_nil _).trans all)
  | succeeded all => exact .succeeded ((List.append_nil _).trans all)
  | failed partly => exact .failed ((List.append_nil _).symm ▸ partly)

/-! ### Over a history

When a reception has ended, what it has reported is a part of the blocks or all of them. -/

/-- Before the first block nothing is reported. -/
theorem Stands.reports_nothing {status : Status κ}
    (h : Stands violated name [] (status, store, calls)) : Reports [] calls [] status := by
  have unfinished : ¬ Finished [] := fun finished => finished.not_full full_nil
  cases h with
  | waiting session written => exact .waiting rfl
  | replying carries session written => exact .replying rfl
  | completing carries session filed => exact absurd session.finished unfinished
  | lingering session filed => exact absurd session.finished unfinished
  | repeating carries session filed => exact absurd session.finished unfinished
  | succeeded finished filed => exact absurd finished unfinished
  | parting farewell lawful touched => exact .parting (partly_nothing _ _)
  | failed lawful touched => exact .failed (partly_nothing _ _)

theorem Refused.reports_nothing {status : Status κ} (h : Refused violated (status, store, calls))
    (blocks : List Bytes) : Reports blocks calls [] status := by
  cases h with
  | parting farewell lawful rejected => exact .parting (partly_nothing _ _)
  | ended lawful rejected => exact .failed (partly_nothing _ _)

theorem history_reports (st : Storage σ κ) (connected : Bool) (request : Bytes)
    (settings : Settings) (initial : σ) {inputs : List Input} {state : State (σ × List Call) κ}
    {log : Log}
    (h : (machine st.recorded).History
      (start st.recorded connected request settings (initial, [])) inputs state log) :
    Reports (blocksIn inputs) state.2.2 log.progress.toList state.1 := by
  induction h with
  | start =>
    rcases history_stands st connected request settings initial .start with
      ⟨name, mode, hrequest, hstands⟩ | hrefused
    · exact hstands.reports_nothing
    · exact hrefused.reports_nothing _
  | @arrival inputs state log a before demand ih =>
    obtain ⟨status, store, calls⟩ := state
    rw [blocksIn_arrival, Log.progress_note]
    rcases history_stands st connected request settings initial before with
      ⟨name, mode, hrequest, hstands⟩ | hrefused
    · exact arrive_reports st hstands ih demand a
    · exact absurd demand hrefused.demand_ne
  | @verdict inputs state log datagram v before demand ih =>
    obtain ⟨status, store, calls⟩ := state
    rw [blocksIn_verdict, Log.progress_note]
    rcases history_stands st connected request settings initial before with
      ⟨name, mode, hrequest, hstands⟩ | hrefused
    · exact settle_reports st hstands ih v
    · cases hrefused with
      | parting farewell lawful rejected =>
        cases ih with
        | parting partly =>
          rw [← List.append_nil log.progress.toList] at partly
          exact abandon_reports partly st _ _ store
      | ended lawful rejected => cases demand

/-- What has been reported has been written, and it is all there is once nothing can fail any
more. -/
theorem Reports.partly_or_whole {status : Status κ} (h : Reports blocks calls reports status)
    (stands : Stands violated name blocks (status, store, calls)) :
    Partly blocks calls reports ∨
      reports = whole blocks.length ∧ ∀ failure, status ≠ .ended (.error failure) := by
  cases h with
  | waiting all =>
    cases stands with
    | waiting session written => exact .inl (all ▸ written.partly)
  | replying all =>
    cases stands with
    | replying carries session written => exact .inl (all ▸ written.partly)
  | completing butLast =>
    cases stands with
    | completing carries session filed => exact .inl (butLast ▸ filed.partly)
  | lingering all | repeating all | succeeded all => exact .inr ⟨all, nofun⟩
  | parting partly | failed partly => exact .inl partly

theorem Reports.partly_of_refused {status : Status κ} (h : Reports blocks calls reports status)
    (refused : Refused violated (status, store, calls)) : Partly blocks calls reports := by
  cases refused with
  | parting farewell lawful rejected =>
    cases h with
    | parting partly => exact partly
  | ended lawful rejected =>
    cases h with
    | failed partly => exact partly

end Reception

end TftpUpload
