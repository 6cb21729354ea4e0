/-
  TftpUpload/Proofs/Exchange/Outcome.lean
  =======================================
  **What joined sides say about the file.**

  The bytes that the storage has accepted are those of the first blocks of the
  upload, and so a prefix of the source; a session that is complete, and a
  reception that has concluded, have all of them.  An upload that could not read
  its source has sent no last block, so no session is ever complete beside it.
-/
import TftpUpload.Proofs.Exchange.Invariant
import TftpUpload.Proofs.Receiver.AllOrNothing

namespace TftpUpload

open Wire Transfer Storage Simulation

namespace Reception

variable {σ κ : Type} {violated : Prop} {name : String} {blocks : List Bytes} {status : Status κ}
  {store : σ} {calls : List Call}

/-- A reception that has concluded has stored all of its blocks, and is complete as long as it
lasts. -/
theorem Stands.concluded (h : Stands violated name blocks (status, store, calls))
    {summary : Summary} (hsummary : status.concluded? = some summary) :
    Finished blocks ∧ summary = ⟨name, blocks.length, blocks.flatten.length⟩ ∧
      stored calls = blocks.flatten ∧
      ((∃ s, status.session? = some s ∧ s.Completed name blocks) ∨
        status = .ended (.ok summary)) := by
  cases h with
  | lingering session filed =>
    cases hsummary
    exact ⟨session.finished, rfl, filed.stored_eq, .inl ⟨_, rfl, session⟩⟩
  | repeating carries session filed =>
    cases hsummary
    exact ⟨session.finished, rfl, filed.stored_eq, .inl ⟨_, rfl, session⟩⟩
  | succeeded finished filed =>
    cases hsummary
    exact ⟨finished, rfl, filed.stored_eq, .inr rfl⟩
  | waiting session written => cases hsummary
  | replying carries session written => cases hsummary
  | completing carries session filed => cases hsummary
  | parting farewell lawful touched => cases hsummary
  | failed lawful touched => cases hsummary

end Reception

namespace Exchange

variable {σ κ γ : Type} {violated : Prop} {medium : Medium γ} {tracks : Tracks medium}
  {setup : Setup σ κ} {blocks : List Bytes} {n : Nat} {x y : Exchange σ κ γ}

theorem Joined.stored_isPrefix (h : Joined violated tracks setup blocks n x) {earlier : List Call}
    (hearlier : earlier <+: x.calls) : stored earlier <+: setup.source.rest := by
  obtain ⟨rest, hreads⟩ := h.reads
  refine (Storage.stored_isPrefix hearlier).trans (List.IsPrefix.trans ?_ hreads.flatten_isPrefix)
  cases hcallee : x.callee with
  | idle store =>
    have htaken := h.callee
    rw [hcallee] at htaken
    cases htaken
    simp only [calls, hcallee, stored_nil, List.nil_prefix]
  | active state =>
    obtain ⟨status, store, calls⟩ := state
    simp only [Exchange.calls, hcallee]
    rcases h.active hcallee with hrefused | ⟨k, -, hstands⟩
    · have hrejected : Reception.Rejected calls := by cases hrefused <;> assumption
      simp only [hrejected.stored_eq, List.nil_prefix]
    · refine hstands.stored_isPrefix.trans ⟨(blocks.drop k).flatten, ?_⟩
      rw [← List.flatten_append, List.take_append_drop]

theorem Joined.session (h : Joined violated tracks setup blocks n x) {s : Session κ}
    (hs : x.session? = some s) : ∃ k ≤ blocks.length,
      (s.Receives setup.filename (blocks.take k) ∨ s.Completed setup.filename (blocks.take k)) ∧
        stored x.calls = (blocks.take k).flatten := by
  cases hcallee : x.callee with
  | idle store => simp [session?, hcallee] at hs
  | active state =>
    obtain ⟨status, store, calls⟩ := state
    simp only [Exchange.session?, hcallee] at hs
    simp only [Exchange.calls, hcallee]
    rcases h.active hcallee with hrefused | ⟨k, hk, hstands⟩
    · cases hrefused <;> cases hs
    · exact ⟨k, hk, hstands.session hs⟩

theorem Joined.complete (h : Joined violated tracks setup blocks n x) (hx : x.Complete) :
    Finished blocks ∧ stored x.calls = blocks.flatten := by
  obtain ⟨s, last, hs, hphase⟩ := hx
  obtain ⟨k, -, hreceives | hcompleted, hstored⟩ := h.session hs
  · rw [hreceives.phase] at hphase
    cases hphase
  · have hall := h.orderly.take_eq hcompleted.finished
    rw [hall] at hstored
    exact ⟨hall ▸ hcompleted.finished, hstored⟩

theorem Joined.full_of_readFailed (h : Joined violated tracks setup blocks n x)
    (hx : x.ReadFailed) : Full blocks := by
  obtain ⟨fault, hended | ⟨datagram, hparting⟩⟩ := hx
  · have hcaller := h.caller
    rw [hended] at hcaller
    cases hcaller with
    | failed lawful unread => exact unread fault rfl
  · have hcaller := h.caller
    rw [hparting] at hcaller
    cases hcaller with
    | parting farewell lawful unread => exact unread fault rfl

structure Kept (summary : Summary) (x : Exchange σ κ γ) : Prop where
  concluded : x.concluded? = some summary
  complete : x.Complete ∨ x.calleeResult = some (.ok summary)
  result : ∀ result, x.calleeResult = some result → result = .ok summary
  undiscarded : ∀ name, Call.discard name ∉ x.calls

theorem Joined.concluded (h : Joined violated tracks setup blocks n x) {summary : Summary}
    (hx : x.concluded? = some summary) :
    Finished blocks ∧ summary = ⟨setup.filename, blocks.length, blocks.flatten.length⟩ ∧
      Kept summary x := by
  cases hcallee : x.callee with
  | idle store => simp [Exchange.concluded?, hcallee] at hx
  | active state =>
    obtain ⟨status, store, calls⟩ := state
    have hstatus : status.concluded? = some summary := by
      simpa only [Exchange.concluded?, hcallee] using hx
    rcases h.active hcallee with hrefused | ⟨k, -, hstands⟩
    · cases hrefused <;> cases hstatus
    · obtain ⟨hfinished, hsummary, -, hlast⟩ := hstands.concluded hstatus
      have hnot : ∀ failure, status ≠ .ended (.error failure) := by
        rintro failure rfl
        cases hstatus
      have hall := h.orderly.take_eq hfinished
      rw [hall] at hfinished hsummary hlast
      refine ⟨hfinished, hsummary, hx, ?_, ?_, ?_⟩
      · rcases hlast with ⟨s, hs, hcompleted⟩ | hended
        · exact .inl ⟨s, _, by simpa only [Exchange.session?, hcallee] using hs, hcompleted.phase⟩
        · exact .inr (by simp only [calleeResult, hcallee, hended])
      · intro result hresult
        rcases hlast with ⟨s, hs, -⟩ | hended
        · cases status <;> simp [Reception.Status.session?, calleeResult, hcallee] at hs hresult
        · simp only [calleeResult, hcallee, hended, Option.some.injEq] at hresult
          exact hresult.symm
      · simpa only [Exchange.calls, hcallee] using hstands.discard_not_mem hnot

/-- After `k` blocks a session has stored the first `k` times 512 bytes of the source, or all of it
if there are fewer. -/
theorem Joined.stored_take (short : ∀ k, 0 < setup.source.grant k)
    (h : Joined violated tracks setup blocks n x) {s : Session κ} (hs : x.session? = some s) :
    s.blocks ≤ setup.source.rest.length / blockSize + 1 ∧
      stored x.calls = setup.source.rest.take (s.blocks * blockSize) := by
  obtain ⟨rest, hreads⟩ := h.reads
  have hle := h.length_le
  obtain ⟨k, hk, hreceives | hcompleted, hstored⟩ := h.session hs
  · rw [hreceives.count, hstored, List.length_take_of_le hk]
    exact ⟨Nat.le_trans hk hle, hreads.flatten_take hk hreceives.full⟩
  · have hall := h.orderly.take_eq hcompleted.finished
    have hfinished : Finished blocks := hall ▸ hcompleted.finished
    have hcount : s.blocks = blocks.length := by rw [hcompleted.count, hall]
    have hlength := hfinished.length_eq
    rw [hreads.flatten_eq short hfinished] at hlength
    rw [hcount, hstored, hall, hreads.flatten_eq short hfinished, List.take_of_length_le]
    · exact ⟨hle, rfl⟩
    · simp only [blockSize] at hlength ⊢
      omega

theorem Joined.caller_lawful (h : Joined violated tracks setup blocks n x) {failure : Failure}
    (hx : x.callerResult = some (.error failure)) : failure.isViolation = false := by
  have hcaller := h.caller
  unfold callerResult at hx
  split at hx
  · rename_i result heq
    cases hx
    rw [heq] at hcaller
    cases hcaller with
    | failed lawful unread => exact lawful
  · cases hx

theorem Joined.callee_lawful (h : Joined violated tracks setup blocks n x) {failure : Failure}
    (hx : x.calleeResult = some (.error failure)) (hfailure : failure.isViolation) : violated := by
  unfold calleeResult at hx
  split at hx
  · rename_i result store heq
    cases hx
    rcases h.active heq with hrefused | ⟨k, -, hstands⟩
    · cases hrefused with
      | ended lawful rejected => exact lawful hfailure
    · cases hstands with
      | failed lawful touched => exact lawful hfailure
  · cases hx

/-- A complete session has all of the source, if no read says that the source has ended before it
has. -/
theorem Joined.stored_eq (short : ∀ k, 0 < setup.source.grant k)
    (h : Joined violated tracks setup blocks n x) (hx : x.Complete) :
    stored x.calls = setup.source.rest := by
  obtain ⟨rest, hreads⟩ := h.reads
  obtain ⟨hfinished, hstored⟩ := h.complete hx
  rw [hstored, hreads.flatten_eq short hfinished]

theorem Joined.not_readFailed (narrow : Narrow violated tracks setup)
    (h : Joined violated tracks setup blocks n x) (hy : Reaches medium setup.ends x y)
    (hx : x.Complete) : ¬ y.ReadFailed := by
  intro hfailed
  obtain ⟨hfinished, -⟩ := h.complete hx
  obtain ⟨more, n', -, hjoined⟩ := h.reaches narrow hy
  -- A read can fail only behind full blocks, but the session has got one that is not full.
  have hfull : Full (blocks ++ more) := hjoined.full_of_readFailed hfailed
  exact hfinished.not_full fun b hb => hfull b (List.mem_append_left more hb)

theorem Joined.not_complete (narrow : Narrow violated tracks setup)
    (h : Joined violated tracks setup blocks n x) (hy : Reaches medium setup.ends x y)
    (hx : x.ReadFailed) : ¬ y.Complete := by
  intro hcomplete
  obtain ⟨more, n', -, hjoined⟩ := h.reaches narrow hy
  obtain ⟨hfinished, -⟩ := hjoined.complete hcomplete
  exact hfinished.not_full (hjoined.full_of_readFailed (hy.readFailed hx))

/-- When the upload reports that it is done, the reception has the file for good and reports the
same. -/
theorem Joined.kept (narrow : Narrow violated tracks setup)
    (short : ∀ k, 0 < setup.source.grant k) (h : Joined violated tracks setup blocks n x)
    (hy : Reaches medium setup.ends x y) {summary : Summary}
    (hx : x.callerResult = some (.ok summary)) :
    summary = ⟨setup.filename, setup.source.rest.length / blockSize + 1,
      setup.source.rest.length⟩ ∧ Kept summary y := by
  have hended : x.caller = .ended (.ok summary) := by
    unfold callerResult at hx
    split at hx
    · rename_i result heq
      rw [heq, Option.some.inj hx]
    · cases hx
  obtain ⟨rest, hreads⟩ := h.reads
  have hconcluded := h.agreed summary hended
  obtain ⟨hfinished, hsummary, -⟩ := h.concluded hconcluded
  obtain ⟨more, n', -, hjoined⟩ := h.reaches narrow hy
  obtain ⟨-, -, hkept⟩ := hjoined.concluded (hy.concluded? hconcluded)
  rw [hfinished.length_eq, hreads.flatten_eq short hfinished] at hsummary
  exact ⟨hsummary, hkept⟩

end Exchange

end TftpUpload
