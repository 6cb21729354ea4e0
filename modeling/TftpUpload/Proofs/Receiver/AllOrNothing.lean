/-
  TftpUpload/Proofs/Receiver/AllOrNothing.lean
  ============================================
  **A reception stores all of a file or nothing of it.**

  Over every history of a reception (`history_stands`) the storage is asked for
  one destination at most.  If the reception ends well, the blocks that came in
  order are stored there and flushed, and nothing is ever removed; if it fails,
  the destination is removed once, after everything else, provided there is one
  (`all_or_nothing`).  The calls are those that the recorded storage has noted,
  which changes nothing for the reception
  (`TftpUpload.Proofs.Receiver.Mirror`).
-/
import TftpUpload.Proofs.Receiver.Reception
import TftpUpload.Proofs.Transfer.History
import TftpUpload.Storage.Memory

namespace TftpUpload

open Wire Transfer Storage

namespace Reception

variable {σ κ : Type}

def blocksIn (inputs : List Input) : List Bytes := inOrder (inputs.filterMap Input.message?)

theorem blocksIn_arrival (inputs : List Input) (a : Arrival) :
    blocksIn (inputs ++ [.arrival a]) = heard (blocksIn inputs) a := by
  unfold blocksIn heard
  rw [List.filterMap_append]
  cases hread : a.read with
  | message m =>
    have hmessage : [Input.arrival a].filterMap Input.message? = [m] := by
      simp [Input.message?, hread]
    rw [hmessage, inOrder_concat]
  | silence =>
    have hmessage : [Input.arrival a].filterMap Input.message? = [] := by
      simp [Input.message?, hread]
    rw [hmessage, List.append_nil]
  | failure failure =>
    have hmessage : [Input.arrival a].filterMap Input.message? = [] := by
      simp [Input.message?, hread]
    rw [hmessage, List.append_nil]

theorem blocksIn_verdict (inputs : List Input) (v : Verdict) :
    blocksIn (inputs ++ [.verdict v]) = blocksIn inputs := by
  simp [blocksIn, List.filterMap_cons, Input.message?]

/-- Wherever a reception has come, it stands by the blocks that came in order, under the name
that was asked for; or it was refused at the beginning. -/
theorem history_stands (st : Storage σ κ) (connected : Bool) (request : Bytes)
    (settings : Settings) (store : σ) {inputs : List Input} {state : State (σ × List Call) κ}
    {log : Log}
    (h : (machine st.recorded).History
      (start st.recorded connected request settings (store, [])) inputs state log) :
    (∃ name mode, decode request = .ok (.writeRequest name mode) ∧
      Stands True name (blocksIn inputs) state) ∨ Refused True state := by
  induction h with
  | start =>
    cases connected with
    | false => exact .inr (.ended nofun (.inl rfl))
    | true => exact (start_stands st request settings store (fun _ _ => trivial)
        (fun _ _ => .inl trivial)).1
  | @arrival inputs s log a before demand ih =>
    rcases ih with ⟨name, mode, hrequest, hstands⟩ | hrefused
    · refine .inl ⟨name, mode, hrequest, ?_⟩
      rw [blocksIn_arrival]
      exact (arrive_stands st hstands demand (fun _ _ => .inl trivial) (fun _ _ _ => trivial)).1
    · exact absurd demand hrefused.demand_ne
  | @verdict inputs s log datagram v before demand ih =>
    rcases ih with ⟨name, mode, hrequest, hstands⟩ | hrefused
    · refine .inl ⟨name, mode, hrequest, ?_⟩
      rw [blocksIn_verdict]
      exact settle_stands st hstands v
    · exact .inr (settle_refused st hrefused v)

/-! ### What a standing says about the calls

A destination is created once and removed once at most, which is counted over the calls. -/

theorem countP_isCreate_of_uses {uses : List Call} (h : ∀ c ∈ uses, c.isUse) :
    uses.countP Call.isCreate = 0 := by
  rw [List.countP_eq_zero]
  intro c hc
  simp [Call.isCreate_of_isUse (h c hc)]

theorem Touched.countP_isCreate {name : String} {blocks : List Bytes} {calls : List Call}
    (h : Touched name blocks calls) : calls.countP Call.isCreate = 1 := by
  obtain ⟨uses, rfl, honly, -⟩ := h
  rw [List.countP_cons, countP_isCreate_of_uses honly]
  rfl

/-- One destination at most is ever asked for. -/
theorem Stands.countP_isCreate {violated : Prop} {name : String} {blocks : List Bytes}
    {status : Status κ} {store : σ} {calls : List Call}
    (h : Stands violated name blocks (status, store, calls)) :
    calls.countP Call.isCreate = 1 := by
  obtain ⟨before, htouched, rfl | ⟨rfl, -⟩⟩ := h.touched
  · exact htouched.countP_isCreate
  · rw [List.countP_append, htouched.countP_isCreate]
    rfl

theorem Touched.discard_not_mem {name : String} {blocks : List Bytes} {calls : List Call}
    (h : Touched name blocks calls) (other : String) : Call.discard other ∉ calls := by
  obtain ⟨uses, rfl, honly, -⟩ := h
  intro hmem
  rcases List.mem_cons.1 hmem with heq | hmem
  · cases heq
  · cases honly _ hmem

/-- Nothing is removed before the reception has failed. -/
theorem Stands.discard_not_mem {violated : Prop} {name : String} {blocks : List Bytes}
    {status : Status κ} {store : σ} {calls : List Call}
    (h : Stands violated name blocks (status, store, calls))
    (hstatus : ∀ failure, status ≠ .ended (.error failure)) (other : String) :
    Call.discard other ∉ calls := by
  obtain ⟨before, htouched, rfl | ⟨-, failure, hfailed⟩⟩ := h.touched
  · exact htouched.discard_not_mem other
  · exact absurd hfailed (hstatus failure)

theorem Rejected.discard_not_mem {calls : List Call} (h : Rejected calls) (other : String) :
    Call.discard other ∉ calls := by
  rcases h with rfl | ⟨filename, rfl⟩ <;> simp

theorem Rejected.create_not_mem {calls : List Call} (h : Rejected calls) (name : String) :
    Call.create name true ∉ calls := by
  rcases h with rfl | ⟨filename, rfl⟩ <;> simp

/-! ### All or nothing

A reception that has ended has only one of two things to show. -/

/-- The calls of a reception that has stored a whole file under `summary.filename`: its
destination is created, filled and flushed, and holds `blocks`. -/
structure StoresAll (summary : Summary) (blocks : List Bytes) (calls : List Call) : Prop where
  shape : ∃ writes, calls = .create summary.filename true :: (writes ++ [.flush true]) ∧
    ∀ c ∈ writes, c.isWrite
  content : stored calls = blocks.flatten
  size : summary.bytes = (stored calls).length
  count : summary.blocks = blocks.length
  finished : Finished blocks

/-- The calls of a reception that has nothing to leave behind: a destination that was created is
removed at the end, and none is removed that was not created. -/
structure LeavesNothing (calls : List Call) : Prop where
  removed : ∀ name, Call.create name true ∈ calls →
    ∃ uses, calls = .create name true :: (uses ++ [.discard name]) ∧ ∀ c ∈ uses, c.isUse
  untouched : (∀ name, Call.create name true ∉ calls) → ∀ name, Call.discard name ∉ calls

theorem Filed.storesAll {name : String} {blocks : List Bytes} {calls : List Call}
    (h : Filed name blocks calls) (finished : Finished blocks) :
    StoresAll ⟨name, blocks.length, blocks.flatten.length⟩ blocks calls := by
  obtain ⟨writes, rfl, honly, hstored⟩ := h
  have hcontent : stored (.create name true :: (writes ++ [.flush true])) = blocks.flatten := by
    simp [Call.accepted, hstored]
  exact ⟨⟨writes, rfl, honly⟩, hcontent, by rw [hcontent], rfl, finished⟩

theorem Touched.leavesNothing {name : String} {blocks : List Bytes} {calls : List Call}
    (h : Touched name blocks calls) : LeavesNothing (calls ++ [.discard name]) := by
  obtain ⟨uses, rfl, honly, -⟩ := h
  constructor
  · intro other hmem
    have hother : other = name := by
      simp only [List.cons_append, List.mem_cons, Call.create.injEq, and_true, List.mem_append,
        reduceCtorEq, List.not_mem_nil, or_false] at hmem
      rcases hmem with heq | hmem
      · exact heq
      · cases honly _ hmem
    exact ⟨uses, by rw [hother, List.cons_append], honly⟩
  · intro hnone
    exact absurd List.mem_cons_self (hnone name)

/-- A reception is all or nothing towards its storage, whatever the storage does, whatever
arrives, and whichever packets cannot be sent. -/
theorem all_or_nothing (st : Storage σ κ) (connected : Bool) (request : Bytes)
    (settings : Settings) (initial : σ) {inputs : List Input} {status : Status κ} {store : σ}
    {calls : List Call} {log : Log}
    (h : (machine st.recorded).History
      (start st.recorded connected request settings (initial, [])) inputs (status, store, calls)
      log) :
    calls.countP Call.isCreate ≤ 1 ∧
      (∀ summary, status = .ended (.ok summary) →
        (∃ mode, decode request = .ok (.writeRequest summary.filename mode)) ∧
          StoresAll summary (blocksIn inputs) calls) ∧
      (∀ failure, status = .ended (.error failure) → LeavesNothing calls) ∧
      ((∀ failure, status ≠ .ended (.error failure)) → ∀ name, Call.discard name ∉ calls) := by
  rcases history_stands st connected request settings initial h with
    ⟨name, mode, hrequest, hstands⟩ | hrefused
  · refine ⟨Nat.le_of_eq hstands.countP_isCreate, ?_, ?_, hstands.discard_not_mem⟩
    · rintro summary rfl
      cases hstands with
      | succeeded finished filed => exact ⟨⟨mode, hrequest⟩, filed.storesAll finished⟩
    · rintro failure rfl
      cases hstands with
      | failed lawful touched => exact touched.leavesNothing
  · have hrejected : Rejected calls := by
      cases hrefused <;> assumption
    refine ⟨?_, ?_, ?_, fun _ => hrejected.discard_not_mem⟩
    · rcases hrejected with rfl | ⟨filename, rfl⟩ <;> simp [Call.isCreate]
    · rintro summary rfl
      cases hrefused
    · rintro failure rfl
      exact ⟨fun name hmem => absurd hmem (hrejected.create_not_mem name),
        fun _ => hrejected.discard_not_mem⟩

set_option maxRecDepth 20000 in
/-- A file of one byte is stored, and stays while the reception lingers. -/
theorem one_byte_is_stored :
    ((machine (Memory.storage {}).recorded).History
        (start (Memory.storage {}).recorded true [0, 2, 97, 0, 111, 0] {} ({}, []))
        [.verdict (.ok ()), .arrival (.datagram [0, 3, 0, 1, 7]), .verdict (.ok ()),
          .arrival .silence]
        (.ended (.ok ⟨"a", 1, 1⟩), (Memory.put {} ⟨"a", Content.empty.append [7]⟩),
          [.create "a" true, .write [7], .flush true])
        ⟨#[[0, 4, 0, 0], [0, 4, 0, 1]], #[⟨1, 1⟩]⟩) ∧
      StoresAll ⟨"a", 1, 1⟩ [[7]] [.create "a" true, .write [7], .flush true] := by
  have h : (machine (Memory.storage {}).recorded).History
      (start (Memory.storage {}).recorded true [0, 2, 97, 0, 111, 0] {} ({}, []))
      [.verdict (.ok ()), .arrival (.datagram [0, 3, 0, 1, 7]), .verdict (.ok ()),
        .arrival .silence]
      (.ended (.ok ⟨"a", 1, 1⟩), (Memory.put {} ⟨"a", Content.empty.append [7]⟩),
        [.create "a" true, .write [7], .flush true])
      ⟨#[[0, 4, 0, 0], [0, 4, 0, 1]], #[⟨1, 1⟩]⟩ :=
    .arrival .silence (.verdict (.ok ()) (.arrival (.datagram [0, 3, 0, 1, 7])
      (.verdict (.ok ()) .start rfl) rfl) rfl) rfl
  exact ⟨h, ((all_or_nothing _ _ _ _ _ h).2.1 ⟨"a", 1, 1⟩ rfl).2⟩

end Reception

end TftpUpload
