/-
  TftpUpload/Proofs/Client/UploadAll.lean
  =======================================
  **Uploads are delivered.**

  In every course of a crew the supervisor delivers what its workers have done
  (`uploads_are_delivered`).  `collect` has every worker leave all that it has to
  leave, one worker after the other, before anyone looks, and then lets the
  supervisor take it.  This is one course of a crew (`course_collect`), so what is
  said of all courses holds of `uploadAll`, too.
-/
import TftpUpload.Client.UploadAll
import TftpUpload.Proofs.Client.Delivery

namespace TftpUpload.Client

open Net Transfer

def deedsFrom (first : Nat) (done : List (List Progress × Except Failure Summary)) : List Deed :=
  (done.zipIdx first).flatMap fun (d, worker) => d.1.map (.sends worker) ++ [.ends worker d.2]

/-! ### Deeds by their workers

The deeds of several workers stand one after the other, and those of one worker are found among
them. -/

theorem ofWorker_map {α : Type} (worker other : Nat) (l : List α) :
    ofWorker worker (l.map (Prod.mk other)) = if other = worker then l else [] := by
  by_cases h : other = worker
  · simp [ofWorker, h, List.filter_map, Function.comp_def]
  · rw [if_neg h]
    refine ofWorker_eq_nil fun e he => ?_
    obtain ⟨a, -, rfl⟩ := List.mem_map.1 he
    exact h

/-- What there is of one worker when each, from the given one on, has left `f` of what it did. -/
theorem ofWorker_flatMap {α β : Type} (f : β → List α) (worker first : Nat) (l : List β) :
    ofWorker worker ((l.zipIdx first).flatMap fun (b, other) => (f b).map (Prod.mk other)) =
      if first ≤ worker then (l[worker - first]?.map f).getD [] else [] := by
  induction l generalizing first with
  | nil => simp
  | cons b rest ih =>
    rw [List.zipIdx_cons, List.flatMap_cons, ofWorker_append, ih, ofWorker_map]
    rcases Nat.lt_trichotomy first worker with hlt | rfl | hgt
    · have hsub : worker - first = worker - (first + 1) + 1 := by omega
      rw [if_neg (Nat.ne_of_lt hlt), if_pos (Nat.succ_le_of_lt hlt), if_pos (Nat.le_of_lt hlt),
        hsub, List.getElem?_cons_succ, List.nil_append]
    · rw [if_pos rfl, if_pos (Nat.le_refl _), if_neg (Nat.not_succ_le_self _)]
      simp
    · rw [if_neg (Nat.ne_of_gt hgt), if_neg (by omega), if_neg (by omega), List.nil_append]

theorem sentBy_deedsFrom (worker : Nat) (done : List (List Progress × Except Failure Summary)) :
    sentBy worker (deedsFrom 0 done) = (done[worker]?.map Prod.fst).getD [] := by
  have hreports : (deedsFrom 0 done).filterMap Deed.report? =
      (done.zipIdx 0).flatMap fun (d, other) => d.1.map (Prod.mk other) := by
    simp [deedsFrom, List.filterMap_flatMap, List.filterMap_append, List.filterMap_cons,
      Deed.report?, Function.comp_def]
  rw [sentBy, hreports, ofWorker_flatMap]
  rfl

theorem resultsOf_deedsFrom (worker : Nat) (done : List (List Progress × Except Failure Summary)) :
    resultsOf worker (deedsFrom 0 done) = (done[worker]?.map fun d => [d.2]).getD [] := by
  have hsends : ∀ (other : Nat) (reports : List Progress),
      (reports.map (Deed.sends other)).filterMap Deed.result? = [] := by
    intro other reports
    simp [List.filterMap_eq_nil_iff, Deed.result?]
  have hresults : (deedsFrom 0 done).filterMap Deed.result? =
      (done.zipIdx 0).flatMap fun (d, other) => [d.2].map (Prod.mk other) := by
    simp [deedsFrom, List.filterMap_flatMap, List.filterMap_append, hsends,
      Deed.result?]
  rw [resultsOf, hresults, ofWorker_flatMap fun d : List Progress × Except Failure Summary => [d.2]]
  rfl

/-! ### The course

The supervisor begins to look when nobody is at work any more, so nothing comes in between its
looks. -/

def Board.size (b : Board) : Nat := b.reports.length + b.results.length

/-- Of the workers that were started, those run that have no result. -/
theorem Account.runs_of_no_result {worker : Nat} {job? : Option Job} {outcome? : Option Outcome}
    {runs : Bool} {results waiting : List (Except Failure Summary)}
    {told : List (Except String Summary)}
    (h : Account worker job? outcome? runs results waiting told) (none : results = []) :
    runs = job?.isSome := by
  cases h with
  | unknown => rfl
  | runs job => rfl
  | ended job result => cases none
  | collected job result => cases none

namespace Crew

variable {jobs rest : List Job} {deeds : List Deed} {s : Supervisor} {running : List Nat}

theorem Course.announced (h : Course jobs deeds ⟨s, running, .announcing rest⟩) :
    ∃ running', Course jobs deeds ⟨rest.foldl Supervisor.announce s, running', .announcing []⟩ := by
  induction rest generalizing s running with
  | nil => exact ⟨running, h⟩
  | cons job rest ih => exact ih (h.quietly (.announces rfl))

theorem Course.reported (h : Course jobs deeds ⟨s, running, .announcing []⟩) {worker : Nat}
    (runs : worker ∈ running) (reports : List Progress) :
    Course jobs (deeds ++ reports.map (.sends worker))
      ⟨{ s with board := reports.foldl (·.report worker ·) s.board }, running, .announcing []⟩ := by
  induction reports generalizing deeds s with
  | nil => simpa using h
  | cons p rest ih =>
    rw [List.map_cons, ← List.singleton_append, ← List.append_assoc]
    exact ih (h.noting (.sends p runs (List.append_nil _).symm nofun))

theorem Course.left (h : Course jobs deeds ⟨s, running, .announcing []⟩) (first : Nat)
    (done : List (List Progress × Except Failure Summary)) (once : running.Nodup)
    (run : ∀ worker, worker ∈ running ↔ first ≤ worker ∧ worker < first + done.length) :
    Course jobs (deeds ++ deedsFrom first done)
      ⟨{ s with
          board := (done.zipIdx first).foldl (fun b (d, worker) => leave b worker d) s.board },
        [], .announcing []⟩ := by
  induction done generalizing deeds s running first with
  | nil =>
    have hnone : running = [] := by
      refine List.eq_nil_iff_forall_not_mem.2 fun worker hworker => ?_
      obtain ⟨hle, hlt⟩ := (run worker).1 hworker
      exact absurd hlt (Nat.not_lt.2 hle)
    subst hnone
    simpa [deedsFrom] using h
  | cons d rest ih =>
    have runs : first ∈ running := (run first).2 ⟨Nat.le_refl _, by simp⟩
    have hnext := (h.reported runs d.1).noting (.ends d.2 runs)
    have hrest := ih hnext (first + 1) (once.erase first) ?_
    · simpa [deedsFrom, List.zipIdx_cons, leave] using hrest
    · intro worker
      rw [once.mem_erase_iff, run, List.length_cons]
      omega

/-- Before any worker has ended, all those that were announced run. -/
theorem Tally.runs_iff {announced : List Job} {c : Crew} (h : Tally jobs announced [] c)
    (worker : Nat) : worker ∈ c.running ↔ worker < announced.length := by
  have hruns := (h.account worker).runs_of_no_result rfl
  rw [← decide_eq_true_iff (p := worker ∈ c.running), hruns]
  simp

/-- A look takes one thing off the board, if there is one. -/
theorem Course.polled (h : Course jobs deeds ⟨s, running, .reports⟩) :
    Course jobs deeds ⟨s.poll, running, .reports⟩ ∧ s.poll.board.size = s.board.size - 1 := by
  unfold Supervisor.poll
  cases hreport : s.takeReport? with
  | some s' =>
    refine ⟨h.quietly (.takesReport rfl hreport), ?_⟩
    obtain ⟨worker, p, rest, hreports, rfl⟩ := Supervisor.takeReport?_eq_some hreport
    simp [Board.size, Supervisor.tell, hreports, Nat.add_right_comm]
  | none =>
    have hreports := Supervisor.takeReport?_eq_none_iff.1 hreport
    cases hresult : s.takeResult? 0 with
    | some s' =>
      have hfound := h.quietly (.findsNone rfl (.inl hreport))
      refine ⟨hfound.quietly (.takesResult 0 rfl hresult), ?_⟩
      obtain ⟨worker, result, hhead, rfl⟩ := Supervisor.takeResult?_eq_some hresult
      simp [Board.size, Supervisor.tell, Supervisor.settle, hreports]
    | none =>
      have hresults : s.board.results = [] := by
        simpa using Supervisor.takeResult?_eq_none_iff.1 hresult
      exact ⟨h, by simp [Board.size, hreports, hresults]⟩

theorem Course.drained (h : Course jobs deeds ⟨s, running, .reports⟩) (n : Nat) :
    Course jobs deeds ⟨s.drain n, running, .reports⟩ ∧
      (s.drain n).board.size = s.board.size - n := by
  induction n generalizing s with
  | zero => exact ⟨h, rfl⟩
  | succ n ih =>
    obtain ⟨hpolled, hsize⟩ := h.polled
    obtain ⟨hcourse, hdrained⟩ := ih hpolled
    refine ⟨hcourse, hdrained.trans ?_⟩
    omega

/-- A supervisor whose workers have all ended takes what is there, and stops. -/
theorem Course.finished (h : Course jobs deeds ⟨s, [], .announcing []⟩) :
    Course jobs deeds ⟨s.finished, [], .stopped⟩ := by
  obtain ⟨hdrained, hsize⟩ := (h.quietly (.begins rfl)).drained s.board.size
  rw [Nat.sub_self] at hsize
  have hreports : s.finished.board.reports = [] :=
    List.eq_nil_of_length_eq_zero (Nat.eq_zero_of_add_eq_zero_right hsize)
  have hresults : s.finished.board.results = [] :=
    List.eq_nil_of_length_eq_zero (Nat.eq_zero_of_add_eq_zero_left hsize)
  have hnone := Supervisor.takeReport?_eq_none_iff.2 hreports
  exact (hdrained.quietly (.findsNone rfl (.inl hnone))).quietly (.stops rfl hresults rfl)

theorem board_announced (jobs : List Job) (s : Supervisor) :
    (jobs.foldl Supervisor.announce s).board = s.board := by
  induction jobs generalizing s with
  | nil => rfl
  | cons job rest ih => exact ih (s.announce job)

/-- What `collect` does is one course of a crew, to its end. -/
theorem course_collect (jobs : List Job) (done : List (List Progress × Except Failure Summary))
    (each : done.length = jobs.length) :
    Course jobs (deedsFrom 0 done) ⟨collect jobs done, [], .stopped⟩ := by
  have hstart : Course jobs [] ⟨{}, [], .announcing jobs⟩ := .start
  obtain ⟨running, hannounced⟩ := hstart.announced
  obtain ⟨announced, htally⟩ := hannounced.tally
  obtain rfl : jobs = announced := by simpa [Stage.rest] using htally.rest
  have hleft := hannounced.left 0 done htally.once fun worker => by
    rw [htally.runs_iff, each]
    omega
  rw [board_announced] at hleft
  exact hleft.finished

/-- When the supervisor stops, there is an outcome for every upload, in their order, and its
observer has been told every start, report and result, each once; and it does stop once every
worker has ended.  To run the jobs one after the other is one of the courses that this is said of,
in which every worker does what its job comes to by itself. -/
theorem uploads_are_delivered (h : Course jobs deeds c) :
    (c.stage = .stopped → Delivered jobs deeds c.supervisor) ∧
      (c.stage.isAnnouncing = false → c.running = [] → Stops c) ∧
      ∀ (host : Host) (w : Workplace) (settings : Settings), ∃ deeds,
        Course jobs deeds ⟨uploadAll host w settings jobs, [], .stopped⟩ ∧
          ∀ worker job, jobs[worker]? = some job →
            sentBy worker deeds = (runJob host w settings job).1 ∧
              resultsOf worker deeds = [(runJob host w settings job).2] := by
  obtain ⟨announced, htally⟩ := h.tally
  refine ⟨htally.delivered, stops_of_idle, fun host w settings => ?_⟩
  refine ⟨_, course_collect jobs (jobs.map (runJob host w settings)) (List.length_map _), ?_⟩
  intro worker job hjob
  rw [sentBy_deedsFrom, resultsOf_deedsFrom, List.getElem?_map, hjob]
  exact ⟨rfl, rfl⟩

/-- A worker that sends and ends between two looks has its result told before its report. -/
theorem result_is_told_first : ∃ deeds c, Course [⟨"a", .standardInput⟩] deeds c ∧
    c.stage = .stopped ∧ Delivered [⟨"a", .standardInput⟩] deeds c.supervisor ∧
    deeds = [.sends 0 ⟨1, 1⟩, .ends 0 (.ok ⟨"a", 1, 3⟩)] ∧
    c.supervisor.told = [.started 0 "a", .finished 0 (.ok ⟨"a", 1, 3⟩), .progress 0 ⟨1, 1⟩] := by
  have hstart : Course [⟨"a", .standardInput⟩] [] _ := .start
  have hbegun := (hstart.quietly (.announces rfl)).quietly (.begins rfl)
  have hlooked := hbegun.quietly (.findsNone rfl (.inl rfl))
  have hsent := hlooked.noting
    (.sends ⟨1, 1⟩ (List.mem_singleton.2 rfl) (List.append_nil []).symm nofun)
  have hended := hsent.noting (.ends (.ok ⟨"a", 1, 3⟩) (List.mem_singleton.2 rfl))
  have htaken := (hended.quietly (.takesResult 0 rfl rfl)).quietly (.takesReport rfl rfl)
  have hstopped := (htaken.quietly (.findsNone rfl (.inl rfl))).quietly (.stops rfl rfl rfl)
  exact ⟨_, _, hstopped, rfl, (uploads_are_delivered hstopped).1 rfl, rfl, rfl⟩

end Crew

end TftpUpload.Client
