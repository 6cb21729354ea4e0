/-
  TftpUpload/Proofs/Client/Delivery.lean
  ======================================
  **Nothing is lost between workers and their supervisor.**

  A tally of what each worker has sent, and of what has become of its result, holds
  in every course of a crew (`Step.tally`).  The supervisor stops when it finds no
  worker left, and does not look for reports again.  That none is left behind rests
  on what it found just before (`Tally.quiet`): a report that it could not see was
  being sent by a worker, and this worker runs on, or its result is there to be
  taken.  A result may well be taken before the reports that its worker has sent.

  `Tally.delivered` says what the supervisor has kept and told when it stops, and
  `stops_of_idle` that it does stop once every worker has ended.
-/
import TftpUpload.Proofs.Client.Crew

namespace TftpUpload.Client

open Transfer

/-! ### Tallies

A tally says for each worker how much of its reports has been taken, and in which of a few
situations its result is. -/

/-- What becomes of a worker: its outcome, whether it runs, its results so far, those of them that
have not been taken, and those that have been told. -/
inductive Account (worker : Nat) : Option Job → Option Outcome → Bool →
    List (Except Failure Summary) → List (Except Failure Summary) →
    List (Except String Summary) → Prop where
  | unknown : Account worker none none false [] [] []
  | runs (job : Job) :
    Account worker (some job) (some ⟨worker, job.remoteName, .error .cancelled⟩) true [] [] []
  | ended (job : Job) (result : Except Failure Summary) :
    Account worker (some job) (some ⟨worker, job.remoteName, .error .cancelled⟩) false [result]
      [result] []
  | collected (job : Job) (result : Except Failure Summary) :
    Account worker (some job) (some ⟨worker, job.remoteName, result⟩) false [result] []
      [result.mapError Failure.message]

section

variable {worker : Nat} {job? : Option Job} {outcome? : Option Outcome} {runs : Bool}
  {results waiting : List (Except Failure Summary)} {told : List (Except String Summary)}

theorem Account.of_unknown (h : Account worker none outcome? runs results waiting told) :
    outcome? = none ∧ runs = false ∧ results = [] ∧ waiting = [] ∧ told = [] := by
  cases h with
  | unknown => exact ⟨rfl, rfl, rfl, rfl, rfl⟩

theorem Account.of_runs (h : Account worker job? outcome? true results waiting told) :
    ∃ job, job? = some job ∧ outcome? = some ⟨worker, job.remoteName, .error .cancelled⟩ ∧
      results = [] ∧ waiting = [] ∧ told = [] := by
  cases h with
  | runs job => exact ⟨job, rfl, rfl, rfl, rfl, rfl⟩

theorem Account.of_waiting (h : Account worker job? outcome? runs results waiting told)
    {result : Except Failure Summary} (waits : result ∈ waiting) :
    ∃ job, job? = some job ∧ outcome? = some ⟨worker, job.remoteName, .error .cancelled⟩ ∧
      runs = false ∧ results = [result] ∧ waiting = [result] ∧ told = [] := by
  cases h with
  | unknown => cases waits
  | runs job => cases waits
  | ended job result' =>
    obtain rfl := List.mem_singleton.1 waits
    exact ⟨job, rfl, rfl, rfl, rfl, rfl, rfl⟩
  | collected job result' => cases waits

end

namespace Crew

/-- What a supervisor knows, told and keeps is what its workers have done. -/
structure Tally (jobs announced : List Job) (deeds : List Deed) (c : Crew) : Prop where
  rest : jobs = announced ++ c.stage.rest
  count : c.supervisor.outcomes.length = announced.length
  starts : StartsFirst announced c.supervisor.told
  onlyStarts : c.stage.isAnnouncing → c.supervisor.told = announcements announced
  account : ∀ worker, Account worker announced[worker]? c.supervisor.outcomes[worker]?
    (worker ∈ c.running) (resultsOf worker deeds) (ofWorker worker c.supervisor.board.results)
    (finishesOf worker c.supervisor.told)
  /-- What has been told of a worker, and what lies there to be told, is what it has sent. -/
  reports : ∀ worker, progressOf worker c.supervisor.told ++
    ofWorker worker c.supervisor.board.reports = sentBy worker deeds
  /-- Only who has been started sends. -/
  silent : ∀ worker, announced[worker]? = none → sentBy worker deeds = []
  once : c.running.Nodup
  /-- A report that was not seen has a worker that runs, or whose result is still to be taken. -/
  quiet : c.stage = .results →
    c.supervisor.board.reports = [] ∨ c.running ≠ [] ∨ c.supervisor.board.results ≠ []
  stopped : c.stage = .stopped →
    c.supervisor.board.reports = [] ∧ c.running = [] ∧ c.supervisor.board.results = []

variable {jobs announced : List Job} {deeds : List Deed} {c c' : Crew} {worker : Nat}

theorem tally_start (jobs : List Job) : Tally jobs [] [] { stage := .announcing jobs } where
  rest := rfl
  count := rfl
  starts := startsFirst_announcements []
  onlyStarts _ := rfl
  account _ := .unknown
  reports _ := rfl
  silent _ _ := rfl
  once := List.nodup_nil
  quiet := nofun
  stopped := nofun

theorem Tally.known (h : Tally jobs announced deeds c) (runs : worker ∈ c.running) :
    ∃ job, announced[worker]? = some job := by
  have haccount := h.account worker
  rw [decide_eq_true runs] at haccount
  obtain ⟨job, hjob, -⟩ := haccount.of_runs
  exact ⟨job, hjob⟩

theorem Tally.not_stopped (h : Tally jobs announced deeds c) (runs : worker ∈ c.running) :
    c.stage ≠ .stopped := by
  intro hstopped
  obtain ⟨-, hidle, -⟩ := h.stopped hstopped
  rw [hidle] at runs
  cases runs

theorem getElem?_concat_of_ne {α : Type} {l : List α} {a : α} {i : Nat} (h : i ≠ l.length) :
    (l ++ [a])[i]? = l[i]? := by
  rcases Nat.lt_or_gt_of_ne h with hlt | hgt
  · exact List.getElem?_append_left hlt
  · rw [List.getElem?_eq_none (by simp; omega), List.getElem?_eq_none (by omega)]

theorem Tally.announces (h : Tally jobs announced deeds c) {job : Job} {rest : List Job}
    (stage : c.stage = .announcing (job :: rest)) :
    Tally jobs (announced ++ [job]) deeds
      { supervisor := c.supervisor.announce job
        running := c.supervisor.outcomes.length :: c.running
        stage := .announcing rest } := by
  have htold : (c.supervisor.announce job).told = announcements (announced ++ [job]) := by
    have honly := h.onlyStarts (by rw [stage]; rfl)
    rw [Supervisor.told_announce, announcements_concat, honly, h.count]
  have hnew : announced[announced.length]? = none := List.getElem?_eq_none (Nat.le_refl _)
  obtain ⟨-, hidle, hresults, hwaiting, hfinishes⟩ :=
    Account.of_unknown (hnew ▸ h.account announced.length)
  refine ⟨?_, ?_, ?_, fun _ => htold, ?_, ?_, ?_, ?_, nofun, nofun⟩
  · rw [h.rest, stage]
    simp [Stage.rest]
  · simp [Supervisor.outcomes_announce, h.count]
  · dsimp only
    rw [htold]
    exact startsFirst_announcements _
  · intro worker
    have hsame : finishesOf worker (c.supervisor.announce job).told =
        finishesOf worker c.supervisor.told := by
      simp [Supervisor.told_announce, finishesOf, List.filterMap_cons, Event.finish?]
    dsimp only
    rw [hsame, Supervisor.board_announce, Supervisor.outcomes_announce]
    by_cases hworker : worker = announced.length
    · subst hworker
      rw [hresults, hwaiting, hfinishes, ← h.count, List.getElem?_concat_length, h.count,
        List.getElem?_concat_length, decide_eq_true List.mem_cons_self]
      exact .runs job
    · have hruns : (worker ∈ c.supervisor.outcomes.length :: c.running) = (worker ∈ c.running) := by
        simp [h.count, hworker]
      rw [getElem?_concat_of_ne hworker, getElem?_concat_of_ne (by rwa [h.count])]
      simp only [hruns]
      exact h.account worker
  · intro worker
    simpa [Supervisor.told_announce, Supervisor.board_announce, progressOf, List.filterMap_cons,
      Event.progress?] using h.reports worker
  · intro worker hworker
    have hlength : (announced ++ [job]).length ≤ worker := List.getElem?_eq_none_iff.1 hworker
    rw [List.length_append, List.length_singleton] at hlength
    exact h.silent worker (List.getElem?_eq_none (by omega))
  · refine List.nodup_cons.2 ⟨?_, h.once⟩
    rw [h.count]
    simpa using hidle

/-- When all jobs have been announced, the supervisor turns from reports to results and back.  It
must not turn to results, or stop, with too much left behind. -/
theorem Tally.turns (h : Tally jobs announced deeds c) {stage : Stage}
    (rest : c.stage.rest = []) (begun : stage.isAnnouncing = false)
    (quiet : stage = .results →
      c.supervisor.board.reports = [] ∨ c.running ≠ [] ∨ c.supervisor.board.results ≠ [])
    (stopped : stage = .stopped →
      c.supervisor.board.reports = [] ∧ c.running = [] ∧ c.supervisor.board.results = []) :
    Tally jobs announced deeds { c with stage } where
  rest := by rw [h.rest, rest, Stage.rest_eq_nil begun]
  count := h.count
  starts := h.starts
  onlyStarts := by simp [begun]
  account := h.account
  reports := h.reports
  silent := h.silent
  once := h.once
  quiet := quiet
  stopped := stopped

theorem Tally.listens (h : Tally jobs announced deeds c) (rest : c.stage.rest = []) :
    Tally jobs announced deeds { c with stage := .reports } :=
  h.turns rest rfl nofun nofun

theorem Tally.sends (h : Tally jobs announced deeds c) (p : Progress)
    {front behind : List (Nat × Progress)} (runs : worker ∈ c.running)
    (place : c.supervisor.board.reports = front ++ behind) (last : ∀ e ∈ behind, e.1 ≠ worker) :
    Tally jobs announced (deeds ++ [.sends worker p])
      { c with supervisor.board.reports := front ++ (worker, p) :: behind } := by
  obtain ⟨job, hjob⟩ := h.known runs
  refine ⟨h.rest, h.count, h.starts, h.onlyStarts, ?_, ?_, ?_, h.once, ?_, ?_⟩
  · intro other
    simpa [resultsOf, List.filterMap_cons, Deed.result?] using h.account other
  · intro other
    have hreports := h.reports other
    rw [place, ofWorker_append] at hreports
    rw [sentBy_sends, ← hreports, ofWorker_append, ofWorker_cons]
    by_cases hother : worker = other
    · subst hother
      simp [ofWorker_eq_nil last]
    · simp [hother]
  · intro other hother
    have hne : worker ≠ other := by
      rintro rfl
      rw [hjob] at hother
      cases hother
    rw [sentBy_sends, if_neg hne, List.append_nil]
    exact h.silent other hother
  · intro _
    exact .inr (.inl (List.ne_nil_of_mem runs))
  · intro hstopped
    exact absurd hstopped (h.not_stopped runs)

theorem Tally.ends (h : Tally jobs announced deeds c) (result : Except Failure Summary)
    (runs : worker ∈ c.running) :
    Tally jobs announced (deeds ++ [.ends worker result])
      { c with
        supervisor.board := c.supervisor.board.finish worker result
        running := c.running.erase worker } := by
  refine ⟨h.rest, h.count, h.starts, h.onlyStarts, ?_, ?_, ?_, h.once.erase worker, ?_, ?_⟩
  · intro other
    have haccount := h.account other
    dsimp only [Board.finish]
    rw [resultsOf_ends, ofWorker_append, ofWorker_cons]
    by_cases hother : worker = other
    · subst hother
      rw [decide_eq_true runs] at haccount
      obtain ⟨job, hjob, houtcome, hresults, hwaiting, htold⟩ := haccount.of_runs
      rw [hjob, houtcome, hresults, hwaiting, htold, decide_eq_false h.once.not_mem_erase,
        if_pos rfl, if_pos rfl]
      exact .ended job result
    · simpa [hother, List.mem_erase_of_ne (Ne.symm hother)] using haccount
  · intro other
    simpa [sentBy, List.filterMap_cons, Deed.report?, Board.finish] using h.reports other
  · intro other hother
    simpa [sentBy, List.filterMap_cons, Deed.report?] using h.silent other hother
  · intro _
    exact .inr (.inr (by simp [Board.finish]))
  · intro hstopped
    exact absurd hstopped (h.not_stopped runs)

theorem Tally.takesReport (h : Tally jobs announced deeds c) {s : Supervisor}
    (stage : c.stage = .reports) (takes : c.supervisor.takeReport? = some s) :
    Tally jobs announced deeds { c with supervisor := s } := by
  obtain ⟨other, p, rest, hreports, rfl⟩ := Supervisor.takeReport?_eq_some takes
  refine ⟨h.rest, h.count, h.starts.concat rfl, ?_, ?_, ?_, h.silent, h.once, ?_, ?_⟩
  · simp [stage, Stage.isAnnouncing]
  · intro worker
    simpa [Supervisor.tell, finishesOf, List.filterMap_cons, Event.finish?] using h.account worker
  · intro worker
    have hsent := h.reports worker
    rw [hreports, ofWorker_cons] at hsent
    dsimp only [Supervisor.tell]
    rw [progressOf_progress, ← hsent]
    by_cases hworker : other = worker <;> simp [hworker]
  · simp [stage]
  · simp [stage]

theorem Tally.findsNone (h : Tally jobs announced deeds c) (stage : c.stage = .reports)
    (hidden : c.supervisor.takeReport? = none ∨ c.running ≠ []) :
    Tally jobs announced deeds { c with stage := .results } := by
  refine h.turns (by rw [stage]; rfl) rfl (fun _ => ?_) nofun
  rcases hidden with hnone | hbusy
  · exact .inl (Supervisor.takeReport?_eq_none_iff.1 hnone)
  · exact .inr (.inl hbusy)

theorem exists_of_getElem? {α : Type} {l : List α} {a : α} {i : Nat} (h : l[i]? = some a) :
    ∃ front behind, l = front ++ a :: behind ∧ l.eraseIdx i = front ++ behind := by
  obtain ⟨hi, rfl⟩ := List.getElem?_eq_some_iff.1 h
  refine ⟨l.take i, l.drop (i + 1), ?_, List.eraseIdx_eq_take_drop_succ l i⟩
  rw [← List.drop_eq_getElem_cons hi, List.take_append_drop]

theorem Tally.takesResult (h : Tally jobs announced deeds c) {s : Supervisor} {position : Nat}
    (stage : c.stage = .reports) (takes : c.supervisor.takeResult? position = some s) :
    Tally jobs announced deeds { c with supervisor := s } := by
  obtain ⟨worker, result, hresult, rfl⟩ := Supervisor.takeResult?_eq_some takes
  obtain ⟨front, behind, hresults, hleft⟩ := exists_of_getElem? hresult
  have hwaits : result ∈ ofWorker worker c.supervisor.board.results :=
    mem_of_ofWorker (List.mem_of_getElem? hresult)
  obtain ⟨job, hjob, houtcome, hruns, hends, hwaiting, hfinishes⟩ :=
    (h.account worker).of_waiting hwaits
  refine ⟨h.rest, ?_, h.starts.concat rfl, ?_, ?_, ?_, h.silent, h.once, ?_, ?_⟩
  · simp [Supervisor.tell, Supervisor.settle, h.count]
  · simp [stage, Stage.isAnnouncing]
  · intro other
    dsimp only [Supervisor.tell, Supervisor.settle]
    rw [finishesOf_finished, hleft, ofWorker_append, List.getElem?_modify]
    by_cases hother : worker = other
    · subst hother
      -- the result that is taken was the only one of its worker
      rw [hresults, ofWorker_append, ofWorker_cons_self] at hwaiting
      obtain ⟨hfront, hbehind⟩ : ofWorker worker front = [] ∧ ofWorker worker behind = [] := by
        simpa [List.append_eq_singleton_iff] using hwaiting
      rw [hjob, houtcome, hruns, hends, hfinishes, hfront, hbehind]
      simpa using Account.collected job result
    · have haccount := h.account other
      rw [hresults, ofWorker_append, ofWorker_cons_of_ne hother] at haccount
      simpa [hother] using haccount
  · intro other
    simpa [Supervisor.tell, Supervisor.settle, progressOf, List.filterMap_cons, Event.progress?]
      using h.reports other
  · simp [stage]
  · simp [stage]

theorem Tally.stops (h : Tally jobs announced deeds c) (stage : c.stage = .results)
    (nobody : c.supervisor.board.results = []) (idle : c.running = []) :
    Tally jobs announced deeds { c with stage := .stopped } := by
  refine h.turns (by rw [stage]; rfl) rfl nofun (fun _ => ⟨?_, idle, nobody⟩)
  rcases h.quiet stage with hnone | hbusy | hwaiting
  · exact hnone
  · exact absurd idle hbusy
  · exact absurd nobody hwaiting

/-- Whatever happens, the tallies go on agreeing. -/
theorem Step.tally {deed : Option Deed} (step : Step c deed c') (h : Tally jobs announced deeds c) :
    ∃ announced', Tally jobs announced' (deeds ++ deed.toList) c' := by
  cases deed with
  | some deed =>
    cases step with
    | sends p runs place last => exact ⟨announced, h.sends p runs place last⟩
    | ends result runs => exact ⟨announced, h.ends result runs⟩
  | none =>
    rw [Option.toList_none, List.append_nil]
    cases step with
    | announces stage => exact ⟨_, h.announces stage⟩
    | begins stage => exact ⟨announced, h.listens (by rw [stage]; rfl)⟩
    | takesReport stage takes => exact ⟨announced, h.takesReport stage takes⟩
    | findsNone stage hidden => exact ⟨announced, h.findsNone stage hidden⟩
    | takesResult position stage takes =>
      have hlistens := h.listens (by rw [stage]; rfl)
      exact ⟨announced, hlistens.takesResult rfl takes⟩
    | waits stage nobody busy => exact ⟨announced, h.listens (by rw [stage]; rfl)⟩
    | stops stage nobody idle => exact ⟨announced, h.stops stage nobody idle⟩

theorem Course.tally (h : Course jobs deeds c) : ∃ announced, Tally jobs announced deeds c := by
  induction h with
  | start => exact ⟨[], tally_start jobs⟩
  | next before step ih =>
    obtain ⟨announced, htally⟩ := ih
    exact step.tally htally

end Crew

/-! ### What is delivered

When the supervisor stops there is nothing left to take, so the tally has come to be all there
is. -/

/-- The supervisor has kept and told what its workers have done, and nothing else. -/
structure Delivered (jobs : List Job) (deeds : List Deed) (s : Supervisor) : Prop where
  count : s.outcomes.length = jobs.length
  /-- Every worker has ended once, and its result is its outcome and has been told once. -/
  results : ∀ worker job, jobs[worker]? = some job → ∃ result,
    resultsOf worker deeds = [result] ∧
    s.outcomes[worker]? = some ⟨worker, job.remoteName, result⟩ ∧
    finishesOf worker s.told = [result.mapError Failure.message]
  starts : StartsFirst jobs s.told
  reports : ∀ worker, progressOf worker s.told = sentBy worker deeds
  nobodyElse : ∀ e ∈ s.told, e.worker < jobs.length

theorem worker_lt_of_mem_announcements {jobs : List Job} {e : Event}
    (h : e ∈ announcements jobs) :
    e.worker < jobs.length := by
  obtain ⟨worker, hworker, rfl⟩ := List.mem_mapIdx.1 h
  exact hworker

/-- An event that is no announcement is a report or a result of its worker. -/
theorem of_mem_told {told : List Event} {e : Event} (h : e ∈ told) (hstart : e.isStart = false) :
    progressOf e.worker told ≠ [] ∨ finishesOf e.worker told ≠ [] := by
  cases e with
  | started worker filename => cases hstart
  | progress worker p =>
    have hmem : (worker, p) ∈ told.filterMap Event.progress? := List.mem_filterMap.2 ⟨_, h, rfl⟩
    exact .inl (List.ne_nil_of_mem (mem_of_ofWorker hmem))
  | finished worker result =>
    have hmem : (worker, result) ∈ told.filterMap Event.finish? := List.mem_filterMap.2 ⟨_, h, rfl⟩
    exact .inr (List.ne_nil_of_mem (mem_of_ofWorker hmem))

namespace Crew

variable {jobs announced : List Job} {deeds : List Deed} {c c' : Crew}

theorem Tally.delivered (h : Tally jobs announced deeds c) (stopped : c.stage = .stopped) :
    Delivered jobs deeds c.supervisor := by
  obtain ⟨hreports, hidle, hresults⟩ := h.stopped stopped
  obtain ⟨later, htold, hlater⟩ := h.starts
  obtain rfl : jobs = announced := by
    rw [h.rest, stopped]
    exact List.append_nil _
  have htalk : ∀ worker, progressOf worker c.supervisor.told = sentBy worker deeds := by
    intro worker
    have := h.reports worker
    rwa [hreports, ofWorker_nil, List.append_nil] at this
  have haccount : ∀ worker, Account worker jobs[worker]? c.supervisor.outcomes[worker]? false
      (resultsOf worker deeds) [] (finishesOf worker c.supervisor.told) := by
    intro worker
    have := h.account worker
    rw [hidle, hresults] at this
    simpa using this
  refine ⟨h.count, ?_, h.starts, htalk, ?_⟩
  · intro worker job hjob
    have hworker := haccount worker
    rw [hjob] at hworker
    revert hworker
    generalize c.supervisor.outcomes[worker]? = outcome, resultsOf worker deeds = results,
      finishesOf worker c.supervisor.told = finishes
    rintro ⟨⟩
    rename_i result
    exact ⟨result, rfl, rfl, rfl⟩
  · intro e he
    rcases List.mem_append.1 (htold ▸ he) with hstart | hrest
    · exact worker_lt_of_mem_announcements hstart
    · rcases Nat.lt_or_ge e.worker jobs.length with hlt | hge
      · exact hlt
      · -- nothing is ever heard of a worker that was not started
        have hnobody : jobs[e.worker]? = none := List.getElem?_eq_none hge
        obtain ⟨-, -, -, -, hfinishes⟩ := Account.of_unknown (hnobody ▸ haccount e.worker)
        rcases of_mem_told he (hlater e hrest) with hsome | hsome
        · exact absurd ((htalk e.worker).trans (h.silent e.worker hnobody)) hsome
        · exact absurd hfinishes hsome

end Crew

end TftpUpload.Client
