/-
  TftpUpload/Proofs/Client/Crew.lean
  ==================================
  **A supervisor and its workers, in whatever order things happen.**

  Workers send reports and end, each when it likes, and the supervisor takes what
  they leave.  Of the reports it is known only that those of one worker stay in
  their order, and of the results nothing but that each can be taken once.  The
  supervisor looks for a report and then for a result, and these are two moments
  (`Stage`): between them workers may do anything.  `Course` is every way in which
  this can go on.

  Workers may go on for ever, and the supervisor with them.  Once all of them have
  ended it stops, whatever it takes first (`stops_of_idle`).
-/
import TftpUpload.Client.Supervisor

namespace TftpUpload.Client

open Transfer

/-! ### What is seen of a worker

Reports and results are told apart by the worker that they come from, and this is all the order that
is known of them. -/

inductive Deed where
  | sends (worker : Nat) (report : Progress)
  | ends (worker : Nat) (result : Except Failure Summary)

def Deed.report? : Deed → Option (Nat × Progress)
  | sends worker p => some (worker, p)
  | ends .. => none

def Deed.result? : Deed → Option (Nat × Except Failure Summary)
  | sends .. => none
  | ends worker result => some (worker, result)

namespace Event

def worker : Event → Nat
  | started worker _ => worker
  | progress worker _ => worker
  | finished worker _ => worker

def isStart : Event → Bool
  | started .. => true
  | _ => false

def progress? : Event → Option (Nat × Progress)
  | progress worker p => some (worker, p)
  | _ => none

def finish? : Event → Option (Nat × Except String Summary)
  | finished worker result => some (worker, result)
  | _ => none

end Event

def ofWorker {α : Type} (worker : Nat) (l : List (Nat × α)) : List α :=
  (l.filter (·.1 = worker)).map Prod.snd

def sentBy (worker : Nat) (deeds : List Deed) : List Progress :=
  ofWorker worker (deeds.filterMap Deed.report?)

def resultsOf (worker : Nat) (deeds : List Deed) : List (Except Failure Summary) :=
  ofWorker worker (deeds.filterMap Deed.result?)

/-- The reports of a worker that have been told. -/
def progressOf (worker : Nat) (told : List Event) : List Progress :=
  ofWorker worker (told.filterMap Event.progress?)

def finishesOf (worker : Nat) (told : List Event) : List (Except String Summary) :=
  ofWorker worker (told.filterMap Event.finish?)

def announcements (jobs : List Job) : List Event :=
  jobs.mapIdx fun worker job => .started worker job.remoteName

/-- The announcements of the given jobs come first, and there are no others. -/
def StartsFirst (jobs : List Job) (told : List Event) : Prop :=
  ∃ later, told = announcements jobs ++ later ∧ ∀ e ∈ later, e.isStart = false

section

variable {α : Type} {worker other : Nat} {a : α} {l front behind : List (Nat × α)}

@[simp]
theorem ofWorker_nil (worker : Nat) : ofWorker worker ([] : List (Nat × α)) = [] := rfl

@[simp]
theorem ofWorker_append (worker : Nat) (l more : List (Nat × α)) :
    ofWorker worker (l ++ more) = ofWorker worker l ++ ofWorker worker more := by
  simp [ofWorker]

theorem ofWorker_cons (worker other : Nat) (a : α) (l : List (Nat × α)) :
    ofWorker worker ((other, a) :: l) =
      if other = worker then a :: ofWorker worker l else ofWorker worker l := by
  by_cases h : other = worker <;> simp [ofWorker, h]

@[simp]
theorem ofWorker_cons_self (worker : Nat) (a : α) (l : List (Nat × α)) :
    ofWorker worker ((worker, a) :: l) = a :: ofWorker worker l := by
  rw [ofWorker_cons, if_pos rfl]

theorem ofWorker_cons_of_ne (h : other ≠ worker) (a : α) (l : List (Nat × α)) :
    ofWorker worker ((other, a) :: l) = ofWorker worker l := by
  rw [ofWorker_cons, if_neg h]

theorem ofWorker_eq_nil (h : ∀ e ∈ l, e.1 ≠ worker) : ofWorker worker l = [] := by
  simpa [ofWorker] using h

theorem mem_of_ofWorker (h : (worker, a) ∈ l) : a ∈ ofWorker worker l := by
  simpa [ofWorker] using h

theorem startsFirst_announcements (jobs : List Job) : StartsFirst jobs (announcements jobs) :=
  ⟨[], (List.append_nil _).symm, nofun⟩

theorem StartsFirst.concat {jobs : List Job} {told : List Event} {e : Event}
    (h : StartsFirst jobs told) (he : e.isStart = false) : StartsFirst jobs (told ++ [e]) := by
  obtain ⟨later, rfl, hlater⟩ := h
  refine ⟨later ++ [e], List.append_assoc _ _ _, ?_⟩
  intro e' he'
  rcases List.mem_append.1 he' with he' | he'
  · exact hlater e' he'
  · rwa [List.mem_singleton.1 he']

theorem announcements_concat (jobs : List Job) (job : Job) :
    announcements (jobs ++ [job]) =
      announcements jobs ++ [.started jobs.length job.remoteName] := by
  simp [announcements, List.mapIdx_append]

theorem sentBy_sends (worker other : Nat) (p : Progress) (deeds : List Deed) :
    sentBy worker (deeds ++ [.sends other p]) =
      sentBy worker deeds ++ if other = worker then [p] else [] := by
  simp [sentBy, Deed.report?, ofWorker_cons]

theorem resultsOf_ends (worker other : Nat) (result : Except Failure Summary) (deeds : List Deed) :
    resultsOf worker (deeds ++ [.ends other result]) =
      resultsOf worker deeds ++ if other = worker then [result] else [] := by
  simp [resultsOf, Deed.result?, ofWorker_cons]

theorem progressOf_progress (worker other : Nat) (p : Progress) (told : List Event) :
    progressOf worker (told ++ [.progress other p]) =
      progressOf worker told ++ if other = worker then [p] else [] := by
  simp [progressOf, Event.progress?, ofWorker_cons]

theorem finishesOf_finished (worker other : Nat) (result : Except String Summary)
    (told : List Event) :
    finishesOf worker (told ++ [.finished other result]) =
      finishesOf worker told ++ if other = worker then [result] else [] := by
  simp [finishesOf, Event.finish?, ofWorker_cons]

end

namespace Supervisor

variable {s s' : Supervisor}

theorem board_announce (s : Supervisor) (job : Job) : (s.announce job).board = s.board := rfl

theorem outcomes_announce (s : Supervisor) (job : Job) : (s.announce job).outcomes =
    s.outcomes ++ [⟨s.outcomes.length, job.remoteName, .error .cancelled⟩] := rfl

theorem told_announce (s : Supervisor) (job : Job) : (s.announce job).told =
    s.told ++ [.started s.outcomes.length job.remoteName] := rfl

theorem takeReport?_eq_none_iff : s.takeReport? = none ↔ s.board.reports = [] := by
  unfold takeReport?
  split
  · rename_i hnil
    simp [hnil]
  · rename_i hcons
    simp [hcons]

theorem takeReport?_eq_some (h : s.takeReport? = some s') : ∃ worker p rest,
    s.board.reports = (worker, p) :: rest ∧
    s' = { s with board.reports := rest }.tell (.progress worker p) := by
  unfold takeReport? at h
  split at h
  · cases h
  · rename_i worker p rest hreports
    cases h
    exact ⟨worker, p, rest, hreports, rfl⟩

theorem takeResult?_eq_none_iff {position : Nat} :
    s.takeResult? position = none ↔ s.board.results[position]? = none := by
  unfold takeResult?
  split
  · rename_i hnone
    simp only [hnone]
  · rename_i hsome
    simp [hsome]

theorem takeResult?_eq_some {position : Nat} (h : s.takeResult? position = some s') :
    ∃ worker result, s.board.results[position]? = some (worker, result) ∧
      s' = ({ s with board.results := s.board.results.eraseIdx position }.settle worker
        result).tell (.finished worker (result.mapError Failure.message)) := by
  unfold takeResult? at h
  split at h
  · cases h
  · rename_i worker result hresult
    cases h
    exact ⟨worker, result, hresult, rfl⟩

end Supervisor

/-! ### Courses

A course is not given a scheduler.  It goes from one thing that happens to the next. -/

/-- What a supervisor does next. -/
inductive Stage where
  | announcing (rest : List Job)
  /-- It looks for a report. -/
  | reports
  /-- It has found no report, and looks for a result. -/
  | results
  | stopped

namespace Stage

def rest : Stage → List Job
  | announcing jobs => jobs
  | _ => []

def isAnnouncing : Stage → Bool
  | announcing _ => true
  | _ => false

theorem rest_eq_nil {stage : Stage} (h : stage.isAnnouncing = false) : stage.rest = [] := by
  cases stage with
  | announcing jobs => cases h
  | reports => rfl
  | results => rfl
  | stopped => rfl

end Stage

structure Crew where
  supervisor : Supervisor := {}
  running : List Nat := []
  stage : Stage

namespace Crew

/-- One thing that happens.  The deeds of the workers are noted, those of the supervisor are not. -/
inductive Step : Crew → Option Deed → Crew → Prop where
  | announces {c : Crew} {job : Job} {rest : List Job}
      (stage : c.stage = .announcing (job :: rest)) :
    Step c none
      { supervisor := c.supervisor.announce job
        running := c.supervisor.outcomes.length :: c.running
        stage := .announcing rest }
  | begins {c : Crew} (stage : c.stage = .announcing []) : Step c none { c with stage := .reports }
  /-- A report comes to lie behind those of its worker, and as to the others anywhere. -/
  | sends {c : Crew} {worker : Nat} (p : Progress) {front behind : List (Nat × Progress)}
      (runs : worker ∈ c.running) (place : c.supervisor.board.reports = front ++ behind)
      (last : ∀ e ∈ behind, e.1 ≠ worker) :
    Step c (some (.sends worker p))
      { c with supervisor.board.reports := front ++ (worker, p) :: behind }
  | ends {c : Crew} {worker : Nat} (result : Except Failure Summary) (runs : worker ∈ c.running) :
    Step c (some (.ends worker result))
      { c with
        supervisor.board := c.supervisor.board.finish worker result
        running := c.running.erase worker }
  | takesReport {c : Crew} {s : Supervisor} (stage : c.stage = .reports)
      (takes : c.supervisor.takeReport? = some s) :
    Step c none { c with supervisor := s }
  /-- A report that a worker is about to send may hide those behind it. -/
  | findsNone {c : Crew} (stage : c.stage = .reports)
      (hidden : c.supervisor.takeReport? = none ∨ c.running ≠ []) :
    Step c none { c with stage := .results }
  | takesResult {c : Crew} {s : Supervisor} (position : Nat) (stage : c.stage = .results)
      (takes : c.supervisor.takeResult? position = some s) :
    Step c none { c with supervisor := s, stage := .reports }
  /-- Nobody has ended since.  When something happens, the supervisor looks again. -/
  | waits {c : Crew} (stage : c.stage = .results)
      (nobody : c.supervisor.board.results = []) (busy : c.running ≠ []) :
    Step c none { c with stage := .reports }
  | stops {c : Crew} (stage : c.stage = .results)
      (nobody : c.supervisor.board.results = []) (idle : c.running = []) :
    Step c none { c with stage := .stopped }

/-- Where deeds and looks lead to, in whatever order they come. -/
inductive Course (jobs : List Job) : List Deed → Crew → Prop where
  | start : Course jobs [] { stage := .announcing jobs }
  | next {deeds : List Deed} {c c' : Crew} {deed : Option Deed} (before : Course jobs deeds c)
      (step : Step c deed c') : Course jobs (deeds ++ deed.toList) c'

section

variable {jobs : List Job} {deeds : List Deed} {c c' : Crew}

theorem Course.quietly (h : Course jobs deeds c) (step : Step c none c') :
    Course jobs deeds c' := by
  have hnext := h.next step
  rwa [Option.toList_none, List.append_nil] at hnext

theorem Course.noting (h : Course jobs deeds c) {deed : Deed} (step : Step c (some deed) c') :
    Course jobs (deeds ++ [deed]) c' := h.next step

end

/-- Whatever happens next, and after that, the supervisor stops. -/
inductive Stops : Crew → Prop where
  | stopped {c : Crew} (stage : c.stage = .stopped) : Stops c
  | goes {c : Crew} (can : ∃ deed c', Step c deed c')
      (next : ∀ deed c', Step c deed c' → Stops c') :
    Stops c

/-! ### Coming to an end

With nobody at work there is only so much to take, and two looks in a row that take nothing are the
last. -/

variable {c c' : Crew}

/-- How much a supervisor has still to do when all workers have ended. -/
def left (c : Crew) : Nat :=
  c.supervisor.board.reports.length + 2 * c.supervisor.board.results.length +
    match c.stage with
    | .announcing _ => 3
    | .reports => 2
    | .results => 1
    | .stopped => 0

theorem Step.left_lt {deed : Option Deed} (step : Step c deed c')
    (announced : c.stage.isAnnouncing = false) (idle : c.running = []) :
    c'.left < c.left ∧ c'.stage.isAnnouncing = false ∧ c'.running = [] := by
  cases step with
  | announces stage =>
    rw [stage] at announced
    cases announced
  | begins stage =>
    rw [stage] at announced
    cases announced
  | sends p runs place last =>
    rw [idle] at runs
    cases runs
  | ends result runs =>
    rw [idle] at runs
    cases runs
  | takesReport stage takes =>
    obtain ⟨worker, p, rest, hreports, rfl⟩ := Supervisor.takeReport?_eq_some takes
    refine ⟨?_, announced, idle⟩
    simp [left, Supervisor.tell, stage, hreports]
  | findsNone stage hidden =>
    refine ⟨?_, rfl, idle⟩
    simp [left, stage]
  | takesResult position stage takes =>
    obtain ⟨worker, result, hresult, rfl⟩ := Supervisor.takeResult?_eq_some takes
    obtain ⟨hposition, -⟩ := List.getElem?_eq_some_iff.1 hresult
    refine ⟨?_, rfl, idle⟩
    simp only [left, Supervisor.tell, Supervisor.settle, stage, List.length_eraseIdx,
      if_pos hposition]
    omega
  | waits stage nobody busy => exact absurd idle busy
  | stops stage nobody idle =>
    refine ⟨?_, rfl, idle⟩
    simp [left, stage]

/-- A supervisor that has not stopped has something to do. -/
theorem exists_step (c : Crew) (going : c.stage ≠ .stopped) : ∃ deed c', Step c deed c' := by
  obtain ⟨supervisor, running, stage⟩ := c
  cases stage with
  | announcing rest =>
    cases rest with
    | nil => exact ⟨_, _, .begins rfl⟩
    | cons job rest => exact ⟨_, _, .announces rfl⟩
  | reports =>
    cases htake : supervisor.takeReport? with
    | none => exact ⟨_, _, .findsNone rfl (.inl htake)⟩
    | some s => exact ⟨_, _, .takesReport rfl htake⟩
  | results =>
    cases htake : supervisor.takeResult? 0 with
    | some s => exact ⟨_, _, .takesResult 0 rfl htake⟩
    | none =>
      have hnobody : supervisor.board.results = [] := by
        simpa using Supervisor.takeResult?_eq_none_iff.1 htake
      cases running with
      | nil => exact ⟨_, _, .stops rfl hnobody rfl⟩
      | cons worker rest => exact ⟨_, _, .waits rfl hnobody (List.cons_ne_nil _ _)⟩
  | stopped => exact absurd rfl going

/-- Once every worker has ended, the supervisor takes what is there and stops. -/
theorem stops_of_idle (announced : c.stage.isAnnouncing = false) (idle : c.running = []) :
    Stops c := by
  induction hleft : c.left using Nat.strongRecOn generalizing c with
  | ind n ih =>
    by_cases hstopped : c.stage = .stopped
    · exact .stopped hstopped
    · refine .goes (exists_step c hstopped) ?_
      intro deed c' step
      obtain ⟨hlt, hannounced, hidle⟩ := step.left_lt announced idle
      exact ih c'.left (hleft ▸ hlt) hannounced hidle rfl

end Crew

end TftpUpload.Client
