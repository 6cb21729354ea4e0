/-
  TftpUpload/Proofs/Server/Bookkeeping.lean
  =========================================
  **What a server keeps track of.**

  A server knows its transfers three times over: by its registry, by its
  workers, and by the events it has told.  In every course of its loop the three
  agree (`books_are_kept`): the registered peers are those with a worker, one
  each, and the events of a peer are starts and reports in turn, each report
  with the result of the worker that was started before it.  So nothing is left
  open when the loop is over because it was told to stop.

  Nothing is assumed of the workers.  Besides what a server does with them, they
  may turn into anything at any moment (`Occurrence.becomes`), as they do when
  their task breaks off; so they may end with any result.
-/
import TftpUpload.Proofs.Server.Books
import TftpUpload.Proofs.Server.Requests
import TftpUpload.Server.Loop

namespace TftpUpload.Server

open Wire Transfer Net Text

variable {σ κ : Type}

/-! ### Courses

What happens may be a datagram, a turn of a worker, a worker that breaks off, or a signal. -/

/-- What may happen at a server. -/
inductive Occurrence (σ κ : Type) where
  | given (signal : Signal)
  /-- The worker of the peer, and the storage, turn into anything. -/
  | becomes (peer : Address) (state : Reception.State σ κ)

namespace Loop

def opened (store : σ) : Loop σ κ := ⟨Service.opened store, .serving⟩

section

variable (st : Storage σ κ) (settings : Transfer.Settings)

def undergo (l : Loop σ κ) : Occurrence σ κ → Loop σ κ × Response
  | .given signal => l.step st settings signal
  | .becomes peer state => ({ l with service := l.service.setWorker peer state }, {})

/-- Where occurrences lead to, one after the other, and what comes of each. -/
def course : Loop σ κ → List (Occurrence σ κ) → Loop σ κ × List Response
  | l, [] => (l, [])
  | l, o :: rest =>
    let (l', response) := l.undergo st settings o
    let (l'', responses) := course l' rest
    (l'', response :: responses)

def collected (l : Loop σ κ) (peer : Address) : Occurrence σ κ → List (Except Failure Summary)
  | .given (.stimulus stimulus) =>
    match l.phase with
    | .ended _ => []
    | _ => l.service.collected peer stimulus
  | _ => []

/-- The results of the workers of the peer, in the order in which they are collected. -/
def resultsOf (peer : Address) : Loop σ κ → List (Occurrence σ κ) →
    List (Except Failure Summary)
  | _, [] => []
  | l, o :: rest => l.collected peer o ++ resultsOf peer (l.undergo st settings o).1 rest

end

variable {st : Storage σ κ} {settings : Transfer.Settings} {l : Loop σ κ}

theorem course_cons (l : Loop σ κ) (o : Occurrence σ κ) (rest : List (Occurrence σ κ)) :
    l.course st settings (o :: rest) =
      (((l.undergo st settings o).1.course st settings rest).1,
        (l.undergo st settings o).2 ::
          ((l.undergo st settings o).1.course st settings rest).2) := rfl

@[simp]
theorem service_settle (l : Loop σ κ) : l.settle.service = l.service := by
  unfold settle
  split
  · split <;> rfl
  · rfl

/-- While it serves, the loop passes on what it is given. -/
theorem step_serving (serving : l.phase = .serving) (stimulus : Stimulus) :
    l.step st settings (.stimulus stimulus) =
      ({ l with service := (l.service.step st settings stimulus).1 },
        (l.service.step st settings stimulus).2) := by
  simp [step, settle, serving]

/-- A datagram that comes later stays unread. -/
theorem step_unread (told : l.phase ≠ .serving) (peer : Address) (bytes : Bytes)
    (endpoint : Except Fault Unit) :
    l.step st settings (.stimulus (.datagram peer bytes endpoint)) = (l, {}) := by
  cases hphase : l.phase with
  | serving => exact absurd hphase told
  | draining | ended result => simp only [step, hphase]

theorem undergo_turns (st : Storage σ κ) (settings : Transfer.Settings) (kept : l.service.Kept)
    (o : Occurrence σ κ) :
    l.service.Turns (l.collected · o) (l.undergo st settings o).1.service
      (l.undergo st settings o).2 := by
  cases o with
  | becomes peer state =>
    exact Service.setWorker_turns _ peer state (fun _ => rfl) none
  | given signal =>
    cases signal with
    | shutdown | broken fault =>
      simp only [undergo, step]
      split
      · simp only [service_settle]
        exact .same _ fun _ => rfl
      · exact .same _ fun _ => rfl
    | stimulus stimulus =>
      have hturns := Service.step_turns st settings kept stimulus
      cases hphase : l.phase with
      | ended result =>
        simp only [undergo, step, hphase]
        exact .same _ fun q => by simp only [collected, hphase]
      | serving =>
        rw [undergo, step_serving hphase]
        simpa only [collected, hphase] using hturns
      | draining =>
        cases stimulus with
        | datagram source bytes endpoint =>
          rw [undergo, step_unread (by rw [hphase]; nofun)]
          exact .same _ fun q => by simp only [collected, hphase, Service.collected]
        | arrival peer a | verdict peer v | collect peer =>
          simp only [undergo, step, hphase, service_settle]
          simpa only [collected, hphase] using hturns

theorem course_kept (st : Storage σ κ) (settings : Transfer.Settings) (kept : l.service.Kept)
    (occurrences : List (Occurrence σ κ)) :
    (l.course st settings occurrences).1.service.Kept := by
  induction occurrences generalizing l with
  | nil => exact kept
  | cons o rest ih =>
    rw [course_cons]
    exact ih ((undergo_turns st settings kept o).kept kept)

theorem course_laps (st : Storage σ κ) (settings : Transfer.Settings) (kept : l.service.Kept)
    (occurrences : List (Occurrence σ κ)) (peer : Address) :
    Laps peer ((l.course st settings occurrences).1.service.name? peer)
      (l.resultsOf st settings peer occurrences)
      (l.service.underWay peer ++ eventsOf peer (l.course st settings occurrences).2) := by
  induction occurrences generalizing l with
  | nil => simpa [course, resultsOf, eventsOf, Service.underWay] using Laps.last
  | cons o rest ih =>
    have hturns := undergo_turns st settings kept o
    have hlater := hturns.laps (ih (hturns.kept kept))
    rw [course_cons]
    simpa [resultsOf, eventsOf] using hlater

/-! ### The end of a loop

A loop that has been told to stop is over when its last worker is collected, and not before.  So it
is over once every worker has ended and has been collected, in whatever order they come. -/

structure Phased (l : Loop σ κ) : Prop where
  waits : l.phase = .draining → l.service.workers ≠ []
  done : l.phase = .ended (.ok ()) → l.service.workers = []

theorem settle_phased (h : l.phase ≠ .ended (.ok ())) : l.settle.Phased := by
  unfold settle
  split
  · rename_i hphase
    split
    · rename_i hnone
      exact ⟨nofun, fun _ => List.isEmpty_iff.1 hnone⟩
    · rename_i hsome
      exact ⟨fun _ hnone => hsome (List.isEmpty_iff.2 hnone), fun hended => absurd hended h⟩
  · rename_i hphase
    exact ⟨fun hdraining => absurd hdraining hphase, fun hended => absurd hended h⟩

theorem Phased.becomes (phased : l.Phased) (peer : Address) (state : Reception.State σ κ) :
    Phased { l with service := l.service.setWorker peer state } where
  waits hphase hnone := phased.waits hphase (List.map_eq_nil_iff.1 hnone)
  done hphase := List.map_eq_nil_iff.2 (phased.done hphase)

theorem undergo_phased (phased : l.Phased) (o : Occurrence σ κ) :
    (l.undergo st settings o).1.Phased := by
  cases o with
  | becomes peer state => exact phased.becomes peer state
  | given signal =>
    cases signal with
    | shutdown =>
      simp only [undergo, step]
      split
      · dsimp only
        exact settle_phased nofun
      · exact phased
    | broken fault =>
      simp only [undergo, step]
      split
      · exact ⟨nofun, nofun⟩
      · exact phased
    | stimulus stimulus =>
      cases hphase : l.phase with
      | ended result => simpa only [undergo, step, hphase] using phased
      | serving =>
        rw [undergo, step_serving hphase]
        exact ⟨fun h => absurd (hphase.symm.trans h) nofun,
          fun h => absurd (hphase.symm.trans h) nofun⟩
      | draining =>
        cases stimulus with
        | datagram source bytes endpoint =>
          rw [undergo, step_unread (by rw [hphase]; nofun)]
          exact phased
        | arrival peer a | verdict peer v | collect peer =>
          simp only [undergo, step, hphase]
          exact settle_phased nofun

theorem course_phased (phased : l.Phased) (occurrences : List (Occurrence σ κ)) :
    (l.course st settings occurrences).1.Phased := by
  induction occurrences generalizing l with
  | nil => exact phased
  | cons o rest ih =>
    rw [course_cons]
    exact ih (undergo_phased phased o)

def collections (workers : List (Address × Reception.Status κ)) : List (Occurrence σ κ) :=
  workers.map fun entry => .given (.stimulus (.collect entry.1))

theorem ended_of_collected {workers : List (Address × Reception.Status κ)}
    (hworkers : l.service.workers = workers) (distinct : (workers.map Prod.fst).Nodup)
    (ended : ∀ entry ∈ workers, ∃ result, entry.2 = .ended result)
    (told : l.phase = (if workers = [] then .ended (.ok ()) else .draining)) :
    (l.course st settings (collections workers)).1.phase = .ended (.ok ()) := by
  induction workers generalizing l with
  | nil => simpa [collections, course] using told
  | cons entry rest ih =>
    obtain ⟨peer, status⟩ := entry
    obtain ⟨result, hstatus⟩ := ended _ List.mem_cons_self
    obtain rfl : status = .ended result := hstatus
    rw [List.map_cons, List.nodup_cons] at distinct
    have hothers : ((peer, Reception.Status.ended result) :: rest).filter (·.1 != peer) = rest := by
      rw [List.filter_cons_of_neg (by simp), List.filter_eq_self]
      intro entry hentry
      rw [bne_iff_ne]
      intro heq
      exact distinct.1 (List.mem_map.2 ⟨entry, hentry, heq⟩)
    have hdraining : l.phase = .draining := by simpa using told
    have hcollect : ((l.service.collect peer).1).workers = rest := by
      simp [Service.collect, hworkers, hothers]
    rw [collections, List.map_cons, course_cons]
    refine ih ?_ distinct.2 (fun entry hentry => ended entry (List.mem_cons_of_mem _ hentry)) ?_
    · simp only [undergo, step, hdraining, service_settle]
      exact hcollect
    · have hphase : ∀ service : Service σ κ, (Loop.mk service .draining).settle.phase =
          if service.workers = [] then .ended (.ok ()) else .draining := by
        intro service
        unfold settle
        simp only [List.isEmpty_iff]
        split <;> rfl
      simp only [undergo, step, hdraining]
      rw [hphase, Service.step, hcollect]

/-- Told to stop, the loop is over once its workers have been collected, if they have ended. -/
theorem ended_of_shutdown (phased : l.Phased) (kept : l.service.Kept)
    (running : ∀ result, l.phase ≠ .ended result)
    (ended : ∀ entry ∈ l.service.workers, ∃ result, entry.2 = .ended result) :
    (l.course st settings (.given .shutdown :: collections l.service.workers)).1.phase =
      .ended (.ok ()) := by
  rw [course_cons]
  have hservice : (l.undergo st settings (.given .shutdown)).1.service = l.service := by
    simp only [undergo, step]
    split
    · rw [service_settle]
    · rfl
  refine ended_of_collected (congrArg Service.workers hservice) kept.distinct ended ?_
  simp only [undergo, step]
  cases hphase : l.phase with
  | ended result => exact absurd hphase (running result)
  | draining =>
    rw [if_neg (phased.waits hphase)]
    exact hphase
  | serving =>
    simp only [settle, List.isEmpty_iff]
    split <;> rfl

/-! ### All books together -/

/-- What is known of a loop that has given these responses, if the workers of each peer have ended
with the given results. -/
structure Booked (st : Storage σ κ) (settings : Transfer.Settings)
    (results : Address → List (Except Failure Summary)) (l : Loop σ κ)
    (responses : List Response) : Prop where
  /-- The registered peers are those with a worker. -/
  registered : l.service.rendezvous.registry.peers = l.service.workers.map Prod.fst
  /-- No peer has two workers. -/
  distinct : (l.service.workers.map Prod.fst).Nodup
  /-- A peer is told of starts and results in turn. -/
  laps : ∀ peer, Laps peer (l.service.name? peer) (results peer) (eventsOf peer responses)
  /-- A datagram of a registered peer is counted, and no more. -/
  strays : l.phase = .serving → ∀ peer active,
    l.service.rendezvous.registry.find? peer = some active → ∀ bytes endpoint, ∃ service response,
      l.step st settings (.stimulus (.datagram peer bytes endpoint)) =
        ({ l with service }, response) ∧ l.service.Strays peer active (service, response)
  /-- What the receive buffer keeps of a datagram of any other peer starts a worker, is passed
  over, or is refused. -/
  answers : l.phase = .serving → ∀ peer, l.service.rendezvous.registry.find? peer = none →
    ∀ bytes endpoint, ∃ service response,
      l.step st settings (.stimulus (.datagram peer bytes endpoint)) =
        ({ l with service }, response) ∧
      l.service.Answers st settings peer (bytes.take receiveLimit) endpoint (service, response)
  /-- Once the loop has been told to stop, no datagram is read any more. -/
  unread : l.phase ≠ .serving → ∀ peer bytes endpoint,
    l.step st settings (.stimulus (.datagram peer bytes endpoint)) = (l, {})
  /-- While the loop goes on after that, there is a worker to wait for. -/
  waits : l.phase = .draining → l.service.workers ≠ []
  /-- The loop comes to its end when it is told to, and the workers have ended and are collected. -/
  ends : (∀ result, l.phase ≠ .ended result) →
    (∀ entry ∈ l.service.workers, ∃ result, entry.2 = .ended result) →
    (l.course st settings (.given .shutdown :: collections l.service.workers)).1.phase =
      .ended (.ok ())
  /-- When it is over, all workers have been collected, nobody is registered, and every start has
  its report. -/
  settled : l.phase = .ended (.ok ()) → l.service.workers = [] ∧
    l.service.rendezvous.registry.isEmpty ∧
    ∀ peer, Laps peer none (results peer) (eventsOf peer responses)

end Loop

open Loop

/-- In every course of a server, its registry, its workers and its events agree. -/
theorem books_are_kept (st : Storage σ κ) (settings : Transfer.Settings) (store : σ)
    (occurrences : List (Occurrence σ κ)) :
    Booked st settings (fun peer => (opened store).resultsOf st settings peer occurrences)
      ((opened store).course st settings occurrences).1
      ((opened store).course st settings occurrences).2 := by
  have hopened : (opened store : Loop σ κ).service.Kept := ⟨rfl, List.nodup_nil⟩
  have hkept := course_kept st settings hopened occurrences
  have hlaps := course_laps st settings hopened occurrences
  have hstart : (opened store : Loop σ κ).Phased := ⟨nofun, nofun⟩
  have hphased : ((opened store).course st settings occurrences).1.Phased :=
    course_phased hstart occurrences
  refine ⟨hkept.registered, hkept.distinct, hlaps, ?_, ?_, fun told => step_unread told,
    hphased.waits, ended_of_shutdown hphased hkept, fun hended => ?_⟩
  · intro serving peer active hfind bytes endpoint
    exact ⟨_, _, step_serving serving _, Service.datagram_strays st settings hfind bytes endpoint⟩
  · intro serving peer hfind bytes endpoint
    exact ⟨_, _, step_serving serving _, Service.datagram_answers st settings hfind bytes endpoint⟩
  · have hnone := hphased.done hended
    have hempty := hkept.registered
    rw [hnone] at hempty
    refine ⟨hnone, List.isEmpty_iff.2 (List.map_eq_nil_iff.1 hempty), fun peer => ?_⟩
    have hname : ((opened store).course st settings occurrences).1.service.name? peer = none := by
      have hworker := hkept.name?_isSome peer
      rw [Service.worker?, hnone] at hworker
      exact Option.not_isSome_iff_eq_none.1 fun h => Bool.false_ne_true (hworker.1 h)
    rw [← hname]
    exact hlaps peer

/-! ### A course to its end -/

section Course

open Storage

def visitor : Address := ⟨.loopback6, 5001, 0⟩

def busyDay : List (Occurrence FileSystem OpenFile) :=
  [.given (.stimulus requestA)] ++ oneUpload.map (.given ∘ .stimulus) ++
  [.given (.stimulus (.datagram visitor [0, 1, 97, 0, 111, 0] (.ok ()))),
    .given (.stimulus (.datagram visitor [0, 2, 98, 0, 111, 0] (.ok ()))),
    .given .shutdown, .given (.stimulus requestA),
    .given (.stimulus (.verdict visitor (.ok ()))),
    .given (.stimulus (.arrival visitor .stopped)),
    .given (.stimulus (.verdict visitor (.ok ()))), .given (.stimulus (.collect visitor))]

def closed : Loop FileSystem OpenFile × List Response :=
  (opened emptyRoot).course (Directory.storage ⟨"root", []⟩) { maxRetries := 1 } busyDay

set_option maxRecDepth 20000 in
/-- The visitor is refused the file it asks for, and its upload breaks off. -/
theorem books_of_a_day :
    closed.1.phase = .ended (.ok ()) ∧
      closed.2.filterMap (·.reply) = [⟨visitor,
        (Message.error .illegalOperation "read requests are not supported").form⟩] ∧
      closed.1.service.rendezvous.registry.isEmpty ∧
      Laps client none [.ok ⟨"a", 1, 1⟩]
        [.started client "a", .completed client ⟨"a", 1, 1⟩] ∧
      Laps visitor none [.error .cancelled]
        [.started visitor "b", .failed visitor "b" .notDefined "transfer cancelled"] := by
  have hended : closed.1.phase = .ended (.ok ()) := rfl
  obtain ⟨-, hempty, hlaps⟩ := (books_are_kept (Directory.storage ⟨"root", []⟩)
    { maxRetries := 1 } emptyRoot busyDay).settled hended
  exact ⟨hended, rfl, hempty, hlaps client, hlaps visitor⟩

end Course

end TftpUpload.Server
