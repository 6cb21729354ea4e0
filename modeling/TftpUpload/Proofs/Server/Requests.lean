/-
  TftpUpload/Proofs/Server/Requests.lean
  ======================================
  **Requests and the transfers that they start.**

  A network may bring a request more than once.  As long as the transfer that it
  has started is not reported, lingering included, every copy is dropped; so the
  transfers started for a peer are those reported and the one that runs
  (`copies_are_dropped`).  Nothing is remembered after that.  A copy that comes
  once the transfer is reported is a request like any other, and the file that
  was completed is emptied, and removed when nobody goes on
  (`late_copy_starts_again`).
-/
import TftpUpload.Proofs.Server.Service
import TftpUpload.Storage.Directory

namespace TftpUpload.Server

open Wire Transfer Net

variable {σ κ : Type}

/-! ### Counting

Starts and reports are counted in what the server has told. -/

def Event.isStart (peer : Address) : Event → Bool
  | started p _ => p == peer
  | completed _ _ => false
  | failed .. => false

def Event.isReport (peer : Address) : Event → Bool
  | started _ _ => false
  | completed p _ => p == peer
  | failed p .. => p == peer

def countStarts (peer : Address) (responses : List Response) : Nat :=
  responses.countP fun r => r.event.any (Event.isStart peer)

def countReports (peer : Address) (responses : List Response) : Nat :=
  responses.countP fun r => r.event.any (Event.isReport peer)

def Service.running (s : Service σ κ) (peer : Address) : Nat :=
  if (s.worker? peer).isSome then 1 else 0

theorem isReport_outcome (peer q : Address) (active : Active) (result : Except Failure Summary) :
    (Rendezvous.outcome peer active result).isReport q = (peer == q) := by
  cases result <;> rfl

theorem isStart_outcome (peer q : Address) (active : Active) (result : Except Failure Summary) :
    (Rendezvous.outcome peer active result).isStart q = false := by
  cases result <;> rfl

namespace Service

variable {st : Storage σ κ} {settings : Transfer.Settings} {s s' : Service σ κ}

/-- A stimulus starts, reports or keeps a transfer. -/
theorem Moves.counts (orderly : s.Orderly) {stimulus : Stimulus} {response : Response}
    (h : Moves st settings s stimulus s' response) (peer : Address) :
    countStarts peer [response] + s.running peer =
      countReports peer [response] + s'.running peer := by
  unfold running
  cases h with
  | still names workers store => simp [countStarts, countReports, workers]
  | @starts source bytes endpoint name mode s' fresh request names workers store =>
    rw [workers peer]
    by_cases hpeer : peer = source
    · have hnone : (s.worker? source).isSome = false := by rw [← orderly source, fresh]; rfl
      simp [countStarts, countReports, Event.isStart, Event.isReport, hpeer, hnone]
    · have hne : (source == peer) = false := beq_eq_false_iff_ne.2 (Ne.symm hpeer)
      simp [countStarts, countReports, Event.isStart, Event.isReport, hpeer, hne]
  | works worker given names workers store =>
    rw [workers peer]
    by_cases hpeer : peer = stimulus.peer
    · simp [countStarts, countReports, hpeer, worker]
    · simp [countStarts, countReports, hpeer]
  | @collects source active result s' worker registered names workers store =>
    rw [workers peer]
    by_cases hpeer : peer = source
    · simp [countStarts, countReports, isReport_outcome, isStart_outcome, hpeer, worker]
    · have hne : (source == peer) = false := beq_eq_false_iff_ne.2 (Ne.symm hpeer)
      simp [countStarts, countReports, isReport_outcome, isStart_outcome, hpeer, hne]

theorem run_counts (st : Storage σ κ) (settings : Transfer.Settings) (orderly : s.Orderly)
    (stimuli : List Stimulus) (peer : Address) :
    countStarts peer (s.run st settings stimuli).2 + s.running peer =
      countReports peer (s.run st settings stimuli).2 +
        (s.run st settings stimuli).1.running peer := by
  induction stimuli generalizing s with
  | nil => simp [run_nil, countStarts, countReports]
  | cons stimulus rest ih =>
    have hmoves := step_moves st settings orderly stimulus
    have hstep := hmoves.counts orderly peer
    have hrest := ih (hmoves.orderly orderly)
    rw [run_cons]
    simp only [countStarts, countReports, List.countP_cons, List.countP_nil] at hstep hrest ⊢
    omega

/-- Whatever a peer with a transfer sends to the rendezvous is dropped. -/
theorem step_of_running (orderly : s.Orderly) {peer : Address} (running : (s.worker? peer).isSome)
    (bytes : Bytes) (endpoint : Except Fault Unit) :
    (s.step st settings (.datagram peer bytes endpoint)).2 = {} ∧
      (s.step st settings (.datagram peer bytes endpoint)).1.workers = s.workers ∧
      (s.step st settings (.datagram peer bytes endpoint)).1.store = s.store := by
  rw [← orderly peer, name?, Option.isSome_map] at running
  obtain ⟨active, hfind⟩ := Option.isSome_iff_exists.1 running
  simp only [step, onDatagram, Rendezvous.receive, hfind, and_self]

/-- A request of a peer without a transfer starts one. -/
theorem step_of_request (orderly : s.Orderly) {peer : Address} (idle : s.worker? peer = none)
    {bytes : Bytes} {name mode : String}
    (request : decode (bytes.take receiveLimit) = .ok (.writeRequest name mode))
    (endpoint : Except Fault Unit) :
    (s.step st settings (.datagram peer bytes endpoint)).2 =
      { event := some (.started peer name) } := by
  have hfresh := orderly peer
  rw [idle, name?, Option.isSome_map] at hfresh
  have hfind : s.rendezvous.registry.find? peer = none := by
    cases hfind : s.rendezvous.registry.find? peer with
    | none => rfl
    | some active =>
      rw [hfind] at hfresh
      cases hfresh
  simp only [step, onDatagram, Rendezvous.receive, hfind, Rendezvous.reaction, request,
    Registry.create]

end Service

open Service

/-- In every run of a server, a copy of a request is dropped exactly as long as the transfer of
its peer has not been reported: it starts nothing and changes no transfer and no file.  So the
transfers started for a peer are those that have been reported and the one that runs. -/
theorem copies_are_dropped (st : Storage σ κ) (settings : Transfer.Settings) (store : σ)
    (stimuli : List Stimulus) (peer : Address) :
    let s := ((opened store).run st settings stimuli).1
    let responses := ((opened store).run st settings stimuli).2
    countStarts peer responses = countReports peer responses + s.running peer ∧
      (s.running peer = 1 → ∀ bytes endpoint,
        (s.step st settings (.datagram peer bytes endpoint)).2 = {} ∧
          (s.step st settings (.datagram peer bytes endpoint)).1.workers = s.workers ∧
          (s.step st settings (.datagram peer bytes endpoint)).1.store = s.store) ∧
      (s.running peer = 0 → ∀ bytes endpoint name mode,
        decode (bytes.take receiveLimit) = .ok (.writeRequest name mode) →
        (s.step st settings (.datagram peer bytes endpoint)).2 =
          { event := some (.started peer name) }) := by
  intro s responses
  have horderly : s.Orderly := orderly_run (orderly_opened store) stimuli
  refine ⟨?_, ?_, ?_⟩
  · have hcounts := run_counts st settings (orderly_opened store) stimuli peer
    have hnone : (opened store : Service σ κ).running peer = 0 := rfl
    rw [hnone] at hcounts
    exact hcounts
  · intro hrunning bytes endpoint
    refine step_of_running horderly (Option.isSome_iff_ne_none.2 fun hnone => ?_) bytes endpoint
    simp [running, hnone] at hrunning
  · intro hidle bytes endpoint name mode request
    refine step_of_request horderly (Option.not_isSome_iff_eq_none.1 fun hsome => ?_) request
      endpoint
    simp [running, hsome] at hidle

/-! ### A late copy

The copy is the first request once more, byte by byte. -/

section LateCopy

open Storage

def emptyRoot : FileSystem := { entries := [(["root"], .directory)] }

def client : Address := ⟨.loopback6, 5000, 0⟩

def requestA : Stimulus := .datagram client [0, 2, 97, 0, 111, 0] (.ok ())

/-- A file of one byte is received and reported. -/
def oneUpload : List Stimulus :=
  [requestA, .verdict client (.ok ()), .arrival client (.datagram [0, 3, 0, 1, 7]),
    .verdict client (.ok ()), .arrival client .silence, .collect client]

def serverAfter (stimuli : List Stimulus) : Service FileSystem OpenFile × List Response :=
  (opened emptyRoot).run (Directory.storage ⟨"root", []⟩) { maxRetries := 1 } stimuli

/-- The file `a` after the stimuli. -/
def fileAfter (stimuli : List Stimulus) : Except Fault FileSystem.Opened :=
  (serverAfter stimuli).1.store.openFile [] "root/a"

set_option maxRecDepth 20000 in
/-- A copy of its request starts a completed transfer again.  The file is emptied, and removed
when no block comes. -/
theorem late_copy_starts_again :
    (serverAfter (oneUpload ++ [requestA])).2.filterMap (·.event) =
        [.started client "a", .completed client ⟨"a", 1, 1⟩, .started client "a"] ∧
      fileAfter oneUpload = .ok (.contents [7]) ∧
      fileAfter (oneUpload ++ [requestA]) = .ok (.contents []) ∧
      fileAfter (oneUpload ++ [requestA, .verdict client (.ok ()), .arrival client .silence]) =
        .error (.os .noEntry) :=
  ⟨rfl, rfl, rfl, rfl⟩

end LateCopy

end TftpUpload.Server
