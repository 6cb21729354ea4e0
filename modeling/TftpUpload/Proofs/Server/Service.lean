/-
  TftpUpload/Proofs/Server/Service.lean
  =====================================
  **What one stimulus does to a server.**

  A server is described by what it knows of a peer: the name that its transfer
  was asked for, and its worker.  A stimulus starts one transfer, moves one
  worker, collects one, or touches none (`step_moves`); whatever it does, every
  other peer is left alone.  A peer has a name in the registry exactly as long
  as it has a worker (`Orderly`).  Later proofs use these and do not look into
  the registry again.
-/
import TftpUpload.Proofs.Transfer.History
import TftpUpload.Server.Service

namespace TftpUpload

open Wire Transfer Net

/-- What a reception makes of an input. -/
def Reception.react {σ κ : Type} (st : Storage σ κ) (state : Reception.State σ κ) :
    Input → Reception.State σ κ × Option Progress
  | .arrival a => Reception.Status.arrive st state a
  | .verdict v => Reception.Status.settle st state v

theorem Reception.react_ended {σ κ : Type} (st : Storage σ κ) (result : Except Failure Summary)
    (store : σ) (input : Input) :
    (react st (.ended result, store) input).1 = (.ended result, store) := by
  cases input <;> rfl

namespace Server

variable {σ κ : Type}

theorem lookup_update {α : Type} (l : List (Address × α)) (peer q : Address) (f : α → α) :
    (l.map fun (p, value) => if p = peer then (p, f value) else (p, value)).lookup q =
      if q = peer then (l.lookup q).map f else l.lookup q := by
  induction l with
  | nil => simp
  | cons e rest ih =>
    obtain ⟨p, value⟩ := e
    by_cases hqp : q = p
    · subst hqp
      by_cases hq : q = peer <;> simp [hq]
    · have hne : (q == p) = false := beq_eq_false_iff_ne.2 hqp
      by_cases hp : p = peer
      · subst hp
        simpa [List.lookup_cons, hne, hqp] using ih
      · simpa [List.lookup_cons, hne, hp] using ih

def Stimulus.peer : Stimulus → Address
  | datagram source _ _ => source
  | arrival peer _ => peer
  | verdict peer _ => peer
  | collect peer => peer

def Stimulus.input? : Stimulus → Option Input
  | datagram .. => none
  | arrival _ a => some (.arrival a)
  | verdict _ v => some (.verdict v)
  | collect _ => none

namespace Service

/-! ### What is known of a peer

A peer is found by its whole address, so two transfers of one machine are two peers. -/

def worker? (s : Service σ κ) (peer : Address) : Option (Reception.Status κ) :=
  s.workers.lookup peer

def name? (s : Service σ κ) (peer : Address) : Option String :=
  (s.rendezvous.registry.find? peer).map Active.filename

/-- A peer is registered as long as it has a worker. -/
def Orderly (s : Service σ κ) : Prop := ∀ peer, (s.name? peer).isSome = (s.worker? peer).isSome

def opened (store : σ) : Service σ κ := { store }

theorem orderly_opened (store : σ) : (opened store : Service σ κ).Orderly := fun _ => rfl

theorem worker?_setWorker (s : Service σ κ) (peer q : Address) (state : Reception.State σ κ) :
    (s.setWorker peer state).worker? q =
      if q = peer then (s.worker? q).map fun _ => state.1 else s.worker? q :=
  lookup_update s.workers peer q fun _ => state.1

theorem find?_modify {α : Type} (r : Registry α) (peer q : Address) (f : α → α) :
    (r.modify peer f).find? q = if q = peer then (r.find? q).map f else r.find? q :=
  lookup_update r.sessions peer q f

/-! ### Stimuli -/

variable {st : Storage σ κ} {settings : Transfer.Settings} {s s' : Service σ κ}

/-- All that a stimulus can do to a server. -/
inductive Moves (st : Storage σ κ) (settings : Transfer.Settings) (s : Service σ κ) :
    Stimulus → Service σ κ → Response → Prop where
  /-- No transfer and no file is touched. -/
  | still {stimulus : Stimulus} {s' : Service σ κ} {reply : Option Reply}
      (names : ∀ q, s'.name? q = s.name? q) (workers : ∀ q, s'.worker? q = s.worker? q)
      (store : s'.store = s.store)
      (unheard : s.worker? stimulus.peer = none ∨ stimulus.input? = none) :
    Moves st settings s stimulus s' { reply }
  /-- The request of a new peer starts a transfer. -/
  | starts {source : Address} {bytes : Bytes} {endpoint : Except Fault Unit} {name mode : String}
      {s' : Service σ κ} (fresh : s.name? source = none)
      (request : decode (bytes.take receiveLimit) = .ok (.writeRequest name mode))
      (names : ∀ q, s'.name? q = if q = source then some name else s.name? q)
      (workers : ∀ q, s'.worker? q = if q = source then
        some (newWorker st settings (bytes.take receiveLimit) s.store endpoint).1
        else s.worker? q)
      (store : s'.store =
        (newWorker st settings (bytes.take receiveLimit) s.store endpoint).2) :
    Moves st settings s (.datagram source bytes endpoint) s'
      { event := some (.started source name) }
  /-- A worker is given an input. -/
  | works {stimulus : Stimulus} {status : Reception.Status κ} {input : Input}
      {s' : Service σ κ} {progress : Option Progress}
      (worker : s.worker? stimulus.peer = some status) (given : stimulus.input? = some input)
      (names : ∀ q, s'.name? q = s.name? q)
      (workers : ∀ q, s'.worker? q = if q = stimulus.peer then
        some (Reception.react st (status, s.store) input).1.1 else s.worker? q)
      (store : s'.store = (Reception.react st (status, s.store) input).1.2) :
    Moves st settings s stimulus s' { progress }
  /-- A worker that has ended leaves, and its result is told. -/
  | collects {peer : Address} {active : Active} {result : Except Failure Summary}
      {s' : Service σ κ} (worker : s.worker? peer = some (.ended result))
      (registered : s.rendezvous.registry.find? peer = some active)
      (names : ∀ q, s'.name? q = if q = peer then none else s.name? q)
      (workers : ∀ q, s'.worker? q = if q = peer then none else s.worker? q)
      (store : s'.store = s.store) :
    Moves st settings s (.collect peer) s'
      { event := some (Rendezvous.outcome peer active result) }

theorem of_reaction_accepted {datagram request : Bytes} {filename : String}
    (h : Rendezvous.reaction datagram = .accepted request filename) :
    request = datagram ∧ ∃ mode, decode datagram = .ok (.writeRequest filename mode) := by
  unfold Rendezvous.reaction at h
  split at h
  · rename_i name mode hdecode
    cases h
    exact ⟨rfl, mode, hdecode⟩
  all_goals cases h

theorem onDatagram_moves (s : Service σ κ) (source : Address) (bytes : Bytes)
    (endpoint : Except Fault Unit) :
    Moves st settings s (.datagram source bytes endpoint)
      (s.onDatagram st settings source bytes endpoint).1
      (s.onDatagram st settings source bytes endpoint).2 := by
  unfold onDatagram Rendezvous.receive
  cases hfind : s.rendezvous.registry.find? source with
  | some active =>
    -- the registry counts the stray, and keeps every name
    refine .still (fun q => ?_) (fun _ => rfl) rfl (.inr rfl)
    simp only [name?, find?_modify]
    split
    · cases s.rendezvous.registry.find? q <;> rfl
    · rfl
  | none =>
    dsimp only
    cases hreaction : Rendezvous.reaction (bytes.take receiveLimit) with
    | accepted request filename =>
      obtain ⟨rfl, mode, hrequest⟩ := of_reaction_accepted hreaction
      have hcreate : s.rendezvous.registry.create source { filename } =
          .ok ⟨(source, { filename }) :: s.rendezvous.registry.sessions⟩ := by
        unfold Registry.create
        rw [hfind]
      dsimp only
      rw [hcreate]
      refine .starts (by simp only [name?, hfind, Option.map_none]) hrequest (fun q => ?_)
        (fun q => ?_) rfl
      · simp only [name?, Registry.find?_create hcreate]
        split <;> rfl
      · simp only [worker?, List.lookup_cons]
        by_cases hq : q = source
        · simp [hq]
        · simp [hq, beq_eq_false_iff_ne.2 hq]
    | dropped | ignored | refused => exact .still (fun _ => rfl) (fun _ => rfl) rfl (.inr rfl)

/-- A worker that is there is moved by what it is given. -/
theorem setWorker_moves {s : Service σ κ} {stimulus : Stimulus} {status : Reception.Status κ}
    (worker : s.worker? stimulus.peer = some status) {input : Input}
    (given : stimulus.input? = some input) :
    Moves st settings s stimulus
      (s.setWorker stimulus.peer (Reception.react st (status, s.store) input).1)
      { progress := (Reception.react st (status, s.store) input).2 } := by
  refine .works worker given (fun _ => rfl) (fun q => ?_) rfl
  rw [worker?_setWorker]
  split
  · rename_i hq
    rw [hq, worker]
    rfl
  · rfl

theorem collect_moves (orderly : s.Orderly) (peer : Address) :
    Moves st settings s (.collect peer) (s.collect peer).1 (s.collect peer).2 := by
  unfold collect
  split
  · rename_i result hworker
    have hregistered : (s.name? peer).isSome := by
      rw [orderly peer, worker?, hworker]
      rfl
    obtain ⟨active, hfind⟩ : ∃ active, s.rendezvous.registry.find? peer = some active := by
      rw [name?, Option.isSome_map] at hregistered
      exact Option.isSome_iff_exists.1 hregistered
    unfold Rendezvous.finish
    rw [hfind]
    refine .collects hworker hfind (fun q => ?_) (fun q => ?_) rfl
    · simp only [name?, Registry.find?_remove]
      split <;> rfl
    · exact Registry.find?_remove ⟨s.workers⟩ peer q
  · exact .still (fun _ => rfl) (fun _ => rfl) rfl (.inr rfl)

/-- All that a stimulus does to a server. -/
theorem step_moves (st : Storage σ κ) (settings : Transfer.Settings) (orderly : s.Orderly)
    (stimulus : Stimulus) :
    Moves st settings s stimulus (s.step st settings stimulus).1
      (s.step st settings stimulus).2 := by
  cases stimulus with
  | datagram source bytes endpoint => exact s.onDatagram_moves source bytes endpoint
  | arrival peer a =>
    simp only [step]
    split
    · rename_i hnone
      exact .still (fun _ => rfl) (fun _ => rfl) rfl (.inl hnone)
    · rename_i status hstatus
      have hworker : s.worker? (Stimulus.arrival peer a).peer = some status := hstatus
      exact setWorker_moves hworker rfl
  | verdict peer v =>
    simp only [step]
    split
    · rename_i hnone
      exact .still (fun _ => rfl) (fun _ => rfl) rfl (.inl hnone)
    · rename_i status hstatus
      have hworker : s.worker? (Stimulus.verdict peer v).peer = some status := hstatus
      exact setWorker_moves hworker rfl
  | collect peer => exact collect_moves orderly peer

/-- A stimulus leaves the workers of other peers alone. -/
theorem Moves.others {stimulus : Stimulus} {response : Response}
    (h : Moves st settings s stimulus s' response) {q : Address} (hq : q ≠ stimulus.peer) :
    s'.name? q = s.name? q ∧ s'.worker? q = s.worker? q := by
  cases h with
  | still names workers => exact ⟨names q, workers q⟩
  | starts fresh request names workers =>
    exact ⟨(names q).trans (if_neg hq), (workers q).trans (if_neg hq)⟩
  | works worker given names workers => exact ⟨names q, (workers q).trans (if_neg hq)⟩
  | collects worker registered names workers =>
    exact ⟨(names q).trans (if_neg hq), (workers q).trans (if_neg hq)⟩

theorem Moves.orderly {stimulus : Stimulus} {response : Response} (orderly : s.Orderly)
    (h : Moves st settings s stimulus s' response) : s'.Orderly := by
  intro q
  by_cases hq : q = stimulus.peer
  · subst hq
    have hpeer := orderly stimulus.peer
    cases h with
    | still names workers => rw [names, workers, hpeer]
    | starts fresh request names workers => simp only [names, workers, Stimulus.peer, if_true,
        Option.isSome_some]
    | works worker given names workers =>
      rw [names, workers, hpeer, worker, if_pos rfl]
      rfl
    | collects worker registered names workers =>
      simp only [names, workers, Stimulus.peer, if_true]
      rfl
  · obtain ⟨hname, hworker⟩ := h.others hq
    rw [hname, hworker, orderly q]

/-! ### Runs

A run is a list of stimuli in their order.  An invariant of stimuli is one of runs. -/

def run (st : Storage σ κ) (settings : Transfer.Settings) :
    Service σ κ → List Stimulus → Service σ κ × List Response
  | s, [] => (s, [])
  | s, stimulus :: rest =>
    let (s', response) := s.step st settings stimulus
    let (s'', responses) := run st settings s' rest
    (s'', response :: responses)

theorem run_nil (s : Service σ κ) : s.run st settings [] = (s, []) := rfl

theorem run_cons (s : Service σ κ) (stimulus : Stimulus) (rest : List Stimulus) :
    s.run st settings (stimulus :: rest) =
      (((s.step st settings stimulus).1.run st settings rest).1,
        (s.step st settings stimulus).2 ::
          ((s.step st settings stimulus).1.run st settings rest).2) := rfl

/-- What every stimulus preserves, a run preserves.  Of the responses it may be assumed what
holds of all that the run has given. -/
theorem run_invariant {P : Service σ κ → Prop} {good : Response → Prop}
    (step : ∀ s s' stimulus response, good response → s.Orderly → P s →
      Moves st settings s stimulus s' response → P s')
    (orderly : s.Orderly) (holds : P s) (stimuli : List Stimulus)
    (all : ∀ r ∈ (s.run st settings stimuli).2, good r) :
    (s.run st settings stimuli).1.Orderly ∧ P (s.run st settings stimuli).1 := by
  induction stimuli generalizing s with
  | nil => exact ⟨orderly, holds⟩
  | cons stimulus rest ih =>
    have hmoves := step_moves st settings orderly stimulus
    rw [run_cons] at all ⊢
    obtain ⟨hgood, hrest⟩ := List.forall_mem_cons.1 all
    exact ih (hmoves.orderly orderly) (step _ _ _ _ hgood orderly holds hmoves) hrest

theorem orderly_run (orderly : s.Orderly) (stimuli : List Stimulus) :
    (s.run st settings stimuli).1.Orderly :=
  (run_invariant (P := fun _ => True) (fun _ _ _ _ _ _ _ _ => trivial) orderly trivial stimuli
    fun _ _ => trivial).1

end Service

end Server

end TftpUpload
