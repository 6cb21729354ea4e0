/-
  TftpUpload/Proofs/Server/Books.lean
  ===================================
  **What one stimulus does to the books of a server.**

  A server keeps three books of its transfers: its registry, its workers, and
  the events it has told.  The first two have the same peers, one entry for each
  (`Service.Kept`), and the events of a peer are laps, each from a start to a
  report (`Laps`).  All that a stimulus can do to the books is to leave the peers
  as they are, to add one with a start, or to take one out with the report of
  its worker (`Service.Turns`).
-/
import TftpUpload.Proofs.Server.Service
import TftpUpload.Proofs.Transfer.Farewell

namespace TftpUpload.Server

open Wire Transfer Net Text

variable {σ κ : Type}

/-! ### Registries

A registry has a peer once at most, and what becomes of one peer there is nothing to the others. -/

theorem isSome_lookup {α : Type} (l : List (Address × α)) (peer : Address) :
    (l.lookup peer).isSome ↔ peer ∈ l.map Prod.fst := by
  simp [List.lookup_isSome_iff]

namespace Registry

variable {α : Type}

theorem create_of_absent {r : Registry α} {peer : Address} (h : r.find? peer = none) (value : α) :
    r.create peer value = .ok ⟨(peer, value) :: r.sessions⟩ := by
  unfold create
  rw [h]

@[simp]
theorem peers_modify (r : Registry α) (peer : Address) (f : α → α) :
    (r.modify peer f).peers = r.peers := by
  simp only [peers, modify, List.map_map]
  refine List.map_congr_left fun e _ => ?_
  simp only [Function.comp]
  split <;> rfl

@[simp]
theorem peers_remove (r : Registry α) (peer : Address) :
    (r.remove peer).peers = r.peers.filter (· != peer) := by
  simp only [peers, remove, List.filter_map]
  rfl

end Registry

/-! ### Events

An event is spelled out with all that it tells, so that it can be compared with the result of the
worker. -/

def Event.peer : Event → Address
  | started peer _ => peer
  | completed peer _ => peer
  | failed peer .. => peer

/-- The events that responses tell of a peer. -/
def eventsOf (peer : Address) (responses : List Response) : List Event :=
  responses.flatMap fun r => r.event.toList.filter (·.peer = peer)

/-- The events of a peer whose workers have ended with the given results, one after the other.
Another one may be under way. -/
inductive Laps (peer : Address) (running : Option String) :
    List (Except Failure Summary) → List Event → Prop where
  | last : Laps peer running [] (running.toList.map (.started peer))
  | completed (filename name : String) (blocks bytes : Nat)
      {results : List (Except Failure Summary)} {events : List Event}
      (rest : Laps peer running results events) :
    Laps peer running (.ok ⟨name, blocks, bytes⟩ :: results)
      (.started peer filename :: .completed peer ⟨name, blocks, bytes⟩ :: events)
  | failed (filename : String) (failure : Failure)
      {results : List (Except Failure Summary)} {events : List Event}
      (rest : Laps peer running results events) :
    Laps peer running (.error failure :: results)
      (.started peer filename :: .failed peer filename failure.code failure.message :: events)

/-- A transfer that has been reported comes before those that follow. -/
theorem Laps.lap {peer : Address} {running : Option String}
    {results : List (Except Failure Summary)} {events : List Event}
    (rest : Laps peer running results events) (filename : String)
    (result : Except Failure Summary) :
    Laps peer running (result :: results)
      (.started peer filename :: Rendezvous.outcome peer { filename } result :: events) := by
  cases result with
  | ok summary => exact .completed filename summary.filename summary.blocks summary.bytes rest
  | error failure => exact .failed filename failure rest

theorem peer_outcome (peer : Address) (active : Active) (result : Except Failure Summary) :
    (Rendezvous.outcome peer active result).peer = peer := by
  cases result <;> rfl

/-- Of what was registered with a transfer, its report tells the name only. -/
theorem outcome_eq (peer : Address) (active : Active) (result : Except Failure Summary) :
    Rendezvous.outcome peer active result =
      Rendezvous.outcome peer { filename := active.filename } result := by
  cases result <;> rfl

/-! ### Datagrams

A datagram is read only if its sender has no worker, and only then can it be answered. -/

namespace Service

section

variable (st : Storage σ κ) (settings : Transfer.Settings)

/-- What a server does with a datagram of a peer that has no worker.  A write request starts one;
it is always registered.  An ERROR is passed over.  Anything else is refused with one packet to that
peer. -/
def Answers (s : Service σ κ) (peer : Address) (datagram : Bytes) (endpoint : Except Fault Unit)
    (next : Service σ κ × Response) : Prop :=
  match decode datagram with
  | .ok (.writeRequest name _) =>
    let worker := newWorker st settings datagram s.store endpoint
    ∃ registry, s.rendezvous.registry.create peer { filename := name } = .ok registry ∧
      next = (⟨⟨registry⟩, (peer, worker.1) :: s.workers, worker.2⟩,
        { event := some (.started peer name) })
  | .ok (.error _ _) => next = (s, {})
  | _ => ∃ text packet, Wire.packet (.error .illegalOperation text) = .ok packet ∧
      next = (s, { reply := some ⟨peer, packet⟩ })

end

/-- What a server does with a datagram of a peer that has a worker: it counts it. -/
structure Strays (s : Service σ κ) (peer : Address) (active : Active)
    (next : Service σ κ × Response) : Prop where
  silent : next.2 = {}
  workers : next.1.workers = s.workers
  store : next.1.store = s.store
  registered : next.1.rendezvous.registry.peers = s.rendezvous.registry.peers
  counted : ∀ q, next.1.rendezvous.registry.find? q =
    if q = peer then some { active with strays := active.strays + 1 }
    else s.rendezvous.registry.find? q

variable {st : Storage σ κ} {settings : Transfer.Settings} {s : Service σ κ}

theorem packet_refuse {text : String} (h : Plain errorTextLimit text) :
    ∃ packet, Wire.packet (.error .illegalOperation text) = .ok packet ∧
      Rendezvous.refuse text = .refused (some packet) := by
  refine ⟨_, packet_error h, ?_⟩
  unfold Rendezvous.refuse packet?
  rw [packet_error h]

theorem datagram_strays (st : Storage σ κ) (settings : Transfer.Settings) {peer : Address}
    {active : Active} (h : s.rendezvous.registry.find? peer = some active) (bytes : Bytes)
    (endpoint : Except Fault Unit) :
    s.Strays peer active (s.step st settings (.datagram peer bytes endpoint)) := by
  simp only [step, onDatagram, Rendezvous.receive, h]
  refine ⟨rfl, rfl, rfl, Registry.peers_modify _ _ _, fun q => ?_⟩
  rw [find?_modify]
  split
  · rename_i hq
    rw [hq, h]
    rfl
  · rfl

/-- A datagram that is refused changes nothing. -/
theorem datagram_refused {peer : Address} (h : s.rendezvous.registry.find? peer = none)
    {bytes : Bytes} (text : String) (plain : Plain errorTextLimit text)
    (reaction : Rendezvous.reaction (bytes.take receiveLimit) = Rendezvous.refuse text)
    (endpoint : Except Fault Unit) :
    ∃ text packet, Wire.packet (.error .illegalOperation text) = .ok packet ∧
      s.step st settings (.datagram peer bytes endpoint) =
        (s, { reply := some ⟨peer, packet⟩ }) := by
  obtain ⟨packet, hpacket, hrefuse⟩ := packet_refuse plain
  refine ⟨text, packet, hpacket, ?_⟩
  simp only [step, onDatagram, Rendezvous.receive, h, reaction, hrefuse, Option.map_some]

theorem datagram_answers (st : Storage σ κ) (settings : Transfer.Settings) {peer : Address}
    (h : s.rendezvous.registry.find? peer = none) (bytes : Bytes)
    (endpoint : Except Fault Unit) :
    s.Answers st settings peer (bytes.take receiveLimit) endpoint
      (s.step st settings (.datagram peer bytes endpoint)) := by
  unfold Answers
  cases hdecode : decode (bytes.take receiveLimit) with
  | error e =>
    have hplain : Plain 80 e.message := plain_decode (List.length_take_le _ _) hdecode
    exact datagram_refused h e.message (hplain.mono (by decide))
      (by simp only [Rendezvous.reaction, hdecode]) endpoint
  | ok m =>
    cases m with
    | writeRequest name mode =>
      have hcreate := Registry.create_of_absent h { filename := name }
      refine ⟨_, hcreate, ?_⟩
      simp only [step, onDatagram, Rendezvous.receive, h, Rendezvous.reaction, hdecode, hcreate]
    | error code text =>
      simp only [step, onDatagram, Rendezvous.receive, h, Rendezvous.reaction, hdecode]
    | readRequest name mode =>
      exact datagram_refused h "read requests are not supported" (by decide)
        (by simp only [Rendezvous.reaction, hdecode]) endpoint
    | data block payload =>
      exact datagram_refused h ("unexpected " ++ Opcode.data.name) (by decide)
        (by simp only [Rendezvous.reaction, hdecode, Message.opcode]) endpoint
    | ack block =>
      exact datagram_refused h ("unexpected " ++ Opcode.ack.name) (by decide)
        (by simp only [Rendezvous.reaction, hdecode, Message.opcode]) endpoint

/-! ### What a stimulus does to the books

A stimulus keeps the names that are registered, or adds one, or takes one out.  With it goes what is
told: nothing, a start, or the result of the worker that is collected. -/

structure Kept (s : Service σ κ) : Prop where
  registered : s.rendezvous.registry.peers = s.workers.map Prod.fst
  distinct : (s.workers.map Prod.fst).Nodup

theorem Kept.name?_isSome (kept : s.Kept) (peer : Address) :
    (s.name? peer).isSome ↔ (s.worker? peer).isSome := by
  rw [name?, Option.isSome_map, Registry.find?, worker?, isSome_lookup, isSome_lookup,
    ← kept.registered]
  rfl

def collected (s : Service σ κ) (peer : Address) : Stimulus → List (Except Failure Summary)
  | .collect p =>
    match s.worker? p with
    | some (.ended result) => if p = peer then [result] else []
    | _ => []
  | _ => []

/-- All that can happen to the books of a server when these results are collected. -/
inductive Turns (s : Service σ κ) (collected : Address → List (Except Failure Summary)) :
    Service σ κ → Response → Prop where
  | keeps {s' : Service σ κ} {response : Response}
      (peers : s'.rendezvous.registry.peers = s.rendezvous.registry.peers)
      (workers : s'.workers.map Prod.fst = s.workers.map Prod.fst)
      (names : ∀ q, s'.name? q = s.name? q) (untold : response.event = none)
      (none : ∀ q, collected q = []) : Turns s collected s' response
  | starts {peer : Address} {name : String} {s' : Service σ κ} {response : Response}
      (fresh : s.name? peer = none)
      (peers : s'.rendezvous.registry.peers = peer :: s.rendezvous.registry.peers)
      (workers : s'.workers.map Prod.fst = peer :: s.workers.map Prod.fst)
      (names : ∀ q, s'.name? q = if q = peer then some name else s.name? q)
      (told : response.event = some (.started peer name))
      (none : ∀ q, collected q = []) : Turns s collected s' response
  | reports {peer : Address} {name : String} {result : Except Failure Summary}
      {s' : Service σ κ} {response : Response} (running : s.name? peer = some name)
      (peers : s'.rendezvous.registry.peers = s.rendezvous.registry.peers.filter (· != peer))
      (workers : s'.workers.map Prod.fst = (s.workers.map Prod.fst).filter (· != peer))
      (names : ∀ q, s'.name? q = if q = peer then none else s.name? q)
      (told : response.event = some (Rendezvous.outcome peer { filename := name } result))
      (one : ∀ q, collected q = if peer = q then [result] else []) :
    Turns s collected s' response

variable {collected : Address → List (Except Failure Summary)}

theorem Turns.same (s : Service σ κ) (none : ∀ q, collected q = []) :
    s.Turns collected s {} :=
  .keeps rfl rfl (fun _ => rfl) rfl none

theorem setWorker_turns (s : Service σ κ) (peer : Address) (state : Reception.State σ κ)
    (none : ∀ q, collected q = []) (progress : Option Progress) :
    s.Turns collected (s.setWorker peer state) { progress } := by
  refine .keeps rfl ?_ (fun _ => rfl) rfl none
  simp only [setWorker, List.map_map]
  refine List.map_congr_left fun e _ => ?_
  simp only [Function.comp]
  split <;> rfl

theorem datagram_turns (s : Service σ κ) (source : Address) (bytes : Bytes)
    (endpoint : Except Fault Unit) (none : ∀ q, collected q = []) :
    s.Turns collected (s.step st settings (.datagram source bytes endpoint)).1
      (s.step st settings (.datagram source bytes endpoint)).2 := by
  cases hfind : s.rendezvous.registry.find? source with
  | some active =>
    obtain ⟨silent, workers, -, registered, counted⟩ :=
      datagram_strays st settings hfind bytes endpoint
    refine .keeps registered (by rw [workers]) (fun q => ?_) (by rw [silent]) none
    rw [name?, name?, counted]
    split
    · rename_i hq
      rw [hq, hfind]
      rfl
    · rfl
  | none =>
    have hanswers := datagram_answers st settings hfind bytes endpoint
    unfold Answers at hanswers
    split at hanswers
    · obtain ⟨registry, hcreate, hnext⟩ := hanswers
      rw [hnext]
      have hfresh : s.name? source = Option.none := by rw [name?, hfind]; rfl
      refine .starts hfresh ?_ rfl (fun q => ?_) rfl none
      · rw [Registry.create_of_absent hfind] at hcreate
        cases hcreate
        rfl
      · rw [name?, Registry.find?_create hcreate]
        split <;> rfl
    · rw [hanswers]
      exact .same s none
    · obtain ⟨text, packet, -, hnext⟩ := hanswers
      rw [hnext]
      exact .keeps rfl rfl (fun _ => rfl) rfl none

theorem collect_turns (kept : s.Kept) (peer : Address) :
    s.Turns (s.collected · (.collect peer)) (s.collect peer).1 (s.collect peer).2 := by
  unfold collect
  split
  · rename_i result hworker
    have hregistered : (s.name? peer).isSome := by
      rw [kept.name?_isSome, worker?, hworker]
      rfl
    obtain ⟨active, hfind⟩ : ∃ active, s.rendezvous.registry.find? peer = some active := by
      rw [name?, Option.isSome_map] at hregistered
      exact Option.isSome_iff_exists.1 hregistered
    unfold Rendezvous.finish
    rw [hfind]
    have hrunning : s.name? peer = some active.filename := by rw [name?, hfind]; rfl
    refine .reports hrunning (Registry.peers_remove _ _) ?_ (fun q => ?_)
      (congrArg some (outcome_eq peer active result)) fun q => ?_
    · rw [List.filter_map]
      rfl
    · simp only [name?, Registry.find?_remove]
      split <;> rfl
    · simp only [Service.collected, worker?, hworker]
  · exact .same s fun q => by simp only [Service.collected, worker?]

theorem step_turns (st : Storage σ κ) (settings : Transfer.Settings) (kept : s.Kept)
    (stimulus : Stimulus) :
    s.Turns (s.collected · stimulus) (s.step st settings stimulus).1
      (s.step st settings stimulus).2 := by
  cases stimulus with
  | datagram source bytes endpoint => exact datagram_turns s source bytes endpoint fun _ => rfl
  | arrival peer a =>
    simp only [step]
    split
    · exact .same s fun _ => rfl
    · exact setWorker_turns s peer _ (fun _ => rfl) _
  | verdict peer v =>
    simp only [step]
    split
    · exact .same s fun _ => rfl
    · exact setWorker_turns s peer _ (fun _ => rfl) _
  | collect peer => exact collect_turns kept peer

variable {s' : Service σ κ} {response : Response}

theorem Turns.kept (kept : s.Kept) (h : s.Turns collected s' response) : s'.Kept := by
  cases h with
  | keeps peers workers => exact ⟨by rw [peers, workers, kept.registered], workers ▸ kept.distinct⟩
  | @starts peer name s' response fresh peers workers =>
    refine ⟨by rw [peers, workers, kept.registered], ?_⟩
    rw [workers, List.nodup_cons]
    refine ⟨fun hmem => ?_, kept.distinct⟩
    have hworker : (s.worker? peer).isSome := (isSome_lookup _ _).2 hmem
    rw [← kept.name?_isSome, fresh] at hworker
    cases hworker
  | reports running peers workers =>
    refine ⟨by rw [peers, workers, kept.registered], ?_⟩
    rw [workers]
    exact kept.distinct.filter _

def underWay (s : Service σ κ) (peer : Address) : List Event :=
  (s.name? peer).toList.map (.started peer)

/-- What a peer is told later goes on from what it is told now. -/
theorem Turns.laps {q : Address} {running : Option String} {results : List (Except Failure Summary)}
    {events : List Event} (h : s.Turns collected s' response)
    (later : Laps q running results (s'.underWay q ++ events)) :
    Laps q running (collected q ++ results)
      (s.underWay q ++ (eventsOf q [response] ++ events)) := by
  unfold underWay at later ⊢
  cases h with
  | keeps peers workers names untold none =>
    rw [names] at later
    rw [none]
    simpa [eventsOf, untold] using later
  | @starts peer name s' response fresh peers workers names told none =>
    rw [names] at later
    rw [none]
    by_cases hq : q = peer
    · subst hq
      simpa [eventsOf, told, fresh, Event.peer] using later
    · simpa [eventsOf, told, hq, Event.peer, Ne.symm hq] using later
  | @reports peer name result s' response running peers workers names told one =>
    rw [names] at later
    rw [one]
    by_cases hq : q = peer
    · subst hq
      rw [if_pos rfl] at later
      simpa [eventsOf, told, running, peer_outcome] using later.lap name result
    · simpa [eventsOf, told, hq, peer_outcome, Ne.symm hq] using later

end Service

end TftpUpload.Server
