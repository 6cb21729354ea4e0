/-
  TftpUpload/Proofs/Shutdown.lean
  ===============================
  **Shutdown takes effect at the next wait.**

  Both sides of a transfer are prompt (`Upload.machine_prompt`,
  `Reception.machine_prompt`), so from the signal on they send at most the packet
  that they were about to send, make one wait, and come to an end after it.  What
  that end is depends on where a side stood.  An upload, and a reception whose file
  is not complete, is cancelled and tells its peer, and the file is removed; a
  reception that is done ends well, says nothing, and leaves the file alone
  (`shutdown_takes_effect_at_next_wait`).  No datagram and no silence makes a
  difference to this, and neither does a channel on which nobody can signal.
-/
import TftpUpload.Proofs.Receiver.AllOrNothing
import TftpUpload.Proofs.Receiver.Silence
import TftpUpload.Proofs.Transfer.Shutdown
import TftpUpload.Sender.Upload

namespace TftpUpload

open Wire Transfer Storage Simulation

/-! ### Uploads

An upload looks for shutdown whenever it waits, and waits after each packet. -/

namespace Upload

variable {s₁ s₂ : Status} {since : List Input} {sent : List Bytes}

theorem arrive_stopped (u : Upload) : u.arrive .stopped = .parting notice .cancelled := by
  simp only [arrive, Arrival.read, fail, farewell_cancelled]

theorem machine_prompt : machine.Prompt where
  once s packet v demand := by
    cases s with
    | sending => cases v <;> rfl
    | parting => rfl
    | waiting | ended => cases demand
  stops s s' inputs sent demand leaves := by
    cases s with
    | waiting u =>
      simp only [machine, Status.arrive, arrive_stopped] at leaves
      cases leaves <;> rintro ⟨⟩
    | sending | parting | ended => cases demand

/-- What becomes of an upload that stands at `s₁` when shutdown has been signalled: what it has been
told since, where it stands, and what it has sent since. -/
structure Cancels (s₁ : Status) (since : List Input) (s₂ : Status) (sent : List Bytes) : Prop where
  /-- It makes one wait more at most. -/
  deaf : Deaf since
  /-- At that wait it is cancelled, and the last that it sends is the notice of that. -/
  cancelled : waits since = [.stopped] →
    (s₂ = .parting notice .cancelled ∧ sent = s₁.demand.packet?.toList) ∨
    (s₂ = .ended (.error .cancelled) ∧ sent = s₁.demand.packet?.toList ++ [notice])
  /-- If it ends without that wait, then it had ended or failed before, or its packet is refused. -/
  otherwise : ∀ result, s₂ = .ended result → waits since = [] →
    s₁ = .ended result ∨
    (∃ packet failure, s₁ = .parting packet failure ∧ result = .error failure) ∨
    ∃ fault, since = [.verdict (.error fault)] ∧ result = .error (.transport fault)

theorem cancels_of_reaches (h : machine.Reaches s₁ since s₂ sent) :
    Cancels s₁ since s₂ sent where
  deaf := (Machine.Winds.unheard h).deaf
  cancelled heard := by
    rw [h.waits_eq] at heard
    cases heard
  otherwise result ended _ := by
    cases h with
    | here => exact .inl ended
    | sent v demand =>
      cases s₁ with
      | waiting | ended => cases demand
      | parting packet failure =>
        cases ended
        exact .inr (.inl ⟨packet, failure, rfl, rfl⟩)
      | sending packet report u =>
        cases v with
        | ok _ => cases ended
        | error fault =>
          cases ended
          exact .inr (.inr ⟨fault, rfl, rfl⟩)

/-- An upload that winds up has been cancelled, if it has come to a wait. -/
theorem cancels_of_winds (h : machine.Winds s₁ since s₂ sent) : Cancels s₁ since s₂ sent := by
  cases h with
  | unheard reaches => exact cancels_of_reaches reaches
  | @heard before after w _ sent more reaches demand leaves =>
    have hwaits := reaches.waits_heard leaves
    have hsent : sent = s₁.demand.packet?.toList := reaches.sent_eq demand
    refine ⟨(Machine.Winds.heard reaches demand leaves).deaf, fun _ => ?_, ?_⟩
    · cases w with
      | sending | parting | ended => cases demand
      | waiting u =>
        rw [hsent]
        simp only [machine, Status.arrive, arrive_stopped] at leaves
        cases leaves with
        | here => exact .inl ⟨rfl, List.append_nil _⟩
        | sent v demand' =>
          cases demand'
          exact .inr ⟨rfl, rfl⟩
    · intro result _ hnone
      rw [hwaits] at hnone
      cases hnone

end Upload

/-! ### Receptions

A reception that is done keeps its summary, whatever becomes of it. -/

namespace Reception

variable {σ κ : Type}

def Status.done? : Status κ → Option Summary
  | completing _ session => some session.summary
  | lingering _ summary => some summary
  | repeating _ _ summary => some summary
  | _ => none

section Prompt

variable {st : Storage σ κ} {s₁ w : State σ κ} {since : List Input} {sent : List Bytes}

theorem arrive_stopped (st : Storage σ κ) (r : Reception κ) (store : σ) :
    r.arrive st .stopped store =
      ((.parting notice .cancelled r.session.filename, store), none) := by
  simp only [arrive, Arrival.read, fail, farewell_cancelled]

theorem machine_prompt (st : Storage σ κ) : (machine st).Prompt where
  once state packet v demand := by
    obtain ⟨status, store⟩ := state
    cases status with
    | replying | completing =>
      cases v with
      | ok _ => rfl
      | error fault => simp [machine, Status.settle, Status.demand]
    | repeating => cases v <;> rfl
    | parting => simp [machine, Status.settle, abandon_ended, Status.demand]
    | waiting | lingering | ended => cases demand
  stops state state' inputs sent demand leaves := by
    obtain ⟨status, store⟩ := state
    cases status with
    | waiting r =>
      simp only [machine, Status.arrive, arrive_stopped] at leaves
      cases leaves with
      | here => rintro ⟨⟩
      | sent v demand' => simp [machine, Status.settle, abandon_ended, Status.demand]
    | lingering session summary =>
      cases leaves with
      | here => rintro ⟨⟩
      | sent v demand' => cases demand'
    | replying | completing | repeating | parting | ended => cases demand

/-- On the way to a wait a reception leaves its storage alone; which wait it is, is decided
already. -/
theorem wait_of_reaches (h : (machine st).Reaches s₁ since w sent)
    (demand : w.1.demand = .arrival) :
    w.2 = s₁.2 ∧
      ((∃ r, w.1 = .waiting r ∧ s₁.1.session? = some r.session ∧ s₁.1.done? = none) ∨
        ∃ session summary, w.1 = .lingering session summary ∧ s₁.1.done? = some summary) := by
  obtain ⟨status, store⟩ := s₁
  cases h with
  | here =>
    cases status with
    | waiting r => exact ⟨rfl, .inl ⟨r, rfl, rfl, rfl⟩⟩
    | lingering session summary => exact ⟨rfl, .inr ⟨session, summary, rfl, rfl⟩⟩
    | replying | completing | repeating | parting | ended => cases demand
  | sent v hsend =>
    cases status with
    | replying _ r =>
      cases v with
      | ok _ => exact ⟨rfl, .inl ⟨r, rfl, rfl, rfl⟩⟩
      | error fault => simp [machine, Status.settle, Status.demand] at demand
    | completing _ session =>
      cases v with
      | ok _ => exact ⟨rfl, .inr ⟨session, session.summary, rfl, rfl⟩⟩
      | error fault => simp [machine, Status.settle, Status.demand] at demand
    | repeating _ session summary =>
      cases v with
      | ok _ => exact ⟨rfl, .inr ⟨session, summary, rfl, rfl⟩⟩
      | error fault => cases demand
    | parting _ failure created =>
      simp [machine, Status.settle, abandon_ended, Status.demand] at demand
    | waiting | lingering | ended => cases hsend

end Prompt

section Cancels

variable {st : Storage σ κ} {s₁ s₂ : State (σ × List Call) κ} {since : List Input}
  {sent : List Bytes}

/-- What becomes of a reception that stands at `s₁` when shutdown has been signalled: what it has
been told since, where it stands, and what it has sent since. -/
structure Cancels (st : Storage σ κ) (s₁ : State (σ × List Call) κ) (since : List Input)
    (s₂ : State (σ × List Call) κ) (sent : List Bytes) : Prop where
  /-- It makes one wait more at most. -/
  deaf : Deaf since
  /-- If its file is not complete by then, it is cancelled at that wait: the last that it sends is
  the notice of that, and the file that it had created is removed. -/
  cancelled : waits since = [.stopped] → s₁.1.done? = none →
    ∃ name, .create name true ∈ s₁.2.2 ∧
      ((s₂ = (.parting notice .cancelled (some name), s₁.2) ∧
          sent = s₁.1.demand.packet?.toList) ∨
        (s₂ = (.ended (.error .cancelled), (st.recorded.discard name s₁.2).2) ∧
          sent = s₁.1.demand.packet?.toList ++ [notice]))
  /-- If its file is complete, it ends well at that wait, says nothing, and keeps the file. -/
  kept : ∀ summary, waits since = [.stopped] → s₁.1.done? = some summary →
    s₂ = (.ended (.ok summary), s₁.2) ∧ sent = s₁.1.demand.packet?.toList
  /-- If it ends without that wait, then it had ended or failed before, or its packet is refused,
  which is no failure if that is its last acknowledgement once more. -/
  otherwise : ∀ result, s₂.1 = .ended result → waits since = [] →
    s₁.1 = .ended result ∨
    (∃ packet failure created, s₁.1 = .parting packet failure created ∧
      result = .error failure) ∨
    ∃ fault, since = [.verdict (.error fault)] ∧
      (result = .error (.transport fault) ∨
        ∃ packet session summary, s₁.1 = .repeating packet session summary ∧
          result = .ok summary ∧ s₂.2 = s₁.2)

/-- A reception that has a session has created the file that this names. -/
theorem created_of_session (st : Storage σ κ) (connected : Bool) (request : Bytes)
    (settings : Settings) (initial : σ) {inputs : List Input} {status : Status κ} {store : σ}
    {calls : List Call} {log : Log} {s : Session κ}
    (h : (machine st.recorded).History
      (start st.recorded connected request settings (initial, [])) inputs (status, store, calls)
      log)
    (hs : status.session? = some s) :
    ∃ name, s.filename = some name ∧ .create name true ∈ calls := by
  rcases history_stands st connected request settings initial h with
    ⟨name, mode, hrequest, hstands⟩ | hrefused
  · refine ⟨name, ?_, hstands.created⟩
    rcases (hstands.session hs).1 with hreceives | hcompleted
    · exact hreceives.filename
    · exact hcompleted.filename
  · cases hrefused <;> cases hs

theorem cancels_of_reaches (h : (machine st.recorded).Reaches s₁ since s₂ sent) :
    Cancels st s₁ since s₂ sent where
  deaf := (Machine.Winds.unheard h).deaf
  cancelled heard := by
    rw [h.waits_eq] at heard
    cases heard
  kept _ heard := by
    rw [h.waits_eq] at heard
    cases heard
  otherwise result ended _ := by
    obtain ⟨status, store⟩ := s₁
    cases h with
    | here => exact .inl ended
    | sent v demand =>
      cases status with
      | replying | completing =>
        cases v with
        | ok _ => cases ended
        | error fault =>
          simp only [machine, Status.settle, fail_transport] at ended
          cases ended
          exact .inr (.inr ⟨fault, rfl, .inl rfl⟩)
      | repeating packet session summary =>
        cases v with
        | ok _ => cases ended
        | error fault =>
          cases ended
          exact .inr (.inr ⟨fault, rfl, .inr ⟨packet, session, summary, rfl, rfl, rfl⟩⟩)
      | parting packet failure created =>
        simp only [machine, Status.settle, abandon_ended] at ended
        cases ended
        exact .inr (.inl ⟨packet, failure, created, rfl, rfl⟩)
      | waiting | lingering | ended => cases demand

/-- A reception that winds up has been cancelled, if it has come to a wait and its file is not
complete. -/
theorem cancels_of_winds
    (created : ∀ s, s₁.1.session? = some s →
      ∃ name, s.filename = some name ∧ .create name true ∈ s₁.2.2)
    (h : (machine st.recorded).Winds s₁ since s₂ sent) : Cancels st s₁ since s₂ sent := by
  cases h with
  | unheard reaches => exact cancels_of_reaches reaches
  | @heard before after w _ sent more reaches demand leaves =>
    have hwaits := reaches.waits_heard leaves
    have hdeaf := (Machine.Winds.heard reaches demand leaves).deaf
    obtain rfl : sent = s₁.1.demand.packet?.toList := reaches.sent_eq demand
    obtain ⟨hstore, hwait⟩ := wait_of_reaches reaches demand
    obtain ⟨status, store⟩ := w
    dsimp only at hstore hwait
    subst hstore
    refine ⟨hdeaf, ?_, ?_, ?_⟩
    · intro _ hopen
      rcases hwait with ⟨r, rfl, hsession, -⟩ | ⟨session, summary, -, hdone⟩
      · obtain ⟨name, hname, hcreated⟩ := created r.session hsession
        refine ⟨name, hcreated, ?_⟩
        simp only [machine, Status.arrive, arrive_stopped, hname] at leaves
        cases leaves with
        | here => exact .inl ⟨rfl, List.append_nil _⟩
        | sent v demand' =>
          cases demand'
          exact .inr ⟨rfl, rfl⟩
      · rw [hopen] at hdone
        cases hdone
    · intro summary _ hdone
      rcases hwait with ⟨r, -, -, hopen⟩ | ⟨session, summary', rfl, hdone'⟩
      · rw [hopen] at hdone
        cases hdone
      · rw [hdone'] at hdone
        cases hdone
        cases leaves with
        | here => exact ⟨rfl, List.append_nil _⟩
        | sent v demand' => cases demand'
    · intro result _ hnone
      rw [hwaits] at hnone
      cases hnone

end Cancels

end Reception

/-! ### Both sides -/

/-- From the moment at which shutdown is signalled, a side of a transfer hears nothing but that, at
its next wait, and comes to an end.  If somebody who has not signalled disappears, then no machine
does anything else than it would have done.  Runs over scripts are such runs: only a signal stops
them, and they have a result unless all their steps have been made. -/
theorem shutdown_takes_effect_at_next_wait (first : Watch) (earlier later : List Event) :
    (first.afterAll earlier = .signalled →
      (∀ (filename : String) (source : Source) (size : Option Nat) (settings : Settings)
        (s₁ s₂ : Upload.Status) (log₁ log₂ : Log),
        Upload.machine.History (Upload.start filename source size settings) (heed first earlier)
          s₁ log₁ →
        Upload.machine.History (Upload.start filename source size settings)
          (heed first (earlier ++ later)) s₂ log₂ →
        ∃ sent, log₂.sent.toList = log₁.sent.toList ++ sent ∧
          Upload.Cancels s₁ (heed .signalled later) s₂ sent) ∧
      ∀ (σ κ : Type) (st : Storage σ κ) (connected : Bool) (request : Bytes) (settings : Settings)
        (initial : σ) (s₁ s₂ : Reception.State (σ × List Call) κ) (log₁ log₂ : Log),
        (Reception.machine st.recorded).History
          (Reception.start st.recorded connected request settings (initial, []))
          (heed first earlier) s₁ log₁ →
        (Reception.machine st.recorded).History
          (Reception.start st.recorded connected request settings (initial, []))
          (heed first (earlier ++ later)) s₂ log₂ →
        ∃ sent, log₂.sent.toList = log₁.sent.toList ++ sent ∧
          Reception.Cancels st s₁ (heed .signalled later) s₂ sent) ∧
    (.signal ∉ later → ∀ (σ : Type) (m : Machine σ) (start s : σ) (log : Log),
      m.History start (heed first (earlier ++ .desertion :: later)) s log ↔
        m.History start (heed first (earlier ++ later)) s log) ∧
    ∀ (σ : Type) (m : Machine σ) (timeout fuel : Nat) (start s : σ) (script script' : Script)
      (log : Log) (result : Option (Except Failure Summary)),
      m.run Script.endpoint timeout fuel start script {} = (s, script', log, result) →
      ∃ events, m.History start (heed script.watch events) s log ∧
        script.watch.afterAll events = script'.watch ∧
        (∀ a, .arrival a ∈ events → a ≠ .stopped) ∧
        ((∃ r, result = some r ∧ m.demand s = .nothing r) ∨
          (heed script.watch events).length = fuel) := by
  refine ⟨fun signalled => ⟨?_, ?_⟩, ?_, ?_⟩
  · intro filename source size settings s₁ s₂ log₁ log₂ h₁ h₂
    obtain ⟨sent, hsent, hwinds⟩ := h₁.winds_of_signalled Upload.machine_prompt signalled h₂
    exact ⟨sent, hsent, Upload.cancels_of_winds hwinds⟩
  · intro σ κ st connected request settings initial s₁ s₂ log₁ log₂ h₁ h₂
    obtain ⟨sent, hsent, hwinds⟩ :=
      h₁.winds_of_signalled (Reception.machine_prompt st.recorded) signalled h₂
    obtain ⟨status, store, calls⟩ := s₁
    refine ⟨sent, hsent, Reception.cancels_of_winds (fun s hs => ?_) hwinds⟩
    exact Reception.created_of_session st connected request settings initial h₁ hs
  · intro unsignalled σ m start s log
    rw [heed_desertion first earlier unsignalled]
  · intro σ m timeout fuel start s script script' log result h
    exact Script.run_heeds m timeout fuel h

def Reception.opened : Reception.State (Memory × List Call) String :=
  (.waiting ⟨⟨.receiving 0, some "a", some "a", 0, 0, 0⟩, 0, 8⟩, Memory.put {} { name := "a" },
    [.create "a" true])

def Reception.written : Reception.State (Memory × List Call) String :=
  (.completing [0, 4, 0, 1] ⟨.complete 1, none, some "a", 1, 1, 1⟩,
    Memory.put {} ⟨"a", Content.empty.append [7]⟩, [.create "a" true, .write [7], .flush true])

set_option maxRecDepth 20000 in
/-- A reception of one byte is stopped: before the byte is there the file is removed, although the
byte has come, and after that it is kept, although the byte comes again.  An upload that is stopped
does not see that it has been answered. -/
theorem three_transfers_are_stopped :
    (∃ sent, [[0, 2, 97, 0, 111, 0], notice] = [] ++ sent ∧
      Upload.Cancels (Upload.start "a" (Source.ofBytes []) none { mode := "o" })
        (heed .signalled
          [.verdict (.ok ()), .arrival (.datagram [0, 4, 0, 0]), .verdict (.ok ())])
        (.ended (.error .cancelled)) sent) ∧
    (∃ sent, [[0, 4, 0, 0], notice] = [[0, 4, 0, 0]] ++ sent ∧
      Reception.Cancels (Memory.storage {}) Reception.opened
        (heed .signalled [.arrival (.datagram [0, 3, 0, 1, 7]), .verdict (.ok ())])
        (.ended (.error .cancelled), ⟨[], ["a"]⟩, [.create "a" true, .discard "a"]) sent) ∧
    (∃ sent, [[0, 4, 0, 0], [0, 4, 0, 1]] = [[0, 4, 0, 0]] ++ sent ∧
      Reception.Cancels (Memory.storage {}) Reception.written
        (heed .signalled [.verdict (.ok ()), .arrival (.datagram [0, 3, 0, 1, 7])])
        (.ended (.ok ⟨"a", 1, 1⟩), Reception.written.2) sent) ∧
    (∃ events, Upload.machine.History
        (Upload.start "a" (Source.ofBytes []) none { mode := "o" }) (heed .quiet events)
        (.ended (.error .cancelled)) ⟨#[[0, 2, 97, 0, 111, 0], notice], #[]⟩ ∧
      Watch.quiet.afterAll events = .signalled ∧ ∀ a, .arrival a ∈ events → a ≠ .stopped) ∧
    Upload.machine.History (Upload.start "a" (Source.ofBytes []) none { mode := "o" })
      (heed .quiet ([] ++ .desertion :: []))
      (Upload.start "a" (Source.ofBytes []) none { mode := "o" }) {} := by
  have hcancelled : Upload.machine.History
      (Upload.start "a" (Source.ofBytes []) none { mode := "o" })
      (heed .quiet
        [.signal, .verdict (.ok ()), .arrival (.datagram [0, 4, 0, 0]), .verdict (.ok ())])
      (.ended (.error .cancelled)) ⟨#[[0, 2, 97, 0, 111, 0], notice], #[]⟩ :=
    .verdict (.ok ()) (.arrival .stopped (.verdict (.ok ()) .start rfl) rfl) rfl
  have hopened : (Reception.machine (Memory.storage {}).recorded).History
      (Reception.start (Memory.storage {}).recorded true [0, 2, 97, 0, 111, 0] {} ({}, []))
      (heed .quiet [.verdict (.ok ()), .signal]) Reception.opened ⟨#[[0, 4, 0, 0]], #[]⟩ :=
    .verdict (.ok ()) .start rfl
  have hremoved := (hopened.arrival .stopped rfl).verdict (.ok ()) rfl
  have hwritten : (Reception.machine (Memory.storage {}).recorded).History
      (Reception.start (Memory.storage {}).recorded true [0, 2, 97, 0, 111, 0] {} ({}, []))
      (heed .quiet [.verdict (.ok ()), .arrival (.datagram [0, 3, 0, 1, 7]), .signal])
      Reception.written ⟨#[[0, 4, 0, 0]], #[]⟩ :=
    .arrival (.datagram [0, 3, 0, 1, 7]) (.verdict (.ok ()) .start rfl) rfl
  have hkept := (hwritten.verdict (.ok ()) rfl).arrival .stopped rfl
  refine ⟨?_, ?_, ?_, ?_, ?_⟩
  · exact ((shutdown_takes_effect_at_next_wait .quiet [.signal]
      [.verdict (.ok ()), .arrival (.datagram [0, 4, 0, 0]), .verdict (.ok ())]).1 rfl).1
        _ _ _ _ _ _ _ _ .start hcancelled
  · exact ((shutdown_takes_effect_at_next_wait .quiet [.verdict (.ok ()), .signal]
      [.arrival (.datagram [0, 3, 0, 1, 7]), .verdict (.ok ())]).1 rfl).2
        _ _ _ _ _ _ _ _ _ _ _ hopened hremoved
  · exact ((shutdown_takes_effect_at_next_wait .quiet
      [.verdict (.ok ()), .arrival (.datagram [0, 3, 0, 1, 7]), .signal]
      [.verdict (.ok ()), .arrival (.datagram [0, 3, 0, 1, 7])]).1 rfl).2
        _ _ _ _ _ _ _ _ _ _ _ hwritten hkept
  · obtain ⟨events, hhistory, hwatch, honly, -⟩ :=
      (shutdown_takes_effect_at_next_wait .quiet [] []).2.2 _ Upload.machine 1000 4
        (Upload.start "a" (Source.ofBytes []) none { mode := "o" }) _
        ⟨[.stop], false, false, 0, []⟩ ⟨[], true, false, 2, []⟩ _ _ rfl
    exact ⟨events, hhistory, hwatch, honly⟩
  · exact ((shutdown_takes_effect_at_next_wait .quiet [] []).2.1 nofun _ _ _ _ _).2 .start

end TftpUpload
