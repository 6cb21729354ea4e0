/-
  TftpUpload/Proofs/Transfer/Shutdown.lean
  ========================================
  **How shutdown comes between a side of a transfer and what it waits for.**

  A wait looks for shutdown before it looks for a datagram, and keeps looking while
  it lasts.  So what a side is told is not all that happens around it: `heed` makes
  the one from the other.  Once shutdown is signalled, each wait ends with that,
  whatever has come (`heed_signalled`); whoever is gone cannot signal, so that
  desertion makes no difference (`heed_desertion`).  A script is waited for in this
  way (`Script.run_heeds`).

  From the signal on there is little that a machine can do if it is *prompt*: if it
  sends no more than one packet between two waits, and waits no more when it has
  heard that it is to stop.  `History.winds` lists all of it.
-/
import TftpUpload.Proofs.Transfer.Farewell
import TftpUpload.Proofs.Transfer.Silence
import TftpUpload.Simulation.Script

namespace TftpUpload

open Wire Transfer

namespace Transfer

/-! ### The channel

Nothing is undone on the channel, so all that has happened up to a wait comes down to one of three
states. -/

/-- The channel on which shutdown is signalled, as a side of a transfer sees it. -/
inductive Watch where
  | quiet
  | signalled
  /-- Whoever could signal is gone, and has not signalled. -/
  | deserted
deriving DecidableEq, Repr

/-- What happens around a side of a transfer.  An arrival is what its wait would have ended with
if nobody had signalled. -/
inductive Event where
  | arrival (a : Arrival)
  | verdict (v : Verdict)
  | signal
  | desertion

/-- What is signalled stays signalled, and who is gone does not signal. -/
def Watch.after : Watch → Event → Watch
  | quiet, .signal => signalled
  | quiet, .desertion => deserted
  | watch, _ => watch

def Watch.tell : Watch → Event → Option Input
  | signalled, .arrival _ => some (.arrival .stopped)
  | _, .arrival a => some (.arrival a)
  | _, .verdict v => some (.verdict v)
  | _, .signal => none
  | _, .desertion => none

def Watch.afterAll (watch : Watch) (events : List Event) : Watch := events.foldl after watch

/-- What a side is told of some events, first to last. -/
def heed : Watch → List Event → List Input
  | _, [] => []
  | watch, event :: events => (watch.tell event).toList ++ heed (watch.after event) events

theorem Watch.afterAll_append (watch : Watch) (events more : List Event) :
    watch.afterAll (events ++ more) = (watch.afterAll events).afterAll more :=
  List.foldl_append

theorem heed_append (watch : Watch) (events more : List Event) :
    heed watch (events ++ more) = heed watch events ++ heed (watch.afterAll events) more := by
  induction events generalizing watch with
  | nil => rfl
  | cons event events ih =>
    rw [List.cons_append, heed, heed, ih, List.append_assoc]
    rfl

/-- A verdict is told whatever has been signalled. -/
theorem heed_verdict (watch : Watch) (events : List Event) (v : Verdict) :
    heed watch (events ++ [.verdict v]) = heed watch events ++ [.verdict v] := by
  rw [heed_append]
  cases watch.afterAll events <;> rfl

theorem Watch.afterAll_verdict (watch : Watch) (events : List Event) (v : Verdict) :
    watch.afterAll (events ++ [.verdict v]) = watch.afterAll events := by
  rw [afterAll_append]
  cases watch.afterAll events <;> rfl

/-- Once shutdown is signalled, nothing else is heard. -/
theorem heed_signalled (events : List Event) :
    ∀ a ∈ waits (heed .signalled events), a = .stopped := by
  induction events with
  | nil => nofun
  | cons event events ih =>
    cases event with
    | arrival a =>
      intro b hb
      rcases List.mem_cons.1 hb with rfl | hb
      · rfl
      · exact ih b hb
    | verdict v => exact ih
    | signal => exact ih
    | desertion => exact ih

/-- While nobody signals it does not matter whether anybody could. -/
theorem heed_quiet {events : List Event} (unsignalled : .signal ∉ events) :
    heed .quiet events = heed .deserted events := by
  induction events with
  | nil => rfl
  | cons event events ih =>
    obtain ⟨hne, hrest⟩ := not_or.1 (mt List.mem_cons.2 unsignalled)
    cases event with
    | arrival a => exact congrArg (Input.arrival a :: ·) (ih hrest)
    | verdict v => exact congrArg (Input.verdict v :: ·) (ih hrest)
    | signal => exact absurd rfl hne
    | desertion => rfl

/-- If whoever could signal disappears, then a side is told what it would have been told. -/
theorem heed_desertion (watch : Watch) (before : List Event) {more : List Event}
    (unsignalled : .signal ∉ more) :
    heed watch (before ++ .desertion :: more) = heed watch (before ++ more) := by
  rw [heed_append, heed_append]
  cases watch.afterAll before with
  | quiet => exact congrArg (heed watch before ++ ·) (heed_quiet unsignalled).symm
  | signalled => rfl
  | deserted => rfl

/-! ### Prompt machines

Where a machine stands when shutdown is signalled is not known.  It may be about to send, or to
wait, or have ended, and this is all that is distinguished. -/

section Winds

variable {σ : Type} {m : Machine σ} {s s' w : σ} {inputs before after : List Input}
  {sent more : List Bytes}

/-- What a machine can do without a wait, if it sends one packet at most: the inputs, where they
lead, and what is sent. -/
inductive Machine.Reaches (m : Machine σ) (s : σ) : List Input → σ → List Bytes → Prop where
  | here : Reaches m s [] s []
  | sent {packet : Bytes} (v : Verdict) (demand : m.demand s = .send packet) :
    Reaches m s [.verdict v] (m.settle s v).1 [packet]

/-- The machine sends no two packets without a wait between them, and it waits no more when it has
heard that it is to stop. -/
structure Machine.Prompt (m : Machine σ) : Prop where
  once : ∀ (s : σ) (packet : Bytes) (v : Verdict), m.demand s = .send packet →
    (m.demand (m.settle s v).1).packet? = none
  stops : ∀ (s s' : σ) (inputs : List Input) (sent : List Bytes), m.demand s = .arrival →
    m.Reaches (m.arrive s .stopped).1 inputs s' sent → m.demand s' ≠ .arrival

/-- What a machine does when every wait tells it to stop.  It comes to a wait, if it does, and goes
on from there. -/
inductive Machine.Winds (m : Machine σ) (s : σ) : List Input → σ → List Bytes → Prop where
  | unheard {inputs : List Input} {s' : σ} {sent : List Bytes}
      (reaches : m.Reaches s inputs s' sent) :
    Winds m s inputs s' sent
  | heard {before after : List Input} {w s' : σ} {sent more : List Bytes}
      (reaches : m.Reaches s before w sent) (demand : m.demand w = .arrival)
      (leaves : m.Reaches (m.arrive w .stopped).1 after s' more) :
    Winds m s (before ++ .arrival .stopped :: after) s' (sent ++ more)

theorem Machine.Reaches.waits_eq (h : m.Reaches s inputs s' sent) : waits inputs = [] := by
  cases h <;> rfl

theorem Machine.Reaches.length_le (h : m.Reaches s inputs s' sent) : inputs.length ≤ 1 := by
  cases h <;> simp

/-- What is sent on the way to a wait is the packet that was about to be sent. -/
theorem Machine.Reaches.sent_eq (h : m.Reaches s inputs w sent) (demand : m.demand w = .arrival) :
    sent = (m.demand s).packet?.toList := by
  cases h with
  | here =>
    rw [demand]
    rfl
  | sent v hsend =>
    rw [hsend]
    rfl

/-- A packet is sent only where none has been sent since the last wait. -/
theorem Machine.Reaches.send (prompt : m.Prompt) (h : m.Reaches s inputs s' sent) {packet : Bytes}
    (v : Verdict) (demand : m.demand s' = .send packet) :
    m.Reaches s (inputs ++ [.verdict v]) (m.settle s' v).1 (sent ++ [packet]) := by
  cases h with
  | here => exact .sent v demand
  | @sent earlier v' demand' =>
    have hnone := prompt.once s earlier v' demand'
    rw [demand] at hnone
    cases hnone

theorem Machine.Reaches.waits_heard (h : m.Reaches s before w sent)
    (h' : m.Reaches (m.arrive w .stopped).1 after s' more) :
    waits (before ++ .arrival .stopped :: after) = [.stopped] := by
  have hwaits : waits (before ++ .arrival .stopped :: after) =
      waits before ++ .stopped :: waits after := List.filterMap_append
  rw [hwaits, h.waits_eq, h'.waits_eq]
  rfl

structure Deaf (inputs : List Input) : Prop where
  heard : waits inputs = [] ∨ waits inputs = [.stopped]
  /-- After so many inputs the end has come. -/
  soon : inputs.length ≤ 3

theorem Machine.Winds.deaf (h : m.Winds s inputs s' sent) : Deaf inputs := by
  cases h with
  | unheard reaches => exact ⟨.inl reaches.waits_eq, Nat.le_trans reaches.length_le (by decide)⟩
  | heard reaches demand leaves =>
    have hbefore := reaches.length_le
    have hafter := leaves.length_le
    refine ⟨.inr (reaches.waits_heard leaves), ?_⟩
    simp only [List.length_append, List.length_cons]
    omega

/-- A machine that is prompt winds up when all its waits tell it to stop. -/
theorem Machine.History.winds (prompt : m.Prompt) {log : Log} (h : m.History s inputs s' log)
    (deaf : ∀ a ∈ waits inputs, a = .stopped) : m.Winds s inputs s' log.sent.toList := by
  induction h with
  | start => exact .unheard .here
  | @arrival inputs w log a before demand ih =>
    rw [waits_arrival] at deaf
    obtain rfl := deaf a (by simp)
    have hwinds := ih fun b hb => deaf b (List.mem_append_left _ hb)
    rw [Log.sent_note]
    generalize log.sent.toList = sent at hwinds ⊢
    cases hwinds with
    | unheard reaches => simpa using Winds.heard reaches demand .here
    | heard reaches demand' leaves => exact absurd demand (prompt.stops _ _ _ _ demand' leaves)
  | @verdict inputs w log packet v before demand ih =>
    rw [waits_verdict] at deaf
    have hwinds := ih deaf
    rw [Log.sent_note, Array.toList_push]
    generalize log.sent.toList = sent at hwinds ⊢
    cases hwinds with
    | unheard reaches => exact .unheard (reaches.send prompt v demand)
    | heard reaches demand' leaves =>
      simpa using Winds.heard reaches demand' (leaves.send prompt v demand)

/-- From the signal on, whatever comes, a machine that is prompt winds up. -/
theorem Machine.History.winds_of_signalled (prompt : m.Prompt) {watch : Watch} {start : σ}
    {earlier later : List Event} {log₁ log₂ : Log}
    (signalled : watch.afterAll earlier = .signalled)
    (h₁ : m.History start (heed watch earlier) s log₁)
    (h₂ : m.History start (heed watch (earlier ++ later)) s' log₂) :
    ∃ sent, log₂.sent.toList = log₁.sent.toList ++ sent ∧
      m.Winds s (heed .signalled later) s' sent := by
  rw [heed_append, signalled] at h₂
  obtain ⟨s₁, log, since, hbefore, hsince, rfl⟩ := h₂.split
  obtain ⟨rfl, rfl⟩ := hbefore.unique h₁
  exact ⟨since.sent.toList, by simp [Log.append], hsince.winds prompt (heed_signalled later)⟩

end Winds

/-! ### The last word -/

def notice : Bytes := (Message.error .notDefined "transfer cancelled").form

theorem farewell_cancelled : Failure.cancelled.farewell = some notice :=
  farewell_of_packet rfl (packet_error (by decide))

end Transfer

/-! ### Scripts

A script says when things happen, and what happens up to the end of a wait decides what it
brings. -/

namespace Simulation.Script

def watch (script : Script) : Watch :=
  if script.stopped then .signalled else if script.abandoned then .deserted else .quiet

def due (timeout : Nat) (script : Script) : List Event :=
  match script.items with
  | .datagram bytes :: _ => [.arrival (.datagram bytes)]
  | .delayed milliseconds bytes :: _ =>
    [.arrival (if milliseconds ≤ timeout then .datagram bytes else .silence)]
  | .broken fault :: _ => [.arrival (.broken fault)]
  | .stop :: _ => [.signal, .arrival .silence]
  | .abandon :: _ => [.desertion, .arrival .silence]
  | .silence :: _ => [.arrival .silence]
  | [] => [.arrival .silence]

/-- A script is waited for as a channel demands. -/
theorem wait_heeds (timeout : Nat) (script : Script) :
    heed script.watch (script.due timeout) = [.arrival (script.wait timeout).1] ∧
      script.watch.afterAll (script.due timeout) = (script.wait timeout).2.watch := by
  obtain ⟨items, stopped, abandoned, sends, failing⟩ := script
  cases stopped with
  | true =>
    cases items with
    | nil => exact ⟨rfl, rfl⟩
    | cons item items => cases item <;> exact ⟨rfl, rfl⟩
  | false =>
    cases items with
    | nil => cases abandoned <;> exact ⟨rfl, rfl⟩
    | cons item items =>
      cases item with
      | delayed milliseconds bytes =>
        by_cases hdue : milliseconds ≤ timeout <;> cases abandoned <;>
          simp [watch, due, wait, heed, Watch.tell, Watch.afterAll, Watch.after, hdue]
      | datagram | broken | silence | stop | abandon => cases abandoned <;> exact ⟨rfl, rfl⟩

/-- Only a signal stops a wait on a script. -/
theorem arrival_due {timeout : Nat} {script : Script} {a : Arrival}
    (h : .arrival a ∈ script.due timeout) : a ≠ .stopped := by
  rintro rfl
  unfold due at h
  split at h
  case h_2 =>
    split at h <;> simp at h
  all_goals simp at h

/-- The inputs are what a side has been told up to where the script stands, and nothing but a signal
was to stop it. -/
def Heeded (first : Watch) (inputs : List Input) (script : Script) : Prop :=
  ∃ events, inputs = heed first events ∧ first.afterAll events = script.watch ∧
    ∀ a, .arrival a ∈ events → a ≠ .stopped

section Heeded

variable {first : Watch} {inputs : List Input} {script : Script}

theorem Heeded.wait (h : Heeded first inputs script) (timeout : Nat) :
    Heeded first (inputs ++ [.arrival (script.wait timeout).1]) (script.wait timeout).2 := by
  obtain ⟨events, rfl, hwatch, honly⟩ := h
  obtain ⟨hheed, hafter⟩ := script.wait_heeds timeout
  refine ⟨events ++ script.due timeout, ?_, ?_, fun a ha => ?_⟩
  · rw [heed_append, hwatch, hheed]
  · rw [Watch.afterAll_append, hwatch, hafter]
  · exact (List.mem_append.1 ha).elim (honly a) arrival_due

theorem Heeded.send (h : Heeded first inputs script) (packet : Bytes) :
    Heeded first (inputs ++ [.verdict (script.send packet).1]) (script.send packet).2 := by
  obtain ⟨events, rfl, hwatch, honly⟩ := h
  refine ⟨events ++ [.verdict (script.send packet).1], ?_, ?_, fun a ha => ?_⟩
  · rw [heed_verdict]
  · exact (first.afterAll_verdict events _).trans hwatch
  · exact (List.mem_append.1 ha).elim (honly a) (by simp)

end Heeded

/-- A machine that runs over a script is told what it is told when the script happens around it.
The run has a result, or all its steps have been made. -/
theorem run_heeds {σ : Type} (m : Machine σ) (timeout fuel : Nat) {start s : σ}
    {script script' : Script} {log : Log} {result : Option (Except Failure Summary)}
    (h : m.run endpoint timeout fuel start script {} = (s, script', log, result)) :
    ∃ events, m.History start (heed script.watch events) s log ∧
      script.watch.afterAll events = script'.watch ∧
      (∀ a, .arrival a ∈ events → a ≠ .stopped) ∧
      ((∃ r, result = some r ∧ m.demand s = .nothing r) ∨
        (heed script.watch events).length = fuel) := by
  have hnone : Heeded script.watch [] script := ⟨[], rfl, rfl, nofun⟩
  obtain ⟨inputs, hhistory, ⟨events, rfl, hwatch, honly⟩, hend⟩ :=
    m.run_history endpoint timeout fuel (fun _ t heeded => heeded.wait timeout)
      (fun _ t packet heeded => heeded.send packet) .start hnone h
  exact ⟨events, hhistory, hwatch, honly, hend⟩

end Simulation.Script

end TftpUpload
