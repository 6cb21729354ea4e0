/-
  TftpUpload/Receiver/Reception.lean
  ==================================
  **Receiving one file.**

  A reception drives a `Session` over an endpoint.  After each packet that it
  takes it waits again; each silent interval but the last that is allowed makes
  it repeat its acknowledgement.  Once the file is complete and acknowledged it
  lingers for one interval of silence, so that a lost last acknowledgement can
  be repeated; whatever happens then, the file stays.  A failure before that
  point is told to the peer, if there is something to tell, and the file that
  was created is removed.
-/
import TftpUpload.Receiver.Session

namespace TftpUpload

open Wire Transfer

/-- A reception that has answered a packet. -/
structure Reception (κ : Type) where
  session : Session κ
  /-- Silent intervals since the last packet. -/
  silent : Nat
  maxRetries : Nat
deriving DecidableEq, Repr

namespace Reception

variable {σ κ : Type}

inductive Status (κ : Type) where
  | waiting (r : Reception κ)
  | replying (packet : Bytes) (r : Reception κ)
  | completing (packet : Bytes) (session : Session κ)
  /-- Is done, and waits for repetitions of the last block. -/
  | lingering (session : Session κ) (summary : Summary)
  /-- Sends the last acknowledgement again. -/
  | repeating (packet : Bytes) (session : Session κ) (summary : Summary)
  /-- Tells the peer why the reception ends. -/
  | parting (packet : Bytes) (failure : Failure) (created : Option String)
  | ended (result : Except Failure Summary)

abbrev State (σ κ : Type) := Status κ × σ

/-- Removes the file that was created, and ends. -/
def abandon (st : Storage σ κ) (failure : Failure) (created : Option String) (store : σ) :
    State σ κ :=
  match created with
  | some name => (.ended (.error failure), (st.discard name store).2)
  | none => (.ended (.error failure), store)

@[simp]
theorem abandon_ended (st : Storage σ κ) (failure : Failure) (created : Option String)
    (store : σ) : (abandon st failure created store).1 = .ended (.error failure) := by
  cases created <;> rfl

def fail (st : Storage σ κ) (failure : Failure) (session : Session κ) (store : σ) : State σ κ :=
  match failure.farewell with
  | some packet => (.parting packet failure session.filename, store)
  | none => abandon st failure session.filename store

def answer (st : Storage σ κ) (maxRetries : Nat) (session : Session κ) (step : Session.Step)
    (store : σ) : State σ κ :=
  match step with
  | .reply m =>
    match packet m with
    | .ok datagram => (.replying datagram ⟨session, 0, maxRetries⟩, store)
    | .error e => fail st (.encode e) session store
  | .complete m =>
    match packet m with
    | .ok datagram => (.completing datagram session, store)
    | .error e => fail st (.encode e) session store

/-- Feeds a packet to the session and answers it.  A block that was written, but not the last,
is reported. -/
def feed (st : Storage σ κ) (maxRetries : Nat) (session : Session κ) (m : Message) (store : σ) :
    State σ κ × Option Progress :=
  match session.step st m store with
  | (session', .error failure, store') => (fail st failure session' store', none)
  | (session', .ok step, store') =>
    let report :=
      match step with
      | .reply _ => if session'.blocks = session.blocks then none else some ⟨session'.lastAcked, 0⟩
      | .complete _ => none
    (answer st maxRetries session' step store', report)

/-- The reception that a datagram opens.  Without a peer there is nobody to answer. -/
def start (st : Storage σ κ) (connected : Bool) (request : Bytes) (settings : Settings)
    (store : σ) : State σ κ :=
  if connected then
    match decode request with
    | .ok m => (feed st settings.maxRetries {} m store).1
    | .error e => fail st (.decode e) {} store
  else
    (.ended (.error (.transport .notConnected)), store)

def silence (st : Storage σ κ) (r : Reception κ) (store : σ) : State σ κ :=
  let silent := r.silent + 1
  if r.maxRetries ≤ silent then fail st (.timeout silent) r.session store
  else
    match packet r.session.repetition with
    | .ok datagram => (.replying datagram { r with silent }, store)
    | .error e => fail st (.encode e) r.session store

def arrive (st : Storage σ κ) (r : Reception κ) (a : Arrival) (store : σ) :
    State σ κ × Option Progress :=
  match a.read with
  | .message m => feed st r.maxRetries r.session m store
  | .silence => (silence st r store, none)
  | .failure failure => (fail st failure r.session store, none)

/-- Takes what a wait has brought after the file is complete. -/
def linger (st : Storage σ κ) (session : Session κ) (summary : Summary) (a : Arrival) (store : σ) :
    State σ κ :=
  match a.read with
  | .message m =>
    match session.step st m store with
    | (session', .ok (.reply m), store') =>
      match packet m with
      | .ok datagram => (.repeating datagram session' summary, store')
      | .error _ => (.ended (.ok summary), store')
    | (_, _, store') => (.ended (.ok summary), store')
  | _ => (.ended (.ok summary), store)

namespace Status

def demand : Status κ → Demand
  | waiting _ => .arrival
  | lingering _ _ => .arrival
  | replying packet _ => .send packet
  | completing packet _ => .send packet
  | repeating packet _ _ => .send packet
  | parting packet _ _ => .send packet
  | ended result => .nothing result

def arrive (st : Storage σ κ) : State σ κ → Arrival → State σ κ × Option Progress
  | (waiting r, store), a => r.arrive st a store
  | (lingering session summary, store), a => (linger st session summary a store, none)
  | state, _ => (state, none)

def settle (st : Storage σ κ) : State σ κ → Verdict → State σ κ × Option Progress
  | (replying _ r, store), .ok () => ((waiting r, store), none)
  | (replying _ r, store), .error fault => (fail st (.transport fault) r.session store, none)
  | (completing _ session, store), .ok () =>
    ((lingering session session.summary, store), some ⟨session.lastAcked, session.lastAcked⟩)
  | (completing _ session, store), .error fault =>
    (fail st (.transport fault) session store, none)
  | (repeating _ session summary, store), .ok () => ((lingering session summary, store), none)
  | (repeating _ _ summary, store), .error _ => ((ended (.ok summary), store), none)
  | (parting _ failure created, store), _ => (abandon st failure created store, none)
  | state, _ => (state, none)

end Status

def machine (st : Storage σ κ) : Machine (State σ κ) :=
  ⟨fun state => state.1.demand, Status.arrive st, Status.settle st⟩

end Reception

end TftpUpload
