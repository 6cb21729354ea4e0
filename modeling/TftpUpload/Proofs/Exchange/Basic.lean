/-
  TftpUpload/Proofs/Exchange/Basic.lean
  =====================================
  **An upload, the reception it opens, and all that can happen between them.**

  The two sides are joined by two media.  A step is a packet that one side gives
  to its medium, a wait that ends on one side, or a loss; which step comes next,
  what a wait brings and whether a packet can be sent is left open, and so are
  the sizes of the reads, the faults of the source and the answers of the
  storage.  `Reaches` is then every run.  Two observers are carried along that no
  step looks at: the anomalies so far, and which packets the upload has sent.
-/
import Mathlib.Logic.Relation
import TftpUpload.Proofs.Exchange.Medium
import TftpUpload.Proofs.Receiver.Reception
import TftpUpload.Proofs.Sender.Upload
import TftpUpload.Simulation.Link
import TftpUpload.Storage.Memory

namespace TftpUpload

open Wire Transfer Storage Simulation

structure Exchange.Setup (σ κ : Type) where
  ends : Link.Ends σ κ
  filename : String
  source : Source
  size : Option Nat
  store : σ

/-- The two sides, and what is under way between them.  The storage is recorded. -/
structure Exchange (σ κ γ : Type) where
  caller : Upload.Status
  callee : Callee (σ × List Call) κ
  /-- From the upload to the reception. -/
  out : γ
  back : γ
  /-- Silent intervals on both sides, and copies that nobody sent. -/
  anomalies : Nat
  /-- The numbers of the packets that the upload has sent, the request being number 0. -/
  sent : List Nat

def Upload.Status.sends? : Upload.Status → Option Nat
  | sending _ _ u => some u.out
  | _ => none

/-- The summary of a reception that can only end well. -/
def Reception.Status.concluded? {κ : Type} : Reception.Status κ → Option Summary
  | lingering _ summary => some summary
  | repeating _ _ summary => some summary
  | ended (.ok summary) => some summary
  | _ => none

namespace Exchange

variable {σ κ γ : Type}

/-! ### Steps

Each step names the side that moves.  A side that waits may meet anything that its medium brings,
silence included, so no clock is needed. -/

def start (medium : Medium γ) (setup : Setup σ κ) : Exchange σ κ γ where
  caller := Upload.start setup.filename setup.source setup.size setup.ends.caller
  callee := .idle (setup.store, [])
  out := medium.empty
  back := medium.empty
  anomalies := 0
  sent := []

/-- One thing that happens. -/
inductive Step (medium : Medium γ) (ends : Link.Ends σ κ) :
    Exchange σ κ γ → Exchange σ κ γ → Prop where
  /-- The upload sends a packet, or fails to. -/
  | callerSends {x : Exchange σ κ γ} {datagram : Bytes} (v : Verdict)
      (demand : x.caller.demand = .send datagram) :
    Step medium ends x
      { x with
        caller := (x.caller.settle v).1
        out := medium.given v datagram x.out
        sent := x.sent ++ x.caller.sends?.toList }
  /-- A wait of the upload ends. -/
  | callerMeets {x : Exchange σ κ γ} {a : Arrival} {cost : Nat} {back : γ}
      (demand : x.caller.demand = .arrival) (brings : medium.Brings x.back a cost back) :
    Step medium ends x
      { x with
        caller := (x.caller.arrive a).1
        back := back
        anomalies := x.anomalies + cost }
  /-- A datagram opens the reception. -/
  | calleeOpens {x : Exchange σ κ γ} {store : σ × List Call} {datagram : Bytes} {extra : Nat}
      {out : γ} (idle : x.callee = .idle store)
      (yields : medium.Yields x.out datagram extra out) :
    Step medium ends x
      { x with
        callee := .active (Reception.start ends.storage.recorded true datagram ends.callee store)
        out := out
        anomalies := x.anomalies + extra }
  /-- The reception sends a packet, or fails to. -/
  | calleeSends {x : Exchange σ κ γ} {state : Reception.State (σ × List Call) κ}
      {datagram : Bytes} (v : Verdict) (active : x.callee = .active state)
      (demand : state.1.demand = .send datagram) :
    Step medium ends x
      { x with
        callee := .active (Reception.Status.settle ends.storage.recorded state v).1
        back := medium.given v datagram x.back }
  /-- A wait of the reception ends. -/
  | calleeMeets {x : Exchange σ κ γ} {state : Reception.State (σ × List Call) κ} {a : Arrival}
      {cost : Nat} {out : γ} (active : x.callee = .active state)
      (demand : state.1.demand = .arrival) (brings : medium.Brings x.out a cost out) :
    Step medium ends x
      { x with
        callee := .active (Reception.Status.arrive ends.storage.recorded state a).1
        out := out
        anomalies := x.anomalies + cost }
  | outLoses {x : Exchange σ κ γ} {out : γ} (loses : medium.Loses x.out out) :
    Step medium ends x { x with out }
  | backLoses {x : Exchange σ κ γ} {back : γ} (loses : medium.Loses x.back back) :
    Step medium ends x { x with back }

abbrev Reaches (medium : Medium γ) (ends : Link.Ends σ κ) :
    Exchange σ κ γ → Exchange σ κ γ → Prop :=
  Relation.ReflTransGen (Step medium ends)

def oneByte : Setup Memory String where
  ends := { storage := Memory.storage {}, caller := {}, callee := {} }
  filename := "a"
  source := .ofBytes [7]
  size := some 1
  store := {}

/-! ### What can be seen

Nobody outside of an exchange sees more of it than the results of its sides and the calls of the
storage. -/

def calls (x : Exchange σ κ γ) : List Call :=
  match x.callee with
  | .idle store => store.2
  | .active state => state.2.2

def session? (x : Exchange σ κ γ) : Option (Session κ) :=
  match x.callee with
  | .idle _ => none
  | .active state => state.1.session?

def concluded? (x : Exchange σ κ γ) : Option Summary :=
  match x.callee with
  | .idle _ => none
  | .active state => state.1.concluded?

def callerResult (x : Exchange σ κ γ) : Option (Except Failure Summary) :=
  match x.caller with
  | .ended result => some result
  | _ => none

def calleeResult (x : Exchange σ κ γ) : Option (Except Failure Summary) :=
  match x.callee with
  | .active (.ended result, _) => some result
  | _ => none

/-- The session has written and flushed its last block. -/
def Complete (x : Exchange σ κ γ) : Prop :=
  ∃ session last, x.session? = some session ∧ session.phase = .complete last

/-- The upload ends, or is about to end, because its source could not be read. -/
def ReadFailed (x : Exchange σ κ γ) : Prop :=
  ∃ fault, x.caller = .ended (.error (.storage fault)) ∨
    ∃ datagram, x.caller = .parting datagram (.storage fault)

end Exchange

/-! ### What lasts -/

namespace Reception

variable {σ κ : Type} {summary : Summary}

theorem concluded?_arrive (st : Storage σ κ) {state : State σ κ}
    (h : state.1.concluded? = some summary) (a : Arrival) :
    (Status.arrive st state a).1.1.concluded? = some summary := by
  obtain ⟨status, store⟩ := state
  cases status with
  | lingering session summary' =>
    cases h
    simp only [Status.arrive]
    unfold linger
    split
    · split
      · split <;> rfl
      · rfl
    · rfl
  | waiting r => cases h
  | replying packet r => cases h
  | completing packet session => cases h
  | repeating packet session summary' => exact h
  | parting packet failure created => cases h
  | ended result => exact h

theorem concluded?_settle (st : Storage σ κ) {state : State σ κ}
    (h : state.1.concluded? = some summary) (v : Verdict) :
    (Status.settle st state v).1.1.concluded? = some summary := by
  obtain ⟨status, store⟩ := state
  cases status with
  | repeating packet session summary' => cases v <;> exact h
  | waiting r => cases h
  | replying packet r => cases h
  | completing packet session => cases h
  | lingering session summary' => exact h
  | parting packet failure created => cases h
  | ended result => exact h

/-- A reception sends the acknowledgement of its last block, or an ERROR; it acknowledges the last
block of all only when it can no longer fail. -/
theorem Stands.sends {violated : Prop} {name : String} {blocks : List Bytes} (st : Storage σ κ)
    {state : State (σ × List Call) κ} (h : Stands violated name blocks state) {datagram : Bytes}
    (demand : state.1.demand = .send datagram) :
    (packet (.ack (number blocks.length)) = .ok datagram ∧
      (Finished blocks → (Status.settle st.recorded state (.ok ())).1.1.concluded? =
        some ⟨name, blocks.length, blocks.flatten.length⟩)) ∨
    IsError datagram := by
  cases h with
  | replying carries session written =>
    cases demand
    exact .inl ⟨carries, fun finished => absurd session.full finished.not_full⟩
  | completing carries session filed =>
    cases demand
    refine .inl ⟨carries, ?_⟩
    intro _
    simp only [Status.settle, session.summary_eq, Status.concluded?]
  | repeating carries session filed =>
    cases demand
    exact .inl ⟨carries, fun _ => rfl⟩
  | parting farewell lawful touched =>
    cases demand
    exact .inr (isError_of_farewell farewell)
  | waiting session written => cases demand
  | lingering session filed => cases demand
  | succeeded finished filed => cases demand
  | failed lawful touched => cases demand

theorem Refused.sends {violated : Prop} {state : State (σ × List Call) κ}
    (h : Refused violated state) {datagram : Bytes} (demand : state.1.demand = .send datagram) :
    IsError datagram := by
  cases h with
  | parting farewell lawful rejected =>
    cases demand
    exact isError_of_farewell farewell
  | ended lawful rejected => cases demand

end Reception

namespace Exchange

variable {σ κ γ : Type} {medium : Medium γ} {ends : Link.Ends σ κ} {x x' : Exchange σ κ γ}

theorem Step.concluded? {summary : Summary} (h : Step medium ends x x')
    (hx : x.concluded? = some summary) : x'.concluded? = some summary := by
  cases h with
  | callerSends v demand => exact hx
  | callerMeets demand brings => exact hx
  | calleeOpens idle yields => simp [Exchange.concluded?, idle] at hx
  | calleeSends v active demand =>
    simp only [Exchange.concluded?, active] at hx
    exact Reception.concluded?_settle _ hx v
  | calleeMeets active demand brings =>
    simp only [Exchange.concluded?, active] at hx
    exact Reception.concluded?_arrive _ hx _
  | outLoses loses => exact hx
  | backLoses loses => exact hx

theorem Reaches.concluded? {summary : Summary} (h : Reaches medium ends x x')
    (hx : x.concluded? = some summary) : x'.concluded? = some summary := by
  induction h with
  | refl => exact hx
  | tail _ hstep ih => exact hstep.concluded? ih

theorem Step.readFailed (h : Step medium ends x x') (hx : x.ReadFailed) : x'.ReadFailed := by
  obtain ⟨fault, hcaller⟩ := hx
  cases h with
  | callerSends v demand =>
    rcases hcaller with hended | ⟨datagram, hparting⟩
    · rw [hended] at demand
      cases demand
    · refine ⟨fault, .inl ?_⟩
      simp only [hparting, Upload.Status.settle]
  | callerMeets demand brings =>
    rcases hcaller with hended | ⟨datagram, hparting⟩
    · rw [hended] at demand
      cases demand
    · rw [hparting] at demand
      cases demand
  | calleeOpens idle yields => exact ⟨fault, hcaller⟩
  | calleeSends v active demand => exact ⟨fault, hcaller⟩
  | calleeMeets active demand brings => exact ⟨fault, hcaller⟩
  | outLoses loses => exact ⟨fault, hcaller⟩
  | backLoses loses => exact ⟨fault, hcaller⟩

theorem Reaches.readFailed (h : Reaches medium ends x x') (hx : x.ReadFailed) : x'.ReadFailed := by
  induction h with
  | refl => exact hx
  | tail _ hstep ih => exact hstep.readFailed ih

end Exchange

end TftpUpload
