/-
  TftpUpload/Proofs/Exchange/Simulated.lean
  =========================================
  **What the simulated link does can happen on any network.**

  A simulated link loses, doubles and holds back the datagrams that its plans
  name, and its clocks decide which side times out.  Each of its steps is one
  over a bag (`Depicts.step`), so what holds of every run over a bag holds of
  every simulated one (`run_reaches`).  An exchange records the calls of its
  storage and a link does not, but the reception does not notice
  (`TftpUpload.Proofs.Receiver.Mirror`).
-/
import TftpUpload.Proofs.Exchange.Basic
import TftpUpload.Proofs.Receiver.Mirror

namespace TftpUpload

open Wire Transfer Storage Simulation

namespace Simulation

variable {σ τ κ : Type}

def Direction.pending (d : Direction) : List Bytes := d.queue ++ d.held.toList

/-- A direction brings what it was given, and nothing else. -/
theorem Direction.mem_pending_carry {d : Direction} {datagram packet : Bytes}
    (h : packet ∈ (d.carry datagram).pending) : packet = datagram ∨ packet ∈ d.pending := by
  unfold carry at h
  dsimp only at h
  split at h
  · exact .inr h
  · split at h
    · simp only [pending, Option.toList_some, List.mem_append, List.mem_singleton] at h
      rcases h with hqueue | hheld
      · exact .inr (List.mem_append_left _ hqueue)
      · exact .inl hheld
    · simp only [pending, Option.toList_none, List.append_nil, List.mem_append, or_assoc] at h ⊢
      rcases h with hqueue | hcopy | hheld
      · exact .inr (.inl hqueue)
      · split at hcopy <;> simp_all
      · exact .inr (.inr hheld)

theorem Direction.pending_carry {d : Direction} {datagram : Bytes} {pool : List Bytes}
    (h : d.pending ⊆ pool) : (d.carry datagram).pending ⊆ datagram :: pool := by
  intro packet hpacket
  rcases mem_pending_carry hpacket with rfl | hpending
  · exact List.mem_cons_self
  · exact List.mem_cons_of_mem _ (h hpending)

theorem Direction.mem_pending {d : Direction} {datagram : Bytes} {rest : List Bytes}
    (h : d.queue = datagram :: rest) : datagram ∈ d.pending := by
  simp [pending, h]

theorem Direction.pending_rest {d : Direction} {datagram : Bytes} {rest : List Bytes}
    (h : d.queue = datagram :: rest) : { d with queue := rest }.pending ⊆ d.pending := by
  intro packet hpacket
  simp only [pending, h, List.cons_append] at hpacket ⊢
  exact List.mem_cons_of_mem _ hpacket

def Callee.bare : Callee (σ × τ) κ → Callee σ κ
  | idle store => .idle store.1
  | active state => .active (Prod.map id Prod.fst state)

end Simulation

namespace Exchange

variable {σ κ : Type} {ends : Link.Ends σ κ} {x : Exchange σ κ (List Bytes)} {l l' : Link σ κ}

/-- The sides are the same, and what can still arrive over the link can come out of the bags. -/
structure Depicts (x : Exchange σ κ (List Bytes)) (l : Link σ κ) : Prop where
  caller : x.caller = l.caller
  callee : x.callee.bare = l.callee
  out : l.out.pending ⊆ x.out
  back : l.back.pending ⊆ x.back

theorem Depicts.idle (h : x.Depicts l) {store : σ} (idle : l.callee = .idle store) :
    ∃ calls, x.callee = .idle (store, calls) := by
  have hcallee := h.callee
  rw [idle] at hcallee
  cases hx : x.callee with
  | idle store' =>
    rw [hx] at hcallee
    cases hcallee
    exact ⟨store'.2, rfl⟩
  | active state =>
    rw [hx] at hcallee
    cases hcallee

theorem Depicts.active (h : x.Depicts l) {state : Reception.State σ κ}
    (active : l.callee = .active state) :
    ∃ calls, x.callee = .active (state.1, state.2, calls) := by
  have hcallee := h.callee
  rw [active] at hcallee
  cases hx : x.callee with
  | idle store =>
    rw [hx] at hcallee
    cases hcallee
  | active state' =>
    rw [hx] at hcallee
    cases hcallee
    exact ⟨state'.2.2, rfl⟩

theorem Depicts.callerArrives (h : x.Depicts l) {a : Arrival} {cost : Nat}
    (demand : l.caller.demand = .arrival) (brings : bag.Brings x.back a cost x.back)
    (back : Direction) (hback : back.pending ⊆ x.back) :
    ∃ x', Step bag ends x x' ∧ x'.Depicts (Link.callerArrive ends { l with back } a) := by
  rw [← h.caller] at demand
  refine ⟨_, .callerMeets demand brings, ?_⟩
  exact {
    caller := by rw [h.caller]; rfl
    callee := h.callee
    out := h.out
    back := hback }

theorem Depicts.calleeArrives (h : x.Depicts l) {state : Reception.State σ κ} {a : Arrival}
    {cost : Nat} (active : l.callee = .active state) (demand : state.1.demand = .arrival)
    (brings : bag.Brings x.out a cost x.out) (out : Direction) (hout : out.pending ⊆ x.out) :
    ∃ x', Step bag ends x x' ∧ x'.Depicts (Link.calleeArrive ends { l with out } state a) := by
  obtain ⟨calls, hcallee⟩ := h.active active
  have hmirror := Reception.mirrors_arrive (recorded_mirrors ends.storage)
    (state.1, state.2, calls) a
  refine ⟨_, .calleeMeets hcallee demand brings, ?_⟩
  exact {
    caller := h.caller
    callee := congrArg (fun next : Reception.State σ κ × Option Progress =>
      Callee.active next.1) hmirror
    out := hout
    back := h.back }

theorem Depicts.callerMoves (h : x.Depicts l) (hl : l.callerMove? ends = some l') :
    ∃ x', Step bag ends x x' ∧ x'.Depicts l' := by
  unfold Link.callerMove? at hl
  split at hl
  · cases hl
  · rename_i packet demand
    cases hl
    rw [← h.caller] at demand
    refine ⟨_, .callerSends (.ok ()) demand, ?_⟩
    exact {
      caller := by rw [h.caller]; rfl
      callee := h.callee
      out := Direction.pending_carry h.out
      back := h.back }
  · rename_i demand
    split at hl
    · cases hl
    · rename_i datagram rest hqueue
      cases hl
      exact h.callerArrives demand
        (.datagram ⟨h.back (Direction.mem_pending hqueue), rfl, rfl⟩) _
        (List.Subset.trans (Direction.pending_rest hqueue) h.back)

theorem Depicts.calleeMoves (h : x.Depicts l) (hl : l.calleeMove? ends = some l') :
    ∃ x', Step bag ends x x' ∧ x'.Depicts l' := by
  unfold Link.calleeMove? at hl
  split at hl
  · rename_i store idle
    split at hl
    · cases hl
    · rename_i datagram rest hqueue
      cases hl
      obtain ⟨calls, hcallee⟩ := h.idle idle
      have hmirror := Reception.mirrors_start (recorded_mirrors ends.storage) true datagram
        ends.callee (store, calls)
      refine ⟨_, .calleeOpens hcallee ⟨h.out (Direction.mem_pending hqueue), rfl, rfl⟩, ?_⟩
      exact {
        caller := h.caller
        callee := congrArg Callee.active hmirror
        out := List.Subset.trans (Direction.pending_rest hqueue) h.out
        back := h.back }
  · rename_i state active
    split at hl
    · cases hl
    · rename_i packet demand
      cases hl
      obtain ⟨calls, hcallee⟩ := h.active active
      have hmirror := Reception.mirrors_settle (recorded_mirrors ends.storage)
        (state.1, state.2, calls) (.ok ())
      refine ⟨_, .calleeSends (.ok ()) hcallee demand, ?_⟩
      exact {
        caller := h.caller
        callee := congrArg (fun next : Reception.State σ κ × Option Progress =>
          Callee.active next.1) hmirror
        out := h.out
        back := Direction.pending_carry h.back }
    · rename_i demand
      split at hl
      · cases hl
      · rename_i datagram rest hqueue
        cases hl
        exact h.calleeArrives active demand
          (.datagram ⟨h.out (Direction.mem_pending hqueue), rfl, rfl⟩) _
          (List.Subset.trans (Direction.pending_rest hqueue) h.out)

theorem Depicts.timesOut (h : x.Depicts l) (hl : l.timeout? ends = some l') :
    ∃ x', Step bag ends x x' ∧ x'.Depicts l' := by
  have hcaller : l.callerWaits = true → ∃ x', Step bag ends x x' ∧
      x'.Depicts (l.callerArrive ends .silence) := by
    intro hwaits
    unfold Link.callerWaits at hwaits
    split at hwaits
    · rename_i demand
      exact h.callerArrives demand .silence l.back h.back
    · cases hwaits
  have hcallee : ∀ state, l.calleeWaiting? = some state → ∃ x', Step bag ends x x' ∧
      x'.Depicts (l.calleeArrive ends state .silence) := by
    intro state hwaits
    unfold Link.calleeWaiting? at hwaits
    split at hwaits
    · cases hwaits
    · rename_i state' active
      split at hwaits
      · rename_i demand
        cases hwaits
        exact h.calleeArrives active demand .silence l.out h.out
      · cases hwaits
  unfold Link.timeout? at hl
  split at hl
  · cases hl
  · rename_i hwaits _
    cases hl
    exact hcaller hwaits
  · rename_i state _ hwaits
    cases hl
    exact hcallee state hwaits
  · rename_i state hwaits hwaits'
    split at hl
    · cases hl
      obtain ⟨x', hstep, hdepicts⟩ := hcaller hwaits
      exact ⟨x', hstep, ⟨hdepicts.caller, hdepicts.callee, hdepicts.out, hdepicts.back⟩⟩
    · cases hl
      obtain ⟨x', hstep, hdepicts⟩ := hcallee state hwaits'
      exact ⟨x', hstep, ⟨hdepicts.caller, hdepicts.callee, hdepicts.out, hdepicts.back⟩⟩

/-- Whatever the link does next is a step over a bag. -/
theorem Depicts.step (h : x.Depicts l) (hl : l.step? ends = some l') :
    ∃ x', Step bag ends x x' ∧ x'.Depicts l' := by
  unfold Link.step? at hl
  split at hl
  · rename_i hmove
    cases hl
    exact h.callerMoves hmove
  · split at hl
    · rename_i hmove
      cases hl
      exact h.calleeMoves hmove
    · exact h.timesOut hl

theorem Depicts.run (h : x.Depicts l) (fuel : Nat) :
    ∃ x', Reaches bag ends x x' ∧ x'.Depicts (l.run ends fuel) := by
  induction fuel generalizing x l with
  | zero => exact ⟨x, .refl, h⟩
  | succ fuel ih =>
    unfold Link.run
    split
    · rename_i l' hl
      obtain ⟨x', hstep, hdepicts⟩ := h.step hl
      obtain ⟨x'', hrun, hend⟩ := ih hdepicts
      exact ⟨x'', .head hstep hrun, hend⟩
    · exact ⟨x, .refl, h⟩

theorem depicts_start (setup : Setup σ κ) (out back : Disturbance) :
    (start bag setup).Depicts (Link.start setup.ends
      (Upload.start setup.filename setup.source setup.size setup.ends.caller) setup.store
      out back) where
  caller := rfl
  callee := rfl
  out := List.nil_subset _
  back := List.nil_subset _

/-- Every run of a simulated link is a run over a bag. -/
theorem run_reaches (setup : Setup σ κ) (out back : Disturbance) (fuel : Nat) :
    ∃ x, Reaches bag setup.ends (start bag setup) x ∧
      x.Depicts (Link.run setup.ends fuel (Link.start setup.ends
        (Upload.start setup.filename setup.source setup.size setup.ends.caller) setup.store
        out back)) :=
  (depicts_start setup out back).run fuel

end Exchange

end TftpUpload
