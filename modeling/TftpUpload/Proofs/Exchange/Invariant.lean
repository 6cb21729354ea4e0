/-
  TftpUpload/Proofs/Exchange/Invariant.lean
  =========================================
  **What the two sides and the media between them have in common.**

  At any time there are blocks that the upload has sent, and a number of packets
  that the reception has taken; the number is that of the blocks, or one more
  (`Joined`).  Everything under way is one of these packets or the
  acknowledgement of one, with a number in a window that the media keep track
  of.  As long as the windows are narrower than 65536, the word in a packet
  tells its number, so that each step leads from such a state to another
  (`Joined.step`).  An acknowledgement of the last block is under way only when
  the reception can no longer fail.
-/
import TftpUpload.Proofs.Exchange.Basic

namespace TftpUpload.Exchange

open Wire Transfer Storage Simulation

variable {σ κ γ : Type} {violated : Prop} {filename : String} {source : Source}
  {settings : Settings} {blocks : List Bytes} {i j k n : Nat}

/-! ### Packets and their numbers

The numbers of packets are those of the proof.  A packet itself carries a word. -/

/-- The datagram is the packet number `j` of the upload, or an ERROR. -/
def Outbound (filename : String) (settings : Settings) (blocks : List Bytes) (j : Nat)
    (datagram : Bytes) : Prop :=
  Upload.Carries filename settings blocks j datagram ∨ IsError datagram

/-- The datagram acknowledges one of `n` packets, the one with number `j`, or is an ERROR.  The
last block is acknowledged only by a reception that has concluded. -/
def Inbound (filename : String) (concluded : Option Summary) (blocks : List Bytes) (n j : Nat)
    (datagram : Bytes) : Prop :=
  (j < n ∧ packet (.ack (number j)) = .ok datagram ∧
    (Finished (blocks.take j) →
      concluded = some ⟨filename, blocks.length, blocks.flatten.length⟩)) ∨
  IsError datagram

theorem Outbound.append {d : Bytes} (h : Outbound filename settings blocks j d)
    (hj : j ≤ blocks.length) (more : List Bytes) :
    Outbound filename settings (blocks ++ more) j d := by
  rcases h with ⟨m, hm, hpacket⟩ | herror
  · exact .inl ⟨m, (Upload.packetAt_append blocks more hj).trans hm, hpacket⟩
  · exact .inr herror

theorem Inbound.concat {d : Bytes} {concluded : Option Summary}
    (h : Inbound filename concluded blocks n j d) (full : Full blocks) (hj : j ≤ blocks.length)
    (chunk : Bytes) : Inbound filename concluded (blocks ++ [chunk]) n j d := by
  rcases h with ⟨hn, hpacket, -⟩ | herror
  · refine .inl ⟨hn, hpacket, ?_⟩
    intro hfinished
    rw [List.take_append_of_le_length hj] at hfinished
    exact absurd (full.take j) hfinished.not_full
  · exact .inr herror

theorem Inbound.mono {d : Bytes} {concluded concluded' : Option Summary} {n' : Nat}
    (h : Inbound filename concluded blocks n j d) (hn : n ≤ n')
    (hconcluded : ∀ summary, concluded = some summary → concluded' = some summary) :
    Inbound filename concluded' blocks n' j d := by
  rcases h with ⟨hj, hpacket, hlast⟩ | herror
  · exact .inl ⟨Nat.lt_of_lt_of_le hj hn, hpacket, fun hfinished => hconcluded _ (hlast hfinished)⟩
  · exact .inr herror

theorem Outbound.read_eq {d : Bytes} (h : Outbound filename settings blocks j d) :
    (∃ m, (Arrival.datagram d).read = .message m ∧
      Upload.packetAt filename settings blocks j = some m) ∨
    ∃ code text, (Arrival.datagram d).read = .message (.error code text) := by
  rcases h with ⟨m, hm, hpacket⟩ | ⟨code, text, hpacket⟩
  · exact .inl ⟨m, read_packet hpacket, hm⟩
  · exact .inr ⟨code, text, read_packet hpacket⟩

/-! ### What the reception makes of a packet

Of the numbers in the window one is due, and a packet with any other has been taken already. -/

/-- The packet that follows the first `k` blocks brings the next of them. -/
theorem heard_due {a : Arrival} {m : Message} (full : Full (blocks.take k))
    (hk : k < blocks.length) (hm : Upload.packetAt filename settings blocks (k + 1) = some m)
    (hread : a.read = .message m) :
    heard (blocks.take k) a = blocks.take (k + 1) ∧
      Session.Expected (blocks.take k) m := by
  have hlength : (blocks.take k).length = k := List.length_take_of_le (Nat.le_of_lt hk)
  simp only [Upload.packetAt, List.getElem?_eq_getElem hk, Option.map_some] at hm
  cases hm
  constructor
  · have hnext := full.extend_next blocks[k]
    rw [hlength] at hnext
    simp only [heard, hread, hnext, List.take_append_getElem]
  · exact .inr (.inl ⟨_, by rw [hlength]⟩)

/-- Any other packet brings nothing, if its number is not mistaken. -/
theorem heard_other {a : Arrival} {m : Message} (orderly : Orderly blocks) (hk : k ≤ blocks.length)
    (hm : m.number? = some (number j)) (hread : a.read = .message m)
    (apart : Full (blocks.take k) → number j ≠ number (k + 1)) :
    heard (blocks.take k) a = blocks.take k := by
  have hlength : (blocks.take k).length = k := List.length_take_of_le hk
  simp only [heard, hread]
  by_cases hfull : Full (blocks.take k)
  · apply extend_of_ne
    intro payload heq
    rw [hlength] at heq
    subst heq
    exact apart hfull (Option.some.inj hm).symm
  · refine Finished.extend_eq ?_ m
    rcases Nat.lt_or_eq_of_le hk with hlt | rfl
    · exact absurd (orderly.full_take hlt) hfull
    · rw [List.take_length] at hfull ⊢
      exact orderly.resolve_left hfull

theorem expected_again {m : Message} (hk : k ≤ blocks.length)
    (hm : Upload.packetAt filename settings blocks k = some m) :
    Session.Expected (blocks.take k) m := by
  have hlength : (blocks.take k).length = k := List.length_take_of_le hk
  refine .inl ?_
  cases k with
  | zero =>
    cases hm
    rfl
  | succ k =>
    obtain ⟨payload, -, rfl⟩ := Option.map_eq_some_iff.1 hm
    simp only [Session.Repeats, hlength]

/-! ### The invariant -/

/-- The reception has taken `n` packets: none, or the request and then blocks. -/
inductive Taken (violated : Prop) (filename : String) (blocks : List Bytes) :
    Nat → Callee (σ × List Call) κ → Prop where
  | idle {store : σ} : Taken violated filename blocks 0 (.idle (store, []))
  | refused {state : Reception.State (σ × List Call) κ}
      (refused : Reception.Refused violated state) :
    Taken violated filename blocks 0 (.active state)
  | active {k : Nat} {state : Reception.State (σ × List Call) κ} (taken : k ≤ blocks.length)
      (stands : Reception.Stands violated filename (blocks.take k) state) :
    Taken violated filename blocks (k + 1) (.active state)

theorem Taken.append {callee : Callee (σ × List Call) κ}
    (h : Taken violated filename blocks n callee) (more : List Bytes) :
    Taken violated filename (blocks ++ more) n callee := by
  cases h with
  | idle => exact .idle
  | refused refused => exact .refused refused
  | active taken stands =>
    refine .active ?_ ?_
    · rw [List.length_append]
      omega
    · rwa [List.take_append_of_le_length taken]

variable {medium : Medium γ} {tracks : Tracks medium} {setup : Setup σ κ} {x x' : Exchange σ κ γ}

/-- The upload has sent `blocks`, and the reception has taken `n` packets. -/
structure Joined (violated : Prop) (tracks : Tracks medium) (setup : Setup σ κ)
    (blocks : List Bytes) (n : Nat) (x : Exchange σ κ γ) : Prop where
  reads : ∃ rest, setup.source.Reads blocks rest
  orderly : Orderly blocks
  caller : Upload.Stands setup.filename setup.source setup.ends.caller blocks x.caller
  callee : Taken violated setup.filename blocks n x.callee
  behind : blocks.length ≤ n
  ahead : n ≤ blocks.length + 1
  out : tracks.Holds (Outbound setup.filename setup.ends.caller blocks) (tracks.floor (n - 1))
    blocks.length x.out
  back : tracks.Holds (Inbound setup.filename x.concluded? blocks n)
    (tracks.floor (blocks.length - 1)) (n - 1) x.back
  agreed : ∀ summary, x.caller = .ended (.ok summary) → x.concluded? = some summary

theorem Joined.active (h : Joined violated tracks setup blocks n x)
    {state : Reception.State (σ × List Call) κ} (active : x.callee = .active state) :
    Reception.Refused violated state ∨
      ∃ k ≤ blocks.length, Reception.Stands violated setup.filename (blocks.take k) state := by
  have hcallee := h.callee
  rw [active] at hcallee
  cases hcallee with
  | refused refused => exact .inl refused
  | active taken stands => exact .inr ⟨_, taken, stands⟩

/-- The windows are narrow enough for words to tell the packets in them apart.  A medium that
delivers packets out of order makes the reception see violations. -/
structure Narrow (violated : Prop) (tracks : Tracks medium) (setup : Setup σ κ) : Prop where
  within : ∀ k ≤ setup.source.rest.length / blockSize + 1, k < tracks.floor (k - 1) + 65536
  ordered : violated ∨ ∀ k, tracks.floor k = k

/-- Words tell up to 65535 blocks and the request apart. -/
theorem narrow_bag {setup : Setup σ κ}
    (bound : setup.source.rest.length / blockSize + 1 ≤ 65535) :
    Narrow True bagTracks setup where
  within k hk := by
    simp only [bagTracks]
    omega
  ordered := .inl trivial

/-- The window of a channel has no more than two numbers in it. -/
theorem narrow_fifo (setup : Setup σ κ) : Narrow False fifoTracks setup where
  within k _ := by
    simp only [fifoTracks]
    omega
  ordered := .inr fun _ => rfl

theorem Joined.length_le (h : Joined violated tracks setup blocks n x) :
    blocks.length ≤ setup.source.rest.length / blockSize + 1 := by
  obtain ⟨rest, hreads⟩ := h.reads
  exact hreads.length_le h.orderly

theorem joined_start (medium : Medium γ) (tracks : Tracks medium) (setup : Setup σ κ) :
    Joined violated tracks setup [] 0 (start medium setup) := by
  have hcaller := Upload.start_stands setup.filename setup.source setup.size setup.ends.caller
  have hopen := Upload.start_ne_ok setup.filename setup.source setup.size setup.ends.caller
  unfold start
  -- Otherwise the request is encoded over and over when the fields are compared.
  generalize Upload.start setup.filename setup.source setup.size setup.ends.caller = status at *
  exact {
    reads := ⟨_, .none⟩
    orderly := .inl full_nil
    caller := hcaller
    callee := .idle
    behind := Nat.le_refl 0
    ahead := Nat.zero_le 1
    out := tracks.empty _ _ _
    back := tracks.empty _ _ _
    agreed := fun summary hended => absurd hended (hopen summary) }

/-! ### Steps of the upload -/

theorem Joined.callerSends (h : Joined violated tracks setup blocks n x) {datagram : Bytes}
    (v : Verdict) (demand : x.caller.demand = .send datagram) :
    Joined violated tracks setup blocks n
      { x with
        caller := (x.caller.settle v).1
        out := medium.given v datagram x.out
        sent := x.sent ++ x.caller.sends?.toList } where
  reads := h.reads
  orderly := h.orderly
  caller := Upload.settle_stands h.caller v
  callee := h.callee
  behind := h.behind
  ahead := h.ahead
  out := by
    cases v with
    | ok _ =>
      have hfloor := tracks.floor_le (n - 1)
      have hahead := h.ahead
      exact tracks.carry h.out (by omega) (h.caller.carries demand)
    | error fault => exact h.out
  back := h.back
  agreed summary hended := absurd hended (Upload.settle_ne_ok demand v summary)

theorem Joined.brought_back (h : Joined violated tracks setup blocks n x) {a : Arrival}
    {cost : Nat} {back : γ} (brings : medium.Brings x.back a cost back) :
    (∀ m, a.read = .message m → (∃ n, m = .ack n) ∨ ∃ code text, m = .error code text) ∧
    (∀ failure, a.read = .failure failure → failure.isViolation = false) := by
  cases brings with
  | datagram yields =>
    obtain ⟨j, -, -, htag, -⟩ := tracks.yield h.back yields
    rcases htag with ⟨-, hpacket, -⟩ | ⟨code, text, hpacket⟩
    · rw [read_packet hpacket]
      exact ⟨fun m hm => .inl ⟨_, by cases hm; rfl⟩, nofun⟩
    · rw [read_packet hpacket]
      exact ⟨fun m hm => .inr ⟨code, text, by cases hm; rfl⟩, nofun⟩
  | silence => exact ⟨nofun, fun _ hread => not_violation_of_read hread nofun⟩
  | broken fault => exact ⟨nofun, fun _ hread => not_violation_of_read hread nofun⟩
  | stopped => exact ⟨nofun, fun _ hread => not_violation_of_read hread nofun⟩

theorem Joined.back_left (h : Joined violated tracks setup blocks n x) {a : Arrival}
    {cost : Nat} {back : γ} (brings : medium.Brings x.back a cost back) :
    tracks.Holds (Inbound setup.filename x.concluded? blocks n)
      (tracks.floor (blocks.length - 1)) (n - 1) back := by
  cases brings with
  | datagram yields =>
    obtain ⟨j, hlow, -, -, hback⟩ := tracks.yield h.back yields
    exact hback _ hlow
  | silence => exact h.back
  | broken fault => exact h.back
  | stopped => exact h.back

/-- An acknowledgement of the packet that the upload waits on is one: the reception has taken that
packet, and has concluded if it was the last. -/
theorem Joined.acknowledged (narrow : Narrow violated tracks setup)
    (h : Joined violated tracks setup blocks n x) {a : Arrival} {cost : Nat} {back : γ}
    (brings : medium.Brings x.back a cost back)
    (acked : a.read = .message (.ack (number blocks.length))) :
    n = blocks.length + 1 ∧
    (Finished blocks →
      x.concluded? = some ⟨setup.filename, blocks.length, blocks.flatten.length⟩) ∧
    tracks.Holds (Inbound setup.filename x.concluded? blocks n) (tracks.floor blocks.length)
      (n - 1) back := by
  cases brings with
  | datagram yields =>
    obtain ⟨j, hlow, hhigh, htag, hback⟩ := tracks.yield h.back yields
    rcases htag with ⟨hj, hpacket, hlast⟩ | ⟨code, text, hpacket⟩
    · have hnumber : number j = number blocks.length := by
        rw [read_packet hpacket, Incoming.message.injEq, Message.ack.injEq] at acked
        exact acked
      have hwithin := narrow.within _ h.length_le
      have hfloor := tracks.floor_le (blocks.length - 1)
      have hahead := h.ahead
      -- The acknowledgement could be that of a packet 65536 earlier, were the window not narrow.
      have heq : j = blocks.length :=
        number_inj _ hlow (by omega) (by omega) (by omega) hnumber
      subst heq
      rw [List.take_length] at hlast
      exact ⟨by omega, hlast, hback _ (tracks.floor_le _)⟩
    · rw [read_packet hpacket] at acked
      cases acked
  | silence => cases acked
  | broken fault => cases acked
  | stopped => cases acked

theorem Joined.waits (h : Joined violated tracks setup blocks n x)
    (demand : x.caller.demand = .arrival) :
    ∃ u, x.caller = .waiting u ∧
      u.Awaits setup.filename setup.source setup.ends.caller blocks := by
  have hcaller := h.caller
  revert hcaller demand
  cases x.caller with
  | waiting u =>
    rintro - ⟨awaits⟩
    exact ⟨u, rfl, awaits⟩
  | _ => nofun

theorem Joined.callerMeets (narrow : Narrow violated tracks setup)
    (h : Joined violated tracks setup blocks n x) {a : Arrival} {cost : Nat} {back : γ}
    (demand : x.caller.demand = .arrival) (brings : medium.Brings x.back a cost back) :
    ∃ more, Joined violated tracks setup (blocks ++ more) n
      { x with
        caller := (x.caller.arrive a).1
        back := back
        anomalies := x.anomalies + cost } := by
  obtain ⟨u, hu, awaits⟩ := h.waits demand
  obtain ⟨message, lawful⟩ := h.brought_back brings
  have hstatus : (x.caller.arrive a).1 = u.arrive a := by rw [hu]; rfl
  rw [hstatus]
  rcases (Upload.arrive_reacts awaits a).outcome awaits message lawful with
    ⟨acked, full, chunk, datagram, report, u', hsent, carries, next⟩ | ⟨acked, finished, hdone⟩ |
    ⟨hstands, hopen⟩
  · obtain ⟨hn, -, hback⟩ := h.acknowledged narrow brings acked
    rw [hsent]
    refine ⟨[chunk], ?_⟩
    exact {
      reads := ⟨_, next.reads⟩
      orderly := next.orderly
      caller := .sending carries next
      callee := h.callee.append _
      behind := by simp [hn]
      ahead := by simp [hn]
      out := tracks.weaken h.out (Nat.le_refl _) (by simp) fun j d hj hd => hd.append hj _
      back := by
        rw [List.length_append, List.length_singleton, Nat.add_sub_cancel]
        exact tracks.weaken hback (Nat.le_refl _) (Nat.le_refl _)
          fun j d hj hd => hd.concat full (by omega) chunk
      agreed := nofun }
  · obtain ⟨-, hconcluded, -⟩ := h.acknowledged narrow brings acked
    rw [hdone]
    refine ⟨[], ?_⟩
    rw [List.append_nil]
    exact { h with
      caller := .done finished
      back := h.back_left brings
      agreed := by
        rintro summary ⟨⟩
        exact hconcluded finished }
  · refine ⟨[], ?_⟩
    rw [List.append_nil]
    exact { h with
      caller := hstands
      back := h.back_left brings
      agreed := fun summary hended => absurd hended (hopen summary) }

/-! ### Steps of the reception

The reception takes a packet if it is due, and then it has taken all that the upload has sent. -/

theorem Joined.idle (h : Joined violated tracks setup blocks n x) {store : σ × List Call}
    (idle : x.callee = .idle store) : blocks = [] ∧ n = 0 ∧ store.2 = [] := by
  have hbehind := h.behind
  have hcallee := h.callee
  rw [idle] at hcallee
  cases hcallee with
  | idle => exact ⟨List.eq_nil_of_length_eq_zero (Nat.le_zero.1 hbehind), rfl, rfl⟩

theorem Joined.opening (h : Joined violated tracks setup [] 0 x) {datagram : Bytes} {extra : Nat}
    {out : γ} (yields : medium.Yields x.out datagram extra out) :
    tracks.Holds (Outbound setup.filename setup.ends.caller []) (tracks.floor 0) 0 out ∧
    ∃ m, packet m = .ok datagram ∧
      ((∃ mode, m = .writeRequest setup.filename mode) ∨ ∃ code text, m = .error code text) := by
  obtain ⟨j, hlow, hhigh, htag, hout⟩ := tracks.yield h.out yields
  refine ⟨hout 0 hlow, ?_⟩
  rcases htag with ⟨m, hm, hpacket⟩ | ⟨code, text, hpacket⟩
  · have hzero : j = 0 := Nat.le_zero.1 hhigh
    subst hzero
    cases hm
    exact ⟨_, hpacket, .inl ⟨_, rfl⟩⟩
  · exact ⟨_, hpacket, .inr ⟨code, text, rfl⟩⟩

theorem Joined.calleeOpens (h : Joined violated tracks setup blocks n x) {store : σ × List Call}
    {datagram : Bytes} {extra : Nat} {out : γ} (idle : x.callee = .idle store)
    (yields : medium.Yields x.out datagram extra out) :
    ∃ n', n ≤ n' ∧ Joined violated tracks setup blocks n'
      { x with
        callee := .active (Reception.start setup.ends.storage.recorded true datagram
          setup.ends.callee store)
        out := out
        anomalies := x.anomalies + extra } := by
  have hagreed : ∀ summary, x.caller ≠ .ended (.ok summary) := by
    intro summary hended
    have hconcluded := h.agreed summary hended
    simp [Exchange.concluded?, idle] at hconcluded
  obtain ⟨initial, logged⟩ := store
  obtain ⟨rfl, rfl, rfl⟩ := h.idle idle
  obtain ⟨hout, m, hpacket, hkind⟩ := h.opening yields
  have hm := decode_packet hpacket
  have hlawful : ∀ e, decode datagram = .error e → violated := by
    intro e he
    rw [hm] at he
    cases he
  have hexpected : ∀ m, decode datagram = .ok m → violated ∨
      (∃ filename mode, m = .writeRequest filename mode) ∨ ∃ code text, m = .error code text := by
    intro m' he
    rw [hm] at he
    cases he
    rcases hkind with ⟨mode, hmode⟩ | herror
    · exact .inr (.inl ⟨_, mode, hmode⟩)
    · exact .inr (.inr herror)
  obtain ⟨hstart, -⟩ := Reception.start_stands setup.ends.storage datagram setup.ends.callee
    initial hlawful hexpected
  have hback : ∀ concluded n', tracks.Holds (Inbound setup.filename concluded [] n')
      (tracks.floor 0) 0 x.back := by
    intro concluded n'
    refine tracks.weaken h.back (Nat.le_refl _) (Nat.le_refl _) ?_
    intro j d _ hd
    apply hd.mono (Nat.zero_le n')
    simp [Exchange.concluded?, idle]
  rcases hstart with ⟨filename, mode, hrequest, hstands⟩ | hrefused
  · have hname : filename = setup.filename := by
      rw [hm] at hrequest
      cases hrequest
      rcases hkind with ⟨mode', hmode⟩ | ⟨code, text, hmode⟩
      · cases hmode
        rfl
      · cases hmode
    subst hname
    refine ⟨1, Nat.zero_le 1, ?_⟩
    exact { h with
      callee := .active (Nat.zero_le 0) hstands
      behind := Nat.zero_le 1
      ahead := Nat.le_refl 1
      out := hout
      back := hback _ 1
      agreed := fun summary hended => absurd hended (hagreed summary) }
  · refine ⟨0, Nat.le_refl 0, ?_⟩
    exact { h with
      callee := .refused hrefused
      out := hout
      back := hback _ 0
      agreed := fun summary hended => absurd hended (hagreed summary) }

theorem Joined.calleeSends (h : Joined violated tracks setup blocks n x)
    {state : Reception.State (σ × List Call) κ} {datagram : Bytes} (v : Verdict)
    (active : x.callee = .active state) (demand : state.1.demand = .send datagram) :
    Joined violated tracks setup blocks n
      { x with
        callee := .active (Reception.Status.settle setup.ends.storage.recorded state v).1
        back := medium.given v datagram x.back } := by
  have hlasts : ∀ summary, x.concluded? = some summary →
      (Reception.Status.settle setup.ends.storage.recorded state v).1.1.concluded? =
        some summary := by
    intro summary hx
    simp only [Exchange.concluded?, active] at hx
    exact Reception.concluded?_settle _ hx v
  have hbefore : tracks.Holds (Inbound setup.filename
      (Reception.Status.settle setup.ends.storage.recorded state v).1.1.concluded? blocks n)
      (tracks.floor (blocks.length - 1)) (n - 1) x.back :=
    tracks.weaken h.back (Nat.le_refl _) (Nat.le_refl _) fun _ _ _ hd =>
      hd.mono (Nat.le_refl n) hlasts
  have hfloor : tracks.floor (blocks.length - 1) ≤ n - 1 :=
    Nat.le_trans (tracks.floor_le _) (Nat.sub_le_sub_right h.behind 1)
  have hcallee := h.callee
  rw [active] at hcallee
  cases hcallee with
  | refused refused =>
    exact { h with
      callee := .refused (Reception.settle_refused _ refused v)
      back := by
        cases v with
        | ok _ => exact tracks.carry hbefore hfloor (.inr (refused.sends demand))
        | error fault => exact hbefore
      agreed := fun summary hended => hlasts summary (h.agreed summary hended) }
  | @active k _ taken stands =>
    exact { h with
      callee := .active taken (Reception.settle_stands _ stands v)
      back := by
        cases v with
        | ok _ =>
          refine tracks.carry hbefore hfloor ?_
          rcases stands.sends setup.ends.storage demand with ⟨hpacket, hlast⟩ | herror
          · rw [List.length_take_of_le taken] at hpacket
            refine .inl ⟨Nat.lt_succ_self k, hpacket, ?_⟩
            intro finished
            rw [← h.orderly.take_eq finished]
            exact hlast finished
          · exact .inr herror
        | error fault => exact hbefore
      agreed := fun summary hended => hlasts summary (h.agreed summary hended) }

/-- A datagram that the medium delivers leaves the reception with the first blocks of the upload,
and is nothing unexpected unless the medium confuses the order. -/
theorem Joined.delivered (narrow : Narrow violated tracks setup)
    (h : Joined violated tracks setup blocks (k + 1) x) (taken : k ≤ blocks.length) {d : Bytes}
    {extra : Nat} {out : γ} (yields : medium.Yields x.out d extra out) :
    ∃ k', k ≤ k' ∧ k' ≤ blocks.length ∧ heard (blocks.take k) (.datagram d) = blocks.take k' ∧
      (∃ m, (Arrival.datagram d).read = .message m ∧
        (violated ∨ Session.Expected (blocks.take k) m)) ∧
      tracks.Holds (Outbound setup.filename setup.ends.caller blocks) (tracks.floor k')
        blocks.length out := by
  obtain ⟨j, hlow, hhigh, htag, hout⟩ := tracks.yield h.out yields
  rw [Nat.add_sub_cancel] at hlow
  rcases htag.read_eq with ⟨m, hread, hm⟩ | ⟨code, text, hread⟩
  · -- Only the packet behind those that were taken brings a block.
    by_cases hj : j = k + 1
    · subst hj
      obtain ⟨hheard, hexpected⟩ := heard_due (h.orderly.full_take hhigh) hhigh hm hread
      exact ⟨k + 1, Nat.le_succ k, hhigh, hheard, ⟨m, hread, .inr hexpected⟩,
        hout _ (tracks.floor_le _)⟩
    · have hbehind := h.behind
      -- A packet of another number has another word, if a block can still be taken: then the
      -- window and the number of the next packet fit into 65536 words.
      have apart : Full (blocks.take k) → number j ≠ number (k + 1) := by
        intro full hnumber
        have hnext : k + 1 ≤ setup.source.rest.length / blockSize + 1 := by
          rcases Nat.lt_or_eq_of_le taken with hlt | rfl
          · exact Nat.le_trans hlt h.length_le
          · obtain ⟨rest, hreads⟩ := h.reads
            rw [List.take_length] at full
            exact hreads.length_lt_of_full full
        have hwithin := narrow.within _ hnext
        have hfloor := tracks.floor_le k
        rw [Nat.add_sub_cancel] at hwithin
        exact hj (number_inj _ hlow (by omega) (by omega) (by omega) hnumber)
      refine ⟨k, Nat.le_refl k, taken,
        heard_other h.orderly taken (Upload.number?_packetAt hm) hread apart, ⟨m, hread, ?_⟩,
        hout k hlow⟩
      rcases narrow.ordered with hviolated | hfloor
      · exact .inl hviolated
      · rw [hfloor] at hlow
        have hagain : j = k := by omega
        subst hagain
        exact .inr (expected_again taken hm)
  · refine ⟨k, Nat.le_refl k, taken, ?_, ⟨_, hread, .inr (.inr (.inr ⟨code, text, rfl⟩))⟩,
      hout k hlow⟩
    simp only [heard, hread, extend]

theorem Joined.brought_out (narrow : Narrow violated tracks setup)
    (h : Joined violated tracks setup blocks (k + 1) x) (taken : k ≤ blocks.length) {a : Arrival}
    {cost : Nat} {out : γ} (brings : medium.Brings x.out a cost out) :
    ∃ k', k ≤ k' ∧ k' ≤ blocks.length ∧ heard (blocks.take k) a = blocks.take k' ∧
      (∀ m, a.read = .message m → violated ∨ Session.Expected (blocks.take k) m) ∧
      (∀ failure, a.read = .failure failure → failure.isViolation → violated) ∧
      tracks.Holds (Outbound setup.filename setup.ends.caller blocks) (tracks.floor k')
        blocks.length out := by
  cases brings with
  | datagram yields =>
    obtain ⟨k', hk, hk', hheard, ⟨m, hread, hexpected⟩, hout⟩ := h.delivered narrow taken yields
    rw [hread]
    refine ⟨k', hk, hk', hheard, ?_, nofun, hout⟩
    rintro _ ⟨⟩
    exact hexpected
  | silence => exact ⟨k, Nat.le_refl k, taken, rfl, nofun, nofun, h.out⟩
  | broken fault =>
    refine ⟨k, Nat.le_refl k, taken, rfl, nofun, ?_, h.out⟩
    rintro _ ⟨⟩
    exact nofun
  | stopped =>
    refine ⟨k, Nat.le_refl k, taken, rfl, nofun, ?_, h.out⟩
    rintro _ ⟨⟩
    exact nofun

theorem Joined.arrives (narrow : Narrow violated tracks setup)
    (h : Joined violated tracks setup blocks n x) {state : Reception.State (σ × List Call) κ}
    {a : Arrival} {cost : Nat} {out : γ} (active : x.callee = .active state)
    (demand : state.1.demand = .arrival) (brings : medium.Brings x.out a cost out) :
    ∃ k ≤ blocks.length, n ≤ k + 1 ∧
      Reception.Stands violated setup.filename (blocks.take k)
        (Reception.Status.arrive setup.ends.storage.recorded state a).1 ∧
      Reception.Answers a (blocks.take k)
        (Reception.Status.arrive setup.ends.storage.recorded state a).1.1 ∧
      tracks.Holds (Outbound setup.filename setup.ends.caller blocks) (tracks.floor k)
        blocks.length out := by
  have hcallee := h.callee
  rw [active] at hcallee
  cases hcallee with
  | refused refused => exact absurd demand refused.demand_ne
  | @active k _ taken stands =>
    -- What the reception hears is by `brought_out` a longer beginning of the blocks, or the same.
    obtain ⟨k', hk, hk', hheard, hexpected, hlawful, hout⟩ := h.brought_out narrow taken brings
    obtain ⟨hstands, hanswers⟩ :=
      Reception.arrive_stands setup.ends.storage stands demand hexpected hlawful
    rw [hheard] at hstands hanswers
    exact ⟨k', hk', Nat.succ_le_succ hk, hstands, hanswers, hout⟩

theorem Joined.calleeMeets (narrow : Narrow violated tracks setup)
    (h : Joined violated tracks setup blocks n x) {state : Reception.State (σ × List Call) κ}
    {a : Arrival} {cost : Nat} {out : γ} (active : x.callee = .active state)
    (demand : state.1.demand = .arrival) (brings : medium.Brings x.out a cost out) :
    ∃ n', n ≤ n' ∧ Joined violated tracks setup blocks n'
      { x with
        callee := .active (Reception.Status.arrive setup.ends.storage.recorded state a).1
        out := out
        anomalies := x.anomalies + cost } := by
  have hlasts : ∀ summary, x.concluded? = some summary →
      (Reception.Status.arrive setup.ends.storage.recorded state a).1.1.concluded? =
        some summary := by
    intro summary hx
    simp only [Exchange.concluded?, active] at hx
    exact Reception.concluded?_arrive _ hx a
  obtain ⟨k, hk, hn, hstands, -, hout⟩ := h.arrives narrow active demand brings
  have hbehind := h.behind
  refine ⟨k + 1, hn, ?_⟩
  exact { h with
    callee := .active hk hstands
    behind := Nat.le_trans hbehind hn
    ahead := Nat.succ_le_succ hk
    out := hout
    back := tracks.weaken h.back (Nat.le_refl _) (Nat.sub_le_sub_right hn 1) fun _ _ _ hd =>
      hd.mono hn hlasts
    agreed := fun summary hended => hlasts summary (h.agreed summary hended) }

/-! ### Runs -/

/-- Whatever happens, the upload has sent the blocks that it had sent, and maybe more, and the
reception has taken no fewer packets than before. -/
theorem Joined.step (narrow : Narrow violated tracks setup)
    (h : Joined violated tracks setup blocks n x) (hstep : Step medium setup.ends x x') :
    ∃ more n', n ≤ n' ∧ Joined violated tracks setup (blocks ++ more) n' x' := by
  cases hstep with
  | callerSends v demand =>
    exact ⟨[], n, Nat.le_refl n, by simpa using h.callerSends v demand⟩
  | callerMeets demand brings =>
    obtain ⟨more, hmore⟩ := h.callerMeets narrow demand brings
    exact ⟨more, n, Nat.le_refl n, hmore⟩
  | calleeOpens idle yields =>
    obtain ⟨n', hn, hnext⟩ := h.calleeOpens idle yields
    exact ⟨[], n', hn, by simpa using hnext⟩
  | calleeSends v active demand =>
    exact ⟨[], n, Nat.le_refl n, by simpa using h.calleeSends v active demand⟩
  | calleeMeets active demand brings =>
    obtain ⟨n', hn, hnext⟩ := h.calleeMeets narrow active demand brings
    exact ⟨[], n', hn, by simpa using hnext⟩
  | outLoses loses =>
    refine ⟨[], n, Nat.le_refl n, ?_⟩
    rw [List.append_nil]
    exact { h with out := tracks.lose h.out loses }
  | backLoses loses =>
    refine ⟨[], n, Nat.le_refl n, ?_⟩
    rw [List.append_nil]
    exact { h with back := tracks.lose h.back loses }

theorem Joined.reaches (narrow : Narrow violated tracks setup)
    (h : Joined violated tracks setup blocks n x) (hrun : Reaches medium setup.ends x x') :
    ∃ more n', n ≤ n' ∧ Joined violated tracks setup (blocks ++ more) n' x' := by
  induction hrun with
  | refl => exact ⟨[], n, Nat.le_refl n, by simpa using h⟩
  | tail _ hstep ih =>
    obtain ⟨more, n', hn, hbefore⟩ := ih
    obtain ⟨more', n'', hn', hafter⟩ := hbefore.step narrow hstep
    exact ⟨more ++ more', n'', Nat.le_trans hn hn', by rwa [← List.append_assoc]⟩

theorem joined_of_reaches (narrow : Narrow violated tracks setup)
    (hrun : Reaches medium setup.ends (start medium setup) x) :
    ∃ blocks n, Joined violated tracks setup blocks n x := by
  obtain ⟨more, n, -, h⟩ := (joined_start medium tracks setup).reaches narrow hrun
  exact ⟨_, n, h⟩

end TftpUpload.Exchange
