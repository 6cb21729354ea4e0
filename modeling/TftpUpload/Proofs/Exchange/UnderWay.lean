/-
  TftpUpload/Proofs/Exchange/UnderWay.lean
  ========================================
  **How many packets are under way.**

  A packet is under way from when one side demands that it be sent until it
  comes out on the other side (`underWay`); ERRORs are not counted, since nothing
  is ever sent in answer to one.  An arrival that was a packet is answered by no
  more than one, and silence by no more than one, so over channels only an
  anomaly makes the number of packets under way grow.  The same holds of the
  packets whose number has some property `p`, as far as the reception is
  concerned: it answers with the number that it was sent.
-/
import TftpUpload.Proofs.Exchange.Invariant
import TftpUpload.Proofs.Transfer.History

namespace TftpUpload

open Wire Transfer Storage Simulation

variable {σ κ : Type} {p : UInt16 → Bool}

/-! ### Arrivals that may be answered

An arrival is counted by what it may lead to.  Silence counts as well, because it makes a side send
again. -/

/-- The arrival may be answered: it is silence, or a packet other than ERROR whose number has the
property `p`. -/
def Transfer.Arrival.prompts (p : UInt16 → Bool) (a : Arrival) : Bool :=
  match a.read with
  | .message m => m.number?.any p
  | .silence => true
  | .failure _ => false

/-- The number of datagrams that may be answered. -/
def Transfer.marked (p : UInt16 → Bool) (ds : List Bytes) : Nat :=
  ds.countP fun d => (Arrival.datagram d).prompts p

namespace Transfer

theorem prompts_of_packet {m : Message} {d : Bytes} (h : packet m = .ok d) :
    (Arrival.datagram d).prompts p = m.number?.any p := by
  simp only [Arrival.prompts, read_packet h]

theorem prompts_of_isError {d : Bytes} (h : IsError d) :
    (Arrival.datagram d).prompts p = false := by
  obtain ⟨code, text, hpacket⟩ := h
  exact prompts_of_packet hpacket

@[simp]
theorem marked_nil : marked p [] = 0 := rfl

@[simp]
theorem marked_cons (d : Bytes) (ds : List Bytes) :
    marked p (d :: ds) = marked p ds + ((Arrival.datagram d).prompts p).toNat := by
  unfold marked
  rw [List.countP_cons]
  cases (Arrival.datagram d).prompts p <;> rfl

@[simp]
theorem marked_append (ds ds' : List Bytes) : marked p (ds ++ ds') = marked p ds + marked p ds' :=
  List.countP_append

theorem prompts_mono {q : UInt16 → Bool} (h : ∀ n, p n → q n) (a : Arrival)
    (ha : a.prompts p = true) : a.prompts q = true := by
  unfold Arrival.prompts at ha ⊢
  split
  · rename_i m hread
    rw [hread] at ha
    obtain ⟨n, hn, hp⟩ := Option.any_eq_true _ _ |>.1 ha
    exact (Option.any_eq_true _ _).2 ⟨n, hn, h n hp⟩
  · rfl
  · rename_i failure hread
    rw [hread] at ha
    cases ha

theorem marked_mono {q : UInt16 → Bool} (h : ∀ n, p n → q n) (ds : List Bytes) :
    marked p ds ≤ marked q ds :=
  List.countP_mono_left fun d _ => prompts_mono h (.datagram d)

theorem marked_le_of_sublist {ds ds' : List Bytes} (h : ds.Sublist ds') :
    marked p ds ≤ marked p ds' :=
  h.countP_le

end Transfer

/-! ### Channels

What a wait takes out of a channel, and the anomalies in it, pay for what the arrival may lead
to. -/

namespace Exchange

/-- An arrival uses up a datagram of the channel, or is an anomaly, or cannot be answered. -/
theorem marked_brings {c c' : Channel} {a : Arrival} {cost : Nat}
    (h : fifo.Brings c a cost c') :
    marked p c'.queue + (a.prompts p).toNat ≤ marked p c.queue + cost := by
  cases h with
  | datagram yields =>
    cases yields with
    | next =>
      rw [marked_cons]
      exact Nat.le_refl _
    | again => exact Nat.add_le_add_left (Bool.toNat_le _) _
  | silence => exact Nat.le_refl _
  | broken fault => exact Nat.le_refl _
  | stopped => exact Nat.le_refl _

theorem marked_given (v : Verdict) (d : Bytes) (c : Channel) :
    marked p (fifo.given v d c).queue ≤ marked p c.queue + marked p [d] := by
  cases v with
  | ok _ => exact Nat.le_of_eq (marked_append _ _)
  | error fault => exact Nat.le_add_right _ _

theorem marked_loses {c c' : Channel} (h : fifo.Loses c c') :
    marked p c'.queue ≤ marked p c.queue := by
  cases h with
  | lose => exact marked_le_of_sublist (List.Sublist.append (List.Sublist.refl _)
      (List.sublist_cons_self ..))

end Exchange

/-! ### The upload -/

namespace Upload

theorem marked_fail (failure : Failure) : marked p (fail failure).demand.packet?.toList = 0 := by
  unfold fail
  split
  · rename_i datagram hfarewell
    simp [Status.demand, Demand.packet?, prompts_of_isError (isError_of_farewell hfarewell)]
  · rfl

theorem marked_settle {status : Status} {d : Bytes} (demand : status.demand = .send d)
    (v : Verdict) : marked p (status.settle v).1.demand.packet?.toList = 0 := by
  cases status with
  | sending packet report u =>
    cases v with
    | ok _ => rfl
    | error fault => exact marked_fail (.transport fault)
  | parting packet failure => rfl
  | waiting u => cases demand
  | ended result => cases demand

end Upload

/-! ### The reception -/

namespace Reception

variable {violated : Prop} {name : String} {blocks : List Bytes}

/-- Apart from ERRORs a reception sends only acknowledgements. -/
theorem Stands.marked_packet {state : State (σ × List Call) κ}
    (h : Stands violated name blocks state) :
    marked p state.1.demand.packet?.toList = marked p state.1.reply?.toList := by
  cases h with
  | parting farewell lawful touched =>
    simp [Status.demand, Demand.packet?, Status.reply?,
      prompts_of_isError (isError_of_farewell farewell)]
  | _ => rfl

theorem Refused.marked_packet {state : State (σ × List Call) κ} (h : Refused violated state) :
    marked p state.1.demand.packet?.toList = 0 := by
  cases h with
  | parting farewell lawful rejected =>
    simp [Status.demand, Demand.packet?, prompts_of_isError (isError_of_farewell farewell)]
  | ended lawful rejected => rfl

theorem Stands.reply_carries {state : State (σ × List Call) κ}
    (h : Stands violated name blocks state) {d : Bytes} (hd : state.1.reply? = some d) :
    packet (.ack (number blocks.length)) = .ok d := by
  cases h with
  | replying carries session written =>
    cases hd
    exact carries
  | completing carries session filed =>
    cases hd
    exact carries
  | repeating carries session filed =>
    cases hd
    exact carries
  | _ => cases hd

/-- The acknowledgement that follows an arrival has the number of the packet that has arrived. -/
theorem Stands.marked_answer {state : State (σ × List Call) κ}
    (h : Stands violated name blocks state) {a : Arrival} (answers : Answers a blocks state.1) :
    marked p state.1.demand.packet?.toList ≤ (a.prompts p).toNat := by
  rw [h.marked_packet]
  cases hreply : state.1.reply? with
  | none => exact Nat.zero_le _
  | some d =>
    have hcarries := h.reply_carries hreply
    rw [Option.toList_some, marked_cons, marked_nil, Nat.zero_add, prompts_of_packet hcarries]
    rcases answers d hreply with hread | ⟨m, hread, hnumber⟩
    · simp only [Arrival.prompts, hread]
      exact Bool.toNat_le _
    · simp only [Arrival.prompts, hread]
      rw [hnumber]
      exact Nat.le_refl _

theorem reply?_settle (st : Storage σ κ) {state : State σ κ} {d : Bytes}
    (demand : state.1.demand = .send d) (v : Verdict) :
    (Status.settle st state v).1.1.reply? = none := by
  obtain ⟨status, store⟩ := state
  cases status with
  | replying packet r =>
    cases v with
    | ok _ => rfl
    | error fault => exact reply?_fail st (.transport fault) r.session store
  | completing packet session =>
    cases v with
    | ok _ => rfl
    | error fault => exact reply?_fail st (.transport fault) session store
  | repeating packet session summary => cases v <;> rfl
  | parting packet failure created => cases created <;> rfl
  | waiting r => cases demand
  | lingering session summary => cases demand
  | ended result => cases demand

end Reception

/-! ### Both sides and the channels

The count is over the two channels and what the two sides are about to send, so it changes with each
step of either side. -/

def Simulation.Callee.packet? : Callee (σ × List Call) κ → Option Bytes
  | idle _ => none
  | active state => state.1.demand.packet?

namespace Exchange

variable {setup : Setup σ κ} {blocks : List Bytes} {n : Nat} {x : Exchange σ κ Channel}

/-- How many packets whose number has the property `p` are under way, the ones that are about to
be sent included. -/
def underWay (p : UInt16 → Bool) (x : Exchange σ κ Channel) : Nat :=
  marked p x.caller.demand.packet?.toList + marked p x.out.queue +
    marked p x.callee.packet?.toList + marked p x.back.queue

theorem underWay_calleeOpens (h : Joined False fifoTracks setup blocks n x)
    {store : σ × List Call} {d : Bytes} {extra : Nat} {out : Channel}
    (idle : x.callee = .idle store) (yields : fifo.Yields x.out d extra out) :
    underWay p
      { x with
        callee := .active (Reception.start setup.ends.storage.recorded true d
          setup.ends.callee store)
        out := out
        anomalies := x.anomalies + extra } ≤ underWay p x + extra := by
  obtain ⟨initial, logged⟩ := store
  obtain ⟨rfl, rfl, rfl⟩ := h.idle idle
  obtain ⟨-, m, hpacket, -⟩ := h.opening yields
  have hlawful : ∀ e, decode d = .error e → True := fun _ _ => trivial
  obtain ⟨hstart, hanswer⟩ := Reception.start_stands setup.ends.storage d setup.ends.callee initial
    hlawful fun _ _ => .inl trivial
  have hanswers : marked p (Reception.start setup.ends.storage.recorded true d setup.ends.callee
      (initial, [])).1.demand.packet?.toList ≤ ((Arrival.datagram d).prompts p).toNat := by
    rcases hstart with ⟨filename, mode, -, hstands⟩ | hrefused
    · refine hstands.marked_answer fun d' hd' => .inr ?_
      obtain ⟨m', hm', hnumber⟩ := hanswer d' hd'
      rw [decode_packet hpacket] at hm'
      cases hm'
      exact ⟨m, read_packet hpacket, hnumber⟩
    · rw [hrefused.marked_packet]
      exact Nat.zero_le _
  have hbrought := marked_brings (p := p) (.datagram yields)
  simp only [underWay, idle, Callee.packet?, Option.toList_none, marked_nil]
  omega

theorem underWay_calleeSends (h : Joined False fifoTracks setup blocks n x)
    {state : Reception.State (σ × List Call) κ} {d : Bytes} (v : Verdict)
    (active : x.callee = .active state) (demand : state.1.demand = .send d) :
    underWay p
      { x with
        callee := .active (Reception.Status.settle setup.ends.storage.recorded state v).1
        back := fifo.given v d x.back } ≤ underWay p x := by
  have hsettled : marked p (Reception.Status.settle setup.ends.storage.recorded
      state v).1.1.demand.packet?.toList = 0 := by
    rcases h.active active with hrefused | ⟨k, -, hstands⟩
    · exact (Reception.settle_refused _ hrefused v).marked_packet
    · rw [(Reception.settle_stands _ hstands v).marked_packet,
        Reception.reply?_settle _ demand v]
      rfl
  have hgiven := marked_given (p := p) v d x.back
  simp only [underWay, active, Callee.packet?, hsettled, demand, packet?_send,
    Option.toList_some]
  omega

/-- A reception answers a packet by one, and silence by one. -/
theorem underWay_calleeMeets (h : Joined False fifoTracks setup blocks n x)
    {state : Reception.State (σ × List Call) κ} {a : Arrival} {cost : Nat} {out : Channel}
    (active : x.callee = .active state) (demand : state.1.demand = .arrival)
    (brings : fifo.Brings x.out a cost out) :
    underWay p
      { x with
        callee := .active (Reception.Status.arrive setup.ends.storage.recorded state a).1
        out := out
        anomalies := x.anomalies + cost } ≤ underWay p x + cost := by
  obtain ⟨k, -, -, hstands, hanswers, -⟩ := h.arrives (narrow_fifo setup) active demand brings
  have hanswer := hstands.marked_answer (p := p) hanswers
  have hbrought := marked_brings (p := p) brings
  simp only [underWay, active, Callee.packet?, demand, packet?_arrival, Option.toList_none,
    marked_nil]
  omega

theorem underWay_callerSends {d : Bytes} (v : Verdict) (demand : x.caller.demand = .send d)
    (sent : List Nat) :
    underWay p
      { x with
        caller := (x.caller.settle v).1
        out := fifo.given v d x.out
        sent } ≤ underWay p x := by
  have hsettled := Upload.marked_settle (p := p) demand v
  have hgiven := marked_given (p := p) v d x.out
  simp only [underWay, hsettled, demand, packet?_send, Option.toList_some]
  omega

/-- What a wait of the upload uses up is no longer under way; what the upload sends then is. -/
theorem underWay_callerMeets {a : Arrival} {cost : Nat} {back : Channel}
    (demand : x.caller.demand = .arrival) (brings : fifo.Brings x.back a cost back)
    (caller : Upload.Status) :
    underWay p { x with caller, back, anomalies := x.anomalies + cost } + (a.prompts p).toNat ≤
      underWay p x + marked p caller.demand.packet?.toList + cost := by
  have hbrought := marked_brings (p := p) brings
  simp only [underWay, demand, packet?_arrival, Option.toList_none, marked_nil]
  omega

theorem underWay_outLoses {out : Channel} (loses : fifo.Loses x.out out) :
    underWay p { x with out } ≤ underWay p x := by
  have hloses := marked_loses (p := p) loses
  simp only [underWay]
  omega

theorem underWay_backLoses {back : Channel} (loses : fifo.Loses x.back back) :
    underWay p { x with back } ≤ underWay p x := by
  have hloses := marked_loses (p := p) loses
  simp only [underWay]
  omega

end Exchange

end TftpUpload
