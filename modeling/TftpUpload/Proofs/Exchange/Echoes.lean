/-
  TftpUpload/Proofs/Exchange/Echoes.lean
  ======================================
  **Echoes add up; they do not multiply.**

  A stale acknowledgement makes the upload send its packet again, and a packet
  that comes twice is acknowledged twice, so one anomaly echoes to and fro for
  the rest of the transfer.  But there is never more than one packet under way
  for each anomaly, and one besides; and what is under way with another number
  than that of the packet that is out, together with the attempts at that
  packet, is no more either (`Damped`).  So no packet is sent more often than
  there were anomalies, and once.
-/
import TftpUpload.Proofs.Exchange.UnderWay

namespace TftpUpload

open Wire Transfer Storage Simulation

variable {σ κ : Type} {p : UInt16 → Bool}

def Upload.Status.current? : Upload.Status → Option Upload
  | waiting u => some u
  | sending _ _ u => some u
  | _ => none

namespace Upload

theorem current?_fail (failure : Failure) : (fail failure).current? = none := by
  unfold fail
  split <;> rfl

theorem Carries.prompts_eq {filename : String} {settings : Settings} {blocks : List Bytes}
    {i : Nat} {d : Bytes} (h : Carries filename settings blocks i d) :
    (Arrival.datagram d).prompts p = p (number i) := by
  obtain ⟨m, hm, hpacket⟩ := h
  rw [prompts_of_packet hpacket, number?_packetAt hm, Option.any_some]

theorem Recalls.prompts_eq {blocks : List Bytes} {a : Arrival} (h : Recalls blocks a)
    (hp : ∀ n, n ≠ number blocks.length → p n = true) : a.prompts p = true := by
  rcases h with hread | ⟨n, hread, hn⟩
  · simp only [Arrival.prompts, hread]
  · simp only [Arrival.prompts, hread, Message.number?, Option.any_some, hp n hn]

end Upload

namespace Exchange

variable {setup : Setup σ κ} {blocks : List Bytes} {n : Nat} {x x' : Exchange σ κ Channel}

/-! ### The invariant

An acknowledgement of the packet that is out is answered by a new block, and one of another packet
by a copy.  So only those of other packets are counted together with the copies. -/

def stale (u : Upload) (n : UInt16) : Bool := n != number u.out

/-- What is under way, and how often packets were sent, is bounded by the anomalies. -/
structure Damped (setup : Setup σ κ) (x : Exchange σ κ Channel) : Prop where
  live : underWay (fun _ => true) x ≤ 1 + x.anomalies
  echoes : ∀ u, x.caller.current? = some u →
    u.sender.attempts + underWay (stale u) x ≤ 1 + x.anomalies
  counted : ∀ u, x.caller.current? = some u →
    x.sent.count u.out + x.caller.sends?.toList.length = u.sender.attempts
  unsent : ∀ u, x.caller.current? = some u → ∀ i, u.out < i → x.sent.count i = 0
  bounded : ∀ i, x.sent.count i ≤ 1 + x.anomalies
  gaveUp : ∀ attempts, x.caller = .ended (.error (.timeout attempts)) →
    max setup.ends.caller.maxRetries 1 ≤ x.anomalies

theorem Damped.bounded_add (h : Damped setup x) (cost i : Nat) :
    x.sent.count i ≤ 1 + (x.anomalies + cost) := by
  have hbefore := h.bounded i
  omega

/-- As long as the upload does nothing, it is enough that what is under way does not grow but by
anomalies. -/
theorem Damped.of_underWay_le (h : Damped setup x) (cost : Nat) (hcaller : x'.caller = x.caller)
    (hsent : x'.sent = x.sent) (hanomalies : x'.anomalies = x.anomalies + cost)
    (hunder : ∀ p, underWay p x' ≤ underWay p x + cost) : Damped setup x' where
  live := by
    have hbefore := h.live
    have hgrowth := hunder fun _ => true
    omega
  echoes u hu := by
    have hbefore := h.echoes u (hcaller ▸ hu)
    have hgrowth := hunder (stale u)
    omega
  counted := by
    rw [hcaller, hsent]
    exact h.counted
  unsent := by
    rw [hcaller, hsent]
    exact h.unsent
  bounded i := by
    have hbefore := h.bounded i
    rw [hsent]
    omega
  gaveUp attempts hended := by
    have hbefore := h.gaveUp attempts (hcaller ▸ hended)
    omega

theorem Damped.of_over (h : Damped setup x) (cost : Nat) (hover : x'.caller.current? = none)
    (hanomalies : x'.anomalies = x.anomalies + cost)
    (hunder : underWay (fun _ => true) x' ≤ underWay (fun _ => true) x + cost)
    (hbounded : ∀ i, x'.sent.count i ≤ 1 + x'.anomalies)
    (hgaveUp : ∀ attempts, x'.caller = .ended (.error (.timeout attempts)) →
      max setup.ends.caller.maxRetries 1 ≤ x'.anomalies) : Damped setup x' where
  live := by
    have hbefore := h.live
    omega
  echoes u hu := by
    rw [hover] at hu
    cases hu
  counted u hu := by
    rw [hover] at hu
    cases hu
  unsent u hu := by
    rw [hover] at hu
    cases hu
  bounded := hbounded
  gaveUp := hgaveUp

/-! ### Steps of the upload

A packet that comes takes one from what is under way, and what the upload sends in answer adds
one. -/

theorem Damped.count_sends (h : Damped setup x) (i : Nat) :
    (x.sent ++ x.caller.sends?.toList).count i ≤ 1 + x.anomalies := by
  have hbefore := h.bounded i
  rw [List.count_append]
  cases hcaller : x.caller with
  | sending packet report u =>
    have hcurrent : x.caller.current? = some u := by rw [hcaller]; rfl
    have hechoes := h.echoes u hcurrent
    have hcounted := h.counted u hcurrent
    simp only [hcaller, Upload.Status.sends?, Option.toList_some, List.length_singleton,
      List.count_singleton] at hcounted ⊢
    by_cases hi : u.out = i
    · subst hi
      simp only [beq_self_eq_true, if_true]
      omega
    · simp only [beq_iff_eq, hi, if_false]
      omega
  | waiting u => exact hbefore
  | parting packet failure => exact hbefore
  | ended result => exact hbefore

theorem Damped.callerSends (h : Joined False fifoTracks setup blocks n x) (damped : Damped setup x)
    {d : Bytes} (v : Verdict) (demand : x.caller.demand = .send d) :
    Damped setup
      { x with
        caller := (x.caller.settle v).1
        out := fifo.given v d x.out
        sent := x.sent ++ x.caller.sends?.toList } := by
  have hunder : ∀ p, underWay p
      { x with
        caller := (x.caller.settle v).1
        out := fifo.given v d x.out
        sent := x.sent ++ x.caller.sends?.toList } ≤ underWay p x + 0 :=
    fun _ => underWay_callerSends v demand _
  have hsends := damped.count_sends
  cases hcaller : x.caller with
  | sending packet report u =>
    have hcurrent : x.caller.current? = some u := by rw [hcaller]; rfl
    rw [hcaller] at hunder hsends
    cases v with
    | ok _ =>
      exact {
        live := Nat.le_trans (hunder _) damped.live
        echoes := by
          rintro _ ⟨⟩
          exact Nat.le_trans (Nat.add_le_add_left (hunder _) _) (damped.echoes u hcurrent)
        counted := by
          rintro _ ⟨⟩
          have hcounted := damped.counted u hcurrent
          rw [hcaller] at hcounted
          simpa [Upload.Status.sends?, Upload.Status.settle] using hcounted
        unsent := by
          rintro _ ⟨⟩ i hi
          have hunsent := damped.unsent u hcurrent i hi
          simp [Upload.Status.sends?, hunsent, Nat.ne_of_lt hi]
        bounded := hsends
        gaveUp := nofun }
    | error fault =>
      refine damped.of_over 0 (Upload.current?_fail (.transport fault)) rfl (hunder _) hsends ?_
      intro attempts hended
      cases Upload.eq_of_fail (.transport fault) hended
  | parting packet failure =>
    rw [hcaller] at hunder hsends
    refine damped.of_over 0 rfl rfl (hunder _) hsends ?_
    rintro attempts ⟨⟩
    have hstands := h.caller
    rw [hcaller] at hstands
    cases hstands with
    | parting farewell lawful unread => cases farewell
  | waiting u =>
    rw [hcaller] at demand
    cases demand
  | ended result =>
    rw [hcaller] at demand
    cases demand

/-- The packet that the upload is about to send is under way, and it is not stale. -/
theorem underWay_stale_lt {d : Bytes} {report : Option Progress} {u : Upload}
    (hcaller : x.caller = .sending d report u)
    (hd : ∀ p, (Arrival.datagram d).prompts p = p (number u.out)) :
    underWay (stale u) x + 1 ≤ underWay (fun _ => true) x := by
  have hmono : ∀ ds, marked (stale u) ds ≤ marked (fun _ => true) ds :=
    marked_mono fun _ _ => rfl
  have hout := hmono x.out.queue
  have hback := hmono x.back.queue
  have hcallee := hmono x.callee.packet?.toList
  simp only [underWay, hcaller, Upload.Status.demand, packet?_send, Option.toList_some, marked_cons,
    marked_nil, hd, stale, bne_self_eq_false, Bool.toNat_false, Bool.toNat_true] at *
  omega

theorem Damped.fails (damped : Damped setup x) {a : Arrival} {cost : Nat} {back : Channel}
    (demand : x.caller.demand = .arrival) (brings : fifo.Brings x.back a cost back)
    (failure : Failure) (hgaveUp : ∀ attempts, failure = .timeout attempts →
      max setup.ends.caller.maxRetries 1 ≤ x.anomalies + cost) :
    Damped setup
      { x with
        caller := Upload.fail failure
        back := back
        anomalies := x.anomalies + cost } := by
  have hunder := underWay_callerMeets (p := fun _ => true) demand brings (Upload.fail failure)
  rw [Upload.marked_fail, Nat.add_zero] at hunder
  refine damped.of_over cost (Upload.current?_fail failure) rfl (by omega) ?_ ?_
  · exact damped.bounded_add cost
  · intro attempts hended
    exact hgaveUp attempts (Upload.eq_of_fail failure hended)

/-- An upload that sends its packet again, or the next one, does so because something has come out
or an anomaly has happened. -/
theorem underWay_of_sent {a : Arrival} {cost : Nat} {back : Channel}
    (demand : x.caller.demand = .arrival) (brings : fifo.Brings x.back a cost back)
    (hprompts : a.prompts p = true) (d : Bytes) (report : Option Progress) (u : Upload) :
    underWay p
        { x with
          caller := .sending d report u
          back := back
          anomalies := x.anomalies + cost } + 1 ≤
      underWay p x + ((Arrival.datagram d).prompts p).toNat + cost := by
  have hunder := underWay_callerMeets (p := p) demand brings (.sending d report u)
  rw [hprompts] at hunder
  simpa only [Upload.Status.demand, packet?_send, Option.toList_some, marked_cons, marked_nil,
    Nat.zero_add, Bool.toNat_true] using hunder

/-- The next packet is the only one under way that is not stale. -/
theorem Damped.advances (damped : Damped setup x) {u u' : Upload} {a : Arrival} {cost : Nat}
    {back : Channel} {d : Bytes} {report : Option Progress} (hcurrent : x.caller.current? = some u)
    (demand : x.caller.demand = .arrival) (brings : fifo.Brings x.back a cost back)
    (hprompts : a.prompts (fun _ => true) = true) (hout : u'.out = u.out + 1)
    (hd : ∀ p, (Arrival.datagram d).prompts p = p (number u'.out))
    (first : u'.sender.attempts = 1) :
    Damped setup
      { x with
        caller := .sending d report u'
        back := back
        anomalies := x.anomalies + cost } := by
  have hlive := damped.live
  have hunsent := damped.unsent u hcurrent
  have hunder := underWay_of_sent demand brings hprompts d report u'
  rw [hd, Bool.toNat_true] at hunder
  -- Everything under way but the new packet is stale from now on, and `live` bounds it.
  have hstale := underWay_stale_lt
    (x := { x with caller := .sending d report u', back := back, anomalies := x.anomalies + cost })
    rfl hd
  exact {
    live := by
      dsimp only
      omega
    echoes := by
      rintro _ ⟨⟩
      dsimp only
      omega
    counted := by
      rintro _ ⟨⟩
      rw [hunsent u'.out (by omega), first]
      rfl
    unsent := by
      rintro _ ⟨⟩ i hi
      exact hunsent i (by omega)
    bounded := damped.bounded_add cost
    gaveUp := nofun }

/-- Sending the packet again uses up a stale packet, or an anomaly. -/
theorem Damped.resends (damped : Damped setup x) {u u' : Upload} {a : Arrival} {cost : Nat}
    {back : Channel} {d : Bytes} {report : Option Progress} (hcaller : x.caller = .waiting u)
    (brings : fifo.Brings x.back a cost back) (hprompts : a.prompts (stale u) = true)
    (hout : u'.out = u.out) (hd : ∀ p, (Arrival.datagram d).prompts p = p (number u.out))
    (counted : u'.sender.attempts = u.sender.attempts + 1) :
    Damped setup
      { x with
        caller := .sending d report u'
        back := back
        anomalies := x.anomalies + cost } := by
  have hcurrent : x.caller.current? = some u := by rw [hcaller]; rfl
  have demand : x.caller.demand = .arrival := by rw [hcaller]; rfl
  have hlive := damped.live
  have hechoes := damped.echoes u hcurrent
  have hcounted := damped.counted u hcurrent
  have hstale : stale u' = stale u := by
    unfold stale
    rw [hout]
  have hself : stale u (number u.out) = false := bne_self_eq_false _
  have hany : a.prompts (fun _ => true) = true := prompts_mono (fun _ _ => rfl) a hprompts
  have hother := underWay_of_sent demand brings hprompts d report u'
  have hunder := underWay_of_sent demand brings hany d report u'
  rw [hd, hself, Bool.toNat_false] at hother
  rw [hd, Bool.toNat_true] at hunder
  rw [hcaller] at hcounted
  exact {
    live := by
      dsimp only
      omega
    echoes := by
      rintro _ ⟨⟩
      rw [hstale, counted]
      dsimp only
      omega
    counted := by
      rintro _ ⟨⟩
      rw [hout, counted, ← hcounted]
      rfl
    unsent := by
      rintro _ ⟨⟩ i hi
      exact damped.unsent u hcurrent i (hout ▸ hi)
    bounded := damped.bounded_add cost
    gaveUp := nofun }

theorem Damped.callerMeets (h : Joined False fifoTracks setup blocks n x) (damped : Damped setup x)
    {a : Arrival} {cost : Nat} {back : Channel} (demand : x.caller.demand = .arrival)
    (brings : fifo.Brings x.back a cost back) :
    Damped setup
      { x with
        caller := (x.caller.arrive a).1
        back := back
        anomalies := x.anomalies + cost } := by
  obtain ⟨u, hcaller, awaits⟩ := h.waits demand
  have hcurrent : x.caller.current? = some u := by rw [hcaller]; rfl
  have hstatus : (x.caller.arrive a).1 = u.arrive a := by rw [hcaller]; rfl
  have hrecalled : Upload.Recalls blocks a → a.prompts (stale u) = true := by
    intro recalls
    apply recalls.prompts_eq
    intro n hn
    rwa [stale, awaits.out_eq, bne_iff_ne]
  rw [hstatus]
  have hreacts := Upload.arrive_reacts awaits a
  revert hreacts
  generalize u.arrive a = status
  intro hreacts
  cases hreacts with
  | ignored other hn =>
    refine damped.of_underWay_le cost hcaller.symm rfl rfl ?_
    intro p
    have hunder := underWay_callerMeets (p := p) demand brings (.waiting u)
    simp only [Upload.Status.demand, packet?_arrival, Option.toList_none, marked_nil] at hunder
    omega
  | @advanced chunk d report u' acked full carries next first =>
    have hout : u'.out = u.out + 1 := by
      rw [next.out_eq, awaits.out_eq, List.length_append, List.length_singleton]
    refine damped.advances hcurrent demand brings ?_ hout ?_ first
    · simp only [Arrival.prompts, acked, Message.number?, Option.any_some]
    · intro p
      rw [hout, awaits.out_eq]
      exact carries.prompts_eq
  | @resent d u' recalls carries again counted =>
    have hout : u'.out = u.out := by rw [again.out_eq, awaits.out_eq]
    refine damped.resends hcaller brings (hrecalled recalls) hout ?_ counted
    intro p
    rw [awaits.out_eq]
    exact carries.prompts_eq
  | gaveUp recalls spent =>
    -- The stale packet that has come out, or the silence, is one more than the attempts.
    have hechoes := damped.echoes u hcurrent
    have hunder := underWay_callerMeets (p := stale u) demand brings
      (Upload.fail (.timeout u.sender.attempts))
    rw [Upload.marked_fail, hrecalled recalls, Bool.toNat_true] at hunder
    refine damped.fails demand brings _ ?_
    rintro attempts ⟨⟩
    omega
  | unread acked full =>
    apply damped.fails demand brings
    rintro attempts ⟨⟩
  | done acked finished =>
    have hunder := underWay_callerMeets (p := fun _ => true) demand brings
      (.ended (.ok ⟨setup.filename, blocks.length, blocks.flatten.length⟩))
    simp only [Upload.Status.demand, packet?_nothing, Option.toList_none, marked_nil] at hunder
    refine damped.of_over cost rfl rfl (by omega) (damped.bounded_add cost) ?_
    rintro attempts ⟨⟩
  | remote error =>
    apply damped.fails demand brings
    rintro attempts ⟨⟩
  | unexpected message ack error =>
    apply damped.fails demand brings
    rintro attempts ⟨⟩
  | broken failed =>
    refine damped.fails demand brings _ ?_
    rintro attempts rfl
    rcases read_failure failed with ⟨e, h⟩ | ⟨fault, h⟩ | h <;> cases h

/-! ### Runs -/

theorem damped_start (setup : Setup σ κ) : Damped setup (start fifo setup) := by
  have hcases := Upload.start_cases setup.filename setup.source setup.size setup.ends.caller
  unfold start
  generalize Upload.start setup.filename setup.source setup.size setup.ends.caller = status at *
  rcases hcases with ⟨d, u, rfl, carries, awaits, first⟩ | ⟨e, rfl⟩
  · have hout : u.out = 0 := awaits.out_eq
    have hstale : (Arrival.datagram d).prompts (stale u) = false := by
      rw [carries.prompts_eq, stale, hout]
      exact bne_self_eq_false _
    exact {
      live := by
        simp [underWay, Upload.Status.demand, fifo, Callee.packet?, carries.prompts_eq]
      echoes := by
        rintro _ ⟨⟩
        simp [underWay, Upload.Status.demand, fifo, Callee.packet?, hstale, first]
      counted := by
        rintro _ ⟨⟩
        rw [first]
        rfl
      unsent := fun _ _ _ _ => rfl
      bounded := fun _ => Nat.zero_le _
      gaveUp := nofun }
  · have hcurrent := Upload.current?_fail (.encode e)
    exact {
      live := by
        simp [underWay, Upload.marked_fail, fifo, Callee.packet?]
      echoes := by simp [hcurrent]
      counted := by simp [hcurrent]
      unsent := by simp [hcurrent]
      bounded := fun _ => Nat.zero_le _
      gaveUp := fun attempts hended => by
        cases Upload.eq_of_fail (.encode e) hended }

theorem Damped.step (h : Joined False fifoTracks setup blocks n x) (damped : Damped setup x)
    (hstep : Step fifo setup.ends x x') : Damped setup x' := by
  cases hstep with
  | callerSends v demand => exact damped.callerSends h v demand
  | callerMeets demand brings => exact damped.callerMeets h demand brings
  | @calleeOpens store d extra out idle yields =>
    exact damped.of_underWay_le extra rfl rfl rfl fun _ => underWay_calleeOpens h idle yields
  | calleeSends v active demand =>
    exact damped.of_underWay_le 0 rfl rfl rfl fun _ => underWay_calleeSends h v active demand
  | @calleeMeets state a cost out active demand brings =>
    exact damped.of_underWay_le cost rfl rfl rfl
      fun _ => underWay_calleeMeets h active demand brings
  | outLoses loses =>
    exact damped.of_underWay_le 0 rfl rfl rfl fun _ => underWay_outLoses loses
  | backLoses loses =>
    exact damped.of_underWay_le 0 rfl rfl rfl fun _ => underWay_backLoses loses

theorem damped_of_reaches (hrun : Reaches fifo setup.ends (start fifo setup) x) :
    Damped setup x := by
  induction hrun with
  | refl => exact damped_start setup
  | tail hbefore hstep ih =>
    obtain ⟨blocks, n, h⟩ := joined_of_reaches (narrow_fifo setup) hbefore
    exact ih.step h hstep

/-- Over channels that may lose packets or deliver them several times in a row, no packet is sent
more often than there have been anomalies, and once; and an upload gives up only after as many
anomalies as it may make attempts. -/
theorem echoes_add_up (setup : Setup σ κ) {x : Exchange σ κ Channel}
    (hx : Reaches fifo setup.ends (start fifo setup) x) :
    (∀ u, x.caller = .waiting u →
      u.sender.attempts = x.sent.count u.out ∧ x.sent.count u.out ≤ 1 + x.anomalies) ∧
    (∀ i, x.sent.count i ≤ 1 + x.anomalies) ∧
    (∀ attempts, x.callerResult = some (.error (.timeout attempts)) →
      max setup.ends.caller.maxRetries 1 ≤ x.anomalies) := by
  have damped := damped_of_reaches hx
  refine ⟨?_, damped.bounded, ?_⟩
  · intro u hcaller
    have hcounted := damped.counted u (by rw [hcaller]; rfl)
    rw [hcaller] at hcounted
    exact ⟨hcounted.symm, damped.bounded u.out⟩
  · intro attempts hended
    refine damped.gaveUp attempts ?_
    unfold callerResult at hended
    split at hended
    · rename_i result heq
      rw [heq, Option.some.inj hended]
    · cases hended

set_option maxRecDepth 20000 in
/-- A request that is delivered twice makes the upload send its first block twice. -/
theorem one_copy_echoes_once :
    ∃ x u, Reaches fifo oneByte.ends (start fifo oneByte) x ∧ x.caller = .waiting u ∧
      x.sent = [0, 1, 1] ∧ x.anomalies = 1 ∧ x.sent.count u.out ≤ 1 + x.anomalies := by
  have hrequest := (Relation.ReflTransGen.refl (r := Step fifo oneByte.ends)
    (a := start fifo oneByte)).tail (.callerSends (.ok ()) rfl)
  have hopen := hrequest.tail (.calleeOpens rfl .next)
  have hready := hopen.tail (.calleeSends (.ok ()) rfl rfl)
  have hcopy := hready.tail (.calleeMeets rfl rfl (.datagram .again))
  have hagain := hcopy.tail (.calleeSends (.ok ()) rfl rfl)
  have hblock := hagain.tail (.callerMeets rfl (.datagram .next))
  have hsent := hblock.tail (.callerSends (.ok ()) rfl)
  have hstale := hsent.tail (.callerMeets rfl (.datagram .next))
  have hrun := hstale.tail (.callerSends (.ok ()) rfl)
  exact ⟨_, _, hrun, rfl, rfl, rfl, ((echoes_add_up oneByte hrun).1 _ rfl).2⟩

end Exchange

end TftpUpload
