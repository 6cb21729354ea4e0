/-
  TftpUpload/Proofs/Client/PeerLock.lean
  ======================================
  **A client's endpoint keeps to one peer.**

  Datagrams arrive from anywhere at any time and wait until they are taken, one
  after the other; sending and receiving alternate as they please.  Each call
  does what it is there for (`Does`): what is sent goes to the peer, or to the
  server as long as there is none, and to receive is to refuse strangers until a
  datagram is handed on or none is left (`Receives`).  The first datagram taken
  that comes from the server's IP address decides who the peer is.  Everything
  that comes from the peer is handed on, in order, and nothing else is; everyone
  else is told once for each datagram that nobody knows them
  (`endpoint_keeps_to_one_peer`).

  Before there is a peer, the IP address alone counts, and afterwards the whole
  address.  The two rules do not get in each other's way: whoever was refused
  before the peer was known has another IP address than the peer
  (`firstFrom_eq_none`), so it would be refused afterwards as well.
-/
import TftpUpload.Client.Socket
import TftpUpload.Proofs.Unanswered

namespace TftpUpload.Client

open Wire Net

/-! ### An endpoint over time

What has happened to an endpoint is the list of its calls, and of these its state and its deeds are
made. -/

namespace Socket

namespace Deed

def arrived? : Deed → Option Datagram
  | arrived d => some d
  | _ => none

def packet? : Deed → Option Bytes
  | sent _ packet => some packet
  | _ => none

def taken? : Deed → Option Datagram
  | took _ d _ => some d
  | _ => none

def delivered? : Deed → Option Datagram
  | took _ d (.delivered _) => some d
  | _ => none

end Deed

namespace Call

def arrived? : Call → Option Datagram
  | arrives d => some d
  | _ => none

def packet? : Call → Option Bytes
  | send packet => some packet
  | _ => none

end Call

def after (server : Address) (calls : List Call) : Socket :=
  calls.foldl perform { lock := { server } }

def arrivals (s : Socket) : List Datagram := s.deeds.filterMap Deed.arrived?

def packets (s : Socket) : List Bytes := s.deeds.filterMap Deed.packet?

def taken (s : Socket) : List Datagram := s.deeds.filterMap Deed.taken?

def deliveries (s : Socket) : List Datagram := s.deeds.filterMap Deed.delivered?

end Socket

/-! ### Who the peer is

The peer is found in what the endpoint has taken from its queue, since whoever comes first there has
come first. -/

/-- The source of the first of the datagrams that comes from the server's IP address. -/
def firstFrom (server : Address) (datagrams : List Datagram) : Option Address :=
  (datagrams.find? fun d => d.source.ip = server.ip).map (·.source)

theorem firstFrom_append (server : Address) (ds ds' : List Datagram) :
    firstFrom server (ds ++ ds') = (firstFrom server ds).or (firstFrom server ds') := by
  unfold firstFrom
  rw [List.find?_append, Option.map_or]

theorem firstFrom_singleton (server : Address) (d : Datagram) :
    firstFrom server [d] = if d.source.ip = server.ip then some d.source else none := by
  unfold firstFrom
  by_cases hip : d.source.ip = server.ip <;> simp [hip]

theorem ip_of_firstFrom {server peer : Address} {ds : List Datagram}
    (h : firstFrom server ds = some peer) : peer.ip = server.ip := by
  unfold firstFrom at h
  obtain ⟨d, hd, rfl⟩ := Option.map_eq_some_iff.1 h
  simpa using List.find?_some hd

/-- As long as there is no peer, all that has been taken came from elsewhere. -/
theorem firstFrom_eq_none {server : Address} {ds : List Datagram} :
    firstFrom server ds = none ↔ ∀ d ∈ ds, d.source.ip ≠ server.ip := by
  simp [firstFrom]

namespace PeerLock

def learned (l : PeerLock) (d : Datagram) : Option Address := l.peer.or (firstFrom l.server [d])

theorem receive_eq (l : PeerLock) (d : Datagram) (bytes : Bytes) :
    l.receive d.source bytes = ({ l with peer := l.learned d },
      if l.learned d = some d.source then .delivered bytes
      else .refused d.source (some refusalDatagram)) := by
  obtain ⟨server, peer⟩ := l
  unfold learned receive
  rw [firstFrom_singleton, refusal_eq]
  cases peer with
  | some peer =>
    simp only [Option.some_or, Option.some.injEq]
    split <;> rfl
  | none =>
    by_cases hip : d.source.ip = server.ip <;> simp [hip]

end PeerLock

/-! ### What a call does

What a call adds to the deeds is said here without the endpoint's own code: whom the endpoint takes
datagrams from is a matter of addresses alone. -/

namespace Socket

/-- To receive is to refuse strangers, each with a packet to itself, until a datagram is handed on
or none is left.  The datagrams that wait come first, and those that are left last. -/
inductive Receives (l : PeerLock) (room : Nat) : List Datagram → List Deed → List Datagram → Prop
    where
  | nothing : Receives l room [] [] []
  | delivers {d : Datagram} (known : l.Accepts d.source) (rest : List Datagram) :
    Receives l room (d :: rest) [.took room d (.delivered (d.bytes.take room))] rest
  | refuses {d : Datagram} (stranger : ¬ l.Accepts d.source) {queue rest : List Datagram}
      {deeds : List Deed} (later : Receives l room queue deeds rest) :
    Receives l room (d :: queue)
      (.took room d (.refused d.source (some refusalDatagram)) :: deeds) rest

/-- What a call adds to the deeds of an endpoint, and what waits afterwards. -/
inductive Does (s : Socket) : Call → List Deed → List Datagram → Prop where
  | arrives (d : Datagram) : Does s (.arrives d) [.arrived d] (s.queue ++ [d])
  | send (packet : Bytes) :
    Does s (.send packet) [.sent (s.lock.peer.getD s.lock.server) packet] s.queue
  | recv {room : Nat} {deeds : List Deed} {rest : List Datagram}
      (receives : Receives s.lock room s.queue deeds rest) : Does s (.recv room) deeds rest

theorem recvFrom_receives (room : Nat) (lock : PeerLock) (before : List Deed)
    (queue : List Datagram) :
    ∃ deeds, Receives lock room queue deeds (recvFrom room lock before queue).queue ∧
      (recvFrom room lock before queue).deeds = before ++ deeds := by
  induction queue generalizing before with
  | nil => exact ⟨[], .nothing, (List.append_nil _).symm⟩
  | cons d rest ih =>
    by_cases hknown : lock.Accepts d.source
    · have hhandling := PeerLock.receive_of_accepts hknown (d.bytes.take room)
      unfold recvFrom
      split
      · rename_i lock' bytes heq
        rw [heq] at hhandling
        cases hhandling
        exact ⟨_, .delivers hknown rest, rfl⟩
      · rename_i heq
        rw [heq] at hhandling
        cases hhandling
    · have hreceive := PeerLock.receive_of_stranger hknown (d.bytes.take room)
      rw [refusal_eq] at hreceive
      unfold recvFrom
      rw [hreceive]
      obtain ⟨deeds, hreceives, hdeeds⟩ :=
        ih (before ++ [.took room d (.refused d.source (some refusalDatagram))])
      exact ⟨_, .refuses hknown hreceives, by rw [hdeeds, List.append_assoc]; rfl⟩

theorem perform_does (s : Socket) (call : Call) :
    ∃ deeds, Does s call deeds (s.perform call).queue ∧
      (s.perform call).deeds = s.deeds ++ deeds := by
  cases call with
  | arrives d => exact ⟨_, .arrives d, rfl⟩
  | send packet => exact ⟨_, .send packet, rfl⟩
  | recv room =>
    obtain ⟨deeds, hreceives, hdeeds⟩ := recvFrom_receives room s.lock s.deeds s.queue
    exact ⟨deeds, .recv hreceives, hdeeds⟩

theorem Receives.only_takes {l : PeerLock} {room : Nat} {queue rest : List Datagram}
    {deeds : List Deed} (h : Receives l room queue deeds rest) :
    deeds.filterMap Deed.arrived? = [] ∧ deeds.filterMap Deed.packet? = [] := by
  induction h with
  | nothing => exact ⟨rfl, rfl⟩
  | delivers known rest => exact ⟨rfl, rfl⟩
  | refuses stranger later ih => exact ih

/-- A call that brings a datagram, or a packet, is the only one to put it among the deeds. -/
theorem Does.traces {s : Socket} {call : Call} {deeds : List Deed} {rest : List Datagram}
    (h : Does s call deeds rest) :
    deeds.filterMap Deed.arrived? = call.arrived?.toList ∧
      deeds.filterMap Deed.packet? = call.packet?.toList := by
  cases h with
  | arrives d | send packet => exact ⟨rfl, rfl⟩
  | recv receives => exact receives.only_takes

theorem foldl_traces (s : Socket) (calls : List Call) :
    (calls.foldl perform s).arrivals = s.arrivals ++ calls.filterMap Call.arrived? ∧
      (calls.foldl perform s).packets = s.packets ++ calls.filterMap Call.packet? := by
  induction calls generalizing s with
  | nil => exact ⟨(List.append_nil _).symm, (List.append_nil _).symm⟩
  | cons call rest ih =>
    obtain ⟨deeds, hdoes, hdeeds⟩ := s.perform_does call
    obtain ⟨harrived, hpacket⟩ := hdoes.traces
    obtain ⟨harrivals, hpackets⟩ := ih (s.perform call)
    constructor
    · rw [List.foldl_cons, harrivals, List.filterMap_cons]
      unfold arrivals
      rw [hdeeds, List.filterMap_append, harrived]
      cases call.arrived? <;> simp
    · rw [List.foldl_cons, hpackets, List.filterMap_cons]
      unfold packets
      rw [hdeeds, List.filterMap_append, hpacket]
      cases call.packet? <;> simp

theorem after_concat (server : Address) (calls : List Call) (call : Call) :
    after server (calls ++ [call]) = (after server calls).perform call := by
  unfold after
  rw [List.foldl_append]
  rfl

end Socket

/-! ### What an endpoint keeps

Most of it is said of the datagrams that were taken: which of them were handed on, and which were
refused. -/

namespace Socket

variable {server : Address} {s : Socket}

/-- Each packet went to the peer if there was one when it was sent, and else to the server. -/
def SentToPeer (server : Address) (deeds : List Deed) : Prop :=
  ∀ before target packet, before ++ [.sent target packet] <+: deeds →
    target = (firstFrom server (before.filterMap Deed.taken?)).getD server

structure OnePeer (server : Address) (s : Socket) : Prop where
  /-- What has been taken is what has arrived, in order and each datagram once. -/
  fifo : s.arrivals = s.taken ++ s.queue
  /-- The peer is the first that was heard from the server's IP address. -/
  lock : s.lock = ⟨server, firstFrom server s.taken⟩
  sent : SentToPeer server s.deeds
  /-- What comes from the peer is handed on, and everyone else is refused. -/
  handled : ∀ room d handling, .took room d handling ∈ s.deeds →
    handling = if s.lock.peer = some d.source then .delivered (d.bytes.take room)
      else .refused d.source (some refusalDatagram)

theorem SentToPeer.concat {deeds : List Deed} (h : SentToPeer server deeds) {deed : Deed}
    (hdeed : ∀ target packet, deed = .sent target packet →
      target = (firstFrom server (deeds.filterMap Deed.taken?)).getD server) :
    SentToPeer server (deeds ++ [deed]) := by
  intro before target packet hbefore
  rcases List.prefix_concat_iff.1 hbefore with hlast | hearlier
  · obtain ⟨rfl, heq⟩ := List.append_inj' hlast rfl
    exact hdeed target packet (List.cons.inj heq).1.symm
  · exact h before target packet hearlier

theorem onePeer_opened (server : Address) : OnePeer server { lock := { server } } where
  fifo := rfl
  lock := rfl
  sent before target packet h := absurd (List.prefix_nil.1 h) (by simp)
  handled _ _ _ h := absurd h List.not_mem_nil

/-- Whatever happens without a datagram being taken leaves the peer as it is. -/
theorem OnePeer.note (h : OnePeer server s) (deed : Deed) (untaken : deed.taken? = none)
    (addressed : ∀ target packet, deed = .sent target packet → target = s.lock.target) :
    OnePeer server ⟨s.lock, s.queue ++ deed.arrived?.toList, s.deeds ++ [deed]⟩ where
  fifo := by
    have hfifo := h.fifo
    simp only [arrivals, taken] at hfifo
    cases harrived : deed.arrived? <;>
      simp [arrivals, taken, harrived, untaken, hfifo]
  lock := by
    have hlock := h.lock
    simp only [taken] at hlock
    simp [taken, untaken, hlock]
  sent := by
    apply h.sent.concat
    intro target packet hdeed
    rw [addressed target packet hdeed, PeerLock.target, h.lock]
    rfl
  handled room d handling hmem := by
    rcases List.mem_append.1 hmem with hold | hnew
    · exact h.handled room d handling hold
    · rw [← List.mem_singleton.1 hnew] at untaken
      cases untaken

theorem OnePeer.arrives (h : OnePeer server s) (d : Datagram) :
    OnePeer server (s.perform (.arrives d)) :=
  h.note (.arrived d) rfl nofun

theorem OnePeer.send (h : OnePeer server s) (packet : Bytes) :
    OnePeer server (s.perform (.send packet)) := by
  have haddressed : ∀ target packet', Deed.sent s.lock.target packet = .sent target packet' →
      target = s.lock.target := by
    rintro target packet' ⟨⟩
    rfl
  have hnote := h.note (.sent s.lock.target packet) rfl haddressed
  have hnone : (Deed.sent s.lock.target packet).arrived?.toList = [] := rfl
  rwa [hnone, List.append_nil] at hnote

/-- Whoever was refused is no peer afterwards either. -/
theorem OnePeer.learned_eq (h : OnePeer server s) (next : Datagram) {d : Datagram}
    (hd : d ∈ s.taken) :
    s.lock.learned next = some d.source ↔ s.lock.peer = some d.source := by
  unfold PeerLock.learned
  cases hpeer : s.lock.peer with
  | some peer => rw [Option.some_or]
  | none =>
    rw [h.lock] at hpeer
    have helsewhere : d.source.ip ≠ server.ip := firstFrom_eq_none.1 hpeer d hd
    rw [Option.none_or, h.lock]
    constructor
    · intro hnext
      exact absurd (ip_of_firstFrom hnext) helsewhere
    · nofun

theorem OnePeer.take {lock : PeerLock} {d : Datagram} {rest : List Datagram} {deeds : List Deed}
    (h : OnePeer server ⟨lock, d :: rest, deeds⟩) (room : Nat) :
    OnePeer server ⟨(lock.receive d.source (d.bytes.take room)).1, rest,
      deeds ++ [.took room d (lock.receive d.source (d.bytes.take room)).2]⟩ where
  fifo := by
    have hfifo := h.fifo
    simp only [arrivals, taken] at hfifo
    simp [arrivals, taken, List.filterMap_cons, Deed.arrived?, Deed.taken?, hfifo]
  lock := by
    have hlock := h.lock
    simp only [taken] at hlock
    rw [PeerLock.receive_eq]
    simp [taken, Deed.taken?, hlock, PeerLock.learned, firstFrom_append]
  sent := h.sent.concat nofun
  handled room' d' handling hmem := by
    rcases List.mem_append.1 hmem with hold | hnew
    · rw [h.handled room' d' handling hold, PeerLock.receive_eq]
      have htaken : d' ∈ taken ⟨lock, d :: rest, deeds⟩ :=
        List.mem_filterMap.2 ⟨_, hold, rfl⟩
      simp only [h.learned_eq d htaken]
    · cases List.mem_singleton.1 hnew
      rw [PeerLock.receive_eq]

theorem OnePeer.recvFrom {lock : PeerLock} {deeds : List Deed} {queue : List Datagram}
    (h : OnePeer server ⟨lock, queue, deeds⟩) (room : Nat) :
    OnePeer server (recvFrom room lock deeds queue) := by
  induction queue generalizing lock deeds with
  | nil => exact h
  | cons d rest ih =>
    have htake := h.take room
    unfold Socket.recvFrom
    split
    · rename_i heq
      rwa [heq] at htake
    · rename_i heq
      rw [heq] at htake
      exact ih htake

theorem OnePeer.perform (h : OnePeer server s) (call : Call) : OnePeer server (s.perform call) := by
  cases call with
  | arrives d => exact h.arrives d
  | send packet => exact h.send packet
  | recv room => exact OnePeer.recvFrom h room

theorem OnePeer.foldl (h : OnePeer server s) (calls : List Call) :
    OnePeer server (calls.foldl Socket.perform s) := by
  induction calls generalizing s with
  | nil => exact h
  | cons call rest ih => exact ih (h.perform call)

/-! ### One peer

When the endpoint has taken all there is, the datagrams that were taken are those that have
arrived. -/

/-- What is handed on is what has been taken from the peer. -/
theorem OnePeer.deliveries_eq (h : OnePeer server s) :
    s.deliveries = s.taken.filter fun d => s.lock.peer = some d.source := by
  have hhandled := h.handled
  unfold deliveries taken
  generalize s.deeds = deeds at hhandled
  induction deeds with
  | nil => rfl
  | cons deed rest ih =>
    have hrest := ih fun room d handling hmem =>
      hhandled room d handling (List.mem_cons_of_mem _ hmem)
    cases deed with
    | arrived d => simpa [List.filterMap_cons, Deed.delivered?, Deed.taken?] using hrest
    | sent target packet => simpa [List.filterMap_cons, Deed.delivered?, Deed.taken?] using hrest
    | took room d handling =>
      have hthis := hhandled room d handling List.mem_cons_self
      by_cases hpeer : s.lock.peer = some d.source
      · rw [if_pos hpeer] at hthis
        simp [Deed.delivered?, Deed.taken?, hthis, hpeer, hrest]
      · rw [if_neg hpeer] at hthis
        simp [List.filterMap_cons, Deed.delivered?, Deed.taken?, hthis, hpeer, hrest]

theorem OnePeer.first_arrival (h : OnePeer server s) {peer : Address}
    (hpeer : s.lock.peer = some peer) : firstFrom server s.arrivals = some peer := by
  have hlock : s.lock.peer = firstFrom server s.taken := congrArg PeerLock.peer h.lock
  rw [h.fifo, firstFrom_append, ← hlock, hpeer, Option.some_or]

theorem recvFrom_lock {lock : PeerLock} {peer : Address} (hpeer : lock.peer = some peer)
    (room : Nat) (deeds : List Deed) (queue : List Datagram) :
    (recvFrom room lock deeds queue).lock = lock := by
  induction queue generalizing deeds with
  | nil => rfl
  | cons d rest ih =>
    have hsame := PeerLock.receive_peer hpeer d.source (d.bytes.take room)
    unfold recvFrom
    split
    · rename_i heq
      rwa [heq] at hsame
    · rename_i heq
      rw [heq] at hsame
      dsimp only at hsame
      rw [hsame]
      exact ih _

/-- Once there is a peer it stays. -/
theorem foldl_lock {peer : Address} (hpeer : s.lock.peer = some peer) (calls : List Call) :
    (calls.foldl perform s).lock = s.lock := by
  induction calls generalizing s with
  | nil => rfl
  | cons call rest ih =>
    have hcall : (s.perform call).lock = s.lock := by
      cases call with
      | arrives d => rfl
      | send packet => rfl
      | recv room => exact recvFrom_lock hpeer room s.deeds s.queue
    have hrest := ih ((congrArg PeerLock.peer hcall).trans hpeer)
    exact hrest.trans hcall

/-- An endpoint of which these calls are all that has happened so far keeps to one peer. -/
structure KeepsToOnePeer (server : Address) (calls : List Call) : Prop
    extends OnePeer server (after server calls) where
  /-- Whatever has arrived is known. -/
  arrivals : (after server calls).arrivals = calls.filterMap Call.arrived?
  /-- Each packet that was to be sent has been sent once, in order. -/
  packets : (after server calls).packets = calls.filterMap Call.packet?
  /-- What the next call does, whichever it is. -/
  next : ∀ call, ∃ deeds,
    Does (after server calls) call deeds (after server (calls ++ [call])).queue ∧
      (after server (calls ++ [call])).deeds = (after server calls).deeds ++ deeds
  /-- The peer is the first that arrived from the server's IP address. -/
  first : ∀ peer, (after server calls).lock.peer = some peer →
    firstFrom server (calls.filterMap Call.arrived?) = some peer
  /-- It is set once. -/
  stays : ∀ peer, (after server calls).lock.peer = some peer →
    ∀ more, (after server (calls ++ more)).lock.peer = some peer
  /-- What has been handed on is what has been taken from the peer. -/
  delivered : (after server calls).deliveries =
    (after server calls).taken.filter fun d => (after server calls).lock.peer = some d.source

/-- However arrivals, sends and receipts alternate: the first datagram taken from the server's IP
address, which is the first to arrive from there, decides who the peer is, and this never changes.
Each packet goes to the peer, or to the server as long as there is none.  Datagrams are taken in the
order in which they arrive; what comes from the peer is handed on, as much of it as there is room
for, and each other datagram is answered with one refusal to its source. -/
theorem endpoint_keeps_to_one_peer (server : Address) (calls : List Call) :
    KeepsToOnePeer server calls := by
  have h : OnePeer server (after server calls) := (onePeer_opened server).foldl calls
  obtain ⟨harrivals, hpackets⟩ := foldl_traces { lock := { server } } calls
  refine ⟨h, harrivals, hpackets, fun call => ?_, fun peer hpeer => ?_, fun peer hpeer more => ?_,
    h.deliveries_eq⟩
  · rw [after_concat]
    exact perform_does _ call
  · have hfirst := h.first_arrival hpeer
    rwa [after, harrivals] at hfirst
  · have hlock := foldl_lock hpeer more
    unfold after at hlock hpeer ⊢
    rw [List.foldl_append, hlock, hpeer]

def interrupted : List Call :=
  [.send [1], .arrives ⟨⟨.loopback6, 5000, 0⟩, [2, 3]⟩, .arrives ⟨⟨.loopback6, 6000, 0⟩, [9]⟩,
    .recv 1, .arrives ⟨⟨.loopback6, 5000, 0⟩, [4]⟩, .recv 8, .send [5]]

theorem interrupted_keeps_to_one_peer :
    KeepsToOnePeer ⟨.loopback6, 69, 0⟩ interrupted ∧
      (after ⟨.loopback6, 69, 0⟩ interrupted).deeds =
        [.sent ⟨.loopback6, 69, 0⟩ [1], .arrived ⟨⟨.loopback6, 5000, 0⟩, [2, 3]⟩,
          .arrived ⟨⟨.loopback6, 6000, 0⟩, [9]⟩,
          .took 1 ⟨⟨.loopback6, 5000, 0⟩, [2, 3]⟩ (.delivered [2]),
          .arrived ⟨⟨.loopback6, 5000, 0⟩, [4]⟩,
          .took 8 ⟨⟨.loopback6, 6000, 0⟩, [9]⟩
            (.refused ⟨.loopback6, 6000, 0⟩ (some refusalDatagram)),
          .took 8 ⟨⟨.loopback6, 5000, 0⟩, [4]⟩ (.delivered [4]),
          .sent ⟨.loopback6, 5000, 0⟩ [5]] :=
  ⟨endpoint_keeps_to_one_peer _ _, by decide +kernel⟩

end Socket

end TftpUpload.Client
