/-
  TftpUpload/Proofs/Sender/Train.lean
  ===================================
  **Everything an upload gives to its endpoint.**

  The datagrams of an upload are fixed by its filename, its settings and the
  contents of its source: the request, and then the contents in chunks of 512
  bytes (`datagramAt`).  Neither the peer nor the sizes of the single reads have
  a say in them.  All that happens to an upload decides how far it comes and how
  often each datagram is sent, and no datagram is sent before the one in front
  of it (`datagrams_form_a_train`).  Behind them there may be one ERROR.

  An attempt at a packet is a copy of it in the train, so the bound on attempts
  (`Attends`) is the bound on copies.
-/
import TftpUpload.Proofs.Sender.Patience
import TftpUpload.Proofs.Transfer.Farewell

namespace TftpUpload

open Wire Transfer

/-! ### Chunks of the source -/

/-- The piece of the contents that block number `i + 1` carries. -/
def chunkAt (contents : Bytes) (i : Nat) : Bytes :=
  (contents.drop (i * blockSize)).take blockSize

/-- Only the last chunk is not full. -/
theorem chunkAt_short_iff {contents : Bytes} {i : Nat} (h : i ≤ contents.length / blockSize) :
    (chunkAt contents i).length < blockSize ↔ i = contents.length / blockSize := by
  simp only [chunkAt, List.length_take, List.length_drop, blockSize] at h ⊢
  omega

namespace Source

variable {source rest rest' : Source} {blocks : List Bytes} {chunk : Bytes}

/-- However the single reads go, a block is as much of the source as there is room for. -/
theorem readChunk_take (short : ∀ k, 0 < source.grant k)
    (h : source.readChunk = .ok (chunk, rest)) : chunk = source.rest.take blockSize := by
  obtain ⟨hrest, hle, -⟩ := readChunk_ok h
  rw [hrest]
  rcases Nat.lt_or_eq_of_le hle with hlt | heq
  · have hend : rest.rest = [] := readChunk_short short h hlt
    rw [hend, List.append_nil, List.take_of_length_le hle]
  · rw [← heq, List.take_left]

theorem Reads.getElem?_eq_chunkAt (short : ∀ k, 0 < source.grant k) (h : source.Reads blocks rest)
    (orderly : Orderly blocks) {i : Nat} {block : Bytes} (hblock : blocks[i]? = some block) :
    block = chunkAt source.rest i := by
  induction h with
  | none => cases hblock
  | @more blocks rest rest' chunk before read ih =>
    have hfull : Full blocks := by
      have htake := orderly.full_take (k := blocks.length) (by simp)
      rwa [List.take_left] at htake
    rcases Nat.lt_or_ge i blocks.length with hlt | hge
    · rw [List.getElem?_append_left hlt] at hblock
      exact ih (.inl hfull) hblock
    · obtain ⟨hi, hget⟩ := List.getElem?_eq_some_iff.1 hblock
      have heq : i = blocks.length := by
        rw [List.length_append, List.length_singleton] at hi
        omega
      subst heq
      have hchunk : chunk = rest.rest.take blockSize :=
        readChunk_take (before.grant_eq ▸ short) read
      rw [List.getElem_concat_length rfl] at hget
      rw [← hget, hchunk, chunkAt, before.rest_eq, ← length_flatten_of_full hfull, List.drop_left]

end Source

/-! ### Trains of datagrams

A train grows at its end in two ways: its last datagram is sent once more, or the next one for the
first time. -/

/-- Each of the datagrams number `0` to `k`, one after another, as often as `copies` says. -/
def train (datagram : Nat → Bytes) (copies : Nat → Nat) (k : Nat) : List Bytes :=
  (List.range (k + 1)).flatMap fun j => List.replicate (copies j) (datagram j)

variable {datagram : Nat → Bytes} {copies copies' : Nat → Nat} {k : Nat}

theorem train_zero : train datagram copies 0 = List.replicate (copies 0) (datagram 0) := by
  simp [train]

theorem train_succ : train datagram copies (k + 1) =
    train datagram copies k ++ List.replicate (copies (k + 1)) (datagram (k + 1)) := by
  rw [train, List.range_succ, List.flatMap_append, List.flatMap_singleton]
  rfl

theorem train_congr (h : ∀ j ≤ k, copies j = copies' j) :
    train datagram copies k = train datagram copies' k := by
  induction k with
  | zero => rw [train_zero, train_zero, h 0 (Nat.le_refl 0)]
  | succ k ih =>
    rw [train_succ, train_succ, h (k + 1) (Nat.le_refl _),
      ih fun j hj => h j (Nat.le_succ_of_le hj)]

/-- The datagrams are a train that ends with number `k`, which it has `attempts` times; no datagram
is in it more than `limit` times. -/
structure IsTrain (datagram : Nat → Bytes) (limit k attempts : Nat) (copies : Nat → Nat)
    (datagrams : List Bytes) : Prop where
  datagrams_eq : datagrams = train datagram copies k
  last : copies k = attempts
  within : ∀ j ≤ k, 1 ≤ copies j ∧ copies j ≤ limit

def withCopies (copies : Nat → Nat) (k n : Nat) : Nat → Nat :=
  fun j => if j = k then n else copies j

@[simp]
theorem withCopies_self (copies : Nat → Nat) (k n : Nat) : withCopies copies k n k = n :=
  if_pos rfl

theorem withCopies_of_ne (copies : Nat → Nat) {j k : Nat} (n : Nat) (h : j ≠ k) :
    withCopies copies k n j = copies j :=
  if_neg h

theorem train_withCopies {n : Nat} (h : k < n) (m : Nat) :
    train datagram (withCopies copies n m) k = train datagram copies k :=
  train_congr fun _ hj => withCopies_of_ne copies m (Nat.ne_of_lt (Nat.lt_of_le_of_lt hj h))

theorem train_again : train datagram (withCopies copies k (copies k + 1)) k =
    train datagram copies k ++ [datagram k] := by
  cases k with
  | zero => rw [train_zero, train_zero, withCopies_self, List.replicate_succ']
  | succ k =>
    rw [train_succ, train_succ, withCopies_self, train_withCopies (Nat.lt_succ_self k),
      List.append_assoc, List.replicate_succ']

theorem train_next : train datagram (withCopies copies (k + 1) 1) (k + 1) =
    train datagram copies k ++ [datagram (k + 1)] := by
  rw [train_succ, withCopies_self, train_withCopies (Nat.lt_succ_self k)]
  rfl

variable {limit attempts : Nat} {datagrams : List Bytes}

theorem within_withCopies {n m : Nat}
    (h : ∀ j ≤ k, j ≠ n → 1 ≤ copies j ∧ copies j ≤ limit) (hpos : 1 ≤ m) (hlimit : m ≤ limit) :
    ∀ j ≤ k, 1 ≤ withCopies copies n m j ∧ withCopies copies n m j ≤ limit := by
  intro j hj
  by_cases hjn : j = n
  · subst hjn
    rw [withCopies_self]
    exact ⟨hpos, hlimit⟩
  · rw [withCopies_of_ne _ _ hjn]
    exact h j hj hjn

theorem isTrain_first (h : 1 ≤ limit) :
    IsTrain datagram limit 0 1 (fun _ => 1) [datagram 0] where
  datagrams_eq := by rw [train_zero]; rfl
  last := rfl
  within := fun _ _ => ⟨Nat.le_refl 1, h⟩

/-- The last datagram once more. -/
theorem IsTrain.again (h : IsTrain datagram limit k attempts copies datagrams)
    (hlimit : attempts + 1 ≤ limit) :
    IsTrain datagram limit k (attempts + 1) (withCopies copies k (attempts + 1))
      (datagrams ++ [datagram k]) where
  datagrams_eq := by
    rw [h.datagrams_eq, ← h.last, train_again]
  last := withCopies_self _ _ _
  within := within_withCopies (fun j hj _ => h.within j hj) (Nat.le_add_left 1 _) hlimit

/-- The next datagram for the first time. -/
theorem IsTrain.next (h : IsTrain datagram limit k attempts copies datagrams) (hlimit : 1 ≤ limit) :
    IsTrain datagram limit (k + 1) 1 (withCopies copies (k + 1) 1)
      (datagrams ++ [datagram (k + 1)]) where
  datagrams_eq := by
    rw [h.datagrams_eq, train_next]
  last := withCopies_self _ _ _
  within := by
    apply within_withCopies _ (Nat.le_refl 1) hlimit
    intro j hj hne
    exact h.within j (Nat.le_of_lt_succ (Nat.lt_of_le_of_ne hj hne))

namespace Upload

/-! ### The datagrams of an upload -/

variable {filename : String} {source : Source} {settings : Settings} {blocks : List Bytes}
  {u : Upload}

/-- The datagrams in their order: the request, and then the chunks of the contents. -/
def datagramAt (filename : String) (settings : Settings) (contents : Bytes) : Nat → Bytes
  | 0 => (Message.writeRequest filename settings.mode).form
  | j + 1 => (Message.data (number (j + 1)) (chunkAt contents j)).form

theorem eq_datagramAt (short : ∀ k, 0 < source.grant k)
    (attends : u.Attends filename source settings blocks) {d : Bytes}
    (carries : Carries filename settings blocks blocks.length d) :
    d = datagramAt filename settings source.rest blocks.length := by
  obtain ⟨m, hm, hpacket⟩ := carries
  obtain ⟨hform, -, -⟩ := packet_ok hpacket
  rw [hform]
  generalize hlength : blocks.length = i at hm
  cases i with
  | zero =>
    cases hm
    rfl
  | succ i =>
    obtain ⟨block, hblock, rfl⟩ := Option.map_eq_some_iff.1 hm
    rw [datagramAt, attends.reads.getElem?_eq_chunkAt short attends.orderly hblock]

/-! ### Over a history

An upload that goes on has sent the train up to the packet that is out.  One that has failed may
have sent an ERROR behind it, and one that is done has sent all of it. -/

abbrev Trails (filename : String) (source : Source) (settings : Settings) (k attempts : Nat)
    (copies : Nat → Nat) (datagrams : List Bytes) : Prop :=
  IsTrain (datagramAt filename settings source.rest) (max settings.maxRetries 1) k attempts copies
    datagrams

/-- What an upload has given to its endpoint by the time it has come to a status, with what it is
about to send. -/
inductive Gives (filename : String) (source : Source) (settings : Settings) :
    Status → List Bytes → Prop where
  | waiting {blocks : List Bytes} {u : Upload} {copies : Nat → Nat} {datagrams : List Bytes}
      (attends : u.Attends filename source settings blocks)
      (trails : Trails filename source settings blocks.length u.sender.attempts copies datagrams) :
    Gives filename source settings (.waiting u) datagrams
  | sending {blocks : List Bytes} {d : Bytes} {report : Option Progress} {u : Upload}
      {copies : Nat → Nat} {datagrams : List Bytes}
      (attends : u.Attends filename source settings blocks)
      (trails : Trails filename source settings blocks.length u.sender.attempts copies datagrams) :
    Gives filename source settings (.sending d report u) datagrams
  | parting {k attempts : Nat} {copies : Nat → Nat} {d : Bytes} {failure : Failure}
      {datagrams : List Bytes} (error : IsError d)
      (trails : Trails filename source settings k attempts copies datagrams)
      (hk : k ≤ source.rest.length / blockSize + 1) :
    Gives filename source settings (.parting d failure) (datagrams ++ [d])
  | failed {k attempts : Nat} {copies : Nat → Nat} {error : Option Bytes} {failure : Failure}
      {datagrams : List Bytes} (errors : ∀ d ∈ error, IsError d)
      (trails : Trails filename source settings k attempts copies datagrams)
      (hk : k ≤ source.rest.length / blockSize + 1) :
    Gives filename source settings (.ended (.error failure)) (datagrams ++ error.toList)
  | done {attempts : Nat} {copies : Nat → Nat} {datagrams : List Bytes}
      (trails : Trails filename source settings (source.rest.length / blockSize + 1) attempts
        copies datagrams) :
    Gives filename source settings
      (.ended (.ok ⟨filename, source.rest.length / blockSize + 1, source.rest.length⟩)) datagrams

variable {attempts : Nat} {copies : Nat → Nat} {datagrams : List Bytes}

theorem fail_gives (trails : Trails filename source settings k attempts copies datagrams)
    (hk : k ≤ source.rest.length / blockSize + 1) (failure : Failure) :
    Gives filename source settings (fail failure)
      (datagrams ++ (fail failure).demand.packet?.toList) := by
  unfold fail
  split
  · rename_i d hfarewell
    exact .parting (isError_of_farewell hfarewell) trails hk
  · have hfailed : Gives filename source settings (.ended (.error failure))
        (datagrams ++ (none : Option Bytes).toList) := .failed nofun trails hk
    exact hfailed

theorem start_gives (filename : String) (source : Source) (size : Option Nat)
    {settings : Settings} (fits : ∃ d, packet (.writeRequest filename settings.mode) = .ok d) :
    Gives filename source settings (start filename source size settings)
      (start filename source size settings).demand.packet?.toList := by
  obtain ⟨d, hd⟩ := fits
  rcases start_cases filename source size settings with
    ⟨datagram, u, hstart, ⟨m, hm, hpacket⟩, awaits, first⟩ | ⟨e, hstart⟩
  · cases hm
    rw [hstart]
    have hlimit : 1 ≤ max settings.maxRetries 1 := Nat.le_max_right _ _
    have hdatagram : datagram = datagramAt filename settings source.rest 0 := (packet_ok hpacket).1
    have htrails : Trails filename source settings 0 u.sender.attempts (fun _ => 1) [datagram] := by
      rw [first, hdatagram]
      exact isTrain_first hlimit
    exact .sending ⟨awaits, first ▸ hlimit⟩ htrails
  · unfold start at hstart
    simp only [Sender.request, transmit_ok hd] at hstart
    exact absurd hstart.symm (fail_ne_sending _)

/-- An arrival adds one datagram at most: the last one again, the one behind it, or an ERROR. -/
theorem arrive_gives (short : ∀ k, 0 < source.grant k)
    (attends : u.Attends filename source settings blocks)
    (trails : Trails filename source settings blocks.length u.sender.attempts copies datagrams)
    (a : Arrival) :
    Gives filename source settings (u.arrive a)
      (datagrams ++ (u.arrive a).demand.packet?.toList) := by
  have hblocks : blocks.length ≤ source.rest.length / blockSize + 1 :=
    attends.reads.length_le attends.orderly
  generalize hstatus : u.arrive a = status
  have hproceeds : Proceeds filename source settings blocks u a status :=
    hstatus ▸ arrive_proceeds attends a
  cases hproceeds with
  | ignored handshake read other =>
    have hquiet : (Status.waiting u).demand.packet? = none := rfl
    rw [hquiet, Option.toList_none, List.append_nil]
    exact .waiting attends trails
  | @advanced chunk d report u' acked carries next first =>
    have hlength : (blocks ++ [chunk]).length = blocks.length + 1 := by simp
    have hd : d = datagramAt filename settings source.rest (blocks.length + 1) := by
      rw [← hlength] at carries ⊢
      exact eq_datagramAt short next carries
    have htrails : Trails filename source settings (blocks ++ [chunk]).length u'.sender.attempts
        (withCopies copies (blocks.length + 1) 1) (datagrams ++ [d]) := by
      rw [hlength, first, hd]
      exact trails.next (Nat.le_max_right _ _)
    exact .sending next htrails
  | @resent d u' recalls carries again counted =>
    have hd : d = datagramAt filename settings source.rest blocks.length :=
      eq_datagramAt short again carries
    have htrails : Trails filename source settings blocks.length u'.sender.attempts
        (withCopies copies blocks.length (u.sender.attempts + 1)) (datagrams ++ [d]) := by
      rw [counted, hd]
      exact trails.again (counted ▸ again.within)
    exact .sending again htrails
  | done finished =>
    have hall : blocks.flatten = source.rest := attends.reads.flatten_eq short finished
    have hlength : blocks.length = source.rest.length / blockSize + 1 := hall ▸ finished.length_eq
    rw [hall, hlength]
    rw [hlength] at trails
    simpa [Status.demand] using Gives.done trails
  | failed failure => exact fail_gives trails hblocks failure

theorem settle_gives {status : Status} {d : Bytes}
    (h : Gives filename source settings status datagrams) (demand : status.demand = .send d)
    (v : Verdict) :
    Gives filename source settings (status.settle v).1 datagrams := by
  cases h with
  | sending attends trails =>
    cases v with
    | ok _ => exact .waiting attends trails
    | error fault =>
      have hfailed : Gives filename source settings (fail (.transport fault)) (datagrams ++ []) :=
        fail_gives trails (attends.reads.length_le attends.orderly) (.transport fault)
      rwa [List.append_nil] at hfailed
  | @parting k attempts copies d' failure datagrams error trails hk =>
    have hfailed : Gives filename source settings (.ended (.error failure))
        (datagrams ++ (some d').toList) := by
      refine .failed ?_ trails hk
      rintro d ⟨⟩
      exact error
    exact hfailed
  | waiting => cases demand
  | failed => cases demand
  | done => cases demand

theorem history_gives (filename : String) {source : Source} (size : Option Nat)
    {settings : Settings} (short : ∀ k, 0 < source.grant k)
    (fits : ∃ d, packet (.writeRequest filename settings.mode) = .ok d)
    {inputs : List Input} {status : Status} {log : Log}
    (h : machine.History (start filename source size settings) inputs status log) :
    Gives filename source settings status (log.sent.toList ++ status.demand.packet?.toList) := by
  induction h with
  | start =>
    have hnothing : ({} : Log).sent.toList = [] := rfl
    rw [hnothing, List.nil_append]
    exact start_gives filename source size fits
  | @arrival inputs status log a before demand ih =>
    have hdemand : status.demand = .arrival := demand
    rw [Log.sent_note]
    rw [hdemand, packet?_arrival, Option.toList_none, List.append_nil] at ih
    generalize log.sent.toList = sent at ih ⊢
    cases ih with
    | waiting attends trails => exact arrive_gives short attends trails a
    | sending | parting | failed | done => cases demand
  | @verdict inputs status log d v before demand ih =>
    have hdemand : status.demand = .send d := demand
    have hquiet : (machine.settle status v).1.demand.packet? = none := settle_quiet hdemand v
    rw [hdemand, packet?_send, Option.toList_some] at ih
    rw [Log.sent_note, hquiet, Option.toList_none, List.append_nil, Array.toList_push]
    exact settle_gives ih hdemand v

/-! ### The form of an upload -/

/-- An upload whose request fits a packet gives its endpoint a train of datagrams, none more often
than its settings allow, and behind it one ERROR at most.  What is about to be sent counts, as does
what the endpoint refuses.  If the upload succeeds, the train carries all of the source and no
ERROR follows. -/
theorem datagrams_form_a_train (filename : String) (source : Source) (size : Option Nat)
    (settings : Settings) (short : ∀ k, 0 < source.grant k)
    (fits : ∃ d, packet (.writeRequest filename settings.mode) = .ok d)
    {inputs : List Input} {status : Status} {log : Log}
    (h : machine.History (start filename source size settings) inputs status log) :
    ∃ k copies, ∃ error : Option Bytes,
      log.sent.toList ++ status.demand.packet?.toList =
        train (datagramAt filename settings source.rest) copies k ++ error.toList ∧
      (∀ j ≤ k, 1 ≤ copies j ∧ copies j ≤ max settings.maxRetries 1) ∧
      (∀ d ∈ error, IsError d) ∧
      k ≤ source.rest.length / blockSize + 1 ∧
      (∀ j < k, (chunkAt source.rest j).length < blockSize ↔ j = source.rest.length / blockSize) ∧
      ∀ summary, status = .ended (.ok summary) →
        k = source.rest.length / blockSize + 1 ∧ error = none ∧
          summary = ⟨filename, source.rest.length / blockSize + 1, source.rest.length⟩ := by
  have hchunks : ∀ k ≤ source.rest.length / blockSize + 1, ∀ j < k,
      ((chunkAt source.rest j).length < blockSize ↔ j = source.rest.length / blockSize) :=
    fun k hk j hj => chunkAt_short_iff (Nat.le_of_lt_succ (Nat.lt_of_lt_of_le hj hk))
  have hgives := history_gives filename size short fits h
  generalize log.sent.toList ++ status.demand.packet?.toList = datagrams at hgives ⊢
  cases hgives with
  | @waiting blocks u copies datagrams attends trails =>
    have hk := attends.reads.length_le attends.orderly
    refine ⟨blocks.length, copies, none, ?_, trails.within, nofun, hk, hchunks _ hk, nofun⟩
    simpa using trails.datagrams_eq
  | @sending blocks d report u copies datagrams attends trails =>
    have hk := attends.reads.length_le attends.orderly
    refine ⟨blocks.length, copies, none, ?_, trails.within, nofun, hk, hchunks _ hk, nofun⟩
    simpa using trails.datagrams_eq
  | @parting k attempts copies d failure datagrams error trails hk =>
    refine ⟨k, copies, some d, ?_, trails.within, ?_, hk, hchunks k hk, nofun⟩
    · rw [trails.datagrams_eq, Option.toList_some]
    · rintro d' ⟨⟩
      exact error
  | @failed k attempts copies error failure datagrams errors trails hk =>
    refine ⟨k, copies, error, ?_, trails.within, errors, hk, hchunks k hk, nofun⟩
    rw [trails.datagrams_eq]
  | @done attempts copies datagrams trails =>
    refine ⟨_, copies, none, ?_, trails.within, nofun, Nat.le_refl _, hchunks _ (Nat.le_refl _), ?_⟩
    · simpa using trails.datagrams_eq
    · rintro summary ⟨⟩
      exact ⟨rfl, rfl, rfl⟩

def twoBytes : Source := { rest := [7, 8], grant := fun _ => 1 }

def twoBytesSent : List Bytes :=
  [(Message.writeRequest "a" "netascii").form, (Message.writeRequest "a" "netascii").form,
    [0, 3, 0, 1, 7, 8]]

set_option maxRecDepth 20000 in
/-- The peer is silent once, and then the upload goes through. -/
theorem two_bytes_after_a_silence :
    machine.History (start "a" twoBytes none { maxRetries := 2 })
        [.verdict (.ok ()), .arrival .silence, .verdict (.ok ()), .arrival (.datagram [0, 4, 0, 0]),
          .verdict (.ok ()), .arrival (.datagram [0, 4, 0, 1])]
        (.ended (.ok ⟨"a", 1, 2⟩)) ⟨twoBytesSent.toArray, #[⟨1, 1⟩]⟩ ∧
      ∃ copies, twoBytesSent = train (datagramAt "a" { maxRetries := 2 } [7, 8]) copies 1 := by
  have hstart : machine.History (start "a" twoBytes none { maxRetries := 2 }) [] _ {} := .start
  have hsilent := (hstart.verdict (.ok ()) rfl).arrival .silence rfl
  have hopened := (hsilent.verdict (.ok ()) rfl).arrival (.datagram [0, 4, 0, 0]) rfl
  have h : machine.History (start "a" twoBytes none { maxRetries := 2 }) _
      (.ended (.ok ⟨"a", 1, 2⟩)) ⟨twoBytesSent.toArray, #[⟨1, 1⟩]⟩ :=
    (hopened.verdict (.ok ()) rfl).arrival (.datagram [0, 4, 0, 1]) rfl
  obtain ⟨k, copies, error, hsent, -, -, -, -, hok⟩ := datagrams_form_a_train "a" twoBytes none
    { maxRetries := 2 } (fun _ => Nat.one_pos) ⟨_, rfl⟩ h
  obtain ⟨hk, herror, -⟩ := hok _ rfl
  subst hk herror
  exact ⟨h, copies, by simpa [Status.demand, twoBytes, blockSize] using hsent⟩

end Upload

end TftpUpload
