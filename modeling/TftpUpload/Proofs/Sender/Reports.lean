/-
  TftpUpload/Proofs/Sender/Reports.lean
  =====================================
  **What an upload reports, and what it has delivered.**

  A report is made when a block has been given to the endpoint for the first time
  and the endpoint has taken it.  `Tallies` compares the reports with what has
  been taken: a train of datagrams up to block `k`, and the reports of the blocks
  1 to `k`, each once however often its datagram was sent.

  The hint of a report is computed from the announced size as long as blocks are
  full, and is the number of the block where one is not.  If the announced size is
  the true one, both are the number of the last block (`hint_of_true_size`); that
  the two computations agree at multiples of 512 is because such a source is
  followed by an empty block.
-/
import TftpUpload.Proofs.Sender.Train

namespace TftpUpload

open Wire Transfer

/-! ### What the endpoint has taken

A packet that the endpoint refuses ends the upload, and is in the log all the same.  So what has
been taken is found by the verdicts. -/

namespace Transfer

def Input.verdict? : Input → Option Verdict
  | arrival _ => none
  | verdict v => some v

def verdicts (inputs : List Input) : List Verdict := inputs.filterMap Input.verdict?

def delivered (inputs : List Input) (log : Log) : List Bytes :=
  ((log.sent.toList.zip (verdicts inputs)).filter fun p => p.2.isOk).map Prod.fst

variable {σ : Type} {m : Machine σ} {start s : σ} {inputs : List Input} {log : Log}

theorem verdicts_arrival (inputs : List Input) (a : Arrival) :
    verdicts (inputs ++ [.arrival a]) = verdicts inputs := by
  simp [verdicts, List.filterMap_append, List.filterMap_cons, Input.verdict?]

theorem verdicts_verdict (inputs : List Input) (v : Verdict) :
    verdicts (inputs ++ [.verdict v]) = verdicts inputs ++ [v] := by
  simp [verdicts, Input.verdict?]

/-- A packet that is sent waits for one verdict. -/
theorem Machine.History.length_verdicts (h : m.History start inputs s log) :
    log.sent.toList.length = (verdicts inputs).length := by
  induction h with
  | start => rfl
  | arrival a before demand ih =>
    rw [Log.sent_note, ih, verdicts_arrival]
  | verdict v before demand ih =>
    rw [Log.sent_note, Array.toList_push, verdicts_verdict, List.length_append, List.length_append,
      ih]
    rfl

theorem delivered_arrival (inputs : List Input) (log : Log) (a : Arrival)
    (report : Option Progress) :
    delivered (inputs ++ [.arrival a]) (log.note report) = delivered inputs log := by
  rw [delivered, delivered, verdicts_arrival, Log.sent_note]

theorem Machine.History.delivered_verdict (h : m.History start inputs s log) (packet : Bytes)
    (v : Verdict) (report : Option Progress) :
    delivered (inputs ++ [.verdict v]) ({ log with sent := log.sent.push packet }.note report) =
      delivered inputs log ++ if v.isOk then [packet] else [] := by
  unfold delivered
  rw [Log.sent_note, Array.toList_push, verdicts_verdict, List.zip_append h.length_verdicts]
  cases v <;> simp [Except.isOk, Except.toBool]

end Transfer

/-! ### What goes with a packet -/

namespace Sender

variable {s s' : Sender}

theorem lastSent_retransmit (s : Sender) : s.retransmit.1.lastSent = s.lastSent := by
  unfold retransmit
  split
  · rfl
  · split <;> rfl

theorem lastSent_silence (s : Sender) : s.silence.1.lastSent = s.lastSent := by
  unfold silence
  split
  · exact lastSent_retransmit s
  · exact lastSent_retransmit s
  · rfl

theorem lastSent_acknowledged (s : Sender) (expected n : UInt16) :
    (s.acknowledged expected n).1.lastSent = s.lastSent := by
  unfold acknowledged
  split
  · dsimp only
    split <;> rfl
  · exact lastSent_retransmit s

theorem lastSent_receive {m : Message} {step : Step} (h : s.receive m = (s', .ok step)) :
    s'.lastSent = s.lastSent := by
  unfold receive at h
  split at h
  · cases h
  · split at h <;> cases h <;> rfl
  · rename_i expected n _
    have hlast := lastSent_acknowledged s expected n
    cases h
    exact hlast
  · cases h

end Sender

namespace Upload

variable {filename : String} {source : Source} {settings : Settings} {size : Option Nat}
  {blocks : List Bytes} {u u' : Upload} {a : Arrival} {datagram : Bytes} {report : Option Progress}

/-- The report that goes with a packet that an upload sends, and the hint that it keeps. -/
inductive Bears (u : Upload) : Option Progress → Upload → Prop where
  /-- The packet that is out is sent again, and not reported. -/
  | again {u' : Upload} (same : u'.sender.lastSent = u.sender.lastSent) (kept : u'.hint = u.hint) :
    Bears u none u'
  | block {u' : Upload} {n hint : UInt16} {chunk : Bytes}
      (out : u'.sender.lastSent = some (.data n chunk))
      (computed : hint = if chunk.length < blockSize then n else u.hint) (kept : u'.hint = hint) :
    Bears u (some ⟨n, hint⟩) u'

theorem report_of_transmit {m : Message} (report : Option Progress) {report' : Option Progress}
    (h : u.transmit m report = .sending datagram report' u') : u' = u ∧ report' = report := by
  unfold transmit at h
  split at h
  · cases h
    exact ⟨rfl, rfl⟩
  · exact absurd h (fail_ne_sending _)

theorem sendBlock_bears (h : u.sendBlock = .sending datagram report u') : Bears u report u' := by
  unfold sendBlock at h
  split at h
  · exact absurd h (fail_ne_sending _)
  · dsimp only [Sender.block] at h
    obtain ⟨rfl, rfl⟩ := report_of_transmit _ h
    exact .block rfl rfl rfl

theorem follow_bears {step : Sender.Step} (h : u.follow step = .sending datagram report u') :
    Bears u report u' := by
  cases step with
  | readBlock => exact sendBlock_bears h
  | resend m =>
    have htransmit : u.transmit m none = .sending datagram report u' := h
    obtain ⟨rfl, rfl⟩ := report_of_transmit none htransmit
    exact .again rfl rfl
  | wait => cases h
  | done => cases h
  | giveUp attempts => exact absurd h (fail_ne_sending (.timeout attempts))

/-- Only the packet that is out and the hint matter. -/
theorem Bears.of_same {sender : Sender} (h : Bears { u with sender } report u')
    (same : sender.lastSent = u.sender.lastSent) : Bears u report u' := by
  cases h with
  | again same' kept => exact .again (same'.trans same) kept
  | block out computed kept => exact .block out computed kept

theorem arrive_bears (h : u.arrive a = .sending datagram report u') : Bears u report u' := by
  unfold arrive at h
  split at h
  · split at h
    · rename_i sender step hreceive
      exact (follow_bears h).of_same (Sender.lastSent_receive hreceive)
    · exact absurd h (fail_ne_sending _)
  · exact (follow_bears h).of_same (Sender.lastSent_silence u.sender)
  · exact absurd h (fail_ne_sending _)

/-! ### Tallies -/

def reportAt (contents : Bytes) (size : Option Nat) (i : Nat) : Progress :=
  ⟨number (i + 1), if (chunkAt contents i).length < blockSize then number (i + 1)
    else Source.blockCountHint size⟩

/-- The datagrams up to block `k` have been taken, each block at least once, and the blocks have
been reported, each exactly once. -/
structure Tallies (filename : String) (source : Source) (settings : Settings) (size : Option Nat)
    (k : Nat) (taken : List Bytes) (reports : List Progress) : Prop where
  train : ∃ copies, taken = train (datagramAt filename settings source.rest) copies k ∧
    ∀ j, 1 ≤ j → j ≤ k → 1 ≤ copies j
  reports : reports = (List.range k).map (reportAt source.rest size)
  within : k ≤ source.rest.length / blockSize + 1

variable {k : Nat} {taken : List Bytes} {reports : List Progress}

theorem tallies_nothing : Tallies filename source settings size 0 [] [] where
  train := ⟨fun _ => 0, by rw [train_zero]; rfl, fun j hpos hj => by omega⟩
  reports := rfl
  within := Nat.zero_le _

theorem Tallies.again (h : Tallies filename source settings size k taken reports) :
    Tallies filename source settings size k
      (taken ++ [datagramAt filename settings source.rest k]) reports where
  train := by
    obtain ⟨copies, rfl, hpositive⟩ := h.train
    refine ⟨_, train_again.symm, ?_⟩
    intro j hpos hj
    by_cases hjk : j = k
    · rw [hjk, withCopies_self]
      exact Nat.succ_le_succ (Nat.zero_le _)
    · rw [withCopies_of_ne _ _ hjk]
      exact hpositive j hpos hj
  reports := h.reports
  within := h.within

theorem Tallies.next (h : Tallies filename source settings size k taken reports)
    (hk : k + 1 ≤ source.rest.length / blockSize + 1) :
    Tallies filename source settings size (k + 1)
      (taken ++ [datagramAt filename settings source.rest (k + 1)])
      (reports ++ [reportAt source.rest size k]) where
  train := by
    obtain ⟨copies, rfl, hpositive⟩ := h.train
    refine ⟨_, train_next.symm, ?_⟩
    intro j hpos hj
    by_cases hjk : j = k + 1
    · rw [hjk, withCopies_self]
    · rw [withCopies_of_ne _ _ hjk]
      exact hpositive j hpos (by omega)
  reports := by rw [h.reports, List.range_succ, List.map_append, List.map_singleton]
  within := hk

/-! ### Over a history -/

/-- What has been taken of an upload that has come to a status, and what it has reported. -/
inductive Reported (filename : String) (source : Source) (settings : Settings)
    (size : Option Nat) : Status → List Bytes → List Progress → Prop where
  | waiting {blocks : List Bytes} {u : Upload} {taken : List Bytes} {reports : List Progress}
      (attends : u.Attends filename source settings blocks)
      (hint : Full blocks → u.hint = Source.blockCountHint size)
      (tallies : Tallies filename source settings size blocks.length taken reports) :
    Reported filename source settings size (.waiting u) taken reports
  /-- The tallies before the packet is taken, and those after it. -/
  | sending {blocks : List Bytes} {u : Upload} {datagram : Bytes} {report : Option Progress}
      {k : Nat} {taken : List Bytes} {reports : List Progress}
      (attends : u.Attends filename source settings blocks)
      (hint : Full blocks → u.hint = Source.blockCountHint size)
      (before : Tallies filename source settings size k taken reports)
      (after : Tallies filename source settings size blocks.length (taken ++ [datagram])
        (reports ++ report.toList)) :
    Reported filename source settings size (.sending datagram report u) taken reports
  | parting {datagram : Bytes} {failure : Failure} {k : Nat} {taken : List Bytes}
      {reports : List Progress} (error : IsError datagram)
      (tallies : Tallies filename source settings size k taken reports) :
    Reported filename source settings size (.parting datagram failure) taken reports
  | ended {result : Except Failure Summary} {k : Nat} {error : Option Bytes} {taken : List Bytes}
      {reports : List Progress} (errors : ∀ d ∈ error, IsError d)
      (tallies : Tallies filename source settings size k taken reports) :
    Reported filename source settings size (.ended result) (taken ++ error.toList) reports

theorem reported_ended (result : Except Failure Summary)
    (tallies : Tallies filename source settings size k taken reports) :
    Reported filename source settings size (.ended result) taken reports := by
  have hended : Reported filename source settings size (.ended result)
      (taken ++ (none : Option Bytes).toList) reports := .ended nofun tallies
  rwa [Option.toList_none, List.append_nil] at hended

theorem fail_reported (failure : Failure)
    (tallies : Tallies filename source settings size k taken reports) :
    Reported filename source settings size (fail failure) taken reports := by
  unfold fail
  split
  · rename_i datagram hfarewell
    exact .parting (isError_of_farewell hfarewell) tallies
  · exact reported_ended _ tallies

/-- A block that is sent for the first time bears its report. -/
theorem Bears.reportAt (short : ∀ k, 0 < source.grant k) {chunk : Bytes}
    (h : Bears u report u') (attends : u.Attends filename source settings blocks)
    (hint : u.hint = Source.blockCountHint size)
    (next : u'.Attends filename source settings (blocks ++ [chunk])) :
    report = some (reportAt source.rest size blocks.length) ∧
      (Full (blocks ++ [chunk]) → u'.hint = Source.blockCountHint size) := by
  have hlast : u'.sender.lastSent = some (.data (number (blocks.length + 1)) chunk) := by
    rw [next.lastSent, List.length_append, List.length_singleton, packetAt_concat]
  have hchunk : chunk = chunkAt source.rest blocks.length :=
    next.reads.getElem?_eq_chunkAt short next.orderly (by simp)
  cases h with
  | again same kept =>
    -- the packet before has another number
    have hsame : packetAt filename settings blocks blocks.length =
        some (.data (number (blocks.length + 1)) chunk) := by
      rw [← attends.lastSent, ← same, hlast]
    have hnumber := number?_packetAt hsame
    exact absurd (Option.some.inj hnumber).symm (number_ne_succ blocks.length)
  | @block _ n hint' chunk' out computed kept =>
    rw [hlast] at out
    cases out
    rw [hint] at computed
    refine ⟨?_, ?_⟩
    · rw [Upload.reportAt, ← hchunk, computed]
    · intro hfull
      have hlength : chunk.length = blockSize := hfull chunk (by simp)
      rw [kept, computed, if_neg (Nat.not_lt_of_le (Nat.le_of_eq hlength.symm))]

theorem arrive_reported (short : ∀ k, 0 < source.grant k)
    (attends : u.Attends filename source settings blocks)
    (hint : Full blocks → u.hint = Source.blockCountHint size)
    (tallies : Tallies filename source settings size blocks.length taken reports) (a : Arrival) :
    Reported filename source settings size (u.arrive a) taken reports := by
  generalize hstatus : u.arrive a = status
  have hreacts : Reacts filename source settings blocks u a status :=
    hstatus ▸ arrive_reacts attends.toAwaits a
  cases hreacts with
  | ignored stale other => exact .waiting attends hint tallies
  | @advanced chunk datagram report u' acked full carries next first =>
    have hnext := next.attends (arrive_patient attends.patient hstatus)
    have hlength : (blocks ++ [chunk]).length = blocks.length + 1 := by simp
    obtain ⟨rfl, hkept⟩ := (arrive_bears hstatus).reportAt short attends (hint full) hnext
    refine .sending hnext hkept tallies ?_
    rw [← hlength] at carries
    rw [eq_datagramAt short hnext carries, hlength]
    exact tallies.next (hlength ▸ hnext.reads.length_le hnext.orderly)
  | @resent datagram u' recalls carries again counted =>
    have hagain := again.attends (arrive_patient attends.patient hstatus)
    have hkept : u'.hint = u.hint := by
      cases arrive_bears hstatus with
      | again same kept => exact kept
    refine .sending hagain (fun full => hkept.trans (hint full)) tallies ?_
    rw [eq_datagramAt short hagain carries, Option.toList_none, List.append_nil]
    exact tallies.again
  | done acked finished => exact reported_ended _ tallies
  | unread | gaveUp | remote | unexpected | broken => exact fail_reported _ tallies

theorem settle_reported {status : Status} (h : Reported filename source settings size status taken
      reports) (demand : status.demand = .send datagram) (v : Verdict) :
    Reported filename source settings size (status.settle v).1
      (taken ++ if v.isOk then [datagram] else []) (reports ++ (status.settle v).2.toList) := by
  cases h with
  | sending attends hint before after =>
    cases demand
    cases v with
    | ok _ => exact .waiting attends hint after
    | error fault =>
      have hended := fail_reported (.transport fault) before
      simpa [Except.isOk, Except.toBool, Status.settle] using hended
  | @parting _ failure k _ _ error tallies =>
    cases demand
    cases v with
    | ok _ =>
      have hended : Reported filename source settings size (.ended (.error failure))
          (taken ++ (some datagram).toList) reports := by
        refine .ended ?_ tallies
        rintro d ⟨⟩
        exact error
      simpa [Except.isOk, Except.toBool, Status.settle] using hended
    | error fault =>
      simpa [Except.isOk, Except.toBool, Status.settle] using reported_ended _ tallies
  | waiting | ended => cases demand

theorem start_reported (filename : String) (source : Source) (size : Option Nat)
    (settings : Settings) :
    Reported filename source settings size (start filename source size settings) [] [] := by
  rcases start_cases filename source size settings with
    ⟨datagram, u, hstart, carries, awaits, first⟩ | ⟨e, hstart⟩
  · have hhint : u.hint = Source.blockCountHint size := by
      unfold start at hstart
      dsimp only [Sender.request] at hstart
      obtain ⟨rfl, -⟩ := report_of_transmit none hstart
      rfl
    have hlimit : u.sender.attempts ≤ max settings.maxRetries 1 := by
      rw [first]
      exact Nat.le_max_right _ _
    have hdatagram : datagram = datagramAt filename settings source.rest 0 := by
      obtain ⟨m, hm, hpacket⟩ := carries
      cases hm
      exact (packet_ok hpacket).1
    rw [hstart]
    refine .sending ⟨awaits, hlimit⟩ (fun _ => hhint) tallies_nothing ?_
    rw [hdatagram, Option.toList_none, List.append_nil]
    exact tallies_nothing.again
  · rw [hstart]
    exact fail_reported _ tallies_nothing

theorem history_reported (filename : String) {source : Source} (size : Option Nat)
    (settings : Settings) (short : ∀ k, 0 < source.grant k) {inputs : List Input} {status : Status}
    {log : Log} (h : machine.History (start filename source size settings) inputs status log) :
    Reported filename source settings size status (delivered inputs log) log.progress.toList := by
  induction h with
  | start => exact start_reported filename source size settings
  | @arrival inputs status log a before demand ih =>
    rw [delivered_arrival, Log.progress_note]
    generalize delivered inputs log = taken at ih ⊢
    cases ih with
    | @waiting blocks u _ _ attends hint tallies =>
      have hquiet : (machine.arrive (.waiting u) a).2 = none := rfl
      rw [hquiet, Option.toList_none, List.append_nil]
      exact arrive_reported short attends hint tallies a
    | sending | parting | ended => cases demand
  | @verdict inputs status log datagram v before demand ih =>
    rw [before.delivered_verdict, Log.progress_note]
    exact settle_reported ih demand v

theorem Reported.tallies {status : Status}
    (h : Reported filename source settings size status taken reports) :
    ∃ k, ∃ error : Option Bytes, ∃ before, taken = before ++ error.toList ∧
      (∀ d ∈ error, IsError d) ∧ Tallies filename source settings size k before reports := by
  cases h with
  | waiting attends hint tallies => exact ⟨_, none, taken, by simp, nofun, tallies⟩
  | sending attends hint before after => exact ⟨_, none, taken, by simp, nofun, before⟩
  | parting error tallies => exact ⟨_, none, taken, by simp, nofun, tallies⟩
  | ended errors tallies => exact ⟨_, _, _, rfl, errors, tallies⟩

/-! ### Hints

A size says how many blocks there will be, and the empty block behind a source of full ones is among
them. -/

/-- If the size is the true one, and has few enough blocks for a word, all hints are the number of
the last block. -/
theorem hint_of_true_size {contents : Bytes} {i : Nat} (hi : i ≤ contents.length / blockSize)
    (few : contents.length / blockSize + 1 ≤ 65535) :
    (reportAt contents (some contents.length) i).hint =
      number (contents.length / blockSize + 1) := by
  unfold reportAt
  dsimp only
  split
  · rename_i hshort
    rw [(chunkAt_short_iff hi).1 hshort]
  · simp only [Source.blockCountHint, if_pos (Nat.lt_succ_of_le few)]
    rfl

theorem Tallies.hints
    (h : Tallies filename source settings (some source.rest.length) k taken reports)
    (few : source.rest.length / blockSize + 1 ≤ 65535) :
    ∀ report ∈ reports, report.hint.toNat = source.rest.length / blockSize + 1 := by
  rw [h.reports]
  intro report hreport
  obtain ⟨i, hi, rfl⟩ := List.mem_map.1 hreport
  have hwithin := h.within
  have hlast : i ≤ source.rest.length / blockSize := by
    rw [List.mem_range] at hi
    omega
  rw [hint_of_true_size hlast few, number, UInt16.toNat_ofNat', Nat.mod_eq_of_lt (by omega)]

end Upload

end TftpUpload
