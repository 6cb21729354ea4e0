/-
  TftpUpload/Proofs/Receiver/OneFile.lean
  =======================================
  **A reception asks its storage about its own file only.**

  Whatever a session or a reception does with a storage, it does by asking it,
  and it asks about the file that its request named (`start_asks`,
  `react_asks`).  The destination that it has open is that file, and the name
  that it would discard is that name (`Within`).
-/
import TftpUpload.Proofs.Server.Service
import TftpUpload.Proofs.Storage.Procedure

namespace TftpUpload

open Wire Transfer Storage

variable {σ κ α β : Type} {owner : κ → String} {names : String → Prop}

/-! ### Storages -/

namespace Storage

def gather (r : α × β × σ) : (α × β) × σ := ((r.1, r.2.1), r.2.2)

def Leaves (owner : κ → String) (names : String → Prop) {ε : Type} (result : Except ε κ) : Prop :=
  ∀ k, result = .ok k → names (owner k)

theorem leaves_ok {ε : Type} {k : κ} (h : names (owner k)) :
    Leaves owner names (.ok k : Except ε κ) := by
  rintro k' ⟨⟩
  exact h

theorem leaves_error {ε : Type} (e : ε) : Leaves owner names (.error e : Except ε κ) := by
  rintro k ⟨⟩

theorem writeWithin_asks (turns : Nat) {k : κ} (h : names (owner k)) (bytes : Bytes) :
    Asks owner names (Leaves owner names) fun _ st s => st.writeWithin turns k bytes s := by
  induction turns generalizing k bytes with
  | zero => exact .done (leaves_ok h)
  | succ turns ih =>
    cases hempty : bytes.isEmpty with
    | true =>
      refine (Asks.done (leaves_ok h)).of_eq fun _ st s => ?_
      rw [writeWithin, hempty]
      rfl
    | false =>
      refine (Asks.ask (.write k bytes) h (fun result _ st s =>
        result.casesOn (fun fault => (.error fault, s)) fun written =>
          if written.1 = 0 then (.error .writeZero, s)
          else st.writeWithin turns written.2 (bytes.drop written.1) s) ?_).of_eq fun _ st s => ?_
      · rintro (fault | ⟨n, k'⟩) hk
        · exact .done (leaves_error fault)
        · by_cases hn : n = 0
          · simp only [if_pos hn]
            exact .done (leaves_error _)
          · simp only [if_neg hn]
            exact ih (hk k' rfl) _
      · rw [writeWithin, hempty]
        simp only [Bool.false_eq_true, if_false, ask]
        obtain ⟨result, s'⟩ := st.write k bytes s
        cases result <;> rfl

end Storage

/-! ### Sessions

What a session keeps is what it has been given by its storage, so the handle and the name that it
keeps are those of the file that was asked for. -/

namespace Session

variable {s : Session κ}

structure Owns (owner : κ → String) (names : String → Prop) (s : Session κ) : Prop where
  filename : ∀ n, s.filename = some n → names n
  handle : ∀ k, s.destination = some k → names (owner k)

structure Within (owner : κ → String) (names : String → Prop) (s : Session κ) : Prop extends
    s.Owns owner names where
  opened : s.phase = .new → ∀ n, names n

structure Advanced (owner : κ → String) (names : String → Prop)
    (r : Session κ × Except Failure Step) : Prop where
  owns : r.1.Owns owner names
  opened : ∀ answer, r.2 = .ok answer → r.1.phase ≠ .new

theorem owns_new : ({} : Session κ).Owns owner names where
  filename := nofun
  handle := nofun

theorem Owns.refuses (h : s.Owns owner names) (failure : Failure) :
    Advanced owner names (s, .error failure) where
  owns := h
  opened := nofun

theorem Owns.fail (h : s.Owns owner names) : s.fail.Within owner names := by
  unfold Session.fail
  split
  · rename_i last hphase
    exact ⟨h, fun hnew => by rw [hphase] at hnew; cases hnew⟩
  · exact ⟨⟨h.filename, nofun⟩, nofun⟩

theorem accept_asks (h : s.Owns owner names) {filename : String} (asked : names filename) :
    Asks owner names (Advanced owner names) fun _ st store =>
      gather (s.accept st filename store) := by
  refine (Asks.ask (.create filename) asked (fun result _ _ store =>
    result.casesOn
      (fun refusal =>
        (({ s with phase := .opening }, .error (.rejected refusal.code refusal.message)), store))
      fun k =>
        (({ s with phase := .receiving 0, destination := some k, filename := some filename },
          .ok (.reply (.ack 0))), store)) ?_).of_eq fun _ st store => ?_
  · rintro (refusal | k) hk
    · exact .done ⟨⟨h.filename, h.handle⟩, nofun⟩
    · refine .done ⟨⟨?_, ?_⟩, nofun⟩
      · rintro n ⟨⟩
        exact asked
      · rintro k' ⟨⟩
        exact hk k rfl
  · unfold accept
    simp only [ask]
    obtain ⟨result, store'⟩ := st.create filename store
    cases result <;> rfl

def flushed (s : Session κ) (block : UInt16) :
    Except Fault Unit → Session κ × Except Failure Step
  | .error fault => (s, .error (writeFailed fault))
  | .ok () =>
    ({ s with phase := .complete block, destination := none }, .ok (.complete (.ack block)))

theorem Owns.flushed (h : s.Owns owner names) (block : UInt16) (result : Except Fault Unit) :
    Advanced owner names (s.flushed block result) := by
  cases result with
  | error fault => exact h.refuses _
  | ok _ => exact ⟨⟨h.filename, nofun⟩, nofun⟩

theorem write_asks (h : s.Owns owner names) (block : UInt16) (payload : Bytes) :
    Asks owner names (Advanced owner names) fun _ st store =>
      gather (s.write st block payload store) := by
  cases hk : s.destination with
  | none =>
    refine (Asks.done (h.refuses (.protocol "destination is closed"))).of_eq fun _ st store => ?_
    rw [write, hk]
    rfl
  | some k =>
    refine ((writeWithin_asks payload.length (h.handle k hk) payload).bind
      (fun result _ st store =>
        result.casesOn (fun fault => ((s, .error (writeFailed fault)), store)) fun k' =>
          if payload.length < blockSize then
            ((s.counted k' block payload).flushed block (st.flush k' store).1,
              (st.flush k' store).2)
          else
            (({ s.counted k' block payload with phase := .receiving block },
              .ok (.reply (.ack block))), store)) ?_).of_eq fun _ st store => ?_
    · rintro (fault | k') hleaves
      · exact .done (h.refuses _)
      · have hcounted : (s.counted k' block payload).Owns owner names := by
          refine ⟨h.filename, ?_⟩
          rintro _ ⟨⟩
          exact hleaves k' rfl
        by_cases hshort : payload.length < blockSize
        · simp only [if_pos hshort]
          exact .ask (.flush k') (hleaves k' rfl)
            (fun result _ _ store => ((s.counted k' block payload).flushed block result, store))
            fun result _ => .done (hcounted.flushed block result)
        · simp only [if_neg hshort]
          exact .done ⟨⟨hcounted.filename, hcounted.handle⟩, nofun⟩
    · rw [write, hk]
      dsimp only
      rw [writeAll]
      obtain ⟨result, store'⟩ := st.writeWithin payload.length k payload store
      cases result with
      | error fault => rfl
      | ok k' =>
        dsimp only
        split
        · obtain ⟨result, store''⟩ := st.flush k' store'
          cases result <;> rfl
        · rfl

/-- A session advances by asking about its file, if no other is requested of it. -/
theorem advance_asks (h : s.Owns owner names) {m : Message}
    (asked : ∀ name mode, s.phase = .new → m = .writeRequest name mode → names name) :
    Asks owner names (Advanced owner names) fun _ st store => gather (s.advance st m store) := by
  -- All packets but the request that opens it and the next block leave the session as it is.
  have hrefuses : ∀ failure, Asks owner names (Advanced owner names) fun _ _ store =>
      ((s, .error failure), store) := fun failure => .done (h.refuses failure)
  have hrepeats : ∀ answer, s.phase ≠ .new → Asks owner names (Advanced owner names)
      fun _ _ store => ((s, .ok answer), store) := fun answer hopened =>
    .done ⟨h, fun _ _ => hopened⟩
  unfold advance
  split
  · exact hrefuses _
  · rename_i hphase
    exact accept_asks h (asked _ _ hphase rfl)
  · rename_i last _ _ hphase
    split
    · exact hrepeats _ (by rw [hphase]; exact nofun)
    · exact hrefuses _
  · rename_i last block payload hphase
    split
    · exact hrepeats _ (by rw [hphase]; exact nofun)
    · split
      · exact write_asks h block payload
      · exact hrefuses _
  · rename_i last block _ hphase
    split
    · exact hrepeats _ (by rw [hphase]; exact nofun)
    · exact hrefuses _
  · exact hrefuses _

theorem step_asks (h : s.Owns owner names) (m : Message)
    (asked : ∀ name mode, s.phase = .new → m = .writeRequest name mode → names name) :
    Asks owner names (fun r => r.1.Within owner names) fun _ st store =>
      gather (s.step st m store) := by
  refine ((advance_asks h asked).map (fun r =>
    r.2.casesOn (fun failure => (r.1.fail, .error failure)) fun answer => (r.1, .ok answer))
    ?_).of_eq fun _ st store => ?_
  · rintro ⟨s', failure | answer⟩ hadvanced
    · exact hadvanced.owns.fail
    · exact ⟨hadvanced.owns, fun hnew => absurd hnew (hadvanced.opened answer rfl)⟩
  · unfold step
    obtain ⟨s', result, store'⟩ := s.advance st m store
    cases result <;> rfl

end Session

/-! ### Receptions

A reception that has failed has still to remove its file, and that is the last thing it asks. -/

namespace Reception

inductive Within (owner : κ → String) (names : String → Prop) : Status κ → Prop where
  | waiting {r : Reception κ} (session : r.session.Within owner names) :
    Within owner names (.waiting r)
  | replying {packet : Bytes} {r : Reception κ} (session : r.session.Within owner names) :
    Within owner names (.replying packet r)
  | completing {packet : Bytes} {s : Session κ} (session : s.Within owner names) :
    Within owner names (.completing packet s)
  | lingering {s : Session κ} {summary : Summary} (session : s.Within owner names) :
    Within owner names (.lingering s summary)
  | repeating {packet : Bytes} {s : Session κ} {summary : Summary}
      (session : s.Within owner names) : Within owner names (.repeating packet s summary)
  | parting {packet : Bytes} {failure : Failure} {created : Option String}
      (filename : ∀ n, created = some n → names n) :
    Within owner names (.parting packet failure created)
  | ended {result : Except Failure Summary} : Within owner names (.ended result)

variable {s : Session κ}

theorem abandon_asks (failure : Failure) {created : Option String}
    (h : ∀ n, created = some n → names n) :
    Asks owner names (Within owner names) fun _ st store => abandon st failure created store := by
  cases created with
  | none => exact .done .ended
  | some name =>
    exact .ask (.discard name) (h name rfl)
      (fun _ _ _ store => (Status.ended (.error failure), store)) fun _ _ => .done .ended

theorem fail_asks (failure : Failure) (h : ∀ n, s.filename = some n → names n) :
    Asks owner names (Within owner names) fun _ st store => fail st failure s store := by
  unfold fail
  split
  · exact .done (.parting h)
  · exact abandon_asks failure h

theorem answer_asks (maxRetries : Nat) (h : s.Within owner names) (step : Session.Step) :
    Asks owner names (Within owner names) fun _ st store =>
      answer st maxRetries s step store := by
  unfold answer
  split
  · split
    · exact .done (.replying h)
    · exact fail_asks _ h.filename
  · split
    · exact .done (.completing h)
    · exact fail_asks _ h.filename

def gather (r : State σ κ × Option Progress) : (Status κ × Option Progress) × σ :=
  ((r.1.1, r.2), r.1.2)

theorem gather_eq_iff {r : State σ κ × Option Progress} {status : Status κ}
    {report : Option Progress} {store : σ} :
    gather r = ((status, report), store) ↔ r = ((status, store), report) := by
  obtain ⟨⟨status', store'⟩, report'⟩ := r
  simp only [gather, Prod.mk.injEq, and_right_comm]

theorem gather_asks {f : (σ : Type) → Storage σ κ → σ → State σ κ}
    (h : Asks owner names (Within owner names) f) (report : Option Progress) :
    Asks owner names (fun r => Within owner names r.1) fun σ st store =>
      gather (f σ st store, report) :=
  h.map (fun status => (status, report)) fun _ hstatus => hstatus

theorem feed_asks (maxRetries : Nat) (h : s.Owns owner names) {m : Message}
    (asked : ∀ name mode, s.phase = .new → m = .writeRequest name mode → names name) :
    Asks owner names (fun r => Within owner names r.1) fun _ st store =>
      gather (feed st maxRetries s m store) := by
  refine ((Session.step_asks h m asked).bind (fun r _ st store =>
    r.2.casesOn (fun failure => gather (fail st failure r.1 store, none)) fun step =>
      gather (answer st maxRetries r.1 step store,
        step.casesOn
          (fun _ => if r.1.blocks = s.blocks then none else some ⟨r.1.lastAcked, 0⟩)
          fun _ => none)) ?_).of_eq fun _ st store => ?_
  · rintro ⟨s', failure | step⟩ hwithin
    · exact gather_asks (fail_asks failure hwithin.filename) none
    · exact gather_asks (answer_asks maxRetries hwithin step) _
  · unfold feed
    obtain ⟨s', result, store'⟩ := s.step st m store
    cases result with
    | error failure => rfl
    | ok step => cases step <;> rfl

/-- A reception asks about the file that its request names, and about no other. -/
theorem start_asks (connected : Bool) {request : Bytes} (settings : Settings)
    (asked : ∀ name mode, decode request = .ok (.writeRequest name mode) → names name) :
    Asks owner names (Within owner names) fun _ st store =>
      start st connected request settings store := by
  unfold start
  split
  · split
    · rename_i m hdecode
      exact (feed_asks settings.maxRetries Session.owns_new fun name mode _ hm =>
        asked name mode (hm ▸ hdecode)).map Prod.fst fun _ h => h
    · exact fail_asks _ nofun
  · exact .done .ended

theorem silence_asks (r : Reception κ) (h : r.session.Within owner names) :
    Asks owner names (Within owner names) fun _ st store => silence st r store := by
  unfold silence
  dsimp only
  split
  · exact fail_asks _ h.filename
  · split
    · exact .done (.replying h)
    · exact fail_asks _ h.filename

theorem arrive_asks (r : Reception κ) (h : r.session.Within owner names) (a : Arrival) :
    Asks owner names (fun r => Within owner names r.1) fun _ st store =>
      gather (r.arrive st a store) := by
  unfold arrive
  split
  · exact feed_asks _ h.toOwns fun name _ hnew _ => h.opened hnew name
  · exact gather_asks (silence_asks r h) none
  · exact gather_asks (fail_asks _ h.filename) none

theorem linger_asks (h : s.Within owner names) (summary : Summary) (a : Arrival) :
    Asks owner names (Within owner names) fun _ st store => linger st s summary a store := by
  unfold linger
  split
  · rename_i m _
    refine ((Session.step_asks h.toOwns m fun name _ hnew _ => h.opened hnew name).map (fun r =>
      r.2.casesOn (fun _ => .ended (.ok summary)) fun step =>
        step.casesOn
          (fun m => (packet m).casesOn (fun _ => .ended (.ok summary))
            fun datagram => .repeating datagram r.1 summary)
          fun _ => .ended (.ok summary)) ?_).of_eq fun _ st store => ?_
    · rintro ⟨s', failure | step⟩ hwithin
      · exact .ended
      · cases step with
        | complete m' => exact .ended
        | reply m' =>
          dsimp only
          cases packet m' with
          | error e => exact .ended
          | ok datagram => exact .repeating hwithin
    · obtain ⟨s', result, store'⟩ := s.step st m store
      cases result with
      | error failure => rfl
      | ok step =>
        cases step with
        | complete m' => rfl
        | reply m' =>
          simp only [Storage.gather]
          cases packet m' <;> rfl
  · exact .done .ended

theorem goesTo_asks {status : Status κ} (h : Within owner names status)
    (report : Option Progress) :
    Asks owner names (fun r => Within owner names r.1) fun _ _ store =>
      ((status, report), store) := by
  refine .done ?_
  exact h

/-- Whatever a reception is told, it asks about its file only, and it stays with that file. -/
theorem react_asks {status : Status κ} (h : Within owner names status) (input : Input) :
    Asks owner names (fun r => Within owner names r.1) fun _ st store =>
      gather (react st (status, store) input) := by
  have hsame := goesTo_asks h none
  cases input with
  | arrival a =>
    cases h with
    | waiting session => exact arrive_asks _ session a
    | lingering session => exact gather_asks (linger_asks session _ a) none
    | replying | completing | repeating | parting | ended => exact hsame
  | verdict v =>
    cases h with
    | replying session =>
      cases v with
      | ok _ => exact goesTo_asks (.waiting session) none
      | error fault => exact gather_asks (fail_asks _ session.filename) none
    | completing session =>
      cases v with
      | ok _ => exact goesTo_asks (.lingering session) _
      | error fault => exact gather_asks (fail_asks _ session.filename) none
    | repeating session =>
      cases v with
      | ok _ => exact goesTo_asks (.lingering session) none
      | error fault => exact goesTo_asks .ended none
    | parting filename => exact gather_asks (abandon_asks _ filename) none
    | waiting | lingering | ended => exact hsame

end Reception

end TftpUpload
