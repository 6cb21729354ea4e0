/-
  TftpUpload/Proofs/Receiver/Confined.lean
  ========================================
  **What a reception does to a directory that it is not alone in.**

  Others may have changed the directory between two steps of a reception, so
  nothing is assumed of what it holds.  Even so, a step only makes, empties or
  removes the file at the location of the name that was asked for, or writes to
  the file that the reception has open (`start_confined`, `react_confined`).
  What it has open was at that location once, and is nobody's else
  (`Session.Bound`).
-/
import TftpUpload.Proofs.Receiver.Farewell
import TftpUpload.Proofs.Receiver.Reception
import TftpUpload.Proofs.Server.Service
import TftpUpload.Proofs.Storage.Directory

namespace TftpUpload

open Wire Transfer Storage FileSystem

variable {name : String} {places : Location → Prop} {fs fs' : FileSystem}

/-! ### Sessions

What a session has open is the file it has made; the location of its name may have got another file
since. -/

namespace Session

variable {s : Session OpenFile}

/-- The session was opened under the name, and a file that it has open is one of the places'. -/
structure Bound (name : String) (places : Location → Prop) (fs : FileSystem)
    (s : Session OpenFile) : Prop where
  opened : s.phase ≠ .new
  filename : s.filename = some name
  handle : ∀ k, s.destination = some k → fs.Owned places k.id

theorem Bound.named (h : s.Bound name places fs) (n : String) (hn : s.filename = some n) :
    n = name := by
  rw [h.filename] at hn
  cases hn
  rfl

def made (name : String) (file : OpenFile) : Session OpenFile :=
  { phase := .receiving 0, destination := some file, filename := some name }

/-- Whatever others change, a session stays bound. -/
theorem Bound.of_changes (h : s.Bound name places fs) {theirs : Location → Prop}
    {own : Nat → Prop} (changes : fs.Changes theirs own fs') : s.Bound name places fs' where
  opened := h.opened
  filename := h.filename
  handle k hk := changes.owned (h.handle k hk)

theorem Bound.fail (h : s.Bound name places fs) : s.fail.Bound name places fs := by
  unfold Session.fail
  split
  · exact h
  · exact ⟨nofun, h.filename, nofun⟩

/-- A block is written to the file that is open, and a block that is not full is the last. -/
theorem write_cases (d : Directory) {k : OpenFile} (hk : s.destination = some k) (block : UInt16)
    (payload : Bytes) (fs : FileSystem) :
    ∃ fs', (fs' = fs ∨ ∃ c, fs' = fs.setContent k.id c) ∧
      (k.position = (fs.fileBytes k.id).length →
        fs'.fileBytes k.id = fs.fileBytes k.id ++ payload) ∧
      ((payload.length < blockSize ∧ s.write d.storage block payload fs =
          ({ s.counted ⟨k.id, k.position + payload.length⟩ block payload with
              phase := .complete block, destination := none },
            .ok (.complete (.ack block)), fs')) ∨
        (¬ payload.length < blockSize ∧ s.write d.storage block payload fs =
          ({ s.counted ⟨k.id, k.position + payload.length⟩ block payload with
              phase := .receiving block },
            .ok (.reply (.ack block)), fs'))) := by
  obtain ⟨fs', hwrite, hchange, hbytes⟩ := d.writeAll_cases k payload fs
  refine ⟨fs', hchange, hbytes, ?_⟩
  by_cases hshort : payload.length < blockSize
  · refine .inl ⟨hshort, ?_⟩
    simp only [Session.write, hk, hwrite, if_pos hshort]
    rfl
  · refine .inr ⟨hshort, ?_⟩
    simp only [Session.write, hk, hwrite, if_neg hshort]

theorem Bound.write (d : Directory) (h : s.Bound name places fs) (block : UInt16)
    (payload : Bytes) :
    ∃ s' result fs', s.write d.storage block payload fs = (s', result, fs') ∧
      s'.Bound name places fs' ∧ fs.Changes places (fs.Owned places) fs' ∧
      ∀ failure, result = .error failure → fs' = fs := by
  cases hk : s.destination with
  | none =>
    have hwrite : s.write d.storage block payload fs =
        (s, .error (.protocol "destination is closed"), fs) := by
      simp only [Session.write, hk]
    exact ⟨s, _, fs, hwrite, h, .nothing, fun _ _ => rfl⟩
  | some k =>
    obtain ⟨fs', hchange, -, hwrite⟩ := write_cases d hk block payload fs
    have howned : fs.Owned places k.id := h.handle k hk
    have hchanges : fs.Changes places (fs.Owned places) fs' := by
      rcases hchange with rfl | ⟨c, rfl⟩
      · exact .nothing
      · exact .wrote howned c
    rcases hwrite with ⟨-, hwrite⟩ | ⟨-, hwrite⟩
    · exact ⟨_, _, fs', hwrite, ⟨by simp, h.filename, by simp⟩, hchanges, by simp⟩
    · refine ⟨_, _, fs', hwrite, ⟨by simp, h.filename, ?_⟩, hchanges, by simp⟩
      rintro k' ⟨⟩
      exact hchanges.owned howned

theorem Bound.advance (d : Directory) (h : s.Bound name places fs) (m : Message) :
    ∃ s' result fs', s.advance d.storage m fs = (s', result, fs') ∧
      s'.Bound name places fs' ∧ fs.Changes places (fs.Owned places) fs' ∧
      ∀ failure, result = .error failure → fs' = fs := by
  unfold Session.advance
  split
  · exact ⟨s, _, fs, rfl, h, .nothing, fun _ _ => rfl⟩
  · rename_i hphase
    exact absurd hphase h.opened
  · split <;> exact ⟨s, _, fs, rfl, h, .nothing, fun _ _ => rfl⟩
  · split
    · exact ⟨s, _, fs, rfl, h, .nothing, fun _ _ => rfl⟩
    · split
      · exact h.write d _ _
      · exact ⟨s, _, fs, rfl, h, .nothing, fun _ _ => rfl⟩
  · split <;> exact ⟨s, _, fs, rfl, h, .nothing, fun _ _ => rfl⟩
  · exact ⟨s, _, fs, rfl, h, .nothing, fun _ _ => rfl⟩

/-- A session that answers has changed its file at most.  One that fails has changed nothing. -/
theorem Bound.step (d : Directory) (h : s.Bound name places fs) (m : Message) :
    ∃ s' fs', s'.Bound name places fs' ∧ fs.Changes places (fs.Owned places) fs' ∧
      ((∃ answer block, s.step d.storage m fs = (s', .ok answer, fs') ∧
          answer.message = .ack block) ∨
        ((∃ failure, s.step d.storage m fs = (s', .error failure, fs')) ∧ fs' = fs)) := by
  obtain ⟨s', result, fs', hadvance, hbound, hchanges, hsame⟩ := h.advance d m
  cases result with
  | ok answer =>
    obtain ⟨block, hblock⟩ := advance_answers hadvance
    exact ⟨s', fs', hbound, hchanges, .inl ⟨answer, block, step_of_ok hadvance, hblock⟩⟩
  | error failure =>
    exact ⟨s'.fail, fs', hbound.fail, hchanges,
      .inr ⟨⟨failure, step_of_error hadvance⟩, hsame failure rfl⟩⟩

end Session

/-! ### Receptions

In each case the directory is changed by one step of the session, or by the removal of its file. -/

namespace Reception

/-- The reception is bound to the name, or has no session any more. -/
inductive Bound (name : String) (places : Location → Prop) (fs : FileSystem) :
    Status OpenFile → Prop where
  | waiting {r : Reception OpenFile} (session : r.session.Bound name places fs) :
    Bound name places fs (.waiting r)
  | replying {packet : Bytes} {r : Reception OpenFile}
      (session : r.session.Bound name places fs) :
    Bound name places fs (.replying packet r)
  | completing {packet : Bytes} {s : Session OpenFile} (session : s.Bound name places fs) :
    Bound name places fs (.completing packet s)
  | lingering {s : Session OpenFile} {summary : Summary} (session : s.Bound name places fs) :
    Bound name places fs (.lingering s summary)
  | repeating {packet : Bytes} {s : Session OpenFile} {summary : Summary}
      (session : s.Bound name places fs) :
    Bound name places fs (.repeating packet s summary)
  | parting {packet : Bytes} {failure : Failure} {created : Option String}
      (filename : ∀ n, created = some n → n = name) :
    Bound name places fs (.parting packet failure created)
  | ended {result : Except Failure Summary} : Bound name places fs (.ended result)

theorem Bound.of_changes {status : Status OpenFile} (h : Bound name places fs status)
    {theirs : Location → Prop} {own : Nat → Prop} (changes : fs.Changes theirs own fs') :
    Bound name places fs' status := by
  cases h with
  | waiting session => exact .waiting (session.of_changes changes)
  | replying session => exact .replying (session.of_changes changes)
  | completing session => exact .completing (session.of_changes changes)
  | lingering session => exact .lingering (session.of_changes changes)
  | repeating session => exact .repeating (session.of_changes changes)
  | parting filename => exact .parting filename
  | ended => exact .ended

structure Confined (d : Directory) (name : String) (fs : FileSystem)
    (state : State FileSystem OpenFile) : Prop where
  bound : Bound name (d.Place fs name) state.2 state.1
  changes : fs.Changes (d.Place fs name) (fs.Owned (d.Place fs name)) state.2

variable {d : Directory} {s : Session OpenFile}

theorem abandon_confined (unlinked : ¬ d.NamesLink fs name) (failure : Failure)
    {created : Option String} (filename : ∀ n, created = some n → n = name) :
    Confined d name fs (abandon d.storage failure created fs) := by
  cases created with
  | none => exact ⟨.ended, .nothing⟩
  | some n =>
    obtain rfl := filename n rfl
    exact ⟨.ended, Directory.discard_changes _ unlinked⟩

theorem fail_confined (unlinked : ¬ d.NamesLink fs name) (failure : Failure)
    (filename : ∀ n, s.filename = some n → n = name) :
    Confined d name fs (fail d.storage failure s fs) := by
  unfold fail
  split
  · exact ⟨.parting filename, .nothing⟩
  · exact abandon_confined unlinked failure filename

theorem feed_confined (unlinked : ¬ d.NamesLink fs name)
    (h : s.Bound name (d.Place fs name) fs) (maxRetries : Nat) (m : Message) :
    Confined d name fs (feed d.storage maxRetries s m fs).1 := by
  obtain ⟨s', fs', hbound, hchanges, ⟨answer, block, hstep, hblock⟩ | ⟨⟨failure, hstep⟩, rfl⟩⟩ :=
    h.step d m
  · simp only [feed, hstep]
    obtain ⟨datagram, hdatagram⟩ := packet_ack block
    cases answer with
    | reply m' =>
      obtain rfl : m' = .ack block := hblock
      rw [answer_reply _ _ _ hdatagram]
      exact ⟨.replying hbound, hchanges⟩
    | complete m' =>
      obtain rfl : m' = .ack block := hblock
      rw [answer_complete _ _ _ hdatagram]
      exact ⟨.completing hbound, hchanges⟩
  · simp only [feed, hstep]
    exact fail_confined unlinked failure hbound.named

theorem silence_confined (unlinked : ¬ d.NamesLink fs name) (r : Reception OpenFile)
    (h : r.session.Bound name (d.Place fs name) fs) :
    Confined d name fs (silence d.storage r fs) := by
  unfold silence
  dsimp only
  split
  · exact fail_confined unlinked _ h.named
  · split
    · exact ⟨.replying h, .nothing⟩
    · exact fail_confined unlinked _ h.named

theorem linger_confined (h : s.Bound name (d.Place fs name) fs) (summary : Summary) (a : Arrival) :
    Confined d name fs (linger d.storage s summary a fs) := by
  unfold linger
  split
  · rename_i m _
    obtain ⟨s', fs', hbound, hchanges, ⟨answer, block, hstep, -⟩ | ⟨⟨failure, hstep⟩, rfl⟩⟩ :=
      h.step d m
    · rw [hstep]
      cases answer with
      | reply m' =>
        dsimp only
        split
        · exact ⟨.repeating hbound, hchanges⟩
        · exact ⟨.ended, hchanges⟩
      | complete m' => exact ⟨.ended, hchanges⟩
    · rw [hstep]
      exact ⟨.ended, .nothing⟩
  · exact ⟨.ended, .nothing⟩

/-- Whatever a reception is told, it stays confined. -/
theorem react_confined (unlinked : ¬ d.NamesLink fs name) {status : Status OpenFile}
    (h : Bound name (d.Place fs name) fs status) (input : Input) :
    Confined d name fs (react d.storage (status, fs) input).1 := by
  have hsame : Confined d name fs (status, fs) := ⟨h, .nothing⟩
  cases input with
  | arrival a =>
    cases h with
    | @waiting r session =>
      simp only [react, Status.arrive, arrive]
      split
      · exact feed_confined unlinked session _ _
      · exact silence_confined unlinked r session
      · exact fail_confined unlinked _ session.named
    | lingering session =>
      simp only [react, Status.arrive]
      exact linger_confined session _ a
    | replying | completing | repeating | parting | ended =>
      simp only [react, Status.arrive]
      exact hsame
  | verdict v =>
    simp only [react]
    cases h with
    | replying session =>
      cases v with
      | ok _ => exact ⟨.waiting session, .nothing⟩
      | error fault => exact fail_confined unlinked (.transport fault) session.named
    | completing session =>
      cases v with
      | ok _ => exact ⟨.lingering session, .nothing⟩
      | error fault => exact fail_confined unlinked (.transport fault) session.named
    | repeating session =>
      cases v with
      | ok _ => exact ⟨.lingering session, .nothing⟩
      | error fault => exact ⟨.ended, .nothing⟩
    | parting filename => exact abandon_confined unlinked _ filename
    | waiting | lingering | ended => exact hsame

/-! ### The opening

A reception begins with nothing open, and the file that it makes is at the location of its name. -/

/-- A request makes or empties the file at the location of its name, or nothing happens to the
directory. -/
theorem start_cases (unlinked : ¬ d.NamesLink fs name) {request : Bytes} {mode : String}
    (hrequest : decode request = .ok (.writeRequest name mode)) (settings : Settings) :
    (∃ failure s, s.filename = none ∧
        start d.storage true request settings fs = fail d.storage failure s fs) ∨
      ∃ datagram file l fs', start d.storage true request settings fs =
          (.replying datagram ⟨.made name file, 0, settings.maxRetries⟩, fs') ∧
        file.position = 0 ∧ d.Place fs name l ∧
        (∀ own, fs.Changes (d.Place fs name) own fs') ∧
        fs'.node? l = some (.file file.id) ∧ fs'.fileBytes file.id = [] := by
  have hfeed : start d.storage true request settings fs =
      (feed d.storage settings.maxRetries {} (.writeRequest name mode) fs).1 := by
    unfold start
    rw [if_pos rfl, hrequest]
  rw [hfeed]
  cases hcreate : d.create name fs with
  | mk result fs' =>
    have hstorage : d.storage.create name fs = (result, fs') := hcreate
    rcases Directory.create_cases unlinked hcreate with
      ⟨refusal, rfl, hsame⟩ | ⟨file, l, rfl, hmade⟩
    · have hstep : Session.step d.storage {} (.writeRequest name mode) fs =
          (Session.fail { phase := .opening },
            .error (.rejected refusal.code refusal.message), fs) := by
        refine Session.step_of_error ?_
        simp only [Session.advance, Session.accept, hstorage, hsame]
      simp only [feed, hstep]
      exact .inl ⟨_, _, rfl, rfl⟩
    · have hstep : Session.step d.storage {} (.writeRequest name mode) fs =
          (.made name file, .ok (.reply (.ack 0)), fs') := by
        refine Session.step_of_ok ?_
        simp only [Session.advance, Session.accept, hstorage]
        rfl
      obtain ⟨datagram, hdatagram⟩ := packet_ack 0
      simp only [feed, hstep, answer_reply _ _ _ hdatagram]
      exact .inr ⟨datagram, file, l, fs', rfl, hmade⟩

/-- The reception that a request opens is confined to its name. -/
theorem start_confined (sound : fs.Sound) (unlinked : ¬ d.NamesLink fs name) {request : Bytes}
    {mode : String} (hrequest : decode request = .ok (.writeRequest name mode))
    (settings : Settings) :
    Confined d name fs (start d.storage true request settings fs) := by
  rcases start_cases unlinked hrequest settings with
    ⟨failure, s, hnone, hstart⟩ | ⟨datagram, file, l, fs', hstart, -, hplace, hchanges, hfile, -⟩
  · rw [hstart]
    refine fail_confined unlinked failure fun n hn => ?_
    rw [hnone] at hn
    cases hn
  · rw [hstart]
    have hsound : fs'.Sound := (hchanges fun _ => False).sound sound
    refine ⟨.replying ⟨nofun, rfl, ?_⟩, hchanges _⟩
    rintro k ⟨⟩
    exact ⟨hsound.bounded l _ hfile, fun l' hl' => hsound.single l l' _ hfile hl' ▸ hplace⟩

end Reception

end TftpUpload
