/-
  TftpUpload/Proofs/Server/Rivals.lean
  ====================================
  **Uploads that ask for one file.**

  A name that two uploads have asked for is one file: each of them empties it,
  each writes to it where its own last block ended, and each removes it when it
  fails.  So the file of an upload that has completed is lost when a rival fails
  (`rival_removes_a_completed_file`).  Uploads of other names do no harm.  Once
  an upload has ended well that no rival has run beside, the file under its name
  holds what its peer has sent, and keeps it until the name is asked for again
  (`undisturbed_upload_is_stored`).

  Names are rivals if they lead to one location, which no transfer changes
  (`TftpUpload.Proofs.Storage.Directory`).
-/
import TftpUpload.Proofs.Receiver.Filed
import TftpUpload.Proofs.Server.Requests
import TftpUpload.Proofs.Server.Sharing

namespace TftpUpload.Server

open Wire Transfer Net Storage FileSystem

/-- The two names lead to one location. -/
def Rivals (d : Directory) (fs : FileSystem) (n m : String) : Prop :=
  ∃ l, d.Place fs n l ∧ d.Place fs m l

namespace Service

section

variable {σ κ : Type} (st : Storage σ κ) (settings : Transfer.Settings)

def taken (s : Service σ κ) (peer : Address) (stimulus : Stimulus) : List Input :=
  match s.worker? peer, stimulus.input? with
  | some status, some input => if stimulus.peer = peer then status.taken input else []
  | _, _ => []

/-- All that the worker of a peer takes in a run. -/
def inputsTo (peer : Address) : Service σ κ → List Stimulus → List Input
  | _, [] => []
  | s, stimulus :: rest =>
    s.taken peer stimulus ++ inputsTo peer (s.step st settings stimulus).1 rest

end

variable {d : Directory} {settings : Transfer.Settings} {fs : FileSystem}
  {s s' : Service FileSystem OpenFile} {stimulus : Stimulus} {response : Response}

/-- None of these peers has a worker that runs for a rival of the name. -/
def Alone (d : Directory) (fs : FileSystem) (name : String) (peers : Address → Prop)
    (s : Service FileSystem OpenFile) : Prop :=
  ∀ q m, peers q → s.name? q = some m → s.Runs q → ¬ Rivals d fs name m

/-- A stimulus makes no rivals of the workers of other peers. -/
theorem Moves.others_alone {name : String} {peers : Address → Prop}
    (h : Moves d.storage settings s stimulus s' response) (alone : s.Alone d fs name peers)
    {q : Address} {m : String} (hpeer : q ≠ stimulus.peer) (hq : peers q)
    (hm : s'.name? q = some m) (hruns : s'.Runs q) : ¬ Rivals d fs name m := by
  obtain ⟨hname, hworker⟩ := h.others hpeer
  refine alone q m hq (hname ▸ hm) ?_
  unfold Runs
  rw [← hworker]
  exact hruns

/-- Rivals do not come of themselves. -/
theorem Moves.alone {name : String} {peers : Address → Prop}
    (h : Moves d.storage settings s stimulus s' response) (alone : s.Alone d fs name peers)
    (unrivalled : ∀ q m, response.event = some (.started q m) → ¬ Rivals d fs name m) :
    s'.Alone d fs name peers := by
  intro q m hq hm hruns
  by_cases hpeer : q = stimulus.peer
  · subst hpeer
    obtain ⟨status', hstatus', hrunning⟩ := hruns
    cases h with
    | still names workers =>
      exact alone _ m hq (names _ ▸ hm) ⟨status', workers _ ▸ hstatus', hrunning⟩
    | @starts source bytes endpoint n mode s' fresh request names workers store =>
      have hn : some n = some m := by rw [← hm, names]; exact (if_pos rfl).symm
      cases hn
      exact unrivalled source m rfl
    | @works stimulus status input s' progress worker given names workers =>
      refine alone _ m hq (names _ ▸ hm) ⟨status, worker, ?_⟩
      rintro result rfl
      rw [workers, if_pos rfl, Reception.react_ended] at hstatus'
      cases hstatus'
      exact hrunning result rfl
    | @collects source active result s' worker registered names workers =>
      have hnone : s'.name? source = none := by rw [names]; exact if_pos rfl
      rw [show (Stimulus.collect source).peer = source from rfl, hnone] at hm
      cases hm
  · exact h.others_alone alone hpeer hq hm hruns

end Service

/-! ### Stored files

What is stored is followed to its file, as another file may come to stand at the location. -/

/-- The name leads to this file, and the file holds these bytes. -/
def Stored (d : Directory) (fs : FileSystem) (name : String) (file : Nat) (bytes : Bytes)
    (store : FileSystem) : Prop :=
  ∃ l, d.Place fs name l ∧ store.node? l = some (.file file) ∧ store.fileBytes file = bytes

section

variable {d : Directory} {settings : Transfer.Settings} {fs store store' : FileSystem}
  {name : String} {file : Nat} {bytes : Bytes}

/-- Who is no rival leaves a stored file alone. -/
theorem Stored.of_changes (h : Stored d fs name file bytes store) (sound : store.Sound)
    {m : String} (stranger : ¬ Rivals d fs name m)
    (changes : store.Changes (d.Place fs m) (store.Owned (d.Place fs m)) store') :
    Stored d fs name file bytes store' := by
  obtain ⟨l, hplace, hfile, hbytes⟩ := h
  obtain ⟨hfile', hcontent⟩ :=
    changes.keeps sound (fun hl => stranger ⟨l, hplace, hl⟩) (fun _ hid => hid) hfile
  exact ⟨l, hplace, hfile', by rw [← hbytes, fileBytes, fileBytes, hcontent]⟩

/-- Whoever writes to the file itself leaves it at its location. -/
theorem Stored.of_write (h : Stored d fs name file bytes store) {bytes' : Bytes}
    (change : store' = store ∨ ∃ c, store' = store.setContent file c)
    (holds : store'.fileBytes file = bytes') : Stored d fs name file bytes' store' := by
  obtain ⟨l, hplace, hfile, -⟩ := h
  refine ⟨l, hplace, ?_, holds⟩
  rcases change with rfl | ⟨c, rfl⟩
  · exact hfile
  · exact hfile

theorem Stored.openFile_eq (h : Stored d fs name file bytes store) (ways : SameWays fs store)
    (unlinked : ¬ d.NamesLink fs name) :
    store.openFile d.here (Path.join d.root name) = .ok (.contents bytes) := by
  obtain ⟨l, hplace, hfile, hbytes⟩ := h
  rw [← hbytes]
  exact Directory.openFile_of_place (fun hlink => unlinked (hlink.of_sameWays ways.symm))
    (hplace.of_sameWays ways) hfile

namespace Service

variable {s s' : Service FileSystem OpenFile} {stimulus : Stimulus} {response : Response}

theorem Moves.stored (orderly : s.Orderly) (tidy : s.Tidy d fs)
    (h : Moves d.storage settings s stimulus s' response)
    (unlinked : ∀ q m, response.event = some (.started q m) → ¬ d.NamesLink fs m)
    (strangers : ∀ m, s.Acts stimulus response m → ¬ Rivals d fs name m)
    (stored : Stored d fs name file bytes s.store) : Stored d fs name file bytes s'.store := by
  rcases (h.tidy orderly tidy unlinked).2 with hsame | ⟨m, hacts, hchanges⟩
  · rwa [hsame]
  · exact stored.of_changes tidy.sound (strangers m hacts) hchanges

/-- The transfer of the peer has failed, or the file under its name holds the blocks that have
come in order. -/
def Uploads (d : Directory) (fs : FileSystem) (name : String) (peer : Address)
    (inputs : List Input) (s : Service FileSystem OpenFile) : Prop :=
  ∀ status, s.worker? peer = some status → Reception.Failed status ∨
    ∃ file, Reception.Files name file (Reception.blocksIn inputs) status ∧
      Stored d fs name file (Reception.blocksIn inputs).flatten s.store

/-- An upload without rivals goes on. -/
theorem Moves.uploads (orderly : s.Orderly) (tidy : s.Tidy d fs)
    (h : Moves d.storage settings s stimulus s' response) {peer : Address}
    (unlinked : ∀ q m, response.event = some (.started q m) → ¬ d.NamesLink fs m)
    (unrivalled : ∀ q m, response.event = some (.started q m) → ¬ Rivals d fs name m)
    (once : ∀ m, response.event ≠ some (.started peer m))
    (alone : s.Alone d fs name (· ≠ peer)) {inputs : List Input}
    (uploads : s.Uploads d fs name peer inputs) :
    s'.Uploads d fs name peer (inputs ++ s.taken peer stimulus) := by
  intro status' hstatus'
  by_cases hpeer : peer = stimulus.peer
  · subst hpeer
    cases h with
    | still names workers store unheard =>
      have htaken : s.taken stimulus.peer stimulus = [] := by
        unfold taken
        rcases unheard with hnone | hnone
        · rw [hnone]
        · rw [hnone]
          cases s.worker? stimulus.peer <;> rfl
      rw [htaken, List.append_nil, store]
      exact uploads status' (workers _ ▸ hstatus')
    | @starts source bytes endpoint n mode => exact absurd rfl (once n)
    | @works stimulus status input s' progress worker given names workers store =>
      have htaken : s.taken stimulus.peer stimulus = status.taken input := by
        unfold taken
        rw [worker, given]
        exact if_pos rfl
      rw [workers, if_pos rfl] at hstatus'
      cases hstatus'
      rw [htaken, store]
      rcases uploads status worker with hfailed | ⟨file, hfiles, hstored⟩
      · exact .inl (Reception.react_failed _ hfailed _ _)
      · obtain ⟨l, hplace, hfile, hholds⟩ := hstored
        rcases Reception.react_files d hfiles hholds input with
          ⟨hnext, hchange, hnow⟩ | hfailed
        · exact .inr ⟨file, hnext, Stored.of_write ⟨l, hplace, hfile, hholds⟩ hchange hnow⟩
        · exact .inl hfailed
    | @collects source active result s' worker registered names workers =>
      rw [workers] at hstatus'
      cases (if_pos rfl).symm.trans hstatus'
  · have htaken : s.taken peer stimulus = [] := by
      unfold taken
      split
      · exact if_neg (Ne.symm hpeer)
      · rfl
    rw [htaken, List.append_nil]
    rw [(h.others hpeer).2] at hstatus'
    refine (uploads status' hstatus').imp id ?_
    rintro ⟨file, hfiles, hstored⟩
    refine ⟨file, hfiles, h.stored orderly tidy unlinked ?_ hstored⟩
    rintro m (⟨hm, hruns⟩ | hevent)
    · exact alone _ m (Ne.symm hpeer) hm hruns
    · exact unrivalled _ m hevent

/-! ### Runs

Along a run each stimulus is the upload's own or leaves its file alone. -/

/-- An upload goes on as long as rivals stay away. -/
theorem run_uploads (settings : Transfer.Settings) (orderly : s.Orderly) (tidy : s.Tidy d fs)
    {peer : Address} (alone : s.Alone d fs name (· ≠ peer)) {inputs : List Input}
    (uploads : s.Uploads d fs name peer inputs) (stimuli : List Stimulus)
    (unlinked : StartsOnly (fun _ m => ¬ d.NamesLink fs m) (s.run d.storage settings stimuli).2)
    (unrivalled : StartsOnly (fun _ m => ¬ Rivals d fs name m)
      (s.run d.storage settings stimuli).2)
    (once : StartsOnly (fun q _ => q ≠ peer) (s.run d.storage settings stimuli).2) :
    let s' := (s.run d.storage settings stimuli).1
    s'.Alone d fs name (· ≠ peer) ∧
      s'.Uploads d fs name peer (inputs ++ s.inputsTo d.storage settings peer stimuli) := by
  induction stimuli generalizing s inputs with
  | nil => exact ⟨alone, by simpa [inputsTo, run_nil] using uploads⟩
  | cons stimulus rest ih =>
    have hmoves := step_moves d.storage settings orderly stimulus
    rw [run_cons] at unlinked unrivalled once ⊢
    obtain ⟨hlink, unlinked⟩ := List.forall_mem_cons.1 unlinked
    obtain ⟨hrival, unrivalled⟩ := List.forall_mem_cons.1 unrivalled
    obtain ⟨honce, once⟩ := List.forall_mem_cons.1 once
    rw [inputsTo, ← List.append_assoc]
    exact ih (hmoves.orderly orderly) (hmoves.tidy orderly tidy hlink).1
      (hmoves.alone alone hrival)
      (hmoves.uploads orderly tidy hlink hrival (fun m h => honce peer m h rfl) alone uploads)
      unlinked unrivalled once

/-- A stored file stays as long as rivals stay away. -/
theorem run_stored (settings : Transfer.Settings) (orderly : s.Orderly) (tidy : s.Tidy d fs)
    (alone : s.Alone d fs name fun _ => True) (stored : Stored d fs name file bytes s.store)
    (stimuli : List Stimulus)
    (unlinked : StartsOnly (fun _ m => ¬ d.NamesLink fs m) (s.run d.storage settings stimuli).2)
    (unrivalled : StartsOnly (fun _ m => ¬ Rivals d fs name m)
      (s.run d.storage settings stimuli).2) :
    Stored d fs name file bytes (s.run d.storage settings stimuli).1.store := by
  have hall : ∀ r ∈ (s.run d.storage settings stimuli).2, ∀ q m,
      r.event = some (.started q m) → ¬ d.NamesLink fs m ∧ ¬ Rivals d fs name m :=
    fun r hr q m h => ⟨unlinked r hr q m h, unrivalled r hr q m h⟩
  refine (run_invariant (P := fun s => s.Tidy d fs ∧ (s.Alone d fs name fun _ => True) ∧
    Stored d fs name file bytes s.store) ?_ orderly ⟨tidy, alone, stored⟩ stimuli hall).2.2.2
  rintro s s' stimulus response good orderly ⟨tidy, alone, stored⟩ h
  refine ⟨(h.tidy orderly tidy fun q m hevent => (good q m hevent).1).1,
    h.alone alone fun q m hevent => (good q m hevent).2,
    h.stored orderly tidy (fun q m hevent => (good q m hevent).1) ?_ stored⟩
  rintro m (⟨hm, hruns⟩ | hevent)
  · exact alone _ m trivial hm hruns
  · exact (good _ m hevent).2

/-! ### The request -/

/-- The request of an upload starts it with nothing stored, or it has failed. -/
theorem request_uploads (settings : Transfer.Settings) (orderly : s.Orderly) (tidy : s.Tidy d fs)
    {peer : Address} (idle : s.worker? peer = none) {request : Bytes} {mode : String}
    (decodes : decode (request.take receiveLimit) = .ok (.writeRequest name mode))
    (unlinked : ¬ d.NamesLink fs name) (alone : s.Alone d fs name fun _ => True) :
    let s' := (s.step d.storage settings (.datagram peer request (.ok ()))).1
    s'.Orderly ∧ s'.Tidy d fs ∧ s'.Alone d fs name (· ≠ peer) ∧ s'.Uploads d fs name peer [] := by
  have hmoves := step_moves d.storage settings orderly (.datagram peer request (.ok ()))
  rw [step_of_request orderly idle decodes] at hmoves
  generalize (s.step d.storage settings (.datagram peer request (.ok ()))).1 = s' at hmoves ⊢
  have hlink : ∀ q m, some (Event.started peer name) = some (.started q m) →
      ¬ d.NamesLink fs m := by
    rintro q m ⟨⟩
    exact unlinked
  refine ⟨hmoves.orderly orderly, (hmoves.tidy orderly tidy hlink).1, ?_, ?_⟩
  · exact fun q m hq hm hruns => hmoves.others_alone alone hq trivial hm hruns
  · intro status hstatus
    cases hmoves with
    | starts fresh _ names workers store =>
      rw [workers, if_pos rfl] at hstatus
      cases hstatus
      simp only [newWorker] at store ⊢
      rcases Reception.start_cases
          (fun hlink => unlinked (hlink.of_sameWays tidy.ways.symm)) decodes settings with
        ⟨failure, session, -, hstart⟩ |
          ⟨datagram, file, l, made, hstart, hzero, hplace, -, hfile, hempty⟩
      · rw [hstart]
        exact .inl (Reception.fail_failed _ _ _ _)
      · rw [hstart] at store ⊢
        rw [Directory.place_eq_of_sameWays tidy.ways] at hplace
        exact .inr ⟨file.id, .replying (Session.made_fills name hzero), l, hplace,
          store ▸ hfile, store ▸ hempty⟩

end Service

open Service

/-- Nobody disturbs the upload of the name by the peer.  The responses are those from before its
request, from its request until its worker has ended, and from later. -/
structure Undisturbed (d : Directory) (fs : FileSystem) (name : String) (peer : Address)
    (s : Service FileSystem OpenFile) (before during after : List Response) : Prop where
  /-- No transfer asks for a link. -/
  unlinked : StartsOnly (fun _ m => ¬ d.NamesLink fs m) (before ++ during ++ after)
  /-- No rival runs when the request comes. -/
  alone : s.Alone d fs name fun _ => True
  /-- No rival is started later. -/
  unrivalled : StartsOnly (fun _ m => ¬ Rivals d fs name m) (during ++ after)
  /-- The worker that has ended is the one that the request has started. -/
  once : StartsOnly (fun q _ => q ≠ peer) during

/-- An upload is stored, and stays, if nobody disturbs it: when its worker has ended well, the
file under its name holds the blocks that its peer has sent in order, and whatever happens later,
it goes on holding them until a rival name is asked for. -/
theorem undisturbed_upload_is_stored (d : Directory) (settings : Transfer.Settings)
    (fs : FileSystem) (sound : fs.Sound) (peer : Address) (request : Bytes) (name mode : String)
    (decodes : decode (request.take receiveLimit) = .ok (.writeRequest name mode))
    (unlinked : ¬ d.NamesLink fs name) (before during after : List Stimulus)
    (s₁ s₂ s₃ : Service FileSystem OpenFile) (r₁ r₂ r₃ : List Response) (summary : Summary)
    (run₁ : (opened fs).run d.storage settings before = (s₁, r₁))
    (idle : s₁.worker? peer = none)
    (run₂ : (s₁.step d.storage settings (.datagram peer request (.ok ()))).1.run d.storage settings
      during = (s₂, r₂))
    (ended : s₂.worker? peer = some (.ended (.ok summary)))
    (run₃ : s₂.run d.storage settings after = (s₃, r₃))
    (undisturbed : Undisturbed d fs name peer s₁ r₁ r₂ r₃) :
    let blocks := Reception.blocksIn ((s₁.step d.storage settings
      (.datagram peer request (.ok ()))).1.inputsTo d.storage settings peer during)
    Finished blocks ∧ summary = ⟨name, blocks.length, blocks.flatten.length⟩ ∧
      s₃.store.openFile d.here (Path.join d.root name) = .ok (.contents blocks.flatten) := by
  intro blocks
  obtain ⟨paths, alone, unrivalled, once⟩ := undisturbed
  have hpaths₁ : StartsOnly _ r₁ := fun r hr => paths r (by simp [hr])
  have hpaths₂ : StartsOnly _ r₂ := fun r hr => paths r (by simp [hr])
  have hpaths₃ : StartsOnly _ r₃ := fun r hr => paths r (by simp [hr])
  have hrivals₂ : StartsOnly _ r₂ := fun r hr => unrivalled r (by simp [hr])
  have hrivals₃ : StartsOnly _ r₃ := fun r hr => unrivalled r (by simp [hr])
  -- before the request
  have hbefore := run_tidy settings (orderly_opened fs) (tidy_opened d sound) before
  rw [run₁] at hbefore
  obtain ⟨orderly₁, tidy₁⟩ := hbefore hpaths₁
  -- until the upload has ended
  obtain ⟨orderly, tidy, hothers, huploads⟩ :=
    request_uploads settings orderly₁ tidy₁ idle decodes unlinked alone
  have hduring := run_uploads settings orderly tidy hothers huploads during
  have hkept := run_tidy settings orderly tidy during
  rw [run₂] at hduring hkept
  obtain ⟨halone₂, huploads₂⟩ := hduring hpaths₂ hrivals₂ once
  obtain ⟨orderly₂, tidy₂⟩ := hkept hpaths₂
  rcases huploads₂ _ ended with hfailed | ⟨file, hfiles, hstored⟩
  · cases hfailed
  rw [List.nil_append] at hfiles hstored
  have hall : s₂.Alone d fs name fun _ => True := by
    rintro q m - hm ⟨status, hstatus, hruns⟩
    by_cases hq : q = peer
    · subst hq
      rw [ended] at hstatus
      cases hstatus
      exact absurd rfl (hruns _)
    · exact halone₂ q m hq hm ⟨status, hstatus, hruns⟩
  -- afterwards
  have hlater := run_stored settings orderly₂ tidy₂ hall hstored after
  have hlast := run_tidy settings orderly₂ tidy₂ after
  rw [run₃] at hlater hlast
  have hread := (hlater hpaths₃ hrivals₃).openFile_eq (hlast hpaths₃).2.ways unlinked
  cases hfiles with
  | ended finished => exact ⟨finished, rfl, hread⟩

end

/-! ### Two uploads

Both peers are on one machine, and each of the uploads is in order by itself. -/

section TwoUploads

def neighbour : Address := ⟨.loopback6, 5001, 0⟩

def neighbourAsks (letter : UInt8) : Stimulus :=
  .datagram neighbour [0, 2, letter, 0, 111, 0] (.ok ())

def neighbourFails : List Stimulus := [.verdict neighbour (.ok ()), .arrival neighbour .silence]

set_option maxRecDepth 20000 in
/-- Two uploads ask for one file.  The first fails when the second has been completed and
reported, and removes the file of the second. -/
theorem rival_removes_a_completed_file :
    (serverAfter (neighbourAsks 97 :: oneUpload ++ neighbourFails)).2.filterMap (·.event) =
        [.started neighbour "a", .started client "a", .completed client ⟨"a", 1, 1⟩] ∧
      fileAfter (neighbourAsks 97 :: oneUpload) = .ok (.contents [7]) ∧
      fileAfter (neighbourAsks 97 :: oneUpload ++ neighbourFails) = .error (.os .noEntry) :=
  ⟨rfl, rfl, rfl⟩

/-- What holds of the starts among the events holds of the responses. -/
theorem startsOnly_of_events {allowed : Address → String → Prop} {responses : List Response}
    {events : List Event} (h : responses.filterMap (·.event) = events)
    (all : ∀ q m, Event.started q m ∈ events → allowed q m) : StartsOnly allowed responses :=
  fun r hr q m hevent => all q m (h ▸ List.mem_filterMap.2 ⟨r, hr, hevent⟩)

theorem node?_emptyRoot {l : Location} {node : Node} (h : emptyRoot.node? l = some node) :
    node = .directory := by
  unfold FileSystem.node? at h
  split at h
  · cases h
    rfl
  · simp only [emptyRoot, List.lookup_cons, List.lookup_nil] at h
    split at h <;> cases h
    rfl

theorem sound_emptyRoot : emptyRoot.Sound where
  single l l' id hl _ := by cases node?_emptyRoot hl
  bounded l id hl := by cases node?_emptyRoot hl

theorem emptyRoot_unlinked (d : Directory) (name : String) : ¬ d.NamesLink emptyRoot name := by
  rintro ⟨parent, last, slashed, target, -, hnode⟩
  cases node?_emptyRoot hnode

set_option maxRecDepth 20000 in
theorem a_b_no_rivals : ¬ Rivals ⟨"root", []⟩ emptyRoot "a" "b" := by
  have ha : (⟨"root", []⟩ : Directory).Place emptyRoot "a" ["root", "a"] :=
    ⟨["root"], "a", rfl, rfl⟩
  have hb : (⟨"root", []⟩ : Directory).Place emptyRoot "b" ["root", "b"] :=
    ⟨["root"], "b", rfl, rfl⟩
  rintro ⟨l, hl, hl'⟩
  exact absurd ((hl.unique ha).symm.trans (hl'.unique hb)) (by decide)

def besideFailure : List Stimulus :=
  .verdict client (.ok ()) :: neighbourFails ++ [.arrival client (.datagram [0, 3, 0, 1, 7]),
    .verdict client (.ok ()), .arrival client .silence]

set_option maxRecDepth 20000 in
/-- The failure of an upload with another name does no harm. -/
theorem other_names_do_no_harm :
    fileAfter (neighbourAsks 98 :: requestA :: besideFailure ++ [.collect client]) =
      .ok (.contents [7]) := by
  have hpaths : ∀ q m, Event.started q m ∈ [.started neighbour "b", .completed client ⟨"a", 1, 1⟩] →
      ¬ (⟨"root", []⟩ : Directory).NamesLink emptyRoot m := fun _ m _ => emptyRoot_unlinked _ m
  have h := undisturbed_upload_is_stored ⟨"root", []⟩ { maxRetries := 1 } emptyRoot sound_emptyRoot
    client [0, 2, 97, 0, 111, 0] "a" "o" rfl (emptyRoot_unlinked _ "a")
    [neighbourAsks 98] besideFailure [.collect client] _ _ _ _ _ _ ⟨"a", 1, 1⟩ rfl rfl rfl rfl rfl
    { unlinked := startsOnly_of_events rfl hpaths
      alone := ?_
      unrivalled := startsOnly_of_events rfl nofun
      once := startsOnly_of_events rfl nofun }
  · exact h.2.2
  · rintro q m - hm -
    have hb : (List.lookup q [(neighbour, ({ filename := "b" } : Active))]).map Active.filename =
        some m := hm
    rw [List.lookup_cons, List.lookup_nil] at hb
    split at hb <;> cases hb
    exact a_b_no_rivals

end TwoUploads

end TftpUpload.Server
