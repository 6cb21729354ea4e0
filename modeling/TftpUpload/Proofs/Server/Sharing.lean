/-
  TftpUpload/Proofs/Server/Sharing.lean
  =====================================
  **Workers that share a directory.**

  All workers of a server share its directory, but each keeps to the location of
  the name that its transfer was asked for, where this name led to when the
  server was started (`Tidy`).  So a stimulus changes the directory at the
  location of one name at most, that of the worker which it is about
  (`Moves.tidy`, `run_tidy`).

  Names that are symbolic links are left out, since making a file follows them
  and removing it does not; and no file may have two names from the beginning.
-/
import TftpUpload.Proofs.Receiver.Confined
import TftpUpload.Proofs.Server.Service

namespace TftpUpload.Server

open Wire Transfer Net Storage FileSystem

/-- What the responses tell of transfers that start holds of their peers and names. -/
def StartsOnly (allowed : Address → String → Prop) (responses : List Response) : Prop :=
  ∀ r ∈ responses, ∀ q m, r.event = some (.started q m) → allowed q m

namespace Service

def Runs {σ κ : Type} (s : Service σ κ) (peer : Address) : Prop :=
  ∃ status, s.worker? peer = some status ∧ ∀ result, status ≠ .ended result

variable {d : Directory} {settings : Transfer.Settings} {fs : FileSystem}
  {s s' : Service FileSystem OpenFile} {stimulus : Stimulus} {response : Response}

structure Tidy (d : Directory) (fs : FileSystem) (s : Service FileSystem OpenFile) : Prop where
  ways : SameWays fs s.store
  sound : s.store.Sound
  unlinked : ∀ q name, s.name? q = some name → ¬ d.NamesLink fs name
  bound : ∀ q name status, s.name? q = some name → s.worker? q = some status →
    Reception.Bound name (d.Place fs name) s.store status

theorem tidy_opened (d : Directory) (sound : fs.Sound) : (opened fs).Tidy d fs where
  ways := rfl
  sound := sound
  unlinked q name h := absurd h (by simp [opened, name?, Registry.find?])
  bound q name status h := absurd h (by simp [opened, name?, Registry.find?])

/-- A change at one location keeps a server tidy, if it keeps what is new of the workers so. -/
theorem Tidy.next (tidy : s.Tidy d fs) {places : Location → Prop} {own : Nat → Prop}
    (changes : s.store.Changes places own s'.store)
    (unlinked : ∀ q m, s'.name? q = some m → s.name? q = some m ∨ ¬ d.NamesLink fs m)
    (bound : ∀ q m status, s'.name? q = some m → s'.worker? q = some status →
      (s.name? q = some m ∧ s.worker? q = some status) ∨
        Reception.Bound m (d.Place fs m) s'.store status) : s'.Tidy d fs where
  ways := tidy.ways.trans changes.sameWays
  sound := changes.sound tidy.sound
  unlinked q m hm := (unlinked q m hm).elim (tidy.unlinked q m) id
  bound q m status hm hstatus := by
    rcases bound q m status hm hstatus with ⟨hm, hstatus⟩ | hbound
    · exact (tidy.bound q m status hm hstatus).of_changes changes
    · exact hbound

theorem newWorker_confined (sound : fs.Sound) {name mode : String}
    (unlinked : ¬ d.NamesLink fs name) {request : Bytes}
    (hrequest : decode request = .ok (.writeRequest name mode))
    (settings : Transfer.Settings) (endpoint : Except Fault Unit) :
    Reception.Confined d name fs (newWorker d.storage settings request fs endpoint) := by
  cases endpoint with
  | ok _ => exact Reception.start_confined sound unlinked hrequest settings
  | error fault => exact ⟨.ended, .nothing⟩

/-- The stimulus is about a worker of this name, which runs or starts. -/
def Acts (s : Service FileSystem OpenFile) (stimulus : Stimulus) (response : Response)
    (name : String) : Prop :=
  (s.name? stimulus.peer = some name ∧ s.Runs stimulus.peer) ∨
    response.event = some (.started stimulus.peer name)

/-- A stimulus keeps a server tidy, and changes the directory at the location of one name at
most. -/
theorem Moves.tidy (orderly : s.Orderly) (tidy : s.Tidy d fs)
    (h : Moves d.storage settings s stimulus s' response)
    (unlinked : ∀ q m, response.event = some (.started q m) → ¬ d.NamesLink fs m) :
    s'.Tidy d fs ∧ (s'.store = s.store ∨ ∃ name, s.Acts stimulus response name ∧
      s.store.Changes (d.Place fs name) (s.store.Owned (d.Place fs name)) s'.store) := by
  -- a confined change of the directory as it is, told of the directory as it was
  have hconfined : ∀ {name : String} {state : Reception.State FileSystem OpenFile},
      Reception.Confined d name s.store state →
        Reception.Bound name (d.Place fs name) state.2 state.1 ∧
          s.store.Changes (d.Place fs name) (s.store.Owned (d.Place fs name)) state.2 := by
    intro name state hconfined
    rw [← Directory.place_eq_of_sameWays tidy.ways]
    exact ⟨hconfined.bound, hconfined.changes⟩
  have hunlinked : ∀ {name : String}, ¬ d.NamesLink fs name → ¬ d.NamesLink s.store name :=
    fun hname hlink => hname (hlink.of_sameWays tidy.ways.symm)
  have hnothing : s'.store = s.store →
      s.store.Changes (fun _ => False) (fun _ => False) s'.store := fun hstore =>
    hstore ▸ .nothing
  cases h with
  | still names workers store =>
    refine ⟨tidy.next (hnothing store) (fun q m hm => .inl (names q ▸ hm)) ?_, .inl store⟩
    exact fun q m status hm hstatus => .inl ⟨names q ▸ hm, workers q ▸ hstatus⟩
  | @starts source bytes endpoint name mode s' fresh request names workers store =>
    have hname : ¬ d.NamesLink fs name := unlinked source name rfl
    obtain ⟨hbound, hchanges⟩ := hconfined
      (newWorker_confined tidy.sound (hunlinked hname) request settings endpoint)
    rw [← store] at hbound hchanges
    refine ⟨tidy.next hchanges (fun q m hm => ?_) (fun q m status hm hstatus => ?_),
      .inr ⟨name, .inr rfl, hchanges⟩⟩
    · rw [names] at hm
      split at hm
      · cases hm
        exact .inr hname
      · exact .inl hm
    · rw [names] at hm
      rw [workers] at hstatus
      split at hm
      · cases hm
        rw [if_pos ‹_›] at hstatus
        cases hstatus
        exact .inr hbound
      · rw [if_neg ‹_›] at hstatus
        exact .inl ⟨hm, hstatus⟩
  | @works stimulus status input s' progress worker given names workers store =>
    have hregistered : (s.name? stimulus.peer).isSome := by
      rw [orderly, worker]
      rfl
    obtain ⟨name, hname⟩ := Option.isSome_iff_exists.1 hregistered
    have hstatus : Reception.Bound name (d.Place s.store name) s.store status := by
      rw [Directory.place_eq_of_sameWays tidy.ways]
      exact tidy.bound _ name status hname worker
    obtain ⟨hbound, hchanges⟩ := hconfined
      (Reception.react_confined (hunlinked (tidy.unlinked _ name hname)) hstatus input)
    rw [← store] at hbound hchanges
    refine ⟨tidy.next hchanges (fun q m hm => .inl (names q ▸ hm)) ?_, ?_⟩
    · intro q m status' hm hstatus'
      rw [names] at hm
      rw [workers] at hstatus'
      split at hstatus'
      · rename_i hq
        subst hq
        rw [hname] at hm
        cases hm
        cases hstatus'
        exact .inr hbound
      · exact .inl ⟨hm, hstatus'⟩
    · by_cases hended : ∃ result, status = .ended result
      · obtain ⟨result, rfl⟩ := hended
        exact .inl (by rw [store, Reception.react_ended])
      · refine .inr ⟨name, .inl ⟨hname, status, worker, ?_⟩, hchanges⟩
        exact fun result h => hended ⟨result, h⟩
  | @collects peer active result s' worker registered names workers store =>
    refine ⟨tidy.next (hnothing store) (fun q m hm => ?_) (fun q m status hm hstatus => ?_),
      .inl store⟩
    · rw [names] at hm
      split at hm
      · cases hm
      · exact .inl hm
    · rw [names] at hm
      rw [workers] at hstatus
      split at hm
      · cases hm
      · rw [if_neg ‹_›] at hstatus
        exact .inl ⟨hm, hstatus⟩

theorem run_tidy (settings : Transfer.Settings) (orderly : s.Orderly) (tidy : s.Tidy d fs)
    (stimuli : List Stimulus)
    (unlinked : StartsOnly (fun _ m => ¬ d.NamesLink fs m) (s.run d.storage settings stimuli).2) :
    (s.run d.storage settings stimuli).1.Orderly ∧ (s.run d.storage settings stimuli).1.Tidy d fs :=
  run_invariant (fun _ _ _ _ good orderly tidy h => (h.tidy orderly tidy good).1) orderly tidy
    stimuli unlinked

end Service

end TftpUpload.Server
