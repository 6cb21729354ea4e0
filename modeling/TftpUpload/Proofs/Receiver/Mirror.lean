/-
  TftpUpload/Proofs/Receiver/Mirror.lean
  ======================================
  **A reception does not notice what is kept beside its storage.**

  One storage mirrors another if it does the same, and keeps more in its state.
  A procedure that only asks its storage does the same over the one as over the
  other, up to what is kept (`Asks.mirrors`); so does a reception
  (`mirrors_arrive`, `mirrors_settle`).  The recorded storage is such a mirror,
  so every history of a reception over a storage is one over the recorded
  storage (`history_recorded`), and what is proved of the latter holds of both.
-/
import TftpUpload.Proofs.Receiver.OneFile
import TftpUpload.Proofs.Storage.Recorded

namespace TftpUpload

open Wire Transfer Storage

variable {σ σ' κ α : Type}

/-! ### Storages -/

namespace Storage

/-- The storage `st'` does what `st` does on the part `φ` of its state. -/
structure Mirrors (φ : σ' → σ) (st' : Storage σ' κ) (st : Storage σ κ) : Prop where
  create : ∀ name s, Prod.map id φ (st'.create name s) = st.create name (φ s)
  write : ∀ k bytes s, Prod.map id φ (st'.write k bytes s) = st.write k bytes (φ s)
  flush : ∀ k s, Prod.map id φ (st'.flush k s) = st.flush k (φ s)
  discard : ∀ name s, Prod.map id φ (st'.discard name s) = st.discard name (φ s)

theorem recorded_mirrors (st : Storage σ κ) : Mirrors Prod.fst st.recorded st where
  create _ _ := rfl
  write _ _ _ := rfl
  flush _ _ := rfl
  discard _ _ := rfl

variable {φ : σ' → σ} {st' : Storage σ' κ} {st : Storage σ κ}

theorem Mirrors.ask (h : Mirrors φ st' st) (q : Question κ) (s : σ') :
    Prod.map id φ (st'.ask q s) = st.ask q (φ s) := by
  cases q with
  | create filename => exact h.create filename s
  | write k bytes => exact h.write k bytes s
  | flush k => exact h.flush k s
  | discard filename => exact h.discard filename s

theorem Asks.mirrors {owner : κ → String} {good : α → Prop} {f : Procedure κ α}
    (asks : Asks owner (fun _ => True) good f) (h : Mirrors φ st' st) (s : σ') :
    Prod.map id φ (f σ' st' s) = f σ st (φ s) := by
  induction asks generalizing s with
  | done _ => rfl
  | ask q _ next _ ih =>
    dsimp only
    rw [ih _ (fun _ _ => trivial), ← h.ask q s]
    rfl

end Storage

variable {φ : σ' → σ} {st' : Storage σ' κ} {st : Storage σ κ}

/-! ### Receptions

A mirror is carried through a reception from procedure to procedure. -/

namespace Reception

theorem within_any (status : Status κ) : Within (fun _ => "") (fun _ => True) status := by
  have hsession : ∀ s : Session κ, s.Within (fun _ => "") (fun _ => True) := fun s =>
    ⟨⟨fun _ _ => trivial, fun _ _ => trivial⟩, fun _ _ => trivial⟩
  cases status with
  | waiting r => exact .waiting (hsession _)
  | replying packet r => exact .replying (hsession _)
  | completing packet s => exact .completing (hsession _)
  | lingering s summary => exact .lingering (hsession _)
  | repeating packet s summary => exact .repeating (hsession _)
  | parting packet failure created => exact .parting fun _ _ => trivial
  | ended result => exact .ended

theorem mirrors_start (h : Mirrors φ st' st) (connected : Bool) (request : Bytes)
    (settings : Settings) (store : σ') :
    Prod.map id φ (start st' connected request settings store) =
      start st connected request settings (φ store) := by
  have hasks : Asks (fun _ : κ => "") (fun _ => True) _ fun _ st store =>
      start st connected request settings store :=
    start_asks connected settings fun _ _ _ => trivial
  exact hasks.mirrors h store

theorem mirrors_react (h : Mirrors φ st' st) (state : State σ' κ) (input : Input) :
    Prod.map (Prod.map id φ) id (react st' state input) =
      react st (Prod.map id φ state) input := by
  have hmirror := (react_asks (within_any state.1) input).mirrors h state.2
  exact (gather_eq_iff.1 hmirror.symm).symm

theorem mirrors_arrive (h : Mirrors φ st' st) (state : State σ' κ) (a : Arrival) :
    Prod.map (Prod.map id φ) id (Status.arrive st' state a) =
      Status.arrive st (Prod.map id φ state) a :=
  mirrors_react h state (.arrival a)

theorem mirrors_settle (h : Mirrors φ st' st) (state : State σ' κ) (v : Verdict) :
    Prod.map (Prod.map id φ) id (Status.settle st' state v) =
      Status.settle st (Prod.map id φ state) v :=
  mirrors_react h state (.verdict v)

/-- Whatever can happen to a reception over a storage can happen to it over a mirror. -/
theorem history_of_mirrors (h : Mirrors φ st' st) (connected : Bool) (request : Bytes)
    (settings : Settings) (store : σ') {inputs : List Input} {state : State σ κ} {log : Log}
    (history : (machine st).History (start st connected request settings (φ store)) inputs state
      log) :
    ∃ state', Prod.map id φ state' = state ∧
      (machine st').History (start st' connected request settings store) inputs state' log := by
  induction history with
  | start => exact ⟨_, mirrors_start h connected request settings store, .start⟩
  | arrival a _ demand ih =>
    obtain ⟨state', rfl, hmirror⟩ := ih
    have hnext : Prod.map (Prod.map id φ) id ((machine st').arrive state' a) =
        (machine st).arrive (Prod.map id φ state') a := mirrors_arrive h state' a
    rw [← hnext]
    exact ⟨_, rfl, hmirror.arrival a demand⟩
  | verdict v _ demand ih =>
    obtain ⟨state', rfl, hmirror⟩ := ih
    have hnext : Prod.map (Prod.map id φ) id ((machine st').settle state' v) =
        (machine st).settle (Prod.map id φ state') v := mirrors_settle h state' v
    rw [← hnext]
    exact ⟨_, rfl, hmirror.verdict v demand⟩

/-- Recording the calls of a storage changes nothing. -/
theorem history_recorded (st : Storage σ κ) (connected : Bool) (request : Bytes)
    (settings : Settings) (store : σ) {inputs : List Input} {status : Status κ} {after : σ}
    {log : Log}
    (history : (machine st).History (start st connected request settings store) inputs
      (status, after) log) :
    ∃ calls, (machine st.recorded).History
      (start st.recorded connected request settings (store, [])) inputs (status, after, calls)
      log := by
  have hmirrors := recorded_mirrors st
  obtain ⟨⟨status', after', calls⟩, hstate, hmirror⟩ :=
    history_of_mirrors hmirrors connected request settings (store, []) history
  cases hstate
  exact ⟨calls, hmirror⟩

end Reception

end TftpUpload
