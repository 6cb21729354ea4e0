/-
  TftpUpload/Proofs/Receiver/Together.lean
  ========================================
  **Receptions that share a storage.**

  Any number of receptions run over one storage, each with arrivals and verdicts
  of its own.  They take turns call by call: a reception that is amid a packet
  has put some questions to the storage and waits for its next turn, while
  others create, write, flush and discard.  A run that is alone goes through the
  histories of a reception and through no others (`Run.Traces`,
  `Run.alone_of_history`), so taking turns is no restriction.  If the storage
  keeps files by name and no two requests name the same file, none of the runs
  notices the others: each sends, reports, ends and leaves behind what it would
  if it were alone (`each_is_as_alone`).
-/
import Mathlib.Logic.Function.Basic
import TftpUpload.Proofs.Receiver.OneFile
import TftpUpload.Proofs.Storage.ByName

namespace TftpUpload

open Wire Transfer Storage

/-! ### Inputs and demands -/

namespace Transfer

def Demand.admits : Demand → Input → Bool
  | .arrival, .arrival _ => true
  | .send _, .verdict _ => true
  | _, _ => false

/-- The log of a side that does what it demands. -/
def Log.giving (log : Log) : Demand → Log
  | .send packet => { log with sent := log.sent.push packet }
  | _ => log

end Transfer

namespace Reception

variable {σ κ φ ι : Type}

/-- What a machine does with an input that it has demanded makes its history longer. -/
theorem history_react {st : Storage σ κ} {start : State σ κ} {inputs : List Input}
    {status : Status κ} {store : σ} {log : Log}
    (history : (machine st).History start inputs (status, store) log) {input : Input}
    (admits : status.demand.admits input) :
    (machine st).History start (inputs ++ [input]) (react st (status, store) input).1
      ((log.giving status.demand).note (react st (status, store) input).2) := by
  cases hdemand : status.demand with
  | arrival =>
    cases input with
    | arrival a => exact history.arrival a hdemand
    | verdict v => rw [hdemand] at admits; cases admits
  | send packet =>
    cases input with
    | arrival a => rw [hdemand] at admits; cases admits
    | verdict v => exact history.verdict v hdemand
  | nothing result => rw [hdemand] at admits; cases admits

/-! ### Runs

A run that is given an input works on a task, a question at each turn, and comes to rest with the
last answer of its storage. -/

structure Opening where
  connected : Bool := true
  request : Bytes
  settings : Settings := {}

def Opening.AsksFor (o : Opening) (name : String) : Prop :=
  ∃ mode, decode o.request = .ok (.writeRequest name mode)

/-- What can happen to a reception that begins so, where each task is done in one go. -/
abbrev Opening.History (o : Opening) (st : Storage σ κ) (first : σ) :
    List Input → State σ κ → Log → Prop :=
  (machine st).History (start st o.connected o.request o.settings first)

inductive Task (κ : Type) where
  | opening (o : Opening)
  | reacting (status : Status κ) (input : Input)

def Task.perform : Task κ → Procedure κ (Status κ × Option Progress)
  | opening o => fun _ st store => gather (start st o.connected o.request o.settings store, none)
  | reacting status input => fun _ st store => gather (react st (status, store) input)

inductive Stage (κ : Type) where
  | resting (status : Status κ)
  /-- Amid a task, with what the storage has answered so far. -/
  | working (task : Task κ) (replies : List (Reply κ))

structure Run (κ : Type) where
  stage : Stage κ
  log : Log := {}

def Opening.run (o : Opening) : Run κ := { stage := .working (.opening o) [] }

inductive Move where
  /-- An input comes.  It is lost on a reception that has not demanded it. -/
  | take (input : Input)
  /-- The next call of the storage, or the end of the task. -/
  | go

def Move.input? : Move → Option Input
  | take input => some input
  | go => none

namespace Run

def take (run : Run κ) (input : Input) : Run κ :=
  match run.stage with
  | .resting status =>
    if status.demand.admits input then
      ⟨.working (.reacting status input) [], run.log.giving status.demand⟩
    else run
  | .working _ _ => run

/-- The run after a turn of its task. -/
def after (task : Task κ) (log : Log) :
    (Status κ × Option Progress) ⊕ List (Reply κ) → Run κ
  | .inl (status, report) => ⟨.resting status, log.note report⟩
  | .inr replies => ⟨.working task replies, log⟩

def go (st : Storage σ κ) (run : Run κ) (store : σ) : Run κ × σ :=
  match run.stage with
  | .resting _ => (run, store)
  | .working task replies =>
    (after task run.log (st.proceed task.perform replies store).1,
      (st.proceed task.perform replies store).2)

def advance (st : Storage σ κ) (run : Run κ) (move : Move) (store : σ) : Run κ × σ :=
  match move with
  | .take input => (run.take input, store)
  | .go => run.go st store

/-- A run that has the storage to itself. -/
def alone (st : Storage σ κ) : Run κ → List Move → σ → Run κ × σ
  | run, [], store => (run, store)
  | run, move :: rest, store =>
    (run.advance st move store).1.alone st rest (run.advance st move store).2

end Run

/-- Runs that share a storage, and move in the order of the schedule. -/
def together [DecidableEq ι] (st : Storage σ κ) :
    (ι → Run κ) → List (ι × Move) → σ → (ι → Run κ) × σ
  | runs, [], store => (runs, store)
  | runs, (i, move) :: rest, store =>
    together st (Function.update runs i ((runs i).advance st move store).1) rest
      ((runs i).advance st move store).2

def movesOf [DecidableEq ι] (i : ι) (schedule : List (ι × Move)) : List Move :=
  schedule.filterMap fun (j, move) => if j = i then some move else none

/-! ### A run keeps to its file

Nothing of a run depends on a file of another name, and it changes none. -/

/-- The run asks about files in `names` only, whatever comes. -/
inductive Run.Keeps (owner : κ → String) (names : String → Prop) : Run κ → Prop where
  | resting {status : Status κ} {log : Log} (within : Within owner names status) :
    Keeps owner names ⟨.resting status, log⟩
  | working {task : Task κ} {replies : List (Reply κ)} {log : Log}
      {rest : Procedure κ (Status κ × Option Progress)}
      (resumes : Resumes task.perform replies rest)
      (asks : Asks owner names (fun r => Within owner names r.1) rest) :
    Keeps owner names ⟨.working task replies, log⟩

variable {st : Storage σ κ} {file : σ → String → φ} {owner : κ → String}
  {names : String → Prop} {run : Run κ}

theorem Opening.asks (o : Opening) :
    Asks owner o.AsksFor (fun r : Status κ × Option Progress => Within owner o.AsksFor r.1)
      (Task.opening o).perform :=
  gather_asks (start_asks o.connected o.settings fun _ mode h => ⟨mode, h⟩) none

theorem Opening.keeps (o : Opening) : (o.run : Run κ).Keeps owner o.AsksFor :=
  .working (resumes_nil _) o.asks

namespace Run

theorem Keeps.take (h : run.Keeps owner names) (input : Input) :
    (run.take input).Keeps owner names := by
  cases h with
  | resting within =>
    unfold Run.take
    dsimp only
    split
    · exact .working (resumes_nil _) (react_asks within input)
    · exact .resting within
  | working resumes asks => exact .working resumes asks

theorem Keeps.go (byName : st.ByName file owner) (h : run.Keeps owner names) (store : σ) :
    (run.go st store).1.Keeps owner names := by
  cases h with
  | resting within => exact .resting within
  | working resumes asks =>
    unfold Run.go
    cases resumes.proceeds asks with
    | ends a result _ turn =>
      simp only [turn]
      exact .resting result
    | asks q about next _ turn later =>
      obtain ⟨hasks, hresumes⟩ := later _ (byName.handle_of_about about store)
      simp only [turn]
      exact .working hresumes hasks

theorem Keeps.advance (byName : st.ByName file owner) (h : run.Keeps owner names) (move : Move)
    (store : σ) : (run.advance st move store).1.Keeps owner names := by
  cases move with
  | take input => exact h.take input
  | go => exact h.go byName store

/-- A move of a run leaves the files of the others alone. -/
theorem Keeps.advance_frame (byName : st.ByName file owner) (h : run.Keeps owner names)
    (move : Move) {name : String} (other : ¬ names name) (store : σ) :
    file (run.advance st move store).2 name = file store name := by
  cases move with
  | take input => rfl
  | go =>
    cases h with
    | resting _ => rfl
    | working resumes asks => exact byName.proceed_frame resumes asks other store

/-- A run does not notice where two states of the storage differ on the files of others. -/
theorem Keeps.advance_alike (byName : st.ByName file owner) (h : run.Keeps owner names)
    (move : Move) {store store' : σ} (alike : Alike file names store store') :
    (run.advance st move store).1 = (run.advance st move store').1 ∧
      Alike file names (run.advance st move store).2 (run.advance st move store').2 := by
  cases move with
  | take input => exact ⟨rfl, alike⟩
  | go =>
    cases h with
    | resting _ => exact ⟨rfl, alike⟩
    | @working task _ log _ resumes asks =>
      obtain ⟨hsame, halike⟩ := byName.proceed_alike alike resumes asks
      exact ⟨congrArg (after task log) hsame, halike⟩

end Run

/-! ### Many runs

A run of the schedule is compared with the same run when all the others are struck out. -/

section Together

variable [DecidableEq ι] {runs : ι → Run κ} {own : ι → String → Prop}

theorem movesOf_cons_self (i : ι) (move : Move) (rest : List (ι × Move)) :
    movesOf i ((i, move) :: rest) = move :: movesOf i rest := by
  simp [movesOf]

theorem movesOf_cons_of_ne {i j : ι} (h : j ≠ i) (move : Move) (rest : List (ι × Move)) :
    movesOf i ((j, move) :: rest) = movesOf i rest := by
  simp [movesOf, h]

/-- Among runs that keep to files of their own, each is as it is alone. -/
theorem together_eq_alone (byName : st.ByName file owner)
    (distinct : ∀ i j name, own i name → own j name → i = j) (i : ι)
    (schedule : List (ι × Move)) {store store' : σ}
    (keeps : ∀ j, (runs j).Keeps owner (own j))
    (alike : Alike file (own i) store store') :
    (together st runs schedule store).1 i =
        ((runs i).alone st (movesOf i schedule) store').1 ∧
      Alike file (own i) (together st runs schedule store).2
        ((runs i).alone st (movesOf i schedule) store').2 := by
  induction schedule generalizing runs store store' with
  | nil => exact ⟨rfl, alike⟩
  | cons entry rest ih =>
    obtain ⟨j, move⟩ := entry
    have hkeeps : ∀ l, (Function.update runs j ((runs j).advance st move store).1 l).Keeps owner
        (own l) := by
      intro l
      by_cases hl : l = j
      · subst hl
        rw [Function.update_self]
        exact (keeps l).advance byName move store
      · rw [Function.update_of_ne hl]
        exact keeps l
    rw [together]
    by_cases hj : j = i
    · -- The same move is made by the run that is alone.
      subst hj
      obtain ⟨hrun, halike⟩ := (keeps j).advance_alike byName move alike
      have hnext := ih hkeeps halike
      rw [Function.update_self, hrun] at hnext
      rw [movesOf_cons_self, Run.alone, hrun]
      exact hnext
    · -- Another run moves, and what it changes is under names that are not those of this one.
      have halike : Alike file (own i) ((runs j).advance st move store).2 store' := by
        intro name hname
        have hother : ¬ own j name := fun hown => hj (distinct j i name hown hname)
        rw [(keeps j).advance_frame byName move hother store]
        exact alike name hname
      have hnext := ih hkeeps halike
      rw [Function.update_of_ne (Ne.symm hj)] at hnext
      rw [movesOf_cons_of_ne hj]
      exact hnext

end Together

/-! ### A run that is alone is a reception

A run that is amid a task has come part of the way from one status to the next. -/

/-- A run that is alone has come from the opening by the history of a reception, and what is left
of its task comes to what the whole of it would have come to. -/
inductive Run.Traces (st : Storage σ κ) (owner : κ → String) (o : Opening) (first : σ) :
    List Input → Run κ → σ → Prop where
  | opening {replies : List (Reply κ)} {rest : Procedure κ (Status κ × Option Progress)}
      {store : σ} (resumes : Resumes (Task.opening o).perform replies rest)
      (asks : Asks owner o.AsksFor (fun r => Within owner o.AsksFor r.1) rest)
      (left : rest σ st store = (Task.opening o).perform σ st first) :
    Traces st owner o first [] ⟨.working (.opening o) replies, {}⟩ store
  | resting {inputs : List Input} {status : Status κ} {store : σ} {log : Log}
      (within : Within owner o.AsksFor status)
      (history : o.History st first inputs (status, store) log) :
    Traces st owner o first inputs ⟨.resting status, log⟩ store
  | reacting {inputs : List Input} {status : Status κ} {before store : σ} {log : Log}
      {input : Input} {replies : List (Reply κ)}
      {rest : Procedure κ (Status κ × Option Progress)}
      (history : o.History st first inputs (status, before) log)
      (admits : status.demand.admits input)
      (resumes : Resumes (Task.reacting status input).perform replies rest)
      (asks : Asks owner o.AsksFor (fun r => Within owner o.AsksFor r.1) rest)
      (left : rest σ st store = (Task.reacting status input).perform σ st before) :
    Traces st owner o first (inputs ++ [input])
      ⟨.working (.reacting status input) replies, log.giving status.demand⟩ store

namespace Run

variable {o : Opening} {first store : σ} {inputs : List Input}

/-- An input becomes part of the history, or it is lost. -/
theorem Traces.take (h : run.Traces st owner o first inputs store) (input : Input) :
    ∃ more, more.Sublist [input] ∧
      (run.take input).Traces st owner o first (inputs ++ more) store := by
  have hlost : ∃ more, more.Sublist [input] ∧
      run.Traces st owner o first (inputs ++ more) store :=
    ⟨[], List.nil_sublist _, by rwa [List.append_nil]⟩
  cases h with
  | opening | reacting => exact hlost
  | @resting _ status _ log within history =>
    cases hadmits : status.demand.admits input with
    | false => simpa only [Run.take, hadmits, Bool.false_eq_true, if_false] using hlost
    | true =>
      simp only [Run.take, hadmits, if_true]
      exact ⟨[input], List.Sublist.refl _,
        .reacting history hadmits (resumes_nil _) (react_asks within input) rfl⟩

theorem Traces.go (byName : st.ByName file owner) (h : run.Traces st owner o first inputs store) :
    (run.go st store).1.Traces st owner o first inputs (run.go st store).2 := by
  cases h with
  | resting within history => exact .resting within history
  | opening resumes asks left =>
    rcases byName.proceed_left resumes asks left with
      ⟨⟨status, report⟩, hwithin, hturn, hwhole⟩ | ⟨_, _, _, hturn, hresumes, hasks, hleft⟩
    · obtain ⟨hstart, rfl⟩ := Prod.mk.inj (gather_eq_iff.1 hwhole)
      simp only [Run.go, hturn]
      exact .resting hwithin (hstart ▸ .start)
    · simp only [Run.go, hturn]
      exact .opening hresumes hasks hleft
  | reacting history admits resumes asks left =>
    rcases byName.proceed_left resumes asks left with
      ⟨⟨status, report⟩, hwithin, hturn, hwhole⟩ | ⟨_, _, _, hturn, hresumes, hasks, hleft⟩
    · have hlonger := history_react history admits
      rw [gather_eq_iff.1 hwhole] at hlonger
      simp only [Run.go, hturn]
      exact .resting hwithin hlonger
    · simp only [Run.go, hturn]
      exact .reacting history admits hresumes hasks hleft

theorem Traces.history (h : run.Traces st owner o first inputs store) {status : Status κ}
    (resting : run.stage = .resting status) :
    o.History st first inputs (status, store) run.log := by
  cases h with
  | resting _ history =>
    cases resting
    exact history
  | opening | reacting => cases resting

/-- A run that is alone goes through the history of a reception, over inputs that it is given. -/
theorem Traces.alone (byName : st.ByName file owner) (moves : List Move)
    (h : run.Traces st owner o first inputs store) :
    ∃ more, more.Sublist (moves.filterMap Move.input?) ∧
      (run.alone st moves store).1.Traces st owner o first (inputs ++ more)
        (run.alone st moves store).2 := by
  induction moves generalizing run store inputs with
  | nil => exact ⟨[], List.Sublist.refl _, by rwa [List.append_nil]⟩
  | cons move rest ih =>
    cases move with
    | take input =>
      obtain ⟨taken, htaken, hnext⟩ := h.take input
      obtain ⟨more, hmore, hrest⟩ := ih hnext
      refine ⟨taken ++ more, htaken.append hmore, ?_⟩
      rw [← List.append_assoc]
      exact hrest
    | go => exact ih (h.go byName)

/-! ### Whatever a reception does, a run that is alone can do -/

theorem alone_append (st : Storage σ κ) (run : Run κ) (moves more : List Move) (store : σ) :
    run.alone st (moves ++ more) store =
      (run.alone st moves store).1.alone st more (run.alone st moves store).2 := by
  induction moves generalizing run store with
  | nil => rfl
  | cons move rest ih => exact ih _ _

theorem Keeps.alone (byName : st.ByName file owner) (h : run.Keeps owner names)
    (moves : List Move) (store : σ) : (run.alone st moves store).1.Keeps owner names := by
  induction moves generalizing run store with
  | nil => exact h
  | cons move rest ih => exact ih (h.advance byName move store) _

/-- As many turns as there are questions left, and one more, end a task. -/
theorem alone_goes (byName : st.ByName file owner) (task : Task κ)
    {rest : Procedure κ (Status κ × Option Progress)}
    {good : Status κ × Option Progress → Prop} (asks : Asks owner names good rest)
    {replies : List (Reply κ)} (resumes : Resumes task.perform replies rest) (log : Log)
    (store : σ) :
    ∃ turns, Run.alone st ⟨.working task replies, log⟩ (List.replicate turns .go) store =
      (after task log (.inl (rest σ st store).1), (rest σ st store).2) := by
  -- The induction is on what is left of the task: a turn takes its first question away.
  induction asks generalizing replies store with
  | done _ =>
    refine ⟨1, ?_⟩
    simp only [List.replicate, Run.alone, Run.advance, Run.go, resumes.proceed_done]
  | ask q about next later ih =>
    obtain ⟨turns, hturns⟩ := ih _ (byName.handle_of_about about store) (resumes.answered _)
      (st.ask q store).2
    refine ⟨turns + 1, ?_⟩
    simp only [List.replicate_succ, Run.alone, Run.advance, Run.go,
      resumes.proceed_ask later]
    exact hturns

theorem filterMap_replicate_go (turns : Nat) :
    (List.replicate turns Move.go).filterMap Move.input? = [] := by
  simp [List.filterMap_replicate, Move.input?]

/-- An input that is demanded, and as many turns as the reaction takes, are one step of the
reception. -/
theorem alone_next (byName : st.ByName file owner) {moves : List Move} {state : State σ κ}
    {log : Log} (rests : o.run.alone st moves first = (⟨.resting state.1, log⟩, state.2))
    (input : Input) (admits : state.1.demand.admits input) :
    ∃ more, more.filterMap Move.input? = [input] ∧
      o.run.alone st (moves ++ more) first =
        (⟨.resting (react st state input).1.1,
          (log.giving state.1.demand).note (react st state input).2⟩,
          (react st state input).1.2) := by
  have hkeeps : (o.run.alone st moves first).1.Keeps owner o.AsksFor :=
    o.keeps.alone byName moves first
  rw [rests] at hkeeps
  cases hkeeps with
  | resting within =>
    obtain ⟨turns, hturns⟩ := alone_goes byName (.reacting state.1 input)
      (react_asks within input) (resumes_nil _) (log.giving state.1.demand) state.2
    refine ⟨.take input :: List.replicate turns .go, ?_, ?_⟩
    · rw [List.filterMap_cons, filterMap_replicate_go]
      rfl
    · rw [alone_append, rests]
      simp only [Run.alone, Run.advance, Run.take, admits, if_true]
      exact hturns

/-- What can happen to a reception can happen to a run that is alone, over the same inputs. -/
theorem alone_of_history (byName : st.ByName file owner) {state : State σ κ} {log : Log}
    (history : o.History st first inputs state log) :
    ∃ moves, moves.filterMap Move.input? = inputs ∧
      o.run.alone st moves first = (⟨.resting state.1, log⟩, state.2) := by
  induction history with
  | start =>
    obtain ⟨turns, hturns⟩ := alone_goes byName (.opening o) o.asks (resumes_nil _) {} first
    exact ⟨List.replicate turns .go, filterMap_replicate_go turns, hturns⟩
  | @arrival inputs state log a _ demand ih =>
    obtain ⟨moves, hinputs, hrests⟩ := ih
    have hdemand : state.1.demand = .arrival := demand
    obtain ⟨more, hmore, hnext⟩ := alone_next byName hrests (.arrival a) (by rw [hdemand]; rfl)
    rw [hdemand] at hnext
    exact ⟨moves ++ more, by rw [List.filterMap_append, hinputs, hmore], hnext⟩
  | @verdict inputs state log packet v _ demand ih =>
    obtain ⟨moves, hinputs, hrests⟩ := ih
    have hdemand : state.1.demand = .send packet := demand
    obtain ⟨more, hmore, hnext⟩ := alone_next byName hrests (.verdict v) (by rw [hdemand]; rfl)
    rw [hdemand] at hnext
    exact ⟨moves ++ more, by rw [List.filterMap_append, hinputs, hmore], hnext⟩

end Run

/-! ### Noninterference -/

/-- Receptions whose requests name different files do not notice each other, in whatever order
they put their questions to a storage that keeps files by name.  Each is where it would be if it
had made its moves alone, has sent and reported the same, and leaves the same under the name that
it asked for; so another order of all moves leads each to the same.  What a run does alone is what
can happen to a reception, and all of it. -/
theorem each_is_as_alone [DecidableEq ι] (st : Storage σ κ) {file : σ → String → φ}
    {owner : κ → String} (byName : st.ByName file owner) (openings : ι → Opening)
    (distinct : ∀ i j name, (openings i).AsksFor name → (openings j).AsksFor name → i = j)
    (schedule : List (ι × Move)) (first : σ) (i : ι) :
    let shared := together st (fun j => (openings j).run) schedule first
    let own := (openings i).run.alone st (movesOf i schedule) first
    (shared.1 i = own.1 ∧
        ∀ name, (openings i).AsksFor name → file shared.2 name = file own.2 name) ∧
      (∀ other, movesOf i other = movesOf i schedule →
        let reordered := together st (fun j => (openings j).run) other first
        reordered.1 i = shared.1 i ∧
          ∀ name, (openings i).AsksFor name → file reordered.2 name = file shared.2 name) ∧
      (∀ status, own.1.stage = .resting status →
        ∃ inputs, inputs.Sublist ((movesOf i schedule).filterMap Move.input?) ∧
          (openings i).History st first inputs (status, own.2) own.1.log) ∧
      ∀ inputs status store log, (openings i).History st first inputs (status, store) log →
        ∃ moves, moves.filterMap Move.input? = inputs ∧
          (openings i).run.alone st moves first = (⟨.resting status, log⟩, store) := by
  have hkeeps : ∀ j, ((openings j).run : Run κ).Keeps owner (openings j).AsksFor := fun j =>
    (openings j).keeps
  have halone := fun schedule : List (ι × Move) =>
    together_eq_alone byName distinct i schedule hkeeps (fun _ _ => rfl : Alike file _ first first)
  obtain ⟨hrun, halike⟩ := halone schedule
  refine ⟨⟨hrun, halike⟩, fun other hmoves => ?_, fun status hresting => ?_,
    fun inputs status store log history => Run.alone_of_history byName history⟩
  · obtain ⟨hother, hsame⟩ := halone other
    rw [hmoves] at hother hsame
    exact ⟨hother.trans hrun.symm, fun name hname =>
      (hsame name hname).trans (halike name hname).symm⟩
  · have hopened : (openings i).run.Traces st owner (openings i) first [] first :=
      .opening (resumes_nil _) (openings i).asks rfl
    obtain ⟨inputs, hinputs, htraces⟩ := hopened.alone byName (movesOf i schedule)
    exact ⟨inputs, hinputs, htraces.history hresting⟩

def twoRequests : Bool → Opening
  | true => { request := [0, 2, 97, 0, 111, 0] }
  | false => { request := [0, 2, 98, 0, 111, 0] }

def inTurns : List (Bool × Move) :=
  [(true, .go), (false, .go), (true, .go), (false, .go),
    (true, .take (.verdict (.ok ()))), (false, .take (.verdict (.ok ()))), (true, .go),
    (false, .go), (true, .take (.arrival (.datagram [0, 3, 0, 1, 7]))),
    (false, .take (.arrival (.datagram [0, 3, 0, 1, 8, 9]))), (false, .go), (true, .go),
    (false, .go), (true, .go), (false, .go), (true, .go),
    (false, .take (.verdict (.ok ()))), (true, .take (.verdict (.ok ()))), (false, .go),
    (true, .go), (false, .go), (true, .take (.arrival .silence)), (true, .go)]

set_option maxRecDepth 20000 in
/-- Where a file has room for one byte, `b` fails amid the transfer of `a` and is removed. -/
theorem stored_beside_a_failure :
    let st := Memory.storage { capacity := some 1 }
    let shared := together st (fun j => (twoRequests j).run) inTurns {}
    (∀ i j name, (twoRequests i).AsksFor name → (twoRequests j).AsksFor name → i = j) ∧
      shared.1 true = ((twoRequests true).run.alone st (movesOf true inTurns) {}).1 ∧
      (shared.1 true).stage = .resting (.ended (.ok ⟨"a", 1, 1⟩)) ∧
      (shared.1 false).stage =
        .resting (.ended (.error (.rejected .diskFull "No space left on device"))) ∧
      shared.2.find? "a" = some ⟨"a", Content.empty.append [7]⟩ ∧ shared.2.find? "b" = none := by
  have hname : ∀ i name, (twoRequests i).AsksFor name → name = if i then "a" else "b" := by
    rintro i name ⟨mode, h⟩
    cases i with
    | true =>
      have hdecode : decode (twoRequests true).request = .ok (.writeRequest "a" "o") := rfl
      rw [hdecode] at h
      cases h
      rfl
    | false =>
      have hdecode : decode (twoRequests false).request = .ok (.writeRequest "b" "o") := rfl
      rw [hdecode] at h
      cases h
      rfl
  have hdistinct : ∀ i j name, (twoRequests i).AsksFor name → (twoRequests j).AsksFor name →
      i = j := by
    intro i j name hi hj
    have hsame : (if i then "a" else "b") = if j then "a" else "b" :=
      (hname i name hi).symm.trans (hname j name hj)
    cases i <;> cases j <;> simp at hsame ⊢
  have halone := (each_is_as_alone _ (Memory.byName_storage { capacity := some 1 }) twoRequests
    hdistinct inTurns {} true).1.1
  exact ⟨hdistinct, halone, rfl, rfl, rfl, rfl⟩

end Reception

end TftpUpload
