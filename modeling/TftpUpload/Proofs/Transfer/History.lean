/-
  TftpUpload/Proofs/Transfer/History.lean
  =======================================
  **All that can happen to a side of a transfer.**

  A machine is given an input for each of its demands; a history tells which,
  and where they lead.  Nothing else decides what a machine does, so a statement
  about all histories holds of every endpoint: running a machine over an
  endpoint makes a history (`run_history`).  A history that is cut in two is two
  histories, of which the second goes on where the first has come to (`split`).
-/
import Mathlib.Data.List.Induction
import TftpUpload.Transfer.Basic

namespace TftpUpload.Transfer

open Wire

/-! ### Packets that are to be sent -/

def Demand.packet? : Demand → Option Bytes
  | send d => some d
  | _ => none

@[simp]
theorem packet?_send (d : Bytes) : (Demand.send d).packet? = some d := rfl

@[simp]
theorem packet?_arrival : Demand.arrival.packet? = none := rfl

@[simp]
theorem packet?_nothing (result : Except Failure Summary) :
    (Demand.nothing result).packet? = none := rfl

/-! ### Logs -/

@[simp]
theorem Log.sent_note (log : Log) (report : Option Progress) :
    (log.note report).sent = log.sent := by
  cases report <;> rfl

@[simp]
theorem Log.progress_note (log : Log) (report : Option Progress) :
    (log.note report).progress.toList = log.progress.toList ++ report.toList := by
  cases report <;> simp [note]

def Log.append (log more : Log) : Log := ⟨log.sent ++ more.sent, log.progress ++ more.progress⟩

theorem Log.append_empty (log : Log) : log.append {} = log := by simp [append]

theorem Log.note_append (log more : Log) (report : Option Progress) :
    (log.append more).note report = log.append (more.note report) := by
  cases report <;> simp [note, append]

/-! ### Histories

A history is built at its end, where a machine is told one thing more.  It is taken apart there as
well: the last step of a history is a move, and of an input there is one move only. -/

inductive Input where
  | arrival (a : Arrival)
  | verdict (v : Verdict)

def Input.message? : Input → Option Message
  | arrival a =>
    match a.read with
    | .message m => some m
    | _ => none
  | verdict _ => none

variable {σ τ : Type}

/-- The histories of a machine from a state on: the inputs it was given, where it stands, and
its log. -/
inductive Machine.History (m : Machine σ) (start : σ) : List Input → σ → Log → Prop where
  | start : History m start [] start {}
  | arrival {inputs : List Input} {s : σ} {log : Log} (a : Arrival)
      (before : History m start inputs s log) (demand : m.demand s = .arrival) :
      History m start (inputs ++ [.arrival a]) (m.arrive s a).1 (log.note (m.arrive s a).2)
  | verdict {inputs : List Input} {s : σ} {log : Log} {packet : Bytes} (v : Verdict)
      (before : History m start inputs s log) (demand : m.demand s = .send packet) :
      History m start (inputs ++ [.verdict v]) (m.settle s v).1
        ({ log with sent := log.sent.push packet }.note (m.settle s v).2)

/-- One step of a machine, with its log before and after. -/
inductive Machine.Moves (m : Machine σ) (s : σ) (log : Log) : Input → σ → Log → Prop where
  | arrival (a : Arrival) (demand : m.demand s = .arrival) :
    Moves m s log (.arrival a) (m.arrive s a).1 (log.note (m.arrive s a).2)
  | verdict {packet : Bytes} (v : Verdict) (demand : m.demand s = .send packet) :
    Moves m s log (.verdict v) (m.settle s v).1
      ({ log with sent := log.sent.push packet }.note (m.settle s v).2)

theorem Machine.History.last {m : Machine σ} {start s' : σ} {inputs : List Input} {input : Input}
    {log' : Log} (h : m.History start (inputs ++ [input]) s' log') :
    ∃ s log, m.History start inputs s log ∧ m.Moves s log input s' log' := by
  generalize hall : inputs ++ [input] = all at h
  cases h with
  | start => simp at hall
  | arrival a before demand =>
    obtain ⟨rfl, rfl⟩ := List.append_singleton_inj.1 hall
    exact ⟨_, _, before, .arrival a demand⟩
  | verdict v before demand =>
    obtain ⟨rfl, rfl⟩ := List.append_singleton_inj.1 hall
    exact ⟨_, _, before, .verdict v demand⟩

theorem Machine.Moves.unique {m : Machine σ} {s s₁ s₂ : σ} {log log₁ log₂ : Log} {input : Input}
    (h₁ : m.Moves s log input s₁ log₁) (h₂ : m.Moves s log input s₂ log₂) :
    s₁ = s₂ ∧ log₁ = log₂ := by
  cases h₁ with
  | arrival a demand =>
    cases h₂
    exact ⟨rfl, rfl⟩
  | verdict v demand =>
    cases h₂ with
    | verdict _ demand' =>
      rw [demand] at demand'
      cases demand'
      exact ⟨rfl, rfl⟩

theorem Machine.History.of_nil {m : Machine σ} {start s : σ} {log : Log}
    (h : m.History start [] s log) : s = start ∧ log = {} := by
  generalize hall : ([] : List Input) = all at h
  cases h with
  | start => exact ⟨rfl, rfl⟩
  | arrival | verdict => simp at hall

/-- The inputs decide where a machine comes, and what it logs. -/
theorem Machine.History.unique {m : Machine σ} {start s₁ s₂ : σ} {inputs : List Input}
    {log₁ log₂ : Log} (h₁ : m.History start inputs s₁ log₁) (h₂ : m.History start inputs s₂ log₂) :
    s₁ = s₂ ∧ log₁ = log₂ := by
  induction h₁ generalizing s₂ log₂ with
  | start => exact ⟨h₂.of_nil.1.symm, h₂.of_nil.2.symm⟩
  | arrival a before demand ih =>
    obtain ⟨s, log, hbefore, hmove⟩ := h₂.last
    obtain ⟨rfl, rfl⟩ := ih hbefore
    exact (Moves.arrival a demand).unique hmove
  | verdict v before demand ih =>
    obtain ⟨s, log, hbefore, hmove⟩ := h₂.last
    obtain ⟨rfl, rfl⟩ := ih hbefore
    exact (Moves.verdict v demand).unique hmove

/-- Nothing happens to a machine that demands nothing. -/
theorem Machine.History.of_nothing {m : Machine σ} {start s : σ}
    {result : Except Failure Summary} {inputs : List Input} {log : Log}
    (demand : m.demand start = .nothing result) (h : m.History start inputs s log) :
    inputs = [] ∧ s = start ∧ log = {} := by
  induction h with
  | start => exact ⟨rfl, rfl, rfl⟩
  | arrival a before hdemand ih =>
    rw [ih.2.1, demand] at hdemand
    cases hdemand
  | verdict v before hdemand ih =>
    rw [ih.2.1, demand] at hdemand
    cases hdemand

/-- A machine that has come somewhere goes on from there. -/
theorem Machine.History.split {m : Machine σ} {start s : σ} {before more : List Input} {log : Log}
    (h : m.History start (before ++ more) s log) :
    ∃ s₁ log₁ log₂, m.History start before s₁ log₁ ∧ m.History s₁ more s log₂ ∧
      log = log₁.append log₂ := by
  induction more using List.reverseRecOn generalizing s log with
  | nil =>
    rw [List.append_nil] at h
    exact ⟨s, log, {}, h, .start, log.append_empty.symm⟩
  | append_singleton more input ih =>
    rw [← List.append_assoc] at h
    obtain ⟨s', log', hbefore, hmove⟩ := h.last
    obtain ⟨s₁, log₁, log₂, h₁, h₂, rfl⟩ := ih hbefore
    cases hmove with
    | arrival a demand =>
      exact ⟨s₁, log₁, _, h₁, h₂.arrival a demand, Log.note_append _ _ _⟩
    | verdict v demand =>
      refine ⟨s₁, log₁, _, h₁, h₂.verdict v demand, ?_⟩
      rw [← Log.note_append]
      simp [Log.append]

/-- What a machine does over an endpoint is one of its histories, and it keeps what each answer of
the endpoint keeps.  The run has a result, or all its steps have been made. -/
theorem Machine.run_history (m : Machine σ) (e : Endpoint τ) (timeout fuel : Nat)
    {P : List Input → τ → Prop}
    (wait : ∀ inputs t, P inputs t →
      P (inputs ++ [.arrival (e.wait timeout t).1]) (e.wait timeout t).2)
    (send : ∀ inputs t packet, P inputs t →
      P (inputs ++ [.verdict (e.send packet t).1]) (e.send packet t).2)
    {start s s' : σ} {t t' : τ} {log log' : Log} {inputs : List Input}
    {result : Option (Except Failure Summary)} (before : m.History start inputs s log)
    (kept : P inputs t) (h : m.run e timeout fuel s t log = (s', t', log', result)) :
    ∃ more, m.History start (inputs ++ more) s' log' ∧ P (inputs ++ more) t' ∧
      ((∃ r, result = some r ∧ m.demand s' = .nothing r) ∨ more.length = fuel) := by
  induction fuel generalizing s t log inputs with
  | zero =>
    cases h
    rw [← List.append_nil inputs] at before kept
    exact ⟨[], before, kept, .inr rfl⟩
  | succ fuel ih =>
    simp only [run] at h
    split at h
    · rename_i r hdemand
      cases h
      rw [← List.append_nil inputs] at before kept
      exact ⟨[], before, kept, .inl ⟨r, rfl, hdemand⟩⟩
    · rename_i hdemand
      obtain ⟨more, hmore, hkept, hend⟩ :=
        ih (before.arrival (e.wait timeout t).1 hdemand) (wait inputs t kept) h
      rw [List.append_assoc] at hmore hkept
      exact ⟨_, hmore, hkept, hend.imp_right (congrArg Nat.succ)⟩
    · rename_i packet hdemand
      obtain ⟨more, hmore, hkept, hend⟩ :=
        ih (before.verdict (e.send packet t).1 hdemand) (send inputs t packet kept) h
      rw [List.append_assoc] at hmore hkept
      exact ⟨_, hmore, hkept, hend.imp_right (congrArg Nat.succ)⟩

end TftpUpload.Transfer
