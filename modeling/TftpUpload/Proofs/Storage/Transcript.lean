/-
  TftpUpload/Proofs/Storage/Transcript.lean
  =========================================
  **Procedures that are carried out one question at a time.**

  A transcript is a storage that knows the answers to the first questions, and
  keeps the first question that it has no answer to.  Running a procedure over a
  transcript tells what it asks next; whoever puts the question to a real
  storage adds the answer, and may do anything else in between (`proceed`).  A
  procedure that asks is at every moment the rest of what it was (`Resumes`), so
  carrying it out question by question comes to the same as running it at once.
-/
import TftpUpload.Proofs.Storage.Procedure
import TftpUpload.Storage.Deferred

namespace TftpUpload.Storage

variable {σ κ α : Type}

/-- A question and the answer to it. -/
abbrev Reply (κ : Type) : Type := (q : Question κ) × q.Answer

structure Transcript (κ : Type) where
  replies : List (Reply κ)
  next : Option (Question κ) := none

namespace Transcript

open Deferred (unanswered)

def lacks (t : Transcript κ) (q : Question κ) : Transcript κ :=
  { replies := [], next := t.next.or (some q) }

def storage : Storage (Transcript κ) κ where
  create filename t :=
    match t.replies with
    | ⟨.create _, answer⟩ :: rest => (answer, { t with replies := rest })
    | _ => (.error (.fault unanswered), t.lacks (.create filename))
  write k bytes t :=
    match t.replies with
    | ⟨.write _ _, answer⟩ :: rest => (answer, { t with replies := rest })
    | _ => (.error unanswered, t.lacks (.write k bytes))
  flush k t :=
    match t.replies with
    | ⟨.flush _, answer⟩ :: rest => (answer, { t with replies := rest })
    | _ => (.error unanswered, t.lacks (.flush k))
  discard filename t :=
    match t.replies with
    | ⟨.discard _, answer⟩ :: rest => (answer, { t with replies := rest })
    | _ => (.error (.fault unanswered), t.lacks (.discard filename))

theorem ask_cons (q : Question κ) (answer : q.Answer) (rest : List (Reply κ))
    (next : Option (Question κ)) :
    storage.ask q ⟨⟨q, answer⟩ :: rest, next⟩ = (answer, ⟨rest, next⟩) := by
  cases q <;> rfl

theorem ask_nil (q : Question κ) (next : Option (Question κ)) :
    ∃ answer, q.handle? answer = none ∧
      storage.ask q ⟨[], next⟩ = (answer, ⟨[], next.or (some q)⟩) := by
  cases q <;> exact ⟨_, rfl, rfl⟩

variable {owner : κ → String} {names : String → Prop} {good : α → Prop} {f : Procedure κ α}

/-- A question without answer is kept to the end. -/
theorem kept_of_asks (h : Asks owner names good f) (q : Question κ) :
    (f _ storage ⟨[], some q⟩).2 = ⟨[], some q⟩ := by
  induction h with
  | done _ => rfl
  | ask q' _ _ _ ih =>
    obtain ⟨answer, hhandle, hask⟩ := ask_nil q' (some q)
    dsimp only
    rw [hask]
    exact ih answer (by simp [hhandle])

end Transcript

/-- Carries a procedure one question further, or to its end. -/
def proceed (st : Storage σ κ) (f : Procedure κ α) (replies : List (Reply κ)) (s : σ) :
    (α ⊕ List (Reply κ)) × σ :=
  match f _ Transcript.storage { replies } with
  | (a, ⟨_, none⟩) => (.inl a, s)
  | (_, ⟨_, some q⟩) => (.inr (replies ++ [⟨q, (st.ask q s).1⟩]), (st.ask q s).2)

def Resumes (f : Procedure κ α) (replies : List (Reply κ)) (rest : Procedure κ α) : Prop :=
  ∀ more, f _ Transcript.storage { replies := replies ++ more } =
    rest _ Transcript.storage { replies := more }

theorem resumes_nil (f : Procedure κ α) : Resumes f [] f := fun _ => rfl

variable {owner : κ → String} {names : String → Prop} {good : α → Prop}
  {f rest : Procedure κ α} {replies : List (Reply κ)}

theorem Resumes.perform_eq (h : Resumes f replies rest) :
    f _ Transcript.storage { replies } = rest _ Transcript.storage { replies := [] } := by
  simpa only [List.append_nil] using h []

/-- A procedure of which a result is left comes to it. -/
theorem Resumes.proceed_done {a : α} (h : Resumes f replies fun _ _ s => (a, s))
    (st : Storage σ κ) (s : σ) : st.proceed f replies s = (.inl a, s) := by
  simp only [proceed, h.perform_eq]

/-- A procedure of which a question is left asks it, and goes on with the answer. -/
theorem Resumes.proceed_ask {q : Question κ} {next : q.Answer → Procedure κ α}
    (h : Resumes f replies fun _ st s => next (st.ask q s).1 _ st (st.ask q s).2)
    (later : ∀ answer, (∀ k, q.handle? answer = some k → names (owner k)) →
      Asks owner names good (next answer)) (st : Storage σ κ) (s : σ) :
    st.proceed f replies s = (.inr (replies ++ [⟨q, (st.ask q s).1⟩]), (st.ask q s).2) := by
  obtain ⟨answer, hhandle, hask⟩ := Transcript.ask_nil q none
  have hkept := Transcript.kept_of_asks (later answer (by simp [hhandle])) q
  have hnext : (f _ Transcript.storage { replies }).2 = ⟨[], some q⟩ := by
    rw [h.perform_eq, hask]
    exact hkept
  unfold proceed
  rw [← Prod.eta (f _ Transcript.storage { replies }), hnext]

theorem Resumes.answered {q : Question κ} {next : q.Answer → Procedure κ α}
    (h : Resumes f replies fun _ st s => next (st.ask q s).1 _ st (st.ask q s).2)
    (answer : q.Answer) : Resumes f (replies ++ [⟨q, answer⟩]) (next answer) := by
  intro more
  rw [List.append_assoc, List.singleton_append, h]
  dsimp only
  rw [Transcript.ask_cons]

/-- What a procedure does next, when `rest` is left of it. -/
inductive Proceeds (owner : κ → String) (names : String → Prop) (good : α → Prop)
    (f : Procedure κ α) (replies : List (Reply κ)) (rest : Procedure κ α) : Prop where
  | ends (a : α) (result : good a) (last : ∀ σ st s, rest σ st s = (a, s))
      (turn : ∀ (σ : Type) (st : Storage σ κ) (s : σ), st.proceed f replies s = (.inl a, s))
  | asks (q : Question κ) (about : names (q.file owner)) (next : q.Answer → Procedure κ α)
      (first : ∀ σ st s, rest σ st s = next (st.ask q s).1 σ st (st.ask q s).2)
      (turn : ∀ (σ : Type) (st : Storage σ κ) (s : σ), st.proceed f replies s =
        (.inr (replies ++ [⟨q, (st.ask q s).1⟩]), (st.ask q s).2))
      (later : ∀ answer, (∀ k, q.handle? answer = some k → names (owner k)) →
        Asks owner names good (next answer) ∧
          Resumes f (replies ++ [⟨q, answer⟩]) (next answer))

/-- A procedure that asks proceeds from one of its questions to the next. -/
theorem Resumes.proceeds (h : Resumes f replies rest) (asks : Asks owner names good rest) :
    Proceeds owner names good f replies rest := by
  cases asks with
  | @done a result =>
    exact .ends a result (fun _ _ _ => rfl) fun _ st s => h.proceed_done st s
  | ask q about next later =>
    exact .asks q about next (fun _ _ _ => rfl) (fun _ st s => h.proceed_ask later st s)
      fun answer hk => ⟨later answer hk, h.answered answer⟩

end TftpUpload.Storage
