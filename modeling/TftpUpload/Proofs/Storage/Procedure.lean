/-
  TftpUpload/Proofs/Storage/Procedure.lean
  ========================================
  **Procedures that do nothing with a storage but ask it.**

  A question is one call of a storage.  A procedure works over any storage, and
  it `Asks` if it puts one question after the other and goes on with the
  answers.  Each question is about the file of one name; `Asks` keeps the
  procedure to some of the names, as long as it is given no handle to another
  file.  What holds of every question then holds of the whole procedure, by
  induction on the questions.
-/
import TftpUpload.Storage.Basic

namespace TftpUpload.Storage

variable {σ κ α β : Type}

/-! ### Questions -/

/-- A call of a storage with handles of type `κ`. -/
inductive Question (κ : Type) where
  | create (filename : String)
  | write (file : κ) (bytes : Bytes)
  | flush (file : κ)
  | discard (filename : String)

namespace Question

def Answer : Question κ → Type
  | create _ => Except Refusal κ
  | write _ _ => Except Fault (Nat × κ)
  | flush _ => Except Fault Unit
  | discard _ => Except Refusal Unit

def handle? : (q : Question κ) → q.Answer → Option κ
  | create _, .ok k => some k
  | write _ _, .ok (_, k) => some k
  | _, _ => none

/-- The name of the file that a question is about, where `owner` names the files of handles. -/
def file (owner : κ → String) : Question κ → String
  | create filename => filename
  | write k _ => owner k
  | flush k => owner k
  | discard filename => filename

end Question

def ask (st : Storage σ κ) : (q : Question κ) → σ → q.Answer × σ
  | .create filename, s => st.create filename s
  | .write k bytes, s => st.write k bytes s
  | .flush k, s => st.flush k s
  | .discard filename, s => st.discard filename s

/-! ### Procedures

A procedure is a function over all storages at once, so all that it can do with one is to ask it.  
The names and the good results are kept apart from the questions: what is asked next may depend on
the answers, but not on anything else that a storage has. -/

/-- What can be done over any storage with handles of type `κ`. -/
abbrev Procedure (κ α : Type) : Type 1 := (σ : Type) → Storage σ κ → σ → α × σ

/-- The procedure asks about files in `names` only, and its result is good, as long as the
handles that it is given are those of files in `names`. -/
inductive Asks (owner : κ → String) (names : String → Prop) (good : α → Prop) :
    Procedure κ α → Prop where
  | done {a : α} (result : good a) : Asks owner names good fun _ _ s => (a, s)
  | ask (q : Question κ) (about : names (q.file owner)) (next : q.Answer → Procedure κ α)
      (rest : ∀ answer, (∀ k, q.handle? answer = some k → names (owner k)) →
        Asks owner names good (next answer)) :
    Asks owner names good fun σ st s => next (st.ask q s).1 σ st (st.ask q s).2

variable {owner : κ → String} {names : String → Prop} {good : α → Prop} {fine : β → Prop}
  {f : Procedure κ α}

theorem Asks.of_eq {g : Procedure κ α} (h : Asks owner names good f)
    (same : ∀ σ st s, g σ st s = f σ st s) : Asks owner names good g := by
  have heq : g = f := funext fun σ => funext fun st => funext fun s => same σ st s
  exact heq ▸ h

/-- One procedure after another. -/
theorem Asks.bind (h : Asks owner names good f) (g : α → Procedure κ β)
    (after : ∀ a, good a → Asks owner names fine (g a)) :
    Asks owner names fine fun σ st s => g (f σ st s).1 σ st (f σ st s).2 := by
  induction h with
  | done result => exact after _ result
  | ask q about next _ ih => exact .ask q about _ ih

/-- What is made of the result of a procedure. -/
theorem Asks.map (h : Asks owner names good f) (g : α → β) (result : ∀ a, good a → fine (g a)) :
    Asks owner names fine fun σ st s => (g (f σ st s).1, (f σ st s).2) :=
  h.bind (fun a _ _ s => (g a, s)) fun a ha => .done (result a ha)

end TftpUpload.Storage
