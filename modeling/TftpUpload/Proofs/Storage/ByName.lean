/-
  TftpUpload/Proofs/Storage/ByName.lean
  =====================================
  **Storages that keep their files apart.**

  A storage keeps files by name if the answer to a question, and what the
  question does to the file that it is about, depend on that file only, and
  every other file is left as it is (`ByName`).  Faults are answers, so they
  depend on the file concerned as well.  A procedure that asks about some files
  only then fares alike in two states of the storage that are alike on these
  files, and leaves the others alone.  The storage in memory keeps files by
  name, whatever its faults (`Memory.byName_storage`).
-/
import TftpUpload.Proofs.Storage.Transcript
import TftpUpload.Storage.Memory

namespace TftpUpload.Storage

variable {σ κ φ α : Type}

/-- The storage has its files by name: `file` tells what it has under a name, and `owner` the name
of the file that a handle belongs to. -/
structure ByName (st : Storage σ κ) (file : σ → String → φ) (owner : κ → String) : Prop where
  owned : ∀ (q : Question κ) s k, q.handle? (st.ask q s).1 = some k → owner k = q.file owner
  answer : ∀ (q : Question κ) s s', file s (q.file owner) = file s' (q.file owner) →
    (st.ask q s).1 = (st.ask q s').1
  effect : ∀ (q : Question κ) s s', file s (q.file owner) = file s' (q.file owner) →
    file (st.ask q s).2 (q.file owner) = file (st.ask q s').2 (q.file owner)
  frame : ∀ (q : Question κ) s name, name ≠ q.file owner → file (st.ask q s).2 name = file s name

def Alike (file : σ → String → φ) (names : String → Prop) (s s' : σ) : Prop :=
  ∀ name, names name → file s name = file s' name

namespace ByName

variable {st : Storage σ κ} {file : σ → String → φ} {owner : κ → String} {names : String → Prop}
  {good : α → Prop} {f rest : Procedure κ α} {replies : List (Reply κ)} {s s' : σ}

/-- No question about a file in `names` hands out a handle to another file. -/
theorem handle_of_about (h : st.ByName file owner) {q : Question κ} (about : names (q.file owner))
    (s : σ) (k : κ) (hk : q.handle? (st.ask q s).1 = some k) : names (owner k) :=
  h.owned q s k hk ▸ about

theorem ask_alike (h : st.ByName file owner) (alike : Alike file names s s') {q : Question κ}
    (about : names (q.file owner)) :
    (st.ask q s).1 = (st.ask q s').1 ∧ Alike file names (st.ask q s).2 (st.ask q s').2 := by
  have hfile : file s (q.file owner) = file s' (q.file owner) := alike _ about
  refine ⟨h.answer q s s' hfile, fun name hname => ?_⟩
  by_cases hq : name = q.file owner
  · rw [hq]
    exact h.effect q s s' hfile
  · rw [h.frame q s name hq, h.frame q s' name hq]
    exact alike name hname

/-- A procedure fares alike where its files are alike. -/
theorem proceed_alike (h : st.ByName file owner) (alike : Alike file names s s')
    (resumes : Resumes f replies rest) (asks : Asks owner names good rest) :
    (st.proceed f replies s).1 = (st.proceed f replies s').1 ∧
      Alike file names (st.proceed f replies s).2 (st.proceed f replies s').2 := by
  cases resumes.proceeds asks with
  | ends a _ _ turn =>
    rw [turn, turn]
    exact ⟨rfl, alike⟩
  | asks q about _ _ turn _ =>
    obtain ⟨hanswer, halike⟩ := h.ask_alike alike about
    rw [turn, turn, hanswer]
    exact ⟨rfl, halike⟩

/-- A procedure leaves the files alone that it does not ask about. -/
theorem proceed_frame (h : st.ByName file owner) (resumes : Resumes f replies rest)
    (asks : Asks owner names good rest) {name : String} (other : ¬ names name) (s : σ) :
    file (st.proceed f replies s).2 name = file s name := by
  cases resumes.proceeds asks with
  | ends a _ _ turn => rw [turn]
  | asks q about _ _ turn _ =>
    rw [turn]
    refine h.frame q s name ?_
    rintro rfl
    exact other about

/-- As long as nobody else uses the storage, what is left of a procedure comes to what the whole
of it would have come to. -/
theorem proceed_left (h : st.ByName file owner) (resumes : Resumes f replies rest)
    (asks : Asks owner names good rest) {before : σ} (left : rest σ st s = f σ st before) :
    (∃ a, good a ∧ st.proceed f replies s = (.inl a, s) ∧ f σ st before = (a, s)) ∨
      ∃ replies' s' rest', st.proceed f replies s = (.inr replies', s') ∧
        Resumes f replies' rest' ∧ Asks owner names good rest' ∧
        rest' σ st s' = f σ st before := by
  cases resumes.proceeds asks with
  | ends a result last turn => exact .inl ⟨a, result, turn σ st s, by rw [← left, last]⟩
  | asks q about next first turn later =>
    obtain ⟨hasks, hresumes⟩ := later _ (h.handle_of_about about s)
    exact .inr ⟨_, _, _, turn σ st s, hresumes, hasks, by rw [← left, first]⟩

end ByName

/-! ### Files in memory

The faults of the storage in memory look at the size of the file that is written to and at nothing
else, so they are those of one file. -/

namespace Memory

theorem find?_put (m : Memory) (f : MemoryFile) (name : String) :
    (m.put f).find? name = if name = f.name then some f else m.find? name := by
  simp only [find?, put, List.find?_cons, List.find?_filter]
  by_cases hname : name = f.name
  · simp [hname]
  · have hne : (f.name == name) = false := beq_eq_false_iff_ne.2 (Ne.symm hname)
    rw [hne, if_neg hname]
    refine congrArg (List.find? · m.files) (funext fun g => ?_)
    by_cases hg : g.name = name <;> simp [hg, hname]

theorem find?_without (m : Memory) (removed name : String) :
    (m.without removed).find? name = if name = removed then none else m.find? name := by
  simp only [find?, without, List.find?_filter]
  by_cases hname : name = removed
  · simp [hname]
  · rw [if_neg hname]
    refine congrArg (List.find? · m.files) (funext fun g => ?_)
    by_cases hg : g.name = name <;> simp [hg, hname]

theorem name_of_find? (m : Memory) (name : String) :
    ((m.find? name).getD { name }).name = name := by
  cases hfind : m.find? name with
  | none => rfl
  | some f => simpa using List.find?_some hfind

/-- The storage in memory keeps files by name; a handle is the name of its file. -/
theorem byName_storage (faults : MemoryFaults) : (storage faults).ByName find? id where
  owned q m k h := by
    cases q with
    | create filename =>
      simp only [ask, storage, create] at h
      split at h <;> cases h
      rfl
    | write file bytes =>
      simp only [ask, storage, write] at h
      split at h <;> cases h
      rfl
    | flush file => cases h
    | discard filename => cases h
  answer q m m' h := by
    cases q with
    | create filename =>
      simp only [ask, storage, create]
      split <;> rfl
    | write file bytes =>
      have hfile : m.find? file = m'.find? file := h
      simp only [ask, storage, write, hfile]
      split <;> rfl
    | flush file =>
      simp only [ask, storage, flush]
      split <;> rfl
    | discard filename =>
      simp only [ask, storage, discard]
      split <;> rfl
  effect q m m' h := by
    cases q with
    | create filename =>
      simp only [ask, storage, create]
      split
      · exact h
      · exact h
      · simp [Question.file, find?_put]
    | write file bytes =>
      have hfile : m.find? file = m'.find? file := h
      simp only [ask, storage, write, hfile]
      split
      · exact h
      · simp only [Question.file, id, find?_put, name_of_find?, if_true]
    | flush file =>
      simp only [ask, storage, flush]
      split <;> exact h
    | discard filename =>
      simp only [ask, storage, discard]
      split
      · exact h
      · simp only [Question.file, find?_without, if_true]
  frame q m name h := by
    cases q with
    | create filename =>
      simp only [ask, storage, create]
      split
      · rfl
      · rfl
      · rw [find?_put]
        exact if_neg h
    | write file bytes =>
      simp only [ask, storage, write]
      split
      · rfl
      · rw [find?_put, name_of_find?]
        exact if_neg h
    | flush file =>
      simp only [ask, storage, flush]
      split <;> rfl
    | discard filename =>
      simp only [ask, storage, discard]
      split
      · rfl
      · rw [find?_without]
        exact if_neg h

end Memory

end TftpUpload.Storage
