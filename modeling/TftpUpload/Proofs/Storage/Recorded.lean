/-
  TftpUpload/Proofs/Storage/Recorded.lean
  =======================================
  **A storage whose calls are written down.**

  `recorded` does what a storage does and keeps a list of the calls, each with
  what came of it.  Of a write it keeps the bytes that were accepted, so what
  has been stored at any moment is read off the list (`stored`), whatever the
  storage is and however it fails.  Writing all of some bytes stores an initial
  part of them, and all of them exactly if it succeeds (`recorded_writeAll`).
-/
import TftpUpload.Storage.Basic

namespace TftpUpload.Storage

/-- A call of a storage and what came of it. -/
inductive Call where
  | create (filename : String) (opened : Bool)
  /-- The bytes of a write that were accepted; none if it failed. -/
  | write (accepted : Bytes)
  | flush (done : Bool)
  | discard (filename : String)
deriving DecidableEq, Repr

namespace Call

def isWrite : Call → Bool
  | write _ => true
  | _ => false

def isUse : Call → Bool
  | write _ => true
  | flush _ => true
  | _ => false

def isCreate : Call → Bool
  | create .. => true
  | _ => false

/-- The bytes that the call has stored. -/
def accepted : Call → Bytes
  | write bytes => bytes
  | _ => []

@[simp]
theorem accepted_write (bytes : Bytes) : (write bytes).accepted = bytes := rfl

theorem isUse_of_isWrite {c : Call} (h : c.isWrite) : c.isUse := by
  cases c <;> first | rfl | cases h

theorem isCreate_of_isUse {c : Call} (h : c.isUse) : c.isCreate = false := by
  cases c <;> first | rfl | cases h

end Call

def stored (calls : List Call) : Bytes := (calls.map Call.accepted).flatten

@[simp]
theorem stored_nil : stored [] = [] := rfl

@[simp]
theorem stored_cons (c : Call) (calls : List Call) :
    stored (c :: calls) = c.accepted ++ stored calls := rfl

@[simp]
theorem stored_append (calls more : List Call) :
    stored (calls ++ more) = stored calls ++ stored more := by
  simp [stored]

theorem stored_isPrefix {calls more : List Call} (h : calls <+: more) :
    stored calls <+: stored more := by
  obtain ⟨later, rfl⟩ := h
  rw [stored_append]
  exact List.prefix_append _ _

variable {σ κ : Type}

def acceptedBy (bytes : Bytes) : Except Fault (Nat × κ) → Bytes
  | .ok (n, _) => bytes.take n
  | .error _ => []

/-- The storage, with a list of its calls beside its state. -/
def recorded (st : Storage σ κ) : Storage (σ × List Call) κ where
  create filename s :=
    let (result, store) := st.create filename s.1
    (result, store, s.2 ++ [.create filename result.isOk])
  write k bytes s :=
    let (result, store) := st.write k bytes s.1
    (result, store, s.2 ++ [.write (acceptedBy bytes result)])
  flush k s :=
    let (result, store) := st.flush k s.1
    (result, store, s.2 ++ [.flush result.isOk])
  discard filename s :=
    let (result, store) := st.discard filename s.1
    (result, store, s.2 ++ [.discard filename])

/-! ### What a call adds to the record

Each call adds one entry.  To write all of some bytes takes several calls, and what they have
stored is a beginning of the bytes. -/

theorem recorded_create (st : Storage σ κ) (filename : String) (s : σ) (calls : List Call) :
    st.recorded.create filename (s, calls) =
      ((st.create filename s).1, (st.create filename s).2,
        calls ++ [.create filename (st.create filename s).1.isOk]) := rfl

theorem recorded_write (st : Storage σ κ) (k : κ) (bytes : Bytes) (s : σ) (calls : List Call) :
    st.recorded.write k bytes (s, calls) =
      ((st.write k bytes s).1, (st.write k bytes s).2,
        calls ++ [.write (acceptedBy bytes (st.write k bytes s).1)]) := rfl

theorem recorded_flush (st : Storage σ κ) (k : κ) (s : σ) (calls : List Call) :
    st.recorded.flush k (s, calls) =
      ((st.flush k s).1, (st.flush k s).2, calls ++ [.flush (st.flush k s).1.isOk]) := rfl

theorem recorded_discard (st : Storage σ κ) (filename : String) (s : σ) (calls : List Call) :
    st.recorded.discard filename (s, calls) =
      ((st.discard filename s).1, (st.discard filename s).2, calls ++ [.discard filename]) := rfl

/-- The calls that writing all of `bytes` adds, if it ends with `result`. -/
structure WritesOf (bytes : Bytes) (result : Except Fault κ) (writes : List Call) : Prop where
  only : ∀ c ∈ writes, c.isWrite
  within : stored writes <+: bytes
  whole : result.isOk → stored writes = bytes
  torn : result.isOk = false → stored writes ≠ bytes

theorem recorded_writeWithin (st : Storage σ κ) (turns : Nat) (k : κ) (bytes : Bytes) (s : σ)
    (calls : List Call) (hturns : bytes.length ≤ turns) :
    ∃ writes, (st.recorded.writeWithin turns k bytes (s, calls)).2.2 = calls ++ writes ∧
      WritesOf bytes (st.recorded.writeWithin turns k bytes (s, calls)).1 writes := by
  induction turns generalizing k bytes s calls with
  | zero =>
    have hnil : bytes = [] := List.eq_nil_of_length_eq_zero (Nat.le_zero.1 hturns)
    subst hnil
    exact ⟨[], by simp [writeWithin], by simp, by simp, fun _ => rfl, nofun⟩
  | succ turns ih =>
    unfold writeWithin
    by_cases hempty : bytes = []
    · subst hempty
      exact ⟨[], by simp, by simp, by simp, fun _ => rfl, nofun⟩
    · rw [if_neg (by simpa using hempty), recorded_write]
      obtain ⟨result, store⟩ := st.write k bytes s
      cases result with
      | error fault =>
        exact ⟨[.write []], rfl, by simp [Call.isWrite], by simp, nofun, fun _ => Ne.symm hempty⟩
      | ok written =>
        obtain ⟨n, k'⟩ := written
        by_cases hzero : n = 0
        · subst hzero
          exact ⟨[.write []], rfl, by simp [Call.isWrite], by simp, nofun, fun _ => Ne.symm hempty⟩
        · -- the bytes still to be written are fewer than the turns that are left
          have hpos : 0 < bytes.length := List.length_pos_iff.2 hempty
          have hleft : (bytes.drop n).length ≤ turns := by
            rw [List.length_drop]
            omega
          obtain ⟨writes, hcalls, honly, hwithin, hwhole, htorn⟩ :=
            ih k' (bytes.drop n) store (calls ++ [.write (bytes.take n)]) hleft
          simp only [acceptedBy, if_neg hzero]
          refine ⟨.write (bytes.take n) :: writes, ?_, ?_, ?_, ?_, ?_⟩
          · rw [hcalls, List.append_assoc, List.singleton_append]
          · simpa [Call.isWrite] using honly
          · have hprefix := (List.prefix_append_right_inj (bytes.take n)).2 hwithin
            simpa using hprefix
          · intro hok
            rw [stored_cons, hwhole hok]
            exact List.take_append_drop n bytes
          · intro herror hall
            have hsplit : bytes.take n ++ stored writes = bytes.take n ++ bytes.drop n := by
              rw [List.take_append_drop]
              exact hall
            exact htorn herror (List.append_cancel_left hsplit)

/-- Writing all of some bytes stores an initial part of them, and all of them just if it
succeeds. -/
theorem recorded_writeAll (st : Storage σ κ) (k : κ) (bytes : Bytes) (s : σ) (calls : List Call) :
    ∃ writes, (st.recorded.writeAll k bytes (s, calls)).2.2 = calls ++ writes ∧
      WritesOf bytes (st.recorded.writeAll k bytes (s, calls)).1 writes :=
  recorded_writeWithin st bytes.length k bytes s calls (Nat.le_refl _)

end TftpUpload.Storage
