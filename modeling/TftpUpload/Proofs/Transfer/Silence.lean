/-
  TftpUpload/Proofs/Transfer/Silence.lean
  =======================================
  **Waits that end in silence, and packets that are sent in vain.**

  A side that gives up says how often it has tried.  Whether that is true shows
  in two lists: how its waits have ended, and which packets it has sent.  Both
  then end in repetitions of one thing, and `EndsIn` says of how many.  The number
  is exact, so it tells how many repetitions there are at least and at most.
-/
import TftpUpload.Proofs.Transfer.History

namespace TftpUpload.Transfer

/-! ### Repetitions at the end of a list -/

/-- The list ends in `n` copies of `x`, and in no more. -/
def EndsIn {α : Type} (l : List α) (n : Nat) (x : α) : Prop :=
  ∃ before, l = before ++ List.replicate n x ∧ before.getLast? ≠ some x

section EndsIn

variable {α : Type} {l : List α} {n k : Nat} {x y : α}

theorem endsIn_nil (x : α) : EndsIn [] 0 x := ⟨[], rfl, nofun⟩

theorem EndsIn.more (h : EndsIn l n x) : EndsIn (l ++ [x]) (n + 1) x := by
  obtain ⟨before, rfl, hlast⟩ := h
  exact ⟨before, by rw [List.replicate_succ', List.append_assoc], hlast⟩

theorem endsIn_of_ne (l : List α) (h : y ≠ x) : EndsIn (l ++ [y]) 0 x :=
  ⟨l ++ [y], by simp, by simpa using h⟩

/-- One element more makes one copy more at most. -/
theorem EndsIn.next (h : EndsIn l n x) (y : α) : ∃ k ≤ n + 1, EndsIn (l ++ [y]) k x := by
  by_cases hy : y = x
  · rw [hy]
    exact ⟨n + 1, Nat.le_refl _, h.more⟩
  · exact ⟨0, Nat.zero_le _, endsIn_of_ne l hy⟩

theorem endsIn_first (h : l.getLast? ≠ some x) : EndsIn (l ++ [x]) 1 x :=
  EndsIn.more ⟨l, by simp, h⟩

theorem EndsIn.suffix (h : EndsIn l n x) : List.replicate n x <:+ l := by
  obtain ⟨before, rfl, -⟩ := h
  exact List.suffix_append _ _

theorem getLast?_of_suffix (h : List.replicate (n + 1) x <:+ l) : l.getLast? = some x := by
  obtain ⟨before, rfl⟩ := h
  rw [List.replicate_succ', ← List.append_assoc, List.getLast?_concat]

theorem EndsIn.le (h : EndsIn l n x) (hk : List.replicate k x <:+ l) : k ≤ n := by
  obtain ⟨before, rfl, hlast⟩ := h
  obtain ⟨front, hfront⟩ := hk
  refine Nat.le_of_not_lt fun hlt => ?_
  -- the first of the copies that there are too many of would come last before the others
  obtain ⟨extra, rfl⟩ : ∃ extra, k = extra + 1 + n := ⟨k - n - 1, by omega⟩
  rw [← List.replicate_append_replicate, ← List.append_assoc] at hfront
  have hbefore := List.append_cancel_right hfront
  exact hlast (getLast?_of_suffix ⟨front, hbefore⟩)

end EndsIn

/-! ### Waits

Silence and what comes otherwise are both read off the inputs, so that the count of a side is
compared with something that it does not keep itself. -/

def Input.arrival? : Input → Option Arrival
  | arrival a => some a
  | verdict _ => none

def waits (inputs : List Input) : List Arrival := inputs.filterMap Input.arrival?

@[simp]
theorem waits_arrival (inputs : List Input) (a : Arrival) :
    waits (inputs ++ [.arrival a]) = waits inputs ++ [a] := by
  simp [waits, Input.arrival?]

@[simp]
theorem waits_verdict (inputs : List Input) (v : Verdict) :
    waits (inputs ++ [.verdict v]) = waits inputs := by
  simp [waits, Input.arrival?]

theorem read_silence_iff {a : Arrival} : a.read = .silence ↔ a = .silence := by
  cases a with
  | silence => exact iff_of_true rfl rfl
  | broken fault => exact iff_of_false nofun nofun
  | stopped => exact iff_of_false nofun nofun
  | datagram bytes =>
    refine iff_of_false ?_ nofun
    unfold Arrival.read
    dsimp only
    split <;> nofun

/-- Whatever is heard ends a silence. -/
theorem endsIn_of_read (ends : List Arrival) {a : Arrival} {incoming : Incoming}
    (h : a.read = incoming) (other : incoming ≠ .silence) : EndsIn (ends ++ [a]) 0 .silence := by
  refine endsIn_of_ne ends fun hsilence => ?_
  rw [read_silence_iff.2 hsilence] at h
  exact other h.symm

end TftpUpload.Transfer
