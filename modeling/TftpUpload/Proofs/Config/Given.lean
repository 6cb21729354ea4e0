/-
  TftpUpload/Proofs/Config/Given.lean
  ===================================
  **Options that a command line gives.**

  An argument gives an option in one of three spellings (`Gives`).  A command
  line gives an option if one of its arguments does and no end of options stands
  before that argument (`Given`): behind an end of options there are no options.
  That is what a configuration is compared with (`mem_optionsGiven`).
-/
import Mathlib.Data.List.TakeWhile
import TftpUpload.Config.Arguments

namespace TftpUpload.Config

variable {aliases : Aliases} {cli : List String} {name argument : String}

/-! ### What stands before something

A list in front of the first place where something stands is described by a split of the list, so
that nothing later has to look into `takeWhile`. -/

section
variable {α : Type} [DecidableEq α] {a x : α} {l : List α}

theorem forall_ne_of_notMem (h : a ∉ l) : ∀ x ∈ l, (x != a) = true := by
  intro x hx
  simpa using fun heq : x = a => h (heq ▸ hx)

theorem takeWhile_ne_append_of_notMem (h : a ∉ l) (rest : List α) :
    (l ++ rest).takeWhile (· != a) = l ++ rest.takeWhile (· != a) :=
  List.takeWhile_append_of_pos (forall_ne_of_notMem h)

theorem dropWhile_ne_append_of_notMem (h : a ∉ l) (rest : List α) :
    (l ++ rest).dropWhile (· != a) = rest.dropWhile (· != a) :=
  List.dropWhile_append_of_pos (forall_ne_of_notMem h)

theorem takeWhile_ne_append (h : a ∉ l) (rest : List α) :
    (l ++ a :: rest).takeWhile (· != a) = l := by
  rw [takeWhile_ne_append_of_notMem h, List.takeWhile_cons_of_neg (by simp), List.append_nil]

theorem takeWhile_ne_of_notMem (h : a ∉ l) : l.takeWhile (· != a) = l := by
  simpa using takeWhile_ne_append_of_notMem h []

theorem notMem_takeWhile_ne (a : α) (l : List α) : a ∉ l.takeWhile (· != a) := by
  intro hmem
  simpa using List.mem_takeWhile_imp hmem

/-- What a list has ahead of something is what that thing does not precede. -/
theorem mem_takeWhile_ne :
    x ∈ l.takeWhile (· != a) ↔ ∃ before after, l = before ++ x :: after ∧ a ∉ before ∧ x ≠ a := by
  constructor
  · intro hx
    obtain ⟨before, after, hsplit⟩ := List.append_of_mem hx
    refine ⟨before, after ++ l.dropWhile (· != a), ?_, ?_, ?_⟩
    · rw [← List.cons_append, ← List.append_assoc, ← hsplit, List.takeWhile_append_dropWhile]
    · intro ha
      exact notMem_takeWhile_ne a l (hsplit ▸ List.mem_append_left _ ha)
    · rintro rfl
      exact notMem_takeWhile_ne x l hx
  · rintro ⟨before, after, rfl, hbefore, hx⟩
    rw [takeWhile_ne_append_of_notMem hbefore, List.takeWhile_cons_of_pos (by simpa using hx)]
    simp

theorem dropWhile_ne_cases (a : α) (l : List α) :
    l.dropWhile (· != a) = [] ∨ ∃ rest, l.dropWhile (· != a) = a :: rest := by
  cases hdrop : l.dropWhile (· != a) with
  | nil => exact .inl rfl
  | cons x rest =>
    have hx := List.head?_dropWhile_not (· != a) l
    rw [hdrop] at hx
    have heq : x = a := by simpa using hx
    exact .inr ⟨rest, by rw [heq]⟩

end

/-! ### What an argument gives

The three spellings exclude each other, so the option that an argument gives is known from the
argument alone.  A lone dash gives none. -/

/-- The argument gives the option: by its long name, which a value may follow behind `=`, or by a
letter that stands for it. -/
inductive Gives (aliases : Aliases) (name : String) : String → Prop where
  | long : '=' ∉ name.toList → Gives aliases name ("--" ++ name)
  | assigned (value : String) : '=' ∉ name.toList →
      Gives aliases name ("--" ++ name ++ "=" ++ value)
  | letter (flag : Char) : flag ≠ '-' → aliases.lookup flag = some name →
      Gives aliases name (String.ofList ['-', flag])

/-- A name ends at the first `=`, if there is one. -/
theorem takeWhile_assign_iff {long name : List Char} : long.takeWhile (· != '=') = name ↔
    '=' ∉ name ∧ (long = name ∨ ∃ value, long = name ++ '=' :: value) := by
  constructor
  · rintro rfl
    by_cases hmem : '=' ∈ long
    · obtain ⟨before, value, rfl, hbefore⟩ := List.eq_append_cons_of_mem hmem
      rw [takeWhile_ne_append hbefore]
      exact ⟨hbefore, .inr ⟨value, rfl⟩⟩
    · rw [takeWhile_ne_of_notMem hmem]
      exact ⟨hmem, .inl rfl⟩
  · rintro ⟨hname, rfl | ⟨value, rfl⟩⟩
    · exact takeWhile_ne_of_notMem hname
    · exact takeWhile_ne_append hname value

theorem optionName?_long (long : List Char) :
    optionName? aliases (String.ofList ('-' :: '-' :: long)) =
      some (String.ofList (long.takeWhile (· != '='))) := by
  simp [optionName?]

theorem optionName?_letter {flag : Char} (h : flag ≠ '-') :
    optionName? aliases (String.ofList ['-', flag]) = aliases.lookup flag := by
  simp [optionName?]

theorem optionName?_eq_some_iff :
    optionName? aliases argument = some name ↔ Gives aliases name argument := by
  constructor
  · intro h
    unfold optionName? at h
    split at h
    · rename_i long hargument
      have htake : long.takeWhile (· != '=') = name.toList := by
        rw [← Option.some.inj h, String.toList_ofList]
      obtain ⟨hname, hlong⟩ := takeWhile_assign_iff.1 htake
      rcases hlong with hlong | ⟨value, hlong⟩
      · have heq : argument = "--" ++ name := by
          rw [← String.toList_inj, hargument, hlong]
          simp
        exact heq ▸ .long hname
      · have heq : argument = "--" ++ name ++ "=" ++ String.ofList value := by
          rw [← String.toList_inj, hargument, hlong]
          simp
        exact heq ▸ .assigned _ hname
    · rename_i flag hflag hargument
      have heq : argument = String.ofList ['-', flag] := by
        rw [← String.toList_inj, hargument, String.toList_ofList]
      exact heq ▸ .letter flag hflag h
    · cases h
  · intro h
    cases h with
    | long hname =>
      have heq : "--" ++ name = String.ofList ('-' :: '-' :: name.toList) := by
        simp [← String.toList_inj]
      rw [heq, optionName?_long, takeWhile_ne_of_notMem hname, String.ofList_toList]
    | assigned value hname =>
      have heq : "--" ++ name ++ "=" ++ value =
          String.ofList ('-' :: '-' :: (name.toList ++ '=' :: value.toList)) := by
        simp [← String.toList_inj]
      rw [heq, optionName?_long, takeWhile_ne_append hname, String.ofList_toList]
    | letter flag hflag hlookup => rw [optionName?_letter hflag, hlookup]

/-- A lone dash gives nothing. -/
theorem not_gives_standardInput : ¬ Gives aliases name standardInput := by
  rw [← optionName?_eq_some_iff]
  exact nofun

/-! ### What a command line gives -/

def Given (aliases : Aliases) (cli : List String) (name : String) : Prop :=
  ∃ before argument after, cli = before ++ argument :: after ∧ endOfOptions ∉ before ∧
    argument ≠ endOfOptions ∧ Gives aliases name argument

theorem given_iff : Given aliases cli name ↔
    ∃ argument ∈ cli.takeWhile (· != endOfOptions), Gives aliases name argument := by
  constructor
  · rintro ⟨before, argument, after, hcli, hbefore, hne, hgives⟩
    exact ⟨argument, mem_takeWhile_ne.2 ⟨before, after, hcli, hbefore, hne⟩, hgives⟩
  · rintro ⟨argument, hmem, hgives⟩
    obtain ⟨before, after, hcli, hbefore, hne⟩ := mem_takeWhile_ne.1 hmem
    exact ⟨before, argument, after, hcli, hbefore, hne, hgives⟩

theorem mem_optionsGiven : name ∈ optionsGiven aliases cli ↔ Given aliases cli name := by
  rw [optionsGiven, List.mem_filterMap, given_iff]
  simp only [optionName?_eq_some_iff]

instance : Decidable (Given aliases cli name) := decidable_of_iff _ mem_optionsGiven

example : Given [('p', "port")] ["-p", "8000", "host", "--", "--retries=9"] "port" ∧
    ¬ Given [('p', "port")] ["-p", "8000", "host", "--", "--retries=9"] "retries" := by decide

end TftpUpload.Config
