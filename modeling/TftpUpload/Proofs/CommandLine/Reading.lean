/-
  TftpUpload/Proofs/CommandLine/Reading.lean
  ==========================================
  **Where the arguments of a program come from.**

  Reading takes one thing after the other off the list (`Reads`).  As long as the
  options have not been ended, what begins with a dash is taken for an option; so
  an argument that begins with a dash has stood behind an end of options
  (`Reads.arguments`).  Entries of a configuration that have a value exactly if
  their option takes one are read as options and end nothing, whatever their
  values are (`Reads.entries`).
-/
import TftpUpload.CommandLine.Grammar
import TftpUpload.Proofs.Config.Arguments

namespace TftpUpload.CommandLine

open Config

variable {g : Grammar} {given given' final : Given} {args rest : List String} {argument : String}

/-! ### What is taken

The reader goes by cases on what comes next and calls itself on the rest.  As a relation it has one
rule for each case that does not fail. -/

def isDashed (argument : String) : Bool := argument.toList.head? == some '-'

/-- All is read, beginning with what has been given, and what is given in the end. -/
inductive Reads (g : Grammar) : Given → List String → Given → Prop where
  | done (given : Given) : Reads g given [] given
  | help {given final : Given} {rest : List String} (argument : String) :
      given.optionsEnded = false → argument = "--help" ∨ argument = "help" →
      Reads g { given with help := true } rest final → Reads g given (argument :: rest) final
  | ended {given final : Given} {rest : List String} : given.optionsEnded = false →
      Reads g { given with optionsEnded := true } rest final →
      Reads g given (endOfOptions :: rest) final
  | switch {given final : Given} {rest : List String} (argument : String) (o : OptionSpec) :
      given.optionsEnded = false → g.option? argument = some o → o.kind = .switch →
      Reads g { given with switches := o.long :: given.switches } rest final →
      Reads g given (argument :: rest) final
  | valued {given given' final : Given} {rest : List String} (argument value : String)
      (o : OptionSpec) : given.optionsEnded = false → g.option? argument = some o →
      o.kind ≠ .switch → given.put o argument value = .ok given' → Reads g given' rest final →
      Reads g given (argument :: value :: rest) final
  | filled {given final : Given} {rest : List String} (argument : String) :
      given.optionsEnded = true ∨ isDashed argument = false →
      Reads g { given with arguments := given.arguments ++ [argument] } rest final →
      Reads g given (argument :: rest) final

theorem reads_of_readFrom (h : g.readFrom given args = .ok final) : Reads g given args final := by
  fun_induction Grammar.readFrom g given args with
  | case1 given =>
    cases h
    exact .done _
  | case2 given argument rest hhelp ih =>
    simp only [Bool.and_eq_true, Bool.not_eq_true', Bool.or_eq_true, beq_iff_eq] at hhelp
    exact .help argument hhelp.1 hhelp.2 (ih h)
  | case3 given argument rest dashed _ hopen hend ih =>
    simp only [Bool.and_eq_true, Bool.not_eq_true', beq_iff_eq] at hopen hend
    rw [hend]
    exact .ended hopen.1 (ih h)
  | case4 | case5 | case7 | case8 | case11 => cases h
  | case6 given argument rest dashed _ hopen _ _ o ho hswitch ih =>
    simp only [Bool.and_eq_true, Bool.not_eq_true'] at hopen
    exact .switch argument o hopen.1 ho hswitch (ih h)
  | case9 given argument dashed _ hopen _ _ o ho hswitch value rest given' hput ih =>
    simp only [Bool.and_eq_true, Bool.not_eq_true'] at hopen
    exact .valued argument value o hopen.1 ho hswitch hput (ih h)
  | case10 given argument rest dashed _ hopen _ ih =>
    apply Reads.filled argument _ (ih h)
    cases hended : given.optionsEnded with
    | true => exact .inl rfl
    | false =>
      rw [hended] at hopen
      have hplain : dashed = false := by simpa using hopen
      exact .inr hplain

/-! ### Arguments

What is read grows at its end, so what begins with a dash among the arguments is in the same order
on the list. -/

theorem arguments_put {o : OptionSpec} {name value : String}
    (h : given.put o name value = .ok given') :
    given'.arguments = given.arguments ∧ given'.optionsEnded = given.optionsEnded := by
  unfold Given.put at h
  split at h
  · cases h
  · split at h <;> cases h
    exact ⟨rfl, rfl⟩

theorem dropWhile_sublist_cons {α : Type} (p : α → Bool) (a : α) (l : List α) :
    (l.dropWhile p).Sublist ((a :: l).dropWhile p) := by
  rw [List.dropWhile_cons]
  split
  · exact List.Sublist.refl _
  · exact (List.dropWhile_sublist p).trans (List.sublist_cons_self a l)

/-- What is read fills arguments in order.  Those that begin with a dash have stood behind an end of
options, unless the options had been ended before. -/
theorem Reads.arguments (h : Reads g given args final) :
    ∃ new, final.arguments = given.arguments ++ new ∧ new.Sublist args ∧
      (given.optionsEnded = false →
        (new.filter isDashed).Sublist (args.dropWhile (· != endOfOptions))) := by
  induction h with
  | done given =>
    exact ⟨[], (List.append_nil _).symm, List.Sublist.refl _, fun _ => List.Sublist.refl _⟩
  | help argument hopen hhelp _ ih =>
    obtain ⟨new, harguments, hsub, hdashed⟩ := ih
    exact ⟨new, harguments, hsub.cons _,
      fun _ => (hdashed hopen).trans (dropWhile_sublist_cons _ _ _)⟩
  | ended hopen _ ih =>
    obtain ⟨new, harguments, hsub, -⟩ := ih
    refine ⟨new, harguments, hsub.cons _, fun _ => ?_⟩
    rw [List.dropWhile_cons_of_neg (by simp)]
    exact List.filter_sublist.trans (hsub.cons _)
  | switch argument o hopen ho hswitch _ ih =>
    obtain ⟨new, harguments, hsub, hdashed⟩ := ih
    exact ⟨new, harguments, hsub.cons _,
      fun _ => (hdashed hopen).trans (dropWhile_sublist_cons _ _ _)⟩
  | valued argument value o hopen ho hswitch hput _ ih =>
    obtain ⟨new, harguments, hsub, hdashed⟩ := ih
    obtain ⟨hsame, hsame'⟩ := arguments_put hput
    refine ⟨new, by rw [harguments, hsame], (hsub.cons _).cons _, fun _ => ?_⟩
    exact (hdashed (hsame'.trans hopen)).trans
      ((dropWhile_sublist_cons _ _ _).trans (dropWhile_sublist_cons _ _ _))
  | filled argument hfilled _ ih =>
    obtain ⟨new, harguments, hsub, hdashed⟩ := ih
    refine ⟨argument :: new, by simp [harguments], hsub.cons_cons _, ?_⟩
    intro hopen
    rcases hfilled with hended | hplain
    · rw [hopen] at hended
      cases hended
    · rw [List.filter_cons_of_neg (by simp [hplain])]
      exact (hdashed hopen).trans (dropWhile_sublist_cons _ _ _)

/-! ### Entries of a configuration -/

/-- The entry has a value exactly if its option takes one.  A request for help takes none. -/
structure Grammar.Fits (g : Grammar) (e : Entry) : Prop where
  noHelp : e.key ≠ "help"
  valued : ∀ o, g.option? ("--" ++ e.key) = some o → (o.kind = .switch ↔ e.value = none)

instance {e : Entry} : Decidable (g.Fits e) :=
  decidable_of_iff (e.key ≠ "help" ∧ ∀ o ∈ g.option? ("--" ++ e.key),
      (o.kind = .switch ↔ e.value = none)) ⟨fun h => ⟨h.1, h.2⟩, fun h => ⟨h.noHelp, h.valued⟩⟩

theorem isDashed_option (key : String) : isDashed ("--" ++ key) = true := by
  simp [isDashed]

/-- An entry that fits is read as its option and nothing else. -/
theorem Reads.entry {e : Entry} (h : Reads g given (e.arguments ++ rest) final)
    (unended : given.optionsEnded = false) (named : e.key ≠ "") (fits : g.Fits e) :
    ∃ given', given'.optionsEnded = false ∧ given'.arguments = given.arguments ∧
      Reads g given' rest final := by
  have hargs : e.arguments ++ rest = ("--" ++ e.key) :: (e.value.toList ++ rest) := rfl
  generalize e.arguments ++ rest = args at h hargs
  cases h with
  | done => cases hargs
  | help argument hopen hhelp =>
    obtain ⟨rfl, -⟩ := List.cons.inj hargs
    rcases hhelp with hhelp | hhelp
    · have hkey : e.key = "help" := by
        rw [← String.toList_inj] at hhelp ⊢
        simpa using hhelp
      exact absurd hkey fits.noHelp
    · have hdashed := isDashed_option e.key
      rw [hhelp] at hdashed
      exact absurd hdashed (by decide)
  | ended hopen hread =>
    have hoption := (List.cons.inj hargs).1
    exact absurd (option_eq_endOfOptions_iff.1 hoption.symm) named
  | switch argument o hopen ho hswitch hread =>
    obtain ⟨rfl, rfl⟩ := List.cons.inj hargs
    rw [(fits.valued o ho).1 hswitch] at hread
    exact ⟨{ given with switches := o.long :: given.switches }, hopen, rfl, hread⟩
  | valued argument value o hopen ho hswitch hput hread =>
    obtain ⟨rfl, hrest⟩ := List.cons.inj hargs
    cases hvalue : e.value with
    | none => exact absurd ((fits.valued o ho).2 hvalue) hswitch
    | some v =>
      rw [hvalue] at hrest
      obtain ⟨rfl, rfl⟩ := List.cons.inj hrest
      obtain ⟨hsame, hsame'⟩ := arguments_put hput
      exact ⟨_, hsame'.trans hopen, hsame, hread⟩
  | filled argument hfilled hread =>
    obtain ⟨rfl, -⟩ := List.cons.inj hargs
    rcases hfilled with hended | hplain
    · rw [unended] at hended
      cases hended
    · rw [isDashed_option] at hplain
      cases hplain

theorem Reads.entries {file : List Entry}
    (h : Reads g given (file.flatMap Entry.arguments ++ rest) final)
    (unended : given.optionsEnded = false) (named : ∀ e ∈ file, e.key ≠ "")
    (fits : ∀ e ∈ file, g.Fits e) :
    ∃ given', given'.optionsEnded = false ∧ given'.arguments = given.arguments ∧
      Reads g given' rest final := by
  induction file generalizing given with
  | nil => exact ⟨given, unended, rfl, h⟩
  | cons e file ih =>
    rw [List.forall_mem_cons] at named fits
    rw [List.flatMap_cons, List.append_assoc] at h
    obtain ⟨given', hopen, hsame, hread⟩ := h.entry unended named.1 fits.1
    obtain ⟨given'', hopen', hsame', hread'⟩ := ih hread hopen named.2 fits.2
    exact ⟨given'', hopen', hsame'.trans hsame, hread'⟩

end TftpUpload.CommandLine
