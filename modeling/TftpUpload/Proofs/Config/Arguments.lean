/-
  TftpUpload/Proofs/Config/Arguments.lean
  =======================================
  **What becomes of a command line beside a configuration.**

  The command line is kept as it is, but for one end of options in front of the
  first lone dash that none precedes (`Protection`).  After that every lone dash
  stands behind an end of options, so doing it once more changes nothing
  (`command_line_is_kept`).

  An entry is left out if the command line gives its option.  The comparison
  looks at the command line as it was; the end of options that is put into it
  comes later, and what stands behind it is no option any more.  So an option
  that is given behind a lone dash only is left out of the configuration and does
  not count on the command line either (`Swallowed`).  No other option is lost
  (`options_are_lost_behind_a_dash_only`).
-/
import TftpUpload.Proofs.Config.Given

namespace TftpUpload.Config

variable {file : List Entry} {aliases : Aliases} {cli part before : List String} {name : String}

/-! ### Standard input

Whether a dash is exposed is decided by what comes before it.  An end of options in front of the
first one covers this dash and all that follow, and that is why it need not be put in twice. -/

/-- A lone dash stands on the command line that no end of options precedes. -/
def Exposed (cli : List String) : Prop :=
  ∃ before after, cli = before ++ standardInput :: after ∧ endOfOptions ∉ before

/-- Nothing is changed unless a lone dash is exposed; then an end of options is put in front of the
first one. -/
inductive Protection : List String → List String → Prop where
  | needless {cli : List String} : ¬ Exposed cli → Protection cli cli
  | inserted (before after : List String) :
      endOfOptions ∉ before → standardInput ∉ before →
      Protection (before ++ standardInput :: after)
        (before ++ endOfOptions :: standardInput :: after)

theorem exposed_cons {argument : String} : Exposed (argument :: cli) ↔
    argument = standardInput ∨ (argument ≠ endOfOptions ∧ Exposed cli) := by
  constructor
  · rintro ⟨before, after, hcli, hbefore⟩
    cases before with
    | nil => exact .inl (List.cons.inj hcli).1
    | cons first before =>
      obtain ⟨rfl, rfl⟩ := List.cons.inj hcli
      obtain ⟨hne, hbefore⟩ := List.ne_and_not_mem_of_not_mem_cons hbefore
      exact .inr ⟨hne.symm, before, after, rfl, hbefore⟩
  · rintro (rfl | ⟨hne, before, after, rfl, hbefore⟩)
    · exact ⟨[], cli, rfl, List.not_mem_nil⟩
    · exact ⟨argument :: before, after, rfl, List.not_mem_cons_of_ne_of_not_mem hne.symm hbefore⟩

/-- Behind an end of options nothing is exposed. -/
theorem exposed_append_endOfOptions (rest : List String) :
    Exposed (before ++ endOfOptions :: rest) → standardInput ∈ before := by
  intro h
  induction before with
  | nil =>
    rcases exposed_cons.1 h with hdash | ⟨hne, -⟩
    · exact absurd hdash (by decide)
    · exact absurd rfl hne
  | cons first before ih =>
    rcases exposed_cons.1 h with rfl | ⟨-, hrest⟩
    · exact List.mem_cons_self
    · exact List.mem_cons_of_mem _ (ih hrest)

theorem protection_protectStandardInput (cli : List String) :
    Protection cli (protectStandardInput cli) := by
  induction cli with
  | nil =>
    apply Protection.needless
    rintro ⟨before, after, hnil, -⟩
    simp at hnil
  | cons argument rest ih =>
    unfold protectStandardInput
    split
    · rename_i hend
      apply Protection.needless
      rw [exposed_cons, hend]
      rintro (hdash | ⟨hne, -⟩)
      · exact absurd hdash (by decide)
      · exact hne rfl
    · rename_i hend
      split
      · rename_i hdash
        rw [hdash]
        exact Protection.inserted [] rest List.not_mem_nil List.not_mem_nil
      · rename_i hdash
        generalize protectStandardInput rest = part at ih
        cases ih with
        | needless hrest =>
          apply Protection.needless
          rw [exposed_cons]
          rintro (heq | ⟨-, hexposed⟩)
          · exact hdash heq
          · exact hrest hexposed
        | inserted before after hbefore hbefore' =>
          apply Protection.inserted (argument :: before) after
          · exact List.not_mem_cons_of_ne_of_not_mem (Ne.symm hend) hbefore
          · exact List.not_mem_cons_of_ne_of_not_mem (Ne.symm hdash) hbefore'

theorem Protection.not_exposed (h : Protection cli part) : ¬ Exposed part := by
  cases h with
  | needless hcli => exact hcli
  | inserted before after hbefore hbefore' =>
    intro hexposed
    exact hbefore' (exposed_append_endOfOptions _ hexposed)

theorem Protection.eq_of_not_exposed (h : Protection cli part) (unexposed : ¬ Exposed cli) :
    part = cli := by
  cases h with
  | needless => rfl
  | inserted before after hbefore hbefore' => exact absurd ⟨before, after, rfl, hbefore⟩ unexposed

theorem protectStandardInput_of_not_exposed (h : ¬ Exposed cli) : protectStandardInput cli = cli :=
  (protection_protectStandardInput cli).eq_of_not_exposed h

theorem Protection.of_exposed (h : Protection cli part) (exposed : Exposed cli) :
    ∃ before after, cli = before ++ standardInput :: after ∧ endOfOptions ∉ before ∧
      standardInput ∉ before ∧ part = before ++ endOfOptions :: standardInput :: after := by
  cases h with
  | needless hcli => exact absurd exposed hcli
  | inserted before after hbefore hbefore' => exact ⟨before, after, rfl, hbefore, hbefore', rfl⟩

/-! ### The command line beside a configuration -/

def kept (file : List Entry) (cli : List String) (aliases : Aliases) : List Entry :=
  file.filter fun e => ¬ Given aliases cli e.key

theorem mem_kept {e : Entry} :
    e ∈ kept file cli aliases ↔ e ∈ file ∧ ¬ Given aliases cli e.key := by
  simp [kept]

theorem mergeArguments_eq (file : List Entry) (cli : List String) (aliases : Aliases) :
    mergeArguments file cli aliases =
      (kept file cli aliases).flatMap Entry.arguments ++ protectStandardInput cli := by
  have hkept : file.filter (fun e => !(optionsGiven aliases cli).contains e.key) =
      kept file cli aliases := by
    apply List.filter_congr
    intro e _
    simp [← mem_optionsGiven]
  rw [mergeArguments, fileArguments, hkept]

/-- Behind the entries whose options the command line does not give, each as its option and its
value if it has one, comes the command line.  It is as it was unless a lone dash is exposed; then
an end of options stands in front of the first such dash, and without it the command line is as
it was.  No lone dash of the outcome is exposed, and what has been done to a command line is not
done to it again. -/
theorem command_line_is_kept (file : List Entry) (cli : List String) (aliases : Aliases) :
    ∃ part, mergeArguments file cli aliases =
        (file.filter fun e => ¬ Given aliases cli e.key).flatMap
          (fun e => ("--" ++ e.key) :: e.value.toList) ++ part ∧
      (¬ Exposed cli → part = cli) ∧
      (Exposed cli → ∃ before after, cli = before ++ standardInput :: after ∧
        endOfOptions ∉ before ∧ standardInput ∉ before ∧
        part = before ++ endOfOptions :: standardInput :: after ∧ part.erase endOfOptions = cli) ∧
      ¬ Exposed part ∧
      mergeArguments [] cli aliases = part ∧ mergeArguments [] part aliases = part := by
  have hprotection := protection_protectStandardInput cli
  refine ⟨protectStandardInput cli, mergeArguments_eq file cli aliases,
    hprotection.eq_of_not_exposed, ?_, hprotection.not_exposed, rfl,
    protectStandardInput_of_not_exposed hprotection.not_exposed⟩
  intro hexposed
  obtain ⟨before, after, hcli, hbefore, hbefore', hpart⟩ := hprotection.of_exposed hexposed
  refine ⟨before, after, hcli, hbefore, hbefore', hpart, ?_⟩
  rw [hpart, List.erase_append_right _ hbefore, List.erase_cons_head, hcli]

/-- The port is given on the command line, and two dashes are exposed there. -/
theorem dashes_are_kept_behind_one_marker :
    ∃ part, mergeArguments [⟨"port", some "7000"⟩, ⟨"v6only", none⟩, ⟨"retries", some "3"⟩]
          ["-p", "8000", "host", "-", "-"] [('p', "port")] =
        ["--v6only", "--retries", "3"] ++ part ∧
      part = ["-p", "8000", "host", "--", "-", "-"] ∧
      part.erase "--" = ["-p", "8000", "host", "-", "-"] ∧
      mergeArguments [] part [('p', "port")] = part := by
  obtain ⟨part, hmerge, -, hexposed, -, hpart, hagain⟩ :=
    command_line_is_kept [⟨"port", some "7000"⟩, ⟨"v6only", none⟩, ⟨"retries", some "3"⟩]
      ["-p", "8000", "host", "-", "-"] [('p', "port")]
  obtain ⟨-, -, -, -, -, -, herased⟩ := hexposed ⟨["-p", "8000", "host"], ["-"], rfl, by decide⟩
  exact ⟨part, hmerge, hpart.symm.trans (by decide), herased, hagain⟩

/-! ### Options

Two questions are asked of an option: whether it is given at all, which decides about the entry, and
whether it is given ahead of the first lone dash, which decides about its place on the command line.
An option for which the answers differ is lost. -/

/-- The option is given ahead of the first lone dash. -/
def GivenAhead (aliases : Aliases) (cli : List String) (name : String) : Prop :=
  ∃ before argument after, cli = before ++ argument :: after ∧ endOfOptions ∉ before ∧
    standardInput ∉ before ∧ argument ≠ endOfOptions ∧ Gives aliases name argument

theorem GivenAhead.given (h : GivenAhead aliases cli name) : Given aliases cli name := by
  obtain ⟨before, argument, after, hcli, hbefore, -, hne, hgives⟩ := h
  exact ⟨before, argument, after, hcli, hbefore, hne, hgives⟩

/-- The option is given, but behind a lone dash only. -/
def Swallowed (aliases : Aliases) (cli : List String) (name : String) : Prop :=
  Given aliases cli name ∧ ¬ GivenAhead aliases cli name

/-- The end of options that has been put in leaves those options that are given ahead of it. -/
theorem Protection.given_iff (h : Protection cli part) :
    Given aliases part name ↔ GivenAhead aliases cli name := by
  cases h with
  | needless unexposed =>
    constructor
    · rintro ⟨before, argument, after, hcli, hbefore, hne, hgives⟩
      refine ⟨before, argument, after, hcli, hbefore, ?_, hne, hgives⟩
      intro hdash
      obtain ⟨front, back, rfl⟩ := List.append_of_mem hdash
      refine unexposed ⟨front, back ++ argument :: after, by rw [hcli]; simp, ?_⟩
      exact fun hend => hbefore (List.mem_append_left _ hend)
    · exact GivenAhead.given
  | inserted front back hfront hfront' =>
    -- either way the argument is one of those in front of the dash
    constructor
    · rintro ⟨before, argument, after, hpart, hbefore, hne, hgives⟩
      have hmem : argument ∈ front := by
        rw [← takeWhile_ne_append hfront (standardInput :: back)]
        exact mem_takeWhile_ne.2 ⟨before, after, hpart, hbefore, hne⟩
      obtain ⟨s, t, rfl⟩ := List.append_of_mem hmem
      rw [List.mem_append, not_or] at hfront hfront'
      exact ⟨s, argument, t ++ standardInput :: back, by simp, hfront.1, hfront'.1, hne, hgives⟩
    · rintro ⟨before, argument, after, hcli, -, hbefore', hne, hgives⟩
      have hdash : argument ≠ standardInput := by
        rintro rfl
        exact not_gives_standardInput hgives
      have hmem : argument ∈ front := by
        rw [← takeWhile_ne_append hfront' back]
        exact mem_takeWhile_ne.2 ⟨before, after, hcli, hbefore', hdash⟩
      obtain ⟨s, t, rfl⟩ := List.append_of_mem hmem
      rw [List.mem_append, not_or] at hfront
      exact ⟨s, argument, t ++ endOfOptions :: standardInput :: back, by simp, hfront.1, hne,
        hgives⟩

theorem givenAhead_iff :
    GivenAhead aliases cli name ↔ Given aliases (protectStandardInput cli) name :=
  (protection_protectStandardInput cli).given_iff.symm

instance : Decidable (GivenAhead aliases cli name) := decidable_of_iff _ givenAhead_iff.symm

instance : Decidable (Swallowed aliases cli name) := inferInstanceAs (Decidable (_ ∧ _))

theorem Protection.takeWhile_isPrefix (h : Protection cli part) :
    part.takeWhile (· != endOfOptions) <+: cli := by
  cases h with
  | needless => exact List.takeWhile_prefix _
  | inserted before after hbefore =>
    rw [takeWhile_ne_append hbefore]
    exact List.prefix_append _ _

theorem mem_arguments {e : Entry} {argument : String} :
    argument ∈ e.arguments ↔ argument = "--" ++ e.key ∨ e.value = some argument := by
  simp [Entry.arguments]

theorem option_eq_endOfOptions_iff {key : String} : "--" ++ key = endOfOptions ↔ key = "" := by
  rw [← String.toList_inj, ← String.toList_inj]
  simp [endOfOptions]

/-- Entries with a name bring no end of options, unless as the value of one of them. -/
theorem endOfOptions_notMem_arguments (named : ∀ e ∈ file, e.key ≠ "")
    (valued : ∀ e ∈ file, e.value ≠ some endOfOptions) :
    endOfOptions ∉ file.flatMap Entry.arguments := by
  rw [List.mem_flatMap]
  rintro ⟨e, he, hmem⟩
  rcases mem_arguments.1 hmem with hoption | hvalue
  · exact named e he (option_eq_endOfOptions_iff.1 hoption.symm)
  · exact valued e he hvalue

/-- Ahead of the first end of options come the entries that are kept, and then what the command line
has there; a `--` among the entries is the value of one of them and ends nothing.  Each option of
the configuration is there, as an entry if the command line does not give it and else as the command
line gives it, except for those that it gives behind a lone dash only: these are gone. -/
theorem options_are_lost_behind_a_dash_only (named : ∀ e ∈ file, e.key ≠ "") (cli : List String)
    (aliases : Aliases) :
    ∃ ahead behind, mergeArguments file cli aliases =
        (kept file cli aliases).flatMap Entry.arguments ++ (ahead ++ behind) ∧
      ahead <+: cli ∧ endOfOptions ∉ ahead ∧
      (behind = [] ∨ ∃ rest, behind = endOfOptions :: rest) ∧
      ((∀ e ∈ kept file cli aliases, e.value ≠ some endOfOptions) →
        (mergeArguments file cli aliases).takeWhile (· != endOfOptions) =
          (kept file cli aliases).flatMap Entry.arguments ++ ahead) ∧
      ∀ e ∈ file, (¬ Given aliases cli e.key → e ∈ kept file cli aliases) ∧
        (GivenAhead aliases cli e.key →
          e ∉ kept file cli aliases ∧ ∃ argument ∈ ahead, Gives aliases e.key argument) ∧
        (Swallowed aliases cli e.key →
          e ∉ kept file cli aliases ∧ ∀ argument ∈ ahead, ¬ Gives aliases e.key argument) := by
  have hprotection := protection_protectStandardInput cli
  refine ⟨(protectStandardInput cli).takeWhile (· != endOfOptions),
    (protectStandardInput cli).dropWhile (· != endOfOptions), ?_, hprotection.takeWhile_isPrefix,
    notMem_takeWhile_ne _ _, dropWhile_ne_cases _ _, ?_, ?_⟩
  · rw [List.takeWhile_append_dropWhile, mergeArguments_eq]
  · intro valued
    have hkept : ∀ e ∈ kept file cli aliases, e.key ≠ "" := fun e he => named e (mem_kept.1 he).1
    rw [mergeArguments_eq,
      takeWhile_ne_append_of_notMem (endOfOptions_notMem_arguments hkept valued)]
  · intro e he
    have hahead : (∃ argument ∈ (protectStandardInput cli).takeWhile (· != endOfOptions),
        Gives aliases e.key argument) ↔ GivenAhead aliases cli e.key :=
      given_iff.symm.trans hprotection.given_iff
    refine ⟨fun h => mem_kept.2 ⟨he, h⟩, ?_, ?_⟩
    · intro h
      exact ⟨fun hkept => (mem_kept.1 hkept).2 h.given, hahead.2 h⟩
    · rintro ⟨hgiven, hbehind⟩
      refine ⟨fun hkept => (mem_kept.1 hkept).2 hgiven, ?_⟩
      intro argument hmem hgives
      exact hbehind (hahead.1 ⟨argument, hmem, hgives⟩)

/-- A configuration with a value that looks like an end of options. -/
def dashedInterface : List Entry :=
  [⟨"interface", some "--"⟩, ⟨"port", some "7000"⟩, ⟨"retries", some "3"⟩]

/-- The port that is given in front of the dash takes the place of the configured one, and the value
`--` ends nothing. -/
theorem port_is_given_ahead_of_the_dash :
    (∀ e ∈ dashedInterface, e.key ≠ "") ∧
      ∃ ahead behind, mergeArguments dashedInterface ["-p", "8000", "host", "-"] [('p', "port")] =
          ["--interface", "--", "--retries", "3"] ++ (ahead ++ behind) ∧
        endOfOptions ∉ ahead ∧ (behind = [] ∨ ∃ rest, behind = endOfOptions :: rest) ∧
        ∃ argument ∈ ahead, Gives [('p', "port")] "port" argument := by
  have named : ∀ e ∈ dashedInterface, e.key ≠ "" := by decide
  obtain ⟨ahead, behind, hmerge, -, hahead, hbehind, -, hoptions⟩ :=
    options_are_lost_behind_a_dash_only named ["-p", "8000", "host", "-"] [('p', "port")]
  obtain ⟨-, hgiven, -⟩ := hoptions ⟨"port", some "7000"⟩ (by decide)
  exact ⟨named, ahead, behind, hmerge, hahead, hbehind, (hgiven (by decide)).2⟩

/-- A port that is given behind the dash is a file to be sent, and the configured one is left
out. -/
theorem option_behind_a_dash_is_lost :
    Swallowed [('p', "port")] ["host", "-", "--port", "8000"] "port" ∧
      mergeArguments [⟨"port", some "7000"⟩] ["host", "-", "--port", "8000"] [('p', "port")] =
        ["host", "--", "-", "--port", "8000"] ∧
      ¬ Given [('p', "port")] ["host", "--", "-", "--port", "8000"] "port" := by
  decide

end TftpUpload.Config
