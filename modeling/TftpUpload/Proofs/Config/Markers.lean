/-
  TftpUpload/Proofs/Config/Markers.lean
  =====================================
  **Whether a configuration ends the options.**

  The dashes in front of a key are taken off and two are put on again.  A key of
  dashes alone becomes an end of options by that, and no other key does
  (`key_eq_empty_iff`).  A value may be `--` as well; it ends the options if
  nothing before it takes a value.

  Without these two the options of the command line remain options, whoever reads
  the arguments, as long as it is done in the way that `Reads` says
  (`configuration_ends_no_options`).
-/
import TftpUpload.CommandLine.Upload
import TftpUpload.Proofs.CommandLine.Reading
import TftpUpload.Proofs.Config.Line

namespace TftpUpload.Config

open Text CommandLine

variable {line : List Char} {e : Entry} {text : String} {cli : List String} {aliases : Aliases}

/-! ### Keys of dashes

The condition is on the line as it stands in the file.  Behind the dashes there may be blanks and a
value, and in front of them blanks only. -/

/-- Between blanks there are nothing but dashes where the name should be. -/
def NamesNothing (line : List Char) : Prop :=
  ∃ before dashes after, line = before ++ (dashes ++ after) ∧ Blank before ∧ dashes ≠ [] ∧
    (∀ c ∈ dashes, c = '-') ∧ Parted after

theorem word_of_dashes {dashes : List Char} (hne : dashes ≠ []) (h : ∀ c ∈ dashes, c = '-') :
    Word dashes ∧ '#' ∉ dashes.head? := by
  refine ⟨⟨hne, ?_⟩, ?_⟩
  · intro c hc
    rw [h c hc]
    decide
  · intro hhash
    exact absurd (h _ (List.mem_of_mem_head? hhash)) (by decide)

theorem NamesNothing.unnamed (h : NamesNothing line) : ∃ e, entry? line = some e ∧ e.key = "" := by
  obtain ⟨before, dashes, after, rfl, hbefore, hne, hdashes, hafter⟩ := h
  obtain ⟨hword, hhash⟩ := word_of_dashes hne hdashes
  refine ⟨_, entry?_word hbefore hword hhash hafter, ?_⟩
  rw [List.dropWhile_eq_nil_iff.2 (by simpa using hdashes)]

theorem key_eq_empty_iff (h : entry? line = some e) : e.key = "" ↔ NamesNothing line := by
  constructor
  · intro hkey
    rcases line_cases line with hblank | ⟨before, remark, rfl, hbefore⟩ |
      ⟨before, word, after, rfl, hbefore, hword, hhash, hafter⟩
    · rw [entry?_blank hblank] at h
      cases h
    · rw [entry?_comment hbefore] at h
      cases h
    · rw [entry?_word hbefore hword hhash hafter] at h
      cases h
      refine ⟨before, word, after, rfl, hbefore, hword.nonempty, ?_, hafter⟩
      have hnil : word.dropWhile (· == '-') = [] := by
        rw [← String.toList_inj] at hkey
        simpa using hkey
      simpa using List.dropWhile_eq_nil_iff.1 hnil
  · intro hnothing
    obtain ⟨e', he', hkey⟩ := hnothing.unnamed
    rw [h] at he'
    cases he'
    exact hkey

/-- An entry without a name is that of a line that names nothing. -/
theorem exists_unnamed_iff :
    (∃ e ∈ parse text, e.key = "") ↔ ∃ line ∈ lines text.toList, NamesNothing line := by
  unfold parse
  constructor
  · rintro ⟨e, he, hkey⟩
    obtain ⟨line, hline, hentry⟩ := List.mem_filterMap.1 he
    exact ⟨line, hline, (key_eq_empty_iff hentry).1 hkey⟩
  · rintro ⟨line, hline, hnothing⟩
    obtain ⟨e, hentry, hkey⟩ := hnothing.unnamed
    exact ⟨e, List.mem_filterMap.2 ⟨line, hline, hentry⟩, hkey⟩

/-! ### Reading behind a configuration

The reader of the program's own arguments is one of many, and all that counts about it is which
arguments it takes for options. -/

theorem reads_of_read {g : Grammar} {args : List String} {given : CommandLine.Given}
    (h : g.read args = .ok given) : Reads g {} args given := by
  unfold Grammar.read at h
  split at h
  · cases h
  · rename_i hread
    split at h <;> cases h
    exact reads_of_readFrom hread

/-- An option of the configuration is an end of options exactly if a line has dashes alone for a key
and the command line does not give an option without a name.  If there is none, and if no value is
`--` or each entry has a value exactly if its option takes one, then whoever reads options in the
usual way finds the arguments as if there were no configuration: what begins with a dash among them
has stood behind the end of options that the command line has by itself. -/
theorem configuration_ends_no_options (text : String) (cli : List String) (aliases : Aliases) :
    ((∃ e ∈ kept (parse text) cli aliases, "--" ++ e.key = endOfOptions) ↔
      (∃ line ∈ lines text.toList, NamesNothing line) ∧ ¬ Given aliases cli "") ∧
    ∀ (ε : Type) (read : List String → Except ε CommandLine.Given) (g : Grammar)
      (given : CommandLine.Given),
      (∀ args given, read args = .ok given → Reads g {} args given) →
      (∀ e ∈ kept (parse text) cli aliases, "--" ++ e.key ≠ endOfOptions) →
      ((∀ e ∈ kept (parse text) cli aliases, e.value ≠ some endOfOptions) ∨
        ∀ e ∈ kept (parse text) cli aliases, g.Fits e) →
      read (mergeArguments (parse text) cli aliases) = .ok given →
      (given.arguments.filter isDashed).Sublist
        ((mergeArguments [] cli aliases).dropWhile (· != endOfOptions)) := by
  constructor
  · rw [← exists_unnamed_iff]
    constructor
    · rintro ⟨e, he, hend⟩
      obtain ⟨hmem, hgiven⟩ := mem_kept.1 he
      have hkey : e.key = "" := option_eq_endOfOptions_iff.1 hend
      exact ⟨⟨e, hmem, hkey⟩, hkey ▸ hgiven⟩
    · rintro ⟨⟨e, hmem, hkey⟩, hgiven⟩
      exact ⟨e, mem_kept.2 ⟨hmem, hkey ▸ hgiven⟩, option_eq_endOfOptions_iff.2 hkey⟩
  · intro ε read g given reads named hvalues hread
    have hreads := reads _ _ hread
    rw [mergeArguments_eq] at hreads
    have hnamed : ∀ e ∈ kept (parse text) cli aliases, e.key ≠ "" := by
      intro e he hkey
      exact named e he (option_eq_endOfOptions_iff.2 hkey)
    rcases hvalues with valued | fits
    · obtain ⟨new, harguments, -, hdashed⟩ := hreads.arguments
      have hfile := endOfOptions_notMem_arguments hnamed valued
      have hsub := hdashed rfl
      rw [dropWhile_ne_append_of_notMem hfile] at hsub
      rw [harguments]
      exact hsub
    · obtain ⟨given', hopen, hsame, hrest⟩ := hreads.entries rfl hnamed fits
      obtain ⟨new, harguments, -, hdashed⟩ := hrest.arguments
      rw [harguments, hsame]
      exact hdashed hopen

/-- The value `--` is that of an option which takes one, so what begins with a dash has stood behind
the end of options in front of the lone dash. -/
theorem dashed_interface_ends_no_options :
    (∀ e ∈ kept (parse "interface --\n--v6only\n") ["host", "-", "--port"] Upload.grammar.aliases,
        "--" ++ e.key ≠ endOfOptions ∧ Upload.grammar.Fits e) ∧
      ∃ given, Upload.grammar.read (mergeArguments (parse "interface --\n--v6only\n")
          ["host", "-", "--port"] Upload.grammar.aliases) = .ok given ∧
        given.value? "interface" = some "--" ∧
        (given.arguments.filter isDashed).Sublist ["--", "-", "--port"] := by
  have hkept : ∀ e ∈ kept (parse "interface --\n--v6only\n") ["host", "-", "--port"]
      Upload.grammar.aliases, "--" ++ e.key ≠ endOfOptions ∧ Upload.grammar.Fits e := by
    decide +kernel
  have hread : Upload.grammar.read (mergeArguments (parse "interface --\n--v6only\n")
      ["host", "-", "--port"] Upload.grammar.aliases) =
        .ok { switches := ["v6only"], values := [("interface", "--")]
              arguments := ["host", "-", "--port"], optionsEnded := true } := by
    decide +kernel
  have hdashed := (configuration_ends_no_options _ _ _).2 _ Upload.grammar.read Upload.grammar _
    (fun _ _ => reads_of_read) (fun e he => (hkept e he).1) (.inr fun e he => (hkept e he).2) hread
  exact ⟨hkept, _, hread, rfl, hdashed⟩

/-- Options become arguments behind a key of dashes alone, and behind `--` as the value of a
switch. -/
theorem dashes_turn_options_into_arguments :
    (∃ e ∈ kept (parse "--\n") ["--port", "8000"] Upload.grammar.aliases,
        "--" ++ e.key = endOfOptions) ∧
      mergeArguments (parse "--\n") ["--port", "8000"] Upload.grammar.aliases =
        ["--", "--port", "8000"] ∧
      (Upload.grammar.read ["--", "--port", "8000"]).map (·.arguments) = .ok ["--port", "8000"] ∧
      mergeArguments (parse "v6only --\n") ["--port", "8000"] Upload.grammar.aliases =
        ["--v6only", "--", "--port", "8000"] ∧
      (Upload.grammar.read ["--v6only", "--", "--port", "8000"]).map (·.arguments) =
        .ok ["--port", "8000"] := by
  decide +kernel

end TftpUpload.Config
