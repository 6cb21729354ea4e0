/-
  TftpUpload/Proofs/Text/Blank.lean
  =================================
  **What trimming and cutting into lines leave.**

  A text is trimmed at its end as `List.rdropWhile` does it, so what is known of
  that holds here (`trimEnd_eq`).  Blanks beside a text do not matter to trimming
  (`trim_blank_append`, `trim_append_blank`), and what begins and ends with
  something else is left as it is.  Lines with line feeds between them are what
  the text is cut into again, but for carriage returns at their ends and an empty
  line at the end of all (`lines_intercalate`).
-/
import Mathlib.Data.List.DropRight
import TftpUpload.Text.Blank

namespace TftpUpload.Text

variable {cs blanks word : List Char} {c : Char}

/-! ### Trimming

Trimming goes by the ends of a text.  At its front it stops at the first character that is no blank,
and at its end at the last one, so a text that has one of each is left as it is between them. -/

theorem trimEnd_eq (cs : List Char) : trimEnd cs = cs.rdropWhile isBlank := by
  induction cs with
  | nil => rfl
  | cons c rest ih =>
    have hcons : (c :: rest).rdropWhile isBlank =
        if rest.rdropWhile isBlank = [] then [c].rdropWhile isBlank
        else c :: rest.rdropWhile isBlank := by
      simp only [List.rdropWhile, List.reverse_cons, List.dropWhile_append, List.reverse_eq_nil_iff,
        List.isEmpty_iff]
      split <;> simp
    rw [trimEnd, hcons, ← ih, List.rdropWhile_singleton]
    split
    · rename_i hnil
      rw [if_pos hnil]
    · rename_i hkept
      rw [if_neg hkept]

theorem trimEnd_append_blank (cs : List Char) (h : ∀ c ∈ blanks, isBlank c = true) :
    trimEnd (cs ++ blanks) = trimEnd cs := by
  rw [trimEnd_eq, trimEnd_eq, List.rdropWhile, List.reverse_append,
    List.dropWhile_append_of_pos (by simpa using h), List.rdropWhile]

/-- What does not end with a blank is left as it is. -/
theorem trimEnd_concat (cs : List Char) (h : isBlank c = false) :
    trimEnd (cs ++ [c]) = cs ++ [c] := by
  rw [trimEnd_eq, List.rdropWhile_concat_neg _ _ _ (by simp [h])]

theorem exists_blank_append (cs : List Char) :
    ∃ blanks, cs = trimEnd cs ++ blanks ∧ ∀ c ∈ blanks, isBlank c = true := by
  refine ⟨cs.rtakeWhile isBlank, ?_, fun c => List.mem_rtakeWhile_imp⟩
  rw [trimEnd_eq, List.rdropWhile_append_rtakeWhile]

theorem trimEnd_cons (h : isBlank c = false) (rest : List Char) :
    trimEnd (c :: rest) = c :: trimEnd rest := by
  rw [trimEnd]
  split
  · rename_i hnil
    rw [hnil, if_neg (by simp [h])]
  · rfl

theorem trimEnd_word_append (h : ∀ c ∈ word, isBlank c = false) (rest : List Char) :
    trimEnd (word ++ rest) = word ++ trimEnd rest := by
  induction word with
  | nil => rfl
  | cons c word ih =>
    rw [List.forall_mem_cons] at h
    rw [List.cons_append, trimEnd_cons h.1, ih h.2, List.cons_append]

theorem trim_eq_nil (h : ∀ c ∈ cs, isBlank c = true) : trim cs = [] := by
  rw [trim, List.dropWhile_eq_nil_iff.2 h]
  rfl

theorem trim_blank_append (h : ∀ c ∈ blanks, isBlank c = true) (cs : List Char) :
    trim (blanks ++ cs) = trim cs := by
  rw [trim, trim, List.dropWhile_append_of_pos h]

theorem trim_append_blank (cs : List Char) (h : ∀ c ∈ blanks, isBlank c = true) :
    trim (cs ++ blanks) = trim cs := by
  rw [trim, trim, List.dropWhile_append]
  split
  · rename_i hempty
    rw [List.dropWhile_eq_nil_iff.2 h, List.isEmpty_iff.1 hempty]
  · exact trimEnd_append_blank _ h

theorem trim_trimEnd (cs : List Char) : trim (trimEnd cs) = trim cs := by
  obtain ⟨blanks, hcs, hblank⟩ := exists_blank_append cs
  calc trim (trimEnd cs) = trim (trimEnd cs ++ blanks) := (trim_append_blank _ hblank).symm
    _ = trim cs := by rw [← hcs]

/-- What does not begin with a blank is trimmed at its end only. -/
theorem trim_cons (h : isBlank c = false) (rest : List Char) :
    trim (c :: rest) = c :: trimEnd rest := by
  rw [trim, List.dropWhile_cons_of_neg (by simp [h]), trimEnd_cons h]

/-! ### Lines -/

/-- A carriage return at the end of a line does not matter to trimming. -/
theorem trim_dropReturn (line : List Char) : trim (dropReturn line) = trim line := by
  have hline : dropReturn line = line ∨ line = dropReturn line ++ ['\r'] := by
    induction line using dropReturn.induct with
    | case1 => exact .inl rfl
    | case2 => exact .inr rfl
    | case3 c rest hreturn ih =>
      rw [dropReturn]
      · rcases ih with heq | heq
        · exact .inl (congrArg (c :: ·) heq)
        · exact .inr (congrArg (c :: ·) heq)
      · exact hreturn
  rcases hline with heq | heq
  · rw [heq]
  · have hblank : ∀ c ∈ ['\r'], isBlank c = true := List.forall_mem_singleton.2 (by decide)
    calc trim (dropReturn line) = trim (dropReturn line ++ ['\r']) :=
          (trim_append_blank _ hblank).symm
      _ = trim line := by rw [← heq]

/-- Carriage returns and an empty line at the end are all that lines lose. -/
theorem filterMap_linesOfPieces {α : Type} {f : List Char → Option α} (hnil : f [] = none)
    (hreturn : ∀ line, f (dropReturn line) = f line) (pieces : List (List Char)) :
    (linesOfPieces pieces).filterMap f = pieces.filterMap f := by
  induction pieces with
  | nil => rfl
  | cons line rest ih =>
    cases rest with
    | nil =>
      rw [linesOfPieces]
      split
      · rename_i hempty
        rw [List.isEmpty_iff.1 hempty, List.filterMap_cons_none hnil]
      · rfl
    | cons next rest =>
      rw [linesOfPieces, List.filterMap_cons, List.filterMap_cons, hreturn, ih]
      exact List.cons_ne_nil next rest

theorem lines_intercalate {pieces : List (List Char)} (hne : pieces ≠ [])
    (h : ∀ piece ∈ pieces, '\n' ∉ piece) :
    lines (['\n'].intercalate pieces) = linesOfPieces pieces := by
  rw [lines, List.splitOn_intercalate '\n' h hne]

end TftpUpload.Text
