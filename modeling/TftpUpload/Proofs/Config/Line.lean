/-
  TftpUpload/Proofs/Config/Line.lean
  ==================================
  **What a line of a configuration says.**

  A line is blank, or a comment, or it begins with a word, after blanks
  (`line_cases`).  The first two say nothing.  The word names an option, and what
  stands behind the word, trimmed and without quotes, is its value
  (`entry?_word`).
-/
import TftpUpload.Config.Entry
import TftpUpload.Proofs.Text.Blank

namespace TftpUpload.Config

open Text

variable {before word after line line' : List Char}

/-! ### Blanks and words -/

def Blank (cs : List Char) : Prop := ∀ c ∈ cs, isBlank c = true

structure Word (cs : List Char) : Prop where
  nonempty : cs ≠ []
  solid : ∀ c ∈ cs, isBlank c = false

-- `Char` is finite, and an instance that tries all its values must not be found for these two
instance {cs : List Char} : Decidable (Blank cs) := List.decidableBAll _ cs

instance {cs : List Char} : Decidable (Word cs) :=
  have : Decidable (∀ c ∈ cs, isBlank c = false) := List.decidableBAll _ cs
  decidable_of_iff (cs ≠ [] ∧ ∀ c ∈ cs, isBlank c = false)
    ⟨fun h => ⟨h.1, h.2⟩, fun h => ⟨h.nonempty, h.solid⟩⟩

/-- The text is empty or begins with a blank, so that a word before it ends there. -/
def Parted (cs : List Char) : Prop := ∀ c ∈ cs.head?, isBlank c = true

theorem Blank.parted (h : Blank after) : Parted after := by
  intro c hc
  exact h c (List.mem_of_mem_head? hc)

theorem Word.takeWhile_append (hword : Word word) (hafter : Parted after) :
    (word ++ after).takeWhile (!isBlank ·) = word := by
  rw [List.takeWhile_append_of_pos (by simpa using hword.solid)]
  cases after with
  | nil => simp
  | cons c rest =>
    have hc : isBlank c = true := hafter c rfl
    rw [List.takeWhile_cons_of_neg (by simp [hc]), List.append_nil]

theorem Word.dropWhile_append (hword : Word word) (hafter : Parted after) :
    (word ++ after).dropWhile (!isBlank ·) = after := by
  rw [List.dropWhile_append_of_pos (by simpa using hword.solid)]
  cases after with
  | nil => rfl
  | cons c rest =>
    have hc : isBlank c = true := hafter c rfl
    rw [List.dropWhile_cons_of_neg (by simp [hc])]

theorem Word.trim_append (hword : Word word) (after : List Char) :
    trim (word ++ after) = word ++ trimEnd after := by
  obtain ⟨c, rest, rfl⟩ := List.exists_cons_of_ne_nil hword.nonempty
  rw [List.cons_append, trim_cons (hword.solid c List.mem_cons_self),
    ← trimEnd_cons (hword.solid c List.mem_cons_self), ← List.cons_append,
    trimEnd_word_append hword.solid]

theorem Parted.trimEnd (h : Parted after) : Parted (trimEnd after) := by
  obtain ⟨blanks, hafter, -⟩ := exists_blank_append after
  intro c hc
  apply h c
  rw [hafter, List.head?_append, Option.mem_def.1 hc]
  rfl

/-! ### Lines

A line is looked at after its blanks at both ends have been taken off, so that lines which differ in
these say the same. -/

def valueOf (after : List Char) : Option String :=
  let value := unquote (trim after)
  if value.isEmpty then none else some (String.ofList value)

/-- What a line says is left when it is trimmed. -/
theorem entry?_congr (h : trim line = trim line') : entry? line = entry? line' := by
  unfold entry?
  rw [h]

theorem entry?_blank (h : Blank line) : entry? line = none := by
  have hnil : trim line = trim [] := trim_eq_nil h
  rw [entry?_congr hnil]
  rfl

theorem entry?_comment (h : Blank before) (remark : List Char) :
    entry? (before ++ '#' :: remark) = none := by
  rw [entry?_congr (trim_blank_append h _)]
  unfold entry?
  rw [trim_cons (by decide)]
  rfl

theorem entryOfLine_word (hword : Word word) (hafter : Parted after) :
    entryOfLine (word ++ trimEnd after) =
      ⟨String.ofList (word.dropWhile (· == '-')), valueOf after⟩ := by
  have hparted := hafter.trimEnd
  unfold entryOfLine valueOf
  rw [hword.takeWhile_append hparted, hword.dropWhile_append hparted, ← trim_trimEnd after]
  cases hrest : trimEnd after with
  | nil => rfl
  | cons c rest =>
    have hc : Blank [c] := List.forall_mem_singleton.2 (hparted c (by rw [hrest]; rfl))
    rw [← List.singleton_append, trim_blank_append hc]
    rfl

/-- A word names an option, unless it begins a comment. -/
theorem entry?_word (hbefore : Blank before) (hword : Word word) (hhash : '#' ∉ word.head?)
    (hafter : Parted after) : entry? (before ++ (word ++ after)) =
      some ⟨String.ofList (word.dropWhile (· == '-')), valueOf after⟩ := by
  rw [entry?_congr (trim_blank_append hbefore _)]
  unfold entry?
  rw [hword.trim_append, ← entryOfLine_word hword hafter]
  obtain ⟨c, rest, rfl⟩ := List.exists_cons_of_ne_nil hword.nonempty
  have hc : c ≠ '#' := by
    rintro rfl
    exact hhash rfl
  simp [hc]

/-- There are three kinds of lines. -/
theorem line_cases (line : List Char) : Blank line ∨
    (∃ before remark, line = before ++ '#' :: remark ∧ Blank before) ∨
    ∃ before word after, line = before ++ (word ++ after) ∧ Blank before ∧ Word word ∧
      '#' ∉ word.head? ∧ Parted after := by
  have hbefore : Blank (line.takeWhile isBlank) := fun c hc => List.mem_takeWhile_imp hc
  have hline := List.takeWhile_append_dropWhile (p := isBlank) (l := line)
  cases hrest : line.dropWhile isBlank with
  | nil =>
    rw [hrest, List.append_nil] at hline
    exact .inl (hline ▸ hbefore)
  | cons c rest =>
    have hc : isBlank c = false := by
      have hhead := List.head?_dropWhile_not isBlank line
      rw [hrest] at hhead
      simpa using hhead
    rw [hrest] at hline
    by_cases hhash : c = '#'
    · exact .inr (.inl ⟨line.takeWhile isBlank, rest, by rw [← hhash, hline], hbefore⟩)
    · have hsplit := List.takeWhile_append_dropWhile (p := (!isBlank ·)) (l := c :: rest)
      have hword : (c :: rest).takeWhile (!isBlank ·) = c :: rest.takeWhile (!isBlank ·) :=
        List.takeWhile_cons_of_pos (by simp [hc])
      refine .inr (.inr ⟨line.takeWhile isBlank, (c :: rest).takeWhile (!isBlank ·),
        (c :: rest).dropWhile (!isBlank ·), by rw [hsplit, hline], hbefore, ⟨?_, ?_⟩, ?_, ?_⟩)
      · rw [hword]
        exact List.cons_ne_nil _ _
      · intro d hd
        simpa using List.mem_takeWhile_imp hd
      · rw [hword]
        simpa using hhash
      · intro d hd
        have hhead := List.head?_dropWhile_not (!isBlank ·) (c :: rest)
        rw [Option.mem_def.1 hd] at hhead
        simpa using hhead

end TftpUpload.Config
