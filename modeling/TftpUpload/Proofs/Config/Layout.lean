/-
  TftpUpload/Proofs/Config/Layout.lean
  ====================================
  **Any value can be configured in quotes.**

  Entries are laid out as lines: each as its key alone, or as its key and its
  value in quotes, with blanks around them and with comments and blank lines in
  between (`Layout`).  However that is done, the entries are read back
  (`quoted_values_are_read_back`).  Only one pair of quotes is taken away, and
  trimming stops at it, so a value may have quotes and blanks at its ends; it
  must not be empty, which would be no value, and cannot hold a line feed.
-/
import TftpUpload.Proofs.Config.Line

namespace TftpUpload.Config

open Text

variable {line : List Char} {lines : List (List Char)} {e : Entry} {entries : List Entry}

/-! ### Entries and lines

A layout is a relation, and not one way of printing: lines between entries, blanks within them, and
quotes where none are needed are all left open. -/

/-- The entry can be written: its key is taken for a key, and its value is one and fits on a
line. -/
structure Entry.Writable (e : Entry) : Prop where
  word : Word e.key.toList
  undashed : '-' ∉ e.key.toList.head?
  uncommented : '#' ∉ e.key.toList.head?
  nonempty : e.value ≠ some ""
  oneLine : ∀ value ∈ e.value, '\n' ∉ value.toList

instance : Decidable e.Writable :=
  decidable_of_iff (Word e.key.toList ∧ '-' ∉ e.key.toList.head? ∧ '#' ∉ e.key.toList.head? ∧
      e.value ≠ some "" ∧ ∀ value ∈ e.value, '\n' ∉ value.toList)
    ⟨fun ⟨hword, hdash, hhash, hne, hline⟩ => ⟨hword, hdash, hhash, hne, hline⟩,
      fun h => ⟨h.word, h.undashed, h.uncommented, h.nonempty, h.oneLine⟩⟩

structure Gap (cs : List Char) : Prop where
  blank : Blank cs
  within : '\n' ∉ cs

instance {cs : List Char} : Decidable (Gap cs) :=
  decidable_of_iff (Blank cs ∧ '\n' ∉ cs) ⟨fun h => ⟨h.1, h.2⟩, fun h => ⟨h.blank, h.within⟩⟩

inductive Silent : List Char → Prop where
  | blank {line : List Char} : Gap line → Silent line
  | comment (before remark : List Char) : Gap before → '\n' ∉ remark →
      Silent (before ++ '#' :: remark)

def quoted (value : List Char) : List Char := '"' :: (value ++ ['"'])

inductive Writes : Entry → List Char → Prop where
  | bare (before : List Char) (key : String) (after : List Char) : Gap before → Gap after →
      Writes ⟨key, none⟩ (before ++ (key.toList ++ after))
  | valued (before : List Char) (key : String) (between : List Char) (value : String)
      (after : List Char) : Gap before → Gap between → between ≠ [] → Gap after →
      Writes ⟨key, some value⟩
        (before ++ (key.toList ++ (between ++ (quoted value.toList ++ after))))

/-- Lines that give some entries, one after the other. -/
inductive Layout : List Entry → List (List Char) → Prop where
  | nil : Layout [] []
  | silent {entries : List Entry} {line : List Char} {lines : List (List Char)} :
      Silent line → Layout entries lines → Layout entries (line :: lines)
  | entry {e : Entry} {entries : List Entry} {line : List Char} {lines : List (List Char)} :
      Writes e line → Layout entries lines → Layout (e :: entries) (line :: lines)

/-- Lines with line feeds between them.  If the last one is empty, all others end with one. -/
def textOf (lines : List (List Char)) : String := String.ofList (['\n'].intercalate lines)

/-- The plainest line for an entry. -/
def Entry.plainLine (e : Entry) : List Char :=
  match e.value with
  | none => e.key.toList
  | some value => e.key.toList ++ ' ' :: quoted value.toList

theorem gap_nil : Gap [] := ⟨List.forall_mem_nil _, List.not_mem_nil⟩

theorem writes_plainLine (e : Entry) : Writes e e.plainLine := by
  obtain ⟨key, value⟩ := e
  cases value with
  | none => simpa [Entry.plainLine] using Writes.bare [] key [] gap_nil gap_nil
  | some value =>
    have hspace : Gap [' '] := by decide
    simpa [Entry.plainLine] using
      Writes.valued [] key [' '] value [] gap_nil hspace (List.cons_ne_nil _ _) gap_nil

theorem layout_plainLines (entries : List Entry) :
    Layout entries (entries.map Entry.plainLine) := by
  induction entries with
  | nil => exact .nil
  | cons e entries ih => exact .entry (writes_plainLine e) ih

/-! ### Reading a line

The value is trimmed first, which stops at its quotes, and then loses one pair of them. -/

theorem unquote_quoted (value : List Char) : unquote (quoted value) = value := by
  simp [unquote, quoted, between?]

theorem trim_quoted (value : List Char) : trim (quoted value) = quoted value := by
  rw [quoted, trim_cons (by decide), trimEnd_concat _ (by decide)]

theorem Silent.reads_none (h : Silent line) : entry? line = none := by
  cases h with
  | blank hgap => exact entry?_blank hgap.blank
  | comment before remark hgap => exact entry?_comment hgap.blank remark

theorem Entry.Writable.dropWhile_key (h : e.Writable) :
    e.key.toList.dropWhile (· == '-') = e.key.toList := by
  obtain ⟨c, rest, hkey⟩ := List.exists_cons_of_ne_nil h.word.nonempty
  have hc : c ≠ '-' := by
    rintro rfl
    exact h.undashed (by rw [hkey]; rfl)
  rw [hkey, List.dropWhile_cons_of_neg (by simpa using hc)]

/-- Of a line that gives an entry only the value remains to be read. -/
theorem Entry.Writable.entry?_append (h : e.Writable) {before after : List Char}
    (hbefore : Gap before) (hafter : Parted after) :
    entry? (before ++ (e.key.toList ++ after)) = some ⟨e.key, valueOf after⟩ := by
  rw [entry?_word hbefore.blank h.word h.uncommented hafter, h.dropWhile_key, String.ofList_toList]

theorem valueOf_blank {after : List Char} (h : Blank after) : valueOf after = none := by
  rw [valueOf, trim_eq_nil h]
  rfl

theorem valueOf_quoted {between after : List Char} {value : String} (hbetween : Blank between)
    (hafter : Blank after) (hne : value ≠ "") :
    valueOf (between ++ (quoted value.toList ++ after)) = some value := by
  rw [valueOf, trim_blank_append hbetween, trim_append_blank _ hafter, trim_quoted, unquote_quoted]
  have hvalue : value.toList.isEmpty = false := by simpa using hne
  simp [hvalue]

theorem Gap.parted_append {between : List Char} (h : Gap between) (hne : between ≠ [])
    (rest : List Char) : Parted (between ++ rest) := by
  obtain ⟨c, between, rfl⟩ := List.exists_cons_of_ne_nil hne
  intro d hd
  obtain rfl : c = d := Option.some.inj hd
  exact h.blank c List.mem_cons_self

theorem Writes.reads_some (h : Writes e line) (writable : e.Writable) : entry? line = some e := by
  cases h with
  | bare before key after hbefore hafter =>
    rw [writable.entry?_append hbefore hafter.blank.parted, valueOf_blank hafter.blank]
  | valued before key between value after hbefore hbetween hne hafter =>
    have hvalue : value ≠ "" := fun heq => writable.nonempty (congrArg some heq)
    rw [writable.entry?_append hbefore (hbetween.parted_append hne _),
      valueOf_quoted hbetween.blank hafter.blank hvalue]

/-! ### Reading lines -/

theorem Silent.oneLine (h : Silent line) : '\n' ∉ line := by
  cases h with
  | blank hgap => exact hgap.within
  | comment before remark hgap hremark => simp [hgap.within, hremark]

theorem Entry.Writable.oneLine_key (h : e.Writable) : '\n' ∉ e.key.toList := by
  intro hmem
  have hsolid := h.word.solid '\n' hmem
  revert hsolid
  decide

theorem Writes.oneLine (h : Writes e line) (writable : e.Writable) : '\n' ∉ line := by
  cases h with
  | bare before key after hbefore hafter =>
    have hkey := writable.oneLine_key
    simp [hbefore.within, hkey, hafter.within]
  | valued before key between value after hbefore hbetween hne hafter =>
    have hkey := writable.oneLine_key
    have hvalue := writable.oneLine value rfl
    simp [hbefore.within, hkey, hbetween.within, quoted, hvalue, hafter.within]

theorem Layout.reads_all (h : Layout entries lines) (writable : ∀ e ∈ entries, e.Writable) :
    lines.filterMap entry? = entries := by
  induction h with
  | nil => rfl
  | silent hsilent _ ih => rw [List.filterMap_cons_none hsilent.reads_none, ih writable]
  | entry hwrites _ ih =>
    rw [List.forall_mem_cons] at writable
    rw [List.filterMap_cons_some (hwrites.reads_some writable.1), ih writable.2]

theorem Layout.oneLine (h : Layout entries lines) (writable : ∀ e ∈ entries, e.Writable) :
    ∀ line ∈ lines, '\n' ∉ line := by
  induction h with
  | nil => exact List.forall_mem_nil _
  | silent hsilent _ ih => exact List.forall_mem_cons.2 ⟨hsilent.oneLine, ih writable⟩
  | entry hwrites _ ih =>
    rw [List.forall_mem_cons] at writable
    exact List.forall_mem_cons.2 ⟨hwrites.oneLine writable.1, ih writable.2⟩

theorem parse_textOf (h : ∀ line ∈ lines, '\n' ∉ line) :
    parse (textOf lines) = lines.filterMap entry? := by
  cases lines with
  | nil => rfl
  | cons line rest =>
    rw [parse, textOf, String.toList_ofList, lines_intercalate (List.cons_ne_nil _ _) h]
    apply filterMap_linesOfPieces rfl
    intro piece
    exact entry?_congr (trim_dropReturn piece)

/-- Entries that can be written have a layout, and from any of their layouts exactly they are read,
in their order. -/
theorem quoted_values_are_read_back (writable : ∀ e ∈ entries, e.Writable) :
    Layout entries (entries.map Entry.plainLine) ∧
      ∀ lines, Layout entries lines → parse (textOf lines) = entries := by
  constructor
  · exact layout_plainLines entries
  · intro lines hlayout
    rw [parse_textOf (hlayout.oneLine writable), hlayout.reads_all writable]

/-- Values with quotes, a comment sign and blanks at their ends. -/
def awkward : List Entry :=
  [⟨"root", some "  #'a' \"b\"\r "⟩, ⟨"v6only", none⟩, ⟨"name", some "\""⟩]

theorem awkward_values_are_read_back : (∀ e ∈ awkward, e.Writable) ∧
    parse "# lab\r\n\n \troot\t \"  #'a' \"b\"\r \" \r\nv6only \n  name \"\"\"\n" = awkward := by
  have writable : ∀ e ∈ awkward, e.Writable := by decide
  -- from the last line to the first one
  have hname := Layout.entry (.valued "  ".toList "name" [' '] "\"" [] (by decide) (by decide)
    (by decide) gap_nil) (.silent (.blank gap_nil) .nil)
  have hv6only := Layout.entry (.bare [] "v6only" [' '] gap_nil (by decide)) hname
  have hroot := Layout.entry (.valued " \t".toList "root" "\t ".toList "  #'a' \"b\"\r "
    " \r".toList (by decide) (by decide) (by decide) (by decide)) hv6only
  have hlayout := Layout.silent (.comment [] " lab\r".toList gap_nil (by decide))
    (.silent (.blank gap_nil) hroot)
  have hread := (quoted_values_are_read_back writable).2 _ hlayout
  exact ⟨writable, hread⟩

end TftpUpload.Config
